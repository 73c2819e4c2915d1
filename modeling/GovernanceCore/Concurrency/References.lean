import GovernanceCore.Concurrency.Contract

/-!
# No execution without governance references

Under every interleaving and every failure, a workflow run that has been routed names a stored
routing decision of its task, and one that has been checked names a stored policy decision of its
task.

A call writes back a row that it computed from a copy, so the stored rows alone are not an inductive
invariant: the copies in flight must be governed too. `Valid` says that of every event in a call's
history, and it is stable because decisions are never changed or removed. The only two updates that
create an obligation, `Advance.routed` and `Advance.policyChecked`, come with the event that stored
the decision.
-/

namespace Governance

open Framework

/-- The statuses in which a run must have been checked against a policy. -/
def WorkflowStatus.isPolicyGoverned : WorkflowStatus → Bool
  | .policyChecked | .awaitingApproval | .approved | .running | .paused | .completed | .failed
  | .quarantined => true
  | _ => false

/-- The references of a run name stored decisions of its task. -/
structure Governed (s : Store) (w : WorkflowRun) : Prop where
  /-- A run that is neither new nor killed has been routed. -/
  routing : w.status ≠ .created → w.status ≠ .killed →
    ∃ d ∈ s.routingDecisions, w.routingDecisionID = some d.id ∧ d.taskID = w.taskID
  /-- A run beyond the policy check has been checked. -/
  policy : w.status.isPolicyGoverned = true →
    ∃ d ∈ s.policyDecisions, w.policyDecisionID = some d.id ∧ d.taskID = w.taskID

/-- The decisions of `s` are still stored in `s'`. -/
structure KeepsDecisions (s s' : Store) : Prop where
  routing : ∀ d ∈ s.routingDecisions, d ∈ s'.routingDecisions
  policy : ∀ d ∈ s.policyDecisions, d ∈ s'.policyDecisions

/-- The runs of `s` are still stored in `s'`, under their task. -/
def KeepsRuns (s s' : Store) : Prop :=
  ∀ w ∈ s.workflowRuns, ∃ w' ∈ s'.workflowRuns, w'.id = w.id ∧ w'.taskID = w.taskID

/-- What an event has shown to its call still holds. -/
structure Valid (e : Event Op Res) (s : Store) : Prop where
  /-- A run that was seen was governed, and its row is still there. -/
  workflow : ∀ w, seenWorkflow e = some w →
    Governed s w ∧ ∃ row ∈ s.workflowRuns, row.id = w.id ∧ row.taskID = w.taskID
  routing : ∀ d, storedRouting e = some d → d ∈ s.routingDecisions
  policy : ∀ d, storedPolicy e = some d → d.toRow ∈ s.policyDecisions

variable {s s' : Store} {w w₀ : WorkflowRun} {h : History}

/-! ### Stability -/

theorem Governed.mono (hw : Governed s w) (hs : KeepsDecisions s s') : Governed s' w where
  routing h₁ h₂ := by
    obtain ⟨d, hd, hid⟩ := hw.routing h₁ h₂
    exact ⟨d, hs.routing d hd, hid⟩
  policy h₁ := by
    obtain ⟨d, hd, hid⟩ := hw.policy h₁
    exact ⟨d, hs.policy d hd, hid⟩

/-- Being governed depends on the references, the status and the task only. -/
theorem Governed.congr (hw : Governed s w) (hstatus : w₀.status = w.status)
    (hr : w₀.routingDecisionID = w.routingDecisionID)
    (hp : w₀.policyDecisionID = w.policyDecisionID) (ht : w₀.taskID = w.taskID) :
    Governed s w₀ := by
  refine ⟨fun h₁ h₂ => ?_, fun h₁ => ?_⟩
  · rw [hr, ht]
    exact hw.routing (hstatus ▸ h₁) (hstatus ▸ h₂)
  · rw [hp, ht]
    exact hw.policy (hstatus ▸ h₁)

theorem Effect.keepsDecisions {o : Op} (he : Effect s o s') : KeepsDecisions s s' := by
  cases he with
  | routingSave hT => exact ⟨fun d hd => (Table.mem_insert hT).mpr (Or.inl hd), fun _ => id⟩
  | policySave hT => exact ⟨fun _ => id, fun d hd => (Table.mem_insert hT).mpr (Or.inl hd)⟩
  | _ => exact ⟨fun _ => id, fun _ => id⟩

theorem Effect.keepsRuns {o : Op} (he : Effect s o s') : KeepsRuns s s' := by
  intro w hw
  cases he with
  | workflowSave hT => exact ⟨w, (Table.mem_insert hT).mpr (Or.inl hw), rfl, rfl⟩
  | workflowUpdate v =>
    -- an update never touches the id or the task of the row
    by_cases hid : w.id = v.id
    · exact ⟨v.overwrite w, Store.mem_updateWorkflow.mpr (Or.inl ⟨w, hw, hid, rfl⟩), rfl, rfl⟩
    · exact ⟨w, Store.mem_updateWorkflow.mpr (Or.inr ⟨hw, hid⟩), rfl, rfl⟩
  | _ => exact ⟨w, hw, rfl, rfl⟩

theorem Valid.mono {e : Event Op Res} (hv : Valid e s) (hd : KeepsDecisions s s')
    (hr : KeepsRuns s s') : Valid e s' where
  workflow w hw := by
    obtain ⟨hgov, row, hrow, hid, htask⟩ := hv.workflow w hw
    obtain ⟨row', hrow', hid', htask'⟩ := hr row hrow
    exact ⟨hgov.mono hd, row', hrow', hid'.trans hid, htask'.trans htask⟩
  routing d h := hd.routing d (hv.routing d h)
  policy d h := hd.policy d.toRow (hv.policy d h)

/-! ### What a call writes is governed -/

/-- A status from which a run can fail, pause, wait, start, complete or be quarantined is one in
which it has been routed and checked. -/
theorem isPolicyGoverned_of_valid {source target : WorkflowStatus}
    (hv : source.isValidTransition target = true) (hk : target ≠ .killed) (hr : target ≠ .routed)
    (hp : target ≠ .policyChecked) :
    source.isPolicyGoverned = true ∧ source ≠ .created ∧ source ≠ .killed := by
  cases source <;> cases target <;>
    simp_all [WorkflowStatus.isValidTransition, WorkflowStatus.transitionTable,
      WorkflowStatus.isPolicyGoverned]

/-- A move within the checked statuses keeps the references a run has. -/
theorem Governed.moved (hw : Governed s w₀) {target : WorkflowStatus} {reason : String}
    {actor : ActorID} {now : Timestamp} (hv : w₀.status.isValidTransition target = true)
    (hr : target ≠ .routed) (hp : target ≠ .policyChecked) :
    Governed s (w₀.moved target reason actor now) := by
  by_cases hk : target = .killed
  · -- a killed run owes nothing
    subst hk
    exact ⟨fun _ h₂ => absurd rfl h₂, fun h₁ => by cases h₁⟩
  · obtain ⟨hgov, hc, hkill⟩ := isPolicyGoverned_of_valid hv hk hr hp
    exact ⟨fun _ _ => hw.routing hc hkill, fun _ => hw.policy hgov⟩

/-- **What an update writes is governed**, when what its call has seen is valid. -/
theorem Advance.governed (hadv : Advance h w₀ w) (hw : Governed s w₀)
    (hvalid : ∀ e ∈ h, Valid e s) : Governed s w := by
  cases hadv with
  | routed d reason actor now hd htask hs =>
    -- the decision was stored by this very call, and nothing is owed to the policy yet
    obtain ⟨e, he, hsee⟩ := hd
    exact ⟨fun _ _ => ⟨d, (hvalid e he).routing d hsee, rfl, htask⟩, fun h₁ => by cases h₁⟩
  | policyChecked d actor now hd htask hs =>
    obtain ⟨e, he, hsee⟩ := hd
    -- the routing reference is the one the copy had
    refine ⟨fun _ _ => hw.routing (by simp [hs]) (by simp [hs]), fun _ => ?_⟩
    exact ⟨d.toRow, (hvalid e he).policy d hsee, rfl, htask⟩
  | plain target reason actor now hs hv ht =>
    refine hw.moved hv ?_ ?_ <;> rcases ht with rfl | rfl | rfl | rfl <;> decide
  | leased target reason actor now hs hv ht hl =>
    refine hw.moved hv ?_ ?_ <;> rcases ht with rfl | rfl | rfl <;> decide
  | approved actor now hs hl =>
    -- two moves within the checked statuses
    have hv : w₀.status.isValidTransition .approved = true := by rw [hs]; decide
    exact (hw.moved hv (by decide) (by decide)).moved rfl (by decide) (by decide)
  | same hs => exact hw

theorem Advance.taskID_eq (hadv : Advance h w₀ w) : w.id = w₀.id ∧ w.taskID = w₀.taskID := by
  cases hadv <;> exact ⟨rfl, rfl⟩

/-! ### One operation -/

/-- Every stored run is governed. -/
def AllGoverned (s : Store) : Prop := ∀ w ∈ s.workflowRuns, Governed s w

theorem AllGoverned.step {o : Op} (hI : AllGoverned s) (hvalid : ∀ e ∈ h, Valid e s)
    (hperm : Permitted h o) (he : Effect s o s') : AllGoverned s' := by
  have hkeep := he.keepsDecisions
  intro w hw
  cases he with
  | workflowSave hT =>
    rcases (Table.mem_insert hT).mp hw with hw | rfl
    · exact (hI w hw).mono hkeep
    · -- a new run is in status created
      obtain ⟨id, taskID, now, rfl⟩ := hperm
      exact ⟨fun h₁ _ => absurd rfl h₁, fun h₁ => by cases h₁⟩
  | workflowUpdate v =>
    rcases Store.mem_updateWorkflow.mp hw with ⟨row, hrow, hid, rfl⟩ | ⟨hw, -⟩
    · obtain ⟨w₀, hlast, hadv⟩ := hperm
      obtain ⟨e, he, hsee⟩ := exists_of_lastSeen hlast
      obtain ⟨hgov, row', hrow', hid', htask'⟩ := (hvalid e he).workflow w₀ hsee
      -- the overwritten row is the one the call has seen, so it has the same task
      have hsame : row' = row :=
        Table.eq_of_key_eq hrow' hrow (hid'.trans (hadv.taskID_eq.1.symm.trans hid.symm))
      have htask : row.taskID = v.taskID := by
        rw [← hsame, htask', hadv.taskID_eq.2]
      exact ((hadv.governed hgov hvalid).mono hkeep).congr rfl rfl rfl htask
    · exact (hI w hw).mono hkeep
  | _ => exact (hI w hw).mono hkeep

/-- The event of an operation is valid after it. -/
theorem Valid.new {ch : Choice} {o : Op} {r : Res o} (hI' : AllGoverned s')
    (hex : exec ch s o = (r, s')) : Valid ⟨o, r⟩ s' := by
  refine ⟨fun w hw => ?_, fun d hd => ?_, fun d hd => ?_⟩
  · have hmem : w ∈ s'.workflowRuns := seenWorkflow_mem hex hw
    exact ⟨hI' w hmem, w, hmem, rfl, rfl⟩
  · unfold storedRouting at hd
    split at hd
    · next d' u heq =>
      cases heq
      cases hd
      exact routingSave_ok hex
    · cases hd
  · unfold storedPolicy at hd
    split at hd
    · next d' u heq =>
      cases heq
      cases hd
      exact policySave_ok hex
    · cases hd

/-! ### Every interleaving -/

theorem allGoverned_empty (metrics : Bool) : AllGoverned (Store.empty metrics) :=
  fun w hw => absurd hw (Table.notMem_empty w)

/-- **No execution without governance references.** In every store that any interleaving of any
calls reaches from the empty one, whatever fails on the way, a run that is neither created nor
killed names a stored routing decision of its task, and a run beyond the policy check names a stored
policy decision of its task. -/
theorem reachable_governed {metrics : Bool} {s : Store}
    (hs : governance.Reachable (Store.empty metrics) s) (w : WorkflowRun)
    (hw : w ∈ s.workflowRuns) :
    (w.status ≠ .created → w.status ≠ .killed →
      ∃ d ∈ s.routingDecisions, w.routingDecisionID = some d.id ∧ d.taskID = w.taskID) ∧
    (w.status.isPolicyGoverned = true →
      ∃ d ∈ s.policyDecisions, w.policyDecisionID = some d.id ∧ d.taskID = w.taskID) := by
  obtain ⟨p, hp, rfl⟩ := hs
  have hsound := System.Reach.sound (I := AllGoverned) (V := Valid) governance_keeps
    (allGoverned_empty metrics) ?_ hp
  · exact ⟨(hsound.1 w hw).routing, (hsound.1 w hw).policy⟩
  · intro h s o ch r s' hI hvalid hperm hex _
    have he : Effect s o s' := exec_effect hex
    have hI' := hI.step hvalid hperm he
    exact ⟨hI', Valid.new hI' hex, fun e hv => hv.mono he.keepsDecisions he.keepsRuns⟩

/-- A run that has been submitted, routed, checked and started has both references. -/
theorem reachable_governed_running :
    ∃ s, governance.Reachable (Store.empty true) s ∧ ∃ w ∈ s.workflowRuns, w.status = .running ∧
      (∃ d ∈ s.routingDecisions, w.routingDecisionID = some d.id ∧ d.taskID = w.taskID) ∧
      ∃ d ∈ s.policyDecisions, w.policyDecisionID = some d.id ∧ d.taskID = w.taskID := by
  obtain ⟨s, hreach, w, hw, hs⟩ := exists_running
  have hgov := reachable_governed hreach w hw
  exact ⟨s, hreach, w, hw, hs, hgov.1 (by rw [hs]; decide) (by rw [hs]; decide),
    hgov.2 (by rw [hs]; decide)⟩

end Governance

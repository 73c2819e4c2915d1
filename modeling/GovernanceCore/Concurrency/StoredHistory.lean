import GovernanceCore.Concurrency.References
import GovernanceCore.Domain.TransitionLog

/-!
# The stored transition log

A run is stored with its whole transition log, and an update writes the whole log back. On one copy
the methods of the aggregate keep the log a legal history of the status
(`Domain/TransitionLog.lean`). In the store many copies of one run are written, each computed from a
row that another call may have overwritten in the meantime.

Two things can be said, whatever the interleaving and whatever fails.

* `stored_log_legal`: the stored row is a legal history all the same. A stale copy was legal when it
  was read, and it is written together with its own status and its own log.
* `stored_log_grows`: what a stale copy can do is forget transitions that others have made. It is the
  only way to lose one: as long as every update finds the log that its call has read, stored logs are
  only ever extended.

Both rest on what `Advance` allows a call to write, which is its copy after at most two transitions
(`Advance.moves`).
-/

namespace Governance

open Framework Relation

/-! ### Any number of transitions -/

/-- One transition of a run. -/
def Moves (w w' : WorkflowRun) : Prop := ∃ tr, Appends w w' tr

/-- A legal history, with what its path has passed: the part of the invariant that the next
transition needs. -/
structure Recorded (w : WorkflowRun) : Prop where
  legal : LegalHistory w
  passed : Passed w.status w.path

theorem Recorded.new (id : WorkflowRunID) (taskID : TaskID) (now : Timestamp) :
    Recorded (newWorkflowRun id taskID now) :=
  ⟨.new id taskID now, .start⟩

theorem Recorded.step {w w' : WorkflowRun} (hw : Recorded w) (hmove : Moves w w') :
    Recorded w' := by
  obtain ⟨tr, ha⟩ := hmove
  refine ⟨hw.legal.step hw.passed ha, ?_⟩
  rw [ha.path_eq, ← ha.target]
  exact hw.passed.step ha.legal

theorem Recorded.of_moves {w w' : WorkflowRun} (hw : Recorded w)
    (hmoves : ReflTransGen Moves w w') : Recorded w' := by
  induction hmoves with
  | refl => exact hw
  | tail _ hmove ih => exact ih.step hmove

/-- A row that has taken over status, log and time of the last move from a copy, and has kept its
own creation, which is that of the copy. -/
theorem Recorded.overwrite {w row : WorkflowRun} (hw : Recorded w)
    (hcreated : row.createdAt = w.createdAt) : Recorded (w.overwrite row) where
  legal :=
    { chain := hw.legal.chain
      legal := hw.legal.legal
      terminal_last := hw.legal.terminal_last
      gated := hw.legal.gated
      updatedAt := by
        show w.updatedAt = (w.transitions.getLast?.map (·.timestamp)).getD row.createdAt
        rw [hcreated]
        exact hw.legal.updatedAt }
  passed := hw.passed

theorem createdAt_of_moves {w w' : WorkflowRun} (hmoves : ReflTransGen Moves w w') :
    w'.createdAt = w.createdAt := by
  induction hmoves with
  | refl => rfl
  | tail _ hmove ih =>
    obtain ⟨tr, ha⟩ := hmove
    exact ha.fixed.2.2.1.trans ih

/-- Transitions are appended. -/
theorem prefix_of_moves {w w' : WorkflowRun} (hmoves : ReflTransGen Moves w w') :
    w.transitions <+: w'.transitions := by
  induction hmoves with
  | refl => exact List.prefix_rfl
  | tail _ hmove ih =>
    obtain ⟨tr, ha⟩ := hmove
    rw [ha.transitions]
    exact ih.trans (List.prefix_append _ _)

section

variable {s s' : Store} {h : History} {w₀ w : WorkflowRun}

/-- **What a call writes is its copy, moved at most twice.** -/
theorem Advance.moves (hadv : Advance h w₀ w) : ReflTransGen Moves w₀ w := by
  cases hadv with
  | routed d reason actor now hd htask hs =>
    exact .single ⟨_, .of_moved (by rw [hs]; rfl) (by rw [hs]; rfl) (some d.id)
      w₀.policyDecisionID⟩
  | policyChecked d actor now hd htask hs =>
    exact .single ⟨_, .of_moved (by rw [hs]; rfl) (by rw [hs]; rfl) w₀.routingDecisionID
      (some d.id)⟩
  | plain target reason actor now hs hv ht =>
    exact .single ⟨_, .of_moved hs hv w₀.routingDecisionID w₀.policyDecisionID⟩
  | leased target reason actor now hs hv ht hl =>
    exact .single ⟨_, .of_moved hs hv w₀.routingDecisionID w₀.policyDecisionID⟩
  | approved actor now hs hl =>
    -- the only write that covers two transitions: `approved` is never stored
    have hfirst : Moves w₀ (w₀.moved .approved "approval granted" actor now) :=
      ⟨_, .of_moved (by rw [hs]; rfl) (by rw [hs]; rfl) w₀.routingDecisionID w₀.policyDecisionID⟩
    have hsecond : Moves (w₀.moved .approved "approval granted" actor now)
        ((w₀.moved .approved "approval granted" actor now).moved .running "starting execution"
          actor now) :=
      ⟨_, .of_moved rfl rfl w₀.routingDecisionID w₀.policyDecisionID⟩
    exact .tail (.single hfirst) hsecond
  | same hs => exact .refl

/-! ### Stored rows and the copies that calls hold -/

/-- Every stored run has a legal history. -/
def AllRecorded (s : Store) : Prop := ∀ w ∈ s.workflowRuns, Recorded w

/-- The run that an event has shown has a legal history, and its row is stored with the creation
that the copy has. -/
def CopyRecorded (e : Event Op Res) (s : Store) : Prop :=
  ∀ w, seenWorkflow e = some w →
    Recorded w ∧ ∃ row ∈ s.workflowRuns, row.id = w.id ∧ row.createdAt = w.createdAt

/-- An operation removes no run and touches neither its id nor its creation. -/
theorem Effect.keepsCreation {o : Op} (he : Effect s o s') :
    ∀ row ∈ s.workflowRuns, ∃ row' ∈ s'.workflowRuns,
      row'.id = row.id ∧ row'.createdAt = row.createdAt := by
  intro row hrow
  cases he with
  | workflowSave hT => exact ⟨row, (Table.mem_insert hT).mpr (Or.inl hrow), rfl, rfl⟩
  | workflowUpdate v =>
    by_cases hid : row.id = v.id
    · exact ⟨v.overwrite row, Store.mem_updateWorkflow.mpr (Or.inl ⟨row, hrow, hid, rfl⟩), rfl, rfl⟩
    · exact ⟨row, Store.mem_updateWorkflow.mpr (Or.inr ⟨hrow, hid⟩), rfl, rfl⟩
  | _ => exact ⟨row, hrow, rfl, rfl⟩

theorem CopyRecorded.mono {o : Op} {e : Event Op Res} (hv : CopyRecorded e s)
    (he : Effect s o s') : CopyRecorded e s' := by
  intro w hw
  obtain ⟨hrec, row, hrow, hid, hcreated⟩ := hv w hw
  obtain ⟨row', hrow', hid', hcreated'⟩ := he.keepsCreation row hrow
  exact ⟨hrec, row', hrow', hid'.trans hid, hcreated'.trans hcreated⟩

theorem CopyRecorded.new {ch : Choice} {o : Op} {r : Res o} (hI' : AllRecorded s')
    (hex : exec ch s o = (r, s')) : CopyRecorded ⟨o, r⟩ s' := by
  intro w hw
  have hmem : w ∈ s'.workflowRuns := seenWorkflow_mem hex hw
  exact ⟨hI' w hmem, w, hmem, rfl, rfl⟩

/-- The step: a new run has an empty log, and an update writes a copy of the row it overwrites. -/
theorem AllRecorded.step {o : Op} (hI : AllRecorded s) (hvalid : ∀ e ∈ h, CopyRecorded e s)
    (hperm : Permitted h o) (he : Effect s o s') : AllRecorded s' := by
  intro w hw
  cases he with
  | workflowSave hT =>
    rcases (Table.mem_insert hT).mp hw with hw | rfl
    · exact hI w hw
    · obtain ⟨id, taskID, now, rfl⟩ := hperm
      exact .new id taskID now
  | workflowUpdate v =>
    rcases Store.mem_updateWorkflow.mp hw with ⟨row, hrow, hid, rfl⟩ | ⟨hw, -⟩
    · obtain ⟨w₀, hlast, hadv⟩ := hperm
      obtain ⟨e, he, hsee⟩ := exists_of_lastSeen hlast
      obtain ⟨hrec, row', hrow', hid', hcreated'⟩ := hvalid e he w₀ hsee
      -- the copy may be stale, but it is a copy of this very row
      have hsame : row' = row :=
        Table.eq_of_key_eq hrow' hrow (hid'.trans (hadv.taskID_eq.1.symm.trans hid.symm))
      refine (hrec.of_moves hadv.moves).overwrite ?_
      rw [← hsame, hcreated', createdAt_of_moves hadv.moves]
    · exact hI w hw
  | _ => exact hI w hw

end

/-- **The stored log is a legal history in every interleaving.** In every store that any
interleaving of any calls reaches from the empty one, whatever fails on the way, the log of every
stored run leads from `created` to its stored status by legal transitions, nothing follows a
terminal status, and the run has been running only after it was routed and checked and, if an
approval was awaited, after that was granted. -/
theorem stored_log_legal {metrics : Bool} {s : Store}
    (hs : governance.Reachable (Store.empty metrics) s) :
    ∀ w ∈ s.workflowRuns, LegalHistory w := by
  obtain ⟨p, hp, rfl⟩ := hs
  have hsound := System.Reach.sound (I := AllRecorded) (V := CopyRecorded) governance_keeps
    (fun w hw => absurd hw (Table.notMem_empty w)) ?_ hp
  · exact fun w hw => (hsound.1 w hw).legal
  · intro h s o ch r s' hI hvalid hperm hex _
    have he : Effect s o s' := exec_effect hex
    have hI' := hI.step hvalid hperm he
    exact ⟨hI', .new hI' hex, fun e hv => hv.mono he⟩

/-- A run that has been started has such a log. -/
theorem stored_log_legal_running :
    ∃ s, governance.Reachable (Store.empty true) s ∧
      ∃ w ∈ s.workflowRuns, w.status = .running ∧ LegalHistory w := by
  obtain ⟨s, hreach, w, hw, hs⟩ := exists_running
  exact ⟨s, hreach, w, hw, hs, stored_log_legal hreach w hw⟩

/-! ### Forgotten transitions -/

/-- When a call updates a workflow run, the stored log is still the one it has read last. -/
def logAsRead (h : History) (s : Store) : Op → Bool
  | .workflowUpdate w => (lastSeen seenWorkflow h).all fun w₀ =>
      (s.workflowRuns.find w.id).all fun row => row.transitions = w₀.transitions
  | _ => true

/-- The runs in which every update of a workflow run finds the log its call has read. -/
def LogAsRead : Guard Store Op Res := fun h s o _ _ => logAsRead h s o = true

/-- The row with this id has a log that begins with `log`. -/
def Extends (id : WorkflowRunID) (log : List WorkflowTransition) (s : Store) : Prop :=
  ∃ w ∈ s.workflowRuns, w.id = id ∧ log <+: w.transitions

/-- The step: an update that finds the log it was computed from appends to it. -/
theorem Extends.step {s s' : Store} {h : History} {o : Op} {id : WorkflowRunID}
    {log : List WorkflowTransition} (hs : Extends id log s) (hperm : Permitted h o)
    (hread : logAsRead h s o = true) (he : Effect s o s') : Extends id log s' := by
  obtain ⟨w, hw, hid, hlog⟩ := hs
  cases he with
  | workflowSave hT => exact ⟨w, (Table.mem_insert hT).mpr (Or.inl hw), hid, hlog⟩
  | workflowUpdate v =>
    by_cases hv : w.id = v.id
    · refine ⟨v.overwrite w, Store.mem_updateWorkflow.mpr (Or.inl ⟨w, hw, hv, rfl⟩), hid, ?_⟩
      obtain ⟨w₀, hlast, hadv⟩ := hperm
      have hfind : s.workflowRuns.find v.id = some w := Table.find_eq_some_iff.mpr ⟨hw, hv⟩
      have hfound : w.transitions = w₀.transitions := by
        simpa [logAsRead, hlast, hfind] using hread
      have hgrown : w.transitions <+: v.transitions := by
        rw [hfound]
        exact prefix_of_moves hadv.moves
      exact hlog.trans hgrown
    · exact ⟨w, Store.mem_updateWorkflow.mpr (Or.inr ⟨hw, hv⟩), hid, hlog⟩
  | _ => exact ⟨w, hw, hid, hlog⟩

/-- **No transition is forgotten as long as updates find the log their call has read.** Let `p` be
any pool that any interleaving reaches from any store, and let `p'` be reached from `p` by steps in
which every update of a workflow run meets `LogAsRead`, whatever fails. Then every run that is
stored in `p` is stored in `p'`, with a log that extends the one it had. -/
theorem stored_log_grows {s₀ : Store} {p p' : Pool Call Store Op Res Err Reply}
    (hp : governance.Reach unguarded (Pool.start s₀) p) (hp' : governance.Reach LogAsRead p p')
    {w : WorkflowRun} (hw : w ∈ p.store.workflowRuns) :
    ∃ w' ∈ p'.store.workflowRuns, w'.id = w.id ∧ w.transitions <+: w'.transitions := by
  have hcontract := System.Reach.inContract governance_keeps System.inContract_start hp
  refine System.Reach.invariant (J := fun q => Extends w.id w.transitions q.store)
    governance_keeps hcontract ⟨w, hw, rfl, List.prefix_rfl⟩ (fun q c hq => hq) ?_ hp'
  intro q i t o k ch r s' _ hq _ _ hperm hex hread
  exact hq.step hperm hread (exec_effect hex)

/-- A started run, paused by a call that is alone. -/
def pausedAlone : List (System.Action Call Choice) :=
  whole 'e' 4 (.pauseWorkflow firstRun "lunch" systemActor) 4

/-- A pause extends the log of a started run. -/
theorem stored_log_grows_paused : ∃ p p' : Pool Call Store Op Res Err Reply,
    governance.Reach unguarded (Pool.start (Store.empty true)) p ∧
    governance.Reach LogAsRead p p' ∧ p'.store.statuses = [.paused] ∧
    ∃ w ∈ p.store.workflowRuns, w.status = .running ∧
      ∃ w' ∈ p'.store.workflowRuns, w'.id = w.id ∧ w.transitions <+: w'.transitions := by
  have hplay : ((carryOut runningSchedule).bind fun p =>
      (governance.play (fun h s o _ _ => logAsRead h s o) p pausedAlone).map fun p' =>
        (p.store.statuses, p'.store.statuses)) = some ([.running], [.paused]) := by
    decide +kernel
  obtain ⟨p, hp, hrest⟩ := Option.bind_eq_some_iff.mp hplay
  obtain ⟨p', hp', hstatuses⟩ := Option.map_eq_some_iff.mp hrest
  obtain ⟨hrunning, hpaused⟩ := Prod.mk.inj hstatuses
  obtain ⟨w, hw, hs⟩ := Store.exists_of_statuses hrunning
  have hguarded : governance.Reach LogAsRead p p' := System.play_reach (fun _ _ _ _ _ hg => hg) hp'
  exact ⟨p, p', carryOut_reach hp, hguarded, hpaused, w, hw, hs,
    stored_log_grows (carryOut_reach hp) hguarded hw⟩

/-- `RegisterAttempt` reads a started run and waits; `PauseWorkflow` completes; the attempt writes
its copy. -/
def pausedMeanwhile : List (System.Action Call Choice) :=
  runningSchedule ++ .spawn (.registerAttempt firstRun toolRetry) :: advances 'e' 4 0 3 ++
    whole 'f' 5 (.pauseWorkflow firstRun "lunch" systemActor) 4 ++ advances 'e' 4 3 4

/-- The targets of the stored logs. -/
def Store.loggedTargets (s : Store) : List (List WorkflowStatus) :=
  s.workflowRuns.rows.map fun w => w.transitions.map (·.target)

-- the pause has succeeded, and the stored log does not know of it
example : (carryOut pausedMeanwhile).map (fun p => p.store.loggedTargets)
    = some [[.routed, .policyChecked, .running]] := by decide +kernel

end Governance

import GovernanceCore.Lifecycle.Consistency

/-!
# Does a run keep to the decision it was checked against?

`EvaluatePolicy` stores its decision before it asks the workflow run whether it may move, so a
rejected evaluation leaves a decision behind; and `StartWorkflow` looks the decision up by task, not
by the id that the run refers to. A run that was checked against a denial is started when a later
evaluation of another action has left a milder decision and the query returns that one
(`denied_run_started`).

`running_under_decision` is what holds in the sessions in which no run is started while a decision
of its task is stored that is less restrictive than the one it refers to (`NoMilderDecision`).
-/

namespace Governance

open Framework

/-- The outcome of a stored decision, as it is read back. -/
abbrev PolicyDecisionRow.verdict (d : PolicyDecisionRow) : PolicyOutcome := d.scan.outcome

/-- When a checked run is about to be started, no stored decision of its task is less restrictive
than the one the run refers to. -/
def noMilderDecision (s : Store) : Call → Bool
  | .startWorkflow t => s.workflowRuns.rows.all fun w =>
      w.taskID ≠ t || w.status ≠ .policyChecked || s.policyDecisions.rows.all fun d =>
        w.policyDecisionID ≠ some d.id || s.policyDecisions.rows.all fun d' =>
          d'.taskID ≠ t || d.verdict.restrictiveness ≤ d'.verdict.restrictiveness
  | _ => true

/-- The sessions in which no checked run is started past a milder decision. -/
def NoMilderDecision (s : Store) (c : Call) : Prop := noMilderDecision s c = true

/-- The same condition on the view of the run. -/
def NoneMilder (v : View) (c : Call) : Prop :=
  ∀ w, v.run = some w → c = .startWorkflow w.taskID → w.status = .policyChecked →
    ∀ d ∈ v.decisions, w.policyDecisionID = some d.id →
      ∀ d' ∈ v.decisions, d'.taskID = w.taskID →
        d.verdict.restrictiveness ≤ d'.verdict.restrictiveness

variable {strict metrics : Bool} {id : WorkflowRunID} {c : Call} {ok : Bool} {v v' u : View}
  {w : WorkflowRun}

theorem NoMilderDecision.noneMilder {s : Store} (h : NoMilderDecision s c) :
    NoneMilder (view id s) c := by
  rintro w hw rfl hst d hd hid d' hd' htask
  -- three nested searches, each at the row in question
  have hmem : w ∈ s.workflowRuns.rows := (Table.find_eq_some_iff.mp hw).1
  unfold NoMilderDecision noMilderDecision at h
  have hw' := List.all_eq_true.mp h w hmem
  simp only [hst, ne_eq, not_true_eq_false, decide_false, Bool.false_or] at hw'
  have hd₁ := List.all_eq_true.mp hw' d hd
  simp only [hid, not_true_eq_false, decide_false, Bool.false_or] at hd₁
  have hd₂ := List.all_eq_true.mp hd₁ d' hd'
  simpa [htask] using hd₂

/-! ### The decision that a run refers to -/

/-- The decision that the run refers to is stored, and its outcome satisfies `P`. -/
def Refers (v : View) (w : WorkflowRun) (P : PolicyOutcome → Prop) : Prop :=
  ∃ d ∈ v.decisions, w.policyDecisionID = some d.id ∧ P d.verdict

/-- The outcome allows an execution, given the approval requests of the run. -/
def Permits (requests : List ApprovalRequest) (o : PolicyOutcome) : Prop :=
  o = .allow ∨ o = .allowWithConstraints ∨
    o = .requireApproval ∧ ∃ a ∈ requests, a.status = .approved

/-- What is known in each status about the decision that the run refers to. -/
def Justified (v : View) (w : WorkflowRun) : Prop :=
  match w.status with
  | .policyChecked => Refers v w fun _ => True
  | .awaitingApproval =>
      Refers v w fun o => o.restrictiveness ≤ PolicyOutcome.requireApproval.restrictiveness
  | .running | .paused => Refers v w (Permits v.requests)
  | _ => True

/-- An outcome that is read back is a declared one, so its restrictiveness tells which. -/
theorem PolicyDecisionRow.verdict_of_le (d : PolicyDecisionRow)
    (h : d.verdict.restrictiveness ≤ PolicyOutcome.requireApproval.restrictiveness) :
    d.verdict = .allow ∨ d.verdict = .allowWithConstraints ∨ d.verdict = .requireApproval := by
  rcases policyOutcomeFromString_declared d.outcome with h' | h' | h' | h'
  · exact Or.inl h'
  · exact Or.inr (Or.inl h')
  · exact Or.inr (Or.inr h')
  · have hdeny : d.verdict = .deny := h'
    rw [hdeny] at h
    exact absurd h (by decide)

theorem Refers.imp {P P' : PolicyOutcome → Prop} (h : Refers v w P)
    (hd : ∀ d ∈ v.decisions, d ∈ u.decisions)
    (hP : ∀ d ∈ v.decisions, w.policyDecisionID = some d.id → P d.verdict → P' d.verdict) :
    Refers u w P' := by
  obtain ⟨d, hmem, hid, hp⟩ := h
  exact ⟨d, hd d hmem, hid, hP d hmem hid hp⟩

theorem Permits.mono {requests requests' : List ApprovalRequest} {o : PolicyOutcome}
    (h : Permits requests o)
    (ha : ∀ a ∈ requests, a.status = .approved → a ∈ requests') : Permits requests' o := by
  rcases h with h | h | ⟨h, a, hmem, happ⟩
  · exact Or.inl h
  · exact Or.inr (Or.inl h)
  · exact Or.inr (Or.inr ⟨h, a, ha a hmem happ, happ⟩)

/-- Decisions are never removed and an approved request stays approved, so what is known of a run
that is not moved remains known. -/
theorem Justified.mono (h : Justified v w) (hd : ∀ d ∈ v.decisions, d ∈ u.decisions)
    (ha : ∀ a ∈ v.requests, a.status = .approved → a ∈ u.requests) : Justified u w := by
  unfold Justified at h ⊢
  split at h
  · exact h.imp hd fun _ _ _ hp => hp
  · exact h.imp hd fun _ _ _ hp => hp
  · exact h.imp hd fun _ _ _ hp => hp.mono ha
  · exact h.imp hd fun _ _ _ hp => hp.mono ha
  · trivial

/-! ### Requests that are settled -/

/-- Only a pending request is replaced. -/
theorem Settles.mem_settled {a b : ApprovalRequest} {status : ApprovalStatus}
    (h : Settles v a status) (hb : b ∈ v.requests) (hs : b.status ≠ .pending) : b ∈ v.settled a :=
  mem_overwrite.mpr (Or.inr ⟨hb, fun hid => hs (h.pending b hb hid)⟩)

theorem Settles.exists_settled {a : ApprovalRequest} {status : ApprovalStatus}
    (h : Settles v a status) : ∃ b ∈ v.settled a, b.status = status := by
  obtain ⟨b, hb, hid⟩ := h.mem
  exact ⟨a.overwrite b, mem_overwrite.mpr (Or.inl ⟨b, hb, hid, rfl⟩), h.status_eq⟩

/-! ### One step -/

theorem Justified.step (hcons : Consistent v) (hI : ∀ w, v.run = some w → Justified v w)
    (hG : NoneMilder v c) (hstep : LifeStep strict id c ok v v') :
    ∀ w, v'.run = some w → Justified v' w := by
  cases hstep with
  | quiet hc hd ht => exact fun w hw => (hI w hw).mono hd fun _ ha _ => ha
  | routed hc hs hid hrun ht => exact View.forall_run rfl trivial
  | checked hc hrun hs hd hnew ht => exact View.forall_run rfl ⟨_, hnew, rfl, trivial⟩
  | denied hc hrun hs hv ht => exact View.forall_run rfl trivial
  | awaiting hc hrun hs hv hd ha ht =>
    have hst := List.mem_singleton.mp (WorkflowStatus.mem_sources (by decide) hv)
    have hold := hI _ hrun
    unfold Justified at hold
    rw [hst] at hold
    obtain ⟨d, hmem, hid, -⟩ := hold
    refine View.forall_run rfl ⟨d, hmem, hid, ?_⟩
    -- the decision that was found need not be the one referred to, but it is not milder
    obtain ⟨d', hd', htask, hout⟩ := hd
    rw [← hout]
    exact hG _ hrun hc hst d hmem hid d' hd' htask
  | started hc hrun hl hs hv hd ht =>
    -- a run without a lease is not paused, so it has been checked and not yet started
    have hst := (hl ▸ hcons.fits _ hrun).checked hv
    have hold := hI _ hrun
    unfold Justified at hold
    rw [hst] at hold
    obtain ⟨d, hmem, hid, -⟩ := hold
    refine View.forall_run rfl ⟨d, hmem, hid, ?_⟩
    have hle : d.verdict.restrictiveness ≤ PolicyOutcome.allowWithConstraints.restrictiveness := by
      rcases hd with ⟨d', hd', htask, hout⟩ | ⟨d', hd', htask, hout⟩
      · have hle := hG _ hrun hc hst d hmem hid d' hd' htask
        rw [show d'.verdict = .allow from hout] at hle
        exact Int.le_trans hle (by decide)
      · have hle := hG _ hrun hc hst d hmem hid d' hd' htask
        rw [show d'.verdict = .allowWithConstraints from hout] at hle
        exact hle
    -- below a decision that allows there are only decisions that allow
    rcases d.verdict_of_le (Int.le_trans hle (by decide)) with h | h | h
    · exact Or.inl h
    · exact Or.inr (Or.inl h)
    · rw [h] at hle
      exact absurd hle (by decide)
  | completed hc hrun hl hactive hs hv ht => exact View.forall_run rfl trivial
  | retried hc hrun hl hactive hs hstatus ht =>
    exact fun w hw => (hI w hw).mono (fun _ h => h) fun _ ha _ => ha
  | quarantined hc hrun hl hactive hs hbudget hv ht => exact View.forall_run rfl trivial
  | paused hc hrun hs hv ht =>
    have hst := List.mem_singleton.mp (WorkflowStatus.mem_sources (by decide) hv)
    have hold := hI _ hrun
    unfold Justified at hold
    rw [hst] at hold
    exact View.forall_run rfl hold
  | resumed hc hrun hl hbudget hs hv ht =>
    have hold := hI _ hrun
    unfold Justified at hold
    rcases (hl ▸ hcons.fits _ hrun).leased hs with hst | hst
    · rw [hst] at hold
      exact View.forall_run rfl hold
    · rw [hst] at hold
      exact View.forall_run rfl hold
  | killed hc hrun hs ht => exact View.forall_run rfl trivial
  | approved hc hrun hl hs ha ht =>
    have hold := hI _ hrun
    unfold Justified at hold
    rw [hs] at hold
    obtain ⟨d, hmem, hid, hle⟩ := hold
    -- the request that has just been approved is the one a requirement asks for
    obtain ⟨b, hb, hbs⟩ := ha.exists_settled
    refine View.forall_run rfl ⟨d, hmem, hid, ?_⟩
    rcases d.verdict_of_le hle with h | h | h
    · exact Or.inl h
    · exact Or.inr (Or.inl h)
    · exact Or.inr (Or.inr ⟨h, b, hb, hbs⟩)
  | rejected hc hrun hs hv ha ht => exact View.forall_run rfl trivial
  | orphaned hc ha hstatus hrun ht =>
    -- an approved request is not pending, so it is not the one that was replaced
    refine fun w hw => (hI w hw).mono (fun _ h => h) fun a' ha' happ => ha.mem_settled ha' ?_
    rw [happ]
    decide

/-! ### Whole sessions -/

/-- **A running workflow keeps to the decision it was checked against**, in the sessions in which no
checked run is started past a milder decision: the decision it refers to is stored and allows the
execution, or requires an approval and an approval request of the run is stored as approved. In
particular it is not a denial. -/
theorem running_under_decision {tr : List (Call × Except Err Reply)} {s : Store}
    (hs : governance.Session (accepts false) NoMilderDecision (Store.empty metrics) tr s)
    (w : WorkflowRun) (hw : w ∈ s.workflowRuns) (hrunning : w.status = .running) :
    (∃ d ∈ s.policyDecisions, w.policyDecisionID = some d.id) ∧
    ∀ d ∈ s.policyDecisions, w.policyDecisionID = some d.id →
      d.scan.outcome ≠ .deny ∧
      (d.scan.outcome = .allow ∨ d.scan.outcome = .allowWithConstraints ∨
        d.scan.outcome = .requireApproval ∧
          ∃ a ∈ s.approvalRequests, a.workflowRunID = w.id ∧ a.status = .approved) := by
  have hlife : Life false metrics w.id NoneMilder tr (view w.id s) :=
    session_life w.id (fun _ _ h => h.noneMilder) hs
  have hinv : Consistent (view w.id s) ∧
      ∀ w', (view w.id s).run = some w' → Justified (view w.id s) w' := by
    refine hlife.invariant (I := fun v => Consistent v ∧ ∀ w', v.run = some w' → Justified v w')
      ⟨⟨fun _ => ⟨rfl, rfl⟩, fun w' hw' => ?_⟩, fun w' hw' => ?_⟩ fun hI hG hstep => ?_
    · cases hw'
    · cases hw'
    · exact ⟨hI.1.step hstep, Justified.step hI.1 hI.2 hG hstep⟩
  have hjust := hinv.2 w (view_run hw)
  unfold Justified at hjust
  rw [hrunning] at hjust
  obtain ⟨d, hd, hid, hpermits⟩ := hjust
  refine ⟨⟨d, hd, hid⟩, fun d' hd' hid' => ?_⟩
  -- the id is the primary key of the decisions
  obtain rfl : d' = d := Table.eq_of_key_eq hd' hd (Option.some.inj (hid'.symm.trans hid))
  rcases hpermits with h | h | ⟨h, a, ha, happ⟩
  · have h : d'.scan.outcome = .allow := h
    exact ⟨by rw [h]; decide, Or.inl h⟩
  · have h : d'.scan.outcome = .allowWithConstraints := h
    exact ⟨by rw [h]; decide, Or.inr (Or.inl h)⟩
  · have h : d'.scan.outcome = .requireApproval := h
    obtain ⟨hmem, hrun⟩ := List.mem_filter.mp ha
    exact ⟨by rw [h]; decide, Or.inr (Or.inr ⟨h, a, hmem, by simpa using hrun, happ⟩)⟩

/-- A release that was approved runs under the decision that asked for the approval. -/
theorem running_under_decision_approved : ∃ tr s,
    governance.Session (accepts false) NoMilderDecision (Store.empty true) tr s ∧
    ∃ w ∈ s.workflowRuns, w.status = .running ∧
      (∃ d ∈ s.policyDecisions, w.policyDecisionID = some d.id) ∧
      ∀ d ∈ s.policyDecisions, w.policyDecisionID = some d.id →
        d.scan.outcome ≠ .deny ∧
        (d.scan.outcome = .allow ∨ d.scan.outcome = .allowWithConstraints ∨
          d.scan.outcome = .requireApproval ∧
            ∃ a ∈ s.approvalRequests, a.workflowRunID = w.id ∧ a.status = .approved) := by
  have hmade : (makeCalls false noMilderDecision approvedCalls).map (fun st => st.2.statuses)
      = some [.running] := by decide +kernel
  obtain ⟨st, hst, hstatuses⟩ := Option.map_eq_some_iff.mp hmade
  have hs : governance.Session (accepts false) NoMilderDecision (Store.empty true) st.1 st.2 :=
    makeCalls_session (fun _ _ h => h) hst
  obtain ⟨w, hw, hrunning⟩ := Store.exists_of_statuses hstatuses
  exact ⟨st.1, st.2, hs, w, hw, hrunning, running_under_decision hs w hw hrunning⟩

/-- A run is checked against a denial; the evaluation of another action is rejected, but its
decision is stored, and it is the one that the start finds. -/
def deniedThenStarted : List (Call × List Choice) :=
  checkedCalls bugfixInput "data_deletion" ++
    [(.evaluatePolicy firstTask "edit", choices 'd'),
      (.startWorkflow firstTask, (choices 'e').map fun ch => { ch with pick := 1 })]

/-- **A run that was checked against a denial is running.** -/
theorem denied_run_started : ∃ tr s,
    governance.Session (accepts true) System.anyCall (Store.empty true) tr s ∧
    ∃ w ∈ s.workflowRuns, ∃ d ∈ s.policyDecisions, w.status = .running ∧
      w.policyDecisionID = some d.id ∧ d.scan.outcome = .deny := by
  have hmade : (makeCalls true (fun _ _ => true) deniedThenStarted).map
      (fun st => (st.2.workflowRuns.rows.map (fun w => (w.status, w.policyDecisionID)),
        st.2.policyDecisions.rows.map (fun d => (d.id, d.scan.outcome))))
      = some ([(.running, some ⟨scheduleID 'c' 3⟩)],
        [(⟨scheduleID 'c' 3⟩, .deny), (⟨scheduleID 'd' 3⟩, .allowWithConstraints)]) := by
    decide +kernel
  obtain ⟨st, hst, hrows⟩ := Option.map_eq_some_iff.mp hmade
  obtain ⟨hruns, hdecisions⟩ := Prod.mk.inj hrows
  obtain ⟨w, hw, hwrow⟩ := exists_row_of_map hruns
  obtain ⟨hrunning, href⟩ := Prod.mk.inj hwrow
  obtain ⟨d, hd, hdrow⟩ := exists_row_of_map hdecisions
  obtain ⟨hid, hdeny⟩ := Prod.mk.inj hdrow
  have hs : governance.Session (accepts true) System.anyCall (Store.empty true) st.1 st.2 :=
    makeCalls_session (fun _ _ _ => trivial) hst
  exact ⟨st.1, st.2, hs, w, hw, d, hd, hrunning, by rw [href, hid], hdeny⟩

end Governance

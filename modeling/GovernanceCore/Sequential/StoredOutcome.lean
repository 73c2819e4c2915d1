import GovernanceCore.Sequential.Leftover

/-!
# What a stored outcome is taken for

The outcome column of `policy_decisions` is an unconstrained text. `StartWorkflow` has a branch that
refuses an unknown outcome, but the repository never hands it one: `policyOutcomeFromString` reads
every text that it does not know as allow.

`stored_outcome_iff` says for which rows a start fails closed. The names of the four outcomes are
read as what they say. Any other text lets the run start, unless the call fails for another reason:
the task or its routing decision is missing, or the run may not move or has a lease already.
-/

namespace Governance

open Framework

/-- The names that `String` gives to the declared outcomes. -/
def outcomeNames : List String :=
  [PolicyOutcome.allow, .allowWithConstraints, .requireApproval, .deny].map PolicyOutcome.text

/-- The policy decision that is read is this row; whatever else is asked may be answered in any way,
also with an error. -/
def reads (row : PolicyDecisionRow) : (o : Op) → Res o → Bool
  | .policyFindByTaskID _, .ok pd => pd = row.scan
  | _, _ => true

/-- No run is stored as running under this id. -/
def Store.Idle (s : Store) (id : WorkflowRunID) : Prop :=
  ∀ w ∈ s.workflowRuns, w.id = id → w.status ≠ .running

/-- The text of the decision is taken for what it says: the run is running after a call that reads
the decision only if the text allows it, and a text that names no outcome is refused. -/
def FailsClosed (s : Store) (taskID : TaskID) (row : PolicyDecisionRow) (wf : WorkflowRun) : Prop :=
  ∀ res s', (startWorkflow taskID).Runs (governance.Alone (reads row)) s res s' →
    (¬s'.Idle wf.id → row.outcome = "allow" ∨ row.outcome = "allow_with_constraints") ∧
    (row.outcome ∉ outcomeNames → (∃ e, res = .error e) ∧ s' = s)

/-! ### The outcome that is read -/

theorem policyOutcomeFromString_of_not_mem {text : String} (h : text ∉ outcomeNames) :
    policyOutcomeFromString text = .allow := by
  unfold policyOutcomeFromString
  split
  · rfl
  · exact absurd (by decide) h
  · exact absurd (by decide) h
  · exact absurd (by decide) h
  · rfl

section Start

variable {s : Store} {taskID : TaskID} {row : PolicyDecisionRow} {wf : WorkflowRun}

/-- A call gets to its branches with a run of a task that is stored and routed, and has changed
nothing. -/
theorem startWorkflow_wp {Q : Except Err WorkflowRun → Store → Prop}
    (hfail : ∀ e, Q (.error e) s)
    (hstart : ∀ tk wf now, s.tasks.find taskID = some tk →
      (∃ d ∈ s.routingDecisions, d.taskID = taskID) → wf ∈ s.workflowRuns → wf.taskID = taskID →
      (startAs tk.id wf row.scan now).wp (governance.Alone (reads row)) Q s) :
    (startWorkflow taskID).wp (governance.Alone (reads row)) Q s := by
  refine wp_read rfl fun r hfind => wp_orFail hfail fun tk htk => ?_
  have htask : s.tasks.find taskID = some tk := (query_eq hfind.choose_spec.1).2 tk htk
  refine wp_read rfl fun r hfind => wp_orCause hfail fun d hd => ?_
  obtain ⟨hmem, hrouted⟩ := pick_eq_some ((query_eq hfind.choose_spec.1).2 d hd)
  -- of the decisions of the task it is this row that is read
  refine wp_read rfl fun r hread => wp_orCause hfail fun pd hpd => ?_
  subst hpd
  obtain rfl : pd = row.scan := of_decide_eq_true hread.choose_spec.2
  refine wp_read rfl fun r hfind => wp_orCause hfail fun wf hwf => ?_
  obtain ⟨hrun, hwfTask⟩ := pick_eq_some ((query_eq hfind.choose_spec.1).2 wf hwf)
  refine wp_read rfl fun now _ => ?_
  exact hstart tk wf now htask ⟨d, hmem, of_decide_eq_true hrouted⟩ hrun
    (of_decide_eq_true hwfTask)

/-! ### Texts that do not allow the run to start -/

/-- The operations that may store a running run. -/
def Op.starts : Op → Bool
  | .workflowSave _ => true
  | .workflowUpdate w => w.status = .running
  | _ => false

theorem idle_step {ok : (o : Op) → Res o → Bool} {o : Op} {r : Res o} {s' : Store}
    {id : WorkflowRunID} (ho : o.starts = false) (hstep : governance.Alone ok s o r s')
    (hidle : s.Idle id) : s'.Idle id := by
  obtain ⟨ch, hex, -⟩ := hstep
  have heffect := exec_effect hex
  cases heffect with
  | workflowSave => cases ho
  | workflowUpdate v =>
    intro w hw hid
    rcases Store.mem_updateWorkflow.mp hw with ⟨row, -, -, rfl⟩ | ⟨hw, -⟩
    · -- the row takes the status that is written
      exact of_decide_eq_false ho
    · exact hidle w hw hid
  | _ => exact hidle

theorem wp_idle {α : Type} {ok : (o : Op) → Res o → Bool} {o : Op} {k : Res o → UseCase α}
    {id : WorkflowRunID} (ho : o.starts = false) (hidle : s.Idle id)
    (h : ∀ r s', s'.Idle id → (k r).wp (governance.Alone ok) (fun _ s' => s'.Idle id) s') :
    (Program.act o k).wp (governance.Alone ok) (fun _ s' => s'.Idle id) s :=
  fun r s' hstep => h r s' (idle_step ho hstep hidle)

theorem startDenied_idle {ok : (o : Op) → Res o → Bool} {id : WorkflowRunID} (tID : TaskID)
    (pd : PolicyDecision) (now : Timestamp) (hidle : s.Idle id) :
    (startDenied tID wf pd now).wp (governance.Alone ok) (fun _ s' => s'.Idle id) s := by
  refine wp_orWrap (fun _ => hidle) fun wf' hwf' => ?_
  obtain ⟨-, -, rfl⟩ := WorkflowRun.transitionTo_eq_ok_iff.mp hwf'
  refine wp_idle rfl hidle fun r s₁ hidle => wp_orFail (fun _ => hidle) fun _ _ => ?_
  refine wp_idle rfl hidle fun _ s₂ hidle => ?_
  refine wp_idle rfl hidle fun _ s₃ hidle => ?_
  exact wp_idle rfl hidle fun _ s₄ hidle => hidle

theorem startAwaiting_idle {ok : (o : Op) → Res o → Bool} {id : WorkflowRunID} (tID : TaskID)
    (pd : PolicyDecision) (now : Timestamp) (hidle : s.Idle id) :
    (startAwaiting tID wf pd now).wp (governance.Alone ok) (fun _ s' => s'.Idle id) s := by
  refine wp_orWrap (fun _ => hidle) fun wf' hwf' => ?_
  obtain ⟨-, -, rfl⟩ := WorkflowRun.transitionTo_eq_ok_iff.mp hwf'
  refine wp_idle rfl hidle fun reqID s₁ hidle => wp_orWrap (fun _ => hidle) fun req _ => ?_
  refine wp_idle rfl hidle fun r s₂ hidle => wp_orFail (fun _ => hidle) fun _ _ => ?_
  refine wp_idle rfl hidle fun r s₃ hidle => wp_orFail (fun _ => hidle) fun _ _ => ?_
  refine wp_idle rfl hidle fun _ s₄ hidle => ?_
  exact wp_idle rfl hidle fun _ s₅ hidle => hidle

theorem startWorkflow_idle {id : WorkflowRunID} (hidle : s.Idle id)
    (houtcome : row.scan.outcome = .requireApproval ∨ row.scan.outcome = .deny) :
    (startWorkflow taskID).wp (governance.Alone (reads row)) (fun _ s' => s'.Idle id) s := by
  refine startWorkflow_wp (fun _ => hidle) fun tk wf now _ _ _ _ => ?_
  unfold startAs
  rcases houtcome with h | h
  · rw [h]
    exact startAwaiting_idle tk.id row.scan now hidle
  · rw [h]
    exact startDenied_idle tk.id row.scan now hidle

/-! ### A run that has a lease already -/

theorem leaseSave_refused {ok : (o : Op) → Res o → Bool} {l : ExecutionLease}
    {r : Except RepoError Unit} {s' : Store}
    (hlease : (s.executionLeases.lookup l.workflowRunID).isSome = true)
    (hstep : governance.Alone ok s (.leaseSave l) r s') : s' = s ∧ ∃ e, r = .error e := by
  obtain ⟨ch, hex, -⟩ := hstep
  rcases write_eq hex with heffect | hrefused
  · -- the index on the run refuses a second lease
    obtain ⟨T, hT, -⟩ := inserted_eq_ok_iff.mp heffect
    have hnone := (IndexedTable.insert_eq_some_iff.mp hT).1.2
    change s.executionLeases.lookup l.workflowRunID = none at hnone
    rw [hnone] at hlease
    cases hlease
  · exact hrefused

theorem startRunning_refused {ok : (o : Op) → Res o → Bool} (tID : TaskID) (now : Timestamp)
    (hlease : wf.status.admits .running = true →
      (s.executionLeases.lookup wf.id).isSome = true) :
    (startRunning tID wf now).wp (governance.Alone ok)
      (fun res s' => (∃ e, res = .error e) ∧ s' = s) s := by
  refine wp_orWrap (fun e => ⟨⟨e, rfl⟩, rfl⟩) fun wf' hwf' => ?_
  obtain ⟨hterminal, hvalid, rfl⟩ := WorkflowRun.transitionTo_eq_ok_iff.mp hwf'
  have hadmits : wf.status.admits .running = true := by
    rw [WorkflowStatus.admits, hterminal, hvalid]
    rfl
  rw [createLease_eq]
  refine wp_read rfl fun id _ => ?_
  intro (r : Except RepoError Unit) s' hsave
  obtain ⟨rfl, e, rfl⟩ := leaseSave_refused (hlease hadmits) hsave
  exact ⟨⟨_, rfl⟩, rfl⟩

/-! ### A run that starts -/

theorem startRunning_runs (tID : TaskID) (hwf : wf ∈ s.workflowRuns)
    (hadmits : wf.status.admits .running = true)
    (hlease : s.executionLeases.lookup wf.id = none) :
    ∃ w s', (startRunning tID wf 0).Runs (governance.Alone (reads row)) s (.ok w) s' ∧
      ¬s'.Idle wf.id := by
  obtain ⟨text, hfresh, -⟩ := s.exists_fresh
  let lease := defaultLease ⟨text⟩ wf.id 0
  have hnew : s.executionLeases.find lease.toRow.id = none :=
    Table.find_eq_none_iff.mpr fun l hl hid => (hfresh.lease l hl).1 (congrArg ID.text hid)
  obtain ⟨T, hT, -⟩ := IndexedTable.exists_insert (r := lease.toRow) hnew hlease
  have hsave : exec {} s (.leaseSave lease) = (.ok (), { s with executionLeases := T }) :=
    write_of_insert hT
  let started := wf.moved .running "policy allowed" systemActor 0
  let s₁ := ({ s with executionLeases := T } : Store).updateWorkflow started
  -- once the run is stored the call succeeds: what the audit trail answers is dropped
  obtain ⟨r, s₂, hrecord⟩ : ∃ r s₂, governance.Alone (reads row) s₁
      (.auditRecord systemActor "workflow_started" "running" [] (some tID) (some started.id))
      r s₂ := ⟨_, _, {}, rfl, rfl⟩
  have hruns : s₂.workflowRuns = s₁.workflowRuns := workflowRuns_eq rfl hrecord
  refine ⟨started,
    { s₂ with notifications := s₂.notifications ++ [.executionReady started lease] }, ?_, ?_⟩
  · refine runs_orWrap (transitionTo_of_admits hadmits _ _ _) ?_
    rw [createLease_eq]
    refine runs_step { id := text } (⟨text⟩ : ExecutionLeaseID) rfl rfl ?_
    refine runs_step {} (.ok () : Except RepoError Unit) hsave rfl ?_
    refine runs_step {} (.ok () : Except RepoError Unit) rfl rfl ?_
    refine .act hrecord ?_
    exact runs_step {} () rfl rfl (.ret _ _)
  · intro hidle
    refine hidle (started.overwrite wf) ?_ rfl rfl
    change started.overwrite wf ∈ s₂.workflowRuns
    rw [hruns]
    exact Store.mem_updateWorkflow.mpr (Or.inl ⟨wf, hwf, rfl, rfl⟩)

theorem startWorkflow_starts {tk : Task} {d : RoutingDecision} (hrow : row ∈ s.policyDecisions)
    (hrowTask : row.taskID = taskID) (hwf : wf ∈ s.workflowRuns) (hwfTask : wf.taskID = taskID)
    (hadmits : wf.status.admits .running = true) (htask : s.tasks.find taskID = some tk)
    (hd : d ∈ s.routingDecisions) (hdTask : d.taskID = taskID)
    (hlease : s.executionLeases.lookup wf.id = none) (hname : row.outcome ∉ outcomeNames) :
    ∃ w s', (startWorkflow taskID).Runs (governance.Alone (reads row)) s (.ok w) s' ∧
      ¬s'.Idle wf.id := by
  obtain ⟨l, hrouting⟩ := exists_pick hd hdTask
  obtain ⟨m, hpolicy⟩ := exists_pick hrow hrowTask
  obtain ⟨n, hrun⟩ := exists_pick hwf hwfTask
  have hscan : (pick s.policyDecisions.rows (fun d => decide (d.taskID = taskID)) m).map
      PolicyDecisionRow.scan = some row.scan := by
    rw [hpolicy]
    rfl
  have houtcome : row.scan.outcome = .allow := policyOutcomeFromString_of_not_mem hname
  obtain ⟨w, s', hstart, hrunning⟩ :
      ∃ w s', (startRunning tk.id wf 0).Runs (governance.Alone (reads row)) s (.ok w) s' ∧
        ¬s'.Idle wf.id := startRunning_runs tk.id hwf hadmits hlease
  refine ⟨w, s', ?_, hrunning⟩
  refine runs_step {} (.ok tk : Except RepoError Task) (query_of_found rfl htask) rfl ?_
  refine runs_step { pick := l } (.ok d : Except RepoError RoutingDecision)
    (query_of_found rfl hrouting) rfl ?_
  refine runs_step { pick := m } (.ok row.scan : Except RepoError PolicyDecision)
    (query_of_found rfl hscan) (decide_eq_true rfl) ?_
  refine runs_step { pick := n } (.ok wf : Except RepoError WorkflowRun)
    (query_of_found rfl hrun) rfl ?_
  refine runs_step {} (0 : Timestamp) rfl rfl ?_
  change (startAs tk.id wf row.scan 0).Runs _ _ _ _
  unfold startAs
  rw [houtcome]
  exact hstart

end Start

/-! ### Failing closed -/

/-- A call that is rejected without an effect fails closed, whatever the text. -/
theorem failsClosed_of_refused {s : Store} {taskID : TaskID} {row : PolicyDecisionRow}
    {wf : WorkflowRun} (hidle : s.Idle wf.id)
    (h : (startWorkflow taskID).wp (governance.Alone (reads row))
      (fun res s' => (∃ e, res = .error e) ∧ s' = s) s) : FailsClosed s taskID row wf := by
  intro res s' hrun
  obtain ⟨herr, rfl⟩ := hrun.of_wp h
  exact ⟨fun hrunning => absurd hidle hrunning, fun _ => ⟨herr, rfl⟩⟩

/-- The four names are read as what they say. -/
theorem failsClosed_of_name {s : Store} {taskID : TaskID} {row : PolicyDecisionRow}
    {wf : WorkflowRun} (hidle : s.Idle wf.id) (hname : row.outcome ∈ outcomeNames) :
    FailsClosed s taskID row wf := by
  intro res s' hrun
  refine ⟨fun hrunning => ?_, fun hunknown => absurd hname hunknown⟩
  have hnames : row.outcome = "allow" ∨ row.outcome = "allow_with_constraints" ∨
      row.outcome = "require_approval" ∨ row.outcome = "deny" := by
    simpa [outcomeNames, PolicyOutcome.text] using hname
  rcases hnames with h | h | h | h
  · exact Or.inl h
  · exact Or.inr h
  · have houtcome : row.scan.outcome = .requireApproval := congrArg policyOutcomeFromString h
    exact absurd (hrun.of_wp (startWorkflow_idle hidle (Or.inl houtcome))) hrunning
  · have houtcome : row.scan.outcome = .deny := congrArg policyOutcomeFromString h
    exact absurd (hrun.of_wp (startWorkflow_idle hidle (Or.inr houtcome))) hrunning

/-- **Which stored outcomes fail closed.** For every store, every row of `policy_decisions`, with
whatever text as its outcome, and every policy-checked run: a start that reads the decision fails
closed exactly when the text is one of the four names, or the call fails anyway, because the task or
its routing decision is missing or every run of the task that may move to running has a lease. -/
theorem stored_outcome_iff (s : Store) (taskID : TaskID) (row : PolicyDecisionRow)
    (wf : WorkflowRun) (hrow : row ∈ s.policyDecisions) (hrowTask : row.taskID = taskID)
    (hwf : wf ∈ s.workflowRuns) (hstatus : wf.status = .policyChecked) :
    FailsClosed s taskID row wf ↔
      row.outcome ∈ outcomeNames ∨ s.tasks.find taskID = none ∨
      (∀ d ∈ s.routingDecisions, d.taskID ≠ taskID) ∨
      ∀ w ∈ s.workflowRuns, w.taskID = taskID → w.status.admits .running = true →
        (s.executionLeases.lookup w.id).isSome = true := by
  have hidle : s.Idle wf.id := by
    intro w hw hid
    rw [Table.eq_of_key_eq hw hwf hid, hstatus]
    decide
  refine ⟨fun hclosed => ?_, fun h => ?_⟩
  · -- otherwise a run of the task is started
    by_contra hopen
    simp only [not_or, not_forall, not_not, Bool.not_eq_true, Option.isSome_eq_false_iff,
      Option.isNone_iff_eq_none] at hopen
    obtain ⟨hname, htask, ⟨d, hd, hdTask⟩, ⟨w, hw, hwTask, hadmits, hlease⟩⟩ := hopen
    obtain ⟨tk, htk⟩ := Option.ne_none_iff_exists'.mp htask
    obtain ⟨w', s', hrun, -⟩ := startWorkflow_starts hrow hrowTask hw hwTask hadmits htk hd hdTask
      hlease hname
    obtain ⟨⟨e, he⟩, -⟩ := (hclosed _ _ hrun).2 hname
    cases he
  · by_cases hname : row.outcome ∈ outcomeNames
    · exact failsClosed_of_name hidle hname
    · have houtcome : row.scan.outcome = .allow := policyOutcomeFromString_of_not_mem hname
      refine failsClosed_of_refused hidle (startWorkflow_wp (fun e => ⟨⟨e, rfl⟩, rfl⟩) ?_)
      rintro tk w now htk ⟨d, hd, hdTask⟩ hw hwTask
      -- the call has got past the task and the routing decision, so it is the lease
      rcases h with h | htask | hrouting | hlease
      · exact absurd h hname
      · rw [htask] at htk
        cases htk
      · exact absurd hdTask (hrouting d hd)
      · unfold startAs
        rw [houtcome]
        exact startRunning_refused tk.id now (hlease w hw hwTask)

/-- A decision that was stored under its name. -/
theorem stored_outcome_checked :
    ∃ s row wf, governance.Reachable (Store.empty true) s ∧ row ∈ s.policyDecisions ∧
      row.outcome = "deny" ∧ wf ∈ s.workflowRuns ∧ wf.status = .policyChecked ∧
      FailsClosed s firstTask row wf := by
  have hplay : (carryOut (checkedSchedule "data_deletion")).map (fun p =>
      (p.store.policyDecisions.rows.map (fun d => (d.taskID, d.outcome)),
        p.store.workflowRuns.rows.map (fun w => (w.taskID, w.status)))) =
      some ([(firstTask, "deny")], [(firstTask, .policyChecked)]) := by decide +kernel
  obtain ⟨p, hp, hrows⟩ := Option.map_eq_some_iff.mp hplay
  obtain ⟨hpolicy, hruns⟩ := Prod.mk.inj hrows
  obtain ⟨row, hrow, hrowFacts⟩ := exists_row_of_map hpolicy
  obtain ⟨wf, hwf, hwfFacts⟩ := exists_row_of_map hruns
  obtain ⟨hrowTask, houtcome⟩ := Prod.mk.inj hrowFacts
  have hstatus : wf.status = .policyChecked := (Prod.mk.inj hwfFacts).2
  refine ⟨p.store, row, wf, ⟨p, carryOut_reach hp, rfl⟩, hrow, houtcome, hwf, hstatus, ?_⟩
  refine (stored_outcome_iff _ _ row wf hrow hrowTask hwf hstatus).mpr (Or.inl ?_)
  rw [houtcome]
  decide

/-- The outcome column of the decision on the first task, written with a capital. -/
def Store.misspelt (s : Store) : Store :=
  { s with
    policyDecisions := s.policyDecisions.modify ⟨scheduleID 'c' 3⟩
      (fun row => { row with outcome := "Deny" }) fun _ => rfl }

/-- A denial under another spelling lets the run start. -/
theorem misspelt_denial_starts :
    ∃ s row wf, row ∈ s.policyDecisions ∧ row.taskID = firstTask ∧ row.outcome = "Deny" ∧
      wf ∈ s.workflowRuns ∧ wf.taskID = firstTask ∧ wf.status = .policyChecked ∧
      ¬FailsClosed s firstTask row wf ∧
      ∃ w s', (startWorkflow firstTask).Runs (governance.Alone (reads row)) s (.ok w) s' ∧
        ∃ w ∈ s'.workflowRuns, w.id = wf.id ∧ w.status = .running := by
  have hplay : (carryOut (checkedSchedule "data_deletion")).map (fun p =>
      (p.store.misspelt.policyDecisions.rows.map (fun d => (d.taskID, d.outcome)),
        p.store.misspelt.workflowRuns.rows.map (fun w => (w.taskID, w.status)),
        p.store.misspelt.routingDecisions.rows.map RoutingDecision.taskID,
        (p.store.misspelt.tasks.find firstTask).isSome,
        p.store.misspelt.executionLeases.rows.length)) =
      some ([(firstTask, "Deny")], [(firstTask, .policyChecked)], [firstTask], true, 0) := by
    decide +kernel
  obtain ⟨p, -, hfacts⟩ := Option.map_eq_some_iff.mp hplay
  obtain ⟨hpolicy, hfacts⟩ := Prod.mk.inj hfacts
  obtain ⟨hruns, hfacts⟩ := Prod.mk.inj hfacts
  obtain ⟨hrouting, hfacts⟩ := Prod.mk.inj hfacts
  obtain ⟨htask, hleases⟩ := Prod.mk.inj hfacts
  obtain ⟨row, hrow, hrowFacts⟩ := exists_row_of_map hpolicy
  obtain ⟨hrowTask, houtcome⟩ := Prod.mk.inj hrowFacts
  obtain ⟨wf, hwf, hwfFacts⟩ := exists_row_of_map hruns
  obtain ⟨hwfTask, hstatus⟩ := Prod.mk.inj hwfFacts
  obtain ⟨d, hd, hdTask⟩ := exists_row_of_map hrouting
  obtain ⟨tk, htk⟩ := Option.isSome_iff_exists.mp htask
  have hlease : p.store.misspelt.executionLeases.lookup wf.id = none := by
    rw [IndexedTable.lookup_eq_none_iff]
    intro l hl
    rw [IndexedTable.mem_def, List.eq_nil_of_length_eq_zero hleases] at hl
    cases hl
  have hname : row.outcome ∉ outcomeNames := by
    rw [houtcome]
    decide
  have hadmits : wf.status.admits .running = true := by
    rw [hstatus]
    rfl
  obtain ⟨w, s', hrun, hrunning⟩ := startWorkflow_starts hrow hrowTask hwf hwfTask hadmits htk hd
    hdTask hlease hname
  refine ⟨p.store.misspelt, row, wf, hrow, hrowTask, houtcome, hwf, hwfTask, hstatus,
    fun hclosed => ?_, w, s', hrun, ?_⟩
  · obtain ⟨⟨e, he⟩, -⟩ := (hclosed _ _ hrun).2 hname
    cases he
  · unfold Store.Idle at hrunning
    push Not at hrunning
    exact hrunning

end Governance

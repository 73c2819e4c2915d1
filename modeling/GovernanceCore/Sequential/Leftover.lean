import GovernanceCore.Sequential.Pipeline
import GovernanceCore.Sequential.Rejection

/-!
# What rejected decisions leave behind

`RouteTask` and `EvaluatePolicy` store their decision before they ask the workflow run whether it
may move, and `ResolveApproval` stores the resolved request before it does. When the run refuses,
the call returns an error and the decision stays.

Whether that can happen is a question about the store before the call. `decision_rejection_iff` and
`resolution_rejection_iff` answer it: a rejected call leaves no trace exactly when the run is in the
status that the transition asks for. One direction is the rule of `Framework/Commit.lean`, with the
decision as the first write. For the other one the run that is refused is built step by step.
-/

namespace Governance

open Framework

/-! ### The runs between two writes of them -/

def Op.writesRun : Op → Bool
  | .workflowSave _ | .workflowUpdate _ => true
  | _ => false

theorem workflowRuns_eq {ok : (o : Op) → Res o → Bool} {s s' : Store} {o : Op} {r : Res o}
    (ho : o.writesRun = false) (h : governance.Alone ok s o r s') :
    s'.workflowRuns = s.workflowRuns := by
  obtain ⟨ch, hex, -⟩ := h
  have heffect := exec_effect hex
  cases heffect with
  | workflowSave | workflowUpdate => cases ho
  | _ => rfl

/-! ### Rules for what follows a write -/

section Rules

variable {α β : Type} {s : Store} {step : Store → (o : Op) → Res o → Store → Prop}
  {f : α → UseCase β}

theorem succeeds_orWrap {msg : String} {r : Except Err α} {a : α} (hr : r = .ok a)
    (h : (f a).Succeeds step s) : (orWrap msg r >>= f).Succeeds step s := by
  rw [hr]
  exact h

theorem succeeds_wrapError {msg : String} {p : UseCase α} (hp : p.Succeeds step s) :
    (wrapError msg p).Succeeds step s := by
  induction p generalizing s with
  | ret a => exact Program.Succeeds.ret a s
  | fail e =>
    obtain ⟨a, ha⟩ := hp
    cases ha
  | act o k ih => exact Program.Succeeds.act fun r s' hstep => ih r (hp r s' hstep)

/-- The audit trail is a repository like the others here. -/
theorem succeeds_record {actor : ActorID} {action outcome : String} {ctx : AuditContext}
    {taskID : Option TaskID} {wfID : Option WorkflowRunID} {msg : String} {f : Unit → UseCase β}
    (h : ∀ s', (f ()).Succeeds (governance.Alone (accepts true)) s') :
    (Audit.record actor action outcome ctx taskID wfID >>= fun r => orFail msg r >>= f).Succeeds
      (governance.Alone (accepts true)) s := by
  refine Program.Succeeds.act fun (r : Except RepoError Unit) s' hstep => ?_
  obtain ⟨ch, -, hok⟩ := hstep
  cases r with
  | ok => exact h s'
  | error e => cases hok

/-! In the other direction a run is built step by step. -/

theorem runs_step {ok : (o : Op) → Res o → Bool} {o : Op} {k : Res o → UseCase α}
    {res : Except Err α} {s₁ s' : Store} (ch : Choice) (r : Res o) (hex : exec ch s o = (r, s₁))
    (hok : ok o r = true) (hrest : (k r).Runs (governance.Alone ok) s₁ res s') :
    (Program.act o k).Runs (governance.Alone ok) s res s' :=
  .act ⟨ch, hex, hok⟩ hrest

/-- A row with a new key is stored. -/
theorem write_of_insert {T : Type} {doing : String} {index : UniqueIndex} {t : Option T} {t' : T}
    {set : T → Store} (ht : t = some t') :
    write {} s doing (inserted doing index t set) = (.ok (), set t') := by
  rw [ht]
  rfl

theorem runs_orWrap {msg : String} {r : Except Err α} {a : α} {res : Except Err β} {s' : Store}
    (hr : r = .ok a) (h : (f a).Runs step s res s') : (orWrap msg r >>= f).Runs step s res s' := by
  rw [hr]
  exact h

theorem runs_of_eq_fail {p : UseCase α} {e : Err} (h : p = .fail e) :
    p.Runs step s (.error e) s := by
  rw [h]
  exact .fail e s

theorem runs_orWrap_error {msg : String} {r : Except Err α} {e : Err} (hr : r = .error e) :
    (orWrap msg r >>= f).Runs step s (.error (.context msg e)) s := by
  rw [hr]
  exact .fail _ s

end Rules

/-! ### RouteTask -/

/-- A routing decision that is stored for the task can be carried out: every run of the task is
still to be routed. For a task that is not stored, or without an id, no decision is built. -/
def Store.RoutesCleanly (s : Store) (taskID : TaskID) : Prop :=
  ∀ t, s.tasks.find taskID = some t → taskID.text ≠ "" →
    ∀ w ∈ s.workflowRuns, w.taskID = taskID → w.status = .created

section Route

variable {s s' : Store}

theorem createSubtasks_succeeds (parent : Task) (now : Timestamp) (suffixes : List String)
    (s : Store) :
    (createSubtasks parent now suffixes).Succeeds (governance.Alone (accepts true)) s := by
  induction suffixes generalizing s with
  | nil => exact Program.Succeeds.ret _ _
  | cons suffix rest ih =>
    refine Program.Succeeds.act fun id s' _ => ?_
    refine succeeds_orWrap (newTask_eq_ok (isBlank_decompose _ _)) ?_
    refine succeeds_write rfl fun r s' hr => succeeds_orFail hr fun _ _ => ?_
    exact succeeds_record fun s' => ih s'

/-- The part of `RouteTask` after the run has moved. -/
theorem routed_succeeds (t : Task) (taskID : TaskID) (wf : WorkflowRun)
    (result : Routing.EvaluatorResult) (rd : RoutingDecision) (now : Timestamp) (s : Store) :
    (do
      orFail "updating workflow run" (← WfRepo.update wf)
      let auditCtx := (AuditContext.withStrategy [] result.selectedStrategy.text).withAgentRole
        result.selectedRole.text
      orFail "recording audit"
        (← Audit.record systemActor "task_routed" result.selectedStrategy.text auditCtx
          (some taskID) (some wf.id))
      if result.selectedStrategy = .decompose then
        wrapError "creating decompose subtasks" (createSubtasks t now (subtaskSuffixes t.scope))
      return rd : UseCase RoutingDecision).Succeeds (governance.Alone (accepts true)) s := by
  refine succeeds_write rfl fun r s' hr => succeeds_orFail hr fun _ _ => ?_
  refine succeeds_record fun s' => ?_
  split
  · refine Program.Succeeds.bind ?_ fun _ s' => Program.Succeeds.ret _ _
    exact succeeds_wrapError (createSubtasks_succeeds t now _ s')
  · exact Program.Succeeds.ret _ _

/-- A run that is created for the call may be routed, and so may one that was not routed yet. -/
theorem loadOrCreateWorkflow_created {taskID : TaskID} {now : Timestamp}
    (hcreated : ∀ w ∈ s.workflowRuns, w.taskID = taskID → w.status = .created) :
    (loadOrCreateWorkflow taskID now).wp (governance.Alone (accepts true))
      (fun res _ => ∃ wf, res = .ok wf ∧ wf.status = .created) s := by
  intro (r : Except RepoError WorkflowRun) s₁ hlookup
  obtain ⟨ch, hex, -⟩ := hlookup
  cases r with
  | ok wf =>
    obtain ⟨hmem, htaskID⟩ := pick_eq_some ((query_eq hex).2 wf rfl)
    exact ⟨wf, rfl, hcreated wf hmem (of_decide_eq_true htaskID)⟩
  | error e =>
    intro wfID s₂ _ (r : Except RepoError Unit) s₃ hsave
    have hr := succeeds_of_settles rfl hsave
    cases r with
    | ok => exact ⟨_, rfl, rfl⟩
    | error e => cases hr

/-- The decision is stored first, and then the run is asked. -/
theorem routeTask_clean {taskID : TaskID} (hcreated : s.RoutesCleanly taskID) :
    (routeTask taskID).Clean (governance.Alone (accepts true)) s := by
  refine clean_read rfl fun r hfind => clean_orFail fun t ht => ?_
  have htask : s.tasks.find taskID = some t := (query_eq hfind.choose_spec.1).2 t ht
  refine clean_read rfl fun memCtx _ => ?_
  refine clean_read rfl fun stats _ => ?_
  refine clean_read rfl fun now _ => ?_
  refine clean_read rfl fun rdID _ => clean_orWrap fun rd hrd => ?_
  have hruns := hcreated t htask (taskID_ne_of_newRoutingDecision hrd)
  -- from here on the call has to succeed
  refine Program.Clean.act fun r s₁ hsave => Or.inr ?_
  refine succeeds_orFail (succeeds_of_settles rfl hsave) fun _ _ => ?_
  rw [← workflowRuns_eq rfl hsave] at hruns
  refine Program.Succeeds.bind_wp (loadOrCreateWorkflow_created hruns) fun wf s₂ hwf => ?_
  refine succeeds_orWrap (WorkflowRun.markRouted_eq_ok_iff.mpr ⟨hwf, rfl⟩) ?_
  exact routed_succeeds t taskID _ _ rd now _

/-- A run that is refused after the decision was stored. -/
theorem routeTask_leaves {taskID : TaskID} {t : Task} {w : WorkflowRun}
    (htask : s.tasks.find taskID = some t) (htext : taskID.text ≠ "") (hw : w ∈ s.workflowRuns)
    (htaskID : w.taskID = taskID) (hstatus : w.status ≠ .created) :
    ∃ e s', (Call.routeTask taskID).body.Runs (governance.Alone (accepts true)) s (.error e) s' ∧
      s'.routingDecisions ≠ s.routingDecisions := by
  obtain ⟨text, hfresh, -⟩ := s.exists_fresh
  obtain ⟨n, hpick⟩ := exists_pick hw htaskID
  obtain ⟨hreason, hlength⟩ := evaluate_complete t none none
  let result := Routing.evaluate t none none
  let rd : RoutingDecision := ⟨⟨text⟩, taskID, result.evaluations, result.selectedStrategy,
    result.selectedRole, result.reason, [], 0⟩
  have hrd : newRoutingDecision ⟨text⟩ taskID result.evaluations result.selectedStrategy
      result.selectedRole result.reason [] 0 = .ok rd := newRoutingDecision_ok htext hlength hreason
  have hnew : s.routingDecisions.find rd.id = none :=
    Table.find_eq_none_iff.mpr fun d hd hid => (hfresh.routing d hd).1 (congrArg ID.text hid)
  -- the decision is complete and its id is fresh, so it is stored
  obtain ⟨T, hT, -⟩ := Table.exists_insert (r := rd) hnew
  have hmark : ∃ e, w.markRouted ⟨text⟩ result.reason systemActor 0 = .error e := by
    cases hmark : w.markRouted ⟨text⟩ result.reason systemActor 0 with
    | error e => exact ⟨e, rfl⟩
    | ok w' => exact absurd (WorkflowRun.markRouted_eq_ok_iff.mp hmark).1 hstatus
  obtain ⟨e, he⟩ := hmark
  have hsave : exec {} s (.routingSave rd) = (.ok (), { s with routingDecisions := T }) :=
    write_of_insert hT
  refine ⟨.context "marking workflow routed" e, { s with routingDecisions := T },
    Program.Runs.bind_error ?_, Table.ne_of_insert hT⟩
  refine runs_step {} (.ok t : Except RepoError Task) (query_of_found rfl htask) rfl ?_
  refine runs_step {} (none : Option MemoryContext) rfl rfl ?_
  refine runs_step {} (none : Option FailureStats) rfl rfl ?_
  refine runs_step {} (0 : Timestamp) rfl rfl ?_
  refine runs_step { id := text } (⟨text⟩ : RoutingDecisionID) rfl rfl ?_
  refine runs_orWrap hrd ?_
  refine runs_step {} (.ok () : Except RepoError Unit) hsave rfl ?_
  refine runs_step { pick := n } (.ok w : Except RepoError WorkflowRun)
    (query_of_found rfl hpick) rfl ?_
  exact runs_orWrap_error he

end Route

/-! ### EvaluatePolicy -/

/-- A policy decision that is stored for the task can be carried out: the task has a run, and every
run of it is routed and not checked. Before the task is routed, or without an action, no decision is
built. -/
def Store.ChecksCleanly (s : Store) (taskID : TaskID) (action : String) : Prop :=
  ∀ t, s.tasks.find taskID = some t → (∃ d ∈ s.routingDecisions, d.taskID = taskID) →
    action ≠ "" → (∃ w ∈ s.workflowRuns, w.taskID = taskID) ∧
      ∀ w ∈ s.workflowRuns, w.taskID = taskID → w.status = .routed

section Evaluate

variable {s : Store} {taskID : TaskID} {action : String}

theorem evaluatePolicy_clean (hrouted : s.ChecksCleanly taskID action) :
    (evaluatePolicy taskID action).Clean (governance.Alone (accepts true)) s := by
  refine clean_read rfl fun r hfind => clean_orFail fun t ht => ?_
  have htask : s.tasks.find taskID = some t := (query_eq hfind.choose_spec.1).2 t ht
  refine clean_read rfl fun r hfind => clean_orFail fun d hd => ?_
  obtain ⟨hmem, hdecision⟩ := pick_eq_some ((query_eq hfind.choose_spec.1).2 d hd)
  refine clean_read rfl fun now _ => ?_
  refine clean_read rfl fun pdID _ => clean_orWrap fun pd hpd => ?_
  obtain ⟨⟨w, hw, hwTask⟩, hruns⟩ := hrouted t htask ⟨d, hmem, of_decide_eq_true hdecision⟩
    (action_ne_of_newPolicyDecision hpd)
  -- from here on the call has to succeed
  refine Program.Clean.act fun r s₁ hsave => Or.inr ?_
  refine succeeds_orFail (succeeds_of_settles rfl hsave) fun _ _ => ?_
  rw [← workflowRuns_eq rfl hsave] at hw hruns
  refine Program.Succeeds.act fun (r : Except RepoError WorkflowRun) s₂ hlookup => ?_
  obtain ⟨ch, hex, hok⟩ := hlookup
  cases r with
  | error e =>
    -- a run of the task is stored, so the lookup finds one
    have hexpected : ∀ e', (.error e : Except RepoError WorkflowRun) = .error e' →
        e'.isExpected = true := by
      rintro e' ⟨⟩
      exact hok
    rcases (query_expected hex hexpected).2 with ⟨wf, -, hwf⟩ | ⟨hnone, -⟩
    · cases hwf
    · exact absurd hwTask (of_decide_eq_false (eq_false_of_pick_eq_none hnone w hw))
  | ok wf =>
    obtain ⟨hwf, hwfTask⟩ := pick_eq_some ((query_eq hex).2 wf rfl)
    have hstatus := hruns wf hwf (of_decide_eq_true hwfTask)
    refine succeeds_orWrap (WorkflowRun.markPolicyChecked_eq_ok_iff.mpr ⟨hstatus, rfl⟩) ?_
    refine succeeds_write rfl fun r s' hr => succeeds_orFail hr fun _ _ => ?_
    exact succeeds_record fun s' => Program.Succeeds.ret _ _

/-- The lookup finds nothing, or a run that is not to be checked now: the rest of the call fails. -/
theorem checked_refused (pdID : PolicyDecisionID) (now : Timestamp)
    (hrun : (∀ w ∈ s.workflowRuns, w.taskID ≠ taskID) ∨
      ∃ w ∈ s.workflowRuns, w.taskID = taskID ∧ w.status ≠ .routed) :
    ∃ ch r e, exec ch s (.workflowFindByTaskID taskID) = (r, s) ∧
      accepts true (.workflowFindByTaskID taskID) r = true ∧
      ∀ g : WorkflowRun → UseCase PolicyDecision,
        (orFail "loading workflow run" r >>= fun wf => orWrap "marking workflow policy_checked"
          (wf.markPolicyChecked pdID systemActor now) >>= g) = .fail e := by
  rcases hrun with hnone | ⟨w, hw, hwTask, hstatus⟩
  · have hempty : s.workflowRuns.rows.filter (fun w => decide (w.taskID = taskID)) = [] :=
      List.filter_eq_nil_iff.mpr fun w hw h => hnone w hw (of_decide_eq_true h)
    refine ⟨{}, .error (.notFound "workflow run"), _, ?_, rfl, fun g => rfl⟩
    change query _ _ _ (pick s.workflowRuns.rows _ _) = _
    rw [pick_empty _ hempty]
    rfl
  · obtain ⟨n, hpick⟩ := exists_pick hw hwTask
    cases hmark : w.markPolicyChecked pdID systemActor now with
    | ok w' => exact absurd (WorkflowRun.markPolicyChecked_eq_ok_iff.mp hmark).1 hstatus
    | error e =>
      refine ⟨{ pick := n }, .ok w, .context "marking workflow policy_checked" e,
        query_of_found rfl hpick, rfl, fun g => ?_⟩
      change (orWrap _ (w.markPolicyChecked pdID systemActor now) >>= g) = _
      rw [hmark]
      rfl

/-- The run is missing, or it refuses, after the decision was stored. -/
theorem evaluatePolicy_leaves {t : Task} {d : RoutingDecision}
    (htask : s.tasks.find taskID = some t) (hd : d ∈ s.routingDecisions)
    (hdTask : d.taskID = taskID) (haction : action ≠ "")
    (hrun : (∀ w ∈ s.workflowRuns, w.taskID ≠ taskID) ∨
      ∃ w ∈ s.workflowRuns, w.taskID = taskID ∧ w.status ≠ .routed) :
    ∃ e s', (Call.evaluatePolicy taskID action).body.Runs (governance.Alone (accepts true)) s
        (.error e) s' ∧ s'.policyDecisions ≠ s.policyDecisions := by
  obtain ⟨text, hfresh, -⟩ := s.exists_fresh
  obtain ⟨m, hrouting⟩ := exists_pick hd hdTask
  obtain ⟨hreason, hconstraints, happroval⟩ := evaluatePolicy_complete t action
  let result := Policy.evaluatePolicy defaultRules ⟨t, action⟩
  let pd : PolicyDecision := ⟨⟨text⟩, taskID, action, result.outcome, result.constraints,
    result.approvalRequirement, result.rulesEvaluated, result.reason, 0⟩
  have hpd : newPolicyDecision ⟨text⟩ taskID action result.outcome result.constraints
      result.approvalRequirement result.rulesEvaluated result.reason 0 = .ok pd :=
    newPolicyDecision_ok haction hreason hconstraints happroval
  have hnew : s.policyDecisions.find pd.toRow.id = none :=
    Table.find_eq_none_iff.mpr fun d hd hid => (hfresh.policy d hd).1 (congrArg ID.text hid)
  -- the decision is complete and its id is fresh, so it is stored
  obtain ⟨T, hT, -⟩ := Table.exists_insert (r := pd.toRow) hnew
  have hsave : exec {} s (.policySave pd) = (.ok (), { s with policyDecisions := T }) :=
    write_of_insert hT
  obtain ⟨ch, r, e, hlookup, hok, hfail⟩ := @checked_refused { s with policyDecisions := T } taskID
    ⟨text⟩ 0 hrun
  refine ⟨e, { s with policyDecisions := T }, Program.Runs.bind_error ?_, Table.ne_of_insert hT⟩
  refine runs_step {} (.ok t : Except RepoError Task) (query_of_found rfl htask) rfl ?_
  refine runs_step { pick := m } (.ok d : Except RepoError RoutingDecision)
    (query_of_found rfl hrouting) rfl ?_
  refine runs_step {} (0 : Timestamp) rfl rfl ?_
  refine runs_step { id := text } (⟨text⟩ : PolicyDecisionID) rfl rfl ?_
  refine runs_orWrap hpd ?_
  refine runs_step {} (.ok () : Except RepoError Unit) hsave rfl ?_
  refine runs_step ch r hlookup hok ?_
  exact runs_of_eq_fail (hfail _)

end Evaluate

/-! ### The decisions that stay -/

/-- A call that is rejected while no repository fails leaves the tasks, the decisions, the runs and
the audit trail as they were. -/
def LeavesNoTrace (c : Call) (s : Store) : Prop :=
  ∀ e s', c.body.Runs (governance.Alone (accepts true)) s (.error e) s' →
    s'.tasks = s.tasks ∧ s'.routingDecisions = s.routingDecisions ∧
    s'.policyDecisions = s.policyDecisions ∧ s'.workflowRuns = s.workflowRuns ∧
    s'.auditEntries = s.auditEntries

theorem leavesNoTrace_of_clean {c : Call} {s : Store}
    (h : c.body.Clean (governance.Alone (accepts true)) s) : LeavesNoTrace c s := by
  intro e s' hrun
  obtain rfl := h.runs hrun
  exact ⟨rfl, rfl, rfl, rfl, rfl⟩

/-- **Which rejected decisions leave no trace.** Whatever the store and the arguments: `RouteTask`
leaves no trace when it is rejected exactly when every run of the task is still to be routed, and
`EvaluatePolicy` exactly when the task has a run and every run of it is to be checked. -/
theorem decision_rejection_iff (s : Store) (taskID : TaskID) (action : String) :
    (LeavesNoTrace (.routeTask taskID) s ↔ s.RoutesCleanly taskID) ∧
    (LeavesNoTrace (.evaluatePolicy taskID action) s ↔ s.ChecksCleanly taskID action) := by
  refine ⟨⟨fun hnone t htask htext w hw htaskID => ?_, fun h => ?_⟩,
    ⟨fun hnone t htask hrouted haction => ?_, fun h => ?_⟩⟩
  · by_contra hstatus
    obtain ⟨e, s', hrun, hleft⟩ := routeTask_leaves htask htext hw htaskID hstatus
    exact hleft (hnone e s' hrun).2.1
  · exact leavesNoTrace_of_clean (routeTask_clean h).map
  · obtain ⟨d, hd, hdTask⟩ := hrouted
    -- a decision that stays would be a trace
    have hfine : ¬((∀ w ∈ s.workflowRuns, w.taskID ≠ taskID) ∨
        ∃ w ∈ s.workflowRuns, w.taskID = taskID ∧ w.status ≠ .routed) := by
      intro hrun
      obtain ⟨e, s', hrun, hleft⟩ := evaluatePolicy_leaves htask hd hdTask haction hrun
      exact hleft (hnone e s' hrun).2.2.1
    push Not at hfine
    exact hfine
  · exact leavesNoTrace_of_clean (evaluatePolicy_clean h).map

/-- A task that was routed and denied is routed again, or checked again for another action: the
call is rejected, and its decision stays. -/
theorem rejected_decisions_stay :
    ∃ s, governance.Reachable (Store.empty true) s ∧ s.statuses = [.policyChecked] ∧
      ¬LeavesNoTrace (.routeTask firstTask) s ∧
      ¬LeavesNoTrace (.evaluatePolicy firstTask "edit") s := by
  have hplay : (carryOut (checkedSchedule "data_deletion")).map (fun p =>
      (p.store.statuses, p.store.workflowRuns.rows.map WorkflowRun.taskID,
        p.store.routingDecisions.rows.map RoutingDecision.taskID,
        (p.store.tasks.find firstTask).isSome)) =
      some ([.policyChecked], [firstTask], [firstTask], true) := by decide +kernel
  obtain ⟨p, hp, hfacts⟩ := Option.map_eq_some_iff.mp hplay
  obtain ⟨hstatuses, hfacts⟩ := Prod.mk.inj hfacts
  obtain ⟨hruns, hfacts⟩ := Prod.mk.inj hfacts
  obtain ⟨hrouting, htask⟩ := Prod.mk.inj hfacts
  obtain ⟨t, ht⟩ := Option.isSome_iff_exists.mp htask
  obtain ⟨w, hw, hwTask⟩ := exists_row_of_map hruns
  obtain ⟨d, hd, hdTask⟩ := exists_row_of_map hrouting
  -- the only run has been checked
  have hstatus : w.status = .policyChecked := by
    have hmem : w.status ∈ p.store.statuses := List.mem_map_of_mem hw
    rw [hstatuses] at hmem
    exact List.mem_singleton.mp hmem
  refine ⟨p.store, ⟨p, carryOut_reach hp, rfl⟩, hstatuses, fun hnone => ?_, fun hnone => ?_⟩
  · obtain ⟨e, s', hrun, hleft⟩ := routeTask_leaves ht (by decide) hw hwTask
      (by rw [hstatus]; decide)
    exact hleft (hnone e s' hrun).2.1
  · have haction : "edit" ≠ "" := by decide
    obtain ⟨e, s', hrun, hleft⟩ := evaluatePolicy_leaves ht hd hdTask haction
      (Or.inr ⟨w, hw, hwTask, by rw [hstatus]; decide⟩)
    exact hleft (hnone e s' hrun).2.2.1

/-! ### ResolveApproval -/

/-- The status that a resolved request asks its run to take. -/
def resolvedTarget (approved : Bool) : WorkflowStatus := if approved then .approved else .failed

/-- A resolution that is stored can be carried out: the run of a pending request may move. -/
def Store.ResolvesCleanly (s : Store) (input : ResolveApprovalInput) : Prop :=
  ∀ req wf, s.approvalRequests.find input.approvalRequestID = some req → req.status = .pending →
    s.workflowRuns.find req.workflowRunID = some wf →
    wf.status.admits (resolvedTarget input.approved) = true

section Resolve

variable {s : Store} {input : ResolveApprovalInput}

theorem moveResolved_succeeds {wf : WorkflowRun}
    (hadmits : wf.status.admits (resolvedTarget input.approved) = true) (now : Timestamp)
    (s : Store) : (moveResolved wf input now).Succeeds (governance.Alone succeeds) s := by
  unfold moveResolved
  cases happroved : input.approved with
  | true =>
    rw [happroved] at hadmits
    refine succeeds_orWrap (transitionTo_of_admits hadmits _ _ _) ?_
    -- a run that is approved may always start
    refine succeeds_orWrap (transitionTo_of_admits rfl _ _ _) ?_
    rw [createLease_eq]
    refine Program.Succeeds.act fun id s' _ => ?_
    refine Program.Succeeds.act fun r s' hsave => succeeds_orFail hsave.choose_spec.2 fun _ _ => ?_
    refine Program.Succeeds.act fun r s' hsave => succeeds_orFail hsave.choose_spec.2 fun _ _ => ?_
    exact Program.Succeeds.act fun _ _ _ => Program.Succeeds.ret _ _
  | false =>
    rw [happroved] at hadmits
    refine succeeds_orWrap (transitionTo_of_admits hadmits _ _ _) ?_
    refine Program.Succeeds.act fun r s' hsave => succeeds_orFail hsave.choose_spec.2 fun _ _ => ?_
    exact Program.Succeeds.act fun _ _ _ => Program.Succeeds.ret _ _

theorem moveResolved_of_not_admits {wf : WorkflowRun}
    (hrefuses : wf.status.admits (resolvedTarget input.approved) ≠ true) (now : Timestamp) :
    ∃ e, moveResolved wf input now = .fail e := by
  unfold moveResolved
  cases happroved : input.approved with
  | true =>
    rw [happroved] at hrefuses
    change wf.status.admits .approved ≠ true at hrefuses
    obtain ⟨e, he⟩ := transitionTo_of_not_admits hrefuses "approval granted" input.resolvedBy now
    refine ⟨.context "transitioning to approved" e, ?_⟩
    change resumeApproved wf input.resolvedBy now = _
    unfold resumeApproved
    rw [he]
    rfl
  | false =>
    rw [happroved] at hrefuses
    change wf.status.admits .failed ≠ true at hrefuses
    obtain ⟨e, he⟩ := transitionTo_of_not_admits hrefuses ("approval denied: " ++ input.reason)
      input.resolvedBy now
    refine ⟨.context "transitioning to failed" e, ?_⟩
    change failDenied wf input.resolvedBy input.reason now = _
    unfold failDenied WorkflowRun.fail
    rw [he]
    rfl

theorem reportResolution_succeeds {step : Store → (o : Op) → Res o → Store → Prop}
    (wf : WorkflowRun) (approved : Bool) : (reportResolution wf approved).Succeeds step s := by
  unfold reportResolution
  cases approved with
  | true => exact Program.Succeeds.act fun _ _ _ => Program.Succeeds.ret _ _
  | false =>
    refine Program.Succeeds.act fun _ _ _ => ?_
    exact Program.Succeeds.act fun _ _ _ => Program.Succeeds.ret _ _

/-- The resolved request is stored first, and then the run is asked. -/
theorem resolveApproval_clean (hadmits : s.ResolvesCleanly input) :
    (resolveApproval input).Clean (governance.Alone succeeds) s := by
  refine clean_read rfl fun r hfind => clean_orFail fun req hr => ?_
  have hreq : s.approvalRequests.find input.approvalRequestID = some req :=
    (query_eq hfind.choose_spec.1).2 req hr
  refine clean_read rfl fun now _ => ?_
  by_cases hpending : req.status = .pending
  · obtain ⟨resolved, hresolved, -, hrun, -⟩ := resolveRequest_of_pending hpending input now
    change Program.Clean _ (resolveRequest req input now >>= _) s
    rw [hresolved]
    refine Program.Clean.act fun r s₁ hsave => Or.inr ?_
    refine succeeds_orFail hsave.choose_spec.2 fun _ _ => ?_
    refine Program.Succeeds.act fun r s₂ hlookup =>
      succeeds_orFail hlookup.choose_spec.2 fun wf hwf => ?_
    -- storing the request has left the runs alone
    have hfound : s.workflowRuns.find req.workflowRunID = some wf := by
      rw [← hrun, ← workflowRuns_eq rfl hsave]
      exact (query_eq hlookup.choose_spec.1).2 wf hwf
    refine Program.Succeeds.bind
      (moveResolved_succeeds (hadmits req wf hreq hpending hfound) now _) fun _ s₃ => ?_
    refine Program.Succeeds.act fun _ s₄ _ => ?_
    change Program.Succeeds _ (reportResolution wf input.approved >>= fun _ => .ret resolved) s₄
    exact Program.Succeeds.bind (reportResolution_succeeds wf _) fun _ _ => Program.Succeeds.ret _ _
  · -- a request that was resolved before is refused before anything is written
    obtain ⟨e, he⟩ := resolveRequest_of_resolved hpending input now
    change Program.Clean _ (resolveRequest req input now >>= _) s
    rw [he]
    exact Program.Clean.fail _ s

/-- A run that is refused after the resolved request was stored. -/
theorem resolveApproval_leaves {req : ApprovalRequest} {wf : WorkflowRun}
    (hreq : s.approvalRequests.find input.approvalRequestID = some req)
    (hpending : req.status = .pending) (hwf : s.workflowRuns.find req.workflowRunID = some wf)
    (hrefuses : wf.status.admits (resolvedTarget input.approved) ≠ true) :
    ∃ e s', (Call.resolveApproval input).body.Runs (governance.Alone succeeds) s (.error e) s' ∧
      s'.approvalRequests ≠ s.approvalRequests := by
  obtain ⟨resolved, hresolved, hid, hrun, hstatus⟩ := resolveRequest_of_pending hpending input 0
  obtain ⟨e, he⟩ := moveResolved_of_not_admits hrefuses 0
  refine ⟨e, s.updateApproval resolved, Program.Runs.bind_error ?_, fun hsame => ?_⟩
  · refine runs_step {} (.ok req : Except RepoError ApprovalRequest)
      (query_of_found rfl hreq) rfl ?_
    refine runs_step {} (0 : Timestamp) rfl rfl ?_
    change Program.Runs _ (resolveRequest req input 0 >>= _) s _ _
    rw [hresolved]
    refine runs_step {} (.ok () : Except RepoError Unit) rfl rfl ?_
    refine runs_step {} (.ok wf : Except RepoError WorkflowRun) (query_of_found rfl ?_) rfl ?_
    · rw [hrun]
      exact hwf
    · change Program.Runs _ (moveResolved wf input 0 >>= _) _ _ _
      rw [he]
      exact .fail e _
  · -- the request is not pending any more
    have hfind : (s.updateApproval resolved).approvalRequests.find resolved.id =
        some (resolved.overwrite req) := by
      change (s.approvalRequests.modify resolved.id _ resolved.overwrite_id).find resolved.id = _
      rw [Table.find_modify_self, hid, (Table.find_eq_some_iff.mp hreq).2, hreq]
      rfl
    rw [hsame, hid, (Table.find_eq_some_iff.mp hreq).2, hreq] at hfind
    have hsame : req.status = (resolved.overwrite req).status :=
      congrArg ApprovalRequest.status (Option.some.inj hfind)
    change req.status = resolved.status at hsame
    rw [hpending, hstatus] at hsame
    split at hsame <;> cases hsame

end Resolve

/-- **Which rejected resolutions leave the request pending.** Whatever the store and the input: a
resolution that is rejected while every repository call succeeds leaves the requests, the runs, the
leases and the audit trail as they were exactly when the run of a pending request may move. -/
theorem resolution_rejection_iff (s : Store) (input : ResolveApprovalInput) :
    (∀ e s', (Call.resolveApproval input).body.Runs (governance.Alone succeeds) s (.error e) s' →
      s'.approvalRequests = s.approvalRequests ∧ s'.workflowRuns = s.workflowRuns ∧
      s'.executionLeases = s.executionLeases ∧ s'.auditEntries = s.auditEntries) ↔
    s.ResolvesCleanly input := by
  refine ⟨fun hnone req wf hreq hpending hwf => ?_, fun h e s' hrun => ?_⟩
  · by_contra hrefuses
    obtain ⟨e, s', hrun, hleft⟩ := resolveApproval_leaves hreq hpending hwf hrefuses
    exact hleft (hnone e s' hrun).1
  · obtain rfl := (resolveApproval_clean h).map.runs hrun
    exact ⟨rfl, rfl, rfl, rfl⟩

/-- The run is killed while its request is pending. -/
def killedSchedule : List (System.Action Call Choice) :=
  awaitingSchedule ++ whole 'e' 4 (.killWorkflow firstRun "stop" systemActor) 7

def approveFirst : ResolveApprovalInput :=
  { approvalRequestID := firstRequest, approved := true, resolvedBy := systemActor, reason := "ok" }

/-- The approval of a killed run is rejected, and it stays. -/
theorem rejected_approval_stays :
    ∃ s, governance.Reachable (Store.empty true) s ∧ s.statuses = [.killed] ∧
      s.approvalRequests.rows.map ApprovalRequest.status = [.pending] ∧
      ∃ e s', (Call.resolveApproval approveFirst).body.Runs (governance.Alone succeeds) s
          (.error e) s' ∧ s'.approvalRequests.rows.map ApprovalRequest.status = [.approved] := by
  have hplay : ((carryOut killedSchedule).bind fun p =>
      ((Call.resolveApproval approveFirst).body.eval governance succeeds
        [scheduleChoice 'f' 0, scheduleChoice 'f' 1, scheduleChoice 'f' 2, scheduleChoice 'f' 3]
        p.store).map fun x => (p.store.statuses,
          p.store.approvalRequests.rows.map ApprovalRequest.status, x.1.isOk,
          x.2.approvalRequests.rows.map ApprovalRequest.status)) =
      some ([.killed], [.pending], false, [.approved]) := by decide +kernel
  obtain ⟨p, hp, hrest⟩ := Option.bind_eq_some_iff.mp hplay
  obtain ⟨⟨res, s'⟩, heval, hresult⟩ := Option.map_eq_some_iff.mp hrest
  obtain ⟨hstatuses, hresult⟩ := Prod.mk.inj hresult
  obtain ⟨hpending, hresult⟩ := Prod.mk.inj hresult
  obtain ⟨hres, happroved⟩ := Prod.mk.inj hresult
  cases res with
  | ok reply => cases hres
  | error e =>
    exact ⟨p.store, ⟨p, carryOut_reach hp, rfl⟩, hstatuses, hpending, e, s',
      Program.eval_runs heval, happroved⟩

end Governance

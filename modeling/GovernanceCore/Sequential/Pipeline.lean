import GovernanceCore.Sequential.Steady

/-!
# The pipeline, end to end

`ProcessTask` submits a task, routes it, evaluates its policy and starts its workflow. Without
failures the four calls fit together: each leaves behind what the next one looks up, and the outcome
is decided by the action, the metadata, the type and the scope alone.

What the store holds about one task is its **file**: the decisions and runs that name the task, and
the leases and requests that name its run. A fresh task has an empty file, and each call adds to it
what it creates; everything else in the store may change.
-/

namespace Governance

open Framework

variable {env : Environment} {c : Core}

/-! ### What is stored about a task -/

/-- The rows that name the task `t`. -/
structure TaskFile (c : Core) (t : Task) (decisions : List RoutingDecision)
    (policies : List PolicyDecisionRow) (runs : List WorkflowRun) : Prop where
  task : c.tasks.find t.id = some t
  decisions : c.routingDecisions.rows.filter (fun d => d.taskID = t.id) = decisions
  policies : c.policyDecisions.rows.filter (fun d => d.taskID = t.id) = policies
  runs : c.workflowRuns.rows.filter (fun w => w.taskID = t.id) = runs

/-- The rows that name the run `id`. -/
structure RunFile (c : Core) (id : WorkflowRunID) (leases : List ExecutionLease)
    (requests : List ApprovalRequest) : Prop where
  leases : c.executionLeases.rows.filter (fun l => l.workflowRunID = id) = leases
  requests : c.approvalRequests.rows.filter (fun a => a.workflowRunID = id) = requests

/-- Nothing names a fresh task. -/
theorem Core.Fresh.taskFile {t : Task} {T : Table Task.id} (hfresh : c.Fresh t.id.text)
    (ht : t ∈ T) : TaskFile { c with tasks := T } t [] [] [] where
  task := Table.find_eq_some_iff.mpr ⟨ht, rfl⟩
  decisions := by
    refine List.filter_eq_nil_iff.mpr fun d hd hid => ?_
    exact (hfresh.routing d hd).2 (congrArg ID.text (of_decide_eq_true hid))
  policies := by
    refine List.filter_eq_nil_iff.mpr fun d hd hid => ?_
    exact (hfresh.policy d hd).2 (congrArg ID.text (of_decide_eq_true hid))
  runs := by
    refine List.filter_eq_nil_iff.mpr fun w hw hid => ?_
    exact (hfresh.workflow w hw).2 (congrArg ID.text (of_decide_eq_true hid))

/-- Nothing names a fresh run. -/
theorem Core.Fresh.runFile {id : WorkflowRunID} (hfresh : c.Fresh id.text) :
    RunFile c id [] [] where
  leases := by
    refine List.filter_eq_nil_iff.mpr fun l hl hid => ?_
    exact (hfresh.lease l hl).2 (congrArg ID.text (of_decide_eq_true hid))
  requests := by
    refine List.filter_eq_nil_iff.mpr fun a ha hid => ?_
    exact (hfresh.approval a ha).2 (congrArg ID.text (of_decide_eq_true hid))

theorem mem_of_eq_concat {α : Type} {l l' : List α} {a : α} (h : l' = l ++ [a]) : a ∈ l' := by
  rw [h]
  exact List.mem_append_right _ (List.mem_singleton_self a)

theorem filter_concat_of_pos {α : Type} {l l' m : List α} {a : α} {p : α → Bool}
    (hl : l' = l ++ [a]) (hm : l.filter p = m) (ha : p a = true) : l'.filter p = m ++ [a] := by
  rw [hl, List.filter_append, hm, List.filter_cons_of_pos ha, List.filter_nil]

/-- The only run of a task, updated. -/
theorem TaskFile.updateWorkflow {t : Task} {ds : List RoutingDecision}
    {ps : List PolicyDecisionRow} {w w' : WorkflowRun} (h : TaskFile c t ds ps [w])
    (hid : w.id = w'.id) (hrow : w'.overwrite w = w') :
    TaskFile (c.updateWorkflow w') t ds ps [w'] where
  task := h.task
  decisions := h.decisions
  policies := h.policies
  runs := by
    -- the update does not touch the column of the selection
    have hover : (c.updateWorkflow w').workflowRuns.rows.filter (fun w => w.taskID = t.id)
        = overwrite WorkflowRun.id w'.id w'.overwrite [w] := by
      have hcol : ∀ r : WorkflowRun,
          decide ((w'.overwrite r).taskID = t.id) = decide (r.taskID = t.id) := fun _ => rfl
      rw [← h.runs, ← filter_overwrite hcol]
      rfl
    rw [hover, overwrite, List.map_singleton, if_pos hid, hrow]

/-! ### SubmitTask -/

/-- The task that a submission creates. -/
structure Submitted (input : SubmitTaskInput) (t : Task) : Prop where
  id_ne : t.id.text ≠ ""
  taskType : t.taskType = input.type
  scope : t.scope = input.scope
  priority : t.priority = input.priority
  riskLevel : t.riskLevel = classifyRisk input.type input.scope
  metadata : t.metadata = input.metadata

theorem newTask_eq_ok {id : TaskID} {parent : Option TaskID} {taskType : TaskType}
    {title : String} {scope : TaskScope} {priority : Priority} {risk : RiskLevel}
    {metadata : TaskMetadata} {now : Timestamp} (htitle : isBlank title = false) :
    newTask id parent taskType title scope priority risk metadata now
      = .ok ⟨id, parent, taskType, title, scope, priority, risk, .created, metadata, now, now⟩ := by
  rw [newTask, htitle]
  rfl

theorem submitTask_gives {input : SubmitTaskInput} (htitle : isBlank input.title = false) :
    Gives env (fun res c' => ∃ t, res = .ok t ∧ Submitted input t ∧ TaskFile c' t [] [] [])
      (submitTask input) c := by
  refine Gives.newID fun id hid => ?_
  refine Gives.now fun now => ?_
  refine Gives.context fun ch _ => ?_
  refine Gives.wrap (newTask_eq_ok htitle) ?_
  refine Gives.saveTask (Table.find_eq_none_iff.mpr fun t ht hk => ?_) fun T hT => ?_
  · exact hid.task t ht (congrArg ID.text hk)
  refine Gives.record (by decide) (by decide) ?_
  exact ⟨_, rfl, ⟨hid.nonempty, rfl, rfl, rfl, rfl, rfl⟩, hid.taskFile (mem_of_eq_concat hT)⟩

/-! ### RouteTask -/

/-- A subtask that the decomposition of `parent` creates. -/
structure SubtaskOf (parent sub : Task) : Prop where
  taskType : sub.taskType = parent.taskType
  scope : sub.scope = childScope parent.scope
  priority : sub.priority = parent.priority
  riskLevel : sub.riskLevel = parent.riskLevel
  metadata : sub.metadata = []

/-- The tables after subtasks have been added: nothing else has changed, and the ids of the
subtasks were fresh. -/
structure AddsSubtasks (parent : Task) (c c' : Core) (subs : List Task) : Prop where
  tasks : c'.tasks.rows = c.tasks.rows ++ subs
  rest : c' = { c with tasks := c'.tasks }
  subtask : ∀ sub ∈ subs, SubtaskOf parent sub
  fresh : ∀ sub ∈ subs, c.Fresh sub.id.text

theorem AddsSubtasks.none (parent : Task) (c : Core) : AddsSubtasks parent c c [] where
  tasks := (List.append_nil _).symm
  rest := rfl
  subtask := fun _ h => absurd h List.not_mem_nil
  fresh := fun _ h => absurd h List.not_mem_nil

/-- One more subtask in front. -/
theorem AddsSubtasks.cons {parent sub : Task} {c' : Core} {subs : List Task} {T : Table Task.id}
    (hT : T.rows = c.tasks.rows ++ [sub]) (hsub : SubtaskOf parent sub)
    (hfresh : c.Fresh sub.id.text) (h : AddsSubtasks parent { c with tasks := T } c' subs) :
    AddsSubtasks parent c c' (sub :: subs) where
  tasks := by
    rw [h.tasks, hT, List.append_assoc]
    rfl
  rest := by
    rw [h.rest]
  subtask := List.forall_mem_cons.mpr ⟨hsub, h.subtask⟩
  fresh := by
    refine List.forall_mem_cons.mpr ⟨hfresh, fun sub' hsub' => ?_⟩
    refine { h.fresh sub' hsub' with task := fun t ht => (h.fresh sub' hsub').task t ?_ }
    rw [Table.mem_def, hT]
    exact List.mem_append_left _ ht

theorem AddsSubtasks.taskFile {parent sub : Task} {c' : Core} {subs : List Task}
    (h : AddsSubtasks parent c c' subs) (hsub : sub ∈ subs) : TaskFile c' sub [] [] [] := by
  rw [h.rest]
  refine (h.fresh sub hsub).taskFile ?_
  rw [Table.mem_def, h.tasks]
  exact List.mem_append_right _ hsub

/-- What was stored about a task and its run stays. -/
theorem AddsSubtasks.keeps_file {parent t : Task} {c' : Core} {subs : List Task}
    {ds : List RoutingDecision} {ps : List PolicyDecisionRow} {ws : List WorkflowRun}
    (h : AddsSubtasks parent c c' subs) (hfile : TaskFile c t ds ps ws) :
    TaskFile c' t ds ps ws := by
  rw [h.rest]
  refine { hfile with task := Table.find_eq_some_iff.mpr ⟨?_, rfl⟩ }
  rw [Table.mem_def, h.tasks]
  exact List.mem_append_left _ (Table.find_eq_some_iff.mp hfile.task).1

theorem AddsSubtasks.keeps_runFile {parent : Task} {c' : Core} {subs : List Task}
    {id : WorkflowRunID} {ls : List ExecutionLease} {as : List ApprovalRequest}
    (h : AddsSubtasks parent c c' subs) (hfile : RunFile c id ls as) : RunFile c' id ls as := by
  rw [h.rest]
  exact ⟨hfile.leases, hfile.requests⟩

theorem isBlank_decompose (title suffix : String) :
    isBlank ("[decompose] " ++ title ++ " - " ++ suffix) = false := by
  have hbracket : isSpace '[' = false := by decide
  simp [isBlank, String.toList_append, hbracket]

theorem subtaskSuffixes_two (scope : TaskScope) :
    (subtaskSuffixes scope).length = 2 ∧ ∀ x ∈ subtaskSuffixes scope, isBlank x = false := by
  unfold subtaskSuffixes
  split <;> exact ⟨rfl, by decide⟩

theorem createSubtasks_gives (parent : Task) (now : Timestamp) (suffixes : List String) (c : Core)
    (hblank : ∀ x ∈ suffixes, isBlank x = false) :
    Gives env (fun res c' => ∃ u, res = .ok u ∧
        ∃ subs, AddsSubtasks parent c c' subs ∧ subs.length = suffixes.length)
      (createSubtasks parent now suffixes) c := by
  induction suffixes generalizing c with
  | nil => exact ⟨(), rfl, [], .none parent c, rfl⟩
  | cons suffix rest ih =>
    refine Gives.newID fun id hid => ?_
    refine Gives.wrap (newTask_eq_ok (isBlank_decompose _ _)) ?_
    refine Gives.saveTask (Table.find_eq_none_iff.mpr fun t ht hk => ?_) fun T hT => ?_
    · exact hid.task t ht (congrArg ID.text hk)
    refine Gives.record (by decide) (hblank suffix List.mem_cons_self) ?_
    -- the rest of the loop starts with one more task
    refine Program.wp_mono ?_ (ih _ fun x hx => hblank x (List.mem_cons_of_mem _ hx))
    rintro res c' ⟨u, rfl, subs, hadds, hlen⟩
    exact ⟨u, rfl, _, hadds.cons hT ⟨rfl, rfl, rfl, rfl, rfl⟩ hid, congrArg (· + 1) hlen⟩

/-- The first run of a task. -/
theorem loadOrCreateWorkflow_gives {t : Task} (now : Timestamp)
    (hruns : c.workflowRuns.rows.filter (fun w => w.taskID = t.id) = []) :
    Gives env (fun res c' => ∃ w, res = .ok w ∧ c.Fresh w.id.text ∧
        w = newWorkflowRun w.id t.id now ∧
        ∃ T, T.rows = c.workflowRuns.rows ++ [w] ∧ c' = { c with workflowRuns := T })
      (loadOrCreateWorkflow t.id now) c := by
  refine Gives.findNoRun hruns fun e => ?_
  refine Gives.newID fun id hid => ?_
  refine Gives.saveRun (Table.find_eq_none_iff.mpr fun w hw hk => ?_) fun T hT => ?_
  · exact (hid.workflow w hw).1 (congrArg ID.text hk)
  exact ⟨_, rfl, hid, rfl, T, hT, rfl⟩

/-- The run of a task after its routing. -/
structure RoutedRun (t : Task) (rd : RoutingDecision) (w : WorkflowRun) : Prop where
  taskID : w.taskID = t.id
  status : w.status = .routed
  log : w.transitions.map (fun m => (m.source, m.target)) = [(.created, .routed)]
  routing : w.routingDecisionID = some rd.id

/-- What a first routing leaves behind: the decision, the routed run, and the subtasks if the task
is decomposed. -/
structure RoutedTask (env : Environment) (t : Task) (c : Core) (rd : RoutingDecision) (c' : Core) :
    Prop where
  strategy : ∃ ch ch' : Choice, env (.getRelevantContext t.id t.title) ch ∧ env .failureStats ch' ∧
    rd.selectedStrategy = (Routing.evaluate t ch.memory ch'.stats).selectedStrategy
  run : ∃ w, RoutedRun t rd w ∧ TaskFile c' t [rd] [] [w] ∧ RunFile c' w.id [] []
  subtasks : ∃ subs, c'.tasks.rows = c.tasks.rows ++ subs ∧
    (∀ sub ∈ subs, SubtaskOf t sub ∧ sub.id.text ≠ "" ∧ TaskFile c' sub [] [] []) ∧
    subs.length = if rd.selectedStrategy = .decompose then 2 else 0

theorem isBlank_text (strategy : RoutingStrategy) : isBlank strategy.text = false := by
  cases strategy <;> decide

theorem newRoutingDecision_ok {id : RoutingDecisionID} {taskID : TaskID}
    {evals : List StrategyEvaluation} {strategy : RoutingStrategy} {role : AgentRole}
    {reason : String} {constraints : List RoutingConstraint} {now : Timestamp}
    (htask : taskID.text ≠ "") (hevals : evals.length ≠ 0) (hreason : reason ≠ "") :
    newRoutingDecision id taskID evals strategy role reason constraints now
      = .ok ⟨id, taskID, evals, strategy, role, reason, constraints, now⟩ := by
  rw [newRoutingDecision, if_neg htask, if_neg hevals, if_neg hreason]

theorem routeTask_gives {t : Task} (htext : t.id.text ≠ "") (hfile : TaskFile c t [] [] []) :
    Gives env (fun res c' => ∃ rd, res = .ok rd ∧ RoutedTask env t c rd c') (routeTask t.id) c := by
  refine Gives.findTask rfl hfile.task ?_
  refine Gives.context fun ch hch => ?_
  refine Gives.stats fun ch' hch' => ?_
  obtain ⟨hreason, hevals⟩ := evaluate_complete t ch.memory ch'.stats
  generalize hresult : Routing.evaluate t ch.memory ch'.stats = result at hreason hevals ⊢
  refine Gives.now fun now => ?_
  refine Gives.newID fun rdID hrd => ?_
  refine Gives.wrap (newRoutingDecision_ok htext hevals hreason) ?_
  refine Gives.saveRouting (Table.find_eq_none_iff.mpr fun d hd hk => ?_) fun D hD => ?_
  · exact (hrd.routing d hd).1 (congrArg ID.text hk)
  refine Gives.seq (loadOrCreateWorkflow_gives now hfile.runs) ?_
  rintro w c₁ ⟨hfresh, hw, W, hW, rfl⟩
  obtain ⟨id, rfl⟩ : ∃ id, w = newWorkflowRun id t.id now := ⟨w.id, hw⟩
  refine Gives.wrap (WorkflowRun.markRouted_eq_ok_iff.mpr ⟨rfl, rfl⟩) ?_
  refine Gives.updateRun ?_
  refine Gives.record (by decide) (isBlank_text _) ?_
  -- the file of the task before the subtasks
  have hmid : TaskFile { c with routingDecisions := D, workflowRuns := W } t
      [⟨rdID, t.id, result.evaluations, result.selectedStrategy, result.selectedRole, result.reason,
        [], now⟩] [] [newWorkflowRun id t.id now] :=
    { task := hfile.task
      decisions := filter_concat_of_pos hD hfile.decisions (decide_eq_true rfl)
      policies := hfile.policies
      runs := filter_concat_of_pos hW hfile.runs (decide_eq_true rfl) }
  have hmoved : TaskFile _ t _ [] [{ (newWorkflowRun id t.id now).moved .routed result.reason
      systemActor now with routingDecisionID := some rdID }] := hmid.updateWorkflow rfl rfl
  -- both ends of the call add subtasks, the second one none
  have hend : ∀ {c' subs}, AddsSubtasks t _ c' subs →
      subs.length = (if result.selectedStrategy = .decompose then 2 else 0) →
      RoutedTask env t c ⟨rdID, t.id, result.evaluations, result.selectedStrategy,
        result.selectedRole, result.reason, [], now⟩ c' := fun hadds hlen =>
    { strategy := ⟨ch, ch', hch, hch',
        congrArg Routing.EvaluatorResult.selectedStrategy hresult.symm⟩
      run := ⟨_, ⟨rfl, rfl, rfl, rfl⟩, hadds.keeps_file hmoved,
        hadds.keeps_runFile ⟨hfresh.runFile.leases, hfresh.runFile.requests⟩⟩
      subtasks := ⟨_, hadds.tasks, fun sub hsub => ⟨hadds.subtask sub hsub,
        (hadds.fresh sub hsub).nonempty, hadds.taskFile hsub⟩, hlen⟩ }
  by_cases hdec : result.selectedStrategy = .decompose
  · rw [if_pos hdec]
    obtain ⟨htwo, hblank⟩ := subtaskSuffixes_two t.scope
    refine Gives.seq (Gives.wrapError (createSubtasks_gives t now _ _ hblank)) ?_
    rintro u c' ⟨subs, hadds, hlen⟩
    refine ⟨_, rfl, hend hadds ?_⟩
    rw [hlen, htwo, if_pos hdec]
  · rw [if_neg hdec]
    exact ⟨_, rfl, hend (.none t _) (if_neg hdec).symm⟩

/-! ### EvaluatePolicy -/

/-- The run of a task after its policy has been evaluated. -/
structure CheckedRun (t : Task) (rd : RoutingDecision) (pd : PolicyDecision) (w : WorkflowRun) :
    Prop where
  taskID : w.taskID = t.id
  status : w.status = .policyChecked
  log : w.transitions.map (fun m => (m.source, m.target)) =
    [(.created, .routed), (.routed, .policyChecked)]
  routing : w.routingDecisionID = some rd.id
  policy : w.policyDecisionID = some pd.id

/-- The decision that is made about an action. -/
structure Decides (t : Task) (action : String) (pd : PolicyDecision) : Prop where
  outcome : pd.outcome = verdict t action
  reason : isBlank pd.reason = false

theorem verdict_declared (t : Task) (action : String) :
    verdict t action = .deny ∨ verdict t action = .requireApproval ∨
      verdict t action = .allowWithConstraints := by
  unfold verdict
  split
  · exact Or.inl rfl
  split
  · exact Or.inr (Or.inl rfl)
  · exact Or.inr (Or.inr rfl)

theorem ne_empty_of_isBlank {text : String} (h : isBlank text = false) : text ≠ "" := by
  rintro rfl
  exact absurd h (by decide)

theorem newPolicyDecision_ok {id : PolicyDecisionID} {taskID : TaskID} {action : String}
    {outcome : PolicyOutcome} {constraints : List PolicyConstraint}
    {req : Option ApprovalRequirement} {evals : List RuleEvaluation} {reason : String}
    {now : Timestamp} (haction : action ≠ "") (hreason : isBlank reason = false)
    (hconstraints : outcome = .allowWithConstraints → constraints.length ≠ 0)
    (hreq : outcome = .requireApproval → req ≠ none) :
    newPolicyDecision id taskID action outcome constraints req evals reason now
      = .ok ⟨id, taskID, action, outcome, constraints, req, evals, reason, now⟩ := by
  rw [newPolicyDecision, if_neg haction, if_neg (ne_empty_of_isBlank hreason),
    if_neg fun h => hconstraints h.1 h.2, if_neg fun h => hreq h.1 h.2]

theorem evaluatePolicy_gives {t : Task} {rd : RoutingDecision} {w : WorkflowRun} {action : String}
    (haction : action ≠ "") (hfile : TaskFile c t [rd] [] [w]) (hrun : RunFile c w.id [] [])
    (hw : RoutedRun t rd w) :
    Gives env (fun res c' => ∃ pd, res = .ok pd ∧ Decides t action pd ∧
        ∃ w', CheckedRun t rd pd w' ∧ TaskFile c' t [rd] [pd.toRow] [w'] ∧ RunFile c' w'.id [] [])
      (evaluatePolicy t.id action) c := by
  refine Gives.findTask rfl hfile.task ?_
  refine Gives.findRouting rfl hfile.decisions ?_
  -- From here on only these facts about the evaluated rules are needed, not the rules.
  have houtcome := evaluatePolicy_outcome t action
  obtain ⟨hreason, hconstraints, hreq⟩ := evaluatePolicy_complete t action
  generalize Policy.evaluatePolicy defaultRules ⟨t, action⟩ = result
    at houtcome hreason hconstraints hreq ⊢
  refine Gives.now fun now => ?_
  refine Gives.newID fun pdID hpd => ?_
  refine Gives.wrap (newPolicyDecision_ok haction hreason hconstraints hreq) ?_
  refine Gives.savePolicy (Table.find_eq_none_iff.mpr fun d hd hk => ?_) fun P hP => ?_
  · exact (hpd.policy d hd).1 (congrArg ID.text hk)
  refine Gives.findRun rfl hfile.runs ?_
  refine Gives.wrap (WorkflowRun.markPolicyChecked_eq_ok_iff.mpr ⟨hw.status, rfl⟩) ?_
  refine Gives.updateRun ?_
  have htext : isBlank result.outcome.text = false := by
    rw [houtcome]
    rcases verdict_declared t action with h | h | h <;> rw [h] <;> decide
  refine Gives.record (by decide) htext ?_
  have hmid : TaskFile { c with policyDecisions := P } t [rd]
      [PolicyDecision.toRow ⟨pdID, t.id, action, result.outcome, result.constraints,
        result.approvalRequirement, result.rulesEvaluated, result.reason, now⟩] [w] :=
    { hfile with policies := filter_concat_of_pos hP hfile.policies (decide_eq_true rfl) }
  have hmoved : TaskFile _ t [rd] _ [{ w.moved .policyChecked "" systemActor now with
      policyDecisionID := some pdID }] := hmid.updateWorkflow rfl rfl
  refine ⟨_, rfl, ⟨houtcome, hreason⟩, _, ?_, hmoved, ⟨hrun.leases, hrun.requests⟩⟩
  refine ⟨hw.taskID, rfl, ?_, hw.routing, rfl⟩
  change (w.transitions ++ [_]).map _ = _
  rw [List.map_append, hw.log, List.map_singleton, hw.status]
  rfl

/-! ### StartWorkflow -/

/-- The status that the start of a run leads to. -/
def startStatus : PolicyOutcome → WorkflowStatus
  | .deny => .failed
  | .requireApproval => .awaitingApproval
  | _ => .running

/-- The run of a task after its start. -/
structure StartedRun (t : Task) (rd : RoutingDecision) (pd : PolicyDecision) (w : WorkflowRun) :
    Prop where
  status : w.status = startStatus pd.outcome
  log : w.transitions.map (fun m => (m.source, m.target)) =
    [(.created, .routed), (.routed, .policyChecked), (.policyChecked, startStatus pd.outcome)]
  routing : w.routingDecisionID = some rd.id
  policy : w.policyDecisionID = some pd.id

theorem CheckedRun.moved {t : Task} {rd : RoutingDecision} {pd : PolicyDecision} {w : WorkflowRun}
    (hw : CheckedRun t rd pd w) (reason : String) (actor : ActorID) (now : Timestamp) :
    StartedRun t rd pd (w.moved (startStatus pd.outcome) reason actor now) where
  status := rfl
  log := by
    change (w.transitions ++ [_]).map _ = _
    rw [List.map_append, hw.log, List.map_singleton, hw.status]
    rfl
  routing := hw.routing
  policy := hw.policy

/-- A checked run moves to each of the three. -/
theorem CheckedRun.transitionTo_ok {t : Task} {rd : RoutingDecision} {pd : PolicyDecision}
    {w : WorkflowRun} (hw : CheckedRun t rd pd w) {target : WorkflowStatus} {reason : String}
    {actor : ActorID} {now : Timestamp}
    (hvalid : WorkflowStatus.policyChecked.isValidTransition target = true) :
    w.transitionTo target reason actor now = .ok (w.moved target reason actor now) := by
  refine WorkflowRun.transitionTo_eq_ok_iff.mpr ⟨?_, ?_, rfl⟩
  · rw [hw.status]
    rfl
  · rw [hw.status]
    exact hvalid

theorem newApprovalRequest_ok {id : ApprovalRequestID} {taskID : TaskID} {run : WorkflowRunID}
    {reason : String} {approver : ApproverSpec} {expiresAt : Option Timestamp} {now : Timestamp}
    (hreason : isBlank reason = false) :
    newApprovalRequest id taskID run reason approver expiresAt now
      = .ok ⟨id, taskID, run, reason, approver, .pending, none, expiresAt, now⟩ := by
  rw [newApprovalRequest, hreason]
  rfl

/-- What the start stores beside the run. -/
structure StartFile (c : Core) (w : WorkflowRun) : Prop where
  lease : (∃ l ∈ c.executionLeases, l.workflowRunID = w.id) ↔ w.status = .running
  request : (∃ a ∈ c.approvalRequests, a.workflowRunID = w.id ∧ a.status = .pending) ↔
    w.status = .awaitingApproval

theorem RunFile.not_mem_leases {id : WorkflowRunID} {as : List ApprovalRequest}
    (h : RunFile c id [] as) : ∀ l ∈ c.executionLeases, l.workflowRunID ≠ id := fun l hl hid =>
  List.filter_eq_nil_iff.mp h.leases l hl (decide_eq_true hid)

theorem RunFile.not_mem_requests {id : WorkflowRunID} {ls : List ExecutionLease}
    (h : RunFile c id ls []) : ∀ a ∈ c.approvalRequests, a.workflowRunID ≠ id := fun a ha hid =>
  List.filter_eq_nil_iff.mp h.requests a ha (decide_eq_true hid)

section Start

variable {t : Task} {rd : RoutingDecision} {pd : PolicyDecision} {w : WorkflowRun}

/-- What the start of a run gives, in each of its branches. -/
abbrev StartGives (env : Environment) (t : Task) (rd : RoutingDecision) (pd : PolicyDecision)
    (p : UseCase WorkflowRun) (c : Core) : Prop :=
  Gives env (fun res c' => ∃ w', res = .ok w' ∧ StartedRun t rd pd w' ∧
    TaskFile c' t [rd] [pd.toRow] [w'] ∧ StartFile c' w') p c

theorem startDenied_gives (houtcome : pd.outcome = .deny)
    (hfile : TaskFile c t [rd] [pd.toRow] [w]) (hrun : RunFile c w.id [] [])
    (hw : CheckedRun t rd pd w) (read : PolicyDecision) (now : Timestamp) :
    StartGives env t rd pd (startDenied t.id w read now) c := by
  refine Gives.wrap (hw.transitionTo_ok rfl) ?_
  refine Gives.updateRun ?_
  refine Gives.recordDropped (by decide) (by decide) ?_
  refine Gives.notify ?_
  refine Gives.emit ?_
  have hmoved := hw.moved ("policy denied: " ++ read.reason) systemActor now
  rw [houtcome] at hmoved
  refine ⟨_, rfl, hmoved, hfile.updateWorkflow rfl rfl, ?_, ?_⟩
  · refine ⟨fun ⟨l, hl, hid⟩ => absurd hid (hrun.not_mem_leases l hl), fun h => ?_⟩
    cases h
  · refine ⟨fun ⟨a, ha, hid, _⟩ => absurd hid (hrun.not_mem_requests a ha), fun h => ?_⟩
    cases h

theorem startAwaiting_gives (houtcome : pd.outcome = .requireApproval)
    (hfile : TaskFile c t [rd] [pd.toRow] [w]) (hrun : RunFile c w.id [] [])
    (hw : CheckedRun t rd pd w) {read : PolicyDecision} (hread : isBlank read.reason = false)
    (now : Timestamp) : StartGives env t rd pd (startAwaiting t.id w read now) c := by
  refine Gives.wrap (hw.transitionTo_ok rfl) ?_
  refine Gives.newID fun id hid => ?_
  refine Gives.wrap (newApprovalRequest_ok hread) ?_
  refine Gives.saveApproval (Table.find_eq_none_iff.mpr fun a ha hk => ?_) fun A hA => ?_
  · exact (hid.approval a ha).1 (congrArg ID.text hk)
  refine Gives.updateRun ?_
  refine Gives.recordDropped (by decide) (by decide) ?_
  refine Gives.notify ?_
  have hmoved := hw.moved ("approval required: " ++ read.reason) systemActor now
  rw [houtcome] at hmoved
  refine ⟨_, rfl, hmoved, TaskFile.updateWorkflow (c := { c with approvalRequests := A })
    ⟨hfile.task, hfile.decisions, hfile.policies, hfile.runs⟩ rfl rfl, ?_, ?_⟩
  · refine ⟨fun ⟨l, hl, hid⟩ => absurd hid (hrun.not_mem_leases l hl), fun h => ?_⟩
    cases h
  · exact ⟨fun _ => rfl, fun _ => ⟨_, mem_of_eq_concat hA, rfl, rfl⟩⟩

theorem startRunning_gives (houtcome : pd.outcome = .allowWithConstraints)
    (hfile : TaskFile c t [rd] [pd.toRow] [w]) (hrun : RunFile c w.id [] [])
    (hw : CheckedRun t rd pd w) (now : Timestamp) :
    StartGives env t rd pd (startRunning t.id w now) c := by
  refine Gives.wrap (hw.transitionTo_ok rfl) ?_
  rw [createLease_eq]
  refine Gives.newID fun id hid => ?_
  refine Gives.saveLease (Table.find_eq_none_iff.mpr fun l hl hk => ?_)
    (IndexedTable.lookup_eq_none_iff.mpr fun l hl hk => ?_) fun L hL => ?_
  · exact (hid.lease l hl).1 (congrArg ID.text hk)
  · exact hrun.not_mem_leases l hl hk
  refine Gives.updateRun ?_
  refine Gives.recordDropped (by decide) (by decide) ?_
  refine Gives.notify ?_
  have hmoved := hw.moved "policy allowed" systemActor now
  rw [houtcome] at hmoved
  refine ⟨_, rfl, hmoved, TaskFile.updateWorkflow (c := { c with executionLeases := L })
    ⟨hfile.task, hfile.decisions, hfile.policies, hfile.runs⟩ rfl rfl, ?_, ?_⟩
  · exact ⟨fun _ => rfl, fun _ => ⟨_, mem_of_eq_concat hL, rfl⟩⟩
  · refine ⟨fun ⟨a, ha, hid, _⟩ => absurd hid (hrun.not_mem_requests a ha), fun h => ?_⟩
    cases h

theorem startWorkflow_gives {action : String} (hpd : Decides t action pd)
    (hfile : TaskFile c t [rd] [pd.toRow] [w]) (hrun : RunFile c w.id [] [])
    (hw : CheckedRun t rd pd w) : StartGives env t rd pd (startWorkflow t.id) c := by
  refine Gives.findTask rfl hfile.task ?_
  refine Gives.findRouting rfl hfile.decisions ?_
  refine Gives.findPolicy rfl hfile.policies ?_
  refine Gives.findRun rfl hfile.runs ?_
  refine Gives.now fun now => ?_
  have hdeclared : ∀ code h, pd.outcome ≠ .undeclared code h := by
    intro code h heq
    rw [hpd.outcome] at heq
    rcases verdict_declared t action with h' | h' | h' <;> rw [h'] at heq <;> cases heq
  -- The switch is on the outcome that was read back from its text.
  have hread : pd.toRow.scan.outcome = pd.outcome := policyOutcomeFromString_text hdeclared
  rcases verdict_declared t action with h | h | h
  · have houtcome : pd.outcome = .deny := hpd.outcome.trans h
    simp only [startAs, hread, houtcome]
    exact startDenied_gives houtcome hfile hrun hw _ now
  · have houtcome : pd.outcome = .requireApproval := hpd.outcome.trans h
    simp only [startAs, hread, houtcome]
    exact startAwaiting_gives houtcome hfile hrun hw hpd.reason now
  · have houtcome : pd.outcome = .allowWithConstraints := hpd.outcome.trans h
    simp only [startAs, hread, houtcome]
    exact startRunning_gives houtcome hfile hrun hw now

end Start

/-! ### ProcessTask -/

/-- The status in which `ProcessTask` leaves the run: a function of the action, the metadata, the
type and the scope. -/
def finalStatus (taskType : TaskType) (scope : TaskScope) (metadata : TaskMetadata)
    (action : String) : WorkflowStatus :=
  if Denied metadata action then .failed
  else if taskType = .deployment ∨ scope = .system then .awaitingApproval
  else .running

/-- What `ProcessTask` returns and leaves behind. -/
structure ProcessedTask (input : SubmitTaskInput) (action : String) (out : ProcessTaskResult)
    (c : Core) : Prop where
  task : Submitted input out.task
  /-- The rows that name the task are exactly the returned ones. -/
  file : TaskFile c out.task [out.routingDecision] [out.policyDecision.toRow] [out.workflowRun]
  log : out.workflowRun.transitions.map (fun m => (m.source, m.target)) =
    [(.created, .routed), (.routed, .policyChecked),
      (.policyChecked, finalStatus input.type input.scope input.metadata action)]
  status : out.workflowRun.status = finalStatus input.type input.scope input.metadata action
  routing : out.workflowRun.routingDecisionID = some out.routingDecision.id
  policy : out.workflowRun.policyDecisionID = some out.policyDecision.id
  lease : (∃ l ∈ c.executionLeases, l.workflowRunID = out.workflowRun.id) ↔
    finalStatus input.type input.scope input.metadata action = .running
  request : (∃ a ∈ c.approvalRequests, a.workflowRunID = out.workflowRun.id ∧ a.status = .pending) ↔
    finalStatus input.type input.scope input.metadata action = .awaitingApproval

/-- A critical risk is that of a deployment, so it asks for nothing of its own. -/
theorem Submitted.needsApproval_iff {input : SubmitTaskInput} {t : Task} (h : Submitted input t) :
    NeedsApproval t ↔ input.type = .deployment ∨ input.scope = .system := by
  unfold NeedsApproval
  rw [h.riskLevel, h.taskType, h.scope]
  refine ⟨?_, Or.inr⟩
  rintro (hrisk | h)
  · unfold classifyRisk at hrisk
    split at hrisk
    · next hboth => exact Or.inl hboth.1
    · repeat' split at hrisk
      all_goals cases hrisk
  · exact h

theorem Submitted.startStatus_verdict {input : SubmitTaskInput} {t : Task} (h : Submitted input t)
    (action : String) : startStatus (verdict t action) =
      finalStatus input.type input.scope input.metadata action := by
  have hneeds := h.needsApproval_iff
  unfold verdict finalStatus
  rw [h.metadata]
  by_cases hd : Denied input.metadata action
  · rw [if_pos hd, if_pos hd]
    rfl
  rw [if_neg hd, if_neg hd]
  by_cases hn : NeedsApproval t
  · rw [if_pos hn, if_pos (hneeds.mp hn)]
    rfl
  · rw [if_neg hn, if_neg fun h => hn (hneeds.mpr h)]
    rfl

/-- **ProcessTask, end to end.** Without failures, from any store and whatever the memory engine and
the failure statistics advise, the pipeline has a run, and every run succeeds with the governed
outcome: the log is `created → routed → policy_checked → X`, where `X` depends on the action, the
metadata, the type and the scope alone, with a lease exactly when the run is running and a pending
request exactly when it awaits an approval. -/
theorem processTask_governed (henv : env.Open) (s : Store) (input : SubmitTaskInput)
    (action : String) (htitle : isBlank input.title = false) (haction : action ≠ "") :
    (∃ res s', (processTask input action).Runs (Steady env) s res s') ∧
      ∀ res s', (processTask input action).Runs (Steady env) s res s' →
        ∃ out, res = .ok out ∧ ProcessedTask input action out s'.core := by
  suffices hgives : Gives env
      (fun res c' => ∃ out, res = .ok out ∧ ProcessedTask input action out c')
      (processTask input action) s.core from hgives.total henv
  refine Gives.seq (Gives.wrapError (submitTask_gives htitle)) ?_
  rintro t c₁ ⟨ht, hfile₁⟩
  refine Gives.seq (Gives.wrapError (routeTask_gives ht.id_ne hfile₁)) ?_
  rintro rd c₂ ⟨-, ⟨w₂, hw₂, hfile₂, hrun₂⟩, -⟩
  refine Gives.seq (Gives.wrapError (evaluatePolicy_gives haction hfile₂ hrun₂ hw₂)) ?_
  rintro pd c₃ ⟨hpd, w₃, hw₃, hfile₃, hrun₃⟩
  refine Gives.seq (Gives.wrapError (startWorkflow_gives hpd hfile₃ hrun₃ hw₃)) ?_
  rintro w c₄ ⟨hw, hfile, hstart⟩
  -- the verdict on the stored task is the one on the input
  have hfinal : startStatus pd.outcome =
      finalStatus input.type input.scope input.metadata action := by
    rw [hpd.outcome]
    exact ht.startStatus_verdict action
  refine ⟨_, rfl, ?_⟩
  exact {
    task := ht
    file := hfile
    log := hfinal ▸ hw.log
    status := hfinal ▸ hw.status
    routing := hw.routing
    policy := hw.policy
    lease := by rw [← hfinal, ← hw.status]; exact hstart.lease
    request := by rw [← hfinal, ← hw.status]; exact hstart.request }

/-- The pipeline on a new store, for a fix of a bug, with an arbitrary environment. -/
theorem processTask_governed_bugfix :
    ∃ res s', (processTask bugfixInput "code_change").Runs (Steady fun _ _ => True)
      (Store.empty true) res s' ∧ ∃ out, res = .ok out ∧ out.workflowRun.status = .running := by
  have hopen : Environment.Open fun _ _ => True := fun _ text => ⟨{ id := text }, rfl, rfl, trivial⟩
  obtain ⟨⟨res, s', hrun⟩, hall⟩ := processTask_governed hopen (Store.empty true) bugfixInput
    "code_change" (by decide) (by decide)
  obtain ⟨out, hout, hgov⟩ := hall res s' hrun
  exact ⟨res, s', hrun, out, hout, hgov.status⟩

end Governance

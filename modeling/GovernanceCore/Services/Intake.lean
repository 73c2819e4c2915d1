import GovernanceCore.Services.UseCase

/-!
# Submitting, routing and policy evaluation

The use cases of `internal/application/intake`, `routing` and `policyeval` as programs over the
outbound ports, step by step as the source performs them.

An absent memory provider and one that fails answer alike: the callers go on without a context. The
same holds for an absent store of failure statistics.
-/

namespace Governance

open Framework

/-! ### SubmitTask -/

/-- `SubmitTaskInput`. -/
structure SubmitTaskInput where
  type : TaskType
  title : String
  scope : TaskScope
  priority : Priority
  metadata : TaskMetadata
  deriving DecidableEq, Repr

/-- `classifyRisk`. -/
def classifyRisk (taskType : TaskType) (scope : TaskScope) : RiskLevel :=
  if taskType = .deployment ∧ scope = .system then .critical
  else if taskType = .deployment ∧ scope = .repo then .high
  else if scope = .system then .high
  else if taskType = .refactor ∧ scope = .repo then .medium
  else if taskType = .bugfix ∧ scope = .file then .low
  else .medium

/-- `SubmitTask`. -/
def submitTask (input : SubmitTaskInput) : UseCase Task := do
  let id ← IDGen.newTaskID
  let now ← Clock.now
  let risk := classifyRisk input.type input.scope
  -- The context is asked for and not used.
  let _ ← Memory.getRelevantContext id input.title
  let t ← orWrap "creating task"
    (newTask id none input.type input.title input.scope input.priority risk input.metadata now)
  orFail "persisting task" (← TaskRepo.save t)
  orFail "recording audit"
    (← Audit.record systemActor "task_submitted" "created" [] (some t.id) none)
  return t

/-! ### RouteTask -/

/-- `childScope`. -/
def childScope : TaskScope → TaskScope
  | .system => .repo
  | .repo => .module
  | .module => .file
  | _ => .file

/-- `subtaskSuffixes`. -/
def subtaskSuffixes : TaskScope → List String
  | .system => ["implementation", "review"]
  | .repo => ["implementation", "testing"]
  | _ => ["part 1", "part 2"]

/-- The loop of `createDecomposeSubtasks`, over the suffixes that are left. -/
def createSubtasks (parent : Task) (now : Timestamp) : List String → UseCase Unit
  | [] => return ()
  | suffix :: rest => do
    let subID ← IDGen.newTaskID
    let title := "[decompose] " ++ parent.title ++ " - " ++ suffix
    let sub ← orWrap ("creating subtask \"" ++ suffix ++ "\"")
      (newTask subID (some parent.id) parent.taskType title (childScope parent.scope)
        parent.priority parent.riskLevel [] now)
    orFail ("persisting subtask \"" ++ suffix ++ "\"") (← TaskRepo.save sub)
    orFail ("auditing subtask \"" ++ suffix ++ "\"")
      (← Audit.record systemActor "subtask_created" suffix
        (AuditContext.set [] "parent_task_id" (.text parent.id.text)) (some subID) none)
    createSubtasks parent now rest

/-- Step 6 of `RouteTask`: whatever error the query returns, a new workflow run is created. -/
def loadOrCreateWorkflow (taskID : TaskID) (now : Timestamp) : UseCase WorkflowRun := do
  match (← WfRepo.findByTaskID taskID) with
  | .ok wf => return wf
  | .error _ =>
    let wfID ← IDGen.newWorkflowRunID
    let wf := newWorkflowRun wfID taskID now
    orFail "saving new workflow run" (← WfRepo.save wf)
    return wf

/-- `RouteTask`. -/
def routeTask (taskID : TaskID) : UseCase RoutingDecision := do
  let t ← orFail "loading task" (← TaskRepo.findByID taskID)
  -- Steps 2 and 3: both sources of advice are optional.
  let memCtx ← Memory.getRelevantContext taskID t.title
  let stats ← StatsStore.get
  let result := Routing.evaluate t memCtx stats
  let now ← Clock.now
  let rdID ← IDGen.newRoutingDecisionID
  let rd ← orWrap "creating routing decision"
    (newRoutingDecision rdID taskID result.evaluations result.selectedStrategy result.selectedRole
      result.reason [] now)
  -- Step 5: the decision is stored before the run is asked whether it may be routed.
  orFail "saving routing decision" (← RoutingRepo.save rd)
  let wf ← loadOrCreateWorkflow taskID now
  -- Step 7 fails for a run that was routed before; the decision of this call stays stored.
  let wf ← orWrap "marking workflow routed" (wf.markRouted rdID result.reason systemActor now)
  orFail "updating workflow run" (← WfRepo.update wf)
  let auditCtx := (AuditContext.withStrategy [] result.selectedStrategy.text).withAgentRole
    result.selectedRole.text
  orFail "recording audit"
    (← Audit.record systemActor "task_routed" result.selectedStrategy.text auditCtx
      (some taskID) (some wf.id))
  -- Step 9: an error here returns no decision although the run is routed.
  if result.selectedStrategy = .decompose then
    wrapError "creating decompose subtasks" (createSubtasks t now (subtaskSuffixes t.scope))
  return rd

/-! ### EvaluatePolicy -/

/-- `EvaluatePolicyService.EvaluatePolicy`. The decision is stored before the workflow run is asked
whether it may move. -/
def evaluatePolicy (taskID : TaskID) (action : String) : UseCase PolicyDecision := do
  let t ← orFail "loading task" (← TaskRepo.findByID taskID)
  let _ ← orFail "routing decision required before policy evaluation"
    (← RoutingRepo.findByTaskID taskID)
  let result := Policy.evaluatePolicy defaultRules ⟨t, action⟩
  let now ← Clock.now
  let pdID ← IDGen.newPolicyDecisionID
  let pd ← orWrap "creating policy decision"
    (newPolicyDecision pdID taskID action result.outcome result.constraints
      result.approvalRequirement result.rulesEvaluated result.reason now)
  orFail "saving policy decision" (← PolicyRepo.save pd)
  -- Step 6: a run that is not routed refuses, and the stored decision has no run that refers to it.
  let wf ← orFail "loading workflow run" (← WfRepo.findByTaskID taskID)
  let wf ← orWrap "marking workflow policy_checked" (wf.markPolicyChecked pdID systemActor now)
  orFail "updating workflow run" (← WfRepo.update wf)
  let auditCtx := AuditContext.set (AuditContext.set [] "evaluated_action" (.text action))
    "policy_outcome" (.text result.outcome.text)
  orFail "recording audit"
    (← Audit.record systemActor "policy_evaluated" result.outcome.text auditCtx
      (some taskID) (some wf.id))
  return pd

end Governance

import GovernanceCore.Services.UseCase

/-!
# Running workflows

The use cases of `internal/application/workflowrun` and `internal/application/approvals`. Each one
reads the rows it needs, decides on its copies and writes whole rows back by id; there is no
transaction and no check of the stored row at the write.
-/

namespace Governance

open Framework

/-- The lease that `StartWorkflow` and `ResolveApproval` both create for a run about to start. -/
def createLease (wfID : WorkflowRunID) (now : Timestamp) : UseCase ExecutionLease := do
  let retryBudget ← orWrap "creating retry budget" (newRetryBudget defaultMaxRetries)
  -- The source generates the id while it builds the arguments of `NewExecutionLease`, so a refused
  -- budget uses none.
  let leaseID ← IDGen.newExecutionLeaseID
  orWrap "creating execution lease"
    (newExecutionLease leaseID wfID defaultTimeout retryBudget now)

theorem createLease_eq (w : WorkflowRunID) (now : Timestamp) :
    createLease w now = .act (.newID .executionLease) fun id => .ret (defaultLease id w now) := rfl

/-! ### StartWorkflow -/

def errNoRoutingDecision : Err :=
  .new "no routing decision found for task — cannot start workflow without routing"
def errNoPolicyDecision : Err :=
  .new "no policy decision found for task — cannot start workflow without policy evaluation"
def errNoWorkflowRun : Err :=
  .new "no workflow run found for task — workflow must be created by RouteTask first"

/-- The deny branch of `StartWorkflow`. -/
def startDenied (tID : TaskID) (wf : WorkflowRun) (pd : PolicyDecision) (now : Timestamp) :
    UseCase WorkflowRun := do
  let wf' ← orWrap "transitioning to failed"
    (wf.fail ("policy denied: " ++ pd.reason) systemActor now)
  orFail "persisting workflow" (← WfRepo.update wf')
  -- The run is stored: from here on no error is returned.
  let _ ← Audit.record systemActor "workflow_started" "denied" [] (some tID) (some wf'.id)
  Notifier.onWorkflowTerminated wf' "policy denied"
  LifecycleMetrics.emitTerminal wf' "failed"
  return wf'

/-- The require-approval branch of `StartWorkflow`. -/
def startAwaiting (tID : TaskID) (wf : WorkflowRun) (pd : PolicyDecision) (now : Timestamp) :
    UseCase WorkflowRun := do
  let wf' ← orWrap "transitioning to awaiting_approval"
    (wf.transitionTo .awaitingApproval ("approval required: " ++ pd.reason) systemActor now)
  let approverRole := match pd.approvalRequirement with
    | some ar => ar.approverRole
    | none => ""
  let reqID ← IDGen.newApprovalRequestID
  let req ← orWrap "creating approval request"
    (newApprovalRequest reqID tID wf'.id pd.reason { role := approverRole } none now)
  -- The request is stored first: a failing update leaves it pending beside a run that still counts
  -- as checked.
  orFail "persisting approval request" (← ApprovalRepo.save req)
  orFail "persisting workflow" (← WfRepo.update wf')
  let _ ← Audit.record systemActor "workflow_started" "awaiting_approval" [] (some tID)
    (some wf'.id)
  Notifier.onApprovalRequired wf' req
  return wf'

/-- The allow branch of `StartWorkflow`. -/
def startRunning (tID : TaskID) (wf : WorkflowRun) (now : Timestamp) : UseCase WorkflowRun := do
  let wf' ← orWrap "transitioning to running"
    (wf.transitionTo .running "policy allowed" systemActor now)
  -- The lease is stored first, so that a stored running run has one.
  let lease ← createLease wf'.id now
  orFail "persisting lease" (← LeaseRepo.save lease)
  orFail "persisting workflow" (← WfRepo.update wf')
  let _ ← Audit.record systemActor "workflow_started" "running" [] (some tID) (some wf'.id)
  Notifier.onExecutionReady wf' lease
  return wf'

/-- The switch of `StartWorkflow` on the outcome of the decision. -/
def startAs (tID : TaskID) (wf : WorkflowRun) (pd : PolicyDecision) (now : Timestamp) :
    UseCase WorkflowRun :=
  match pd.outcome with
  | .deny => startDenied tID wf pd now
  | .requireApproval => startAwaiting tID wf pd now
  | .allow => startRunning tID wf now
  | .allowWithConstraints => startRunning tID wf now
  | .undeclared code h =>
    .fail (.new ("unknown policy outcome: " ++ (PolicyOutcome.undeclared code h).text))

/-- `StartWorkflow`: the decision is looked up by task, not by the id the run refers to. -/
def startWorkflow (taskID : TaskID) : UseCase WorkflowRun := do
  let tk ← orFail "loading task" (← TaskRepo.findByID taskID)
  -- Both decisions must exist; of the routing decision nothing else is used.
  let _ ← orCause errNoRoutingDecision (← RoutingRepo.findByTaskID taskID)
  let pd ← orCause errNoPolicyDecision (← PolicyRepo.findByTaskID taskID)
  let wf ← orCause errNoWorkflowRun (← WfRepo.findByTaskID taskID)
  let now ← Clock.now
  startAs tk.id wf pd now

/-! ### RegisterAttempt -/

def errTerminalWorkflow : Err := .new "cannot register attempt on terminal workflow"

/-- `extractCategory`: the failure code up to its first slash. -/
def extractCategory (code : String) : String :=
  String.ofList (code.toList.takeWhile (· ≠ '/'))

/-- Step 5 of `RegisterAttempt`, on the lease that has counted the attempt. A retry never moves the
run, also when it has used the last attempt. -/
def attemptTransition (wf : WorkflowRun) (lease : ExecutionLease) (status : AttemptStatus)
    (now : Timestamp) : UseCase WorkflowRun :=
  match status with
  | .success => orWrap "completing workflow" (wf.complete "attempt succeeded" systemActor now)
  | .failure =>
    -- The budget is asked after the attempt was counted.
    if lease.hasRetryBudget then return wf
    else orWrap "quarantining workflow"
      (wf.quarantine "retry budget exhausted" systemActor now)
  | .retry => return wf
  | .other _ => return wf

/-- The audit context of step 7. `Validate` has made sure that a failure stage comes with a code and
a retryable flag. -/
def attemptContext (lease : ExecutionLease) (result : AttemptResult) : AuditContext :=
  let ctx := AuditContext.withLeaseState [] lease.attemptsUsed lease.retryBudget.maxAttempts
    (Duration.milliseconds lease.timeElapsed)
  let ctx := result.strategyUsed.elim ctx ctx.withStrategy
  let ctx := result.agentRole.elim ctx ctx.withAgentRole
  let ctx := match result.failureStage, result.failureCode, result.retryable with
    | some stage, some code, some retryable => ctx.withFailure stage.text code retryable
    | _, _, _ => ctx
  result.toolName.elim ctx ctx.withToolName

/-- The second audit entry of step 8, for a run that has been quarantined. -/
def recordQuarantine (wf : WorkflowRun) (ctx : AuditContext) : UseCase Unit :=
  if wf.status = .quarantined then do
    let _ ← Audit.record systemActor "workflow_quarantined" "budget_exhausted" ctx none (some wf.id)
    return ()
  else return ()

/-- Steps 9 and 10 of `RegisterAttempt`: a run that has ended is announced. -/
def announceTermination (wf : WorkflowRun) : UseCase Unit :=
  if wf.status.isTerminal then do
    let reason := if wf.status = .quarantined then "quarantined:budget_exhausted"
      else wf.status.text
    Notifier.onWorkflowTerminated wf reason
    LifecycleMetrics.emitTerminal wf wf.status.text
  else return ()

/-- The failure metric of step 10. -/
def reportFailure (result : AttemptResult) : UseCase Unit :=
  match result.failureStage, result.failureCode, result.retryable with
  | some stage, some code, some retryable =>
    LifecycleMetrics.emitFailure stage.text (extractCategory code) retryable
  | _, _, _ => return ()

/-- Step 11 of `RegisterAttempt`. -/
def observeBreaker (result : AttemptResult) (now : Timestamp) : UseCase Unit :=
  match result.toolName, result.agentRole with
  | some tool, some role => BreakerRegistry.observe tool role (result.status = .success) now
  | _, _ => return ()

/-- `RegisterAttempt`. -/
def registerAttempt (id : WorkflowRunID) (result : AttemptResult) : UseCase WorkflowRun := do
  let wf ← orFail "loading workflow" (← WfRepo.findByID id)
  if wf.status.isTerminal then
    .fail (errTerminalWorkflow.detail ("status is " ++ wf.status.text))
  else
    let _ ← orWrap "invalid attempt result" result.validate
    -- Steps 3 to 5, on the copies that were read.
    let lease ← orFail "loading lease" (← LeaseRepo.findByWorkflowRunID id)
    let lease ← orWrap "recording attempt on lease" lease.recordAttempt
    let now ← Clock.now
    let wf ← attemptTransition wf lease result.status now
    -- Step 6: both rows are written, also the run that has not moved.
    orFail "persisting lease" (← LeaseRepo.update lease)
    orFail "persisting workflow" (← WfRepo.update wf)
    -- Steps 7 to 11 only report; their errors are dropped.
    let ctx := attemptContext lease result
    let _ ← Audit.record systemActor "attempt_registered" result.status.text ctx none (some wf.id)
    recordQuarantine wf ctx
    announceTermination wf
    reportFailure result
    observeBreaker result now
    return wf

/-! ### Pause, resume, kill -/

def errLeaseExhausted : Err := .new "cannot resume: execution lease is exhausted"

/-- `PauseWorkflow`. -/
def pauseWorkflow (id : WorkflowRunID) (reason : String) (actor : ActorID) : UseCase Unit := do
  let wf ← orFail "loading workflow" (← WfRepo.findByID id)
  let now ← Clock.now
  let wf ← orWrap "pausing workflow" (wf.pause reason actor now)
  orFail "persisting workflow" (← WfRepo.update wf)
  let _ ← Audit.record actor "workflow_paused" "paused" [] none (some wf.id)
  return ()

/-- `ResumeWorkflow`. -/
def resumeWorkflow (id : WorkflowRunID) (reason : String) (actor : ActorID) : UseCase Unit := do
  let wf ← orFail "loading workflow" (← WfRepo.findByID id)
  let lease ← orFail "loading lease" (← LeaseRepo.findByWorkflowRunID id)
  -- The budget is checked before the run is asked whether it is paused.
  if lease.hasRetryBudget then
    let now ← Clock.now
    let wf ← orWrap "resuming workflow" (wf.resume reason actor now)
    orFail "persisting workflow" (← WfRepo.update wf)
    let _ ← Audit.record actor "workflow_resumed" "running" [] none (some wf.id)
    Notifier.onExecutionReady wf lease
  else .fail errLeaseExhausted

/-- The revocation in `KillWorkflow`: every error on the way is dropped. -/
def revokeLease (id : WorkflowRunID) : UseCase Unit := do
  match (← LeaseRepo.findByWorkflowRunID id) with
  | .error _ => return ()
  | .ok lease =>
    match lease.revoke with
    | .error _ => return ()
    | .ok lease =>
      let _ ← LeaseRepo.update lease
      return ()

/-- `KillWorkflow`. -/
def killWorkflow (id : WorkflowRunID) (reason : String) (actor : ActorID) : UseCase Unit := do
  let wf ← orFail "loading workflow" (← WfRepo.findByID id)
  let now ← Clock.now
  let wf ← orWrap "killing workflow" (wf.kill reason actor now)
  -- The lease is revoked before the run is stored as killed.
  revokeLease id
  orFail "persisting workflow" (← WfRepo.update wf)
  let _ ← Audit.record actor "workflow_killed" "killed" [] none (some wf.id)
  Notifier.onWorkflowTerminated wf reason
  LifecycleMetrics.emitTerminal wf "killed"

/-! ### ResolveApproval -/

/-- `ResolveApprovalInput`. -/
structure ResolveApprovalInput where
  approvalRequestID : ApprovalRequestID
  approved : Bool
  resolvedBy : ActorID
  reason : String
  deriving DecidableEq, Repr

/-- The approve branch of `ResolveApproval`, after the request is stored. -/
def resumeApproved (wf : WorkflowRun) (by' : ActorID) (now : Timestamp) : UseCase Unit := do
  -- Two transitions on one copy: `approved` is never stored.
  let wf ← orWrap "transitioning to approved" (wf.transitionTo .approved "approval granted" by' now)
  let wf ← orWrap "transitioning to running" (wf.transitionTo .running "starting execution" by' now)
  let lease ← createLease wf.id now
  orFail "persisting lease" (← LeaseRepo.save lease)
  orFail "persisting workflow" (← WfRepo.update wf)
  Notifier.onExecutionReady wf lease

/-- The deny branch of `ResolveApproval`, after the request is stored. -/
def failDenied (wf : WorkflowRun) (by' : ActorID) (reason : String) (now : Timestamp) :
    UseCase Unit := do
  let wf ← orWrap "transitioning to failed" (wf.fail ("approval denied: " ++ reason) by' now)
  orFail "persisting workflow" (← WfRepo.update wf)
  Notifier.onWorkflowTerminated wf "approval denied"

/-- Step 2 of `ResolveApproval`. -/
def resolveRequest (req : ApprovalRequest) (input : ResolveApprovalInput) (now : Timestamp) :
    UseCase ApprovalRequest :=
  if input.approved then orWrap "approving request" (req.approve input.resolvedBy input.reason now)
  else orWrap "denying request" (req.deny input.resolvedBy input.reason now)

/-- Steps 5 and 6 of `ResolveApproval`. -/
def moveResolved (wf : WorkflowRun) (input : ResolveApprovalInput) (now : Timestamp) :
    UseCase Unit :=
  if input.approved then resumeApproved wf input.resolvedBy now
  else failDenied wf input.resolvedBy input.reason now

/-- Step 8 of `ResolveApproval`. -/
def reportResolution (wf : WorkflowRun) (approved : Bool) : UseCase Unit :=
  if approved then LifecycleMetrics.emitApprovalWait "approved"
  else do
    LifecycleMetrics.emitApprovalWait "denied"
    LifecycleMetrics.emitTerminal wf "failed"

/-- `ResolveApproval`: the request is stored as resolved before the run is asked whether it may
move. -/
def resolveApproval (input : ResolveApprovalInput) : UseCase ApprovalRequest := do
  let req ← orFail "loading approval request" (← ApprovalRepo.findByID input.approvalRequestID)
  let now ← Clock.now
  let req ← resolveRequest req input now
  orFail "persisting approval" (← ApprovalRepo.update req)
  -- From here on an error leaves a resolved request behind.
  let wf ← orFail "loading workflow" (← WfRepo.findByID req.workflowRunID)
  moveResolved wf input now
  let outcome := if input.approved then "approved" else "denied"
  let _ ← Audit.record input.resolvedBy "approval_resolved" outcome [] none (some wf.id)
  reportResolution wf input.approved
  return req

end Governance

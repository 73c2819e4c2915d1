import GovernanceCore.Domain.Constructors
import GovernanceCore.Framework.Composition
import GovernanceCore.Services.Governance

/-!
# The handlers of the HTTP server

`internal/adapters/inbound/http`: a handler decodes the body, checks what it has got with the
constructors of the domain, calls one service and turns its result into a reply. It is a program
over the ports whose errors are replies: every `writeError` of the source is followed by a return.

A request is the endpoint it has been routed to, with the parameters of the path and the decoded
body; no body is one that `encoding/json` refuses. The endpoints that list are in
`Http/Listing.lean`.
-/

namespace Governance

open Framework

/-! ### Requests -/

/-- `submitTaskRequest`. -/
structure SubmitTaskRequest where
  type : String
  title : String
  scope : String
  priority : String
  metadata : TaskMetadata
  action : String
  deriving DecidableEq, Repr

/-- `evaluatePolicyRequest`. -/
structure EvaluatePolicyRequest where
  action : String
  deriving DecidableEq, Repr

/-- `workflowActionRequest`. -/
structure WorkflowActionRequest where
  reason : String
  actor : String
  deriving DecidableEq, Repr

/-- `registerAttemptRequest`, without the detail, which no service reads. -/
structure RegisterAttemptRequest where
  status : String
  failureStage : Option String
  failureCode : Option String
  retryable : Option Bool
  toolName : Option String
  strategyUsed : Option String
  agentRole : Option String
  deriving DecidableEq, Repr

/-- `resolveApprovalRequest`. -/
structure ResolveApprovalRequest where
  approved : Bool
  resolvedBy : String
  reason : String
  deriving DecidableEq, Repr

/-- A request: its endpoint, the identifier in its path, its body. -/
inductive Request where
  | submitTask (body : Option SubmitTaskRequest)
  | getTask (rawID : String)
  | routeTask (rawID : String)
  | evaluatePolicy (rawID : String) (body : Option EvaluatePolicyRequest)
  | startWorkflow (rawID : String)
  | processTask (rawID : String) (body : Option SubmitTaskRequest)
  | getWorkflowStatus (rawID : String)
  | killWorkflow (rawID : String) (body : Option WorkflowActionRequest)
  | pauseWorkflow (rawID : String) (body : Option WorkflowActionRequest)
  | resumeWorkflow (rawID : String) (body : Option WorkflowActionRequest)
  | registerAttempt (rawID : String) (body : Option RegisterAttemptRequest)
  | resolveApproval (rawID : String) (body : Option ResolveApprovalRequest)
  deriving DecidableEq, Repr

/-! ### Replies -/

/-- `ErrorResponse` with its status. Its text is that of the error. -/
structure ErrorReply where
  status : Nat
  code : String
  error : Err
  deriving DecidableEq, Repr

/-- What a reply shows. -/
inductive ReplyBody where
  | task (t : Task)
  | routing (d : RoutingDecision)
  | policy (d : PolicyDecision)
  | workflow (w : WorkflowRun)
  | approval (a : ApprovalRequest)
  | processed (r : ProcessTaskResult)
  | status (text : String)

/-- The argument of `writeJSON` with its status. -/
structure SuccessReply where
  status : Nat
  body : ReplyBody

/-- A part of a handler; the rest is skipped once an error is written. -/
abbrev Handler (α : Type) := Program Op Res ErrorReply α

/-- An error of the caller. -/
def badRequest {α : Type} (code message : String) : Handler α := .fail ⟨400, code, .new message⟩

/-- Decode the body. -/
def decodeBody {α : Type} : Option α → Handler α
  | some a => .ret a
  | none => badRequest "INVALID_JSON" "invalid request body"

/-- Go on with a checked value. -/
def orBadRequest {α : Type} (code : String) : Except Err α → Handler α
  | .ok a => .ret a
  | .error e => .fail ⟨400, code, e⟩

/-- Go on unless a required field is missing. -/
def require (present : Bool) (code message : String) : Handler Unit :=
  if present then .ret () else badRequest code message

/-- Call a service; its error is written with this status and code. -/
def serve {α : Type} (status : Nat) (code : String) (service : UseCase α) : Handler α :=
  service.handle fun
    | .ok a => .ret a
    | .error e => .fail ⟨status, code, e⟩

/-! ### Tasks -/

variable (ulid : UlidPackage)

/-- The checks that `handleSubmitTask` and `handleProcessTask` make alike. -/
def checkedInput (req : SubmitTaskRequest) : Handler SubmitTaskInput := do
  let taskType ← orBadRequest "INVALID_TASK_TYPE" (newTaskType req.type)
  let taskScope ← orBadRequest "INVALID_TASK_SCOPE" (newTaskScope req.scope)
  let priority ← orBadRequest "INVALID_PRIORITY" (newPriority req.priority)
  return ⟨taskType, req.title, taskScope, priority, req.metadata⟩

/-- `handleSubmitTask`. -/
def handleSubmitTask (body : Option SubmitTaskRequest) : Handler SuccessReply := do
  let req ← decodeBody body
  let input ← checkedInput req
  let result ← serve 500 "SUBMIT_FAILED" (submitTask input)
  return ⟨201, .task result⟩

/-- `GetTask` of the query service: the repository's answer and its error as they are. -/
def getTask (taskID : TaskID) : UseCase Task := do
  match (← TaskRepo.findByID taskID) with
  | .ok t => return t
  | .error e => .fail e.err

/-- `handleGetTask`. -/
def handleGetTask (rawID : String) : Handler SuccessReply := do
  let taskID ← orBadRequest "INVALID_TASK_ID" (newTaskID ulid rawID)
  let result ← serve 404 "TASK_NOT_FOUND" (getTask taskID)
  return ⟨200, .task result⟩

/-- `handleRouteTask`. -/
def handleRouteTask (rawID : String) : Handler SuccessReply := do
  let taskID ← orBadRequest "INVALID_TASK_ID" (newTaskID ulid rawID)
  let result ← serve 500 "ROUTE_FAILED" (routeTask taskID)
  return ⟨200, .routing result⟩

/-- `handleEvaluatePolicy`. -/
def handleEvaluatePolicy (rawID : String) (body : Option EvaluatePolicyRequest) :
    Handler SuccessReply := do
  let taskID ← orBadRequest "INVALID_TASK_ID" (newTaskID ulid rawID)
  let req ← decodeBody body
  require (req.action ≠ "") "MISSING_ACTION" "action is required"
  let result ← serve 500 "EVALUATE_POLICY_FAILED" (evaluatePolicy taskID req.action)
  return ⟨200, .policy result⟩

/-- `handleStartWorkflow`. -/
def handleStartWorkflow (rawID : String) : Handler SuccessReply := do
  let taskID ← orBadRequest "INVALID_TASK_ID" (newTaskID ulid rawID)
  let result ← serve 500 "START_WORKFLOW_FAILED" (startWorkflow taskID)
  return ⟨201, .workflow result⟩

/-- `handleProcessTask`. The identifier in the path is checked and then not used: the pipeline
starts by submitting a new task. -/
def handleProcessTask (rawID : String) (body : Option SubmitTaskRequest) :
    Handler SuccessReply := do
  let _taskID ← orBadRequest "INVALID_TASK_ID" (newTaskID ulid rawID)
  let req ← decodeBody body
  let input ← checkedInput req
  require (req.action ≠ "") "MISSING_ACTION" "action is required for process"
  let result ← serve 500 "PROCESS_FAILED" (processTask input req.action)
  return ⟨200, .processed result⟩

/-! ### Workflow runs -/

/-- `GetWorkflowStatus`. -/
def getWorkflowStatus (id : WorkflowRunID) : UseCase WorkflowRun := do
  orFail "loading workflow" (← WfRepo.findByID id)

/-- `handleGetWorkflowStatus`. -/
def handleGetWorkflowStatus (rawID : String) : Handler SuccessReply := do
  let wfID ← orBadRequest "INVALID_WORKFLOW_ID" (newWorkflowRunID ulid rawID)
  let result ← serve 404 "WORKFLOW_NOT_FOUND" (getWorkflowStatus wfID)
  return ⟨200, .workflow result⟩

/-- The body that the handlers of the three manual actions have. -/
def handleAction (action : WorkflowRunID → String → ActorID → UseCase Unit) (code done : String)
    (rawID : String) (body : Option WorkflowActionRequest) : Handler SuccessReply := do
  let wfID ← orBadRequest "INVALID_WORKFLOW_ID" (newWorkflowRunID ulid rawID)
  let req ← decodeBody body
  let actor ← orBadRequest "INVALID_ACTOR" (newActorID req.actor)
  serve 500 code (action wfID req.reason actor)
  return ⟨200, .status done⟩

/-- `handleKillWorkflow`. -/
def handleKillWorkflow : String → Option WorkflowActionRequest → Handler SuccessReply :=
  handleAction ulid killWorkflow "KILL_FAILED" "killed"

/-- `handlePauseWorkflow`. -/
def handlePauseWorkflow : String → Option WorkflowActionRequest → Handler SuccessReply :=
  handleAction ulid pauseWorkflow "PAUSE_FAILED" "paused"

/-- `handleResumeWorkflow`. -/
def handleResumeWorkflow : String → Option WorkflowActionRequest → Handler SuccessReply :=
  handleAction ulid resumeWorkflow "RESUME_FAILED" "resumed"

/-- The checks of `handleRegisterAttempt` on the fields of a failure, in its order, and the result
that `build` makes of them. -/
def failureResult (req : RegisterAttemptRequest)
    (build : FailureStage → String → Bool → Except Err AttemptResult) : Handler AttemptResult :=
  match req.failureStage with
  | none => badRequest "MISSING_FAILURE_STAGE" "failure_stage is required for failure/retry status"
  | some rawStage => do
    let stage ← orBadRequest "INVALID_FAILURE_STAGE" (newFailureStage rawStage)
    match req.failureCode with
    | none => badRequest "MISSING_FAILURE_CODE" "failure_code is required for failure/retry status"
    | some code => do
      require (code ≠ "") "MISSING_FAILURE_CODE" "failure_code is required for failure/retry status"
      match req.retryable with
      | none => badRequest "MISSING_RETRYABLE" "retryable is required for failure/retry status"
      | some retryable => orBadRequest "INVALID_ATTEMPT" (build stage code retryable)

/-- The switch of `handleRegisterAttempt`. For a retry the flag must be there, but its value does
not count: `NewRetryResult` sets it. -/
def attemptResult (req : RegisterAttemptRequest) : Handler AttemptResult :=
  if req.status = "success" then .ret newSuccessResult
  else if req.status = "failure" then failureResult req newFailureResult
  else if req.status = "retry" then failureResult req fun stage code _ => newRetryResult stage code
  else badRequest "INVALID_ATTEMPT_STATUS" "status must be success, failure, or retry"

/-- The optional fields. -/
def withOptional (req : RegisterAttemptRequest) (result : AttemptResult) : AttemptResult :=
  let result := (req.toolName.map result.withToolName).getD result
  let result := (req.strategyUsed.map result.withStrategy).getD result
  (req.agentRole.map result.withAgentRole).getD result

/-- `handleRegisterAttempt`. -/
def handleRegisterAttempt (rawID : String) (body : Option RegisterAttemptRequest) :
    Handler SuccessReply := do
  let wfID ← orBadRequest "INVALID_WORKFLOW_ID" (newWorkflowRunID ulid rawID)
  let req ← decodeBody body
  let result ← attemptResult req
  let wf ← serve 500 "REGISTER_ATTEMPT_FAILED" (registerAttempt wfID (withOptional req result))
  return ⟨200, .workflow wf⟩

/-! ### Approvals -/

/-- `handleResolveApproval`. -/
def handleResolveApproval (rawID : String) (body : Option ResolveApprovalRequest) :
    Handler SuccessReply := do
  let approvalID ← orBadRequest "INVALID_APPROVAL_ID" (newApprovalRequestID ulid rawID)
  let req ← decodeBody body
  let resolvedBy ← orBadRequest "INVALID_ACTOR" (newActorID req.resolvedBy)
  let result ← serve 500 "RESOLVE_FAILED"
    (resolveApproval ⟨approvalID, req.approved, resolvedBy, req.reason⟩)
  return ⟨200, .approval result⟩

/-! ### The server -/

/-- The handler of a request. -/
def Request.handler : Request → Handler SuccessReply
  | .submitTask body => handleSubmitTask body
  | .getTask rawID => handleGetTask ulid rawID
  | .routeTask rawID => handleRouteTask ulid rawID
  | .evaluatePolicy rawID body => handleEvaluatePolicy ulid rawID body
  | .startWorkflow rawID => handleStartWorkflow ulid rawID
  | .processTask rawID body => handleProcessTask ulid rawID body
  | .getWorkflowStatus rawID => handleGetWorkflowStatus ulid rawID
  | .killWorkflow rawID body => handleKillWorkflow ulid rawID body
  | .pauseWorkflow rawID body => handlePauseWorkflow ulid rawID body
  | .resumeWorkflow rawID body => handleResumeWorkflow ulid rawID body
  | .registerAttempt rawID body => handleRegisterAttempt ulid rawID body
  | .resolveApproval rawID body => handleResolveApproval ulid rawID body

/-- The server: requests that are handled at the same time, over the ports. -/
def server : System Request Choice Store Op Res ErrorReply SuccessReply where
  exec := exec
  body := Request.handler ulid

end Governance

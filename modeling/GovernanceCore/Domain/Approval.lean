import GovernanceCore.Domain.Shared

/-!
# Approval requests

The aggregate of `internal/domain/approval`. A request is pending until it is resolved once;
`approve`, `deny` and `expire` are the private `resolve` at their own status.
-/

namespace Governance

/-- `ApprovalStatus`. -/
inductive ApprovalStatus where
  | pending | approved | denied | expired
  deriving DecidableEq, Repr

def ApprovalStatus.text : ApprovalStatus → String
  | .pending => "pending"
  | .approved => "approved"
  | .denied => "denied"
  | .expired => "expired"

/-- `ApproverSpec`. -/
structure ApproverSpec where
  role : String
  actorID : Option ActorID := none
  deriving DecidableEq, Repr

/-- `ApprovalResolution`. -/
structure ApprovalResolution where
  resolvedBy : ActorID
  resolvedAt : Timestamp
  reason : String
  status : ApprovalStatus
  deriving DecidableEq, Repr

/-- The `ApprovalRequest` aggregate. -/
structure ApprovalRequest where
  id : ApprovalRequestID
  taskID : TaskID
  workflowRunID : WorkflowRunID
  reason : String
  requiredApprover : ApproverSpec
  status : ApprovalStatus
  resolution : Option ApprovalResolution
  expiresAt : Option Timestamp
  createdAt : Timestamp
  deriving DecidableEq, Repr

def errEmptyApprovalReason : Err := .new "approval reason must not be empty"
def errNotPending : Err := .new "approval request is not in pending status"

/-- `NewApprovalRequest`. -/
def newApprovalRequest (id : ApprovalRequestID) (taskID : TaskID) (workflowRunID : WorkflowRunID)
    (reason : String) (requiredApprover : ApproverSpec) (expiresAt : Option Timestamp)
    (now : Timestamp) : Except Err ApprovalRequest :=
  if isBlank reason then .error errEmptyApprovalReason
  else .ok
    { id, taskID, workflowRunID, reason, requiredApprover, status := .pending, resolution := none,
      expiresAt, createdAt := now }

/-- An accepted request is pending. -/
theorem newApprovalRequest_eq_ok {id : ApprovalRequestID} {taskID : TaskID} {run : WorkflowRunID}
    {reason : String} {approver : ApproverSpec} {expiresAt : Option Timestamp} {now : Timestamp}
    {a : ApprovalRequest}
    (h : newApprovalRequest id taskID run reason approver expiresAt now = .ok a) :
    a = ⟨id, taskID, run, reason, approver, .pending, none, expiresAt, now⟩ := by
  unfold newApprovalRequest at h
  split at h
  · cases h
  · exact (Except.ok.inj h).symm

namespace ApprovalRequest

/-- `resolve`. -/
def resolve (a : ApprovalRequest) (resolvedBy : ActorID) (reason : String)
    (status : ApprovalStatus) (now : Timestamp) : Except Err ApprovalRequest :=
  if a.status ≠ .pending then
    .error (errNotPending.detail ("current status is \"" ++ a.status.text ++ "\""))
  else .ok { a with status, resolution := some ⟨resolvedBy, now, reason, status⟩ }

/-- `Approve`. -/
def approve (a : ApprovalRequest) (resolvedBy : ActorID) (reason : String) (now : Timestamp) :
    Except Err ApprovalRequest :=
  a.resolve resolvedBy reason .approved now

/-- `Deny`. -/
def deny (a : ApprovalRequest) (resolvedBy : ActorID) (reason : String) (now : Timestamp) :
    Except Err ApprovalRequest :=
  a.resolve resolvedBy reason .denied now

/-- `Expire`. -/
def expire (a : ApprovalRequest) (now : Timestamp) : Except Err ApprovalRequest :=
  a.resolve systemActor "expired" .expired now

theorem resolve_eq_ok_iff {a a' : ApprovalRequest} {by' : ActorID} {reason : String}
    {status : ApprovalStatus} {now : Timestamp} :
    a.resolve by' reason status now = .ok a' ↔
      a.status = .pending ∧
        a' = { a with status, resolution := some ⟨by', now, reason, status⟩ } := by
  unfold resolve
  by_cases h : a.status = .pending <;> simp [h, eq_comm]

end ApprovalRequest

end Governance

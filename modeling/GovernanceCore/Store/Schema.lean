import GovernanceCore.Framework.Table
import GovernanceCore.Domain.Workflow
import GovernanceCore.Domain.Execution
import GovernanceCore.Domain.Approval
import GovernanceCore.Domain.Policy
import GovernanceCore.Domain.Routing
import GovernanceCore.Resilience.Breaker

/-!
# The store

The tables of `migrations/postgres` with the unique indexes the services rely on, and what the
services leave outside the database: the notifications they send, the lifecycle metrics they emit
and the circuit breakers.

A row is what a repository reads back after it has written: durations of a lease are whole
milliseconds, and the outcome of a policy decision is a text that is decoded on the way out. Times
are kept as they are, also below the microsecond, at which a column of type `TIMESTAMPTZ` ends.

Foreign keys are not enforced here. A write that one of them refuses fails without an effect, and
every repository call may fail that way (`Store/Ports.lean`).
-/

namespace Governance

open Framework

/-! ### Rows that differ from their aggregate -/

/-- `policyOutcomeFromString`: an unknown text reads as allow. -/
def policyOutcomeFromString : String → PolicyOutcome
  | "allow" => .allow
  | "allow_with_constraints" => .allowWithConstraints
  | "require_approval" => .requireApproval
  | "deny" => .deny
  | _ => .allow

/-- `ruleEvalJSON`. -/
structure RuleEvaluationRow where
  ruleID : String
  passed : Bool
  outcome : Option String
  reason : String
  deriving DecidableEq, Repr

/-- A row of `policy_decisions`. -/
structure PolicyDecisionRow where
  id : PolicyDecisionID
  taskID : TaskID
  evaluatedAction : String
  outcome : String
  constraints : List PolicyConstraint
  approvalRequirement : Option ApprovalRequirement
  rulesEvaluated : List RuleEvaluationRow
  reason : String
  createdAt : Timestamp
  deriving DecidableEq, Repr

/-- One item of `marshalRuleEvaluations`. -/
def RuleEvaluation.toRow (e : RuleEvaluation) : RuleEvaluationRow :=
  ⟨e.ruleID, e.passed, e.outcome.map PolicyOutcome.text, e.reason⟩

/-- One item of `unmarshalRuleEvaluations`. -/
def RuleEvaluationRow.scan (r : RuleEvaluationRow) : RuleEvaluation :=
  ⟨r.ruleID, r.passed, r.outcome.map policyOutcomeFromString, r.reason⟩

/-- The row that `Save` inserts. -/
def PolicyDecision.toRow (d : PolicyDecision) : PolicyDecisionRow :=
  { id := d.id, taskID := d.taskID, evaluatedAction := d.evaluatedAction
    outcome := d.outcome.text, constraints := d.constraints
    approvalRequirement := d.approvalRequirement
    rulesEvaluated := d.rulesEvaluated.map RuleEvaluation.toRow
    reason := d.reason, createdAt := d.createdAt }

/-- `scanPolicyDecision`. -/
def PolicyDecisionRow.scan (r : PolicyDecisionRow) : PolicyDecision :=
  { id := r.id, taskID := r.taskID, evaluatedAction := r.evaluatedAction
    outcome := policyOutcomeFromString r.outcome, constraints := r.constraints
    approvalRequirement := r.approvalRequirement
    rulesEvaluated := r.rulesEvaluated.map RuleEvaluationRow.scan
    reason := r.reason, createdAt := r.createdAt }

/-- A declared outcome is read back as it was written. -/
theorem policyOutcomeFromString_text {o : PolicyOutcome} (h : ∀ c hc, o ≠ .undeclared c hc) :
    policyOutcomeFromString o.text = o := by
  cases o with
  | undeclared c hc => exact absurd rfl (h c hc)
  | _ => rfl

/-- What is read back is a declared outcome. -/
theorem policyOutcomeFromString_declared (text : String) :
    policyOutcomeFromString text = .allow ∨ policyOutcomeFromString text = .allowWithConstraints ∨
      policyOutcomeFromString text = .requireApproval ∨ policyOutcomeFromString text = .deny := by
  unfold policyOutcomeFromString
  split <;> simp

/-- A duration as a column of whole milliseconds gives it back. -/
def Duration.stored (d : Duration) : Duration := Duration.milliseconds d * millisecond

/-- The row that `Save` inserts for a lease. -/
def ExecutionLease.toRow (l : ExecutionLease) : ExecutionLease :=
  { l with timeoutBudget := Duration.stored l.timeoutBudget
           timeElapsed := Duration.stored l.timeElapsed }

/-! ### What an update sets -/

/-- The row after `UPDATE workflow_runs`: every column but the id, the task and the creation. -/
def WorkflowRun.overwrite (w row : WorkflowRun) : WorkflowRun :=
  { w with id := row.id, taskID := row.taskID, createdAt := row.createdAt }

/-- The row after `UPDATE execution_leases`. -/
def ExecutionLease.overwrite (l row : ExecutionLease) : ExecutionLease :=
  { l.toRow with id := row.id, workflowRunID := row.workflowRunID, createdAt := row.createdAt }

/-- The row after `UPDATE approval_requests`: the status and the resolution. -/
def ApprovalRequest.overwrite (a row : ApprovalRequest) : ApprovalRequest :=
  { row with status := a.status, resolution := a.resolution }

/-! ### Outside the database -/

/-- A call of the `GovernanceNotifier`. -/
inductive Notification where
  | executionReady (w : WorkflowRun) (lease : ExecutionLease)
  | approvalRequired (w : WorkflowRun) (req : ApprovalRequest)
  | workflowTerminated (w : WorkflowRun) (reason : String)
  deriving DecidableEq, Repr

/-- The workflow run a notification is about. -/
def Notification.workflowRunID : Notification → WorkflowRunID
  | .executionReady w _ => w.id
  | .approvalRequired w _ => w.id
  | .workflowTerminated w _ => w.id

/-- An emission of `LifecycleMetrics`. A terminal emission names its run, which the instruments of
the source do not record; the durations they record are real time and are left out. -/
inductive LifecycleMetric where
  | terminal (w : WorkflowRunID) (finalStatus : String)
  | failure (stage category : String) (retryable : Bool)
  | approvalWait (resolution : String)
  deriving DecidableEq, Repr

/-- The shared state of all services. -/
structure Store where
  tasks : Table Task.id
  routingDecisions : Table RoutingDecision.id
  policyDecisions : Table PolicyDecisionRow.id
  workflowRuns : Table WorkflowRun.id
  /-- `idx_execution_leases_workflow` is a unique index. -/
  executionLeases : IndexedTable ExecutionLease.id ExecutionLease.workflowRunID
  approvalRequests : Table ApprovalRequest.id
  auditEntries : Table AuditEntry.id
  notifications : List Notification
  /-- What has been emitted; nothing is emitted when the instruments are not configured. -/
  lifecycleMetrics : Option (List LifecycleMetric)
  breakers : Breakers

/-- The store before the first call; `metrics` says whether instruments are configured. -/
def Store.empty (metrics : Bool) : Store where
  tasks := ∅
  routingDecisions := ∅
  policyDecisions := ∅
  workflowRuns := ∅
  executionLeases := ∅
  approvalRequests := ∅
  auditEntries := ∅
  notifications := []
  lifecycleMetrics := if metrics then some [] else none
  breakers := []

/-! ### Updates of stored rows -/

namespace Store

/-- `UPDATE workflow_runs … WHERE id = w.id`. -/
def updateWorkflow (s : Store) (w : WorkflowRun) : Store :=
  { s with workflowRuns := s.workflowRuns.modify w.id w.overwrite fun _ => rfl }

/-- `UPDATE execution_leases … WHERE id = l.id`. -/
def updateLease (s : Store) (l : ExecutionLease) : Store :=
  { s with executionLeases :=
      s.executionLeases.modify l.id l.overwrite (fun _ => rfl) fun _ => rfl }

/-- `UPDATE approval_requests … WHERE id = a.id`. -/
def updateApproval (s : Store) (a : ApprovalRequest) : Store :=
  { s with approvalRequests := s.approvalRequests.modify a.id a.overwrite fun _ => rfl }

variable {s : Store}

theorem mem_updateWorkflow {w v : WorkflowRun} :
    v ∈ (s.updateWorkflow w).workflowRuns ↔
      (∃ row ∈ s.workflowRuns, row.id = w.id ∧ v = w.overwrite row) ∨
        (v ∈ s.workflowRuns ∧ v.id ≠ w.id) :=
  mem_overwrite

theorem mem_updateLease {l m : ExecutionLease} :
    m ∈ (s.updateLease l).executionLeases ↔
      (∃ row ∈ s.executionLeases, row.id = l.id ∧ m = l.overwrite row) ∨
        (m ∈ s.executionLeases ∧ m.id ≠ l.id) :=
  mem_overwrite

theorem mem_updateApproval {a b : ApprovalRequest} :
    b ∈ (s.updateApproval a).approvalRequests ↔
      (∃ row ∈ s.approvalRequests, row.id = a.id ∧ b = a.overwrite row) ∨
        (b ∈ s.approvalRequests ∧ b.id ≠ a.id) :=
  mem_overwrite

end Store

end Governance

import GovernanceCore.Domain.Shared

/-!
# Audit entries

The append-only aggregate of `internal/domain/audit` and the context its builders fill. A context is
a map from keys to values; `set` replaces the value of a key that is already there.
-/

namespace Governance

/-- A value of an `AuditContext`: the kinds the builders store, and any other JSON value that a
context can hold when it is read back. -/
inductive AuditValue where
  | text (s : String)
  | int (n : Int)
  | bool (b : Bool)
  | rat (q : ℚ)
  | other (json : String)
  deriving DecidableEq

/-- `AuditContext`: the entries of the map. -/
abbrev AuditContext := List (String × AuditValue)

namespace AuditContext

/-- `Set`. -/
def set (c : AuditContext) (key : String) (value : AuditValue) : AuditContext :=
  c.filter (fun kv => kv.1 ≠ key) ++ [(key, value)]

/-- `WithTraceInfo`: `span` holds the trace and span ids of a valid span. -/
def withTraceInfo (c : AuditContext) (span : Option (String × String)) : AuditContext :=
  match span with
  | none => c
  | some (traceID, spanID) => (c.set "trace_id" (.text traceID)).set "span_id" (.text spanID)

/-- `WithFailure`. -/
def withFailure (c : AuditContext) (stage code : String) (retryable : Bool) : AuditContext :=
  ((c.set "failure_stage" (.text stage)).set "failure_code" (.text code)).set "retryable"
    (.bool retryable)

/-- `WithToolName`. -/
def withToolName (c : AuditContext) (name : String) : AuditContext := c.set "tool_name" (.text name)

/-- `WithStrategy`. -/
def withStrategy (c : AuditContext) (strategy : String) : AuditContext :=
  c.set "strategy_used" (.text strategy)

/-- `WithAgentRole`. -/
def withAgentRole (c : AuditContext) (role : String) : AuditContext :=
  c.set "agent_role" (.text role)

/-- `WithLeaseState`. -/
def withLeaseState (c : AuditContext) (attemptsUsed retryBudget timeElapsedMs : Int) :
    AuditContext :=
  ((c.set "attempts_used" (.int attemptsUsed)).set "retry_budget" (.int retryBudget)).set
    "time_elapsed_ms" (.int timeElapsedMs)

end AuditContext

/-- The `AuditEntry` aggregate. -/
structure AuditEntry where
  id : AuditEntryID
  taskID : Option TaskID
  workflowRunID : Option WorkflowRunID
  actor : ActorID
  action : String
  outcome : String
  context : AuditContext
  createdAt : Timestamp
  deriving DecidableEq

def errEmptyAuditAction : Err := .new "audit action must not be empty"
def errEmptyAuditOutcome : Err := .new "audit outcome must not be empty"

/-- `NewAuditEntry`. -/
def newAuditEntry (id : AuditEntryID) (actor : ActorID) (action outcome : String)
    (ctx : AuditContext) (now : Timestamp) : Except Err AuditEntry :=
  if isBlank action then .error errEmptyAuditAction
  else if isBlank outcome then .error errEmptyAuditOutcome
  else .ok
    { id, taskID := none, workflowRunID := none, actor, action, outcome, context := ctx,
      createdAt := now }

theorem newAuditEntry_eq_ok_iff {id : AuditEntryID} {actor : ActorID} {action outcome : String}
    {ctx : AuditContext} {now : Timestamp} {e : AuditEntry} :
    newAuditEntry id actor action outcome ctx now = .ok e ↔
      isBlank action = false ∧ isBlank outcome = false ∧
        e = ⟨id, none, none, actor, action, outcome, ctx, now⟩ := by
  unfold newAuditEntry
  by_cases ha : isBlank action
  · simp [ha]
  · by_cases ho : isBlank outcome <;> simp [ha, ho, eq_comm]

end Governance

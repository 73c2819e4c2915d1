import GovernanceCore.Domain.Audit
import GovernanceCore.Domain.Constructors

/-!
# Escalation triggers

The aggregate of `internal/domain/escalation`. A trigger goes from pending to triggered to resolved,
one step at a time and never back. `TriggerEscalation` makes the first step on the copy it creates,
so that no pending trigger is stored; nothing makes the second.
-/

namespace Governance

/-- `EscalationTriggerID`. -/
structure EscalationTriggerID where
  text : String
  deriving DecidableEq, Repr

/-- `EscalationTarget`. -/
inductive EscalationTarget where
  | human | seniorAgent | admin
  deriving DecidableEq, Repr

/-- `NewEscalationTarget`. -/
def newEscalationTarget : String → Except Err EscalationTarget := declared "escalation target"
  [("human", .human), ("senior_agent", .seniorAgent), ("admin", .admin)]

/-- `EscalationStatus`. -/
inductive EscalationStatus where
  | pending | triggered | resolved
  deriving DecidableEq, Repr

def EscalationStatus.text : EscalationStatus → String
  | .pending => "pending"
  | .triggered => "triggered"
  | .resolved => "resolved"

/-- `EscalationCondition`. -/
structure EscalationCondition where
  type : String
  parameters : List (String × AuditValue)
  deriving DecidableEq

/-- The `EscalationTrigger` aggregate. -/
structure EscalationTrigger where
  id : EscalationTriggerID
  taskID : TaskID
  condition : EscalationCondition
  target : EscalationTarget
  status : EscalationStatus
  triggeredAt : Option Timestamp
  createdAt : Timestamp
  deriving DecidableEq

def errEscalationNotPending : Err := .new "escalation trigger is not in pending status"

/-- `NewEscalationTrigger`. -/
def newEscalationTrigger (id : EscalationTriggerID) (taskID : TaskID)
    (condition : EscalationCondition) (target : EscalationTarget) (now : Timestamp) :
    EscalationTrigger :=
  { id, taskID, condition, target, status := .pending, triggeredAt := none, createdAt := now }

namespace EscalationTrigger

/-- `Trigger`. -/
def trigger (e : EscalationTrigger) (now : Timestamp) : Except Err EscalationTrigger :=
  if e.status ≠ .pending then
    .error (errEscalationNotPending.detail ("current status is \"" ++ e.status.text ++ "\""))
  else .ok { e with status := .triggered, triggeredAt := some now }

/-- A trigger as the service stores it: fired when it was created, for a condition that is named. -/
structure Fired (e : EscalationTrigger) : Prop where
  status : e.status = .triggered
  triggeredAt : e.triggeredAt = some e.createdAt
  condition : e.condition.type ≠ ""

end EscalationTrigger

end Governance

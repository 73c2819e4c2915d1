import GovernanceCore.Domain.Shared

/-!
# Tasks

The aggregate of `internal/domain/task`. A task enters with the type, scope and priority its caller
sent: `newTask` checks the title and nothing else.

The intake status of a task is never moved by the modelled services, so of its state machine only
the initial status is here.
-/

namespace Governance

/-- `TaskType`. -/
inductive TaskType where
  | development | review | research | refactor | bugfix | deployment
  | other (text : String)
  deriving DecidableEq, Repr

/-- `TaskScope`. -/
inductive TaskScope where
  | file | module | repo | system
  | other (text : String)
  deriving DecidableEq, Repr

/-- `TaskStatus`. -/
inductive TaskStatus where
  | created | accepted | inProgress | completed | failed | cancelled
  deriving DecidableEq, Repr

/-- A metadata value, as far as a `.(string)` assertion can see into it. -/
inductive MetaValue where
  | string (s : String)
  | nonString (json : String)
  deriving DecidableEq, Repr

/-- `TaskMetadata`: the entries of the map. -/
abbrev TaskMetadata := List (String × MetaValue)

/-- `v, _ := meta[key].(string)`: the empty text when the key is missing or holds no string. -/
def TaskMetadata.stringAt (m : TaskMetadata) (key : String) : String :=
  match m.lookup key with
  | some (.string s) => s
  | _ => ""

/-- The `Task` aggregate. -/
structure Task where
  id : TaskID
  parentTaskID : Option TaskID
  taskType : TaskType
  title : String
  scope : TaskScope
  priority : Priority
  riskLevel : RiskLevel
  status : TaskStatus
  metadata : TaskMetadata
  createdAt : Timestamp
  updatedAt : Timestamp
  deriving DecidableEq, Repr

def errEmptyTitle : Err := .new "task title must not be empty"

/-- `NewTask`: a task in status created; refused when the title is blank. -/
def newTask (id : TaskID) (parentTaskID : Option TaskID) (taskType : TaskType) (title : String)
    (scope : TaskScope) (priority : Priority) (riskLevel : RiskLevel) (metadata : TaskMetadata)
    (now : Timestamp) : Except Err Task :=
  if isBlank title then .error errEmptyTitle
  else .ok
    { id, parentTaskID, taskType, title, scope, priority, riskLevel, status := .created, metadata,
      createdAt := now, updatedAt := now }

end Governance

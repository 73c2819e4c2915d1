import GovernanceCore.Domain.Task
import GovernanceCore.Domain.Execution

/-!
# Checked constructors

The constructors of `internal/domain/shared`, `internal/domain/task` and `internal/domain/execution`
through which texts from outside become values of the domain. What comes out of them is declared
(`Declared`), and an attempt result passes its own `Validate`.

The services take values that were not made by these constructors as well: a caller in the same
process may convert any text. So what follows from them holds for requests that came through an
adapter that uses them.
-/

namespace Governance

open Framework

/-- What a sequence of checks that has succeeded went through. -/
theorem exists_of_bind_eq_ok {ε α β : Type} {x : Except ε α} {f : α → Except ε β} {b : β}
    (h : (x >>= f) = .ok b) : ∃ a, x = .ok a ∧ f a = .ok b := by
  cases x with
  | error e => cases h
  | ok a => exact ⟨a, rfl, h⟩

/-! ### Identifiers -/

def errEmptyID : Err := .new "id must not be empty"
def errInvalidULID : Err := .new "id must be a valid ULID"

/-- What the code uses of the package `ulid`: the texts that `ParseStrict` accepts, of which the
empty text is none. -/
structure UlidPackage where
  parseStrict : String → Bool
  parseStrict_empty : parseStrict "" = false

/-- A package that accepts every other text. -/
instance : Inhabited UlidPackage where
  default := ⟨fun s => s ≠ "", rfl⟩

section Identifiers

variable (ulid : UlidPackage)

/-- `validateULID`. -/
def validateULID (s : String) : Except Err Unit :=
  if s = "" then .error errEmptyID
  else if ulid.parseStrict s then .ok ()
  else .error (errInvalidULID.detail s)

/-- The body that all checked constructors of identifiers have. -/
def checkedID (e : Entity) (s : String) : Except Err (ID e) := do
  validateULID ulid s
  return ⟨s⟩

def newTaskID : String → Except Err TaskID := checkedID ulid .task
def newWorkflowRunID : String → Except Err WorkflowRunID := checkedID ulid .workflowRun
def newApprovalRequestID : String → Except Err ApprovalRequestID := checkedID ulid .approvalRequest

/-- The text of an identifier is that of a ULID. -/
def ID.IsULID {e : Entity} (id : ID e) : Prop := ulid.parseStrict id.text = true

variable {ulid}

theorem checkedID_eq_ok_iff {e : Entity} {s : String} {id : ID e} :
    checkedID ulid e s = .ok id ↔ id.text = s ∧ id.IsULID ulid := by
  unfold checkedID validateULID ID.IsULID
  by_cases hs : s = ""
  · rw [if_pos hs]
    refine iff_of_false nofun fun ⟨htext, hparse⟩ => ?_
    rw [htext, hs, ulid.parseStrict_empty] at hparse
    cases hparse
  · rw [if_neg hs]
    by_cases hparse : ulid.parseStrict s = true
    · rw [if_pos hparse]
      refine ⟨fun h => ?_, fun ⟨htext, _⟩ => htext ▸ rfl⟩
      obtain rfl := Except.ok.inj h
      exact ⟨rfl, hparse⟩
    · rw [if_neg hparse]
      exact iff_of_false nofun fun ⟨htext, h⟩ => hparse (htext ▸ h)

end Identifiers

/-- `NewActorID`, which asks for any text but the empty one. -/
def newActorID (s : String) : Except Err ActorID :=
  if s = "" then .error errEmptyID else .ok ⟨s⟩

theorem newActorID_eq_ok_iff {s : String} {id : ActorID} :
    newActorID s = .ok id ↔ id.text = s ∧ id.text ≠ "" := by
  unfold newActorID
  by_cases hs : s = ""
  · rw [if_pos hs]
    exact iff_of_false nofun fun ⟨htext, hne⟩ => hne (htext.trans hs)
  · rw [if_neg hs]
    refine ⟨fun h => ?_, fun ⟨htext, _⟩ => htext ▸ rfl⟩
    obtain rfl := Except.ok.inj h
    exact ⟨rfl, hs⟩

/-! ### Enumerations -/

/-- The body that all checked constructors of enumerations have: a table of the declared values. -/
def declared {α : Type} (kind : String) (values : List (String × α)) (s : String) : Except Err α :=
  match values.lookup s with
  | some a => .ok a
  | none => .error (.quoted ("invalid " ++ kind ++ ": ") s)

/-- `NewTaskType`. -/
def newTaskType : String → Except Err TaskType := declared "task type"
  [("development", .development), ("review", .review), ("research", .research),
    ("refactor", .refactor), ("bugfix", .bugfix), ("deployment", .deployment)]

/-- `NewTaskScope`. -/
def newTaskScope : String → Except Err TaskScope := declared "task scope"
  [("file", .file), ("module", .module), ("repo", .repo), ("system", .system)]

/-- `NewPriority`. -/
def newPriority : String → Except Err Priority := declared "priority"
  [("low", .low), ("normal", .normal), ("high", .high), ("urgent", .urgent)]

/-- `NewFailureStage`. -/
def newFailureStage : String → Except Err FailureStage := declared "failure stage"
  [("routing", .routing), ("policy", .policy), ("approval", .approval), ("workflow", .workflow),
    ("execution", .execution), ("runtime", .runtime), ("memory_context", .memoryContext),
    ("notification", .notification)]

/-- One of the declared constants. -/
def TaskType.Declared : TaskType → Prop
  | .other _ => False
  | _ => True

def TaskScope.Declared : TaskScope → Prop
  | .other _ => False
  | _ => True

def Priority.Declared : Priority → Prop
  | .other _ => False
  | _ => True

def FailureStage.Declared : FailureStage → Prop
  | .other _ => False
  | _ => True

theorem mem_of_declared {α : Type} {kind s : String} {values : List (String × α)} {a : α}
    (h : declared kind values s = .ok a) : (s, a) ∈ values := by
  unfold declared at h
  cases hs : values.lookup s with
  | none =>
    rw [hs] at h
    cases h
  | some b =>
    rw [hs] at h
    obtain rfl := Except.ok.inj h
    obtain ⟨l₁, l₂, rfl, -⟩ := List.lookup_eq_some_iff.mp hs
    exact List.mem_append_right _ List.mem_cons_self

theorem newTaskType_declared {s : String} {t : TaskType} (h : newTaskType s = .ok t) :
    t.Declared := by
  have hmem := mem_of_declared h
  simp only [List.mem_cons, List.not_mem_nil, Prod.mk.injEq, or_false] at hmem
  rcases hmem with ⟨-, rfl⟩ | ⟨-, rfl⟩ | ⟨-, rfl⟩ | ⟨-, rfl⟩ | ⟨-, rfl⟩ | ⟨-, rfl⟩ <;> trivial

theorem newTaskScope_declared {s : String} {t : TaskScope} (h : newTaskScope s = .ok t) :
    t.Declared := by
  have hmem := mem_of_declared h
  simp only [List.mem_cons, List.not_mem_nil, Prod.mk.injEq, or_false] at hmem
  rcases hmem with ⟨-, rfl⟩ | ⟨-, rfl⟩ | ⟨-, rfl⟩ | ⟨-, rfl⟩ <;> trivial

theorem newPriority_declared {s : String} {t : Priority} (h : newPriority s = .ok t) :
    t.Declared := by
  have hmem := mem_of_declared h
  simp only [List.mem_cons, List.not_mem_nil, Prod.mk.injEq, or_false] at hmem
  rcases hmem with ⟨-, rfl⟩ | ⟨-, rfl⟩ | ⟨-, rfl⟩ | ⟨-, rfl⟩ <;> trivial

/-! ### Attempt results -/

/-- `NewSuccessResult`. -/
def newSuccessResult : AttemptResult := { status := .success }

/-- What `NewFailureResult` and `NewRetryResult` share. -/
def newAttemptResult (status : AttemptStatus) (stage : FailureStage) (code : String)
    (retryable : Bool) : Except Err AttemptResult :=
  if code = "" then .error errEmptyFailureCode
  else .ok
    { status, failureStage := some stage, failureCode := some code, retryable := some retryable }

/-- `NewFailureResult`. -/
def newFailureResult : FailureStage → String → Bool → Except Err AttemptResult :=
  newAttemptResult .failure

/-- `NewRetryResult`: always retryable. -/
def newRetryResult (stage : FailureStage) (code : String) : Except Err AttemptResult :=
  newAttemptResult .retry stage code true

namespace AttemptResult

/-- `WithToolName`. -/
def withToolName (a : AttemptResult) (name : String) : AttemptResult :=
  { a with toolName := some name }

/-- `WithStrategy`. -/
def withStrategy (a : AttemptResult) (s : String) : AttemptResult :=
  { a with strategyUsed := some s }

/-- `WithAgentRole`. -/
def withAgentRole (a : AttemptResult) (role : String) : AttemptResult :=
  { a with agentRole := some role }

end AttemptResult

/-- What the constructors make passes `Validate`. -/
theorem validate_newAttemptResult {status : AttemptStatus} {stage : FailureStage} {code : String}
    {retryable : Bool} {a : AttemptResult} (hs : status = .failure ∨ status = .retry)
    (h : newAttemptResult status stage code retryable = .ok a) : a.validate = .ok () := by
  unfold newAttemptResult at h
  split at h
  · cases h
  · next hcode =>
    obtain rfl := Except.ok.inj h
    have hfields : AttemptResult.validateFailureFields
        { status, failureStage := some stage, failureCode := some code,
          retryable := some retryable } = .ok () := by
      simp [AttemptResult.validateFailureFields, hcode]
    rcases hs with rfl | rfl <;> exact hfields

end Governance

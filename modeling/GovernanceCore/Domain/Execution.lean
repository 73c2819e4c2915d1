import GovernanceCore.Domain.Shared

/-!
# Execution leases and attempt results

The aggregate and the value object of `internal/domain/execution`. A lease counts attempts against
a retry budget: `recordAttempt` counts one on an active lease and exhausts the lease with the last
one, `revoke` ends an active lease early.
-/

namespace Governance

/-! ### Attempt results -/

/-- `AttemptStatus`. -/
inductive AttemptStatus where
  | success | failure | retry
  | other (text : String)
  deriving DecidableEq, Repr

def AttemptStatus.text : AttemptStatus → String
  | .success => "success"
  | .failure => "failure"
  | .retry => "retry"
  | .other t => t

/-- `AttemptResult`. -/
structure AttemptResult where
  status : AttemptStatus
  failureStage : Option FailureStage := none
  failureCode : Option String := none
  retryable : Option Bool := none
  toolName : Option String := none
  strategyUsed : Option String := none
  agentRole : Option String := none
  deriving DecidableEq, Repr

def errFailureFieldsOnSuccess : Err := .new "success result must not have failure fields"
def errMissingFailureStage : Err := .new "failure/retry result must have failure stage"
def errMissingFailureCode : Err := .new "failure/retry result must have failure code"
def errEmptyFailureCode : Err := .new "failure code must not be empty"
def errMissingRetryable : Err := .new "failure/retry result must have retryable flag"

/-- The checks that `Validate` makes on a result with status failure or retry, in its order. -/
def AttemptResult.validateFailureFields (a : AttemptResult) : Except Err Unit :=
  match a.failureStage, a.failureCode, a.retryable with
  | none, _, _ => .error errMissingFailureStage
  | some _, none, _ => .error errMissingFailureCode
  | some _, some code, r =>
    -- an empty code is rejected before a missing flag is noticed
    if code = "" then .error errEmptyFailureCode
    else if r = none then .error errMissingRetryable
    else .ok ()

/-- `AttemptResult.Validate`. -/
def AttemptResult.validate (a : AttemptResult) : Except Err Unit :=
  match a.status with
  | .success =>
    if a.failureStage ≠ none ∨ a.failureCode ≠ none ∨ a.retryable ≠ none then
      .error errFailureFieldsOnSuccess
    else .ok ()
  | .failure => a.validateFailureFields
  | .retry => a.validateFailureFields
  | .other t => .error (.quoted "unknown attempt status: " t)

/-- A valid result has one of the three declared statuses. -/
theorem AttemptResult.status_of_validate {a : AttemptResult} (h : a.validate = .ok ()) :
    a.status = .success ∨ a.status = .failure ∨ a.status = .retry := by
  unfold validate at h
  cases hs : a.status with
  | success => exact Or.inl rfl
  | failure => exact Or.inr (Or.inl rfl)
  | retry => exact Or.inr (Or.inr rfl)
  | other t => rw [hs] at h; cases h

/-! ### Leases -/

/-- `LeaseStatus`. -/
inductive LeaseStatus where
  | active | exhausted | revoked
  deriving DecidableEq, Repr

def LeaseStatus.text : LeaseStatus → String
  | .active => "active"
  | .exhausted => "exhausted"
  | .revoked => "revoked"

/-- `RetryBudget`. -/
structure RetryBudget where
  maxAttempts : Int
  deriving DecidableEq, Repr

def errLeaseNotActive : Err := .new "lease is not active"
def errInvalidTimeoutBudget : Err := .new "timeout budget must be greater than zero"
def errInvalidRetryBudget : Err := .new "retry budget max attempts must be greater than zero"

/-- `NewRetryBudget`. -/
def newRetryBudget (max : Int) : Except Err RetryBudget :=
  if max ≤ 0 then .error (errInvalidRetryBudget.detail ("got " ++ toString max)) else .ok ⟨max⟩

/-- The `ExecutionLease` aggregate. -/
structure ExecutionLease where
  id : ExecutionLeaseID
  workflowRunID : WorkflowRunID
  timeoutBudget : Duration
  retryBudget : RetryBudget
  attemptsUsed : Int
  timeElapsed : Duration
  status : LeaseStatus
  createdAt : Timestamp
  deriving DecidableEq, Repr

/-- `NewExecutionLease`. -/
def newExecutionLease (id : ExecutionLeaseID) (workflowRunID : WorkflowRunID)
    (timeoutBudget : Duration) (retryBudget : RetryBudget) (createdAt : Timestamp) :
    Except Err ExecutionLease :=
  if timeoutBudget ≤ 0 then .error errInvalidTimeoutBudget
  else .ok
    { id, workflowRunID, timeoutBudget, retryBudget, attemptsUsed := 0, timeElapsed := 0,
      status := .active, createdAt }

namespace ExecutionLease

/-- `HasRetryBudget`. -/
def hasRetryBudget (l : ExecutionLease) : Bool :=
  l.status = .active && l.attemptsUsed < l.retryBudget.maxAttempts

/-- The lease after one more attempt: exhausted when the budget is reached. -/
def counted (l : ExecutionLease) : ExecutionLease :=
  { l with
    attemptsUsed := l.attemptsUsed + 1
    status := if l.retryBudget.maxAttempts ≤ l.attemptsUsed + 1 then .exhausted else l.status }

/-- `RecordAttempt`. -/
def recordAttempt (l : ExecutionLease) : Except Err ExecutionLease :=
  if l.status ≠ .active then .error (errLeaseNotActive.detail ("status is " ++ l.status.text))
  else .ok l.counted

/-- `Revoke`. -/
def revoke (l : ExecutionLease) : Except Err ExecutionLease :=
  if l.status ≠ .active then .error (errLeaseNotActive.detail ("status is " ++ l.status.text))
  else .ok { l with status := .revoked }

variable {l l' : ExecutionLease}

theorem recordAttempt_eq_ok_iff :
    l.recordAttempt = .ok l' ↔ l.status = .active ∧ l' = l.counted := by
  unfold recordAttempt
  by_cases h : l.status = .active <;> simp [h, eq_comm]

theorem revoke_eq_ok_iff :
    l.revoke = .ok l' ↔ l.status = .active ∧ l' = { l with status := .revoked } := by
  unfold revoke
  by_cases h : l.status = .active <;> simp [h, eq_comm]

theorem revoke_eq_error (h : l.status ≠ .active) :
    l.revoke = .error (errLeaseNotActive.detail ("status is " ++ l.status.text)) := by
  simp [revoke, h]

/-- An active lease that has counted an attempt has budget left exactly when it is still active. -/
theorem hasRetryBudget_counted (h : l.status = .active) :
    l.counted.hasRetryBudget = decide (l.attemptsUsed + 1 < l.retryBudget.maxAttempts) := by
  unfold hasRetryBudget counted
  by_cases hm : l.retryBudget.maxAttempts ≤ l.attemptsUsed + 1
  · simp [hm]
  · simp [hm, h]

/-- Counting an attempt does not revoke a lease. -/
theorem counted_ne_revoked (h : l.status = .active) : l.counted.status ≠ .revoked := by
  show (if l.retryBudget.maxAttempts ≤ l.attemptsUsed + 1 then .exhausted else l.status)
    ≠ LeaseStatus.revoked
  rw [h]
  split <;> decide

end ExecutionLease

/-- The attempts used are within the budget, and an active lease has some left. -/
structure WithinBudget (l : ExecutionLease) : Prop where
  le : l.attemptsUsed ≤ l.retryBudget.maxAttempts
  lt : l.status = .active → l.attemptsUsed < l.retryBudget.maxAttempts

theorem WithinBudget.counted {l : ExecutionLease} (hl : WithinBudget l) (hs : l.status = .active) :
    WithinBudget l.counted := by
  have hlt := hl.lt hs
  refine ⟨?_, fun hactive => ?_⟩
  · show l.attemptsUsed + 1 ≤ l.retryBudget.maxAttempts
    omega
  · show l.attemptsUsed + 1 < l.retryBudget.maxAttempts
    -- a lease that has reached its budget is exhausted
    refine Int.not_le.mp fun hmax => ?_
    have hexhausted : l.counted.status = .exhausted := if_pos hmax
    rw [hexhausted] at hactive
    cases hactive

/-- `defaultTimeout` of `workflowrun` and of `approvals`. -/
def defaultTimeout : Duration := 5 * minute

/-- `defaultMaxRetries` of `workflowrun` and of `approvals`. -/
def defaultMaxRetries : Int := 3

/-- The lease both services make for a workflow that is about to run. -/
def defaultLease (id : ExecutionLeaseID) (w : WorkflowRunID) (now : Timestamp) : ExecutionLease :=
  { id, workflowRunID := w, timeoutBudget := defaultTimeout,
    retryBudget := ⟨defaultMaxRetries⟩, attemptsUsed := 0, timeElapsed := 0, status := .active,
    createdAt := now }

/-- **Every default passes its own check.** -/
theorem newRetryBudget_default : newRetryBudget defaultMaxRetries = .ok ⟨defaultMaxRetries⟩ := rfl

theorem newExecutionLease_default (id : ExecutionLeaseID) (w : WorkflowRunID) (now : Timestamp) :
    newExecutionLease id w defaultTimeout ⟨defaultMaxRetries⟩ now
      = .ok (defaultLease id w now) := rfl

end Governance

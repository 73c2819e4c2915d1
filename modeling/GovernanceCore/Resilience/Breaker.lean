import GovernanceCore.Domain.Audit

/-!
# Circuit breakers

`internal/application/resilience`: one breaker per pair of tool and agent role, kept in memory. It
is a signal only: no service reads it to refuse an attempt. What reaches the store is the audit
entry that the transition listener writes, without a task and without a workflow run.
-/

namespace Governance

def consecutiveFailuresThreshold : Nat := 3
def ratioFailureThreshold : ℚ := 1 / 2
def ratioWindowSize : Nat := 20
def ratioMinSamples : Nat := 5
def openCooldown : Duration := 60 * second
def halfOpenProbeSuccesses : Nat := 3

/-- `BreakerState`. -/
inductive BreakerState where
  | closed | open | halfOpen
  deriving DecidableEq, Repr

def BreakerState.text : BreakerState → String
  | .closed => "closed"
  | .open => "open"
  | .halfOpen => "half_open"

/-- `TripReason`; `unset` is the empty text of every transition but a trip. -/
inductive TripReason where
  | consecutive | ratio | unset
  deriving DecidableEq, Repr

def TripReason.text : TripReason → String
  | .consecutive => "consecutive"
  | .ratio => "ratio"
  | .unset => ""

/-- `BreakerKey`. -/
structure BreakerKey where
  toolName : String
  agentRole : String
  deriving DecidableEq, Repr

/-- `CircuitBreaker`. -/
structure CircuitBreaker where
  key : BreakerKey
  state : BreakerState
  openedAt : Option Timestamp
  consecutiveFailures : Nat
  consecutiveSuccesses : Nat
  ringBuffer : List Bool
  updatedAt : Timestamp
  deriving DecidableEq, Repr

/-- `StateTransition`. -/
structure StateTransition where
  key : BreakerKey
  source : BreakerState
  target : BreakerState
  tripReason : TripReason
  consecutiveFailures : Nat
  consecutiveSuccesses : Nat
  failureRate : ℚ
  sampleSize : Nat
  timestamp : Timestamp
  deriving DecidableEq

/-- `NewCircuitBreaker`; the instant is overwritten by the observation that creates the breaker. -/
def newCircuitBreaker (key : BreakerKey) (now : Timestamp) : CircuitBreaker :=
  { key, state := .closed, openedAt := none, consecutiveFailures := 0, consecutiveSuccesses := 0,
    ringBuffer := [], updatedAt := now }

namespace CircuitBreaker

/-- `failureRate`. -/
def failureRate (b : CircuitBreaker) : ℚ :=
  if b.ringBuffer.length = 0 then 0
  else (b.ringBuffer.count true : ℚ) / (b.ringBuffer.length : ℚ)

/-- `appendToRingBuffer`. -/
def appendToRingBuffer (b : CircuitBreaker) (isFailure : Bool) : CircuitBreaker :=
  { b with
    ringBuffer :=
      (if ratioWindowSize ≤ b.ringBuffer.length then b.ringBuffer.tail else b.ringBuffer)
        ++ [isFailure] }

/-- `evaluateTrip`. -/
def evaluateTrip (b : CircuitBreaker) : Option TripReason :=
  if consecutiveFailuresThreshold ≤ b.consecutiveFailures then some .consecutive
  else if ratioMinSamples ≤ b.ringBuffer.length ∧ ratioFailureThreshold < b.failureRate then
    some .ratio
  else none

/-- `makeTransition`. -/
def makeTransition (b : CircuitBreaker) (source target : BreakerState) (reason : TripReason)
    (at' : Timestamp) : StateTransition :=
  { key := b.key, source, target, tripReason := reason
    consecutiveFailures := b.consecutiveFailures, consecutiveSuccesses := b.consecutiveSuccesses
    failureRate := b.failureRate, sampleSize := b.ringBuffer.length, timestamp := at' }

/-- The counters of `Observe`, before its switch on the state. -/
def count (b : CircuitBreaker) (success : Bool) : CircuitBreaker :=
  if success then
    { b with
      consecutiveFailures := 0
      consecutiveSuccesses := if b.state = .halfOpen then b.consecutiveSuccesses + 1 else 0 }
  else { b with consecutiveFailures := b.consecutiveFailures + 1, consecutiveSuccesses := 0 }

/-- The breaker opened at `at'`. -/
def opened (b : CircuitBreaker) (at' : Timestamp) : CircuitBreaker :=
  { b with state := .open, openedAt := some at' }

/-- `Observe`. -/
def observe (b₀ : CircuitBreaker) (success : Bool) (at' : Timestamp) :
    CircuitBreaker × Option StateTransition :=
  let b := ({ b₀ with updatedAt := at' }.appendToRingBuffer (!success)).count success
  match b.state with
  | .closed =>
    match b.evaluateTrip with
    | some reason =>
      let b := b.opened at'
      (b, some (b.makeTransition .closed .open reason at'))
    | none => (b, none)
  | .open =>
    match b.openedAt with
    | none => (b, none)
    | some t =>
      if at' - t < openCooldown then (b, none)
      else if success then
        let b := { b with state := .halfOpen, consecutiveSuccesses := 1 }
        -- unreachable while the threshold is above one; the source has the branch
        if halfOpenProbeSuccesses ≤ b.consecutiveSuccesses then
          let b := { b with state := .closed, openedAt := none, consecutiveSuccesses := 0 }
          (b, some (b.makeTransition .open .closed .unset at'))
        else (b, some (b.makeTransition .open .halfOpen .unset at'))
      else
        let b := { b.opened at' with consecutiveSuccesses := 0 }
        (b, some (b.makeTransition .halfOpen .open .unset at'))
  | .halfOpen =>
    if success then
      if halfOpenProbeSuccesses ≤ b.consecutiveSuccesses then
        let b := { b with state := .closed, openedAt := none }
        -- the transition reports the counter before the reset
        ({ b with consecutiveSuccesses := 0 }, some (b.makeTransition .halfOpen .closed .unset at'))
      else (b, none)
    else
      let b := { b.opened at' with consecutiveSuccesses := 0 }
      (b, some (b.makeTransition .halfOpen .open .unset at'))

end CircuitBreaker

/-! ### The registry and its audit listener -/

/-- The breakers of the registry. -/
abbrev Breakers := List CircuitBreaker

/-- `CircuitBreakerRegistry.Observe`, up to the call of the listener. -/
def Breakers.observe (r : Breakers) (tool role : String) (success : Bool) (at' : Timestamp) :
    Breakers × Option StateTransition :=
  if tool = "" ∨ role = "" then (r, none)
  else
    let key : BreakerKey := ⟨tool, role⟩
    let b := (r.find? fun b => b.key = key).getD (newCircuitBreaker key at')
    let (b', transition) := b.observe success at'
    (r.filter (fun b => b.key ≠ key) ++ [b'], transition)

/-- `actionAndOutcome`. -/
def actionAndOutcome (t : StateTransition) : String × String :=
  match t.source, t.target with
  | .closed, .open => ("circuit_breaker_opened", t.tripReason.text)
  | .open, .halfOpen => ("circuit_breaker_half_opened", "cooldown_elapsed")
  | .halfOpen, .closed => ("circuit_breaker_closed", "probes_successful")
  | .halfOpen, .open => ("circuit_breaker_opened", "probe_failed")
  | source, target => ("circuit_breaker_transition", source.text ++ "_to_" ++ target.text)

/-- The context `AuditListener` builds. -/
def listenerContext (t : StateTransition) : AuditContext :=
  let base := AuditContext.set (AuditContext.set (AuditContext.set (AuditContext.set []
    "tool_name" (.text t.key.toolName)) "agent_role" (.text t.key.agentRole))
    "from_state" (.text t.source.text)) "to_state" (.text t.target.text)
  let base := if t.source = .closed ∧ t.target = .open then
      AuditContext.set (AuditContext.set (AuditContext.set (AuditContext.set base
        "consecutive_failures" (.int t.consecutiveFailures)) "failure_rate" (.rat t.failureRate))
        "sample_size" (.int t.sampleSize)) "trip_reason" (.text t.tripReason.text)
    else base
  if t.target = .closed then base.set "consecutive_successes" (.int t.consecutiveSuccesses)
  else base

end Governance

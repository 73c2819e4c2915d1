import GovernanceCore.Domain.Shared

/-!
# Workflow runs

The aggregate of `internal/domain/workflow`: the status machine and its transition log. Every method
goes through the private `transitionTo`, so `transitionTo_eq_ok_iff` is the only fact about the
aggregate that the rest of the development needs.
-/

namespace Governance

/-- `WorkflowStatus`. -/
inductive WorkflowStatus where
  | created | routed | policyChecked | running | awaitingApproval | approved | paused
  | completed | failed | killed | quarantined
  | other (text : String)
  deriving DecidableEq, Repr

namespace WorkflowStatus

def text : WorkflowStatus → String
  | created => "created"
  | routed => "routed"
  | policyChecked => "policy_checked"
  | running => "running"
  | awaitingApproval => "awaiting_approval"
  | approved => "approved"
  | paused => "paused"
  | completed => "completed"
  | failed => "failed"
  | killed => "killed"
  | quarantined => "quarantined"
  | other t => t

/-- `IsTerminal`, the table `terminalStates`. -/
def isTerminal : WorkflowStatus → Bool
  | completed | failed | killed | quarantined => true
  | _ => false

/-- `transitionTable`, without the special rule for kill. -/
def transitionTable : WorkflowStatus → WorkflowStatus → Bool
  | created, routed => true
  | routed, policyChecked => true
  | policyChecked, running => true
  | policyChecked, awaitingApproval => true
  | policyChecked, failed => true
  | awaitingApproval, approved => true
  | awaitingApproval, failed => true
  | approved, running => true
  | running, completed => true
  | running, failed => true
  | running, paused => true
  | running, killed => true
  | running, quarantined => true
  | paused, running => true
  | paused, killed => true
  | _, _ => false

/-- `IsValidTransition`: a kill is valid from every status that is not terminal. -/
def isValidTransition (source target : WorkflowStatus) : Bool :=
  if target = killed ∧ ¬ source.isTerminal then true else transitionTable source target

/-- The column of `transitionTable` under a status other than `killed`, which has a rule of its
own. -/
def sources : WorkflowStatus → List WorkflowStatus
  | routed => [created]
  | policyChecked => [routed]
  | awaitingApproval => [policyChecked]
  | approved => [awaitingApproval]
  | running => [policyChecked, approved, paused]
  | paused | completed | quarantined => [running]
  | failed => [policyChecked, awaitingApproval, running]
  | created | killed | other _ => []

/-- The statuses from which a transition other than a kill is valid. -/
theorem mem_sources {source target : WorkflowStatus} (hk : target ≠ killed)
    (hv : source.isValidTransition target = true) : source ∈ target.sources := by
  rw [isValidTransition, if_neg fun h => hk h.1] at hv
  cases target <;> cases source <;> simp [transitionTable, sources] at hk hv ⊢

end WorkflowStatus

/-- `WorkflowTransition`. -/
structure WorkflowTransition where
  source : WorkflowStatus
  target : WorkflowStatus
  reason : String
  actor : ActorID
  timestamp : Timestamp
  deriving DecidableEq, Repr

/-- The `WorkflowRun` aggregate. -/
structure WorkflowRun where
  id : WorkflowRunID
  taskID : TaskID
  status : WorkflowStatus
  routingDecisionID : Option RoutingDecisionID
  policyDecisionID : Option PolicyDecisionID
  currentStepIndex : Int
  transitions : List WorkflowTransition
  createdAt : Timestamp
  updatedAt : Timestamp
  deriving DecidableEq, Repr

/-- `NewWorkflowRun`. -/
def newWorkflowRun (id : WorkflowRunID) (taskID : TaskID) (now : Timestamp) : WorkflowRun :=
  { id, taskID, status := .created, routingDecisionID := none, policyDecisionID := none,
    currentStepIndex := 0, transitions := [], createdAt := now, updatedAt := now }

def errInvalidTransition : Err := .new "invalid status transition"

def errTerminalState : Err := .new "cannot transition from terminal state"

namespace WorkflowRun

/-- The run after it has moved to `target`. -/
def moved (w : WorkflowRun) (target : WorkflowStatus) (reason : String) (actor : ActorID)
    (now : Timestamp) : WorkflowRun :=
  { w with
    transitions := w.transitions ++ [⟨w.status, target, reason, actor, now⟩]
    status := target
    updatedAt := now }

@[simp] theorem moved_id (w : WorkflowRun) (target : WorkflowStatus) (reason : String)
    (actor : ActorID) (now : Timestamp) : (w.moved target reason actor now).id = w.id := rfl

@[simp] theorem moved_status (w : WorkflowRun) (target : WorkflowStatus) (reason : String)
    (actor : ActorID) (now : Timestamp) : (w.moved target reason actor now).status = target := rfl

/-- `transitionTo`. -/
def transitionTo (w : WorkflowRun) (target : WorkflowStatus) (reason : String) (actor : ActorID)
    (now : Timestamp) : Except Err WorkflowRun :=
  if w.status.isTerminal then
    .error (errTerminalState.detail ("cannot transition from " ++ w.status.text))
  else if ¬ w.status.isValidTransition target then
    .error (errInvalidTransition.detail (w.status.text ++ " → " ++ target.text))
  else .ok (w.moved target reason actor now)

/-- `MarkRouted`. -/
def markRouted (w : WorkflowRun) (rdID : RoutingDecisionID) (reason : String) (actor : ActorID)
    (now : Timestamp) : Except Err WorkflowRun :=
  (w.transitionTo .routed reason actor now).map fun w' => { w' with routingDecisionID := some rdID }

/-- `MarkPolicyChecked`. -/
def markPolicyChecked (w : WorkflowRun) (pdID : PolicyDecisionID) (actor : ActorID)
    (now : Timestamp) : Except Err WorkflowRun :=
  (w.transitionTo .policyChecked "" actor now).map fun w' =>
    { w' with policyDecisionID := some pdID }

/-- `Kill`. -/
def kill (w : WorkflowRun) (reason : String) (actor : ActorID) (now : Timestamp) :
    Except Err WorkflowRun :=
  if w.status.isTerminal then
    .error (errTerminalState.detail ("cannot kill from " ++ w.status.text))
  else w.transitionTo .killed reason actor now

/-- `Pause`. -/
def pause (w : WorkflowRun) := w.transitionTo .paused

/-- `Resume`. -/
def resume (w : WorkflowRun) := w.transitionTo .running

/-- `Complete`. -/
def complete (w : WorkflowRun) := w.transitionTo .completed

/-- `Fail`. -/
def fail (w : WorkflowRun) := w.transitionTo .failed

/-- `Quarantine`. -/
def quarantine (w : WorkflowRun) := w.transitionTo .quarantined

/-! ### What a successful method does -/

variable {w w' : WorkflowRun} {target : WorkflowStatus} {reason : String} {actor : ActorID}
  {now : Timestamp}

theorem transitionTo_eq_ok_iff :
    w.transitionTo target reason actor now = .ok w' ↔
      w.status.isTerminal = false ∧ w.status.isValidTransition target = true ∧
        w' = w.moved target reason actor now := by
  unfold transitionTo
  split
  · next h => simp [h]
  · next h =>
    split
    · next hv => simp_all
    · next hv =>
      rw [Except.ok.injEq]
      refine ⟨?_, ?_⟩
      · rintro rfl
        exact ⟨by simpa using h, by simpa using hv, rfl⟩
      · rintro ⟨-, -, rfl⟩
        rfl

theorem markRouted_eq_ok_iff {rdID : RoutingDecisionID} :
    w.markRouted rdID reason actor now = .ok w' ↔
      w.status = .created ∧
        w' = { w.moved .routed reason actor now with routingDecisionID := some rdID } := by
  -- the table has one way into `routed`, so the status is all that is asked
  unfold markRouted transitionTo
  cases hs : w.status <;>
    simp [WorkflowStatus.isTerminal, WorkflowStatus.isValidTransition,
      WorkflowStatus.transitionTable, Except.map, eq_comm]

theorem markPolicyChecked_eq_ok_iff {pdID : PolicyDecisionID} :
    w.markPolicyChecked pdID actor now = .ok w' ↔
      w.status = .routed ∧
        w' = { w.moved .policyChecked "" actor now with policyDecisionID := some pdID } := by
  unfold markPolicyChecked transitionTo
  cases hs : w.status <;>
    simp [WorkflowStatus.isTerminal, WorkflowStatus.isValidTransition,
      WorkflowStatus.transitionTable, Except.map, eq_comm]

theorem kill_eq_ok_iff :
    w.kill reason actor now = .ok w' ↔
      w.status.isTerminal = false ∧ w' = w.moved .killed reason actor now := by
  unfold kill
  split
  · next h => simp [h]
  · next h =>
    -- the special rule for kill makes the second check redundant
    have hv : w.status.isValidTransition .killed = true := by
      simp [WorkflowStatus.isValidTransition, h]
    rw [transitionTo_eq_ok_iff]
    simp [hv]

end WorkflowRun

end Governance

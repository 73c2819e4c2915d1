import GovernanceCore.Store.Ports

/-!
# Use cases

A use case is a program over the outbound ports. This module gives the ports their types under the
names the services use, and the two ways in which a service goes on or returns an error.
-/

namespace Governance

open Framework

/-- A program over the outbound ports that ends with an error value of the source. -/
abbrev UseCase (α : Type) := Program Op Res Err α

/-! ### The ports -/

namespace IDGen

abbrev newTaskID : UseCase TaskID := .act (.newID .task) .ret
abbrev newWorkflowRunID : UseCase WorkflowRunID := .act (.newID .workflowRun) .ret
abbrev newRoutingDecisionID : UseCase RoutingDecisionID := .act (.newID .routingDecision) .ret
abbrev newPolicyDecisionID : UseCase PolicyDecisionID := .act (.newID .policyDecision) .ret
abbrev newApprovalRequestID : UseCase ApprovalRequestID := .act (.newID .approvalRequest) .ret
abbrev newExecutionLeaseID : UseCase ExecutionLeaseID := .act (.newID .executionLease) .ret

end IDGen

abbrev Clock.now : UseCase Timestamp := .act .now .ret

abbrev Memory.getRelevantContext (taskID : TaskID) (query : String) :
    UseCase (Option MemoryContext) :=
  .act (.getRelevantContext taskID query) .ret

abbrev StatsStore.get : UseCase (Option FailureStats) := .act .failureStats .ret

namespace TaskRepo

abbrev save (t : Task) : UseCase (Except RepoError Unit) := .act (.taskSave t) .ret
abbrev findByID (id : TaskID) : UseCase (Except RepoError Task) := .act (.taskFindByID id) .ret

end TaskRepo

namespace RoutingRepo

abbrev save (d : RoutingDecision) : UseCase (Except RepoError Unit) := .act (.routingSave d) .ret
abbrev findByTaskID (id : TaskID) : UseCase (Except RepoError RoutingDecision) :=
  .act (.routingFindByTaskID id) .ret

end RoutingRepo

namespace PolicyRepo

abbrev save (d : PolicyDecision) : UseCase (Except RepoError Unit) := .act (.policySave d) .ret
abbrev findByTaskID (id : TaskID) : UseCase (Except RepoError PolicyDecision) :=
  .act (.policyFindByTaskID id) .ret

end PolicyRepo

namespace WfRepo

abbrev save (w : WorkflowRun) : UseCase (Except RepoError Unit) := .act (.workflowSave w) .ret
abbrev findByID (id : WorkflowRunID) : UseCase (Except RepoError WorkflowRun) :=
  .act (.workflowFindByID id) .ret
abbrev findByTaskID (id : TaskID) : UseCase (Except RepoError WorkflowRun) :=
  .act (.workflowFindByTaskID id) .ret
abbrev update (w : WorkflowRun) : UseCase (Except RepoError Unit) := .act (.workflowUpdate w) .ret

end WfRepo

namespace LeaseRepo

abbrev save (l : ExecutionLease) : UseCase (Except RepoError Unit) := .act (.leaseSave l) .ret
abbrev findByWorkflowRunID (id : WorkflowRunID) : UseCase (Except RepoError ExecutionLease) :=
  .act (.leaseFindByWorkflowRunID id) .ret
abbrev update (l : ExecutionLease) : UseCase (Except RepoError Unit) := .act (.leaseUpdate l) .ret

end LeaseRepo

namespace ApprovalRepo

abbrev save (a : ApprovalRequest) : UseCase (Except RepoError Unit) := .act (.approvalSave a) .ret
abbrev findByID (id : ApprovalRequestID) : UseCase (Except RepoError ApprovalRequest) :=
  .act (.approvalFindByID id) .ret
abbrev update (a : ApprovalRequest) : UseCase (Except RepoError Unit) :=
  .act (.approvalUpdate a) .ret

end ApprovalRepo

abbrev Audit.record (actor : ActorID) (action outcome : String) (ctx : AuditContext)
    (taskID : Option TaskID) (wfID : Option WorkflowRunID) : UseCase (Except RepoError Unit) :=
  .act (.auditRecord actor action outcome ctx taskID wfID) .ret

namespace Notifier

abbrev onExecutionReady (w : WorkflowRun) (l : ExecutionLease) : UseCase Unit :=
  .act (.notify (.executionReady w l)) .ret
abbrev onApprovalRequired (w : WorkflowRun) (a : ApprovalRequest) : UseCase Unit :=
  .act (.notify (.approvalRequired w a)) .ret
abbrev onWorkflowTerminated (w : WorkflowRun) (reason : String) : UseCase Unit :=
  .act (.notify (.workflowTerminated w reason)) .ret

end Notifier

namespace LifecycleMetrics

abbrev emitTerminal (w : WorkflowRun) (finalStatus : String) : UseCase Unit :=
  .act (.emit (.terminal w.id finalStatus)) .ret
abbrev emitFailure (stage category : String) (retryable : Bool) : UseCase Unit :=
  .act (.emit (.failure stage category retryable)) .ret
abbrev emitApprovalWait (resolution : String) : UseCase Unit :=
  .act (.emit (.approvalWait resolution)) .ret

end LifecycleMetrics

/-- `CircuitBreakerRegistry.Observe` with its audit listener, which runs after the registry's lock
is released and drops the error of the recorder. -/
def BreakerRegistry.observe (tool role : String) (success : Bool) (at' : Timestamp) :
    UseCase Unit :=
  .act (.breakerObserve tool role success at') fun
    | none => .ret ()
    | some t => do
      let (action, outcome) := actionAndOutcome t
      let _ ← Audit.record systemActor action outcome (listenerContext t) none none
      return ()

/-! ### Going on or returning an error -/

/-- Go on with the answer of a repository, or return its error under `msg`. -/
def orFail {α : Type} (msg : String) : Except RepoError α → UseCase α
  | .ok a => .ret a
  | .error e => .fail (.context msg e.err)

/-- Go on with the value of a domain method, or return its error under `msg`. -/
def orWrap {α : Type} (msg : String) : Except Err α → UseCase α
  | .ok a => .ret a
  | .error e => .fail (.context msg e)

/-- Go on with the answer of a repository, or return `cause` with the repository's error as its
reason: `fmt.Errorf("%w: %v", cause, err)`. -/
def orCause {α : Type} (cause : Err) : Except RepoError α → UseCase α
  | .ok a => .ret a
  | .error e => .fail (cause.because e.err)

/-- A use case whose error is returned under `msg`. -/
def wrapError {α : Type} (msg : String) : UseCase α → UseCase α
  | .ret a => .ret a
  | .fail e => .fail (.context msg e)
  | .act o k => .act o fun r => wrapError msg (k r)

/-! ### Their weakest preconditions, over any state -/

section Rules

variable {α β State : Type} {step : State → (o : Op) → Res o → State → Prop} {s : State}
  {Q : Except Err β → State → Prop} {f : α → UseCase β}

theorem wp_orFail {msg : String} {r : Except RepoError α} (hfail : ∀ e, Q (.error e) s)
    (h : ∀ a, r = .ok a → (f a).wp step Q s) : (orFail msg r >>= f).wp step Q s := by
  cases r with
  | ok a => exact h a rfl
  | error e => exact hfail _

theorem wp_orCause {cause : Err} {r : Except RepoError α} (hfail : ∀ e, Q (.error e) s)
    (h : ∀ a, r = .ok a → (f a).wp step Q s) : (orCause cause r >>= f).wp step Q s := by
  cases r with
  | ok a => exact h a rfl
  | error e => exact hfail _

theorem wp_orWrap {msg : String} {r : Except Err α} (hfail : ∀ e, Q (.error e) s)
    (h : ∀ a, r = .ok a → (f a).wp step Q s) : (orWrap msg r >>= f).wp step Q s := by
  cases r with
  | ok a => exact h a rfl
  | error e => exact hfail _

/-- A domain method that accepts its arguments. -/
theorem wp_orWrap_of_eq_ok {msg : String} {r : Except Err α} {a : α} (hr : r = .ok a)
    (h : (f a).wp step Q s) : (orWrap msg r >>= f).wp step Q s := by
  rw [hr]
  exact h

/-- The text of an error does not matter to a postcondition that does not look at it. -/
theorem wp_wrapError {msg : String} {p : UseCase β}
    (hQ : ∀ e e' s', Q (.error e) s' → Q (.error e') s') (hp : p.wp step Q s) :
    (wrapError msg p).wp step Q s := by
  induction p generalizing s with
  | ret a => exact hp
  | fail e => exact hQ e _ s hp
  | act o k ih => exact fun r s₁ hr => ih r (hp r s₁ hr)

end Rules

end Governance

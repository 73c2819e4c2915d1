import GovernanceCore.Services.Governance

/-!
# Which call performs which operation

Two kinds of operation are reserved. An audit entry `attempt_registered` is recorded by
`RegisterAttempt` only, for a result that it has validated; and a workflow run is inserted by
`RouteTask` only, new and for its own task. `Call.body_footprint` says so of all nine calls,
whatever the repositories answer.

Seven of the calls work on what is there: they insert no task, no routing decision and no run
(`Call.body_followsUp`).
-/

namespace Governance

open Framework

/-- What the call `c` may perform. -/
def Footprint (c : Call) : Op → Prop
  | .auditRecord _ action outcome ctx _ _ => action = "attempt_registered" →
      ∃ id result lease, c = .registerAttempt id result ∧ result.validate = .ok () ∧
        outcome = result.status.text ∧ ctx = attemptContext lease result
  | .workflowSave w => ∃ taskID id now, c = .routeTask taskID ∧ w = newWorkflowRun id taskID now
  | _ => True

/-- The operations that insert a task, a routing decision or a workflow run. -/
def Op.establishes : Op → Bool
  | .taskSave _ | .routingSave _ | .workflowSave _ => true
  | _ => false

/-- What the call `c` may perform when it neither submits nor routes a task. -/
def FollowsUp (c : Call) (o : Op) : Prop := Footprint c o ∧ o.establishes = false

/-! ### The rules -/

namespace Only

variable {α β : Type} {P : Op → Prop}

theorem op {o : Op} {f : Res o → UseCase β} (ho : P o) (h : ∀ r, (f r).Only P) :
    (Program.act o .ret >>= f).Only P := ⟨ho, h⟩

theorem orFail {msg : String} {r : Except RepoError α} {f : α → UseCase β}
    (h : ∀ a, (f a).Only P) : (Governance.orFail msg r >>= f).Only P := by
  cases r with
  | ok a => exact h a
  | error e => trivial

theorem orCause {cause : Err} {r : Except RepoError α} {f : α → UseCase β}
    (h : ∀ a, (f a).Only P) : (Governance.orCause cause r >>= f).Only P := by
  cases r with
  | ok a => exact h a
  | error e => trivial

theorem orWrap {msg : String} {r : Except Err α} {f : α → UseCase β}
    (h : ∀ a, r = .ok a → (f a).Only P) : (Governance.orWrap msg r >>= f).Only P := by
  cases r with
  | ok a => exact h a rfl
  | error e => trivial

theorem wrap (msg : String) (r : Except Err α) : (Governance.orWrap msg r).Only P := by
  cases r <;> trivial

theorem wrapError {msg : String} {p : UseCase α} (hp : p.Only P) :
    (Governance.wrapError msg p).Only P := by
  induction p with
  | ret a => trivial
  | fail e => trivial
  | act o k ih => exact ⟨hp.1, fun r => ih r (hp.2 r)⟩

end Only

variable {c : Call}

/-- An entry for another action needs no permission. -/
theorem footprint_audit {actor : ActorID} {action outcome : String} {ctx : AuditContext}
    {taskID : Option TaskID} {wfID : Option WorkflowRunID} (h : action ≠ "attempt_registered") :
    Footprint c (.auditRecord actor action outcome ctx taskID wfID) :=
  fun heq => absurd heq h

theorem followsUp_audit {actor : ActorID} {action outcome : String} {ctx : AuditContext}
    {taskID : Option TaskID} {wfID : Option WorkflowRunID} (h : action ≠ "attempt_registered") :
    FollowsUp c (.auditRecord actor action outcome ctx taskID wfID) :=
  ⟨footprint_audit h, rfl⟩

/-! ### The calls -/

theorem submitTask_only (input : SubmitTaskInput) :
    (submitTask input).Only (Footprint c) := by
  refine Only.op trivial fun id => ?_
  refine Only.op trivial fun now => ?_
  refine Only.op trivial fun memCtx => ?_
  refine Only.orWrap fun t _ => ?_
  refine Only.op trivial fun r => ?_
  refine Only.orFail fun _ => ?_
  refine Only.op (footprint_audit (by decide)) fun r => ?_
  exact Only.orFail fun _ => trivial

theorem createSubtasks_only (parent : Task) (now : Timestamp) (suffixes : List String) :
    (createSubtasks parent now suffixes).Only (Footprint c) := by
  induction suffixes with
  | nil => trivial
  | cons suffix rest ih =>
    refine Only.op trivial fun id => ?_
    refine Only.orWrap fun sub _ => ?_
    refine Only.op trivial fun r => ?_
    refine Only.orFail fun _ => ?_
    refine Only.op (footprint_audit (by decide)) fun r => ?_
    exact Only.orFail fun _ => ih

theorem loadOrCreateWorkflow_only (taskID : TaskID) (now : Timestamp) :
    (loadOrCreateWorkflow taskID now).Only (Footprint (.routeTask taskID)) := by
  refine Only.op trivial fun r => ?_
  cases r with
  | ok w => trivial
  | error e =>
    refine Only.op trivial fun id => ?_
    -- the one insertion of a run
    refine Only.op ⟨taskID, id, now, rfl, rfl⟩ fun r => ?_
    exact Only.orFail fun _ => trivial

theorem routeTask_only (taskID : TaskID) :
    (routeTask taskID).Only (Footprint (.routeTask taskID)) := by
  refine Only.op trivial fun r => ?_
  refine Only.orFail fun t => ?_
  refine Only.op trivial fun memCtx => ?_
  refine Only.op trivial fun stats => ?_
  refine Only.op trivial fun now => ?_
  refine Only.op trivial fun rdID => ?_
  refine Only.orWrap fun rd _ => ?_
  refine Only.op trivial fun r => ?_
  refine Only.orFail fun _ => ?_
  refine Program.Only.bind (fun w => ?_) (loadOrCreateWorkflow_only taskID now)
  refine Only.orWrap fun w' _ => ?_
  refine Only.op trivial fun r => ?_
  refine Only.orFail fun _ => ?_
  refine Only.op (footprint_audit (by decide)) fun r => ?_
  refine Only.orFail fun _ => ?_
  dsimp only
  split
  · refine Program.Only.bind (fun _ => ?_) (Only.wrapError (createSubtasks_only t now _))
    trivial
  · trivial

theorem evaluatePolicy_only (taskID : TaskID) (action : String) :
    (evaluatePolicy taskID action).Only (FollowsUp c) := by
  refine Only.op ⟨trivial, rfl⟩ fun r => ?_
  refine Only.orFail fun t => ?_
  refine Only.op ⟨trivial, rfl⟩ fun r => ?_
  refine Only.orFail fun d => ?_
  refine Only.op ⟨trivial, rfl⟩ fun now => ?_
  refine Only.op ⟨trivial, rfl⟩ fun pdID => ?_
  refine Only.orWrap fun pd _ => ?_
  refine Only.op ⟨trivial, rfl⟩ fun r => ?_
  refine Only.orFail fun _ => ?_
  refine Only.op ⟨trivial, rfl⟩ fun r => ?_
  refine Only.orFail fun w => ?_
  refine Only.orWrap fun w' _ => ?_
  refine Only.op ⟨trivial, rfl⟩ fun r => ?_
  refine Only.orFail fun _ => ?_
  refine Only.op (followsUp_audit (by decide)) fun r => ?_
  exact Only.orFail fun _ => trivial

theorem startWorkflow_only (taskID : TaskID) : (startWorkflow taskID).Only (FollowsUp c) := by
  refine Only.op ⟨trivial, rfl⟩ fun r => ?_
  refine Only.orFail fun t => ?_
  refine Only.op ⟨trivial, rfl⟩ fun r => ?_
  refine Only.orCause fun d => ?_
  refine Only.op ⟨trivial, rfl⟩ fun r => ?_
  refine Only.orCause fun pd => ?_
  refine Only.op ⟨trivial, rfl⟩ fun r => ?_
  refine Only.orCause fun w => ?_
  refine Only.op ⟨trivial, rfl⟩ fun now => ?_
  have hrunning : (startRunning t.id w now).Only (FollowsUp c) := by
    refine Only.orWrap fun w' _ => ?_
    refine Only.op ⟨trivial, rfl⟩ fun id => ?_
    refine Only.op ⟨trivial, rfl⟩ fun r => ?_
    refine Only.orFail fun _ => ?_
    refine Only.op ⟨trivial, rfl⟩ fun r => ?_
    refine Only.orFail fun _ => ?_
    refine Only.op (followsUp_audit (by decide)) fun r => ?_
    exact ⟨⟨trivial, rfl⟩, fun _ => trivial⟩
  unfold startAs
  cases pd.outcome with
  | deny =>
    refine Only.orWrap fun w' _ => ?_
    refine Only.op ⟨trivial, rfl⟩ fun r => ?_
    refine Only.orFail fun _ => ?_
    refine Only.op (followsUp_audit (by decide)) fun r => ?_
    refine Only.op ⟨trivial, rfl⟩ fun _ => ?_
    exact ⟨⟨trivial, rfl⟩, fun _ => trivial⟩
  | requireApproval =>
    refine Only.orWrap fun w' _ => ?_
    refine Only.op ⟨trivial, rfl⟩ fun id => ?_
    refine Only.orWrap fun req _ => ?_
    refine Only.op ⟨trivial, rfl⟩ fun r => ?_
    refine Only.orFail fun _ => ?_
    refine Only.op ⟨trivial, rfl⟩ fun r => ?_
    refine Only.orFail fun _ => ?_
    refine Only.op (followsUp_audit (by decide)) fun r => ?_
    exact ⟨⟨trivial, rfl⟩, fun _ => trivial⟩
  | allow => exact hrunning
  | allowWithConstraints => exact hrunning
  | undeclared code h => trivial

theorem observe_only (tool role : String) (success : Bool) (at' : Timestamp) :
    (BreakerRegistry.observe tool role success at').Only (FollowsUp c) := by
  refine Only.op ⟨trivial, rfl⟩ fun r => ?_
  cases r with
  | none => trivial
  | some t =>
    -- the listener names the transition of the breaker
    have haction : (actionAndOutcome t).1 ≠ "attempt_registered" := by
      unfold actionAndOutcome
      split <;> simp
    exact Only.op (followsUp_audit haction) fun _ => trivial

theorem attemptTransition_only (w : WorkflowRun) (l : ExecutionLease) (status : AttemptStatus)
    (now : Timestamp) : (attemptTransition w l status now).Only (FollowsUp c) := by
  unfold attemptTransition
  cases status with
  | success => exact Only.wrap _ _
  | failure =>
    dsimp only
    split
    · trivial
    · exact Only.wrap _ _
  | retry => trivial
  | other t => trivial

theorem registerAttempt_only (id : WorkflowRunID) (result : AttemptResult) :
    (registerAttempt id result).Only (FollowsUp (.registerAttempt id result)) := by
  refine Only.op ⟨trivial, rfl⟩ fun r => ?_
  refine Only.orFail fun w => ?_
  dsimp only
  split
  · trivial
  refine Only.orWrap fun _ hvalid => ?_
  refine Only.op ⟨trivial, rfl⟩ fun r => ?_
  refine Only.orFail fun l => ?_
  refine Only.orWrap fun l' _ => ?_
  refine Only.op ⟨trivial, rfl⟩ fun now => ?_
  refine Program.Only.bind (fun w' => ?_) (attemptTransition_only w l' result.status now)
  refine Only.op ⟨trivial, rfl⟩ fun r => ?_
  refine Only.orFail fun _ => ?_
  refine Only.op ⟨trivial, rfl⟩ fun r => ?_
  refine Only.orFail fun _ => ?_
  -- the one entry for an attempt
  refine Only.op ⟨fun _ => ⟨id, result, l', rfl, hvalid, rfl, rfl⟩, rfl⟩ fun r => ?_
  refine Program.Only.bind (fun _ => ?_) ?_
  · refine Program.Only.bind (fun _ => ?_) ?_
    · refine Program.Only.bind (fun _ => ?_) ?_
      · refine Program.Only.bind (fun _ => ?_) ?_
        · trivial
        · unfold observeBreaker
          split
          · exact observe_only _ _ _ _
          · trivial
      · unfold reportFailure
        split
        · exact ⟨⟨trivial, rfl⟩, fun _ => trivial⟩
        · trivial
    · unfold announceTermination
      split
      · exact ⟨⟨trivial, rfl⟩, fun _ => ⟨⟨trivial, rfl⟩, fun _ => trivial⟩⟩
      · trivial
  · unfold recordQuarantine
    split
    · exact Only.op (followsUp_audit (by decide)) fun _ => trivial
    · trivial

theorem pauseWorkflow_only (id : WorkflowRunID) (reason : String) (actor : ActorID) :
    (pauseWorkflow id reason actor).Only (FollowsUp c) := by
  refine Only.op ⟨trivial, rfl⟩ fun r => ?_
  refine Only.orFail fun w => ?_
  refine Only.op ⟨trivial, rfl⟩ fun now => ?_
  refine Only.orWrap fun w' _ => ?_
  refine Only.op ⟨trivial, rfl⟩ fun r => ?_
  refine Only.orFail fun _ => ?_
  exact Only.op (followsUp_audit (by decide)) fun _ => trivial

theorem resumeWorkflow_only (id : WorkflowRunID) (reason : String) (actor : ActorID) :
    (resumeWorkflow id reason actor).Only (FollowsUp c) := by
  refine Only.op ⟨trivial, rfl⟩ fun r => ?_
  refine Only.orFail fun w => ?_
  refine Only.op ⟨trivial, rfl⟩ fun r => ?_
  refine Only.orFail fun l => ?_
  split
  · refine Only.op ⟨trivial, rfl⟩ fun now => ?_
    refine Only.orWrap fun w' _ => ?_
    refine Only.op ⟨trivial, rfl⟩ fun r => ?_
    refine Only.orFail fun _ => ?_
    refine Only.op (followsUp_audit (by decide)) fun _ => ?_
    exact ⟨⟨trivial, rfl⟩, fun _ => trivial⟩
  · trivial

theorem revokeLease_only (id : WorkflowRunID) : (revokeLease id).Only (FollowsUp c) := by
  refine Only.op ⟨trivial, rfl⟩ fun r => ?_
  cases r with
  | error e => trivial
  | ok l =>
    dsimp only
    cases l.revoke with
    | error e => trivial
    | ok l' => exact ⟨⟨trivial, rfl⟩, fun _ => trivial⟩

theorem killWorkflow_only (id : WorkflowRunID) (reason : String) (actor : ActorID) :
    (killWorkflow id reason actor).Only (FollowsUp c) := by
  refine Only.op ⟨trivial, rfl⟩ fun r => ?_
  refine Only.orFail fun w => ?_
  refine Only.op ⟨trivial, rfl⟩ fun now => ?_
  refine Only.orWrap fun w' _ => ?_
  refine Program.Only.bind (fun _ => ?_) (revokeLease_only id)
  refine Only.op ⟨trivial, rfl⟩ fun r => ?_
  refine Only.orFail fun _ => ?_
  refine Only.op (followsUp_audit (by decide)) fun _ => ?_
  refine Only.op ⟨trivial, rfl⟩ fun _ => ?_
  exact ⟨⟨trivial, rfl⟩, fun _ => trivial⟩

theorem moveResolved_only (w : WorkflowRun) (input : ResolveApprovalInput) (now : Timestamp) :
    (moveResolved w input now).Only (FollowsUp c) := by
  unfold moveResolved
  split
  · refine Only.orWrap fun w₁ _ => ?_
    refine Only.orWrap fun w₂ _ => ?_
    refine Only.op ⟨trivial, rfl⟩ fun id => ?_
    refine Only.op ⟨trivial, rfl⟩ fun r => ?_
    refine Only.orFail fun _ => ?_
    refine Only.op ⟨trivial, rfl⟩ fun r => ?_
    refine Only.orFail fun _ => ?_
    exact ⟨⟨trivial, rfl⟩, fun _ => trivial⟩
  · refine Only.orWrap fun w₁ _ => ?_
    refine Only.op ⟨trivial, rfl⟩ fun r => ?_
    refine Only.orFail fun _ => ?_
    exact ⟨⟨trivial, rfl⟩, fun _ => trivial⟩

theorem resolveApproval_only (input : ResolveApprovalInput) :
    (resolveApproval input).Only (FollowsUp c) := by
  refine Only.op ⟨trivial, rfl⟩ fun r => ?_
  refine Only.orFail fun a => ?_
  refine Only.op ⟨trivial, rfl⟩ fun now => ?_
  refine Program.Only.bind (fun a' => ?_) ?_
  · refine Only.op ⟨trivial, rfl⟩ fun r => ?_
    refine Only.orFail fun _ => ?_
    refine Only.op ⟨trivial, rfl⟩ fun r => ?_
    refine Only.orFail fun w => ?_
    refine Program.Only.bind (fun _ => ?_) (moveResolved_only w input now)
    refine Only.op (followsUp_audit (by decide)) fun _ => ?_
    refine Program.Only.bind (fun _ => ?_) ?_
    · trivial
    unfold reportResolution
    split
    · exact ⟨⟨trivial, rfl⟩, fun _ => trivial⟩
    · exact ⟨⟨trivial, rfl⟩, fun _ => ⟨⟨trivial, rfl⟩, fun _ => trivial⟩⟩
  · unfold resolveRequest
    split
    · exact Only.wrap _ _
    · exact Only.wrap _ _

/-- The reply is built without a further operation. -/
theorem Only.reply {α : Type} {P : Op → Prop} {p : UseCase α} {f : α → Reply} (hp : p.Only P) :
    (p >>= fun a => Program.ret (f a) : UseCase Reply).Only P := by
  refine Program.Only.bind (fun _ => ?_) hp
  trivial

/-- **Seven calls insert no task, no routing decision and no run.** -/
theorem Call.body_followsUp (c : Call) (hsubmit : ∀ input, c ≠ .submitTask input)
    (hroute : ∀ taskID, c ≠ .routeTask taskID) : c.body.Only (FollowsUp c) := by
  cases c with
  | submitTask input => exact absurd rfl (hsubmit input)
  | routeTask taskID => exact absurd rfl (hroute taskID)
  | evaluatePolicy taskID action => exact Only.reply (evaluatePolicy_only taskID action)
  | startWorkflow taskID => exact Only.reply (startWorkflow_only taskID)
  | resolveApproval input => exact Only.reply (resolveApproval_only input)
  | registerAttempt id result => exact Only.reply (registerAttempt_only id result)
  | pauseWorkflow id reason actor => exact Only.reply (pauseWorkflow_only id reason actor)
  | resumeWorkflow id reason actor => exact Only.reply (resumeWorkflow_only id reason actor)
  | killWorkflow id reason actor => exact Only.reply (killWorkflow_only id reason actor)

/-- **Every call keeps to its footprint.** -/
theorem Call.body_footprint (c : Call) : c.body.Only (Footprint c) := by
  have hother : (∀ input, c ≠ .submitTask input) → (∀ taskID, c ≠ .routeTask taskID) →
      c.body.Only (Footprint c) := fun hsubmit hroute =>
    (c.body_followsUp hsubmit hroute).mono fun _ ho => ho.1
  cases c with
  | submitTask input => exact Only.reply (submitTask_only input)
  | routeTask taskID => exact Only.reply (routeTask_only taskID)
  | _ => exact hother (fun _ h => by cases h) fun _ h => by cases h

end Governance

import GovernanceCore.Http.Handlers
import GovernanceCore.Services.Footprint
import GovernanceCore.Concurrency.Contract

/-!
# What is behind the HTTP server

* `server_refines_governance`: the requests of the server, interleaved in any way, do to the store
  what calls of the governance service do whose arguments are well formed.
* `server_tasks_admitted`: so no task is stored that the constructors would refuse.
* `reply_tells_what_happened`: the status of a reply tells whether the request reached a service.
-/

namespace Governance

open Framework

variable {ulid : UlidPackage}

/-! ### Refinement -/

/-- What the handlers make sure of before they call a service. -/
def Call.WellFormed : Call → Prop
  | .submitTask input => input.type.Declared ∧ input.scope.Declared ∧ input.priority.Declared
  | .evaluatePolicy _ action => action ≠ ""
  | .resolveApproval input => input.resolvedBy.text ≠ ""
  | .registerAttempt _ result => result.validate = .ok ()
  | .pauseWorkflow _ _ actor => actor.text ≠ ""
  | .resumeWorkflow _ _ actor => actor.text ≠ ""
  | .killWorkflow _ _ actor => actor.text ≠ ""
  | _ => True

theorem wrapError_eq_handle {α : Type} (msg : String) (p : UseCase α) :
    wrapError msg p = p.handle fun
      | .ok a => .ret a
      | .error e => .fail (.context msg e) := by
  induction p with
  | ret a => rfl
  | fail e => rfl
  | act o k ih => exact congrArg (Program.act o) (funext ih)

/-- A program made of well-formed calls of the governance service. -/
abbrev MadeOfCalls {ε α : Type} (p : Program Op Res ε α) : Prop :=
  p.MadeOf governance Call.WellFormed

namespace MadeOfCalls

variable {α β : Type} {f : α → Handler β}

theorem decodeBody {body : Option α} (hf : ∀ a, body = some a → MadeOfCalls (f a)) :
    MadeOfCalls (Governance.decodeBody body >>= f) := by
  cases body with
  | none => exact .fail _
  | some a => exact hf a rfl

theorem orBadRequest {code : String} {x : Except Err α}
    (hf : ∀ a, x = .ok a → MadeOfCalls (f a)) :
    MadeOfCalls (Governance.orBadRequest code x >>= f) := by
  cases x with
  | error e => exact .fail _
  | ok a => exact hf a rfl

theorem require {present : Bool} {code message : String} {f : Unit → Handler β}
    (hf : present = true → MadeOfCalls (f ())) :
    MadeOfCalls (Governance.require present code message >>= f) := by
  cases present with
  | false => exact .fail _
  | true => exact hf rfl

theorem serve {status : Nat} {code : String} {service : UseCase α} (hservice : MadeOfCalls service)
    (hf : ∀ a, MadeOfCalls (f a)) :
    MadeOfCalls (Governance.serve status code service >>= f) := by
  refine Program.MadeOf.bind (hservice.handle fun res => ?_) hf
  cases res with
  | ok a => exact .ret a
  | error e => exact .fail _

theorem wrapError {msg : String} {p : UseCase α} (hp : MadeOfCalls p) :
    MadeOfCalls (Governance.wrapError msg p) := by
  rw [wrapError_eq_handle]
  refine hp.handle fun res => ?_
  cases res with
  | ok a => exact .ret a
  | error e => exact .fail _

end MadeOfCalls

/-! ### The services -/

theorem submitTask_made {input : SubmitTaskInput} (h : (Call.submitTask input).WellFormed) :
    MadeOfCalls (submitTask input) :=
  .of_body h rfl

theorem routeTask_made (taskID : TaskID) : MadeOfCalls (routeTask taskID) :=
  .of_body (c := .routeTask taskID) trivial rfl

theorem evaluatePolicy_made (taskID : TaskID) {action : String} (h : action ≠ "") :
    MadeOfCalls (evaluatePolicy taskID action) :=
  .of_body (c := .evaluatePolicy taskID action) h rfl

theorem startWorkflow_made (taskID : TaskID) : MadeOfCalls (startWorkflow taskID) :=
  .of_body (c := .startWorkflow taskID) trivial rfl

/-- The coordinator makes its four calls one after the other. -/
theorem processTask_made {input : SubmitTaskInput} {action : String}
    (hinput : (Call.submitTask input).WellFormed) (haction : action ≠ "") :
    MadeOfCalls (processTask input action) := by
  refine .bind (MadeOfCalls.wrapError (submitTask_made hinput)) fun t => ?_
  refine .bind (MadeOfCalls.wrapError (routeTask_made t.id)) fun rd => ?_
  refine .bind (MadeOfCalls.wrapError (evaluatePolicy_made t.id haction)) fun pd => ?_
  exact .bind (MadeOfCalls.wrapError (startWorkflow_made t.id)) fun wf => .ret _

theorem query_snd {α : Type} (ch : Choice) (s : Store) (what : String) (found : Option α) :
    (query ch s what found).2 = s :=
  (query_eq rfl).1

theorem getTask_made (taskID : TaskID) : MadeOfCalls (getTask taskID) := by
  refine .read (o := Op.taskFindByID taskID) (fun ch s => query_snd ch s _ _) fun r => ?_
  cases r with
  | ok t => exact .ret t
  | error e => exact .fail _

theorem getWorkflowStatus_made (id : WorkflowRunID) : MadeOfCalls (getWorkflowStatus id) := by
  refine .read (o := Op.workflowFindByID id) (fun ch s => query_snd ch s _ _) fun r => ?_
  cases r with
  | ok w => exact .ret w
  | error e => exact .fail _

/-! ### The handlers -/

theorem checkedInput_made {β : Type} {req : SubmitTaskRequest} {f : SubmitTaskInput → Handler β}
    (hf : ∀ input, (Call.submitTask input).WellFormed → MadeOfCalls (f input)) :
    MadeOfCalls (checkedInput req >>= f) := by
  unfold checkedInput
  rw [Program.bind_assoc]
  refine MadeOfCalls.orBadRequest fun taskType htype => ?_
  rw [Program.bind_assoc]
  refine MadeOfCalls.orBadRequest fun scope hscope => ?_
  rw [Program.bind_assoc]
  refine MadeOfCalls.orBadRequest fun priority hpriority => hf _ ?_
  exact ⟨newTaskType_declared htype, newTaskScope_declared hscope, newPriority_declared hpriority⟩

theorem failureResult_made {β : Type} {req : RegisterAttemptRequest}
    {build : FailureStage → String → Bool → Except Err AttemptResult}
    {f : AttemptResult → Handler β}
    (hbuild : ∀ stage code retryable a, build stage code retryable = .ok a → a.validate = .ok ())
    (hf : ∀ a, a.validate = .ok () → MadeOfCalls (f a)) :
    MadeOfCalls (failureResult req build >>= f) := by
  unfold failureResult
  cases req.failureStage with
  | none => exact .fail _
  | some rawStage =>
    dsimp only
    rw [Program.bind_assoc]
    refine MadeOfCalls.orBadRequest fun stage _ => ?_
    cases req.failureCode with
    | none => exact .fail _
    | some code =>
      dsimp only
      rw [Program.bind_assoc]
      refine MadeOfCalls.require fun _ => ?_
      cases req.retryable with
      | none => exact .fail _
      | some retryable => exact MadeOfCalls.orBadRequest fun a ha => hf a (hbuild _ _ _ a ha)

/-- Whatever result a request describes, the service gets one that passes its check. -/
theorem attemptResult_made {β : Type} {req : RegisterAttemptRequest} {f : AttemptResult → Handler β}
    (hf : ∀ a, a.validate = .ok () → MadeOfCalls (f a)) :
    MadeOfCalls (attemptResult req >>= f) := by
  unfold attemptResult
  split
  · exact hf _ rfl
  split
  · exact failureResult_made (fun _ _ _ _ ha => validate_newAttemptResult (Or.inl rfl) ha) hf
  split
  · exact failureResult_made (fun _ _ _ _ ha => validate_newAttemptResult (Or.inr rfl) ha) hf
  · exact .fail _

theorem validate_withOptional (req : RegisterAttemptRequest) (a : AttemptResult) :
    (withOptional req a).validate = a.validate := by
  unfold withOptional
  cases req.toolName <;> cases req.strategyUsed <;> cases req.agentRole <;> rfl

theorem handleAction_made {action : WorkflowRunID → String → ActorID → UseCase Unit}
    {code done : String}
    (haction : ∀ id reason (actor : ActorID), actor.text ≠ "" →
      MadeOfCalls (action id reason actor))
    (rawID : String) (body : Option WorkflowActionRequest) :
    MadeOfCalls (handleAction ulid action code done rawID body) := by
  refine MadeOfCalls.orBadRequest fun wfID _ => MadeOfCalls.decodeBody fun req _ => ?_
  refine MadeOfCalls.orBadRequest fun actor hactor => ?_
  exact MadeOfCalls.serve (haction _ _ _ (newActorID_eq_ok_iff.mp hactor).2) fun _ => .ret _

/-- Every handler calls services with well-formed arguments. -/
theorem Request.handler_made (req : Request) : MadeOfCalls (req.handler ulid) := by
  cases req with
  | submitTask body =>
    refine MadeOfCalls.decodeBody fun req _ => checkedInput_made fun input hinput => ?_
    exact MadeOfCalls.serve (submitTask_made hinput) fun _ => .ret _
  | getTask rawID =>
    refine MadeOfCalls.orBadRequest fun taskID _ => ?_
    exact MadeOfCalls.serve (getTask_made taskID) fun _ => .ret _
  | routeTask rawID =>
    refine MadeOfCalls.orBadRequest fun taskID _ => ?_
    exact MadeOfCalls.serve (routeTask_made taskID) fun _ => .ret _
  | evaluatePolicy rawID body =>
    refine MadeOfCalls.orBadRequest fun taskID _ => MadeOfCalls.decodeBody fun req _ => ?_
    refine MadeOfCalls.require fun haction => ?_
    exact MadeOfCalls.serve (evaluatePolicy_made taskID (of_decide_eq_true haction)) fun _ => .ret _
  | startWorkflow rawID =>
    refine MadeOfCalls.orBadRequest fun taskID _ => ?_
    exact MadeOfCalls.serve (startWorkflow_made taskID) fun _ => .ret _
  | processTask rawID body =>
    refine MadeOfCalls.orBadRequest fun taskID _ => MadeOfCalls.decodeBody fun req _ => ?_
    refine checkedInput_made fun input hinput => MadeOfCalls.require fun haction => ?_
    exact MadeOfCalls.serve (processTask_made hinput (of_decide_eq_true haction)) fun _ => .ret _
  | getWorkflowStatus rawID =>
    refine MadeOfCalls.orBadRequest fun wfID _ => ?_
    exact MadeOfCalls.serve (getWorkflowStatus_made wfID) fun _ => .ret _
  | killWorkflow rawID body =>
    exact handleAction_made (fun id reason actor h =>
      .of_body (c := Call.killWorkflow id reason actor) h rfl) rawID body
  | pauseWorkflow rawID body =>
    exact handleAction_made (fun id reason actor h =>
      .of_body (c := Call.pauseWorkflow id reason actor) h rfl) rawID body
  | resumeWorkflow rawID body =>
    exact handleAction_made (fun id reason actor h =>
      .of_body (c := Call.resumeWorkflow id reason actor) h rfl) rawID body
  | registerAttempt rawID body =>
    refine MadeOfCalls.orBadRequest fun wfID _ => MadeOfCalls.decodeBody fun req _ => ?_
    refine attemptResult_made fun result hresult => ?_
    refine MadeOfCalls.serve (.of_body (c := Call.registerAttempt wfID (withOptional req result)) ?_
      rfl) fun _ => .ret _
    exact (validate_withOptional req result).trans hresult
  | resolveApproval rawID body =>
    refine MadeOfCalls.orBadRequest fun id _ => MadeOfCalls.decodeBody fun req _ => ?_
    refine MadeOfCalls.orBadRequest fun by' hby => ?_
    exact MadeOfCalls.serve (.of_body
      (c := Call.resolveApproval ⟨id, req.approved, by', req.reason⟩)
      (newActorID_eq_ok_iff.mp hby).2 rfl) fun _ => .ret _

/-- The requests of the server are calls with well-formed arguments. -/
theorem reachable_wellFormed {s₀ s : Store} (hs : (server ulid).Reachable s₀ s) :
    (governance.restrict Call.WellFormed).Reachable s₀ s :=
  System.Reachable.of_madeOf (T := server ulid) (S := governance) rfl Request.handler_made hs

/-- **The server refines the service.** A store that the server reaches, with any requests handled
at the same time, is one that calls of the governance service reach whose arguments are well formed:
declared types, scopes and priorities, an action, an actor, and an attempt result that passes
`Validate`. The requests that run the whole pipeline are four calls there. -/
theorem server_refines_governance {s₀ s : Store} (hs : (server ulid).Reachable s₀ s) :
    (governance.restrict Call.WellFormed).Reachable s₀ s ∧ governance.Reachable s₀ s :=
  ⟨reachable_wellFormed hs, (reachable_wellFormed hs).of_restrict⟩

/-- A request that runs the pipeline for a fix in one file. -/
def processFix : Request :=
  .processTask "01ARZ3NDEKTSV4RRFFQ69G5FAV" (some ⟨"bugfix", "fix", "file", "normal", [], "edit"⟩)

/-- The pipeline of one request, left alone. -/
def processSchedule : List (System.Action Request Choice) :=
  .spawn processFix :: (List.range 34).map fun j => .advance 0 (scheduleChoice 'a' j)

theorem exists_processed : ∃ s, (server default).Reachable (Store.empty true) s ∧
    s.statuses = [.running] := by
  have hrun : ((server default).play (fun _ _ _ _ _ => true) (Pool.start (Store.empty true))
      processSchedule).map (fun p => p.store.statuses) = some [.running] := by decide +kernel
  obtain ⟨p, hp, hstatuses⟩ := Option.map_eq_some_iff.mp hrun
  exact ⟨p.store, ⟨p, System.play_reach (fun _ _ _ _ _ _ => trivial) hp, rfl⟩, hstatuses⟩

theorem server_refines_governance_processed : ∃ s,
    (server default).Reachable (Store.empty true) s ∧ s.statuses = [.running] ∧
      governance.Reachable (Store.empty true) s := by
  obtain ⟨s, hs, hstatuses⟩ := exists_processed
  exact ⟨s, hs, hstatuses, (server_refines_governance hs).2⟩

/-! ### The tasks behind the server -/

/-- What a stored task is like when all tasks came through the server. -/
structure Task.Admitted (t : Task) : Prop where
  type : t.taskType.Declared
  scope : t.scope.Declared
  priority : t.priority.Declared
  risk : t.riskLevel = .low ∨ t.riskLevel = .medium ∨ t.riskLevel = .high ∨ t.riskLevel = .critical
  title : isBlank t.title = false
  status : t.status = .created

/-- Tasks that are read are admitted; tasks that are inserted must be. -/
def admission : Contract Op Res where
  answers
    | .taskFindByID _, .ok t => t.Admitted
    | _, _ => True
  permits _
    | .taskSave t => t.Admitted
    | _ => True

theorem classifyRisk_declared (taskType : TaskType) (scope : TaskScope) :
    classifyRisk taskType scope = .low ∨ classifyRisk taskType scope = .medium ∨
      classifyRisk taskType scope = .high ∨ classifyRisk taskType scope = .critical := by
  unfold classifyRisk
  split_ifs <;> simp

theorem newTask_inv {id : TaskID} {parent : Option TaskID} {taskType : TaskType} {title : String}
    {scope : TaskScope} {priority : Priority} {risk : RiskLevel} {metadata : TaskMetadata}
    {now : Timestamp} {t : Task}
    (h : newTask id parent taskType title scope priority risk metadata now = .ok t) :
    isBlank title = false ∧
      t = ⟨id, parent, taskType, title, scope, priority, risk, .created, metadata, now, now⟩ := by
  unfold newTask at h
  split at h
  · cases h
  · next hblank => exact ⟨eq_false_of_ne_true hblank, (Except.ok.inj h).symm⟩

theorem childScope_declared (scope : TaskScope) : (childScope scope).Declared := by
  cases scope <;> trivial

/-- From the history `h` on, the program inserts admitted tasks only. -/
abbrev Admits {α : Type} (p : UseCase α) (h : History) : Prop :=
  p.Follows admission (fun _ _ => True) h

theorem Admits.of_followsUp {α : Type} {c : Call} {p : UseCase α} (hp : p.Only (FollowsUp c))
    (h : History) : Admits p h := by
  refine hp.follows (fun h o ho => ?_) h
  cases o with
  | taskSave t => exact absurd ho.2 Bool.noConfusion
  | _ => trivial

theorem submitTask_admits {input : SubmitTaskInput} (hinput : (Call.submitTask input).WellFormed) :
    Admits (submitTask input) [] := by
  obtain ⟨htype, hscope, hpriority⟩ := hinput
  refine ⟨trivial, fun id _ => ⟨trivial, fun now _ => ⟨trivial, fun _ _ => ?_⟩⟩⟩
  refine follows_orWrap (fun _ => trivial) fun t ht => ?_
  obtain ⟨htitle, rfl⟩ := newTask_inv ht
  refine ⟨⟨htype, hscope, hpriority, classifyRisk_declared _ _, htitle, rfl⟩, fun r _ => ?_⟩
  refine follows_orFail (fun _ => trivial) fun _ _ => ⟨trivial, fun r _ => ?_⟩
  exact follows_orFail (fun _ => trivial) fun _ _ => trivial

/-- Subtasks take after their parent. -/
theorem createSubtasks_admits {parent : Task} (hparent : parent.Admitted) (now : Timestamp)
    (suffixes : List String) : ∀ h, Admits (createSubtasks parent now suffixes) h := by
  induction suffixes with
  | nil => exact fun _ => trivial
  | cons suffix rest ih =>
    intro h
    refine ⟨trivial, fun id _ => follows_orWrap (fun _ => trivial) fun sub hsub => ?_⟩
    obtain ⟨htitle, rfl⟩ := newTask_inv hsub
    refine ⟨⟨hparent.type, childScope_declared _, hparent.priority, hparent.risk, htitle, rfl⟩,
      fun r _ => ?_⟩
    refine follows_orFail (fun _ => trivial) fun _ _ => ⟨trivial, fun r _ => ?_⟩
    exact follows_orFail (fun _ => trivial) fun _ _ => ih _

theorem wrapError_admits {α : Type} {msg : String} {p : UseCase α} :
    ∀ {h : History}, Admits p h → Admits (wrapError msg p) h := by
  induction p with
  | ret a => exact fun _ => trivial
  | fail e => exact fun _ => trivial
  | act o k ih => exact fun hp => ⟨hp.1, fun r hr => ih r (hp.2 r hr)⟩

theorem Admits.bind {α β : Type} {p : UseCase α} {f : α → UseCase β} {h : History}
    (hp : Admits p h) (hf : ∀ a h', Admits (f a) h') : Admits (p >>= f) h := by
  refine Program.Follows.bind (hp.mono fun res h' _ => ?_)
  cases res with
  | ok a => exact hf a h'
  | error e => trivial

theorem loadOrCreateWorkflow_admits (taskID : TaskID) (now : Timestamp) (h : History) :
    Admits (loadOrCreateWorkflow taskID now) h := by
  refine ⟨trivial, fun r _ => ?_⟩
  cases r with
  | ok w => trivial
  | error e =>
    refine ⟨trivial, fun id _ => ⟨trivial, fun r _ => ?_⟩⟩
    exact follows_orFail (fun _ => trivial) fun _ _ => trivial

theorem routeTask_admits (taskID : TaskID) : Admits (routeTask taskID) [] := by
  refine ⟨trivial, fun r hr => follows_orFail (fun _ => trivial) fun t ht => ?_⟩
  -- the task was read from the store, so it is admitted
  subst ht
  have hparent : t.Admitted := hr
  refine ⟨trivial, fun _ _ => ⟨trivial, fun _ _ => ⟨trivial, fun now _ => ⟨trivial, ?_⟩⟩⟩⟩
  refine fun rdID _ => follows_orWrap (fun _ => trivial) fun rd _ => ⟨trivial, fun r _ => ?_⟩
  refine follows_orFail (fun _ => trivial) fun _ _ => ?_
  refine Admits.bind (loadOrCreateWorkflow_admits taskID now _) fun w h' => ?_
  refine follows_orWrap (fun _ => trivial) fun w' _ => ⟨trivial, fun r _ => ?_⟩
  refine follows_orFail (fun _ => trivial) fun _ _ => ⟨trivial, fun r _ => ?_⟩
  refine follows_orFail (fun _ => trivial) fun _ _ => ?_
  dsimp only
  split
  · refine Admits.bind (wrapError_admits (createSubtasks_admits hparent now _ _)) fun _ _ => ?_
    trivial
  · trivial

theorem Call.WellFormed.admits {c : Call} (hc : c.WellFormed) : Admits c.body [] := by
  have hother : (∀ input, c ≠ .submitTask input) → (∀ taskID, c ≠ .routeTask taskID) →
      Admits c.body [] := fun hsubmit hroute =>
    .of_followsUp (c.body_followsUp hsubmit hroute) []
  cases c with
  | submitTask input => exact (submitTask_admits hc).bind fun _ _ => trivial
  | routeTask taskID => exact (routeTask_admits taskID).bind fun _ _ => trivial
  | _ => exact hother (fun _ h => by cases h) fun _ h => by cases h

/-- All stored tasks are admitted. -/
def AllAdmitted (s : Store) : Prop := ∀ t ∈ s.tasks, t.Admitted

/-- One operation within the contract. -/
theorem AllAdmitted.step {s s' : Store} {o : Op} {ch : Choice} {r : Res o} {h : History}
    (hs : AllAdmitted s) (ho : admission.permits h o) (hex : exec ch s o = (r, s')) :
    admission.answers o r ∧ AllAdmitted s' := by
  constructor
  · cases o with
    | taskFindByID id =>
      cases r with
      | error e => trivial
      | ok t => exact hs t (Table.find_eq_some_iff.mp ((query_eq hex).2 t rfl)).1
    | _ => trivial
  · cases exec_effect hex with
    | taskSave hT =>
      intro t ht
      rcases (Table.mem_insert hT).mp ht with ht | rfl
      · exact hs t ht
      · exact ho
    | _ => exact hs

/-- **Tasks behind the server are admitted.** Whatever requests the server handles at the same time,
every stored task, the subtasks that routing has created included, has a declared type, scope,
priority and risk level, a title that is not blank, and the status created. -/
theorem server_tasks_admitted {m : Bool} {s : Store}
    (hs : (server ulid).Reachable (Store.empty m) s) :
    ∀ t ∈ s.tasks, t.Admitted := by
  refine System.Reachable.of_follows (C := admission) (I := AllAdmitted) ?_ ?_ ?_
    (reachable_wellFormed hs)
  · exact fun c => c.2.admits
  · exact fun t ht => absurd ht (Table.notMem_empty t)
  · exact fun h s o ch r s' hs ho hex => hs.step ho hex

theorem server_tasks_admitted_processed : ∃ s, (server default).Reachable (Store.empty true) s ∧
    s.statuses = [.running] ∧ ∀ t ∈ s.tasks, t.Admitted := by
  obtain ⟨s, hs, hstatuses⟩ := exists_processed
  exact ⟨s, hs, hstatuses, server_tasks_admitted hs⟩

/-! ### Replies -/

/-- The requests that only read. -/
def Request.isGet : Request → Bool
  | .getTask _ | .getWorkflowStatus _ => true
  | _ => false

/-- What the status of a reply tells about the request, given what it has performed. -/
def StatusTells (req : Request) : Except ErrorReply SuccessReply → History → Prop
  | .ok reply, _ => reply.status = 200 ∨ reply.status = 201
  | .error reply, log =>
    -- refused by a check, before the first operation
    (reply.status = 400 ∧ log = []) ∨
    -- a read by identifier that has found nothing, or has failed
    (reply.status = 404 ∧ req.isGet = true ∧ log.length = 1) ∨
    -- the error of a service
    (reply.status = 500 ∧ req.isGet = false)

section Replies

variable {α β : Type} {req : Request} {f : α → Handler SuccessReply}

/-- From the history `h` on, the handler ends with a reply that tells what has happened. -/
abbrev Tells (req : Request) (p : Handler SuccessReply) (h : History) : Prop :=
  p.Follows ⟨fun _ _ => True, fun _ _ => True⟩ (StatusTells req) h

/-- An error of the caller is told as one, before anything has been performed. -/
theorem tells_callerError {code : String} {e : Err} : Tells req (.fail ⟨400, code, e⟩) [] :=
  Or.inl ⟨rfl, rfl⟩

theorem tells_decodeBody {body : Option α} (hf : ∀ a, Tells req (f a) []) :
    Tells req (decodeBody body >>= f) [] := by
  cases body with
  | none => exact tells_callerError
  | some a => exact hf a

theorem tells_orBadRequest {code : String} {x : Except Err α} (hf : ∀ a, Tells req (f a) []) :
    Tells req (orBadRequest code x >>= f) [] := by
  cases x with
  | error e => exact tells_callerError
  | ok a => exact hf a

theorem tells_require {present : Bool} {code message : String} {f : Unit → Handler SuccessReply}
    (hf : Tells req (f ()) []) : Tells req (require present code message >>= f) [] := by
  cases present with
  | false => exact tells_callerError
  | true => exact hf

theorem tells_checkedInput {body : SubmitTaskRequest} {f : SubmitTaskInput → Handler SuccessReply}
    (hf : ∀ a, Tells req (f a) []) : Tells req (checkedInput body >>= f) [] := by
  unfold checkedInput
  rw [Program.bind_assoc]
  refine tells_orBadRequest fun _ => ?_
  rw [Program.bind_assoc]
  refine tells_orBadRequest fun _ => ?_
  rw [Program.bind_assoc]
  exact tells_orBadRequest fun _ => hf _

/-- A service may perform anything; only its error is written. -/
theorem tells_serve {code : String} {service : UseCase α} {h : History}
    (hreq : req.isGet = false) (hf : ∀ a h, Tells req (f a) h) :
    Tells req (serve 500 code service >>= f) h := by
  induction service generalizing h with
  | ret a => exact hf a h
  | fail e => exact Or.inr (Or.inr ⟨rfl, hreq⟩)
  | act o k ih => exact ⟨trivial, fun r _ => ih r⟩

theorem tells_failureResult {body : RegisterAttemptRequest}
    {build : FailureStage → String → Bool → Except Err AttemptResult}
    {f : AttemptResult → Handler SuccessReply} (hf : ∀ a, Tells req (f a) []) :
    Tells req (failureResult body build >>= f) [] := by
  unfold failureResult
  cases body.failureStage with
  | none => exact tells_callerError
  | some rawStage =>
    dsimp only
    rw [Program.bind_assoc]
    refine tells_orBadRequest fun stage => ?_
    cases body.failureCode with
    | none => exact tells_callerError
    | some code =>
      dsimp only
      rw [Program.bind_assoc]
      refine tells_require ?_
      cases body.retryable with
      | none => exact tells_callerError
      | some retryable => exact tells_orBadRequest hf

theorem tells_attemptResult {body : RegisterAttemptRequest}
    {f : AttemptResult → Handler SuccessReply} (hf : ∀ a, Tells req (f a) []) :
    Tells req (attemptResult body >>= f) [] := by
  unfold attemptResult
  split
  · exact hf _
  split
  · exact tells_failureResult hf
  split
  · exact tells_failureResult hf
  · exact tells_callerError

theorem tells_handleAction {action : WorkflowRunID → String → ActorID → UseCase Unit}
    {code done rawID : String} {body : Option WorkflowActionRequest} (hreq : req.isGet = false) :
    Tells req (handleAction ulid action code done rawID body) [] := by
  refine tells_orBadRequest fun _ => tells_decodeBody fun _ => tells_orBadRequest fun _ => ?_
  exact tells_serve hreq fun _ _ => Or.inl rfl

theorem Request.handler_tells (req : Request) : Tells req (req.handler ulid) [] := by
  cases req with
  | submitTask body =>
    refine tells_decodeBody fun _ => tells_checkedInput fun _ => ?_
    exact tells_serve rfl fun _ _ => Or.inr rfl
  | getTask rawID =>
    refine tells_orBadRequest fun taskID => ⟨trivial, fun r _ => ?_⟩
    cases r with
    | ok t => exact Or.inl rfl
    | error e => exact Or.inr (Or.inl ⟨rfl, rfl, rfl⟩)
  | routeTask rawID =>
    exact tells_orBadRequest fun _ => tells_serve rfl fun _ _ => Or.inl rfl
  | evaluatePolicy rawID body =>
    refine tells_orBadRequest fun _ => tells_decodeBody fun _ => tells_require ?_
    exact tells_serve rfl fun _ _ => Or.inl rfl
  | startWorkflow rawID =>
    exact tells_orBadRequest fun _ => tells_serve rfl fun _ _ => Or.inr rfl
  | processTask rawID body =>
    refine tells_orBadRequest fun _ => tells_decodeBody fun _ => tells_checkedInput fun _ => ?_
    exact tells_require (tells_serve rfl fun _ _ => Or.inl rfl)
  | getWorkflowStatus rawID =>
    refine tells_orBadRequest fun wfID => ⟨trivial, fun r _ => ?_⟩
    cases r with
    | ok w => exact Or.inl rfl
    | error e => exact Or.inr (Or.inl ⟨rfl, rfl, rfl⟩)
  | killWorkflow rawID body => exact tells_handleAction rfl
  | pauseWorkflow rawID body => exact tells_handleAction rfl
  | resumeWorkflow rawID body => exact tells_handleAction rfl
  | registerAttempt rawID body =>
    refine tells_orBadRequest fun _ => tells_decodeBody fun _ => tells_attemptResult fun _ => ?_
    exact tells_serve rfl fun _ _ => Or.inl rfl
  | resolveApproval rawID body =>
    refine tells_orBadRequest fun _ => tells_decodeBody fun _ => tells_orBadRequest fun _ => ?_
    exact tells_serve rfl fun _ _ => Or.inl rfl

/-- **Replies tell what has happened**, in every interleaving: a request that was answered with 400
has performed nothing; 404 is the answer to a read by identifier, after that one read; 500 is the
error of a service; and everything else is a success. -/
theorem reply_tells_what_happened {s₀ : Store}
    {p : Pool Request Store Op Res ErrorReply SuccessReply}
    (hp : (server ulid).Reach unguarded (Pool.start s₀) p) :
    ∀ t ∈ p.threads, (∀ reply, t.prog = .ret reply → StatusTells t.call (.ok reply) t.log) ∧
      ∀ reply, t.prog = .fail reply → StatusTells t.call (.error reply) t.log := by
  have hkeeps : (server ulid).Keeps ⟨fun _ _ => True, fun _ _ => True⟩ StatusTells :=
    ⟨fun _ => trivial, Request.handler_tells⟩
  intro t ht
  have hfollows := System.Reach.inContract hkeeps System.inContract_start hp t ht
  refine ⟨fun reply hreply => ?_, fun reply hreply => ?_⟩
  · rw [hreply] at hfollows
    exact hfollows
  · rw [hreply] at hfollows
    exact hfollows

/-- A title of blanks passes the checks of the handler and is refused by the service. -/
def blankTitle : Request := .submitTask (some ⟨"bugfix", "  ", "file", "normal", [], ""⟩)

theorem reply_tells_what_happened_blank : ∃ p t reply,
    (server default).Reach unguarded (Pool.start (Store.empty true)) p ∧ t ∈ p.threads ∧
      t.prog = .fail reply ∧ reply.status = 500 ∧
      (∀ u, reply.error.text u = "creating task: task title must not be empty") ∧
      StatusTells t.call (.error reply) t.log := by
  have hrun : (((server default).play (fun _ _ _ _ _ => true) (Pool.start (Store.empty true))
      [.spawn blankTitle, .advance 0 {}, .advance 0 {}, .advance 0 {}]).bind fun p =>
        p.threads[0]?.bind fun t => match t.prog with
          | .fail reply => some reply
          | _ => none) = some ⟨500, "SUBMIT_FAILED",
            .context "creating task" (.new "task title must not be empty")⟩ := by
    decide +kernel
  obtain ⟨p, hp, hrun⟩ := Option.bind_eq_some_iff.mp hrun
  obtain ⟨t, ht, hreply⟩ := Option.bind_eq_some_iff.mp hrun
  have hreach : (server default).Reach unguarded (Pool.start (Store.empty true)) p :=
    System.play_reach (fun _ _ _ _ _ _ => trivial) hp
  have hmem : t ∈ p.threads := List.mem_of_getElem? ht
  cases hprog : t.prog with
  | fail reply =>
    rw [hprog] at hreply
    obtain rfl := Option.some.inj hreply
    exact ⟨p, t, _, hreach, hmem, hprog, rfl, fun _ => rfl,
      (reply_tells_what_happened hreach t hmem).2 _ hprog⟩
  | ret a => rw [hprog] at hreply; cases hreply
  | act o k => rw [hprog] at hreply; cases hreply

end Replies

end Governance

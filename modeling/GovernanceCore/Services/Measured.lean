import GovernanceCore.Framework.Beside
import GovernanceCore.Framework.Timeline
import GovernanceCore.Services.Governance

/-!
# The metrics decorators

`internal/adapters/inbound/metrics`: when instruments are configured, the inbound ports are wrapped.
A wrapped call passes its arguments and its result through, and takes measurements once it has
succeeded. `ProcessTask` and `StartWorkflow` are passed through without any; the coordinator behind
`ProcessTask` was built from the services and not from their wrappers (`bootstrap/wire.go`), so that
its calls are not measured either.

* `measurements_account`: no measurement is lost or taken twice, whatever the interleaving; a call
  that has succeeded has taken exactly its own, and a call that has failed none.
-/

namespace Governance

open Framework

/-! ### Measurements -/

/-- What the decorators tell the instruments, with the labels. -/
inductive Measurement where
  | tasksSubmitted (type : TaskType) (scope : TaskScope) (risk : RiskLevel)
  | routingDuration (ms : Int) (strategy : RoutingStrategy) (overridden : Bool)
  | policyDuration (ms : Int) (outcome : PolicyOutcome)
  | policyOutcomes (outcome : PolicyOutcome)
  | executionAttempts (strategy role : Option String)
  | workflowTransitions (transition : String)
  deriving DecidableEq

/-- The operations of the decorators: `time.Now` and `time.Since`, and a measurement. -/
inductive MetricOp where
  | timeNow
  | measure (m : Measurement)

def MetricRes : MetricOp → Type
  | .timeNow => Timestamp
  | .measure _ => Unit

/-- The instruments keep what they are told. -/
def MetricOp.exec (now : Timestamp) (_ : Store) (taken : List Measurement) :
    (o : MetricOp) → MetricRes o × List Measurement
  | .timeNow => (now, taken)
  | .measure m => ((), taken ++ [m])

/-! ### The decorators -/

/-- The calls of `GovernanceService` and `WorkflowControl`. -/
inductive PortCall where
  | submitTask (input : SubmitTaskInput)
  | routeTask (taskID : TaskID)
  | evaluatePolicy (taskID : TaskID) (action : String)
  | processTask (input : SubmitTaskInput) (action : String)
  | startWorkflow (taskID : TaskID)
  | registerAttempt (id : WorkflowRunID) (result : AttemptResult)
  | killWorkflow (id : WorkflowRunID) (reason : String) (actor : ActorID)
  | pauseWorkflow (id : WorkflowRunID) (reason : String) (actor : ActorID)
  | resumeWorkflow (id : WorkflowRunID) (reason : String) (actor : ActorID)

/-- What such a call returns. -/
inductive PortReply where
  | task (t : Task)
  | routing (d : RoutingDecision)
  | policy (d : PolicyDecision)
  | processed (r : ProcessTaskResult)
  | workflow (w : WorkflowRun)
  | done

abbrev Measured := Program (Op ⊕ MetricOp) (Sum.elim Res MetricRes) Err

/-- Take the measurements, in order, and go on. -/
def measureAll (ms : List Measurement) (reply : PortReply) : Measured PortReply :=
  match ms with
  | [] => .ret reply
  | m :: ms => .act (.inr (.measure m)) fun _ => measureAll ms reply

/-- A decorator that measures a success. -/
def measured {α : Type} (service : UseCase α) (ms : α → List Measurement) (reply : α → PortReply) :
    Measured PortReply :=
  service.lift.handle fun
    | .error e => .fail e
    | .ok a => measureAll (ms a) (reply a)

/-- A decorator that measures a success with the time it took. -/
def timed {α : Type} (service : UseCase α) (ms : Int → α → List Measurement)
    (reply : α → PortReply) : Measured PortReply :=
  .act (.inr .timeNow) fun (start : Timestamp) =>
  service.lift.handle fun
    | .error e => .fail e
    | .ok a =>
      .act (.inr .timeNow) fun (now : Timestamp) =>
        measureAll (ms (Duration.milliseconds (now - start)) a) (reply a)

/-- Whether the first evaluation was overridden. -/
def RoutingDecision.overridden (d : RoutingDecision) : Bool :=
  match d.evaluatedStrategies with
  | [] => false
  | e :: _ => e.overridden

/-- `MetricsGovernanceService` and `MetricsWorkflowControl`. -/
def PortCall.decorated : PortCall → Measured PortReply
  | .submitTask input => measured (Governance.submitTask input)
      (fun t => [.tasksSubmitted input.type input.scope t.riskLevel]) .task
  | .routeTask taskID => timed (Governance.routeTask taskID)
      (fun ms d => [.routingDuration ms d.selectedStrategy d.overridden]) .routing
  | .evaluatePolicy taskID action => timed (Governance.evaluatePolicy taskID action)
      (fun ms d => [.policyDuration ms d.outcome, .policyOutcomes d.outcome]) .policy
  | .processTask input action =>
      measured (Governance.processTask input action) (fun _ => []) .processed
  | .startWorkflow taskID => measured (Governance.startWorkflow taskID) (fun _ => []) .workflow
  | .registerAttempt id result => measured (Governance.registerAttempt id result)
      (fun _ => [.executionAttempts result.strategyUsed result.agentRole]) .workflow
  | .killWorkflow id reason actor => measured (Governance.killWorkflow id reason actor)
      (fun _ => [.workflowTransitions "killed"]) fun _ => .done
  | .pauseWorkflow id reason actor => measured (Governance.pauseWorkflow id reason actor)
      (fun _ => [.workflowTransitions "paused"]) fun _ => .done
  | .resumeWorkflow id reason actor => measured (Governance.resumeWorkflow id reason actor)
      (fun _ => [.workflowTransitions "resumed"]) fun _ => .done

/-- The decorated ports, beside calls that do not go through them. -/
def decorators : Companion Choice Store Op Res PortCall Timestamp (List Measurement) MetricOp
    MetricRes Err PortReply where
  steer _ ch := ch
  exec := MetricOp.exec
  body := PortCall.decorated

def instrumented := governance.beside decorators

/-! ### What a call has measured -/

abbrev MeasuredLog := Log (Op ⊕ MetricOp) (Sum.elim Res MetricRes)

/-- The measurement of an operation. -/
def taken : Event (Op ⊕ MetricOp) (Sum.elim Res MetricRes) → Option Measurement
  | ⟨.inr (.measure m), _⟩ => some m
  | _ => none

/-- What a call has to measure when it returns this reply after so many milliseconds. -/
def PortCall.expects : PortCall → Int → PortReply → List Measurement
  | .submitTask input, _, .task t => [.tasksSubmitted input.type input.scope t.riskLevel]
  | .routeTask _, ms, .routing d => [.routingDuration ms d.selectedStrategy d.overridden]
  | .evaluatePolicy _ _, ms, .policy d => [.policyDuration ms d.outcome, .policyOutcomes d.outcome]
  | .registerAttempt _ result, _, _ => [.executionAttempts result.strategyUsed result.agentRole]
  | .killWorkflow _ _ _, _, _ => [.workflowTransitions "killed"]
  | .pauseWorkflow _ _ _, _, _ => [.workflowTransitions "paused"]
  | .resumeWorkflow _ _ _, _, _ => [.workflowTransitions "resumed"]
  | _, _, _ => []

/-- A success has measured what it has to, a failure nothing. -/
def MeasuredEnds (c : PortCall) : Except Err PortReply → MeasuredLog → Prop
  | .ok reply, h => ∃ ms, h.filterMap taken = c.expects ms reply
  | .error _, h => h.filterMap taken = []

/-- The decorators rely on nothing and may do anything. -/
def anything : Contract (Op ⊕ MetricOp) (Sum.elim Res MetricRes) :=
  ⟨fun _ _ => True, fun _ _ => True⟩

/-- A service measures nothing itself. -/
theorem lift_follows_taken {α : Type} {E : Except Err α → MeasuredLog → Prop} {h : MeasuredLog}
    (hE : ∀ res h', h'.filterMap taken = h.filterMap taken → E res h') (service : UseCase α) :
    (service.lift : Measured α).Follows anything E h := by
  induction service generalizing h with
  | ret a => exact hE _ h rfl
  | fail e => exact hE _ h rfl
  | act o k ih =>
    refine ⟨trivial, fun r _ => ih r fun res h' hh' => hE res h' (hh'.trans ?_)⟩
    rw [List.filterMap_append]
    exact List.append_nil _

theorem measureAll_follows {E : Except Err PortReply → MeasuredLog → Prop} {reply : PortReply}
    {ms : List Measurement} {h : MeasuredLog}
    (hE : ∀ h', h'.filterMap taken = h.filterMap taken ++ ms → E (.ok reply) h') :
    (measureAll ms reply).Follows anything E h := by
  induction ms generalizing h with
  | nil => exact hE h (List.append_nil _).symm
  | cons m ms ih =>
    refine ⟨trivial, fun r _ => ih fun h' hh' => hE h' (hh'.trans ?_)⟩
    rw [List.filterMap_append, List.append_assoc]
    rfl

theorem measured_follows {α : Type} {c : PortCall} {service : UseCase α}
    {ms : α → List Measurement} {reply : α → PortReply}
    (hexpects : ∀ a, c.expects 0 (reply a) = ms a) :
    (measured service ms reply).Follows anything (MeasuredEnds c) [] := by
  refine Program.Follows.handle (lift_follows_taken (fun res h hh => ?_) service)
  cases res with
  | error e => exact hh
  | ok a =>
    refine measureAll_follows fun h' hh' => ⟨0, ?_⟩
    rw [hh', hh, hexpects a]
    rfl

theorem timed_follows {α : Type} {c : PortCall} {service : UseCase α}
    {ms : Int → α → List Measurement} {reply : α → PortReply}
    (hexpects : ∀ t a, c.expects t (reply a) = ms t a) :
    (timed service ms reply).Follows anything (MeasuredEnds c) [] := by
  refine ⟨trivial, fun (start : Timestamp) _ => ?_⟩
  refine Program.Follows.handle (lift_follows_taken (fun res h hh => ?_) service)
  cases res with
  | error e => exact hh
  | ok a =>
    refine ⟨trivial, fun (now : Timestamp) _ => measureAll_follows fun h' hh' => ?_⟩
    refine ⟨Duration.milliseconds (now - start), ?_⟩
    rw [hh', List.filterMap_append, hh, hexpects]
    rfl

theorem PortCall.decorated_follows (c : PortCall) :
    c.decorated.Follows anything (MeasuredEnds c) [] := by
  cases c with
  | routeTask taskID =>
    rw [decorated]
    exact timed_follows fun _ _ => rfl
  | evaluatePolicy taskID action =>
    rw [decorated]
    exact timed_follows fun _ _ => rfl
  | _ => exact measured_follows fun _ => rfl

/-! ### Whole runs -/

theorem instrumented_keeps : instrumented.Keeps anything (besideEnds MeasuredEnds) :=
  System.beside_keeps (fun _ _ => trivial) (fun _ _ => trivial) PortCall.decorated_follows

/-- The instruments are a journal of the measurements. -/
theorem journal_of_instrumented (ch : Choice × Timestamp) (s : Store × List Measurement)
    (o : Op ⊕ MetricOp) (r : Sum.elim Res MetricRes o) (s' : Store × List Measurement)
    (hex : instrumented.exec ch s o = (r, s')) : s'.2 = s.2 ++ (taken ⟨o, r⟩).toList := by
  cases o with
  | inl o =>
    rw [(System.beside_exec_inl hex).2]
    exact (List.append_nil _).symm
  | inr o =>
    have hexec := (Prod.mk.inj (System.beside_exec_inr hex).1).2
    cases o with
    | timeNow => exact hexec.symm.trans (List.append_nil _).symm
    | measure m => exact hexec.symm

abbrev InstrumentedPool := Pool (Call ⊕ PortCall) (Store × List Measurement) (Op ⊕ MetricOp)
  (Sum.elim Res MetricRes) (Err ⊕ Err) (Reply ⊕ PortReply)

/-- **The instruments account for the calls.** Whatever the interleaving, they hold exactly what the
calls have measured, nothing lost and nothing twice. A decorated call that has returned has measured
what its reply asks for, which is nothing for `ProcessTask`, and one that has failed nothing. -/
theorem measurements_account {metrics : Bool} {p : InstrumentedPool}
    (hp : instrumented.Reach unguarded (Pool.start (Store.empty metrics, [])) p) :
    p.store.2.Perm (p.recorded taken) ∧
      ∀ t ∈ p.threads,
        (∀ reply, t.prog = .ret (.inr reply) →
          ∃ c ms, t.call = .inr c ∧ t.log.filterMap taken = c.expects ms reply) ∧
        ∀ e, t.prog = .fail (.inr e) → t.log.filterMap taken = [] := by
  refine ⟨?_, fun t ht => ?_⟩
  · exact System.Reach.journal Prod.snd journal_of_instrumented hp
  · refine ⟨fun reply hret => ?_, fun e hfail => ?_⟩
    · obtain ⟨c, hcall, ms, hms⟩ := System.Reach.companion_ends instrumented_keeps hp ht hret
      exact ⟨c, ms, hcall, hms⟩
    · obtain ⟨c, -, hnone⟩ := System.Reach.companion_fails instrumented_keeps hp ht hfail
      exact hnone

/-- A fix goes through the pipeline, and another is submitted only. -/
def processedAndSubmitted : List (System.Action (Call ⊕ PortCall) (Choice × Timestamp)) :=
  .spawn (.inr (.processTask bugfixInput "edit")) ::
    (List.range 34).map (fun j => .advance 0 (scheduleChoice 'a' j, 0)) ++
    .spawn (.inr (.submitTask bugfixInput)) ::
    (List.range 6).map fun j => .advance 1 (scheduleChoice 'b' j, 0)

/-- Two tasks are stored, and one submission is measured. -/
theorem measurements_account_processed : ∃ p : InstrumentedPool,
    instrumented.Reach unguarded (Pool.start (Store.empty true, [])) p ∧
    p.store.1.tasks.rows.length = 2 ∧ p.store.2 = [.tasksSubmitted .bugfix .file .low] ∧
    p.store.2.Perm (p.recorded taken) := by
  have hplay : (instrumented.play (fun _ _ _ _ _ => true) (Pool.start (Store.empty true, []))
      processedAndSubmitted).map (fun p => (p.store.1.tasks.rows.length, p.store.2))
        = some (2, [.tasksSubmitted .bugfix .file .low]) := by
    decide +kernel
  obtain ⟨p, hp, hboth⟩ := Option.map_eq_some_iff.mp hplay
  obtain ⟨htasks, htaken⟩ := Prod.mk.inj hboth
  have hreach : instrumented.Reach unguarded (Pool.start (Store.empty true, [])) p :=
    System.play_reach (fun _ _ _ _ _ _ => trivial) hp
  exact ⟨p, hreach, htasks, htaken, (measurements_account hreach).1⟩

end Governance

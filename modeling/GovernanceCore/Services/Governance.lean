import GovernanceCore.Services.Intake
import GovernanceCore.Services.WorkflowRun

/-!
# The governance service

The nine calls of the inbound ports that write, and the system they make up over the store: the
programs of `Services/` under the interpreter of `Store/Ports.lean`.
-/

namespace Governance

open Framework

/-- A call with its arguments. -/
inductive Call where
  | submitTask (input : SubmitTaskInput)
  | routeTask (taskID : TaskID)
  | evaluatePolicy (taskID : TaskID) (action : String)
  | startWorkflow (taskID : TaskID)
  | resolveApproval (input : ResolveApprovalInput)
  | registerAttempt (id : WorkflowRunID) (result : AttemptResult)
  | pauseWorkflow (id : WorkflowRunID) (reason : String) (actor : ActorID)
  | resumeWorkflow (id : WorkflowRunID) (reason : String) (actor : ActorID)
  | killWorkflow (id : WorkflowRunID) (reason : String) (actor : ActorID)
  deriving DecidableEq, Repr

/-- What a call returns when it succeeds. -/
inductive Reply where
  | task (t : Task)
  | routing (d : RoutingDecision)
  | policy (d : PolicyDecision)
  | workflow (w : WorkflowRun)
  | approval (a : ApprovalRequest)
  | done
  deriving DecidableEq

/-- The program of a call. -/
def Call.body : Call → UseCase Reply
  | .submitTask input => Governance.submitTask input >>= fun t => .ret (.task t)
  | .routeTask taskID => Governance.routeTask taskID >>= fun d => .ret (.routing d)
  | .evaluatePolicy taskID action =>
      Governance.evaluatePolicy taskID action >>= fun d => .ret (.policy d)
  | .startWorkflow taskID => Governance.startWorkflow taskID >>= fun w => .ret (.workflow w)
  | .resolveApproval input => Governance.resolveApproval input >>= fun a => .ret (.approval a)
  | .registerAttempt id result =>
      Governance.registerAttempt id result >>= fun w => .ret (.workflow w)
  | .pauseWorkflow id reason actor =>
      Governance.pauseWorkflow id reason actor >>= fun _ => .ret .done
  | .resumeWorkflow id reason actor =>
      Governance.resumeWorkflow id reason actor >>= fun _ => .ret .done
  | .killWorkflow id reason actor =>
      Governance.killWorkflow id reason actor >>= fun _ => .ret .done

/-! ### ProcessTask -/

/-- `ProcessTaskResult`. -/
structure ProcessTaskResult where
  task : Task
  routingDecision : RoutingDecision
  policyDecision : PolicyDecision
  workflowRun : WorkflowRun

/-- `ProcessTask`, the coordinator: the four calls of the pipeline in sequence, up to the first that
fails. It makes no repository call of its own. -/
def processTask (input : SubmitTaskInput) (action : String) : UseCase ProcessTaskResult := do
  let t ← wrapError "submit task" (submitTask input)
  let rd ← wrapError "route task" (routeTask t.id)
  let pd ← wrapError "evaluate policy" (evaluatePolicy t.id action)
  let wf ← wrapError "start workflow" (startWorkflow t.id)
  return ⟨t, rd, pd, wf⟩

/-! ### The system -/

/-- The service over its store. -/
def governance : System Call Choice Store Op Res Err Reply where
  exec := exec
  body := Call.body

/-! ### Schedules

Concrete schedules are lists of decisions. A call that performs `n` operations is one arrival and
`n` advances; each advance brings its own id, so that no insertion is refused. -/

/-- The id that the `j`-th operation under `tag` generates. -/
def scheduleID (tag : Char) (j : Nat) : String := String.ofList (tag :: List.replicate j 'I')

/-- What the environment decides about the `j`-th operation under `tag`. -/
def scheduleChoice (tag : Char) (j : Nat) : Choice := { id := scheduleID tag j, now := 1 }

/-- `n` operations of the call at position `i`, from its `start`-th on. -/
def advances (tag : Char) (i start n : Nat) : List (System.Action Call Choice) :=
  (List.range n).map fun j => .advance i (scheduleChoice tag (start + j))

/-- The call at position `i` arrives and performs `n` operations. -/
def whole (tag : Char) (i : Nat) (c : Call) (n : Nat) : List (System.Action Call Choice) :=
  .spawn c :: advances tag i 0 n

/-- Carry out a schedule from the empty store, with instruments configured. -/
def carryOut (acts : List (System.Action Call Choice)) :
    Option (Pool Call Store Op Res Err Reply) :=
  governance.play (fun _ _ _ _ _ => true) (Pool.start (Store.empty true)) acts

/-- What a schedule leads to is reachable. -/
theorem carryOut_reach {acts : List (System.Action Call Choice)}
    {p : Pool Call Store Op Res Err Reply} (h : carryOut acts = some p) :
    governance.Reach unguarded (Pool.start (Store.empty true)) p :=
  System.play_reach (fun _ _ _ _ _ _ => trivial) h

/-- A fix in one file: low risk, so that it is routed directly. -/
def bugfixInput : SubmitTaskInput :=
  { type := .bugfix, title := "fix", scope := .file, priority := .normal, metadata := [] }

/-- A release: its policy asks for an approval. -/
def releaseInput : SubmitTaskInput := { bugfixInput with type := .deployment, title := "release" }

/-- The task that the first submission under the tag `a` creates. -/
def firstTask : TaskID := ⟨scheduleID 'a' 0⟩

/-- The run that its routing under the tag `b` creates. -/
def firstRun : WorkflowRunID := ⟨scheduleID 'b' 7⟩

/-- The request that its start under the tag `d` creates, when the policy asks for an approval. -/
def firstRequest : ApprovalRequestID := ⟨scheduleID 'd' 5⟩

/-- Submitted, routed and checked against the policy for `action`. -/
def checkedSchedule (action : String) : List (System.Action Call Choice) :=
  whole 'a' 0 (.submitTask bugfixInput) 5 ++ whole 'b' 1 (.routeTask firstTask) 11 ++
    whole 'c' 2 (.evaluatePolicy firstTask action) 8

/-- The same, and started: the action is allowed. -/
def runningSchedule : List (System.Action Call Choice) :=
  checkedSchedule "edit" ++ whole 'd' 3 (.startWorkflow firstTask) 10

/-- A release that is submitted, routed, checked, and waiting for its approval. -/
def awaitingSchedule : List (System.Action Call Choice) :=
  whole 'a' 0 (.submitTask releaseInput) 5 ++ whole 'b' 1 (.routeTask firstTask) 11 ++
    whole 'c' 2 (.evaluatePolicy firstTask "edit") 8 ++ whole 'd' 3 (.startWorkflow firstTask) 10

/-- An attempt that asks to be retried. -/
def toolRetry : AttemptResult :=
  { status := .retry, failureStage := some .execution, failureCode := some "tool/timeout"
    retryable := some true }

/-- An attempt that has failed. -/
def toolFailure : AttemptResult := { toolRetry with status := .failure }

/-- The statuses of the stored runs. -/
def Store.statuses (s : Store) : List WorkflowStatus := s.workflowRuns.rows.map WorkflowRun.status

/-- The row behind the first value that was read off a table. -/
theorem exists_row_of_map {R V : Type} {rows : List R} {f : R → V} {x : V} {xs : List V}
    (h : rows.map f = x :: xs) : ∃ r ∈ rows, f r = x := by
  have hmem : x ∈ rows.map f := by
    rw [h]
    exact List.mem_cons_self
  exact List.mem_map.mp hmem

theorem Store.exists_of_statuses {s : Store} {status : WorkflowStatus}
    (h : s.statuses = [status]) : ∃ w ∈ s.workflowRuns, w.status = status :=
  exists_row_of_map h

/-- A run can be submitted, routed, checked and started. -/
theorem exists_running : ∃ s, governance.Reachable (Store.empty true) s ∧
    ∃ w ∈ s.workflowRuns, w.status = .running := by
  have hrun : (carryOut runningSchedule).map (fun p => p.store.statuses) = some [.running] := by
    decide +kernel
  obtain ⟨p, hp, hstatuses⟩ := Option.map_eq_some_iff.mp hrun
  exact ⟨p.store, ⟨p, carryOut_reach hp, rfl⟩, Store.exists_of_statuses hstatuses⟩

end Governance

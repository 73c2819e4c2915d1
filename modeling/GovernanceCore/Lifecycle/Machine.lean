import GovernanceCore.Lifecycle.View

/-!
# The life of one workflow run

`LifeStep` is the machine that the nine services implement together, seen from one workflow run: one
rule for each thing a completed call can do to the run, with everything it changes beside the row.
The rules are about single views; there are no tables, no queries and no order of operations in
them. `Lifecycle/Simulation.lean` proves that every call is such a step.

Results about whole sessions are inductions over `Life`, the views a run goes through. A rule asks
for no more than its service checks, so a rule may fire in a view that no session reaches; that it
does not is for each invariant to say.
-/

namespace Governance

open Framework

/-- The status of the attempt that a call registers on the run `id`. -/
def Call.attemptOn (id : WorkflowRunID) : Call → Option AttemptStatus
  | .registerAttempt i result => if i = id then some result.status else none
  | _ => none

/-- The result that is registered passes its check. -/
def Call.ValidAttempt : Call → Prop
  | .registerAttempt _ result => result.validate = .ok ()
  | _ => True

theorem Call.attemptOn_eq_some {id : WorkflowRunID} {c : Call} {status : AttemptStatus}
    (h : c.attemptOn id = some status) :
    ∃ result, c = .registerAttempt id result ∧ result.status = status := by
  cases c with
  | registerAttempt i result =>
    have h : (if i = id then some result.status else none) = some status := h
    split at h
    · next hi => exact ⟨result, by rw [hi], Option.some.inj h⟩
    · cases h
  | _ => cases h

/-- The row of a lease after `KillWorkflow`: an active lease is revoked. -/
def ExecutionLease.killed (l : ExecutionLease) : ExecutionLease :=
  if l.status = .active then ({ l with status := .revoked } : ExecutionLease).overwrite l else l

/-- The trail after the entries of a call. Nothing is said when audit entries may fail. -/
def Logged (strict : Bool) (v : View) (entries trail : List (String × String)) : Prop :=
  strict = true → trail = v.trail ++ entries

/-- The requests after one of them has been replaced. -/
def View.settled (v : View) (a : ApprovalRequest) : List ApprovalRequest :=
  overwrite ApprovalRequest.id a.id a.overwrite v.requests

/-- `a` is the new version of a request of the run, which was pending. -/
structure Settles (v : View) (a : ApprovalRequest) (status : ApprovalStatus) : Prop where
  status_eq : a.status = status
  mem : ∃ b ∈ v.requests, b.id = a.id
  pending : ∀ b ∈ v.requests, b.id = a.id → b.status = .pending

/-- A stored decision of the task of the run, with its outcome as it is read back. -/
def View.decides (v : View) (taskID : TaskID) (outcome : PolicyOutcome) : Prop :=
  ∃ d ∈ v.decisions, d.taskID = taskID ∧ d.scan.outcome = outcome

/-- What a completed call `c` does to the run `id`. The flag says whether the call succeeded. -/
inductive LifeStep (strict : Bool) (id : WorkflowRunID) (c : Call) : Bool → View → View → Prop where
  /-- The call was refused, was about another run, or has only stored decisions. -/
  | quiet {ok : Bool} {v : View} {decisions : List PolicyDecisionRow}
      {trail : List (String × String)} (hc : ok = true → c.attemptOn id = none)
      (hd : ∀ d ∈ v.decisions, d ∈ decisions) (ht : Logged strict v [] trail) :
      LifeStep strict id c ok v { v with decisions, trail }
  /-- `RouteTask`: a run in status created, or a new one, is routed. -/
  | routed {ok : Bool} {v : View} {w : WorkflowRun} {rd : RoutingDecisionID}
      {reason outcome : String} {actor : ActorID} {now : Timestamp} {trail : List (String × String)}
      (hc : c.attemptOn id = none) (hs : w.status = .created) (hid : w.id = id)
      (hrun : v.run = some w ∨ v.run = none ∧ ∃ t now, w = newWorkflowRun id t now)
      (ht : Logged strict v [("task_routed", outcome)] trail) :
      LifeStep strict id c ok v { v with
        run := some { w.moved .routed reason actor now with routingDecisionID := some rd }, trail }
  /-- `EvaluatePolicy`: a routed run is checked against a decision that has just been stored. -/
  | checked {ok : Bool} {v : View} {w : WorkflowRun} {d : PolicyDecisionRow} {outcome : String}
      {actor : ActorID} {now : Timestamp} {decisions : List PolicyDecisionRow}
      {trail : List (String × String)} (hc : c.attemptOn id = none) (hrun : v.run = some w)
      (hs : w.status = .routed) (hd : ∀ d ∈ v.decisions, d ∈ decisions) (hnew : d ∈ decisions)
      (ht : Logged strict v [("policy_evaluated", outcome)] trail) :
      LifeStep strict id c ok v { v with
        run := some { w.moved .policyChecked "" actor now with policyDecisionID := some d.id },
        decisions, trail }
  /-- `StartWorkflow` under a decision that denies. -/
  | denied {ok : Bool} {v : View} {w : WorkflowRun} {reason : String} {actor : ActorID}
      {now : Timestamp} {trail : List (String × String)} (hc : c = .startWorkflow w.taskID)
      (hrun : v.run = some w) (hs : w.status.isTerminal = false)
      (hv : w.status.isValidTransition .failed = true)
      (ht : Logged strict v [("workflow_started", "denied")] trail) :
      LifeStep strict id c ok v { v with
        run := some (w.moved .failed reason actor now), trail,
        notes := v.notes ++ [.workflowTerminated], endings := v.endings.map (· + 1) }
  /-- `StartWorkflow` under a decision that requires an approval. -/
  | awaiting {ok : Bool} {v : View} {w : WorkflowRun} {a : ApprovalRequest} {reason : String}
      {actor : ActorID} {now : Timestamp} {trail : List (String × String)}
      (hc : c = .startWorkflow w.taskID) (hrun : v.run = some w)
      (hs : w.status.isTerminal = false)
      (hv : w.status.isValidTransition .awaitingApproval = true)
      (hd : v.decides w.taskID .requireApproval) (ha : a.status = .pending)
      (ht : Logged strict v [("workflow_started", "awaiting_approval")] trail) :
      LifeStep strict id c ok v { v with
        run := some (w.moved .awaitingApproval reason actor now), requests := v.requests ++ [a],
        trail, notes := v.notes ++ [.approvalRequired] }
  /-- `StartWorkflow` under a decision that allows. -/
  | started {ok : Bool} {v : View} {w : WorkflowRun} {lid : ExecutionLeaseID} {reason : String}
      {actor : ActorID} {now : Timestamp} {trail : List (String × String)}
      (hc : c = .startWorkflow w.taskID) (hrun : v.run = some w) (hl : v.lease = none)
      (hs : w.status.isTerminal = false) (hv : w.status.isValidTransition .running = true)
      (hd : v.decides w.taskID .allow ∨ v.decides w.taskID .allowWithConstraints)
      (ht : Logged strict v [("workflow_started", "running")] trail) :
      LifeStep strict id c ok v { v with
        run := some (w.moved .running reason actor now),
        lease := some (defaultLease lid id now).toRow, trail,
        notes := v.notes ++ [.executionReady] }
  /-- `RegisterAttempt` with success. -/
  | completed {v : View} {w : WorkflowRun} {l : ExecutionLease} {reason : String} {actor : ActorID}
      {now : Timestamp} {trail : List (String × String)} (hc : c.attemptOn id = some .success)
      (hrun : v.run = some w) (hl : v.lease = some l) (hactive : l.status = .active)
      (hs : w.status.isTerminal = false) (hv : w.status.isValidTransition .completed = true)
      (ht : Logged strict v [("attempt_registered", "success")] trail) :
      LifeStep strict id c true v { v with
        run := some (w.moved .completed reason actor now), lease := some (l.counted.overwrite l),
        trail, notes := v.notes ++ [.workflowTerminated], endings := v.endings.map (· + 1) }
  /-- `RegisterAttempt` with a failure that leaves some budget, or with a retry. That the result is
  valid matters for the retry, which is not held to the budget. -/
  | retried {v : View} {w : WorkflowRun} {l : ExecutionLease} {status : AttemptStatus}
      {trail : List (String × String)} (hc : c.attemptOn id = some status)
      (hrun : v.run = some w) (hl : v.lease = some l) (hactive : l.status = .active)
      (hs : w.status.isTerminal = false)
      (hstatus : status = .failure ∧ l.counted.hasRetryBudget = true ∨ status = .retry)
      (ht : Logged strict v [("attempt_registered", status.text)] trail)
      (hvalid : c.ValidAttempt) :
      LifeStep strict id c true v { v with lease := some (l.counted.overwrite l), trail }
  /-- `RegisterAttempt` with a failure that uses the last attempt. -/
  | quarantined {v : View} {w : WorkflowRun} {l : ExecutionLease} {reason : String}
      {actor : ActorID} {now : Timestamp} {trail : List (String × String)}
      (hc : c.attemptOn id = some .failure) (hrun : v.run = some w) (hl : v.lease = some l)
      (hactive : l.status = .active) (hs : w.status.isTerminal = false)
      (hbudget : l.counted.hasRetryBudget = false)
      (hv : w.status.isValidTransition .quarantined = true)
      (ht : Logged strict v [("attempt_registered", "failure"),
        ("workflow_quarantined", "budget_exhausted")] trail) :
      LifeStep strict id c true v { v with
        run := some (w.moved .quarantined reason actor now), lease := some (l.counted.overwrite l),
        trail, notes := v.notes ++ [.workflowTerminated], endings := v.endings.map (· + 1) }
  /-- `PauseWorkflow`. -/
  | paused {ok : Bool} {v : View} {w : WorkflowRun} {reason : String} {actor : ActorID}
      {now : Timestamp} {trail : List (String × String)} (hc : c.attemptOn id = none)
      (hrun : v.run = some w) (hs : w.status.isTerminal = false)
      (hv : w.status.isValidTransition .paused = true)
      (ht : Logged strict v [("workflow_paused", "paused")] trail) :
      LifeStep strict id c ok v { v with run := some (w.moved .paused reason actor now), trail }
  /-- `ResumeWorkflow`. -/
  | resumed {ok : Bool} {v : View} {w : WorkflowRun} {l : ExecutionLease} {reason : String}
      {actor : ActorID} {now : Timestamp} {trail : List (String × String)}
      (hc : c.attemptOn id = none) (hrun : v.run = some w) (hl : v.lease = some l)
      (hbudget : l.hasRetryBudget = true) (hs : w.status.isTerminal = false)
      (hv : w.status.isValidTransition .running = true)
      (ht : Logged strict v [("workflow_resumed", "running")] trail) :
      LifeStep strict id c ok v { v with
        run := some (w.moved .running reason actor now), trail,
        notes := v.notes ++ [.executionReady] }
  /-- `KillWorkflow`. -/
  | killed {ok : Bool} {v : View} {w : WorkflowRun} {reason : String} {actor : ActorID}
      {now : Timestamp} {trail : List (String × String)} (hc : c.attemptOn id = none)
      (hrun : v.run = some w) (hs : w.status.isTerminal = false)
      (ht : Logged strict v [("workflow_killed", "killed")] trail) :
      LifeStep strict id c ok v { v with
        run := some (w.moved .killed reason actor now),
        lease := v.lease.map ExecutionLease.killed, trail,
        notes := v.notes ++ [.workflowTerminated], endings := v.endings.map (· + 1) }
  /-- `ResolveApproval` with an approval. -/
  | approved {ok : Bool} {v : View} {w : WorkflowRun} {a : ApprovalRequest}
      {lid : ExecutionLeaseID} {actor : ActorID} {now : Timestamp} {trail : List (String × String)}
      (hc : c.attemptOn id = none) (hrun : v.run = some w) (hl : v.lease = none)
      (hs : w.status = .awaitingApproval) (ha : Settles v a .approved)
      (ht : Logged strict v [("approval_resolved", "approved")] trail) :
      LifeStep strict id c ok v { v with
        run := some ((w.moved .approved "approval granted" actor now).moved .running
          "starting execution" actor now),
        lease := some (defaultLease lid id now).toRow, requests := v.settled a, trail,
        notes := v.notes ++ [.executionReady] }
  /-- `ResolveApproval` with a denial. -/
  | rejected {ok : Bool} {v : View} {w : WorkflowRun} {a : ApprovalRequest} {reason : String}
      {actor : ActorID} {now : Timestamp} {trail : List (String × String)}
      (hc : c.attemptOn id = none) (hrun : v.run = some w) (hs : w.status.isTerminal = false)
      (hv : w.status.isValidTransition .failed = true) (ha : Settles v a .denied)
      (ht : Logged strict v [("approval_resolved", "denied")] trail) :
      LifeStep strict id c ok v { v with
        run := some (w.moved .failed reason actor now), requests := v.settled a, trail,
        notes := v.notes ++ [.workflowTerminated], endings := v.endings.map (· + 1) }
  /-- `ResolveApproval` of a request whose run cannot follow: only the request changes. -/
  | orphaned {ok : Bool} {v : View} {a : ApprovalRequest} {status : ApprovalStatus}
      {trail : List (String × String)} (hc : c.attemptOn id = none) (ha : Settles v a status)
      (hstatus : status ≠ .pending)
      (hrun : (∀ w, v.run = some w → w.status ≠ .awaitingApproval) ∨ v.lease ≠ none)
      (ht : Logged strict v [] trail) :
      LifeStep strict id c ok v { v with requests := v.settled a, trail }

/-- What is known of the run that a view shows. -/
theorem View.forall_run {v : View} {w : WorkflowRun} {P : WorkflowRun → Prop}
    (hw : v.run = some w) (hP : P w) : ∀ w', v.run = some w' → P w' := by
  intro w' hw'
  rw [hw] at hw'
  obtain rfl := Option.some.inj hw'
  exact hP

theorem View.run_ne_none {v : View} {w : WorkflowRun} (hw : v.run = some w) : v.run ≠ none := by
  rw [hw]
  exact Option.some_ne_none w

/-! ### Whole lives -/

/-- The view of a run before the first call, with instruments configured or without. -/
def View.initial (metrics : Bool) : View where
  run := none
  lease := none
  requests := []
  decisions := []
  trail := []
  notes := []
  endings := if metrics then some 0 else none

/-- The views that the run `id` goes through while the calls of a session are made, each under the
condition `G` on the view before it. -/
inductive Life (strict metrics : Bool) (id : WorkflowRunID) (G : View → Call → Prop) :
    List (Call × Except Err Reply) → View → Prop where
  | start : Life strict metrics id G [] (.initial metrics)
  | step {tr : List (Call × Except Err Reply)} {v v' : View} {c : Call} {res : Except Err Reply}
      (hv : Life strict metrics id G tr v) (hG : G v c)
      (hstep : LifeStep strict id c res.isOk v v') : Life strict metrics id G (tr ++ [(c, res)]) v'

section Life

variable {strict metrics : Bool} {id : WorkflowRunID} {G : View → Call → Prop}
  {tr : List (Call × Except Err Reply)} {v : View}

/-- **The rule for lives.** A property of views that holds at the start and survives every step
holds throughout. -/
theorem Life.invariant {I : View → Prop} (hstart : I (.initial metrics))
    (hstep : ∀ {c : Call} {ok : Bool} {v v' : View}, I v → G v c → LifeStep strict id c ok v v' →
      I v') (hv : Life strict metrics id G tr v) : I v := by
  induction hv with
  | start => exact hstart
  | step _ hG hs ih => exact hstep ih hG hs

/-- The last step of a life. -/
theorem Life.last {c : Call} {res : Except Err Reply}
    (hv : Life strict metrics id G (tr ++ [(c, res)]) v) :
    ∃ v₀, Life strict metrics id G tr v₀ ∧ G v₀ c ∧ LifeStep strict id c res.isOk v₀ v := by
  -- the index of `hv` must be a variable for the case split
  generalize htr : tr ++ [(c, res)] = calls at hv
  cases hv with
  | start => simp at htr
  | step hv hG hs =>
    obtain ⟨rfl, hlast⟩ := List.append_inj' htr rfl
    obtain ⟨rfl, rfl⟩ := Prod.mk.inj (List.singleton_inj.mp hlast)
    exact ⟨_, hv, hG, hs⟩

end Life

end Governance

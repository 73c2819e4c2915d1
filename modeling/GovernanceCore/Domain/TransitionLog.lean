import GovernanceCore.Domain.Workflow
import GovernanceCore.Framework.History

/-!
# The transition log of a workflow run

The methods of a `WorkflowRun` have a pointer receiver: they change the run in place and return an
error or nothing. `RunM` models exactly that, a state that survives an error, with the assignments
in the order of the source. `RunMethod.exec_eq` says that this is what the functional methods of
`Domain/Workflow.lean` describe, so a method that fails has not assigned anything yet.

Every successful method appends one transition (`Appends`), and along any sequence of calls the log
is a legal path from `created` to the current status (`LegalHistory`). What the path must have
passed is a property of the status it ends in (`Passed`): the table has no way around `routed` and
`policy_checked`, and out of `awaiting_approval` only through `approved`.
-/

namespace Governance

open Framework

/-! ### Methods with a pointer receiver -/

/-- A method on a receiver: what it returns, and the run it leaves behind in either case. -/
abbrev RunM := EStateM Err WorkflowRun

namespace WorkflowStatus

/-- The status that a text stands for. -/
def ofText : String → WorkflowStatus
  | "created" => created
  | "routed" => routed
  | "policy_checked" => policyChecked
  | "running" => running
  | "awaiting_approval" => awaitingApproval
  | "approved" => approved
  | "paused" => paused
  | "completed" => completed
  | "failed" => failed
  | "killed" => killed
  | "quarantined" => quarantined
  | t => other t

/-- Every text is the text of a status, so a method can be given any target. -/
theorem text_ofText (t : String) : (ofText t).text = t := by
  unfold ofText
  split <;> rfl

end WorkflowStatus

namespace Receiver

/-- `transitionTo`, assignment by assignment. -/
def transitionTo (target : WorkflowStatus) (reason : String) (actor : ActorID) (now : Timestamp) :
    RunM Unit := do
  let w ← get
  if w.status.isTerminal then
    throw (errTerminalState.detail ("cannot transition from " ++ w.status.text))
  if ¬ w.status.isValidTransition target then
    throw (errInvalidTransition.detail (w.status.text ++ " → " ++ target.text))
  let transition : WorkflowTransition := ⟨w.status, target, reason, actor, now⟩
  modify fun w => { w with transitions := w.transitions ++ [transition] }
  modify fun w => { w with status := target }
  modify fun w => { w with updatedAt := now }

/-- `MarkRouted`. -/
def markRouted (rdID : RoutingDecisionID) (reason : String) (actor : ActorID) (now : Timestamp) :
    RunM Unit := do
  transitionTo .routed reason actor now
  modify fun w => { w with routingDecisionID := some rdID }

/-- `MarkPolicyChecked`. -/
def markPolicyChecked (pdID : PolicyDecisionID) (actor : ActorID) (now : Timestamp) :
    RunM Unit := do
  transitionTo .policyChecked "" actor now
  modify fun w => { w with policyDecisionID := some pdID }

/-- `Kill`. -/
def kill (reason : String) (actor : ActorID) (now : Timestamp) : RunM Unit := do
  let w ← get
  if w.status.isTerminal then
    throw (errTerminalState.detail ("cannot kill from " ++ w.status.text))
  transitionTo .killed reason actor now

end Receiver

/-- A call of one of the exported methods. -/
inductive RunMethod where
  | markRouted (rdID : RoutingDecisionID) (reason : String) (actor : ActorID) (now : Timestamp)
  | markPolicyChecked (pdID : PolicyDecisionID) (actor : ActorID) (now : Timestamp)
  | transitionTo (target : String) (reason : String) (actor : ActorID) (now : Timestamp)
  | kill (reason : String) (actor : ActorID) (now : Timestamp)
  | pause (reason : String) (actor : ActorID) (now : Timestamp)
  | resume (reason : String) (actor : ActorID) (now : Timestamp)
  | complete (reason : String) (actor : ActorID) (now : Timestamp)
  | fail (reason : String) (actor : ActorID) (now : Timestamp)
  | quarantine (reason : String) (actor : ActorID) (now : Timestamp)

namespace RunMethod

/-- The method on its receiver. -/
def exec : RunMethod → RunM Unit
  | markRouted rdID reason actor now => Receiver.markRouted rdID reason actor now
  | markPolicyChecked pdID actor now => Receiver.markPolicyChecked pdID actor now
  | transitionTo target reason actor now => Receiver.transitionTo (.ofText target) reason actor now
  | kill reason actor now => Receiver.kill reason actor now
  | pause reason actor now => Receiver.transitionTo .paused reason actor now
  | resume reason actor now => Receiver.transitionTo .running reason actor now
  | complete reason actor now => Receiver.transitionTo .completed reason actor now
  | fail reason actor now => Receiver.transitionTo .failed reason actor now
  | quarantine reason actor now => Receiver.transitionTo .quarantined reason actor now

/-- The method as a function. -/
def apply (w : WorkflowRun) : RunMethod → Except Err WorkflowRun
  | markRouted rdID reason actor now => w.markRouted rdID reason actor now
  | markPolicyChecked pdID actor now => w.markPolicyChecked pdID actor now
  | transitionTo target reason actor now => w.transitionTo (.ofText target) reason actor now
  | kill reason actor now => w.kill reason actor now
  | pause reason actor now => w.pause reason actor now
  | resume reason actor now => w.resume reason actor now
  | complete reason actor now => w.complete reason actor now
  | fail reason actor now => w.fail reason actor now
  | quarantine reason actor now => w.quarantine reason actor now

end RunMethod

/-- The outcome of a functional method on a receiver that a failure does not touch. -/
def onReceiver (w : WorkflowRun) :
    Except Err WorkflowRun → EStateM.Result Err WorkflowRun Unit
  | .ok w' => .ok () w'
  | .error e => .error e w

theorem Receiver.transitionTo_run (target : WorkflowStatus) (reason : String) (actor : ActorID)
    (now : Timestamp) (w : WorkflowRun) :
    (Receiver.transitionTo target reason actor now).run w
      = onReceiver w (w.transitionTo target reason actor now) := by
  rw [WorkflowRun.transitionTo, Receiver.transitionTo, EStateM.run_bind, EStateM.run_get]
  by_cases ht : w.status.isTerminal = true
  · simp [ht, onReceiver]
  · by_cases hv : w.status.isValidTransition target = true
    · simp [ht, hv, onReceiver, WorkflowRun.moved]
    · simp [ht, hv, onReceiver]

/-- **The receiver.** A method that fails has assigned nothing; one that succeeds leaves the run
that the functional method returns. -/
theorem RunMethod.exec_eq (w : WorkflowRun) (m : RunMethod) :
    m.exec.run w = onReceiver w (m.apply w) := by
  cases m with
  | transitionTo | pause | resume | complete | fail | quarantine =>
    exact Receiver.transitionTo_run _ _ _ _ w
  | markRouted rdID reason actor now =>
    rw [exec, apply, Receiver.markRouted, WorkflowRun.markRouted, EStateM.run_bind,
      Receiver.transitionTo_run]
    cases w.transitionTo .routed reason actor now <;> rfl
  | markPolicyChecked pdID actor now =>
    rw [exec, apply, Receiver.markPolicyChecked, WorkflowRun.markPolicyChecked, EStateM.run_bind,
      Receiver.transitionTo_run]
    cases w.transitionTo .policyChecked "" actor now <;> rfl
  | kill reason actor now =>
    rw [exec, apply, Receiver.kill, WorkflowRun.kill, EStateM.run_bind, EStateM.run_get]
    by_cases ht : w.status.isTerminal = true
    · simp [ht, onReceiver]
    · simp [ht, Receiver.transitionTo_run]

/-! ### One successful method -/

/-- `w'` is `w` after one transition. -/
structure Appends (w w' : WorkflowRun) (tr : WorkflowTransition) : Prop where
  alive : w.status.isTerminal = false
  legal : w.status.isValidTransition tr.target = true
  source : tr.source = w.status
  target : tr.target = w'.status
  transitions : w'.transitions = w.transitions ++ [tr]
  updatedAt : w'.updatedAt = tr.timestamp
  /-- Identity and origin of the run are not touched. -/
  fixed : w'.id = w.id ∧ w'.taskID = w.taskID ∧ w'.createdAt = w.createdAt ∧
    w'.currentStepIndex = w.currentStepIndex

/-- Moving a run appends a transition, whatever becomes of its references. -/
theorem Appends.of_moved {w : WorkflowRun} {target : WorkflowStatus} {reason : String}
    {actor : ActorID} {now : Timestamp} (halive : w.status.isTerminal = false)
    (hvalid : w.status.isValidTransition target = true) (rdID : Option RoutingDecisionID)
    (pdID : Option PolicyDecisionID) :
    Appends w { w.moved target reason actor now with
      routingDecisionID := rdID, policyDecisionID := pdID }
      ⟨w.status, target, reason, actor, now⟩ :=
  ⟨halive, hvalid, rfl, rfl, rfl, rfl, rfl, rfl, rfl, rfl⟩

theorem Appends.of_transitionTo {w w' : WorkflowRun} {target : WorkflowStatus} {reason : String}
    {actor : ActorID} {now : Timestamp} (h : w.transitionTo target reason actor now = .ok w') :
    Appends w w' ⟨w.status, target, reason, actor, now⟩ := by
  obtain ⟨halive, hvalid, rfl⟩ := WorkflowRun.transitionTo_eq_ok_iff.mp h
  exact .of_moved halive hvalid w.routingDecisionID w.policyDecisionID

theorem RunMethod.apply_appends {w w' : WorkflowRun} {m : RunMethod} (h : m.apply w = .ok w') :
    ∃ tr, Appends w w' tr := by
  cases m with
  | transitionTo | pause | resume | complete | fail | quarantine =>
    exact ⟨_, .of_transitionTo h⟩
  | markRouted rdID reason actor now =>
    obtain ⟨hs, rfl⟩ := WorkflowRun.markRouted_eq_ok_iff.mp h
    exact ⟨_, .of_moved (by rw [hs]; rfl) (by rw [hs]; rfl) (some rdID) w.policyDecisionID⟩
  | markPolicyChecked pdID actor now =>
    obtain ⟨hs, rfl⟩ := WorkflowRun.markPolicyChecked_eq_ok_iff.mp h
    exact ⟨_, .of_moved (by rw [hs]; rfl) (by rw [hs]; rfl) w.routingDecisionID (some pdID)⟩
  | kill reason actor now =>
    obtain ⟨halive, rfl⟩ := WorkflowRun.kill_eq_ok_iff.mp h
    -- A kill is valid from every status that is not terminal, whatever the table says.
    have hvalid : w.status.isValidTransition .killed = true := by
      rw [WorkflowStatus.isValidTransition, if_pos ⟨rfl, by rw [halive]; exact Bool.false_ne_true⟩]
    exact ⟨_, .of_moved halive hvalid w.routingDecisionID w.policyDecisionID⟩

/-! ### The log as a path -/

/-- The statuses a run has gone through, `created` first. -/
def WorkflowRun.path (w : WorkflowRun) : List WorkflowStatus :=
  .created :: w.transitions.map (·.target)

theorem Appends.path_eq {w w' : WorkflowRun} {tr : WorkflowTransition} (h : Appends w w' tr) :
    w'.path = w.path ++ [w'.status] := by
  rw [WorkflowRun.path, h.transitions, List.map_append, ← List.cons_append, ← h.target]
  rfl

/-- The log of a run is a faithful and legal history of its status. -/
structure LegalHistory (w : WorkflowRun) : Prop where
  /-- The first transition leaves `created`, each starts where the one before it has led, and the
  last leads to the status. -/
  chain : w.transitions.map (·.source) ++ [w.status] = w.path
  /-- Every transition is in the table or is a kill. -/
  legal : ∀ tr ∈ w.transitions, tr.source.transitionTable tr.target = true ∨
    tr.target = .killed ∧ tr.source.isTerminal = false
  /-- Nothing comes after a terminal status. -/
  terminal_last : ∀ g x g', w.path = g ++ x :: g' → x.isTerminal = true → g' = []
  /-- A run is running only after it was routed and then policy-checked, and after an approval if
  one was awaited. -/
  gated : ∀ g g', w.path = g ++ .running :: g' → [.routed, .policyChecked].Sublist g ∧
    ∀ a b, g = a ++ .awaitingApproval :: b → .approved ∈ b
  updatedAt : w.updatedAt = (w.transitions.getLast?.map (·.timestamp)).getD w.createdAt

/-- What a path has passed when it ends in a given status. -/
structure Passed (s : WorkflowStatus) (path : List WorkflowStatus) : Prop where
  routed : s = .routed → .routed ∈ path
  checked : s ∈ [.policyChecked, .awaitingApproval, .approved, .running, .paused] →
    [.routed, .policyChecked].Sublist path
  approved : s ∈ [.created, .routed, .policyChecked, .approved, .running, .paused] →
    ∀ a b, path = a ++ .awaitingApproval :: b → .approved ∈ b

theorem Passed.start : Passed .created [.created] where
  routed := nofun
  checked := by simp
  approved := fun _ a b hpath => by
    rcases List.append_eq_singleton_iff.mp hpath.symm with ⟨-, h⟩ | ⟨-, h⟩ <;> cases h

theorem Passed.step {s t : WorkflowStatus} {path : List WorkflowStatus} (h : Passed s path)
    (hvalid : s.isValidTransition t = true) : Passed t (path ++ [t]) where
  routed := fun ht => by rw [ht]; exact List.mem_append_right _ (List.mem_singleton_self _)
  checked := fun ht => by
    have hs := WorkflowStatus.mem_sources (by rintro rfl; simp at ht) hvalid
    by_cases hpc : t = .policyChecked
    · -- from `routed`, which is on the path
      subst hpc
      have hrouted : [WorkflowStatus.routed].Sublist path :=
        List.singleton_sublist.mpr (h.routed (List.mem_singleton.mp hs))
      exact hrouted.append (List.Sublist.refl [WorkflowStatus.policyChecked])
    · have hs' : s ∈ [.policyChecked, .awaitingApproval, .approved, .running, .paused] := by
        revert hs ht hpc
        cases t <;> simp [WorkflowStatus.sources] <;> grind
      exact (h.checked hs').trans (List.sublist_append_left _ _)
  approved := fun ht a b hpath => by
    have hs := WorkflowStatus.mem_sources (by rintro rfl; simp at ht) hvalid
    rcases concat_eq_append_cons_iff.mp hpath with ⟨b₁, rfl, hpath'⟩ | ⟨-, rfl, -⟩
    · by_cases hap : t = .approved
      · exact hap ▸ List.mem_append_right _ (List.mem_singleton_self _)
      · have hs' : s ∈ [.created, .routed, .policyChecked, .approved, .running, .paused] := by
          revert hs ht hap
          cases t <;> simp [WorkflowStatus.sources] <;> grind
        exact List.mem_append_left _ (h.approved hs' a b₁ hpath')
    · simp at ht

/-! ### Any sequence of calls -/

/-- The run after a call, whether the call has failed or not. -/
def WorkflowRun.leftBy (w : WorkflowRun) (m : RunMethod) : WorkflowRun :=
  match m.exec.run w with
  | .ok _ w' => w'
  | .error _ w' => w'

/-- A new run after a sequence of calls. -/
def runAfter (id : WorkflowRunID) (taskID : TaskID) (now : Timestamp) (calls : List RunMethod) :
    WorkflowRun :=
  after WorkflowRun.leftBy (newWorkflowRun id taskID now) calls

theorem WorkflowRun.leftBy_eq (w : WorkflowRun) (m : RunMethod) :
    w.leftBy m = w ∨ ∃ tr, Appends w (w.leftBy m) tr := by
  rw [leftBy, RunMethod.exec_eq]
  cases hm : m.apply w with
  | error e => exact .inl rfl
  | ok w' => exact .inr (RunMethod.apply_appends hm)

theorem LegalHistory.new (id : WorkflowRunID) (taskID : TaskID) (now : Timestamp) :
    LegalHistory (newWorkflowRun id taskID now) where
  chain := rfl
  legal := fun _ htr => absurd htr List.not_mem_nil
  terminal_last := fun g x g' hpath hx => by
    rcases List.append_eq_singleton_iff.mp hpath.symm with ⟨-, h⟩ | ⟨-, h⟩
    · exact (List.cons_eq_cons.mp h).2
    · cases h
  gated := fun g g' hpath => by
    rcases List.append_eq_singleton_iff.mp hpath.symm with ⟨-, h⟩ | ⟨-, h⟩ <;> cases h
  updatedAt := rfl

theorem LegalHistory.step {w w' : WorkflowRun} {tr : WorkflowTransition} (h : LegalHistory w)
    (hpassed : Passed w.status w.path) (ha : Appends w w' tr) : LegalHistory w' where
  chain := by
    rw [ha.path_eq, ha.transitions, List.map_append, List.map_singleton, ha.source, h.chain]
  legal := fun tr' htr' => by
    rw [ha.transitions] at htr'
    rcases List.mem_append.mp htr' with hold | hnew
    · exact h.legal tr' hold
    · have hlegal := ha.legal
      rw [List.mem_singleton.mp hnew, ha.source]
      by_cases hk : tr.target = .killed
      · exact .inr ⟨hk, ha.alive⟩
      · rw [WorkflowStatus.isValidTransition, if_neg fun hc => hk hc.1] at hlegal
        exact .inl hlegal
  terminal_last := fun g x g' hpath hx => by
    rw [ha.path_eq] at hpath
    rcases concat_eq_append_cons_iff.mp hpath with ⟨g₁, -, hpath'⟩ | ⟨-, -, rfl⟩
    · -- the path could only go on if its last status, the run's, is not terminal
      have hnil := h.terminal_last g x g₁ hpath' hx
      rw [← h.chain, hnil] at hpath'
      have hx' := (List.append_inj' hpath' rfl).2
      have halive := ha.alive
      rw [List.head_eq_of_cons_eq hx', hx] at halive
      cases halive
    · rfl
  gated := fun g g' hpath => by
    rw [ha.path_eq] at hpath
    rcases concat_eq_append_cons_iff.mp hpath with ⟨g₁, -, hpath'⟩ | ⟨rfl, hrun, -⟩
    · exact h.gated g g₁ hpath'
    · have hs : w.status ∈ WorkflowStatus.running.sources := by
        rw [← hrun, ← ha.target]
        exact WorkflowStatus.mem_sources (by rw [ha.target, hrun]; decide) ha.legal
      refine ⟨hpassed.checked ?_, hpassed.approved ?_⟩
      · revert hs
        simp [WorkflowStatus.sources]
        grind
      · revert hs
        simp [WorkflowStatus.sources]
        grind
  updatedAt := by
    rw [ha.transitions, List.getLast?_concat, ha.updatedAt]
    rfl

theorem runAfter_legal (id : WorkflowRunID) (taskID : TaskID) (now : Timestamp)
    (calls : List RunMethod) :
    LegalHistory (runAfter id taskID now calls) ∧
      Passed (runAfter id taskID now calls).status (runAfter id taskID now calls).path := by
  refine after_induction (P := fun _ (w : WorkflowRun) => LegalHistory w ∧ Passed w.status w.path)
    ⟨.new id taskID now, .start⟩ ?_ calls
  intro calls w m _ hw
  rcases w.leftBy_eq m with hsame | ⟨tr, ha⟩
  · rwa [hsame]
  · refine ⟨hw.1.step hw.2 ha, ?_⟩
    rw [ha.path_eq, ← ha.target]
    exact hw.2.step ha.legal

/-- **The transition log.** After any sequence of calls on a new run, with any arguments, the log is
a legal history of the status, and of the next call this holds: an error leaves the run as it was,
and a success appends exactly one transition. -/
theorem transition_log_legal (id : WorkflowRunID) (taskID : TaskID) (now : Timestamp)
    (calls : List RunMethod) :
    LegalHistory (runAfter id taskID now calls) ∧
      ∀ m : RunMethod, match m.exec.run (runAfter id taskID now calls) with
        | .error _ w' => w' = runAfter id taskID now calls
        | .ok _ w' => ∃ tr, Appends (runAfter id taskID now calls) w' tr := by
  refine ⟨(runAfter_legal id taskID now calls).1, fun m => ?_⟩
  rw [RunMethod.exec_eq]
  cases hm : m.apply (runAfter id taskID now calls) with
  | error e => rfl
  | ok w' => exact RunMethod.apply_appends hm

end Governance

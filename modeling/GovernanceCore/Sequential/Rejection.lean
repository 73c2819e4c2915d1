import GovernanceCore.Framework.Commit
import GovernanceCore.Lifecycle.View
import GovernanceCore.Sequential.Plan

/-!
# Do rejected calls leave traces?

A call that is made alone and whose repository calls do not fail returns an error because it was
rejected: something is missing, or a transition is not allowed. There is no transaction, so the
order of checks and writes decides what a rejected call leaves behind.

The five calls that control a run check everything before their first write, so they are clean in
the sense of `Framework/Commit.lean` (`rejected_control_has_no_effect`). The calls that store a
decision first and ask the workflow run afterwards are in `Sequential/Leftover.lean`.
-/

namespace Governance

open Framework

/-! ### Answers without an error -/

/-- The operations that leave the store alone. -/
def Op.isRead : Op → Bool
  | .newID _ | .now | .getRelevantContext _ _ | .failureStats | .taskFindByID _
  | .routingFindByTaskID _ | .policyFindByTaskID _ | .workflowFindByID _ | .workflowFindByTaskID _
  | .leaseFindByWorkflowRunID _ | .approvalFindByID _ => true
  | _ => false

theorem exec_isRead {ch : Choice} {s s' : Store} {o : Op} {r : Res o} (ho : o.isRead = true)
    (h : exec ch s o = (r, s')) : s' = s := by
  cases o with
  | newID | now | getRelevantContext | failureStats => exact (Prod.mk.inj h).2.symm
  | taskFindByID | routingFindByTaskID | policyFindByTaskID | workflowFindByID
  | workflowFindByTaskID | leaseFindByWorkflowRunID | approvalFindByID => exact (query_eq h).1
  | _ => cases ho

/-- A repository call succeeds. Other operations cannot fail. -/
def succeeds : (o : Op) → Res o → Bool
  | .taskSave _, r => r.isOk
  | .taskFindByID _, r => r.isOk
  | .routingSave _, r => r.isOk
  | .routingFindByTaskID _, r => r.isOk
  | .policySave _, r => r.isOk
  | .policyFindByTaskID _, r => r.isOk
  | .workflowSave _, r => r.isOk
  | .workflowFindByID _, r => r.isOk
  | .workflowFindByTaskID _, r => r.isOk
  | .workflowUpdate _, r => r.isOk
  | .leaseSave _, r => r.isOk
  | .leaseFindByWorkflowRunID _, r => r.isOk
  | .leaseUpdate _, r => r.isOk
  | .approvalSave _, r => r.isOk
  | .approvalFindByID _, r => r.isOk
  | .approvalUpdate _, r => r.isOk
  | .auditRecord .., r => r.isOk
  | _, _ => true

/-- The writes that succeed unless the repository fails. A lease may be refused by its index. -/
def Op.settles : Op → Bool
  | .leaseSave _ => false
  | o => o.isWrite

section Accepted

variable {strict : Bool} {s s' : Store}

theorem succeeds_of_settles {o : Op} {r : Res o} (ho : o.settles = true)
    (h : governance.Alone (accepts strict) s o r s') : succeeds o r = true := by
  obtain ⟨ch, hex, hok⟩ := h
  -- an insertion under a fresh id and an update can only fail by a broken connection
  cases o with
  | taskSave | routingSave | policySave | workflowSave | approvalSave =>
    obtain ⟨T, -, -, rfl⟩ := inserted_expected hex fun e he => by
      subst he
      exact hok
    rfl
  | workflowUpdate | leaseUpdate | approvalUpdate =>
    obtain ⟨-, rfl⟩ := update_expected hex fun e he => by
      subst he
      exact hok
    rfl
  | _ => cases ho

/-- A lease is stored, or it is refused without an effect. -/
theorem accepted_leaseSave {l : ExecutionLease} {r : Except RepoError Unit}
    (h : governance.Alone (accepts strict) s (.leaseSave l) r s') :
    r.isOk = true ∨ s' = s ∧ ∃ e, r = .error e := by
  obtain ⟨ch, hex, hok⟩ := h
  rcases write_expected hex fun e he => by
    subst he
    exact hok with ⟨-, rfl⟩ | ⟨hs, e, -, he, -⟩
  · exact Or.inl rfl
  · exact Or.inr ⟨hs, e, he⟩

end Accepted

/-! ### Rules -/

section Rules

variable {α β : Type} {ok : (o : Op) → Res o → Bool} {strict : Bool} {s : Store}
  {step : Store → (o : Op) → Res o → Store → Prop} {f : α → UseCase β}

theorem wp_read {Q : Except Err α → Store → Prop} {o : Op} {k : Res o → UseCase α}
    (ho : o.isRead = true)
    (h : ∀ r, governance.Alone ok s o r s → (k r).wp (governance.Alone ok) Q s) :
    (Program.act o k).wp (governance.Alone ok) Q s := by
  intro r s' hstep
  have hs : s' = s := exec_isRead ho hstep.choose_spec.1
  rw [hs] at hstep ⊢
  exact h r hstep

/-! Up to the first write an error may be returned. -/

theorem clean_read {o : Op} {k : Res o → UseCase α} (ho : o.isRead = true)
    (h : ∀ r, governance.Alone ok s o r s → (k r).Clean (governance.Alone ok) s) :
    (Program.act o k).Clean (governance.Alone ok) s :=
  wp_read ho h

theorem clean_orFail {msg : String} {r : Except RepoError α}
    (h : ∀ a, r = .ok a → (f a).Clean step s) : (orFail msg r >>= f).Clean step s :=
  wp_orFail (fun _ _ => rfl) h

theorem clean_orCause {cause : Err} {r : Except RepoError α}
    (h : ∀ a, r = .ok a → (f a).Clean step s) : (orCause cause r >>= f).Clean step s :=
  wp_orCause (fun _ _ => rfl) h

theorem clean_orWrap {msg : String} {r : Except Err α}
    (h : ∀ a, r = .ok a → (f a).Clean step s) : (orWrap msg r >>= f).Clean step s :=
  wp_orWrap (fun _ _ => rfl) h

/-! After a write no error may be returned. -/

theorem succeeds_orFail {msg : String} {r : Except RepoError α} (hr : r.isOk = true)
    (h : ∀ a, r = .ok a → (f a).Succeeds step s) : (orFail msg r >>= f).Succeeds step s := by
  cases r with
  | ok a => exact h a rfl
  | error e => cases hr

theorem succeeds_write {o : Op} {k : Res o → UseCase α} (ho : o.settles = true)
    (h : ∀ r s', succeeds o r = true → (k r).Succeeds (governance.Alone (accepts strict)) s') :
    (Program.act o k).Succeeds (governance.Alone (accepts strict)) s :=
  Program.Succeeds.act fun r s' hstep => h r s' (succeeds_of_settles ho hstep)

/-- The first write. -/
theorem clean_write {o : Op} {k : Res o → UseCase α} (ho : o.settles = true)
    (h : ∀ r s', succeeds o r = true → (k r).Succeeds (governance.Alone (accepts strict)) s') :
    (Program.act o k).Clean (governance.Alone (accepts strict)) s :=
  Program.Clean.act fun r s' hstep => Or.inr (h r s' (succeeds_of_settles ho hstep))

end Rules

/-! ### The calls that control a run -/

section Control

variable {strict : Bool} {s : Store}

theorem startDenied_clean (tID : TaskID) (wf : WorkflowRun) (pd : PolicyDecision)
    (now : Timestamp) :
    (startDenied tID wf pd now).Clean (governance.Alone (accepts strict)) s := by
  refine clean_orWrap fun wf' _ => ?_
  refine clean_write rfl fun r s' hr => succeeds_orFail hr fun _ _ => ?_
  refine Program.Succeeds.act fun _ _ _ => ?_
  refine Program.Succeeds.act fun _ _ _ => ?_
  exact Program.Succeeds.act fun _ _ _ => Program.Succeeds.ret _ _

theorem startAwaiting_clean (tID : TaskID) (wf : WorkflowRun) (pd : PolicyDecision)
    (now : Timestamp) :
    (startAwaiting tID wf pd now).Clean (governance.Alone (accepts strict)) s := by
  refine clean_orWrap fun wf' _ => ?_
  refine clean_read rfl fun id _ => ?_
  refine clean_orWrap fun req _ => ?_
  refine clean_write rfl fun r s' hr => succeeds_orFail hr fun _ _ => ?_
  refine succeeds_write rfl fun r s' hr => succeeds_orFail hr fun _ _ => ?_
  refine Program.Succeeds.act fun _ _ _ => ?_
  exact Program.Succeeds.act fun _ _ _ => Program.Succeeds.ret _ _

/-- The lease may be refused, and nothing has been written before it. -/
theorem startRunning_clean (tID : TaskID) (wf : WorkflowRun) (now : Timestamp) :
    (startRunning tID wf now).Clean (governance.Alone (accepts strict)) s := by
  refine clean_orWrap fun wf' _ => ?_
  refine clean_read rfl fun id _ => ?_
  refine Program.Clean.act fun r s' hstep => ?_
  rcases accepted_leaseSave hstep with hr | ⟨hs, e, rfl⟩
  · refine Or.inr (succeeds_orFail hr fun _ _ => ?_)
    refine succeeds_write rfl fun r s' hr => succeeds_orFail hr fun _ _ => ?_
    refine Program.Succeeds.act fun _ _ _ => ?_
    exact Program.Succeeds.act fun _ _ _ => Program.Succeeds.ret _ _
  · exact Or.inl ⟨hs, Program.Clean.fail _ _⟩

theorem startWorkflow_clean (taskID : TaskID) :
    (startWorkflow taskID).Clean (governance.Alone (accepts strict)) s := by
  refine clean_read rfl fun r _ => clean_orFail fun tk _ => ?_
  refine clean_read rfl fun r _ => clean_orCause fun _ _ => ?_
  refine clean_read rfl fun r _ => clean_orCause fun pd _ => ?_
  refine clean_read rfl fun r _ => clean_orCause fun wf _ => ?_
  refine clean_read rfl fun now _ => ?_
  unfold startAs
  split
  · exact startDenied_clean tk.id wf pd now
  · exact startAwaiting_clean tk.id wf pd now
  · exact startRunning_clean tk.id wf now
  · exact startRunning_clean tk.id wf now
  · exact Program.Clean.fail _ s

/-- The step that decides what an attempt does to the run has no effect. -/
theorem attemptTransition_clean {α : Type} {wf : WorkflowRun} {lease : ExecutionLease}
    {status : AttemptStatus} {now : Timestamp} {f : WorkflowRun → UseCase α}
    {step : Store → (o : Op) → Res o → Store → Prop} (h : ∀ wf', (f wf').Clean step s) :
    (attemptTransition wf lease status now >>= f).Clean step s := by
  unfold attemptTransition
  cases status with
  | success => exact clean_orWrap fun wf' _ => h wf'
  | failure =>
    dsimp only
    split
    · exact h wf
    · exact clean_orWrap fun wf' _ => h wf'
  | retry => exact h wf
  | other => exact h wf

/-- What is reported at the end of an attempt returns no error. -/
theorem attemptReports_succeed {step : Store → (o : Op) → Res o → Store → Prop}
    (wf : WorkflowRun) (ctx : AuditContext) (result : AttemptResult) (now : Timestamp) :
    (do
      let _ ← Audit.record systemActor "attempt_registered" result.status.text ctx none (some wf.id)
      recordQuarantine wf ctx
      announceTermination wf
      reportFailure result
      observeBreaker result now
      return wf : UseCase WorkflowRun).Succeeds step s := by
  refine Program.Succeeds.bind ?_ fun _ s => Program.Succeeds.bind ?_ fun _ s =>
    Program.Succeeds.bind ?_ fun _ s => Program.Succeeds.bind ?_ fun _ s =>
    Program.Succeeds.bind ?_ fun _ s => Program.Succeeds.ret _ _
  · exact Program.Succeeds.act fun _ _ _ => Program.Succeeds.ret _ _
  · unfold recordQuarantine
    split
    · exact Program.Succeeds.act fun _ _ _ => Program.Succeeds.ret _ _
    · exact Program.Succeeds.ret _ _
  · unfold announceTermination
    split
    · refine Program.Succeeds.act fun _ _ _ => ?_
      exact Program.Succeeds.act fun _ _ _ => Program.Succeeds.ret _ _
    · exact Program.Succeeds.ret _ _
  · unfold reportFailure
    split
    · exact Program.Succeeds.act fun _ _ _ => Program.Succeeds.ret _ _
    · exact Program.Succeeds.ret _ _
  · unfold observeBreaker
    split
    · refine Program.Succeeds.act fun tr _ _ => ?_
      cases tr with
      | none => exact Program.Succeeds.ret _ _
      | some t => exact Program.Succeeds.act fun _ _ _ => Program.Succeeds.ret _ _
    · exact Program.Succeeds.ret _ _

theorem registerAttempt_clean (id : WorkflowRunID) (result : AttemptResult) :
    (registerAttempt id result).Clean (governance.Alone (accepts strict)) s := by
  refine clean_read rfl fun r _ => clean_orFail fun wf _ => ?_
  split
  · exact Program.Clean.fail _ s
  · refine clean_orWrap fun _ _ => ?_
    refine clean_read rfl fun r _ => clean_orFail fun lease _ => ?_
    refine clean_orWrap fun lease _ => ?_
    refine clean_read rfl fun now _ => ?_
    refine attemptTransition_clean fun wf' => ?_
    refine clean_write rfl fun r s' hr => succeeds_orFail hr fun _ _ => ?_
    refine succeeds_write rfl fun r s' hr => succeeds_orFail hr fun _ _ => ?_
    exact attemptReports_succeed wf' _ result now

theorem pauseWorkflow_clean (id : WorkflowRunID) (reason : String) (actor : ActorID) :
    (pauseWorkflow id reason actor).Clean (governance.Alone (accepts strict)) s := by
  refine clean_read rfl fun r _ => clean_orFail fun wf _ => ?_
  refine clean_read rfl fun now _ => clean_orWrap fun wf' _ => ?_
  refine clean_write rfl fun r s' hr => succeeds_orFail hr fun _ _ => ?_
  exact Program.Succeeds.act fun _ _ _ => Program.Succeeds.ret _ _

theorem resumeWorkflow_clean (id : WorkflowRunID) (reason : String) (actor : ActorID) :
    (resumeWorkflow id reason actor).Clean (governance.Alone (accepts strict)) s := by
  refine clean_read rfl fun r _ => clean_orFail fun wf _ => ?_
  refine clean_read rfl fun r _ => clean_orFail fun lease _ => ?_
  split
  · refine clean_read rfl fun now _ => clean_orWrap fun wf' _ => ?_
    refine clean_write rfl fun r s' hr => succeeds_orFail hr fun _ _ => ?_
    refine Program.Succeeds.act fun _ _ _ => ?_
    exact Program.Succeeds.act fun _ _ _ => Program.Succeeds.ret _ _
  · exact Program.Clean.fail _ s

/-- Every error on the way to a revoked lease is dropped. -/
theorem revokeLease_succeeds {step : Store → (o : Op) → Res o → Store → Prop}
    (id : WorkflowRunID) : (revokeLease id).Succeeds step s := by
  refine Program.Succeeds.act fun (r : Except RepoError ExecutionLease) s' _ => ?_
  cases r with
  | error e => exact Program.Succeeds.ret _ _
  | ok lease =>
    dsimp only [bind, Program.bind]
    cases lease.revoke with
    | error e => exact Program.Succeeds.ret _ _
    | ok revoked => exact Program.Succeeds.act fun _ _ _ => Program.Succeeds.ret _ _

theorem killWorkflow_clean (id : WorkflowRunID) (reason : String) (actor : ActorID) :
    (killWorkflow id reason actor).Clean (governance.Alone (accepts strict)) s := by
  refine clean_read rfl fun r _ => clean_orFail fun wf _ => ?_
  refine clean_read rfl fun now _ => clean_orWrap fun wf' _ => ?_
  -- the lease may be the first row to be written, or the run
  refine Program.Succeeds.clean (Program.Succeeds.bind (revokeLease_succeeds id) fun _ s' => ?_)
  refine succeeds_write rfl fun r s' hr => succeeds_orFail hr fun _ _ => ?_
  refine Program.Succeeds.act fun _ _ _ => ?_
  refine Program.Succeeds.act fun _ _ _ => ?_
  exact Program.Succeeds.act fun _ _ _ => Program.Succeeds.ret _ _

end Control

/-- `StartWorkflow`, `RegisterAttempt`, `PauseWorkflow`, `ResumeWorkflow` and `KillWorkflow`. -/
def Call.controlsRun : Call → Bool
  | .startWorkflow _ | .registerAttempt _ _ | .pauseWorkflow _ _ _ | .resumeWorkflow _ _ _
  | .killWorkflow _ _ _ => true
  | _ => false

/-- **Rejected control calls have no effect.** Whatever the store, the call and its arguments: when
no repository call fails other than by finding nothing or by refusing a second lease, a call that
returns an error leaves the whole store as it was, with everything that it sends and observes. -/
theorem rejected_control_has_no_effect (c : Call) (hc : c.controlsRun = true) {s s' : Store}
    {e : Err} (hrun : c.body.Runs (governance.Alone (accepts false)) s (.error e) s') : s' = s := by
  refine Program.Clean.runs ?_ hrun
  cases c with
  | startWorkflow taskID => exact (startWorkflow_clean taskID).map
  | registerAttempt id result => exact (registerAttempt_clean id result).map
  | pauseWorkflow id reason actor => exact (pauseWorkflow_clean id reason actor).map
  | resumeWorkflow id reason actor => exact (resumeWorkflow_clean id reason actor).map
  | killWorkflow id reason actor => exact (killWorkflow_clean id reason actor).map
  | _ => cases hc

/-- A run that has been checked and not started cannot be paused. -/
theorem rejected_pause_has_no_effect :
    ∃ s e s', governance.Reachable (Store.empty true) s ∧ s.statuses = [.policyChecked] ∧
      (Call.pauseWorkflow firstRun "later" systemActor).controlsRun = true ∧
      (Call.pauseWorkflow firstRun "later" systemActor).body.Runs
        (governance.Alone (accepts false)) s (.error e) s' ∧ s' = s := by
  have hplay : ((carryOut (checkedSchedule "edit")).bind fun p =>
      ((Call.pauseWorkflow firstRun "later" systemActor).body.eval governance (accepts false)
        [scheduleChoice 'e' 0, scheduleChoice 'e' 1] p.store).map
          fun x => (p.store.statuses, x.1.isOk)) = some ([.policyChecked], false) := by
    decide +kernel
  obtain ⟨p, hp, hrest⟩ := Option.bind_eq_some_iff.mp hplay
  obtain ⟨⟨res, s'⟩, heval, hresult⟩ := Option.map_eq_some_iff.mp hrest
  obtain ⟨hstatuses, hres⟩ := Prod.mk.inj hresult
  cases res with
  | ok reply => cases hres
  | error e =>
    have hrun := Program.eval_runs heval
    exact ⟨p.store, e, s', ⟨p, carryOut_reach hp, rfl⟩, hstatuses, rfl, hrun,
      rejected_control_has_no_effect _ rfl hrun⟩

end Governance

import GovernanceCore.Framework.LostWrite
import GovernanceCore.Sequential.Steady

/-!
# What the opening calls write

`StartWorkflow` and `ResolveApproval` decide whether a run may execute. They write up to three rows,
one after the other, without a transaction; when one of the writes fails the call returns its error.

What such a call is about to write can be told from the governed tables before it starts: this is
its plan (`Opening.plan`), a list of writes up to ids and times. `Opening.performs` says that the
call makes the planned writes in order and gives up at the first that fails, and that it fails when
there is no plan.
-/

namespace Governance

open Framework

/-! ### One lost write -/

/-- An operation that fails without an effect. -/
def Lost : Store → (o : Op) → Res o → Store → Prop :=
  fun s o r s' => ∃ ch, ch.fault = .lost ∧ exec ch s o = (r, s')

/-- The environment that picks the rows of unordered queries as `picks` says. -/
def picking (picks : Op → Nat) : Environment := fun o ch => ch.pick = picks o

/-- The steps of a call whose write number `k` is lost and which is steady otherwise. -/
def LosesWrite (picks : Op → Nat) (k : Nat) : Store × Nat → (o : Op) → Res o → Store × Nat → Prop :=
  lostAt (Steady (picking picks)) Lost Op.isWrite k

/-- A lost operation, seen through the governed tables. -/
def CoreLost : Core → (o : Op) → Res o → Core → Prop :=
  fun c o r c' => ∃ s s', s.core = c ∧ s'.core = c' ∧ Lost s o r s'

theorem picking_open (picks : Op → Nat) : (picking picks).Open :=
  fun o text => ⟨{ pick := picks o, id := text }, rfl, rfl, rfl⟩

/-! ### What lookups and lost writes answer -/

section Steps

variable {picks : Op → Nat} {c c' : Core}

/-- The answer of a lookup. -/
def found {α : Type} (what : String) : Option α → Except RepoError α
  | some a => .ok a
  | none => .error (.notFound what)

theorem query_none {α : Type} {ch : Choice} {s : Store} {what : String} {row : Option α}
    (hfault : ch.fault = .none) : query ch s what row = (found what row, s) := by
  cases row <;> simp only [query, hfault, found]

/-- The answer of a lookup of a task, of a decision, of a run or of a request. -/
def Core.answer (picks : Op → Nat) (c : Core) : (o : Op) → Option (Res o)
  | .taskFindByID id => some (found "task" (c.tasks.find id))
  | .routingFindByTaskID id => some (found "routing decision"
      (pick c.routingDecisions.rows (fun d => d.taskID = id) (picks (.routingFindByTaskID id))))
  | .policyFindByTaskID id => some (found "policy decision"
      ((pick c.policyDecisions.rows (fun d => d.taskID = id) (picks (.policyFindByTaskID id))).map
        PolicyDecisionRow.scan))
  | .workflowFindByID id => some (found "workflow run" (c.workflowRuns.find id))
  | .workflowFindByTaskID id => some (found "workflow run"
      (pick c.workflowRuns.rows (fun w => w.taskID = id) (picks (.workflowFindByTaskID id))))
  | .approvalFindByID id => some (found "approval request" (c.approvalRequests.find id))
  | _ => none

theorem CoreStep.answer {o : Op} {r a : Res o} (h : CoreStep (picking picks) c o r c')
    (ha : c.answer picks o = some a) : r = a := by
  obtain ⟨s, s', rfl, rfl, ch, hfault, -, hpick, hex⟩ := h
  change ch.pick = picks o at hpick
  cases o with
  | taskFindByID | routingFindByTaskID | policyFindByTaskID | workflowFindByID
  | workflowFindByTaskID | approvalFindByID =>
    simp only [exec, hpick, query_none hfault] at hex
    rw [← (Prod.mk.inj hex).1]
    exact Option.some.inj ha
  | _ => cases ha

/-- What a write answers when it is lost. -/
def Op.lostAnswer : (o : Op) → Option (Res o)
  | .taskSave _ => some (.error (.unavailable "inserting task"))
  | .routingSave _ => some (.error (.unavailable "inserting routing decision"))
  | .policySave _ => some (.error (.unavailable "inserting policy decision"))
  | .workflowSave _ => some (.error (.unavailable "inserting workflow run"))
  | .workflowUpdate _ => some (.error (.unavailable "updating workflow run"))
  | .leaseSave _ => some (.error (.unavailable "inserting execution lease"))
  | .leaseUpdate _ => some (.error (.unavailable "updating execution lease"))
  | .approvalSave _ => some (.error (.unavailable "inserting approval request"))
  | .approvalUpdate _ => some (.error (.unavailable "updating approval request"))
  | _ => none

theorem Op.isWrite_of_lostAnswer {o : Op} {a : Res o} (h : o.lostAnswer = some a) :
    o.isWrite = true := by
  cases o <;> first | rfl | cases h

theorem CoreLost.answer {o : Op} {r a : Res o} (h : CoreLost c o r c')
    (ha : o.lostAnswer = some a) : r = a ∧ c' = c := by
  obtain ⟨s, s', rfl, rfl, ch, hfault, hex⟩ := h
  cases o with
  | taskSave | routingSave | policySave | workflowSave | workflowUpdate | leaseSave | leaseUpdate
  | approvalSave | approvalUpdate =>
    simp only [exec, write, hfault] at hex
    obtain ⟨rfl, rfl⟩ := Prod.mk.inj hex
    exact ⟨Option.some.inj ha, rfl⟩
  | _ => cases ha

end Steps

/-! ### Plans -/

/-- A write of a row, up to its ids and times. -/
inductive RowWrite where
  | resolve (id : ApprovalRequestID) (status : ApprovalStatus)
  | ask (run : WorkflowRunID)
  | lease (run : WorkflowRunID)
  | move (run : WorkflowRunID) (status : WorkflowStatus)
  deriving DecidableEq, Repr

/-- What the write does to the governed tables. -/
def RowWrite.Effect : RowWrite → Core → Core → Prop
  | .resolve id status, c, c' => ∃ a : ApprovalRequest, a.id = id ∧ a.status = status ∧
      c' = c.updateApproval a
  | .ask run, c, c' => ∃ (a : ApprovalRequest) (T : Table ApprovalRequest.id),
      a.workflowRunID = run ∧ a.status = .pending ∧ T.rows = c.approvalRequests.rows ++ [a] ∧
      c' = { c with approvalRequests := T }
  | .lease run, c, c' => ∃ (l : ExecutionLease)
      (T : IndexedTable ExecutionLease.id ExecutionLease.workflowRunID),
      l.workflowRunID = run ∧ l.status = .active ∧ T.rows = c.executionLeases.rows ++ [l] ∧
      c' = { c with executionLeases := T }
  | .move run status, c, c' => ∃ w : WorkflowRun, w.id = run ∧ w.status = status ∧
      c' = c.updateWorkflow w

/-- `TransitionTo` accepts the target. -/
def WorkflowStatus.admits (source target : WorkflowStatus) : Bool :=
  !source.isTerminal && source.isValidTransition target

/-- A run gets its lease and moves to running, unless it has a lease already. -/
def Core.leasePlan (c : Core) (run : WorkflowRunID) : Option (List RowWrite) :=
  if (c.executionLeases.lookup run).isNone then some [.lease run, .move run .running] else none

/-- What `StartWorkflow` has read when it decides: of several decisions and runs of a task, one. -/
def Core.startReads (picks : Op → Nat) (c : Core) (taskID : TaskID) :
    Option (PolicyDecision × WorkflowRun) :=
  match c.tasks.find taskID,
    pick c.routingDecisions.rows (fun d => d.taskID = taskID) (picks (.routingFindByTaskID taskID)),
    pick c.policyDecisions.rows (fun d => d.taskID = taskID) (picks (.policyFindByTaskID taskID)),
    pick c.workflowRuns.rows (fun w => w.taskID = taskID) (picks (.workflowFindByTaskID taskID))
  with
  | some _, some _, some pd, some wf => some (pd.scan, wf)
  | _, _, _, _ => none

/-- What `StartWorkflow` writes for a run. -/
def Core.startPlan (c : Core) (pd : PolicyDecision) (wf : WorkflowRun) : Option (List RowWrite) :=
  match pd.outcome with
  | .deny => if wf.status.admits .failed then some [.move wf.id .failed] else none
  | .requireApproval =>
    if wf.status.admits .awaitingApproval then
      if isBlank pd.reason then none else some [.ask wf.id, .move wf.id .awaitingApproval]
    else none
  | .allow | .allowWithConstraints =>
    if wf.status.admits .running then c.leasePlan wf.id else none
  | .undeclared _ _ => none

/-- What `ResolveApproval` writes for a run. -/
def Core.movePlan (c : Core) (wf : WorkflowRun) (approved : Bool) : Option (List RowWrite) :=
  if approved then if wf.status.admits .approved then c.leasePlan wf.id else none
  else if wf.status.admits .failed then some [.move wf.id .failed] else none

/-- What `ResolveApproval` writes: the request first, if it is pending. -/
def Core.resolvePlan (c : Core) (input : ResolveApprovalInput) : Option (List RowWrite) :=
  match c.approvalRequests.find input.approvalRequestID with
  | some req =>
    if req.status = .pending then
      ((c.workflowRuns.find req.workflowRunID).bind fun wf => c.movePlan wf input.approved).map
        (.resolve req.id (if input.approved then .approved else .denied) :: ·)
    else none
  | none => none

/-- The calls that open a run: they decide whether it may execute. -/
inductive Opening where
  | start (taskID : TaskID)
  | resolve (input : ResolveApprovalInput)

def Opening.call : Opening → Call
  | .start taskID => .startWorkflow taskID
  | .resolve input => .resolveApproval input

/-- What the call writes, or nothing when it fails. -/
def Opening.plan (picks : Op → Nat) (c : Core) : Opening → Option (List RowWrite)
  | .start taskID => (c.startReads picks taskID).bind fun (pd, wf) => c.startPlan pd wf
  | .resolve input => c.resolvePlan input

/-! ### A call does what is planned -/

/-- A call performs a plan: it makes the planned writes, or it fails when there is no plan. -/
def Performs {α : Type} (picks : Op → Nat) (plan : Option (List RowWrite)) (p : UseCase α)
    (c : Core) : Prop :=
  match plan with
  | some ws => p.Writes (CoreStep (picking picks)) CoreLost Op.isWrite (ws.map RowWrite.Effect) c
  | none => Gives (picking picks) (fun res _ => ∃ e, res = .error e) p c

namespace Performs

variable {α : Type} {picks : Op → Nat} {plan : Option (List RowWrite)} {c : Core}

theorem fail {e : Err} : Performs picks none (.fail e : UseCase α) c := ⟨e, rfl⟩

theorem quiet {o : Op} {f : Res o → UseCase α} (ho : o.isWrite = false)
    (h : ∀ r, CoreStep (picking picks) c o r c → Performs picks plan (f r) c) :
    Performs picks plan (.act o f) c := by
  cases plan with
  | none =>
    intro r c' hr
    obtain rfl := hr.quiet ho
    exact h r hr
  | some ws =>
    refine Program.Writes.read ho fun r c' hr => ?_
    obtain rfl := hr.quiet ho
    exact ⟨rfl, h r hr⟩

/-- A lookup has one answer. -/
theorem read {o : Op} {f : Res o → UseCase α} {a : Res o} (ho : o.isWrite = false)
    (ha : c.answer picks o = some a) (h : Performs picks plan (f a) c) :
    Performs picks plan (.act o f) c := by
  refine quiet ho fun r hr => ?_
  rw [hr.answer ha]
  exact h

/-- A write, planned or not: a call without a plan may still have made it. -/
theorem write (plan : Option (List RowWrite)) {o : Op} {f : Res o → UseCase α} {a : Res o}
    {w : RowWrite} (ha : o.lostAnswer = some a) (hfail : ∃ e, f a = .fail e)
    (h : ∀ r c', CoreStep (picking picks) c o r c' →
      w.Effect c c' ∧ Performs picks plan (f r) c') :
    Performs picks (plan.map (w :: ·)) (.act o f) c := by
  cases plan with
  | none => exact fun r c' hr => (h r c' hr).2
  | some ws =>
    refine Program.Writes.write (Op.isWrite_of_lostAnswer ha) h fun r c' hr => ?_
    obtain ⟨rfl, rfl⟩ := hr.answer ha
    exact ⟨rfl, hfail⟩

/-- A write that is refused. -/
theorem refused {o : Op} {f : Res o → UseCase α}
    (h : ∀ r c', CoreStep (picking picks) c o r c' → ∃ e, f r = .fail e) :
    Performs picks none (.act o f) c := by
  intro r c' hr
  obtain ⟨e, he⟩ := h r c' hr
  rw [he]
  exact ⟨e, rfl⟩

/-- The last write of both calls: the run moves. -/
theorem move {w : WorkflowRun} {msg : String} {f : Unit → UseCase α}
    (h : ∀ c', Performs picks (some []) (f ()) c') :
    Performs picks (some [.move w.id w.status]) (WfRepo.update w >>= fun r => orFail msg r >>= f)
      c := by
  refine write (some []) rfl ⟨_, rfl⟩ fun r c' hr => ?_
  obtain ⟨rfl, rfl⟩ := hr.workflowUpdate
  exact ⟨⟨w, rfl, rfl, rfl⟩, h _⟩

/-- Both calls make a lease and let the run move. -/
theorem leaseAndMove {w : WorkflowRun} (hw : w.status = .running) {now : Timestamp}
    {msg msg' : String} {f : ExecutionLease → UseCase α}
    (h : ∀ lease c', Performs picks (some []) (f lease) c') :
    Performs picks (c.leasePlan w.id) (createLease w.id now >>= fun lease =>
      LeaseRepo.save lease >>= fun r => orFail msg r >>= fun _ =>
      WfRepo.update w >>= fun r => orFail msg' r >>= fun _ => f lease) c := by
  refine quiet rfl fun id hid => ?_
  unfold Core.leasePlan
  by_cases hlease : (c.executionLeases.lookup w.id).isNone = true
  · rw [if_pos hlease]
    have hnew : c.executionLeases.toTable.find id = none :=
      Table.find_eq_none_iff.mpr fun l hl hid' =>
        (hid.fresh.lease l hl).1 (congrArg ID.text hid')
    refine write (some [.move w.id .running]) rfl ⟨_, rfl⟩ fun r c' hr => ?_
    obtain ⟨rfl, T, hT, rfl⟩ := hr.leaseSave hnew (Option.isNone_iff_eq_none.mp hlease)
    refine ⟨⟨_, T, rfl, rfl, hT, rfl⟩, ?_⟩
    rw [← hw]
    exact move (h _)
  · -- The index on the run refuses a second lease.
    rw [if_neg hlease]
    refine refused fun r c' hr => ?_
    obtain ⟨e, rfl⟩ := hr.leaseSave_conflict fun hnone => hlease (by rw [hnone]; rfl)
    exact ⟨_, rfl⟩

end Performs

section Calls

variable {picks : Op → Nat} {c : Core}

theorem transitionTo_of_admits {w : WorkflowRun} {target : WorkflowStatus}
    (h : w.status.admits target = true) (reason : String) (actor : ActorID) (now : Timestamp) :
    w.transitionTo target reason actor now = .ok (w.moved target reason actor now) := by
  simp only [WorkflowStatus.admits, Bool.and_eq_true, Bool.not_eq_true'] at h
  exact WorkflowRun.transitionTo_eq_ok_iff.mpr ⟨h.1, h.2, rfl⟩

theorem transitionTo_of_not_admits {w : WorkflowRun} {target : WorkflowStatus}
    (h : w.status.admits target ≠ true) (reason : String) (actor : ActorID) (now : Timestamp) :
    ∃ e, w.transitionTo target reason actor now = .error e := by
  cases hmove : w.transitionTo target reason actor now with
  | error e => exact ⟨e, rfl⟩
  | ok w' =>
    obtain ⟨hterminal, hvalid, -⟩ := WorkflowRun.transitionTo_eq_ok_iff.mp hmove
    exact absurd (by rw [WorkflowStatus.admits, hterminal, hvalid]; rfl) h

/-- A transition, accepted or refused. -/
theorem Performs.transition {α : Type} {w : WorkflowRun} {target : WorkflowStatus} {msg : String}
    {reason : String} {actor : ActorID} {now : Timestamp} {plan : Option (List RowWrite)}
    {f : WorkflowRun → UseCase α}
    (h : w.status.admits target = true →
      Performs picks plan (f (w.moved target reason actor now)) c) :
    Performs picks (if w.status.admits target then plan else none)
      (orWrap msg (w.transitionTo target reason actor now) >>= f) c := by
  by_cases hadmits : w.status.admits target = true
  · rw [if_pos hadmits, transitionTo_of_admits hadmits]
    exact h hadmits
  · obtain ⟨e, he⟩ := transitionTo_of_not_admits hadmits reason actor now
    rw [if_neg hadmits, he]
    exact fail

theorem startDenied_performs (tID : TaskID) (wf : WorkflowRun) (pd : PolicyDecision)
    (now : Timestamp) : Performs picks
      (if wf.status.admits .failed then some [.move wf.id .failed] else none)
      (startDenied tID wf pd now) c := by
  refine Performs.transition fun _ => ?_
  refine Performs.move fun c' => ?_
  refine Performs.quiet rfl fun _ _ => ?_
  exact Performs.quiet rfl fun _ _ => Performs.quiet rfl fun _ _ => rfl

/-- A request is made and stored. -/
theorem Performs.ask {α : Type} {id : ApprovalRequestID} {tID : TaskID} {run : WorkflowRunID}
    {reason msg msg' : String} {approver : ApproverSpec} {now : Timestamp}
    (plan : Option (List RowWrite)) {f : ApprovalRequest → UseCase α}
    (hid : c.approvalRequests.find id = none)
    (h : ∀ req c', Performs picks plan (f req) c') :
    Performs picks (if isBlank reason then none else plan.map (.ask run :: ·))
      (orWrap msg (newApprovalRequest id tID run reason approver none now) >>= fun req =>
        ApprovalRepo.save req >>= fun r => orFail msg' r >>= fun _ => f req) c := by
  unfold newApprovalRequest
  by_cases hreason : isBlank reason = true
  · rw [if_pos hreason, if_pos hreason]
    exact fail
  · rw [if_neg hreason, if_neg hreason]
    refine write plan rfl ⟨_, rfl⟩ fun r c' hr => ?_
    obtain ⟨rfl, T, hT, rfl⟩ := hr.approvalSave hid
    exact ⟨⟨_, T, rfl, rfl, hT, rfl⟩, h _ _⟩

theorem startAwaiting_performs (tID : TaskID) (wf : WorkflowRun) (pd : PolicyDecision)
    (now : Timestamp) : Performs picks
      (if wf.status.admits .awaitingApproval then
        if isBlank pd.reason then none else some [.ask wf.id, .move wf.id .awaitingApproval]
      else none) (startAwaiting tID wf pd now) c := by
  refine Performs.transition fun _ => ?_
  refine Performs.quiet rfl fun id hid => ?_
  refine Performs.ask (some [.move wf.id .awaitingApproval]) ?_ fun req c' => ?_
  · exact Table.find_eq_none_iff.mpr fun a ha hid' =>
      (hid.fresh.approval a ha).1 (congrArg ID.text hid')
  · refine Performs.move fun c' => ?_
    exact Performs.quiet rfl fun _ _ => Performs.quiet rfl fun _ _ => rfl

theorem startRunning_performs (tID : TaskID) (wf : WorkflowRun) (now : Timestamp) :
    Performs picks (if wf.status.admits .running then c.leasePlan wf.id else none)
      (startRunning tID wf now) c := by
  refine Performs.transition fun _ => ?_
  refine Performs.leaseAndMove (w := wf.moved _ _ _ _) rfl fun lease c' => ?_
  exact Performs.quiet rfl fun _ _ => Performs.quiet rfl fun _ _ => rfl

/-- **`StartWorkflow` does what is planned.** -/
theorem startWorkflow_performs (taskID : TaskID) :
    Performs picks ((c.startReads picks taskID).bind fun (pd, wf) => c.startPlan pd wf)
      (startWorkflow taskID) c := by
  unfold Core.startReads
  -- A lookup without result ends the call, and with it the plan.
  refine Performs.read rfl rfl ?_
  cases c.tasks.find taskID with
  | none => exact Performs.fail
  | some tk =>
    refine Performs.read rfl rfl ?_
    cases pick c.routingDecisions.rows _ _ with
    | none => exact Performs.fail
    | some rd =>
      refine Performs.read rfl rfl ?_
      cases pick c.policyDecisions.rows _ _ with
      | none => exact Performs.fail
      | some row =>
        refine Performs.read rfl rfl ?_
        cases pick c.workflowRuns.rows _ _ with
        | none => exact Performs.fail
        | some wf =>
          refine Performs.quiet rfl fun (now : Timestamp) _ => ?_
          change Performs picks (c.startPlan row.scan wf) (startAs tk.id wf row.scan now) c
          unfold Core.startPlan startAs
          cases row.scan.outcome with
          | deny => exact startDenied_performs ..
          | requireApproval => exact startAwaiting_performs ..
          | allow => exact startRunning_performs ..
          | allowWithConstraints => exact startRunning_performs ..
          | undeclared code h => exact Performs.fail

section Resolve

variable {α : Type} {f : Unit → UseCase α}

theorem resumeApproved_performs (wf : WorkflowRun) (by' : ActorID) (now : Timestamp)
    (h : ∀ c', Performs picks (some []) (f ()) c') :
    Performs picks (if wf.status.admits .approved then c.leasePlan wf.id else none)
      (resumeApproved wf by' now >>= f) c := by
  unfold resumeApproved
  simp only [Program.bind_assoc]
  refine Performs.transition fun _ => ?_
  -- a run that is approved may always start
  rw [transitionTo_of_admits (by rfl)]
  refine Performs.leaseAndMove (w := (wf.moved _ _ _ _).moved _ _ _ _) rfl fun lease c' => ?_
  exact Performs.quiet rfl fun _ _ => h c'

theorem failDenied_performs (wf : WorkflowRun) (by' : ActorID) (reason : String) (now : Timestamp)
    (h : ∀ c', Performs picks (some []) (f ()) c') :
    Performs picks (if wf.status.admits .failed then some [.move wf.id .failed] else none)
      (failDenied wf by' reason now >>= f) c := by
  unfold failDenied
  simp only [Program.bind_assoc]
  refine Performs.transition fun _ => ?_
  exact Performs.move fun c' => Performs.quiet rfl fun _ _ => h c'

theorem moveResolved_performs (wf : WorkflowRun) (input : ResolveApprovalInput) (now : Timestamp)
    (h : ∀ c', Performs picks (some []) (f ()) c') :
    Performs picks (c.movePlan wf input.approved) (moveResolved wf input now >>= f) c := by
  unfold Core.movePlan moveResolved
  cases input.approved with
  | true => exact resumeApproved_performs wf _ now h
  | false => exact failDenied_performs wf _ _ now h

theorem resolveRequest_of_pending {req : ApprovalRequest} (h : req.status = .pending)
    (input : ResolveApprovalInput) (now : Timestamp) :
    ∃ resolved, resolveRequest req input now = .ret resolved ∧ resolved.id = req.id ∧
      resolved.workflowRunID = req.workflowRunID ∧
      resolved.status = if input.approved then .approved else .denied := by
  unfold resolveRequest
  cases input.approved with
  | true =>
    rw [ApprovalRequest.approve, ApprovalRequest.resolve_eq_ok_iff.mpr ⟨h, rfl⟩]
    exact ⟨_, rfl, rfl, rfl, rfl⟩
  | false =>
    rw [ApprovalRequest.deny, ApprovalRequest.resolve_eq_ok_iff.mpr ⟨h, rfl⟩]
    exact ⟨_, rfl, rfl, rfl, rfl⟩

theorem resolveRequest_of_resolved {req : ApprovalRequest} (h : req.status ≠ .pending)
    (input : ResolveApprovalInput) (now : Timestamp) :
    ∃ e, resolveRequest req input now = .fail e := by
  unfold resolveRequest
  cases input.approved with
  | true =>
    rw [ApprovalRequest.approve, ApprovalRequest.resolve, if_pos h]
    exact ⟨_, rfl⟩
  | false =>
    rw [ApprovalRequest.deny, ApprovalRequest.resolve, if_pos h]
    exact ⟨_, rfl⟩

theorem reportResolution_performs {req : ApprovalRequest} (wf : WorkflowRun) (approved : Bool) :
    Performs picks (some []) (reportResolution wf approved >>= fun _ => .ret req) c := by
  unfold reportResolution
  cases approved with
  | true => exact Performs.quiet rfl fun _ _ => rfl
  | false => exact Performs.quiet rfl fun _ _ => Performs.quiet rfl fun _ _ => rfl

/-- **`ResolveApproval` does what is planned.** -/
theorem resolveApproval_performs (input : ResolveApprovalInput) :
    Performs picks (c.resolvePlan input) (resolveApproval input) c := by
  unfold Core.resolvePlan
  refine Performs.read rfl rfl ?_
  cases c.approvalRequests.find input.approvalRequestID with
  | none => exact Performs.fail
  | some req =>
    refine Performs.quiet rfl fun (now : Timestamp) _ => ?_
    change Performs picks _ (resolveRequest req input now >>= _) c
    by_cases hpending : req.status = .pending
    · obtain ⟨resolved, hresolved, hid, hrun, hstatus⟩ :=
        resolveRequest_of_pending hpending input now
      rw [hresolved]
      dsimp only
      rw [if_pos hpending, ← hid, ← hrun, ← hstatus]
      -- the request is stored whatever becomes of the run
      refine Performs.write _ rfl ⟨_, rfl⟩ fun r c' hr => ?_
      obtain ⟨rfl, rfl⟩ := hr.approvalUpdate
      refine ⟨⟨resolved, rfl, rfl, rfl⟩, ?_⟩
      refine Performs.read rfl rfl ?_
      change Performs picks _ (orFail "loading workflow" (found "workflow run"
        (c.workflowRuns.find resolved.workflowRunID)) >>= _) _
      cases c.workflowRuns.find resolved.workflowRunID with
      | none => exact Performs.fail
      | some wf =>
        refine moveResolved_performs (c := c.updateApproval resolved) wf input now fun c' => ?_
        exact Performs.quiet rfl fun _ _ => reportResolution_performs wf input.approved
    · obtain ⟨e, he⟩ := resolveRequest_of_resolved hpending input now
      rw [he]
      dsimp only
      rw [if_neg hpending]
      exact Performs.fail

end Resolve

/-- **A call does what is planned.** -/
theorem Opening.performs (op : Opening) : Performs picks (op.plan picks c) op.call.body c := by
  have hmap : ∀ {α : Type} {plan : Option (List RowWrite)} {p : UseCase α} {f : α → Reply},
      Performs picks plan p c → Performs picks plan (p >>= fun a => .ret (f a)) c := by
    intro α plan p f h
    cases plan with
    | some ws => exact Program.Writes.map h
    | none =>
      refine Program.wp_bind.mpr (Program.wp_mono ?_ h)
      rintro res c' ⟨e, rfl⟩
      exact ⟨e, rfl⟩
  cases op with
  | start taskID => exact hmap (startWorkflow_performs taskID)
  | resolve input => exact hmap (resolveApproval_performs input)

end Calls

end Governance

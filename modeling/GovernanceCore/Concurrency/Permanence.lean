import GovernanceCore.Concurrency.Budget
import GovernanceCore.Services.Footprint

/-!
# What stays in the store

Two things that no interleaving of calls does, whatever fails.

* `stored_rows_last`: a row is never removed, and of its columns only some are ever written again:
  those of a run that an update sets, the counters and the status of a lease, the status and the
  resolution of an approval request. Tasks, decisions and audit entries are written once.
* `nothing_times_out`: a lease has a budget of time and a request may have an expiry, but no call
  ever counts the one or sets the other. A run whose attempt never reports back keeps its lease, and
  a request that nobody resolves stays pending.
-/

namespace Governance

open Framework Relation

/-! ### Rows -/

/-- How the rows of a later store continue those of an earlier one. -/
structure Lasts (s s' : Store) : Prop where
  tasks : ∀ t ∈ s.tasks, t ∈ s'.tasks
  routing : ∀ d ∈ s.routingDecisions, d ∈ s'.routingDecisions
  policy : ∀ d ∈ s.policyDecisions, d ∈ s'.policyDecisions
  audit : ∀ e ∈ s.auditEntries, e ∈ s'.auditEntries
  runs : ∀ w ∈ s.workflowRuns, ∃ w' ∈ s'.workflowRuns,
    w'.id = w.id ∧ w'.taskID = w.taskID ∧ w'.createdAt = w.createdAt
  leases : ∀ l ∈ s.executionLeases, ∃ l' ∈ s'.executionLeases,
    l'.id = l.id ∧ l'.workflowRunID = l.workflowRunID ∧ l'.createdAt = l.createdAt
  approvals : ∀ a ∈ s.approvalRequests, ∃ a' ∈ s'.approvalRequests,
    a' = { a with status := a'.status, resolution := a'.resolution }
  notifications : s.notifications <+: s'.notifications

namespace Lasts

variable {s s' s'' : Store}

theorem refl (s : Store) : Lasts s s where
  tasks _ := id
  routing _ := id
  policy _ := id
  audit _ := id
  runs w hw := ⟨w, hw, rfl, rfl, rfl⟩
  leases l hl := ⟨l, hl, rfl, rfl, rfl⟩
  approvals a ha := ⟨a, ha, rfl⟩
  notifications := List.prefix_rfl

theorem trans (h : Lasts s s') (h' : Lasts s' s'') : Lasts s s'' where
  tasks t ht := h'.tasks t (h.tasks t ht)
  routing d hd := h'.routing d (h.routing d hd)
  policy d hd := h'.policy d (h.policy d hd)
  audit e he := h'.audit e (h.audit e he)
  runs w hw := by
    obtain ⟨w', hw', hid, htask, hcreated⟩ := h.runs w hw
    obtain ⟨w'', hw'', hid', htask', hcreated'⟩ := h'.runs w' hw'
    exact ⟨w'', hw'', hid'.trans hid, htask'.trans htask, hcreated'.trans hcreated⟩
  leases l hl := by
    obtain ⟨l', hl', hid, hrun, hcreated⟩ := h.leases l hl
    obtain ⟨l'', hl'', hid', hrun', hcreated'⟩ := h'.leases l' hl'
    exact ⟨l'', hl'', hid'.trans hid, hrun'.trans hrun, hcreated'.trans hcreated⟩
  approvals a ha := by
    obtain ⟨a', ha', heq⟩ := h.approvals a ha
    obtain ⟨a'', ha'', heq'⟩ := h'.approvals a' ha'
    refine ⟨a'', ha'', ?_⟩
    rw [heq] at heq'
    exact heq'
  notifications := h.notifications.trans h'.notifications

/-- One operation. -/
theorem of_effect {o : Op} (he : Effect s o s') : Lasts s s' := by
  cases he with
  | none o => exact refl s
  | taskSave hT => exact { refl s with tasks := fun t ht => (Table.mem_insert hT).mpr (Or.inl ht) }
  | routingSave hT =>
    exact { refl s with routing := fun d hd => (Table.mem_insert hT).mpr (Or.inl hd) }
  | policySave hT =>
    exact { refl s with policy := fun d hd => (Table.mem_insert hT).mpr (Or.inl hd) }
  | auditRecord hT _ _ _ =>
    exact { refl s with audit := fun e he => (Table.mem_insert hT).mpr (Or.inl he) }
  | workflowSave hT =>
    exact { refl s with
      runs := fun w hw => ⟨w, (Table.mem_insert hT).mpr (Or.inl hw), rfl, rfl, rfl⟩ }
  | leaseSave hT =>
    exact { refl s with
      leases := fun l hl => ⟨l, (IndexedTable.mem_insert hT).mpr (Or.inl hl), rfl, rfl, rfl⟩ }
  | approvalSave hT =>
    exact { refl s with
      approvals := fun a ha => ⟨a, (Table.mem_insert hT).mpr (Or.inl ha), rfl⟩ }
  | workflowUpdate v =>
    refine { refl s with runs := fun w hw => ?_ }
    by_cases hid : w.id = v.id
    · exact ⟨v.overwrite w, Store.mem_updateWorkflow.mpr (Or.inl ⟨w, hw, hid, rfl⟩), rfl, rfl, rfl⟩
    · exact ⟨w, Store.mem_updateWorkflow.mpr (Or.inr ⟨hw, hid⟩), rfl, rfl, rfl⟩
  | leaseUpdate m =>
    refine { refl s with leases := fun l hl => ?_ }
    by_cases hid : l.id = m.id
    · exact ⟨m.overwrite l, Store.mem_updateLease.mpr (Or.inl ⟨l, hl, hid, rfl⟩), rfl, rfl, rfl⟩
    · exact ⟨l, Store.mem_updateLease.mpr (Or.inr ⟨hl, hid⟩), rfl, rfl, rfl⟩
  | approvalUpdate b =>
    refine { refl s with approvals := fun a ha => ?_ }
    by_cases hid : a.id = b.id
    · exact ⟨b.overwrite a, Store.mem_updateApproval.mpr (Or.inl ⟨a, ha, hid, rfl⟩), rfl⟩
    · exact ⟨a, Store.mem_updateApproval.mpr (Or.inr ⟨ha, hid⟩), rfl⟩
  | notify n => exact { refl s with notifications := List.prefix_append _ _ }
  | emit m => exact { refl s with }
  | breakerObserve tool role success at' b => exact { refl s with }

end Lasts

/-- **No row is lost, and what is written once is not written again.** -/
theorem stored_rows_last {p q : Pool Call Store Op Res Err Reply}
    (h : governance.Reach unguarded p q) : Lasts p.store q.store := by
  induction h with
  | refl => exact .refl _
  | tail _ hstep ih =>
    refine ih.trans ?_
    cases hstep with
    | spawn c => exact .refl _
    | advance _ _ hex _ => exact .of_effect (exec_effect hex)

/-- A killed run is still there, with its lease and its audit entries. -/
theorem stored_rows_last_killed : ∃ p q : Pool Call Store Op Res Err Reply,
    governance.Reach unguarded p q ∧ p.store.statuses = [.running] ∧
      q.store.statuses = [.killed] ∧ Lasts p.store q.store := by
  have hplay : ((carryOut runningSchedule).bind fun p =>
      (governance.play (fun _ _ _ _ _ => true) p
        (whole 'e' 4 (.killWorkflow firstRun "stop" systemActor) 8)).map fun q =>
        (p.store.statuses, q.store.statuses)) = some ([.running], [.killed]) := by
    decide +kernel
  obtain ⟨p, -, hrest⟩ := Option.bind_eq_some_iff.mp hplay
  obtain ⟨q, hq, hstatuses⟩ := Option.map_eq_some_iff.mp hrest
  obtain ⟨hrunning, hkilled⟩ := Prod.mk.inj hstatuses
  have hreach : governance.Reach unguarded p q := System.play_reach (fun _ _ _ _ _ _ => trivial) hq
  exact ⟨p, q, hreach, hrunning, hkilled, stored_rows_last hreach⟩

/-! ### Time -/

/-- No operation sets an expiry or lets a request expire. -/
def TimeFree : Op → Prop
  | .approvalSave a => a.expiresAt = none
  | .approvalUpdate a => a.status ≠ .expired
  | _ => True

theorem createSubtasks_timeFree (parent : Task) (now : Timestamp) (suffixes : List String) :
    (createSubtasks parent now suffixes).Only TimeFree := by
  induction suffixes with
  | nil => trivial
  | cons suffix rest ih =>
    refine Only.op trivial fun id => ?_
    refine Only.orWrap fun sub _ => ?_
    refine Only.op trivial fun r => ?_
    refine Only.orFail fun _ => ?_
    refine Only.op trivial fun r => ?_
    exact Only.orFail fun _ => ih

theorem startAwaiting_timeFree (taskID : TaskID) (w : WorkflowRun) (pd : PolicyDecision)
    (now : Timestamp) : (startAwaiting taskID w pd now).Only TimeFree := by
  refine Only.orWrap fun w' _ => ?_
  refine Only.op trivial fun id => ?_
  refine Only.orWrap fun req hreq => ?_
  -- the one insertion of a request, made without an expiry
  have hexpiry : req.expiresAt = none := by rw [newApprovalRequest_eq_ok hreq]
  refine Only.op hexpiry fun r => ?_
  refine Only.orFail fun _ => ?_
  refine Only.op trivial fun r => ?_
  refine Only.orFail fun _ => ?_
  refine Only.op trivial fun r => ?_
  exact ⟨trivial, fun _ => trivial⟩

theorem startWorkflow_timeFree (taskID : TaskID) : (startWorkflow taskID).Only TimeFree := by
  refine Only.op trivial fun r => ?_
  refine Only.orFail fun t => ?_
  refine Only.op trivial fun r => ?_
  refine Only.orCause fun d => ?_
  refine Only.op trivial fun r => ?_
  refine Only.orCause fun pd => ?_
  refine Only.op trivial fun r => ?_
  refine Only.orCause fun w => ?_
  refine Only.op trivial fun now => ?_
  have hrunning : (startRunning t.id w now).Only TimeFree := by
    refine Only.orWrap fun w' _ => ?_
    refine Only.op trivial fun id => ?_
    refine Only.op trivial fun r => ?_
    refine Only.orFail fun _ => ?_
    refine Only.op trivial fun r => ?_
    refine Only.orFail fun _ => ?_
    refine Only.op trivial fun r => ?_
    exact ⟨trivial, fun _ => trivial⟩
  unfold startAs
  cases pd.outcome with
  | deny =>
    refine Only.orWrap fun w' _ => ?_
    refine Only.op trivial fun r => ?_
    refine Only.orFail fun _ => ?_
    exact ⟨trivial, fun _ => ⟨trivial, fun _ => ⟨trivial, fun _ => trivial⟩⟩⟩
  | requireApproval => exact startAwaiting_timeFree t.id w pd now
  | allow => exact hrunning
  | allowWithConstraints => exact hrunning
  | undeclared code h => trivial

theorem moveResolved_timeFree (w : WorkflowRun) (input : ResolveApprovalInput) (now : Timestamp) :
    (moveResolved w input now).Only TimeFree := by
  unfold moveResolved
  split
  · refine Only.orWrap fun w₁ _ => ?_
    refine Only.orWrap fun w₂ _ => ?_
    refine Only.op trivial fun id => ?_
    refine Only.op trivial fun r => ?_
    refine Only.orFail fun _ => ?_
    refine Only.op trivial fun r => ?_
    exact Only.orFail fun _ => ⟨trivial, fun _ => trivial⟩
  · refine Only.orWrap fun w₁ _ => ?_
    refine Only.op trivial fun r => ?_
    exact Only.orFail fun _ => ⟨trivial, fun _ => trivial⟩

/-- A request that is resolved is approved or denied, never expired. -/
theorem Only.resolveRequest {α : Type} {P : Op → Prop} {a : ApprovalRequest}
    {input : ResolveApprovalInput} {now : Timestamp} {f : ApprovalRequest → UseCase α}
    (h : ∀ a' : ApprovalRequest, a'.status ≠ .expired → (f a').Only P) :
    (Governance.resolveRequest a input now >>= f).Only P := by
  unfold Governance.resolveRequest
  split
  · refine Only.orWrap fun a' ha' => h a' ?_
    rw [(ApprovalRequest.resolve_eq_ok_iff.mp ha').2]
    exact fun h => nomatch h
  · refine Only.orWrap fun a' ha' => h a' ?_
    rw [(ApprovalRequest.resolve_eq_ok_iff.mp ha').2]
    exact fun h => nomatch h

theorem resolveApproval_timeFree (input : ResolveApprovalInput) :
    (resolveApproval input).Only TimeFree := by
  refine Only.op trivial fun r => ?_
  refine Only.orFail fun a => ?_
  refine Only.op trivial fun now => ?_
  refine Only.resolveRequest fun a' ha' => ?_
  refine Only.op ha' fun r => ?_
  refine Only.orFail fun _ => ?_
  refine Only.op trivial fun r => ?_
  refine Only.orFail fun w => ?_
  refine Program.Only.bind (fun _ => ?_) (moveResolved_timeFree w input now)
  refine Only.op trivial fun _ => ?_
  unfold reportResolution
  split
  · exact ⟨trivial, fun _ => trivial⟩
  · exact ⟨trivial, fun _ => ⟨trivial, fun _ => trivial⟩⟩

/-- **No call sets an expiry, and none stores a request as expired.** -/
theorem Call.body_timeFree (c : Call) : c.body.Only TimeFree := by
  cases c
  case startWorkflow taskID => exact Only.reply (startWorkflow_timeFree taskID)
  case resolveApproval input => exact Only.reply (resolveApproval_timeFree input)
  -- The other calls touch no request, whichever way they go.
  all_goals
    refine Only.reply (p := _) ?_
    first
      | unfold Governance.submitTask
      | unfold Governance.routeTask loadOrCreateWorkflow
      | unfold Governance.evaluatePolicy
      | unfold Governance.registerAttempt attemptTransition recordQuarantine announceTermination
          reportFailure observeBreaker BreakerRegistry.observe
      | unfold Governance.pauseWorkflow
      | unfold Governance.resumeWorkflow
      | unfold Governance.killWorkflow revokeLease
    repeat' first
      | exact trivial
      | exact createSubtasks_timeFree _ _ _
      | exact Only.wrap _ _
      | refine Only.op trivial fun _ => ?_
      | refine Only.orFail fun _ => ?_
      | refine Only.orWrap fun _ _ => ?_
      | refine Only.wrapError ?_
      | refine Program.Only.bind (fun _ => ?_) ?_
      | split

/-- A lease that has its whole time left. -/
def Unspent (l : ExecutionLease) : Prop := l.timeElapsed = 0 ∧ l.timeoutBudget = defaultTimeout

theorem Unspent.toRow {l : ExecutionLease} (h : Unspent l) : Unspent l.toRow := by
  refine ⟨?_, ?_⟩
  · exact (congrArg Duration.stored h.1).trans rfl
  · -- the default is a whole number of milliseconds
    exact (congrArg Duration.stored h.2).trans rfl

/-- The rows of a store in which nothing can time out. -/
structure Untimed (s : Store) : Prop where
  leases : ∀ l ∈ s.executionLeases, Unspent l
  approvals : ∀ a ∈ s.approvalRequests, a.expiresAt = none ∧ a.status ≠ .expired

theorem untimed_empty (metrics : Bool) : Untimed (Store.empty metrics) where
  leases l hl := absurd hl (IndexedTable.notMem_empty l)
  approvals a ha := absurd ha (Table.notMem_empty a)

/-- What a call has read of leases. -/
def SawUnspent (e : Event Op Res) : Prop := ∀ l, seenLease e = some l → Unspent l

theorem Untimed.step {s s' : Store} {h : History} {o : Op} (hI : Untimed s)
    (hsaw : ∀ e ∈ h, SawUnspent e) (hperm : Permitted h o) (hfree : TimeFree o)
    (he : Effect s o s') : Untimed s' := by
  cases he with
  | leaseSave hT =>
    refine ⟨fun l hl => ?_, hI.approvals⟩
    rcases (IndexedTable.mem_insert hT).mp hl with hl | rfl
    · exact hI.leases l hl
    · obtain ⟨id, w, now, rfl⟩ := hperm
      exact Unspent.toRow ⟨rfl, rfl⟩
  | leaseUpdate m =>
    refine ⟨fun l hl => ?_, hI.approvals⟩
    rcases Store.mem_updateLease.mp hl with ⟨row, -, -, rfl⟩ | ⟨hl, -⟩
    · -- neither counting an attempt nor revoking touches the time
      obtain ⟨l₀, hlast, -, hl₀⟩ := hperm
      obtain ⟨e, he, hsee⟩ := exists_of_lastSeen hlast
      have hunspent := hsaw e he l₀ hsee
      rcases hl₀ with rfl | rfl
      · exact Unspent.toRow (l := l₀.counted) hunspent
      · exact Unspent.toRow hunspent
    · exact hI.leases l hl
  | approvalSave hT =>
    refine ⟨hI.leases, fun a ha => ?_⟩
    rcases (Table.mem_insert hT).mp ha with ha | rfl
    · exact hI.approvals a ha
    · refine ⟨hfree, ?_⟩
      rw [hperm.1]
      exact fun h => nomatch h
  | approvalUpdate b =>
    refine ⟨hI.leases, fun a ha => ?_⟩
    rcases Store.mem_updateApproval.mp ha with ⟨row, hrow, -, rfl⟩ | ⟨ha, -⟩
    · exact ⟨(hI.approvals row hrow).1, hfree⟩
    · exact hI.approvals a ha
  | _ => exact ⟨hI.leases, hI.approvals⟩

/-- The contract of the service, with what no call does. -/
theorem governance_keeps_timeFree :
    governance.Keeps ⟨Answered, fun h o => Permitted h o ∧ TimeFree o⟩ Call.Ends where
  answers := governance_keeps.answers
  follows c := (Call.follows c).and_only c.body_timeFree

/-- **Nothing times out.** Under every interleaving and every failure, a stored lease has used none
of its time, and a stored request has no expiry and has not expired. -/
theorem nothing_times_out {metrics : Bool} {s : Store}
    (h : governance.Reachable (Store.empty metrics) s) :
    (∀ l ∈ s.executionLeases, l.timeElapsed = 0 ∧ l.timeoutBudget = defaultTimeout) ∧
      ∀ a ∈ s.approvalRequests, a.expiresAt = none ∧ a.status ≠ .expired := by
  obtain ⟨p, hp, rfl⟩ := h
  have hsound := System.Reach.sound (I := Untimed) (V := fun e _ => SawUnspent e)
    governance_keeps_timeFree (untimed_empty metrics) ?_ hp
  · exact ⟨hsound.1.leases, hsound.1.approvals⟩
  intro h s o ch r s' hI hsaw hperm hex _
  have hI' := hI.step hsaw hperm.1 hperm.2 (exec_effect hex)
  exact ⟨hI', fun l hl => hI'.leases l (seenLease_mem hex hl), fun _ => id⟩

/-- A run that was started, with the lease of its start. -/
theorem nothing_times_out_started : ∃ s, governance.Reachable (Store.empty true) s ∧
    ∃ l ∈ s.executionLeases, l.status = .active ∧ l.timeElapsed = 0 := by
  have hrun : (carryOut runningSchedule).map
      (fun p => p.store.executionLeases.rows.map ExecutionLease.status) = some [.active] := by
    decide +kernel
  obtain ⟨p, hp, hstatuses⟩ := Option.map_eq_some_iff.mp hrun
  obtain ⟨l, hl, hactive⟩ := exists_row_of_map hstatuses
  have hreach : governance.Reachable (Store.empty true) p.store := ⟨p, carryOut_reach hp, rfl⟩
  exact ⟨p.store, hreach, l, hl, hactive, ((nothing_times_out hreach).1 l hl).1⟩

end Governance

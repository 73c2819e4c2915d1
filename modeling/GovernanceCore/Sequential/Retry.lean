import GovernanceCore.Sequential.Plan

/-!
# Can a call be repeated after a failed write?

When a write of `StartWorkflow` or `ResolveApproval` is lost, the rows written before it stay.
Losing the first write leaves the tables as they were, so the same call has the same plan. After a
later one the plan is another: the request is no longer pending, or the lease is there already, or a
second request is asked for (`plan_after`). So repeating the call makes up for the failure exactly
when the first write failed (`retry_recovers_iff`); a lease that is left behind is the example
(`started_run_wedged`).
-/

namespace Governance

open Framework

/-! ### What is compared -/

/-- The statuses of a run, of its leases and of its approval requests. -/
structure RunStatuses where
  run : Option WorkflowStatus
  leases : List LeaseStatus
  requests : List ApprovalStatus

def Core.runStatuses (c : Core) (run : WorkflowRunID) : RunStatuses where
  run := (c.workflowRuns.find run).map (·.status)
  leases := (c.executionLeases.rows.filter fun l => l.workflowRunID = run).map (·.status)
  requests := (c.approvalRequests.rows.filter fun a => a.workflowRunID = run).map (·.status)

def Store.runStatuses (s : Store) : WorkflowRunID → RunStatuses := s.core.runStatuses

theorem Core.find_updateWorkflow_self (c : Core) (w : WorkflowRun) :
    (c.updateWorkflow w).workflowRuns.find w.id = (c.workflowRuns.find w.id).map w.overwrite :=
  Table.find_modify_self w.overwrite_id

theorem Core.find_updateWorkflow_of_ne {c : Core} {w : WorkflowRun} {run : WorkflowRunID}
    (h : run ≠ w.id) : (c.updateWorkflow w).workflowRuns.find run = c.workflowRuns.find run :=
  Table.find_modify_of_ne w.overwrite_id h

namespace RowWrite

def isResolve : RowWrite → Bool
  | .resolve _ _ => true
  | _ => false

/-- What a write does to the statuses. Which request a resolution is about cannot be told from
them. -/
def after (w : RowWrite) (st : WorkflowRunID → RunStatuses) (run : WorkflowRunID) : RunStatuses :=
  match w with
  | .resolve _ _ => st run
  | .ask r =>
    if run = r then { st run with requests := (st run).requests ++ [.pending] } else st run
  | .lease r => if run = r then { st run with leases := (st run).leases ++ [.active] } else st run
  | .move r t => if run = r then { st run with run := (st run).run.map fun _ => t } else st run

/-- A row that is appended adds to the rows of its own run. -/
theorem filter_map_concat {R A : Type} {l l' : List R} {r : R} (h : l' = l ++ [r])
    (runOf : R → WorkflowRunID) (f : R → A) (run : WorkflowRunID) :
    (l'.filter fun x => runOf x = run).map f
      = if run = runOf r then (l.filter fun x => runOf x = run).map f ++ [f r]
        else (l.filter fun x => runOf x = run).map f := by
  rw [h, List.filter_append, List.map_append, List.filter_singleton]
  by_cases hr : run = runOf r
  · rw [if_pos hr, decide_eq_true hr.symm]
    rfl
  · rw [if_neg hr, decide_eq_false (Ne.symm hr)]
    exact List.append_nil _

theorem Effect.statuses {w : RowWrite} {c c' : Core} (hw : w.isResolve = false)
    (h : w.Effect c c') : c'.runStatuses = w.after c.runStatuses := by
  funext run
  cases w with
  | resolve id status => cases hw
  | ask r =>
    obtain ⟨a, T, rfl, hstatus, hT, rfl⟩ := h
    have hrequests := filter_map_concat hT (·.workflowRunID) (·.status) run
    unfold Core.runStatuses after
    dsimp only
    rw [hrequests, hstatus]
    by_cases hrun : run = a.workflowRunID
    · rw [if_pos hrun, if_pos hrun]
    · rw [if_neg hrun, if_neg hrun]
  | lease r =>
    obtain ⟨l, T, rfl, hstatus, hT, rfl⟩ := h
    have hleases := filter_map_concat hT (·.workflowRunID) (·.status) run
    unfold Core.runStatuses after
    dsimp only
    rw [hleases, hstatus]
    by_cases hrun : run = l.workflowRunID
    · rw [if_pos hrun, if_pos hrun]
    · rw [if_neg hrun, if_neg hrun]
  | move r t =>
    -- An update of a run that is not stored changes nothing, and there is no status to change.
    obtain ⟨w, rfl, rfl, rfl⟩ := h
    unfold Core.runStatuses after
    dsimp only
    by_cases hrun : run = w.id
    · rw [if_pos hrun, hrun, Core.find_updateWorkflow_self, Option.map_map, Option.map_map]
      rfl
    · rw [if_neg hrun, Core.find_updateWorkflow_of_ne hrun]
      rfl

theorem requests_updateApproval (c : Core) (a : ApprovalRequest) (run : WorkflowRunID) :
    ((c.updateApproval a).runStatuses run).requests
      = (c.approvalRequests.rows.filter fun row => row.workflowRunID = run).map
          fun row => if row.id = a.id then a.status else row.status := by
  change ((overwrite ApprovalRequest.id a.id a.overwrite c.approvalRequests.rows).filter
    fun row => row.workflowRunID = run).map _ = _
  rw [filter_overwrite (f := a.overwrite) fun _ => rfl, overwrite, List.map_map]
  refine List.map_congr_left fun row _ => ?_
  by_cases hrow : row.id = a.id
  · simp only [Function.comp, if_pos hrow]
    rfl
  · simp only [Function.comp, if_neg hrow]

/-- A request that is resolved in the same way from the same tables. -/
theorem runStatuses_updateApproval {c : Core} {a b : ApprovalRequest} (hid : a.id = b.id)
    (hstatus : a.status = b.status) :
    (c.updateApproval a).runStatuses = (c.updateApproval b).runStatuses := by
  funext run
  have hrequests : ((c.updateApproval a).runStatuses run).requests
      = ((c.updateApproval b).runStatuses run).requests := by
    rw [requests_updateApproval, requests_updateApproval, hid, hstatus]
  exact congrArg (RunStatuses.mk _ _) hrequests

/-- Writes from the same tables leave the same statuses. -/
theorem Effect.statuses_eq {w : RowWrite} {c c₁ c₂ : Core} (h₁ : w.Effect c c₁)
    (h₂ : w.Effect c c₂) : c₁.runStatuses = c₂.runStatuses := by
  cases w with
  | resolve id status =>
    obtain ⟨a, ha, hstatus, rfl⟩ := h₁
    obtain ⟨b, hb, hstatus', rfl⟩ := h₂
    exact runStatuses_updateApproval (ha.trans hb.symm) (hstatus.trans hstatus'.symm)
  | ask r => rw [h₁.statuses rfl, h₂.statuses rfl]
  | lease r => rw [h₁.statuses rfl, h₂.statuses rfl]
  | move r t => rw [h₁.statuses rfl, h₂.statuses rfl]

/-- Only the statuses matter to the writes after the first. -/
theorem chain_statuses {ws : List RowWrite} (hws : ∀ w ∈ ws, w.isResolve = false) {c c' : Core}
    (h : Chain (ws.map Effect) c c') :
    c'.runStatuses = ws.foldl (fun st w => w.after st) c.runStatuses := by
  induction ws generalizing c with
  | nil => exact congrArg Core.runStatuses h
  | cons w ws ih =>
    obtain ⟨c₁, hw, hrest⟩ := h
    rw [List.foldl_cons, ← hw.statuses (hws w List.mem_cons_self)]
    exact ih (fun v hv => hws v (List.mem_cons_of_mem w hv)) hrest

theorem chain_statuses_eq {ws : List RowWrite} (hws : ∀ w ∈ ws.tail, w.isResolve = false)
    {c c₁ c₂ : Core} (h₁ : Chain (ws.map Effect) c c₁) (h₂ : Chain (ws.map Effect) c c₂) :
    c₁.runStatuses = c₂.runStatuses := by
  cases ws with
  | nil => exact congrArg Core.runStatuses (h₁.trans h₂.symm)
  | cons w ws =>
    obtain ⟨d₁, hw₁, hrest₁⟩ := h₁
    obtain ⟨d₂, hw₂, hrest₂⟩ := h₂
    rw [chain_statuses hws hrest₁, chain_statuses hws hrest₂, hw₁.statuses_eq hw₂]

end RowWrite

/-! ### The plan of a repeated call -/

section Repeated

variable {picks : Op → Nat} {c c' : Core} {ws : List RowWrite}

theorem leasePlan_eq_some {run : WorkflowRunID} (h : c.leasePlan run = some ws) :
    ws = [.lease run, .move run .running] := by
  unfold Core.leasePlan at h
  split at h
  · exact (Option.some.inj h).symm
  · cases h

/-- A stored lease stands in the way of another. -/
theorem leasePlan_eq_none {l : ExecutionLease} (hl : l ∈ c.executionLeases) :
    c.leasePlan l.workflowRunID = none := by
  refine if_neg fun hnone => ?_
  exact IndexedTable.lookup_eq_none_iff.mp (Option.isNone_iff_eq_none.mp hnone) l hl rfl

theorem startPlan_eq_some {pd : PolicyDecision} {wf : WorkflowRun}
    (h : c.startPlan pd wf = some ws) :
    ws = [.move wf.id .failed] ∨ ws = [.ask wf.id, .move wf.id .awaitingApproval] ∨
      ws = [.lease wf.id, .move wf.id .running] ∧ ∀ d : Core, d.leasePlan wf.id = none →
        d.startPlan pd wf = none := by
  -- The two outcomes that allow the action have the same branch.
  have hallow : ∀ {b : Bool}, (if b then c.leasePlan wf.id else none) = some ws →
      ws = [.lease wf.id, .move wf.id .running] ∧ ∀ d : Core, d.leasePlan wf.id = none →
        (if b then d.leasePlan wf.id else none) = none := by
    intro b hb
    split at hb
    · exact ⟨leasePlan_eq_some hb, fun d hd => by rw [hd, ite_self]⟩
    · cases hb
  revert h
  unfold Core.startPlan
  cases pd.outcome with
  | deny =>
    intro h
    dsimp only at h
    split at h
    · exact Or.inl (Option.some.inj h).symm
    · cases h
  | requireApproval =>
    intro h
    dsimp only at h
    split at h
    · split at h
      · cases h
      · exact Or.inr (Or.inl (Option.some.inj h).symm)
    · cases h
  | allow => exact fun h => Or.inr (Or.inr (hallow h))
  | allowWithConstraints => exact fun h => Or.inr (Or.inr (hallow h))
  | undeclared code hcode =>
    intro h
    cases h

theorem movePlan_eq_some {wf : WorkflowRun} {approved : Bool}
    (h : c.movePlan wf approved = some ws) :
    ws = [.lease wf.id, .move wf.id .running] ∨ ws = [.move wf.id .failed] := by
  unfold Core.movePlan at h
  split at h
  · split at h
    · exact Or.inl (leasePlan_eq_some h)
    · cases h
  · split at h
    · exact Or.inr (Option.some.inj h).symm
    · cases h

/-- What a resolution plans: the request is stored first. -/
theorem resolvePlan_eq_some {input : ResolveApprovalInput} (h : c.resolvePlan input = some ws) :
    (∃ req, c.approvalRequests.find input.approvalRequestID = some req) ∧
    ∃ status rest, ws = .resolve input.approvalRequestID status :: rest ∧ status ≠ .pending ∧
      ∃ run, rest = [.lease run, .move run .running] ∨ rest = [.move run .failed] := by
  unfold Core.resolvePlan at h
  split at h
  · next req hreq =>
    split at h
    · obtain ⟨rest, hrest, rfl⟩ := Option.map_eq_some_iff.mp h
      obtain ⟨wf, -, hplan⟩ := Option.bind_eq_some_iff.mp hrest
      rw [(Table.find_eq_some_iff.mp hreq).2]
      refine ⟨⟨req, hreq⟩, _, rest, rfl, ?_, wf.id, movePlan_eq_some hplan⟩
      split <;> decide
    · cases h
  · cases h

/-- A request keeps the status that it is resolved with. -/
theorem find_updateApproval_resolved {input : ResolveApprovalInput} {req a : ApprovalRequest}
    (hreq : c.approvalRequests.find input.approvalRequestID = some req)
    (hid : a.id = input.approvalRequestID) (hstatus : a.status ≠ .pending)
    (hc' : c'.approvalRequests = (c.updateApproval a).approvalRequests) :
    ∃ req', c'.approvalRequests.find input.approvalRequestID = some req' ∧
      req'.status ≠ .pending := by
  have hfind : (c.updateApproval a).approvalRequests.find a.id
      = (c.approvalRequests.find a.id).map a.overwrite :=
    Table.find_modify_self a.overwrite_id
  refine ⟨a.overwrite req, ?_, hstatus⟩
  rw [hc', ← hid, hfind, hid, hreq]
  rfl

/-- A request that has been resolved is not resolved again. -/
theorem resolvePlan_eq_none {input : ResolveApprovalInput} {req : ApprovalRequest}
    (hreq : c.approvalRequests.find input.approvalRequestID = some req)
    (hstatus : req.status ≠ .pending) : c.resolvePlan input = none := by
  unfold Core.resolvePlan
  rw [hreq]
  exact if_neg hstatus

/-- The writes that follow a resolution leave the requests alone. -/
theorem chain_approvalRequests {run : WorkflowRunID} {rest : List RowWrite}
    (hrest : rest = [.lease run, .move run .running] ∨ rest = [.move run .failed]) (k : Nat)
    (hchain : Chain ((rest.take k).map RowWrite.Effect) c c') :
    c'.approvalRequests = c.approvalRequests := by
  refine hchain.keeps fun e he d d' hd => ?_
  obtain ⟨w, hw, rfl⟩ := List.mem_map.mp he
  have hcases : w = .lease run ∨ ∃ t, w = .move run t := by
    have hmem : w ∈ rest := List.mem_of_mem_take hw
    rcases hrest with rfl | rfl
    · rcases List.mem_pair.mp hmem with rfl | rfl
      · exact Or.inl rfl
      · exact Or.inr ⟨_, rfl⟩
    · exact Or.inr ⟨_, List.mem_singleton.mp hmem⟩
  rcases hcases with rfl | ⟨t, rfl⟩
  · obtain ⟨l, T, -, -, -, rfl⟩ := hd
    rfl
  · obtain ⟨w, -, -, rfl⟩ := hd
    rfl

/-- What an aborted call has left in the way of the next one: the lease of the run, or a request
that is no longer pending. -/
def Opening.Blocked (picks : Op → Nat) (c : Core) : Opening → Prop
  | .start taskID => ∃ pd wf, c.startReads picks taskID = some (pd, wf) ∧
      ∃ l ∈ c.executionLeases, l.workflowRunID = wf.id
  | .resolve input => ∃ req, c.approvalRequests.find input.approvalRequestID = some req ∧
      req.status ≠ .pending

/-- **A call that is repeated after a later write was lost** has nothing to do, or asks for a second
approval. -/
theorem plan_after {op : Opening} {k : Nat} (hplan : op.plan picks c = some ws) (hk : 0 < k)
    (hlen : k < ws.length) (hchain : Chain ((ws.take k).map RowWrite.Effect) c c') :
    op.plan picks c' = none ∧ op.Blocked picks c' ∨
      ∃ run, ws = [.ask run, .move run .awaitingApproval] ∧ k = 1 ∧
        op.plan picks c' = some ws := by
  obtain ⟨k, rfl⟩ := Nat.exists_eq_succ_of_ne_zero hk.ne'
  cases op with
  | start taskID =>
    obtain ⟨⟨pd, wf⟩, hreads, hstart⟩ := Option.bind_eq_some_iff.mp hplan
    rcases startPlan_eq_some hstart with rfl | rfl | ⟨rfl, hnone⟩
    · exact absurd hlen (by simp)
    · obtain rfl : k = 0 := Nat.lt_one_iff.mp (Nat.lt_of_succ_lt_succ hlen)
      obtain ⟨c₁, ⟨a, T, -, -, -, rfl⟩, rfl⟩ := hchain
      -- the requests are not asked
      exact Or.inr ⟨wf.id, rfl, rfl, hplan⟩
    · obtain rfl : k = 0 := Nat.lt_one_iff.mp (Nat.lt_of_succ_lt_succ hlen)
      obtain ⟨c₁, ⟨l, T, hrun, -, hT, rfl⟩, rfl⟩ := hchain
      left
      have hl : l ∈ T := IndexedTable.mem_def.mpr (by rw [hT]; exact List.mem_concat_self)
      have hlease : ({ c with executionLeases := T } : Core).leasePlan wf.id = none := by
        rw [← hrun]
        exact leasePlan_eq_none hl
      refine ⟨Option.bind_eq_none_iff.mpr fun x hx => ?_, pd, wf, hreads, l, hl, hrun⟩
      obtain rfl : (pd, wf) = x := Option.some.inj (hreads.symm.trans hx)
      exact hnone _ hlease
  | resolve input =>
    left
    obtain ⟨⟨req, hreq⟩, status, rest, rfl, hstatus, run, hrest⟩ := resolvePlan_eq_some hplan
    obtain ⟨c₁, ⟨a, hid, rfl, rfl⟩, hchain⟩ := hchain
    obtain ⟨req', hreq', hstatus'⟩ :=
      find_updateApproval_resolved hreq hid hstatus (chain_approvalRequests hrest k hchain)
    exact ⟨resolvePlan_eq_none hreq' hstatus', req', hreq', hstatus'⟩

end Repeated

/-! ### Repeating a call -/

section Recovery

variable {picks : Op → Nat} {s s' : Store}

/-- A steady call makes its planned writes, or fails when there is no plan. -/
theorem Opening.runs_steady {op : Opening} {res : Except Err Reply}
    (hrun : op.call.body.Runs (Steady (picking picks)) s res s') :
    match op.plan picks s.core with
    | some ws => (∃ reply, res = .ok reply) ∧ Chain (ws.map RowWrite.Effect) s.core s'.core
    | none => ∃ e, res = .error e := by
  have hcore : op.call.body.Runs (CoreStep (picking picks)) s.core res s'.core :=
    hrun.map fun hstep => ⟨_, _, rfl, rfl, hstep⟩
  have hperforms : Performs picks (op.plan picks s.core) op.call.body s.core := op.performs
  revert hperforms
  cases op.plan picks s.core with
  | some ws => exact fun h => Program.Writes.runs h hcore
  | none => exact fun h => hcore.of_wp h

/-- A call that loses a write has made the planned writes before it. -/
theorem Opening.runs_losing {op : Opening} {ws : List RowWrite} {k n : Nat}
    {res : Except Err Reply} (hplan : op.plan picks s.core = some ws)
    (hrun : op.call.body.Runs (LosesWrite picks k) (s, 0) res (s', n)) :
    (k < ws.length ∧ k < n ∧ (∃ e, res = .error e) ∧
        Chain ((ws.take k).map RowWrite.Effect) s.core s'.core) ∨
      (ws.length ≤ k ∧ n = ws.length) := by
  have hcore : op.call.body.Runs (lostAt (CoreStep (picking picks)) CoreLost Op.isWrite k)
      (s.core, 0) res (s'.core, n) :=
    hrun.map (f := fun x : Store × Nat => (x.1.core, x.2)) fun hstep =>
      hstep.map (fun h => ⟨_, _, rfl, rfl, h⟩) fun h => ⟨_, _, rfl, rfl, h⟩
  have hperforms : Performs picks (op.plan picks s.core) op.call.body s.core := op.performs
  rw [hplan] at hperforms
  have hwrites := Program.Writes.runs_lostAt hcore hperforms (Nat.zero_add k)
  rw [List.length_map, ← List.map_take, Nat.zero_add] at hwrites
  exact hwrites

/-- Repeating the call from `s'` makes up for its failure: it succeeds and leaves every run, its
leases and its requests in the same statuses, and in the same number, as in `s`. -/
def Recovers (picks : Op → Nat) (op : Opening) (s' s : Store) : Prop :=
  (∃ res s₃, op.call.body.Runs (Steady (picking picks)) s' res s₃) ∧
    ∀ res s₃, op.call.body.Runs (Steady (picking picks)) s' res s₃ →
      (∃ reply, res = .ok reply) ∧ s₃.runStatuses = s.runStatuses

/-- Later writes than the first are no resolutions. -/
theorem Opening.tail_plan {op : Opening} {c : Core} {ws : List RowWrite}
    (hplan : op.plan picks c = some ws) : ∀ w ∈ ws.tail, w.isResolve = false := by
  have hrest : ∃ run, (∃ t, ws.tail = [.move run t]) ∨ ws.tail = [] ∨
      ws.tail = [.lease run, .move run .running] := by
    cases op with
    | start taskID =>
      obtain ⟨⟨pd, wf⟩, -, hstart⟩ := Option.bind_eq_some_iff.mp hplan
      refine ⟨wf.id, ?_⟩
      rcases startPlan_eq_some hstart with rfl | rfl | ⟨rfl, -⟩
      · exact Or.inr (Or.inl rfl)
      · exact Or.inl ⟨_, rfl⟩
      · exact Or.inl ⟨_, rfl⟩
    | resolve input =>
      obtain ⟨-, status, rest, rfl, -, run, rfl | rfl⟩ := resolvePlan_eq_some hplan
      · exact ⟨run, Or.inr (Or.inr rfl)⟩
      · exact ⟨run, Or.inl ⟨_, rfl⟩⟩
  obtain ⟨run, ⟨t, htail⟩ | htail | htail⟩ := hrest <;> rw [htail] <;> simp [RowWrite.isResolve]

/-- After a later write was lost, repeating the call fails or asks for a second approval. -/
theorem repeated_after {op : Opening} {ws : List RowWrite} {k : Nat} {s₁ s₂ s₃ : Store}
    {res : Except Err Reply} (hplan : op.plan picks s.core = some ws) (hk : 0 < k)
    (hlen : k < ws.length) (hchain₁ : Chain (ws.map RowWrite.Effect) s.core s₁.core)
    (hchain₂ : Chain ((ws.take k).map RowWrite.Effect) s.core s₂.core)
    (hrun : op.call.body.Runs (Steady (picking picks)) s₂ res s₃) :
    (∃ e, res = .error e) ∧ op.Blocked picks s₂.core ∨
      (∃ reply, res = .ok reply) ∧ ∃ run,
        (s₃.runStatuses run).requests = (s₁.runStatuses run).requests ++ [.pending] := by
  have hagain := Opening.runs_steady hrun
  rcases plan_after hplan hk hlen hchain₂ with ⟨hnone, hblocked⟩ | ⟨run, rfl, rfl, hsome⟩
  · rw [hnone] at hagain
    exact Or.inl ⟨hagain, hblocked⟩
  · -- The request of the aborted call is still there: the run now has one more than it should.
    rw [hsome] at hagain
    obtain ⟨hreply, hchain₃⟩ := hagain
    have hws : ∀ w ∈ [RowWrite.ask run, .move run .awaitingApproval], w.isResolve = false := by
      simp [RowWrite.isResolve]
    have h₁ := RowWrite.chain_statuses hws hchain₁
    have h₂ := RowWrite.chain_statuses (fun w hw => hws w (List.mem_of_mem_take hw)) hchain₂
    have h₃ := RowWrite.chain_statuses hws hchain₃
    refine Or.inr ⟨hreply, run, ?_⟩
    rw [Store.runStatuses, Store.runStatuses, h₃, h₁, h₂]
    simp [RowWrite.after]

/-- A call that fails or asks twice does not make up for the failure. -/
theorem not_recovers {op : Opening} {ws : List RowWrite} {k : Nat} {s₁ s₂ : Store}
    (hplan : op.plan picks s.core = some ws) (hk : 0 < k) (hlen : k < ws.length)
    (hchain₁ : Chain (ws.map RowWrite.Effect) s.core s₁.core)
    (hchain₂ : Chain ((ws.take k).map RowWrite.Effect) s.core s₂.core) :
    ¬ Recovers picks op s₂ s₁ := by
  rintro ⟨⟨res, s₃, hrun⟩, hall⟩
  obtain ⟨⟨reply, rfl⟩, hstatuses⟩ := hall res s₃ hrun
  rcases repeated_after hplan hk hlen hchain₁ hchain₂ hrun with ⟨⟨e, he⟩, -⟩ | ⟨-, run, hrequests⟩
  · cases he
  · rw [hstatuses] at hrequests
    simp at hrequests

/-- **Repeating a call recovers exactly from the loss of its first write.** The call would have
succeeded from `s`, ending in `s₁`; its write number `k` was lost, which left `s₂`. After a later
write the repeated call fails at what the first one left behind, or it stores a second pending
request. -/
theorem retry_recovers_iff (op : Opening) {s₁ s₂ : Store} {reply : Reply} {res : Except Err Reply}
    {k n : Nat} (hok : op.call.body.Runs (Steady (picking picks)) s (.ok reply) s₁)
    (hlost : op.call.body.Runs (LosesWrite picks k) (s, 0) res (s₂, n)) (hk : k < n) :
    (∃ e, res = .error e) ∧ (Recovers picks op s₂ s₁ ↔ k = 0) ∧
      (0 < k → ∀ res₃ s₃, op.call.body.Runs (Steady (picking picks)) s₂ res₃ s₃ →
        (∃ e, res₃ = .error e) ∧ op.Blocked picks s₂.core ∨
          (∃ reply₃, res₃ = .ok reply₃) ∧ ∃ run,
            (s₃.runStatuses run).requests = (s₁.runStatuses run).requests ++ [.pending]) := by
  have hfree := Opening.runs_steady hok
  cases hplan : op.plan picks s.core with
  | none =>
    rw [hplan] at hfree
    obtain ⟨e, he⟩ := hfree
    cases he
  | some ws =>
    rw [hplan] at hfree
    obtain ⟨-, hchain₁⟩ := hfree
    obtain ⟨hlen, -, herr, hchain₂⟩ :=
      (Opening.runs_losing hplan hlost).resolve_right fun h => by omega
    refine ⟨herr, ⟨fun hrecovers => ?_, fun hzero => ?_⟩, fun hpos res₃ s₃ hrun₃ =>
      repeated_after hplan hpos hlen hchain₁ hchain₂ hrun₃⟩
    · by_contra hne
      exact not_recovers hplan (Nat.pos_of_ne_zero hne) hlen hchain₁ hchain₂ hrecovers
    · -- Nothing was written, so the repeated call plans what the first one did.
      subst hzero
      have hsame : s₂.core = s.core := hchain₂
      refine ⟨Program.exists_runs (steady_serial (picking_open picks)) _ _, fun res₃ s₃ hrun₃ => ?_⟩
      have hagain := Opening.runs_steady hrun₃
      rw [hsame, hplan] at hagain
      obtain ⟨hreply, hchain₃⟩ := hagain
      exact ⟨hreply, RowWrite.chain_statuses_eq (Opening.tail_plan hplan) hchain₃ hchain₁⟩

theorem losesWrite_serial (k : Nat) (x : Store × Nat) (o : Op) :
    ∃ r x', LosesWrite picks k x o r x' := by
  obtain ⟨r, s', hgood⟩ := steady_serial (picking_open picks) x.1 o
  unfold LosesWrite lostAt
  by_cases ho : o.isWrite = true
  · simp only [if_pos ho]
    by_cases hk : x.2 = k
    · simp only [if_pos hk]
      exact ⟨_, (_, _), rfl, { fault := .lost }, rfl, rfl⟩
    · simp only [if_neg hk]
      exact ⟨r, (s', _), rfl, hgood⟩
  · simp only [if_neg ho]
    exact ⟨r, (s', _), rfl, hgood⟩

/-- A planned write can be lost. -/
theorem Opening.exists_losing {op : Opening} {ws : List RowWrite} {k : Nat}
    (hplan : op.plan picks s.core = some ws) (hk : k < ws.length) :
    ∃ (s₁ s₂ : Store) (reply : Reply) (res : Except Err Reply) (n : Nat),
      op.call.body.Runs (Steady (picking picks)) s (.ok reply) s₁ ∧
      op.call.body.Runs (LosesWrite picks k) (s, 0) res (s₂, n) ∧ k < n := by
  obtain ⟨res₁, s₁, hrun₁⟩ :=
    Program.exists_runs (steady_serial (picking_open picks)) op.call.body s
  have hfree := Opening.runs_steady hrun₁
  rw [hplan] at hfree
  obtain ⟨⟨reply, rfl⟩, -⟩ := hfree
  obtain ⟨res, ⟨s₂, n⟩, hrun₂⟩ :=
    Program.exists_runs (fun x o => losesWrite_serial k x o) op.call.body (s, 0)
  have hkn : k < n := ((Opening.runs_losing hplan hrun₂).resolve_right fun h => by omega).2.1
  exact ⟨s₁, s₂, reply, res, n, hrun₁, hrun₂, hkn⟩

end Recovery

/-! ### A lease that is left behind -/

/-- The plan of a run that may start. -/
theorem plan_checked : ∃ s, governance.Reachable (Store.empty true) s ∧
    (Opening.start firstTask).plan (fun _ => 0) s.core
      = some [.lease firstRun, .move firstRun .running] := by
  have hrun : (carryOut (checkedSchedule "edit")).map (fun p =>
      (Opening.start firstTask).plan (fun _ => 0) p.store.core)
        = some (some [.lease firstRun, .move firstRun .running]) := by
    decide +kernel
  obtain ⟨p, hplay, hplan⟩ := Option.map_eq_some_iff.mp hrun
  exact ⟨p.store, ⟨p, carryOut_reach hplay, rfl⟩, hplan⟩

/-- The loss of the first write is made up for, and that of the second one is not: the repeated call
fails at the lease, or asks for a second approval. -/
theorem retry_recovers_first_only : ∃ s, governance.Reachable (Store.empty true) s ∧
    (∃ (s₁ s₂ : Store) (reply : Reply) (res : Except Err Reply) (n : Nat),
      (Opening.start firstTask).call.body.Runs (Steady (picking fun _ => 0)) s (.ok reply) s₁ ∧
      (Opening.start firstTask).call.body.Runs (LosesWrite (fun _ => 0) 0) (s, 0) res (s₂, n) ∧
      0 < n ∧ Recovers (fun _ => 0) (.start firstTask) s₂ s₁) ∧
    ∃ (s₁ s₂ s₃ : Store) (reply : Reply) (res res₃ : Except Err Reply) (n : Nat),
      (Opening.start firstTask).call.body.Runs (Steady (picking fun _ => 0)) s (.ok reply) s₁ ∧
      (Opening.start firstTask).call.body.Runs (LosesWrite (fun _ => 0) 1) (s, 0) res (s₂, n) ∧
      1 < n ∧ ¬ Recovers (fun _ => 0) (.start firstTask) s₂ s₁ ∧
      (Opening.start firstTask).call.body.Runs (Steady (picking fun _ => 0)) s₂ res₃ s₃ ∧
      ((∃ e, res₃ = .error e) ∧ (Opening.start firstTask).Blocked (fun _ => 0) s₂.core ∨
        (∃ reply₃, res₃ = .ok reply₃) ∧ ∃ run,
          (s₃.runStatuses run).requests = (s₁.runStatuses run).requests ++ [.pending]) := by
  obtain ⟨s, hs, hplan⟩ := plan_checked
  refine ⟨s, hs, ?_, ?_⟩
  · obtain ⟨s₁, s₂, reply, res, n, hok, hlost, hn⟩ :=
      Opening.exists_losing (k := 0) hplan (by decide)
    exact ⟨s₁, s₂, reply, res, n, hok, hlost, hn,
      (retry_recovers_iff (.start firstTask) hok hlost hn).2.1.mpr rfl⟩
  · obtain ⟨s₁, s₂, reply, res, n, hok, hlost, hn⟩ :=
      Opening.exists_losing (k := 1) hplan (by decide)
    obtain ⟨-, hiff, hlater⟩ := retry_recovers_iff (.start firstTask) hok hlost hn
    obtain ⟨res₃, s₃, hrun₃⟩ := Program.exists_runs
      (steady_serial (picking_open fun _ => 0)) (Opening.start firstTask).call.body s₂
    exact ⟨s₁, s₂, s₃, reply, res, res₃, n, hok, hlost, hn, fun h => absurd (hiff.mp h) one_ne_zero,
      hrun₃, hlater Nat.one_pos res₃ s₃ hrun₃⟩

/-- **A lease is left behind** when the update of the run is lost, and a second call does not get
past it. -/
theorem started_run_wedged : ¬ ∀ s : Store, governance.Reachable (Store.empty true) s →
    ∀ (picks : Op → Nat) (op : Opening) (s₁ s₂ : Store) (reply : Reply) (res : Except Err Reply)
      (k n : Nat), op.call.body.Runs (Steady (picking picks)) s (.ok reply) s₁ →
      op.call.body.Runs (LosesWrite picks k) (s, 0) res (s₂, n) → k < n →
      Recovers picks op s₂ s₁ := by
  intro hall
  obtain ⟨s, hs, hplan⟩ := plan_checked
  obtain ⟨s₁, s₂, reply, res, n, hok, hlost, hn⟩ := Opening.exists_losing (k := 1) hplan (by decide)
  have hfree := Opening.runs_steady hok
  rw [hplan] at hfree
  obtain ⟨hlen, -, -, hchain⟩ := (Opening.runs_losing hplan hlost).resolve_right fun h =>
    absurd h.1 (by decide)
  exact not_recovers hplan Nat.one_pos hlen hfree.2 hchain
    (hall s hs _ _ s₁ s₂ reply res 1 n hok hlost hn)

end Governance

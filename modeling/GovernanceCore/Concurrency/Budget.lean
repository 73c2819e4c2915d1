import GovernanceCore.Concurrency.Contract

/-!
# Every execution path has a budget

Under every interleaving and every failure, a workflow run that executes, or has executed to a
result, has exactly one lease, and the budgets of that lease are positive.

The run and its lease are two rows, written one after the other without a transaction. What makes
the order safe is that the lease comes first and is never removed: `Advance.leased` and
`Advance.approved`, the only updates that start or end an execution, are made by calls that have
found or stored a lease for the run, and every later copy of the run was read after that. That there
is only one lease is the unique index of the table.
-/

namespace Governance

open Framework

/-- The statuses in which a run executes or has executed to a result. -/
def WorkflowStatus.isExecution : WorkflowStatus → Bool
  | .running | .paused | .completed | .quarantined => true
  | _ => false

/-- A lease of the run is stored. -/
def HasLease (s : Store) (id : WorkflowRunID) : Prop :=
  ∃ l ∈ s.executionLeases, l.workflowRunID = id

/-- The budgets that both services give a lease. -/
structure DefaultBudget (l : ExecutionLease) : Prop where
  timeout : l.timeoutBudget = defaultTimeout
  retries : l.retryBudget = ⟨defaultMaxRetries⟩

/-- The stored runs and leases, as far as budgets go. -/
structure Budgeted (s : Store) : Prop where
  /-- A run that executes has a lease. -/
  lease : ∀ w ∈ s.workflowRuns, w.status.isExecution = true → HasLease s w.id
  budget : ∀ l ∈ s.executionLeases, DefaultBudget l

/-- What an event has shown to its call about budgets still holds. -/
structure ValidBudget (e : Event Op Res) (s : Store) : Prop where
  workflow : ∀ w, seenWorkflow e = some w → w.status.isExecution = true → HasLease s w.id
  leased : ∀ id, leaseOf e = some id → HasLease s id
  lease : ∀ l, seenLease e = some l → DefaultBudget l

variable {s s' : Store} {w w₀ : WorkflowRun} {h : History}

/-! ### Stability -/

/-- A lease is never removed or moved to another run. -/
theorem HasLease.mono {o : Op} {id : WorkflowRunID} (hl : HasLease s id) (he : Effect s o s') :
    HasLease s' id := by
  obtain ⟨l, hl, hid⟩ := hl
  cases he with
  | leaseSave hT => exact ⟨l, (IndexedTable.mem_insert hT).mpr (Or.inl hl), hid⟩
  | leaseUpdate m =>
    -- an update of this lease keeps its id and its run
    by_cases hk : l.id = m.id
    · exact ⟨m.overwrite l, Store.mem_updateLease.mpr (Or.inl ⟨l, hl, hk, rfl⟩), hid⟩
    · exact ⟨l, Store.mem_updateLease.mpr (Or.inr ⟨hl, hk⟩), hid⟩
  | _ => exact ⟨l, hl, hid⟩

theorem ValidBudget.mono {o : Op} {e : Event Op Res} (hv : ValidBudget e s) (he : Effect s o s') :
    ValidBudget e s' where
  workflow w hw hx := (hv.workflow w hw hx).mono he
  leased id hid := (hv.leased id hid).mono he
  lease := hv.lease

/-! ### The budgets of a row -/

/-- The default timeout is a whole number of milliseconds, so its column keeps it. -/
theorem DefaultBudget.toRow {l : ExecutionLease} (hl : DefaultBudget l) :
    DefaultBudget l.toRow where
  timeout := by
    show Duration.stored l.timeoutBudget = defaultTimeout
    rw [hl.timeout]
    decide
  retries := hl.retries

theorem DefaultBudget.overwrite {l row : ExecutionLease} (hl : DefaultBudget l) :
    DefaultBudget (l.overwrite row) :=
  ⟨hl.toRow.timeout, hl.toRow.retries⟩

theorem DefaultBudget.pos {l : ExecutionLease} (hl : DefaultBudget l) :
    0 < l.timeoutBudget ∧ 0 < l.retryBudget.maxAttempts := by
  rw [hl.timeout, hl.retries]
  decide

/-- What an update writes to a lease keeps the budgets it has read. -/
theorem DefaultBudget.of_permitted {l : ExecutionLease} (hvalid : ∀ e ∈ h, ValidBudget e s)
    (hperm : Permitted h (.leaseUpdate l)) : DefaultBudget l := by
  obtain ⟨l₀, hlast, -, hl⟩ := hperm
  obtain ⟨e, he, hsee⟩ := exists_of_lastSeen hlast
  have hbudget := (hvalid e he).lease l₀ hsee
  -- counting an attempt and revoking both leave the budgets
  rcases hl with rfl | rfl
  · exact ⟨hbudget.timeout, hbudget.retries⟩
  · exact ⟨hbudget.timeout, hbudget.retries⟩

/-! ### One operation -/

/-- **An update that writes an executing run comes from a call that knows of a lease**: either the
call has found or stored one, or the run it has read was executing already. -/
theorem Advance.hasLease (hadv : Advance h w₀ w)
    (hseen : w₀.status.isExecution = true → HasLease s w₀.id) (hvalid : ∀ e ∈ h, ValidBudget e s)
    (hx : w.status.isExecution = true) : HasLease s w.id := by
  have hshown : Shows h leaseOf w₀.id → HasLease s w₀.id := by
    rintro ⟨e, he, hid⟩
    exact (hvalid e he).leased _ hid
  cases hadv with
  | routed d reason actor now hd htask hs => cases hx
  | policyChecked d actor now hd htask hs => cases hx
  | plain target reason actor now hs hv ht =>
    rcases ht with rfl | rfl | rfl | rfl
    · cases hx
    · cases hx
    · -- only a running workflow can be paused
      have hst := List.mem_singleton.mp (WorkflowStatus.mem_sources (by decide) hv)
      refine hseen ?_
      rw [hst]
      rfl
    · cases hx
  | leased target reason actor now hs hv ht hl => exact hshown hl
  | approved actor now hs hl => exact hshown hl
  | same hs => exact hseen hx

theorem Budgeted.step {o : Op} (hI : Budgeted s) (hvalid : ∀ e ∈ h, ValidBudget e s)
    (hperm : Permitted h o) (he : Effect s o s') : Budgeted s' where
  lease := by
    have hkeep : ∀ id, HasLease s id → HasLease s' id := fun id hl => hl.mono he
    intro w hw hx
    cases he with
    | workflowSave hT =>
      rcases (Table.mem_insert hT).mp hw with hw | rfl
      · exact hkeep _ (hI.lease w hw hx)
      · -- a new run does not execute
        obtain ⟨id, taskID, now, rfl⟩ := hperm
        cases hx
    | workflowUpdate v =>
      rcases Store.mem_updateWorkflow.mp hw with ⟨row, -, hid, rfl⟩ | ⟨hw, -⟩
      · obtain ⟨w₀, hlast, hadv⟩ := hperm
        obtain ⟨e, he, hsee⟩ := exists_of_lastSeen hlast
        -- the copy in flight was governed by the same rule when it was read, and leases stay
        have hlease : HasLease s v.id :=
          hadv.hasLease ((hvalid e he).workflow w₀ hsee) hvalid hx
        show HasLease _ row.id
        rw [hid]
        exact hkeep _ hlease
      · exact hkeep _ (hI.lease w hw hx)
    | _ => exact hkeep _ (hI.lease w hw hx)
  budget := by
    intro l hl
    cases he with
    | leaseSave hT =>
      rcases (IndexedTable.mem_insert hT).mp hl with hl | rfl
      · exact hI.budget l hl
      · obtain ⟨id, w, now, rfl⟩ := hperm
        exact DefaultBudget.toRow ⟨rfl, rfl⟩
    | leaseUpdate m =>
      rcases Store.mem_updateLease.mp hl with ⟨row, -, -, rfl⟩ | ⟨hl, -⟩
      · exact (DefaultBudget.of_permitted hvalid hperm).overwrite
      · exact hI.budget l hl
    | _ => exact hI.budget l hl

/-- The event of an operation is valid after it. -/
theorem ValidBudget.new {ch : Choice} {o : Op} {r : Res o} (hI' : Budgeted s')
    (hex : exec ch s o = (r, s')) : ValidBudget ⟨o, r⟩ s' := by
  refine ⟨fun w hw hx => ?_, fun id hid => ?_, fun l hl => ?_⟩
  · exact hI'.lease w (seenWorkflow_mem hex hw) hx
  · unfold leaseOf at hid
    split at hid
    · next l u heq =>
      cases heq
      cases hid
      exact ⟨l.toRow, leaseSave_ok hex, rfl⟩
    · next _ l heq =>
      cases heq
      cases hid
      exact ⟨l, seenLease_mem hex rfl, rfl⟩
    · cases hid
  · exact hI'.budget l (seenLease_mem hex hl)

/-! ### Every interleaving -/

theorem budgeted_empty (metrics : Bool) : Budgeted (Store.empty metrics) where
  lease w hw := absurd hw (Table.notMem_empty w)
  budget l hl := absurd hl (IndexedTable.notMem_empty l)

/-- **Every execution path has a budget.** In every store that any interleaving of any calls reaches
from the empty one, whatever fails on the way, a run that is running, paused, completed or
quarantined has exactly one stored lease, and its timeout and its attempts are positive. -/
theorem reachable_budgeted {metrics : Bool} {s : Store}
    (hs : governance.Reachable (Store.empty metrics) s) (w : WorkflowRun)
    (hw : w ∈ s.workflowRuns) (hx : w.status.isExecution = true) :
    (∃! l, l ∈ s.executionLeases ∧ l.workflowRunID = w.id) ∧
    ∀ l ∈ s.executionLeases, l.workflowRunID = w.id →
      0 < l.timeoutBudget ∧ 0 < l.retryBudget.maxAttempts := by
  obtain ⟨p, hp, rfl⟩ := hs
  have hsound := System.Reach.sound (I := Budgeted) (V := ValidBudget) governance_keeps
    (budgeted_empty metrics) ?_ hp
  · obtain ⟨l, hl, hid⟩ := hsound.1.lease w hw hx
    refine ⟨⟨l, ⟨hl, hid⟩, ?_⟩, fun l hl _ => (hsound.1.budget l hl).pos⟩
    -- a second lease would share the index on the run
    rintro l' ⟨hl', hid'⟩
    exact IndexedTable.eq_of_index_eq hl' hl (hid'.trans hid.symm)
  · intro h s o ch r s' hI hvalid hperm hex _
    have he : Effect s o s' := exec_effect hex
    have hI' := hI.step hvalid hperm he
    exact ⟨hI', ValidBudget.new hI' hex, fun e hv => hv.mono he⟩

/-- A run that has been submitted, routed, checked and started has its lease. -/
theorem reachable_budgeted_running :
    ∃ s, governance.Reachable (Store.empty true) s ∧ ∃ w ∈ s.workflowRuns, w.status = .running ∧
      (∃! l, l ∈ s.executionLeases ∧ l.workflowRunID = w.id) ∧
      ∀ l ∈ s.executionLeases, l.workflowRunID = w.id →
        0 < l.timeoutBudget ∧ 0 < l.retryBudget.maxAttempts := by
  obtain ⟨s, hreach, w, hw, hs⟩ := exists_running
  exact ⟨s, hreach, w, hw, hs, reachable_budgeted hreach w hw (by rw [hs]; rfl)⟩

end Governance

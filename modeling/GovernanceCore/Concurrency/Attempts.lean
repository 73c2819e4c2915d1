import GovernanceCore.Concurrency.Terminal

/-!
# Is the retry budget kept by concurrent reporters?

`RegisterAttempt` reads the lease, counts the attempt on its copy and writes the copy back. Two
reporters that read the same lease write the same count, so both succeed and only one attempt is
used: with enough reporters the budget is exceeded (`budget_exceeded`).

`attempts_within_budget` is the bound that holds when every update of a lease finds the count its
call has read (`AttemptsAsRead`). The invariant of the pool is that the reporters that have written
are at most the attempts used on the lease; an update that finds the count it has read adds one to
both. That the attempts used stay within the budget needs no condition: it is checked on the copy,
and the copy was a stored lease once.
-/

namespace Governance

open Framework

/-- When a call updates a lease, the stored count of attempts is still the one it has read last. -/
def attemptsAsRead (h : History) (s : Store) : Op → Bool
  | .leaseUpdate l => (lastSeen seenLease h).all fun l₀ =>
      (s.executionLeases.find l.id).all fun row => row.attemptsUsed = l₀.attemptsUsed
  | _ => true

/-- The runs in which every update of a lease finds the count its call has read. -/
def AttemptsAsRead : Guard Store Op Res := fun h s o _ _ => attemptsAsRead h s o = true

variable {s s' : Store} {h : History}

/-! ### The count of a lease stays within its budget -/

/-- What an event has shown to its call about leases. -/
structure ValidLease (e : Event Op Res) (s : Store) : Prop where
  within : ∀ l, seenLease e = some l → WithinBudget l
  /-- The row of a lease that was seen is still there, under its run. -/
  row : ∀ l, seenLease e = some l →
    ∃ row ∈ s.executionLeases, row.id = l.id ∧ row.workflowRunID = l.workflowRunID

/-- Every stored lease is within its budget. -/
def AllWithinBudget (s : Store) : Prop := ∀ l ∈ s.executionLeases, WithinBudget l

theorem ValidLease.mono {o : Op} {e : Event Op Res} (hv : ValidLease e s) (he : Effect s o s') :
    ValidLease e s' where
  within := hv.within
  row l hl := by
    obtain ⟨row, hrow, hid, hrun⟩ := hv.row l hl
    cases he with
    | leaseSave hT => exact ⟨row, (IndexedTable.mem_insert hT).mpr (Or.inl hrow), hid, hrun⟩
    | leaseUpdate m =>
      -- an update writes neither the id nor the run of the row
      by_cases hk : row.id = m.id
      · exact ⟨m.overwrite row, Store.mem_updateLease.mpr (Or.inl ⟨row, hrow, hk, rfl⟩), hid, hrun⟩
      · exact ⟨row, Store.mem_updateLease.mpr (Or.inr ⟨hrow, hk⟩), hid, hrun⟩
    | _ => exact ⟨row, hrow, hid, hrun⟩

/-- The lease of an update, with the one it was computed from. -/
theorem leaseUpdate_source {l : ExecutionLease} (hvalid : ∀ e ∈ h, ValidLease e s)
    (hperm : Permitted h (.leaseUpdate l)) :
    ∃ l₀, lastSeen seenLease h = some l₀ ∧ l₀.status = .active ∧ WithinBudget l₀ ∧
      (∃ row ∈ s.executionLeases, row.id = l₀.id ∧ row.workflowRunID = l₀.workflowRunID) ∧
      (l = l₀.counted ∨ l = { l₀ with status := .revoked }) := by
  obtain ⟨l₀, hlast, hactive, hl⟩ := hperm
  obtain ⟨e, he, hsee⟩ := exists_of_lastSeen hlast
  exact ⟨l₀, hlast, hactive, (hvalid e he).within l₀ hsee, (hvalid e he).row l₀ hsee, hl⟩

theorem AllWithinBudget.step {o : Op} (hI : AllWithinBudget s) (hvalid : ∀ e ∈ h, ValidLease e s)
    (hperm : Permitted h o) (he : Effect s o s') : AllWithinBudget s' := by
  intro l hl
  cases he with
  | leaseSave hT =>
    rcases (IndexedTable.mem_insert hT).mp hl with hl | rfl
    · exact hI l hl
    · obtain ⟨id, w, now, rfl⟩ := hperm
      -- a new lease has used nothing
      have hpos : (0 : Int) < defaultMaxRetries := by decide
      exact ⟨Int.le_of_lt hpos, fun _ => hpos⟩
  | leaseUpdate m =>
    rcases Store.mem_updateLease.mp hl with ⟨row, -, -, rfl⟩ | ⟨hl, -⟩
    · -- the copy was within its budget, and counting on an active one stays within it
      obtain ⟨l₀, -, hactive, hwithin, -, rfl | rfl⟩ := leaseUpdate_source hvalid hperm
      · exact ⟨(hwithin.counted hactive).le, (hwithin.counted hactive).lt⟩
      · exact ⟨hwithin.le, fun hrevoked => by cases hrevoked⟩
    · exact hI l hl
  | _ => exact hI l hl

/-- Under every interleaving, guarded or not, the stored leases are within their budgets and what
calls have seen of leases is valid. -/
theorem reach_withinBudget {G : Guard Store Op Res} {metrics : Bool}
    {p : Pool Call Store Op Res Err Reply}
    (hp : governance.Reach G (Pool.start (Store.empty metrics)) p) :
    AllWithinBudget p.store ∧ ∀ t ∈ p.threads, ∀ e ∈ t.log, ValidLease e p.store := by
  refine System.Reach.sound governance_keeps (fun l hl => absurd hl (IndexedTable.notMem_empty l))
    ?_ hp
  intro h s o ch r s' hI hvalid hperm hex _
  have he : Effect s o s' := exec_effect hex
  have hI' := hI.step hvalid hperm he
  refine ⟨hI', ⟨fun l hl => hI' l (seenLease_mem hex hl), fun l hl => ?_⟩, fun e hv => hv.mono he⟩
  exact ⟨l, seenLease_mem hex hl, rfl, rfl⟩

/-! ### Reporters against attempts used -/

/-- The attempts used on the lease of `id`; none when there is no lease. -/
def usedAttempts (s : Store) (id : WorkflowRunID) : Int :=
  ((s.executionLeases.lookup id).map ExecutionLease.attemptsUsed).getD 0

theorem usedAttempts_of_mem {l : ExecutionLease} (hl : l ∈ s.executionLeases) :
    usedAttempts s l.workflowRunID = l.attemptsUsed := by
  rw [usedAttempts, IndexedTable.lookup_eq_some_iff.mpr ⟨hl, rfl⟩]
  rfl

/-- An update that finds the count it has read replaces it by its own. -/
theorem usedAttempts_update (id : WorkflowRunID) {l l₀ : ExecutionLease}
    (hlast : lastSeen seenLease h = some l₀) (hread : attemptsAsRead h s (.leaseUpdate l) = true) :
    usedAttempts (s.updateLease l) id = usedAttempts s id ∨
      usedAttempts s id = l₀.attemptsUsed ∧
        usedAttempts (s.updateLease l) id = l.attemptsUsed := by
  have hlookup : (s.updateLease l).executionLeases.lookup id
      = (s.executionLeases.lookup id).map fun r => if r.id = l.id then l.overwrite r else r :=
    IndexedTable.lookup_modify (f := l.overwrite) (fun _ => rfl) id
  unfold usedAttempts
  rw [hlookup]
  cases hr : s.executionLeases.lookup id with
  | none => exact Or.inl rfl
  | some r =>
    by_cases hk : r.id = l.id
    · -- the lease of the run is the row that is overwritten, so the condition speaks about it
      refine Or.inr ⟨?_, by simp [hk]; rfl⟩
      have hmem := (IndexedTable.lookup_eq_some_iff.mp hr).1
      have hfind : s.executionLeases.find l.id = some r := Table.find_eq_some_iff.mpr ⟨hmem, hk⟩
      simpa [attemptsAsRead, hlast, hfind] using hread
    · exact Or.inl (by simp [hk])

/-- Attempts used are never taken back by an operation that meets the condition. -/
theorem usedAttempts_mono {o : Op} (hvalid : ∀ e ∈ h, ValidLease e s) (hperm : Permitted h o)
    (hread : attemptsAsRead h s o = true) (he : Effect s o s') (id : WorkflowRunID) :
    usedAttempts s id ≤ usedAttempts s' id := by
  cases he with
  | @leaseSave l T hT =>
    obtain ⟨lid, w, now, rfl⟩ := hperm
    by_cases hid : id = w
    · -- the run had no lease, and the new one has used nothing
      subst hid
      have hnone : s.executionLeases.lookup id = none := (IndexedTable.insert_eq_some_iff.mp hT).1.2
      have hmem : (defaultLease lid id now).toRow ∈ T :=
        (IndexedTable.mem_insert hT).mpr (Or.inr rfl)
      have hnew : usedAttempts { s with executionLeases := T } id = 0 :=
        usedAttempts_of_mem (s := { s with executionLeases := T }) hmem
      rw [hnew, usedAttempts, hnone]
      exact Int.le_refl _
    · have hsame : T.lookup id = s.executionLeases.lookup id :=
        Table.find_insert_of_ne (IndexedTable.insert_byIndex hT) hid
      refine Int.le_of_eq ?_
      unfold usedAttempts
      rw [hsame]
  | leaseUpdate l =>
    obtain ⟨l₀, hlast, -, -, -, hl⟩ := leaseUpdate_source hvalid hperm
    rcases usedAttempts_update id hlast hread with hsame | ⟨hold, hnew⟩
    · exact Int.le_of_eq hsame.symm
    · rw [hold, hnew]
      rcases hl with rfl | rfl
      · show l₀.attemptsUsed ≤ l₀.attemptsUsed + 1
        omega
      · exact Int.le_refl _
  | _ => exact Int.le_refl _

/-- A reporter that writes uses one attempt more. -/
theorem usedAttempts_counted {ch : Choice} {l : ExecutionLease}
    (hvalid : ∀ e ∈ h, ValidLease e s) (hperm : Permitted h (.leaseUpdate l))
    (hread : attemptsAsRead h s (.leaseUpdate l) = true)
    (hex : exec ch s (.leaseUpdate l) = (.ok (), s')) (hl : l.status ≠ .revoked) :
    usedAttempts s' l.workflowRunID = usedAttempts s l.workflowRunID + 1 := by
  obtain ⟨l₀, hlast, -, -, ⟨row, hrow, hid, hrun⟩, rfl | rfl⟩ := leaseUpdate_source hvalid hperm
  · obtain rfl := leaseUpdate_ok hex
    -- the row of the lease that was read is the one that is overwritten
    have hfind : s.executionLeases.find l₀.counted.id = some row :=
      Table.find_eq_some_iff.mpr ⟨hrow, hid⟩
    have hused : row.attemptsUsed = l₀.attemptsUsed := by
      simpa [attemptsAsRead, hlast, hfind] using hread
    have hbefore : usedAttempts s l₀.workflowRunID = l₀.attemptsUsed := by
      rw [← hrun, usedAttempts_of_mem hrow, hused]
    have hnew : l₀.counted.overwrite row ∈ (s.updateLease l₀.counted).executionLeases :=
      Store.mem_updateLease.mpr (Or.inl ⟨row, hrow, hid, rfl⟩)
    have hafter : usedAttempts (s.updateLease l₀.counted) l₀.workflowRunID
        = l₀.attemptsUsed + 1 := by
      rw [← hrun]
      exact usedAttempts_of_mem hnew
    show usedAttempts _ l₀.workflowRunID = usedAttempts s l₀.workflowRunID + 1
    rw [hafter, hbefore]
  · exact absurd rfl hl

/-- **Reporters that have written are at most the attempts used.** -/
theorem count_le_usedAttempts {metrics : Bool} {p : Pool Call Store Op Res Err Reply}
    (hp : governance.Reach AttemptsAsRead (Pool.start (Store.empty metrics)) p)
    (id : WorkflowRunID) : (p.count (countsAttempt id) : Int) ≤ usedAttempts p.store id := by
  refine System.Reach.invariant
    (J := fun p => (p.count (countsAttempt id) : Int) ≤ usedAttempts p.store id)
    governance_keeps System.inContract_start (Int.le_refl _) ?_ ?_ hp
  · intro p c hJ
    rw [Pool.count_spawn rfl]
    exact hJ
  · intro p i t o k ch r s' hreach hJ hi ht hperm hex hread
    have hvalid := (reach_withinBudget hreach).2 t (List.mem_of_getElem? hi)
    have hmono := usedAttempts_mono hvalid hperm hread (exec_effect hex) id
    by_cases hnew : (storedLease ⟨o, r⟩).any (fun l => l.workflowRunID = id ∧ l.status ≠ .revoked)
    · -- the call has just written: one reporter more, and one attempt more
      have hle : (p.advance i t o k r s').count (countsAttempt id)
          ≤ p.count (countsAttempt id) + 1 :=
        Pool.count_advance_le hi
      have hstep : usedAttempts s' id = usedAttempts p.store id + 1 := by
        unfold storedLease at hnew
        split at hnew
        · next l u heq =>
          cases heq
          obtain ⟨rfl, hrevoked⟩ : l.workflowRunID = id ∧ l.status ≠ .revoked := by
            simpa using hnew
          exact usedAttempts_counted hvalid hperm hread hex hrevoked
        · cases hnew
      show ((p.advance i t o k r s').count (countsAttempt id) : Int) ≤ usedAttempts s' id
      omega
    · -- any other operation leaves the reporters and takes back no attempt
      have hsame : (p.advance i t o k r s').count (countsAttempt id) = p.count (countsAttempt id) :=
        Pool.count_advance_of_eq hi (by simp only [countsAttempt, hasStored_concat, hnew,
          Bool.or_false])
      show ((p.advance i t o k r s').count (countsAttempt id) : Int) ≤ usedAttempts s' id
      rw [hsame]
      exact Int.le_trans hJ hmono

/-! ### Successful calls -/

/-- The call is a `RegisterAttempt` on `id` that has returned without an error. -/
def attemptAccepted (id : WorkflowRunID) (t : Thread Call Op Res Err Reply) : Bool :=
  match t.call, t.prog with
  | .registerAttempt id' _, .ret _ => id' = id
  | _, _ => false

/-- A reporter that has returned without an error has written. -/
theorem countsAttempt_of_accepted {t : Thread Call Op Res Err Reply} {id : WorkflowRunID}
    (ht : t.prog.Follows contract (t.call.Ends) t.log) (hacc : attemptAccepted id t = true) :
    countsAttempt id t.log = true := by
  unfold attemptAccepted at hacc
  split at hacc
  · next id' result reply hcall hprog =>
    have hid : id' = id := by simpa using hacc
    rw [hprog, hcall] at ht
    rw [← hid]
    exact ht reply rfl
  · cases hacc

/-- **The retry budget is kept as long as writes find the count their call has read.** In every pool
that any interleaving of any calls reaches from the empty store, in which every update of a lease
meets `AttemptsAsRead`, the `RegisterAttempt` calls on a workflow run that have returned without an
error are at most the attempts its lease allows. -/
theorem attempts_within_budget {metrics : Bool} {p : Pool Call Store Op Res Err Reply}
    (hp : governance.Reach AttemptsAsRead (Pool.start (Store.empty metrics)) p)
    {l : ExecutionLease} (hl : l ∈ p.store.executionLeases) :
    (p.threads.countP (attemptAccepted l.workflowRunID) : Int) ≤ l.retryBudget.maxAttempts := by
  have hcontract := System.Reach.inContract governance_keeps System.inContract_start hp
  -- accepted calls ≤ calls that have written ≤ attempts used ≤ budget
  have haccepted : p.threads.countP (attemptAccepted l.workflowRunID)
      ≤ p.count (countsAttempt l.workflowRunID) :=
    List.countP_mono_left fun t ht hacc => countsAttempt_of_accepted (hcontract t ht) hacc
  have hused : (p.count (countsAttempt l.workflowRunID) : Int) ≤ l.attemptsUsed := by
    rw [← usedAttempts_of_mem hl]
    exact count_le_usedAttempts hp l.workflowRunID
  have hbudget := ((reach_withinBudget hp).1 l hl).le
  omega

/-- Three reporters one after the other use the whole budget. -/
theorem attempts_within_budget_three : ∃ p : Pool Call Store Op Res Err Reply,
    governance.Reach AttemptsAsRead (Pool.start (Store.empty true)) p ∧
    ∃ l ∈ p.store.executionLeases, p.threads.countP (attemptAccepted l.workflowRunID) = 3 ∧
      (p.threads.countP (attemptAccepted l.workflowRunID) : Int) ≤ l.retryBudget.maxAttempts := by
  have hrun : (governance.play (fun h s o _ _ => attemptsAsRead h s o)
        (Pool.start (Store.empty true)) (runningSchedule ++
          whole 'e' 4 (.registerAttempt firstRun toolRetry) 7 ++
          whole 'f' 5 (.registerAttempt firstRun toolRetry) 7 ++
          whole 'g' 6 (.registerAttempt firstRun toolRetry) 7)).map (fun p =>
      (p.store.executionLeases.rows.map ExecutionLease.workflowRunID,
        p.threads.countP (attemptAccepted firstRun))) = some ([firstRun], 3) := by decide +kernel
  obtain ⟨p, hplay, hp⟩ := Option.map_eq_some_iff.mp hrun
  obtain ⟨hleases, hcount⟩ := Prod.mk.inj hp
  have hreach : governance.Reach AttemptsAsRead (Pool.start (Store.empty true)) p :=
    System.play_reach (fun _ _ _ _ _ hread => hread) hplay
  have hmem : firstRun ∈ p.store.executionLeases.rows.map ExecutionLease.workflowRunID := by
    rw [hleases]; simp
  obtain ⟨l, hl, hrun⟩ := List.mem_map.mp hmem
  exact ⟨p, hreach, l, hl, by rw [hrun, hcount], attempts_within_budget hreach hl⟩

/-! ### The race -/

/-- Four reporters read the lease of a started run, and only then write. -/
def fourReporters : List (System.Action Call Choice) :=
  runningSchedule ++ List.replicate 4 (.spawn (.registerAttempt firstRun toolRetry)) ++
    advances 'e' 4 0 3 ++ advances 'f' 5 0 3 ++ advances 'g' 6 0 3 ++ advances 'h' 7 0 3 ++
    advances 'e' 4 3 4 ++ advances 'f' 5 3 4 ++ advances 'g' 6 3 4 ++ advances 'h' 7 3 4

/-- **The budget is exceeded**: four attempts are accepted on a lease that allows three. -/
theorem budget_exceeded : ¬ ∀ p : Pool Call Store Op Res Err Reply,
    governance.Reach unguarded (Pool.start (Store.empty true)) p →
    ∀ l ∈ p.store.executionLeases,
      (p.threads.countP (attemptAccepted l.workflowRunID) : Int) ≤ l.retryBudget.maxAttempts := by
  -- all four write the count 1: each one has read the lease before the others wrote
  have hrun : (carryOut fourReporters).map (fun p =>
      (p.store.executionLeases.rows.map fun l => (l.workflowRunID, l.retryBudget.maxAttempts),
        p.threads.countP (attemptAccepted firstRun))) = some ([(firstRun, 3)], 4) := by
    decide +kernel
  obtain ⟨p, hplay, hp⟩ := Option.map_eq_some_iff.mp hrun
  obtain ⟨hleases, hcount⟩ := Prod.mk.inj hp
  intro hbound
  have hmem : (firstRun, (3 : Int)) ∈ p.store.executionLeases.rows.map
      (fun l => (l.workflowRunID, l.retryBudget.maxAttempts)) := by rw [hleases]; simp
  obtain ⟨l, hl, hlease⟩ := List.mem_map.mp hmem
  obtain ⟨hrun, hmax⟩ := Prod.mk.inj hlease
  have hle := hbound p (carryOut_reach hplay) l hl
  rw [hrun, hcount, hmax] at hle
  exact absurd hle (by decide)

end Governance

import GovernanceCore.Concurrency.Contract

/-!
# Is a terminal status final?

Every service refuses to move a workflow run whose status is terminal. It asks the copy it has read,
and writes the whole row back later without asking the stored row again. So a run that is killed
between the read and the write of another call comes back to life (`killed_run_revived`).

The refusals are enough when a write finds the status that its call has read.
`terminal_status_final` says that: from the moment a terminal status is stored, as long as every
update of a workflow run meets the condition `StatusAsRead`, the row does not change any more,
however the calls in flight and all later ones are interleaved and whatever fails.
-/

namespace Governance

open Framework

/-- When a call updates a workflow run, the stored status is still the one it has read last. -/
def statusAsRead (h : History) (s : Store) : Op → Bool
  | .workflowUpdate w => (lastSeen seenWorkflow h).all fun w₀ =>
      (s.workflowRuns.find w.id).all fun row => row.status = w₀.status
  | _ => true

/-- The runs in which every update of a workflow run finds the status its call has read. -/
def StatusAsRead : Guard Store Op Res := fun h s o _ _ => statusAsRead h s o = true

variable {s s' : Store} {h : History}

/-- A call updates a workflow run only when the copy it has read was not terminal. -/
theorem Advance.not_terminal {w₀ w : WorkflowRun} (hadv : Advance h w₀ w) :
    w₀.status.isTerminal = false := by
  cases hadv with
  | routed d reason actor now hd htask hs => rw [hs]; rfl
  | policyChecked d actor now hd htask hs => rw [hs]; rfl
  | plain target reason actor now hs hv ht => exact hs
  | leased target reason actor now hs hv ht hl => exact hs
  | approved actor now hs hl => rw [hs]; rfl
  | same hs => exact hs

/-- The step: a terminal row survives an operation that meets the condition. -/
theorem mem_of_terminal {o : Op} {w : WorkflowRun} (hw : w ∈ s.workflowRuns)
    (ht : w.status.isTerminal = true) (hperm : Permitted h o) (hread : statusAsRead h s o = true)
    (he : Effect s o s') : w ∈ s'.workflowRuns := by
  cases he with
  | workflowSave hT => exact (Table.mem_insert hT).mpr (Or.inl hw)
  | workflowUpdate v =>
    refine Store.mem_updateWorkflow.mpr (Or.inr ⟨hw, fun hid => ?_⟩)
    -- the call would have read the terminal status, and then it does not write
    obtain ⟨w₀, hlast, hadv⟩ := hperm
    have hfind : s.workflowRuns.find v.id = some w := Table.find_eq_some_iff.mpr ⟨hw, hid⟩
    have hstatus : w.status = w₀.status := by
      simpa [statusAsRead, hlast, hfind] using hread
    have hopen := hadv.not_terminal
    rw [← hstatus, ht] at hopen
    cases hopen
  | _ => exact hw

/-- **A terminal status is final as long as writes find the status their call has read.** Let `p` be
any pool that any interleaving reaches from any store, with a run of terminal status in it, and let
`p'` be reached from `p` by steps in which every update of a workflow run meets `StatusAsRead`. Then
the stored status of that run is the same in `p'`. -/
theorem terminal_status_final {s₀ : Store} {p p' : Pool Call Store Op Res Err Reply}
    (hp : governance.Reach unguarded (Pool.start s₀) p) (hp' : governance.Reach StatusAsRead p p')
    {w : WorkflowRun} (hw : w ∈ p.store.workflowRuns) (ht : w.status.isTerminal = true) :
    (p'.store.workflowRuns.find w.id).map WorkflowRun.status = some w.status := by
  have hcontract := System.Reach.inContract governance_keeps System.inContract_start hp
  -- the invariant from `p` on is the whole row, not only its status
  have hmem : w ∈ p'.store.workflowRuns := by
    refine System.Reach.invariant (J := fun q => w ∈ q.store.workflowRuns) governance_keeps
      hcontract hw (fun q c hq => hq) ?_ hp'
    intro q i t o k ch r s' _ hq _ _ hperm hex hread
    exact mem_of_terminal hq ht hperm hread (exec_effect hex)
  rw [Table.find_eq_some_iff.mpr ⟨hmem, rfl⟩]
  rfl

/-! ### The race -/

/-- A started run is read by `RegisterAttempt`, which then waits while `KillWorkflow` completes. -/
def killedMeanwhile : List (System.Action Call Choice) :=
  runningSchedule ++ .spawn (.registerAttempt firstRun toolRetry) :: advances 'e' 4 0 3 ++
    whole 'f' 5 (.killWorkflow firstRun "stop" systemActor) 8

/-- The attempt that was in flight at the kill may still count itself on the lease; the run stays
killed as long as the attempt does not write its stale copy. -/
theorem terminal_status_final_killed : ∃ p p' : Pool Call Store Op Res Err Reply,
    governance.Reach unguarded (Pool.start (Store.empty true)) p ∧
    governance.Reach StatusAsRead p p' ∧ ∃ w ∈ p.store.workflowRuns, w.status = .killed ∧
      (p'.store.workflowRuns.find w.id).map WorkflowRun.status = some .killed := by
  have hrun : (governance.play (fun _ _ _ _ _ => true) (Pool.start (Store.empty true))
        killedMeanwhile).bind (fun p =>
      (governance.play (fun h s o _ _ => statusAsRead h s o) p (advances 'e' 4 3 1)).map
        fun _ => p.store.statuses) = some [.killed] := by decide +kernel
  obtain ⟨p, hplay, hrest⟩ := Option.bind_eq_some_iff.mp hrun
  obtain ⟨p', hplay', hstatuses⟩ := Option.map_eq_some_iff.mp hrest
  have hp := carryOut_reach hplay
  have hp' : governance.Reach StatusAsRead p p' :=
    System.play_reach (fun _ _ _ _ _ hread => hread) hplay'
  have hmem : WorkflowStatus.killed ∈ p.store.statuses := by rw [hstatuses]; simp
  obtain ⟨w, hw, hkilled⟩ := List.mem_map.mp hmem
  have hfinal := terminal_status_final hp hp' hw (by rw [hkilled]; rfl)
  exact ⟨p, p', hp, hp', w, hw, hkilled, by rw [hfinal, hkilled]⟩

/-- **A killed run is revived** when an attempt that was read before the kill writes its copy after
it. -/
theorem killed_run_revived : ¬ ∀ p p' : Pool Call Store Op Res Err Reply,
    governance.Reach unguarded (Pool.start (Store.empty true)) p → governance.Reach unguarded p p' →
    ∀ w ∈ p.store.workflowRuns, w.status.isTerminal = true →
      (p'.store.workflowRuns.find w.id).map WorkflowRun.status = some w.status := by
  have hrun : (governance.play (fun _ _ _ _ _ => true) (Pool.start (Store.empty true))
        killedMeanwhile).bind (fun p =>
      (governance.play (fun _ _ _ _ _ => true) p (advances 'e' 4 3 4)).map fun p' =>
        (p.store.workflowRuns.rows.map fun w => (w.id, w.status),
          (p'.store.workflowRuns.find firstRun).map WorkflowRun.status))
      = some ([(firstRun, .killed)], some .running) := by decide +kernel
  obtain ⟨p, hplay, hrest⟩ := Option.bind_eq_some_iff.mp hrun
  obtain ⟨p', hplay', hstatuses⟩ := Option.map_eq_some_iff.mp hrest
  obtain ⟨hbefore, hafter⟩ := Prod.mk.inj hstatuses
  -- `killed` is stored at `p` and `running` at `p'`
  intro hfinal
  have hmem : (firstRun, WorkflowStatus.killed) ∈ p.store.workflowRuns.rows.map
      (fun w => (w.id, w.status)) := by rw [hbefore]; simp
  obtain ⟨w, hw, hkilled⟩ := List.mem_map.mp hmem
  obtain ⟨hid, hstatus⟩ := Prod.mk.inj hkilled
  have hsame := hfinal p p' (carryOut_reach hplay)
    (System.play_reach (fun _ _ _ _ _ _ => trivial) hplay') w hw (by rw [hstatus]; rfl)
  rw [hid, hafter, hstatus] at hsame
  cases hsame

end Governance

import GovernanceCore.Lifecycle.Simulation

/-!
# Does an exhausted budget quarantine the run?

`RegisterAttempt` counts every attempt on the lease, and the lease is exhausted with the last one. A
failure that finds no budget left quarantines the run. A retry does not look at the budget: three of
them leave the run running with an exhausted lease, which no further attempt and no resumption
accepts (`retries_exhaust_running`).

`exhaustion_quarantines` is what holds in the sessions in which no valid retry is reported for the
last attempt of an active lease (`RetryLeavesBudget`). The invariant is then that the lease of a running
or paused run is active.
-/

namespace Governance

open Framework

/-- A retry is reported only when the active lease of its run has more than one attempt left.
Nothing is asked of a result that fails its check or of a run that is terminal: such a report is
refused before the lease is read. -/
def retryLeavesBudget (s : Store) : Call → Bool
  | .registerAttempt id result => result.status ≠ .retry || !result.validate.isOk ||
      (s.workflowRuns.find id).all (fun w => w.status.isTerminal) ||
      (s.executionLeases.lookup id).all fun l =>
        l.status ≠ .active || l.attemptsUsed + 1 < l.retryBudget.maxAttempts
  | _ => true

/-- The sessions in which no retry uses the last attempt. -/
def RetryLeavesBudget (s : Store) (c : Call) : Prop := retryLeavesBudget s c = true

/-- The same condition on the view of the run that the attempt is registered on. -/
def RetryFits (id : WorkflowRunID) (v : View) (c : Call) : Prop :=
  c.attemptOn id = some .retry → c.ValidAttempt →
    ∀ w, v.run = some w → w.status.isTerminal = false →
    ∀ l, v.lease = some l → l.status = .active → l.attemptsUsed + 1 < l.retryBudget.maxAttempts

variable {strict metrics : Bool} {id : WorkflowRunID} {c : Call} {ok : Bool} {v v' : View}

theorem RetryLeavesBudget.fits {s : Store} (h : RetryLeavesBudget s c) :
    RetryFits id (view id s) c := by
  intro hc hvalid w hw hopen l hl hactive
  have hw : s.workflowRuns.find id = some w := hw
  have hl : s.executionLeases.lookup id = some l := hl
  obtain ⟨result, rfl, hretry⟩ := Call.attemptOn_eq_some hc
  have hok : result.validate.isOk = true := by
    rw [show result.validate = .ok () from hvalid]
    rfl
  simpa [RetryLeavesBudget, retryLeavesBudget, hretry, hok, hw, hopen, hl, hactive] using h

/-! ### The lease of a run that executes is active -/

/-- Running or paused. -/
def WorkflowStatus.isExecuting : WorkflowStatus → Bool
  | .running | .paused => true
  | _ => false

/-- A running or paused run has an active lease. -/
def LeaseActive (v : View) : Prop :=
  ∀ w, v.run = some w → w.status.isExecuting = true → ∃ l, v.lease = some l ∧ l.status = .active

/-- An active lease stays active when the attempt leaves some budget. -/
theorem ExecutionLease.counted_active {l : ExecutionLease} (hactive : l.status = .active)
    (hlt : l.attemptsUsed + 1 < l.retryBudget.maxAttempts) : l.counted.status = .active := by
  have hnot : ¬ l.retryBudget.maxAttempts ≤ l.attemptsUsed + 1 := Int.not_le.mpr hlt
  rw [ExecutionLease.counted, if_neg hnot]
  exact hactive

theorem ExecutionLease.lt_of_hasRetryBudget {l : ExecutionLease} (hactive : l.status = .active)
    (h : l.counted.hasRetryBudget = true) :
    l.attemptsUsed + 1 < l.retryBudget.maxAttempts := by
  rw [hasRetryBudget_counted hactive] at h
  exact of_decide_eq_true h

theorem LeaseActive.step (hI : LeaseActive v) (hG : RetryFits id v c)
    (hstep : LifeStep strict id c ok v v') : LeaseActive v' := by
  -- a rule that moves the run out of execution
  have hout : ∀ {u : View} {w : WorkflowRun}, u.run = some w → w.status.isExecuting = false →
      LeaseActive u := by
    intro u w hw hnot
    refine View.forall_run hw fun hex => ?_
    rw [hnot] at hex
    cases hex
  -- a rule that leaves the run with a lease it has made or checked
  have hin : ∀ {u : View} {l : ExecutionLease}, u.lease = some l → l.status = .active →
      LeaseActive u :=
    fun hl hactive w' _ _ => ⟨_, hl, hactive⟩
  cases hstep with
  | quiet hc hd ht => exact hI
  | routed hc hs hid hrun ht => exact hout rfl rfl
  | checked hc hrun hs hd hnew ht => exact hout rfl rfl
  | denied hc hrun hs hv ht => exact hout rfl rfl
  | awaiting hc hrun hs hv hd ha ht => exact hout rfl rfl
  | started hc hrun hl hs hv hd ht => exact hin rfl rfl
  | completed hc hrun hl hactive hs hv ht => exact hout rfl rfl
  | retried hc hrun hl hactive hs hstatus ht hvalid =>
    -- a failure has checked the budget itself; for a retry the condition on the session does
    refine hin rfl (ExecutionLease.counted_active hactive ?_)
    rcases hstatus with ⟨-, hbudget⟩ | rfl
    · exact ExecutionLease.lt_of_hasRetryBudget hactive hbudget
    · exact hG hc hvalid _ hrun hs _ hl hactive
  | quarantined hc hrun hl hactive hs hbudget hv ht => exact hout rfl rfl
  | paused hc hrun hs hv ht =>
    have hst := List.mem_singleton.mp (WorkflowStatus.mem_sources (by decide) hv)
    obtain ⟨l, hl, hactive⟩ := hI _ hrun (by rw [hst]; rfl)
    exact hin hl hactive
  | resumed hc hrun hl hbudget hs hv ht =>
    -- `HasRetryBudget` asks for an active lease
    refine hin hl ?_
    unfold ExecutionLease.hasRetryBudget at hbudget
    rw [Bool.and_eq_true, decide_eq_true_eq] at hbudget
    exact hbudget.1
  | killed hc hrun hs ht => exact hout rfl rfl
  | approved hc hrun hl hs ha ht => exact hin rfl rfl
  | rejected hc hrun hs hv ha ht => exact hout rfl rfl
  | orphaned hc ha hstatus hrun ht => exact hI

/-- The three things that an accepted attempt can do. -/
theorem LifeStep.attempt {status : AttemptStatus} (hstep : LifeStep strict id c true v v')
    (hc : c.attemptOn id = some status) :
    status = .success ∨ (∃ w, v'.run = some w ∧ w.status = .quarantined) ∨
      ∃ l, v.lease = some l ∧ l.status = .active ∧ v'.lease = some (l.counted.overwrite l) ∧
        (l.counted.hasRetryBudget = true ∨ status = .retry ∧ c.ValidAttempt ∧
          ∃ w, v.run = some w ∧ w.status.isTerminal = false) := by
  have hnone : c.attemptOn id ≠ none := by
    rw [hc]
    exact Option.some_ne_none status
  have hstart : ∀ {t : TaskID}, c ≠ .startWorkflow t := by
    rintro t rfl
    exact hnone rfl
  -- the three rules of `RegisterAttempt`; every other rule belongs to another call
  cases hstep with
  | completed hc' hrun hl hactive hs hv ht =>
    exact Or.inl (Option.some.inj (hc.symm.trans hc'))
  | quarantined hc' hrun hl hactive hs hbudget hv ht => exact Or.inr (Or.inl ⟨_, rfl, rfl⟩)
  | retried hc' hrun hl hactive hs hstatus ht hvalid =>
    obtain rfl := Option.some.inj (hc.symm.trans hc')
    exact Or.inr (Or.inr ⟨_, hl, hactive, rfl,
      hstatus.imp And.right fun hretry => ⟨hretry, hvalid, _, hrun, hs⟩⟩)
  | quiet hc' hd ht => exact absurd (hc' rfl) hnone
  | denied hc' hrun hs hv ht => exact absurd hc' hstart
  | awaiting hc' hrun hs hv hd ha ht => exact absurd hc' hstart
  | started hc' hrun hl hs hv hd ht => exact absurd hc' hstart
  | routed hc' hs hid hrun ht => exact absurd hc' hnone
  | checked hc' hrun hs hd hnew ht => exact absurd hc' hnone
  | paused hc' hrun hs hv ht => exact absurd hc' hnone
  | resumed hc' hrun hl hbudget hs hv ht => exact absurd hc' hnone
  | killed hc' hrun hs ht => exact absurd hc' hnone
  | approved hc' hrun hl hs ha ht => exact absurd hc' hnone
  | rejected hc' hrun hs hv ha ht => exact absurd hc' hnone
  | orphaned hc' ha hstatus hrun ht => exact absurd hc' hnone

/-- An accepted attempt that is not a success and uses the last attempt quarantines the run. -/
theorem LifeStep.quarantines {status : AttemptStatus} (hstep : LifeStep strict id c true v v')
    (hG : RetryFits id v c) (hc : c.attemptOn id = some status) (hne : status ≠ .success)
    {l : ExecutionLease} (hl : v'.lease = some l)
    (hlast : l.attemptsUsed = l.retryBudget.maxAttempts) :
    ∃ w, v'.run = some w ∧ w.status = .quarantined := by
  rcases hstep.attempt hc with h | h | ⟨l₀, hl₀, hactive, hl', hbudget⟩
  · exact absurd h hne
  · exact h
  · -- the attempt has left some budget, so it was not the last one
    have hlt : l₀.attemptsUsed + 1 < l₀.retryBudget.maxAttempts := by
      rcases hbudget with hbudget | ⟨rfl, hvalid, w, hrun, hopen⟩
      · exact ExecutionLease.lt_of_hasRetryBudget hactive hbudget
      · exact hG hc hvalid w hrun hopen l₀ hl₀ hactive
    obtain rfl := Option.some.inj (hl.symm.trans hl')
    have hlast : l₀.attemptsUsed + 1 = l₀.retryBudget.maxAttempts := hlast
    omega

/-! ### Whole sessions -/

/-- **When no retry uses the last attempt, an exhausted budget quarantines the run.** No stored run
is running with an exhausted lease, and after an accepted attempt that is not a success and has used
the last attempt the run is stored as quarantined. -/
theorem exhaustion_quarantines {tr : List (Call × Except Err Reply)} {s : Store}
    (hs : governance.Session (accepts false) RetryLeavesBudget (Store.empty metrics) tr s) :
    (∀ w ∈ s.workflowRuns, w.status = .running →
      ∀ l ∈ s.executionLeases, l.workflowRunID = w.id → l.status ≠ .exhausted) ∧
    ∀ (tr₀ : List (Call × Except Err Reply)) (id : WorkflowRunID) (result : AttemptResult)
      (reply : Reply), tr = tr₀ ++ [(.registerAttempt id result, .ok reply)] →
      result.status ≠ .success → ∀ l ∈ s.executionLeases, l.workflowRunID = id →
      l.attemptsUsed = l.retryBudget.maxAttempts →
      ∃ w ∈ s.workflowRuns, w.id = id ∧ w.status = .quarantined := by
  have hlife : ∀ id, Life false metrics id (RetryFits id) tr (view id s) :=
    fun id => session_life id (fun _ _ h => h.fits) hs
  refine ⟨fun w hw hst l hl hlid => ?_, ?_⟩
  · have hactive : LeaseActive (view w.id s) := by
      refine (hlife w.id).invariant (fun w hw => ?_) fun hI hG hstep => hI.step hG hstep
      cases hw
    obtain ⟨l', hl', hl'active⟩ := hactive w (view_run hw) (by rw [hst]; rfl)
    -- the lease in question is the one the view shows
    have hsame := view_lease hl
    rw [hlid, hl'] at hsame
    obtain rfl := Option.some.inj hsame
    rw [hl'active]
    decide
  · rintro tr₀ id result reply rfl hne l hl rfl hlast
    obtain ⟨v₀, -, hG, hstep⟩ := (hlife l.workflowRunID).last
    obtain ⟨w, hw, hq⟩ := hstep.quarantines hG (if_pos rfl) hne (view_lease hl) hlast
    obtain ⟨hmem, hid⟩ := Table.find_eq_some_iff.mp hw
    exact ⟨w, hmem, hid, hq⟩

/-- One retry and two failures: the run is quarantined. -/
theorem exhaustion_quarantines_failures : ∃ tr s,
    governance.Session (accepts false) RetryLeavesBudget (Store.empty true) tr s ∧
    s.statuses = [.quarantined] ∧
    (∀ w ∈ s.workflowRuns, w.status = .running →
      ∀ l ∈ s.executionLeases, l.workflowRunID = w.id → l.status ≠ .exhausted) ∧
    ∀ (tr₀ : List (Call × Except Err Reply)) (id : WorkflowRunID) (result : AttemptResult)
      (reply : Reply), tr = tr₀ ++ [(.registerAttempt id result, .ok reply)] →
      result.status ≠ .success → ∀ l ∈ s.executionLeases, l.workflowRunID = id →
      l.attemptsUsed = l.retryBudget.maxAttempts →
      ∃ w ∈ s.workflowRuns, w.id = id ∧ w.status = .quarantined := by
  have hmade : (makeCalls false retryLeavesBudget (runningCalls ++
      [(.registerAttempt firstRun toolRetry, choices 'e'),
        (.registerAttempt firstRun toolFailure, choices 'f'),
        (.registerAttempt firstRun toolFailure, choices 'g')])).map
      (fun st => st.2.statuses) = some [.quarantined] := by decide +kernel
  obtain ⟨st, hst, hstatuses⟩ := Option.map_eq_some_iff.mp hmade
  have hs : governance.Session (accepts false) RetryLeavesBudget (Store.empty true) st.1 st.2 :=
    makeCalls_session (fun _ _ h => h) hst
  exact ⟨st.1, st.2, hs, hstatuses, exhaustion_quarantines hs⟩

/-- A started run for which three retries are reported. -/
def threeRetries : List (Call × List Choice) :=
  runningCalls ++ [(.registerAttempt firstRun toolRetry, choices 'e'),
    (.registerAttempt firstRun toolRetry, choices 'f'),
    (.registerAttempt firstRun toolRetry, choices 'g')]

/-- **Three retries exhaust the lease of a run that stays running.** All of them are accepted, the
last one uses the last attempt, and the run is not quarantined. -/
theorem retries_exhaust_running : ∃ tr s,
    governance.Session (accepts true) System.anyCall (Store.empty true) tr s ∧
    tr.getLast?.map (fun e => (e.1, e.2.isOk))
      = some (.registerAttempt firstRun toolRetry, true) ∧
    ∃ w ∈ s.workflowRuns, ∃ l ∈ s.executionLeases, w.id = firstRun ∧ l.workflowRunID = firstRun ∧
      l.attemptsUsed = l.retryBudget.maxAttempts ∧ l.status = .exhausted ∧ w.status = .running := by
  have hmade : (makeCalls true (fun _ _ => true) threeRetries).map
      (fun st => (st.2.workflowRuns.rows.map (fun w => (w.id, w.status)),
        st.2.executionLeases.rows.map (fun l =>
          (l.workflowRunID, l.attemptsUsed, l.retryBudget.maxAttempts, l.status))))
      = some ([(firstRun, .running)], [(firstRun, 3, 3, .exhausted)]) := by decide +kernel
  have haccepted : (makeCalls true (fun _ _ => true) threeRetries).map
      (fun st => st.1.getLast?.map fun e => (e.1, e.2.isOk))
      = some (some (.registerAttempt firstRun toolRetry, true)) := by decide +kernel
  obtain ⟨st, hst, hrows⟩ := Option.map_eq_some_iff.mp hmade
  obtain ⟨hruns, hleases⟩ := Prod.mk.inj hrows
  obtain ⟨w, hw, hwrow⟩ := exists_row_of_map hruns
  obtain ⟨hwid, hrunning⟩ := Prod.mk.inj hwrow
  obtain ⟨l, hl, hlrow⟩ := exists_row_of_map hleases
  simp only [Prod.mk.injEq] at hlrow
  obtain ⟨hlid, hused, hmax, hexhausted⟩ := hlrow
  rw [hst, Option.map_some] at haccepted
  have hs : governance.Session (accepts true) System.anyCall (Store.empty true) st.1 st.2 :=
    makeCalls_session (fun _ _ _ => trivial) hst
  exact ⟨st.1, st.2, hs, Option.some.inj haccepted, w, hw, l, hl, hwid, hlid,
    hused.trans hmax.symm, hexhausted, hrunning⟩

end Governance

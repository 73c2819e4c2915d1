import GovernanceCore.Lifecycle.Simulation

/-!
# Workflow, lease and approval rows stay consistent

Nine services write three kinds of rows, each one by hand. When calls are made one after the other
and no repository fails, the rows of a workflow run fit together after every call: the status of the
run says which lease and which approval requests it has (`WorkflowStatus.Fits`), and the lease
counts exactly the attempts that were accepted (`LeaseFits`).

The two parts are kept apart. What a step does to the lease is said once (`LifeStep.lease`), so the
count is one induction that never looks at a status; `Consistent.step` then has one case for each
rule of the machine.
-/

namespace Governance

open Framework

/-! ### The count of attempts -/

/-- The call has registered an attempt on the run `id`. -/
def countsOn (id : WorkflowRunID) (c : Call) (ok : Bool) : Bool := ok && (c.attemptOn id).isSome

/-- The attempts on the run `id` that were accepted in a session. -/
def acceptedAttempts (id : WorkflowRunID) (tr : List (Call × Except Err Reply)) : Nat :=
  tr.countP fun e => countsOn id e.1 e.2.isOk

theorem acceptedAttempts_concat (id : WorkflowRunID) (tr : List (Call × Except Err Reply))
    (c : Call) (res : Except Err Reply) :
    acceptedAttempts id (tr ++ [(c, res)])
      = acceptedAttempts id tr + if countsOn id c res.isOk then 1 else 0 := by
  unfold acceptedAttempts
  rw [List.countP_append, List.countP_singleton]

theorem countsOn_of_none {id : WorkflowRunID} {c : Call} {ok : Bool}
    (hc : c.attemptOn id = none) : countsOn id c ok = false := by
  simp [countsOn, hc]

/-- What a step does to the lease of the run. -/
inductive LeaseMove (id : WorkflowRunID) (counts : Bool) :
    Option ExecutionLease → Option ExecutionLease → Prop where
  | kept {lease : Option ExecutionLease} (hc : counts = false) : LeaseMove id counts lease lease
  | created {lid : ExecutionLeaseID} {now : Timestamp} (hc : counts = false) :
      LeaseMove id counts none (some (defaultLease lid id now).toRow)
  | counted {l : ExecutionLease} (hc : counts = true) (hactive : l.status = .active) :
      LeaseMove id counts (some l) (some (l.counted.overwrite l))
  | killed {lease : Option ExecutionLease} (hc : counts = false) :
      LeaseMove id counts lease (lease.map ExecutionLease.killed)

variable {strict metrics : Bool} {id : WorkflowRunID} {c : Call} {ok : Bool} {v v' : View} {n : Nat}

theorem LifeStep.lease (h : LifeStep strict id c ok v v') :
    LeaseMove id (countsOn id c ok) v.lease v'.lease := by
  have hstart : ∀ {t : TaskID}, c = .startWorkflow t → countsOn id c ok = false := by
    rintro t rfl
    exact countsOn_of_none rfl
  have hattempt : ∀ {status : AttemptStatus}, c.attemptOn id = some status →
      countsOn id c true = true := by
    intro status hc
    simp [countsOn, hc]
  cases h with
  | quiet hc hd ht =>
    -- a refused attempt is not counted, and no attempt succeeds quietly
    refine .kept ?_
    cases ok with
    | false => rfl
    | true => exact countsOn_of_none (hc rfl)
  | routed hc hs hid hrun ht => exact .kept (countsOn_of_none hc)
  | checked hc hrun hs hd hnew ht => exact .kept (countsOn_of_none hc)
  | denied hc hrun hs hv ht => exact .kept (hstart hc)
  | awaiting hc hrun hs hv hd ha ht => exact .kept (hstart hc)
  | started hc hrun hl hs hv hd ht =>
    rw [hl]
    exact .created (hstart hc)
  | completed hc hrun hl hactive hs hv ht =>
    rw [hl]
    exact .counted (hattempt hc) hactive
  | retried hc hrun hl hactive hs hstatus ht =>
    rw [hl]
    exact .counted (hattempt hc) hactive
  | quarantined hc hrun hl hactive hs hbudget hv ht =>
    rw [hl]
    exact .counted (hattempt hc) hactive
  | paused hc hrun hs hv ht => exact .kept (countsOn_of_none hc)
  | resumed hc hrun hl hbudget hs hv ht => exact .kept (countsOn_of_none hc)
  | killed hc hrun hs ht => exact .killed (countsOn_of_none hc)
  | approved hc hrun hl hs ha ht =>
    rw [hl]
    exact .created (countsOn_of_none hc)
  | rejected hc hrun hs hv ha ht => exact .kept (countsOn_of_none hc)
  | orphaned hc ha hstatus hrun ht => exact .kept (countsOn_of_none hc)

/-- The lease of a run on which `n` attempts were accepted. -/
structure LeaseFits (n : Nat) (l : ExecutionLease) : Prop extends WithinBudget l where
  used : l.attemptsUsed = n
  exhausted : l.status = .exhausted → l.attemptsUsed = l.retryBudget.maxAttempts

/-- A run without a lease has accepted no attempt. -/
def LeaseCounts (n : Nat) : Option ExecutionLease → Prop
  | none => n = 0
  | some l => LeaseFits n l

theorem LeaseFits.default (lid : ExecutionLeaseID) (now : Timestamp) :
    LeaseFits 0 (defaultLease lid id now).toRow where
  le := by show (0 : Int) ≤ defaultMaxRetries; decide
  lt _ := by show (0 : Int) < defaultMaxRetries; decide
  used := rfl
  exhausted h := by cases h

theorem LeaseFits.counted {l : ExecutionLease} (hl : LeaseFits n l) (hactive : l.status = .active) :
    LeaseFits (n + 1) (l.counted.overwrite l) where
  le := (hl.toWithinBudget.counted hactive).le
  lt := (hl.toWithinBudget.counted hactive).lt
  used := by
    show l.attemptsUsed + 1 = ((n + 1 : Nat) : Int)
    rw [hl.used]
    rfl
  exhausted h := by
    -- exhausted by this attempt, so the budget was reached with it
    have hlt := hl.lt hactive
    have hstatus : (if l.retryBudget.maxAttempts ≤ l.attemptsUsed + 1 then LeaseStatus.exhausted
      else l.status) = .exhausted := h
    show l.attemptsUsed + 1 = l.retryBudget.maxAttempts
    by_cases hmax : l.retryBudget.maxAttempts ≤ l.attemptsUsed + 1
    · omega
    · rw [if_neg hmax, hactive] at hstatus
      cases hstatus

theorem LeaseFits.killed {l : ExecutionLease} (hl : LeaseFits n l) : LeaseFits n l.killed := by
  unfold ExecutionLease.killed
  split
  · exact ⟨⟨hl.le, fun h => by cases h⟩, hl.used, fun h => by cases h⟩
  · exact hl

/-- The count survives every step. -/
theorem LeaseMove.counts {counts : Bool} {lease lease' : Option ExecutionLease}
    (h : LeaseMove id counts lease lease') (hn : LeaseCounts n lease) :
    LeaseCounts (n + if counts then 1 else 0) lease' := by
  cases h with
  | kept hc =>
    rw [hc]
    exact hn
  | created hc =>
    rw [hc, show n = 0 from hn]
    exact LeaseFits.default _ _
  | counted hc hactive =>
    rw [hc]
    exact LeaseFits.counted hn hactive
  | killed hc =>
    rw [hc]
    cases lease with
    | none => exact hn
    | some l => exact LeaseFits.killed hn

/-! ### The rows of a status -/

/-- The lease and the approval requests of a run in the given status. -/
def WorkflowStatus.Fits (lease : Option ExecutionLease) (requests : List ApprovalRequest) :
    WorkflowStatus → Prop
  | .created | .routed | .policyChecked => lease = none ∧ requests = []
  | .awaitingApproval => lease = none ∧ ∃ a, requests = [a] ∧ a.status = .pending
  | .running | .paused => (∃ l, lease = some l ∧ l.status ≠ .revoked) ∧ requests.length ≤ 1 ∧
      ∀ a ∈ requests, a.status ≠ .pending
  | .killed => (∀ l, lease = some l → l.status ≠ .active) ∧ requests.length ≤ 1
  | .quarantined => (∃ l, lease = some l ∧ l.status = .exhausted) ∧ requests.length ≤ 1
  | .completed | .failed => requests.length ≤ 1
  -- approved is left in the same call that enters it
  | .approved | .other _ => False

/-- The rows of a run fit together. -/
structure Consistent (v : View) : Prop where
  missing : v.run = none → v.lease = none ∧ v.requests = []
  fits : ∀ w, v.run = some w → w.status.Fits v.lease v.requests

section Fits

variable {lease : Option ExecutionLease} {requests : List ApprovalRequest} {s : WorkflowStatus}

theorem WorkflowStatus.Fits.length_le (h : s.Fits lease requests) : requests.length ≤ 1 := by
  have hnil : lease = none ∧ requests = [] → requests.length ≤ 1 := by
    rintro ⟨-, rfl⟩
    exact Nat.zero_le 1
  cases s with
  | created => exact hnil h
  | routed => exact hnil h
  | policyChecked => exact hnil h
  | awaitingApproval =>
    obtain ⟨-, a, rfl, -⟩ := h
    exact Nat.le_refl 1
  | running => exact h.2.1
  | paused => exact h.2.1
  | killed => exact h.2
  | quarantined => exact h.2
  | completed => exact h
  | failed => exact h
  | approved => exact h.elim
  | other t => exact h.elim

/-- A run that may move to running and has no lease has been checked and not yet started. -/
theorem WorkflowStatus.Fits.checked (h : s.Fits none requests)
    (hv : s.isValidTransition .running = true) : s = .policyChecked := by
  have hs : s = .policyChecked ∨ s = .approved ∨ s = .paused := by
    simpa [sources] using mem_sources (by decide) hv
  rcases hs with hs | rfl | rfl
  · exact hs
  · exact h.elim
  · -- a paused run has a lease
    obtain ⟨⟨l, hl, -⟩, -⟩ := h
    cases hl

/-- A run that has a lease and has not ended is running or paused. -/
theorem WorkflowStatus.Fits.leased {l : ExecutionLease} (h : s.Fits (some l) requests)
    (hs : s.isTerminal = false) : s = .running ∨ s = .paused := by
  cases s with
  | running => exact Or.inl rfl
  | paused => exact Or.inr rfl
  | created => cases h.1
  | routed => cases h.1
  | policyChecked => cases h.1
  | awaitingApproval => cases h.1
  | approved => exact h.elim
  | other t => exact h.elim
  | completed => cases hs
  | failed => cases hs
  | killed => cases hs
  | quarantined => cases hs

/-- Of a run that has ended only the number of requests is said. -/
theorem WorkflowStatus.Fits.ended {requests' : List ApprovalRequest} (h : s.Fits lease requests)
    (hs : s.isTerminal = true) (hlen : requests'.length ≤ 1) : s.Fits lease requests' := by
  cases s with
  | completed => exact hlen
  | failed => exact hlen
  | killed => exact ⟨h.1, hlen⟩
  | quarantined => exact ⟨h.1, hlen⟩
  | _ => cases hs

/-- Only a run that awaits an approval, or has ended, has a pending request. -/
theorem WorkflowStatus.Fits.pending {a : ApprovalRequest} (h : s.Fits lease requests)
    (ha : a ∈ requests) (hp : a.status = .pending) :
    s = .awaitingApproval ∨ s.isTerminal = true := by
  have hnil : ¬ (lease = none ∧ requests = []) := by
    rintro ⟨-, rfl⟩
    cases ha
  cases s with
  | awaitingApproval => exact Or.inl rfl
  | created => exact absurd h hnil
  | routed => exact absurd h hnil
  | policyChecked => exact absurd h hnil
  | running => exact absurd hp (h.2.2 a ha)
  | paused => exact absurd hp (h.2.2 a ha)
  | approved => exact h.elim
  | other t => exact h.elim
  | completed => exact Or.inr rfl
  | failed => exact Or.inr rfl
  | killed => exact Or.inr rfl
  | quarantined => exact Or.inr rfl

end Fits

/-! ### One step -/

theorem View.length_settled (v : View) (a : ApprovalRequest) :
    (v.settled a).length = v.requests.length :=
  List.length_map _

/-- The request that is settled was pending before. -/
theorem Settles.exists_pending {a : ApprovalRequest} {status : ApprovalStatus}
    (h : Settles v a status) : ∃ b ∈ v.requests, b.status = .pending := by
  obtain ⟨b, hb, hid⟩ := h.mem
  exact ⟨b, hb, h.pending b hb hid⟩

/-- A single request is the one that is settled. -/
theorem Settles.settled_eq {a b : ApprovalRequest} {status : ApprovalStatus}
    (h : Settles v a status) (hb : v.requests = [b]) : v.settled a = [a.overwrite b] := by
  obtain ⟨b', hb', hid⟩ := h.mem
  rw [hb, List.mem_singleton] at hb'
  subst hb'
  unfold View.settled overwrite
  rw [hb, List.map_singleton, if_pos hid]

/-- An active lease that has no attempt left after this one is exhausted by it. -/
theorem ExecutionLease.counted_exhausted {l : ExecutionLease} (hactive : l.status = .active)
    (hbudget : l.counted.hasRetryBudget = false) : l.counted.status = .exhausted := by
  rw [hasRetryBudget_counted hactive, decide_eq_false_iff_not] at hbudget
  exact if_pos (by omega)

theorem ExecutionLease.killed_ne_active (l : ExecutionLease) : l.killed.status ≠ .active := by
  unfold ExecutionLease.killed
  split
  · exact fun h => by cases h
  · next h => exact h

/-- It is enough to look at the run that a rule has written. -/
theorem Consistent.of_run {u : View} {w : WorkflowRun} (hw : u.run = some w)
    (h : w.status.Fits u.lease u.requests) : Consistent u where
  missing hnone := absurd hnone (View.run_ne_none hw)
  fits := View.forall_run hw h

theorem Consistent.step (hI : Consistent v) (hstep : LifeStep strict id c ok v v') :
    Consistent v' := by
  cases hstep with
  | quiet hc hd ht => exact ⟨hI.missing, hI.fits⟩
  | routed hc hs hid hrun ht =>
    -- a created run, or one that is not there yet, has no other rows
    refine .of_run rfl ?_
    rcases hrun with hrun | ⟨hnone, -⟩
    · have hfits := hI.fits _ hrun
      rw [hs] at hfits
      exact hfits
    · exact hI.missing hnone
  | checked hc hrun hs hd hnew ht =>
    have hfits := hI.fits _ hrun
    rw [hs] at hfits
    exact .of_run rfl hfits
  | denied hc hrun hs hv ht => exact .of_run rfl (hI.fits _ hrun).length_le
  | awaiting hc hrun hs hv hd ha ht =>
    have hfits := hI.fits _ hrun
    -- only a checked run can come to await an approval, and it has no request yet
    rw [List.mem_singleton.mp (WorkflowStatus.mem_sources (by decide) hv)] at hfits
    obtain ⟨hlease, hrequests⟩ := hfits
    refine .of_run rfl ⟨hlease, _, ?_, ha⟩
    show v.requests ++ [_] = [_]
    rw [hrequests, List.nil_append]
  | started hc hrun hl hs hv hd ht =>
    have hfits := hI.fits _ hrun
    rw [hl] at hfits
    have hlen := hfits.length_le
    -- without a lease it can only come from the policy check
    rw [hfits.checked hv] at hfits
    refine .of_run rfl ⟨⟨_, rfl, fun h => by cases h⟩, hlen, fun a ha => ?_⟩
    rw [show v.requests = [] from hfits.2] at ha
    cases ha
  | completed hc hrun hl hactive hs hv ht => exact .of_run rfl (hI.fits _ hrun).length_le
  | retried hc hrun hl hactive hs hstatus ht =>
    -- the run stays as it is, and counting an attempt does not revoke its lease
    have hfits := hI.fits _ hrun
    rw [hl] at hfits
    have hne := ExecutionLease.counted_ne_revoked hactive
    refine .of_run hrun ?_
    rcases hfits.leased hs with hst | hst
    · rw [hst] at hfits ⊢
      exact ⟨⟨_, rfl, hne⟩, hfits.2⟩
    · rw [hst] at hfits ⊢
      exact ⟨⟨_, rfl, hne⟩, hfits.2⟩
  | quarantined hc hrun hl hactive hs hbudget hv ht =>
    refine .of_run rfl ⟨⟨_, rfl, ?_⟩, (hI.fits _ hrun).length_le⟩
    exact ExecutionLease.counted_exhausted hactive hbudget
  | paused hc hrun hs hv ht =>
    have hfits := hI.fits _ hrun
    rw [List.mem_singleton.mp (WorkflowStatus.mem_sources (by decide) hv)] at hfits
    exact .of_run rfl hfits
  | resumed hc hrun hl hbudget hs hv ht =>
    have hfits := hI.fits _ hrun
    -- the lease that was read excludes the statuses before the start
    have hst := (hl ▸ hfits).leased hs
    refine .of_run rfl ?_
    rcases hst with hst | hst
    · rw [hst] at hfits
      exact hfits
    · rw [hst] at hfits
      exact hfits
  | killed hc hrun hs ht =>
    refine .of_run rfl ⟨fun l hl => ?_, (hI.fits _ hrun).length_le⟩
    obtain ⟨l₀, -, rfl⟩ := Option.map_eq_some_iff.mp hl
    exact l₀.killed_ne_active
  | @approved _ _ w a _ _ _ _ hc hrun hl hs ha ht =>
    -- the one request there is becomes the approved one
    have hfits := hI.fits w hrun
    rw [hs] at hfits
    obtain ⟨-, b, hb, -⟩ := hfits
    have hsettled := ha.settled_eq hb
    refine .of_run rfl ⟨⟨_, rfl, fun h => by cases h⟩, ?_, fun a' ha' => ?_⟩
    · show (v.settled a).length ≤ 1
      rw [v.length_settled, hb]
      exact Nat.le_refl 1
    · rw [show a' = a.overwrite b by simpa [hsettled] using ha']
      show a.status ≠ .pending
      rw [ha.status_eq]
      decide
  | rejected hc hrun hs hv ha ht =>
    refine .of_run rfl ?_
    show (v.settled _).length ≤ 1
    rw [v.length_settled]
    exact (hI.fits _ hrun).length_le
  | @orphaned _ _ a status _ hc ha hstatus hrun ht =>
    obtain ⟨b, hb, hpending⟩ := ha.exists_pending
    refine ⟨fun hnone => ?_, fun w hw => ?_⟩
    · rw [(hI.missing hnone).2] at hb
      cases hb
    · have hfits := hI.fits w hw
      rcases hfits.pending hb hpending with hst | hst
      · -- a run that awaits the approval could have followed
        rw [hst] at hfits
        rcases hrun with hrun | hrun
        · exact absurd hst (hrun w hw)
        · exact absurd hfits.1 hrun
      · -- a run that was killed while it waited leaves its request open to be resolved
        refine hfits.ended hst ?_
        show (v.settled a).length ≤ 1
        rw [v.length_settled]
        exact hfits.length_le

/-! ### Whole sessions -/

section Session

variable {G : View → Call → Prop} {tr : List (Call × Except Err Reply)} {s : Store}

theorem Life.consistent (h : Life strict metrics id G tr v) : Consistent v :=
  h.invariant ⟨fun _ => ⟨rfl, rfl⟩, fun _ hw => by cases hw⟩ fun hI _ hstep => hI.step hstep

/-- The lease counts the accepted attempts, along the whole life. -/
theorem Life.leaseCounts (h : Life strict metrics id G tr v) :
    LeaseCounts (acceptedAttempts id tr) v.lease := by
  induction h with
  | start => exact rfl
  | step _ _ hstep ih =>
    rw [acceptedAttempts_concat]
    exact hstep.lease.counts ih

/-- The rows that belong to a stored run. -/
structure RunConsistent (s : Store) (w : WorkflowRun) : Prop where
  /-- A running or paused workflow has a lease, which is not revoked. -/
  executing : w.status = .running ∨ w.status = .paused →
    ∃ l, s.executionLeases.lookup w.id = some l ∧ l.status ≠ .revoked
  killed : w.status = .killed →
    ∀ l, s.executionLeases.lookup w.id = some l → l.status ≠ .active
  quarantined : w.status = .quarantined →
    ∃ l, s.executionLeases.lookup w.id = some l ∧ l.status = .exhausted
  /-- There is at most one approval request, ever: no row is deleted. -/
  requests : (requestsFor w.id s).length ≤ 1
  awaiting : w.status = .awaitingApproval → s.executionLeases.lookup w.id = none ∧
    ∃ a, requestsFor w.id s = [a] ∧ a.status = .pending
  pending : ∀ a ∈ requestsFor w.id s, a.status = .pending →
    w.status = .awaitingApproval ∨ w.status.isTerminal = true

theorem Consistent.runConsistent {w : WorkflowRun} (h : Consistent (view w.id s))
    (hw : w ∈ s.workflowRuns) : RunConsistent s w := by
  have hfits : w.status.Fits (s.executionLeases.lookup w.id) (requestsFor w.id s) :=
    h.fits w (view_run hw)
  refine ⟨fun hst => ?_, fun hst => ?_, fun hst => ?_, hfits.length_le, fun hst => ?_,
    fun a ha hp => hfits.pending ha hp⟩
  · rcases hst with hst | hst
    · rw [hst] at hfits
      exact hfits.1
    · rw [hst] at hfits
      exact hfits.1
  · rw [hst] at hfits
    exact hfits.1
  · rw [hst] at hfits
    exact hfits.1
  · rw [hst] at hfits
    exact hfits

/-- **Workflow, lease and approval rows stay consistent.** After any calls made one after the other
without a repository failure, every lease counts exactly the attempts that were accepted, within its
budget and in agreement with its status, and the rows of every run fit its status. -/
theorem session_rows_consistent
    (hs : governance.Session (accepts false) System.anyCall (Store.empty metrics) tr s) :
    (∀ l ∈ s.executionLeases, 0 ≤ l.attemptsUsed ∧ l.attemptsUsed ≤ l.retryBudget.maxAttempts ∧
      l.attemptsUsed = acceptedAttempts l.workflowRunID tr ∧
      (l.status = .active → l.attemptsUsed < l.retryBudget.maxAttempts) ∧
      (l.status = .exhausted → l.attemptsUsed = l.retryBudget.maxAttempts)) ∧
    ∀ w ∈ s.workflowRuns, RunConsistent s w := by
  have hlife : ∀ id, Life false metrics id (fun _ _ => True) tr (view id s) :=
    fun id => session_life id (fun _ _ _ => trivial) hs
  refine ⟨fun l hl => ?_, fun w hw => (hlife w.id).consistent.runConsistent hw⟩
  -- a stored lease is the one that the view of its run shows
  have hcounts := (hlife l.workflowRunID).leaseCounts
  rw [view_lease hl] at hcounts
  refine ⟨?_, hcounts.le, hcounts.used, hcounts.lt, hcounts.exhausted⟩
  rw [hcounts.used]
  exact Int.natCast_nonneg _

end Session

/-- A run that was started has accepted one retry. -/
theorem session_rows_consistent_retried : ∃ tr s,
    governance.Session (accepts false) System.anyCall (Store.empty true) tr s ∧
    s.statuses = [.running] ∧ s.executionLeases.rows.map ExecutionLease.attemptsUsed = [1] ∧
    (∀ l ∈ s.executionLeases, 0 ≤ l.attemptsUsed ∧ l.attemptsUsed ≤ l.retryBudget.maxAttempts ∧
      l.attemptsUsed = acceptedAttempts l.workflowRunID tr ∧
      (l.status = .active → l.attemptsUsed < l.retryBudget.maxAttempts) ∧
      (l.status = .exhausted → l.attemptsUsed = l.retryBudget.maxAttempts)) ∧
    ∀ w ∈ s.workflowRuns, RunConsistent s w := by
  have hmade : (makeCalls false (fun _ _ => true)
      (runningCalls ++ [(.registerAttempt firstRun toolRetry, choices 'e')])).map
      (fun st => (st.2.statuses, st.2.executionLeases.rows.map ExecutionLease.attemptsUsed))
        = some ([.running], [1]) := by decide +kernel
  obtain ⟨st, hst, hrows⟩ := Option.map_eq_some_iff.mp hmade
  obtain ⟨hstatuses, hused⟩ := Prod.mk.inj hrows
  have hs : governance.Session (accepts false) System.anyCall (Store.empty true) st.1 st.2 :=
    makeCalls_session (fun _ _ _ => trivial) hst
  exact ⟨st.1, st.2, hs, hstatuses, hused, session_rows_consistent hs⟩

end Governance

import GovernanceCore.Concurrency.Contract

/-!
# Is an approval request resolved at most once?

`ResolveApproval` reads the request, asks the copy whether it is pending and writes the resolution
back without asking the stored row. Two resolvers that have both read the pending request both
succeed: the second one replaces the resolution of the first (`request_resolved_twice`). Two
approvals collide later, on the unique index of leases; two denials do not collide at all when both
have read the workflow run before one of them fails it.

`request_resolved_once` is what holds when every update of a request finds the status its call has
read (`RequestAsRead`): at most one resolver succeeds, and after it the stored request does not
change.
-/

namespace Governance

open Framework

/-- When a call updates a request, the stored status is still the one it has read last. -/
def requestAsRead (h : History) (s : Store) : Op → Bool
  | .approvalUpdate a => (lastSeen seenApproval h).all fun a₀ =>
      (s.approvalRequests.find a.id).all fun row => row.status = a₀.status
  | _ => true

/-- The runs in which every update of a request finds the status its call has read. -/
def RequestAsRead : Guard Store Op Res := fun h s o _ _ => requestAsRead h s o = true

variable {s s' : Store} {h : History} {id : ApprovalRequestID}

/-! ### The stored request -/

/-- The request `id` is stored and no longer pending. -/
def Settled (s : Store) (id : ApprovalRequestID) : Prop :=
  ∃ a ∈ s.approvalRequests, a.id = id ∧ a.status ≠ .pending

/-- The row of a request that an event has shown is still there. -/
def KeptRequest (e : Event Op Res) (s : Store) : Prop :=
  ∀ a, seenApproval e = some a → ∃ row ∈ s.approvalRequests, row.id = a.id

theorem KeptRequest.mono {o : Op} {e : Event Op Res} (hk : KeptRequest e s) (he : Effect s o s') :
    KeptRequest e s' := by
  intro a ha
  obtain ⟨row, hrow, hid⟩ := hk a ha
  cases he with
  | approvalSave hT => exact ⟨row, (Table.mem_insert hT).mpr (Or.inl hrow), hid⟩
  | approvalUpdate b =>
    -- the row may change, its id does not
    by_cases hb : row.id = b.id
    · exact ⟨b.overwrite row, Store.mem_updateApproval.mpr (Or.inl ⟨row, hrow, hb, rfl⟩), hid⟩
    · exact ⟨row, Store.mem_updateApproval.mpr (Or.inr ⟨hrow, hb⟩), hid⟩
  | _ => exact ⟨row, hrow, hid⟩

theorem reach_keptRequest {G : Guard Store Op Res} {s₀ : Store}
    {p : Pool Call Store Op Res Err Reply} (hp : governance.Reach G (Pool.start s₀) p) :
    ∀ t ∈ p.threads, ∀ e ∈ t.log, KeptRequest e p.store := by
  refine (System.Reach.sound (I := fun _ => True) governance_keeps trivial ?_ hp).2
  intro h s o ch r s' _ _ _ hex _
  refine ⟨trivial, fun a ha => ⟨a, seenApproval_mem hex ha, rfl⟩, fun e hk => ?_⟩
  exact hk.mono (exec_effect hex)

/-- A call that updates a request has read it as pending, and finds it so. -/
theorem pending_of_update {a : ApprovalRequest} (hkept : ∀ e ∈ h, KeptRequest e s)
    (hperm : Permitted h (.approvalUpdate a))
    (hread : requestAsRead h s (.approvalUpdate a) = true) :
    a.status ≠ .pending ∧ ∃ row ∈ s.approvalRequests, row.id = a.id ∧ row.status = .pending := by
  obtain ⟨a₀, hlast, hpending, by', reason, status, now, hstatus, rfl⟩ := hperm
  obtain ⟨e, he, hsee⟩ := exists_of_lastSeen hlast
  obtain ⟨row, hrow, hid⟩ := hkept e he a₀ hsee
  have hfind : s.approvalRequests.find a₀.id = some row := Table.find_eq_some_iff.mpr ⟨hrow, hid⟩
  have hsame : row.status = a₀.status := by
    simpa [requestAsRead, hlast, hfind] using hread
  exact ⟨hstatus, row, hrow, hid, hsame.trans hpending⟩

/-- The step: a settled row survives an operation that meets the condition. -/
theorem mem_of_settled {o : Op} {a : ApprovalRequest} (ha : a ∈ s.approvalRequests)
    (hs : a.status ≠ .pending) (hkept : ∀ e ∈ h, KeptRequest e s) (hperm : Permitted h o)
    (hread : requestAsRead h s o = true) (he : Effect s o s') : a ∈ s'.approvalRequests := by
  cases he with
  | approvalSave hT => exact (Table.mem_insert hT).mpr (Or.inl ha)
  | approvalUpdate b =>
    refine Store.mem_updateApproval.mpr (Or.inr ⟨ha, fun hid => ?_⟩)
    -- the update would have to find this very row pending
    obtain ⟨-, row, hrow, hrowid, hpending⟩ := pending_of_update hkept hperm hread
    have hrow_eq : row = a := Table.eq_of_key_eq hrow ha (hrowid.trans hid.symm)
    exact hs (hrow_eq ▸ hpending)
  | _ => exact ha

/-! ### Resolvers that have written -/

/-- At most one call has overwritten the request, and when one has, the request is settled. -/
structure ResolvedOnce (id : ApprovalRequestID) (p : Pool Call Store Op Res Err Reply) : Prop where
  once : p.count (resolvesRequest id) ≤ 1
  settled : 0 < p.count (resolvesRequest id) → Settled p.store id

/-- A resolver that writes finds the request pending, so it is the first one. -/
theorem ResolvedOnce.first {p : Pool Call Store Op Res Err Reply} {a : ApprovalRequest}
    (hJ : ResolvedOnce a.id p) (hkept : ∀ e ∈ h, KeptRequest e p.store)
    (hperm : Permitted h (.approvalUpdate a))
    (hread : requestAsRead h p.store (.approvalUpdate a) = true) :
    p.count (resolvesRequest a.id) = 0 ∧ Settled (p.store.updateApproval a) a.id := by
  obtain ⟨hstatus, row, hrow, hid, hpending⟩ := pending_of_update hkept hperm hread
  refine ⟨?_, a.overwrite row, Store.mem_updateApproval.mpr (Or.inl ⟨row, hrow, hid, rfl⟩), hid,
    hstatus⟩
  -- an earlier writer would have left the request settled, but it is found pending
  by_contra hpos
  obtain ⟨b, hb, hbid, hbs⟩ := hJ.settled (Nat.pos_of_ne_zero hpos)
  have hsame : row = b := Table.eq_of_key_eq hrow hb (hid.trans hbid.symm)
  exact hbs (hsame ▸ hpending)

theorem reach_resolvedOnce {s₀ : Store} {p : Pool Call Store Op Res Err Reply}
    (hp : governance.Reach RequestAsRead (Pool.start s₀) p) (id : ApprovalRequestID) :
    ResolvedOnce id p := by
  refine System.Reach.invariant (J := ResolvedOnce id) governance_keeps System.inContract_start
    ⟨Nat.zero_le 1, fun h => absurd h (Nat.lt_irrefl 0)⟩ ?_ ?_ hp
  · intro p c hJ
    have hsame : (p.spawn governance c).count (resolvesRequest id) = p.count (resolvesRequest id) :=
      Pool.count_spawn rfl
    exact ⟨hsame ▸ hJ.once, fun hpos => hJ.settled (hsame ▸ hpos)⟩
  · intro p i t o k ch r s' hreach hJ hi ht hperm hex hread
    have hkept := reach_keptRequest hreach t (List.mem_of_getElem? hi)
    by_cases hnew : (storedApproval ⟨o, r⟩).any (fun a => a.id = id)
    · -- the call has just written
      unfold storedApproval at hnew
      split at hnew
      · next a u heq =>
        cases heq
        obtain rfl : a.id = id := by simpa using hnew
        obtain rfl := approvalUpdate_ok hex
        obtain ⟨hzero, hsettled⟩ := hJ.first hkept hperm hread
        have hle : (p.advance i t _ k (.ok u) (p.store.updateApproval a)).count
            (resolvesRequest a.id) ≤ p.count (resolvesRequest a.id) + 1 := Pool.count_advance_le hi
        exact ⟨by omega, fun _ => hsettled⟩
      · cases hnew
    · -- any other operation leaves the count, and a settled request settled
      have hsame : (p.advance i t o k r s').count (resolvesRequest id)
          = p.count (resolvesRequest id) :=
        Pool.count_advance_of_eq hi (by simp only [resolvesRequest, hasStored_concat, hnew,
          Bool.or_false])
      refine ⟨hsame ▸ hJ.once, fun hpos => ?_⟩
      obtain ⟨a, ha, hid, hs⟩ := hJ.settled (hsame ▸ hpos)
      exact ⟨a, mem_of_settled ha hs hkept hperm hread (exec_effect hex), hid, hs⟩

/-! ### Successful calls -/

/-- The call is a `ResolveApproval` of the request `id` that has returned without an error. -/
def resolutionAccepted (id : ApprovalRequestID) (t : Thread Call Op Res Err Reply) : Bool :=
  match t.call, t.prog with
  | .resolveApproval input, .ret _ => input.approvalRequestID = id
  | _, _ => false

/-- A resolver that has returned without an error has written. -/
theorem resolvesRequest_of_accepted {t : Thread Call Op Res Err Reply}
    (ht : t.prog.Follows contract (t.call.Ends) t.log) (hacc : resolutionAccepted id t = true) :
    resolvesRequest id t.log = true := by
  unfold resolutionAccepted at hacc
  split at hacc
  · next input reply hcall hprog =>
    have hid : input.approvalRequestID = id := by simpa using hacc
    rw [hprog, hcall] at ht
    rw [← hid]
    exact ht reply rfl
  · cases hacc

/-- **A request is resolved once as long as writes find the status their call has read.** In every
pool `p` that any interleaving of any calls reaches from any store, in which every update of a
request meets `RequestAsRead`, at most one `ResolveApproval` of a request has returned without an
error; and when one has, the stored request is settled and is the same in every pool `p'` reached
from `p` under the same condition. -/
theorem request_resolved_once {s₀ : Store} {p : Pool Call Store Op Res Err Reply}
    (hp : governance.Reach RequestAsRead (Pool.start s₀) p) (id : ApprovalRequestID) :
    p.threads.countP (resolutionAccepted id) ≤ 1 ∧
    (0 < p.threads.countP (resolutionAccepted id) →
      ∃ a ∈ p.store.approvalRequests, a.id = id ∧ a.status ≠ .pending ∧
        ∀ p', governance.Reach RequestAsRead p p' →
          p'.store.approvalRequests.find id = some a) := by
  have hcontract := System.Reach.inContract governance_keeps System.inContract_start hp
  have haccepted : p.threads.countP (resolutionAccepted id) ≤ p.count (resolvesRequest id) :=
    List.countP_mono_left fun t ht hacc => resolvesRequest_of_accepted (hcontract t ht) hacc
  have honce := reach_resolvedOnce hp id
  refine ⟨Nat.le_trans haccepted honce.once, fun hpos => ?_⟩
  obtain ⟨a, ha, hid, hs⟩ := honce.settled (Nat.lt_of_lt_of_le hpos haccepted)
  refine ⟨a, ha, hid, hs, fun p' hp' => ?_⟩
  -- the row itself is the invariant of everything that follows `p`
  have hmem : a ∈ p'.store.approvalRequests := by
    refine System.Reach.invariant (J := fun q => a ∈ q.store.approvalRequests) governance_keeps
      hcontract ha (fun q c hq => hq) ?_ hp'
    intro q i t o k ch r s' hreach hq hi _ hperm hex hread
    have hkept := reach_keptRequest (hp.trans hreach) t (List.mem_of_getElem? hi)
    exact mem_of_settled hq hs hkept hperm hread (exec_effect hex)
  exact Table.find_eq_some_iff.mpr ⟨hmem, hid⟩

/-! ### The race -/

def denyFirst : Call :=
  .resolveApproval
    { approvalRequestID := firstRequest, approved := false, resolvedBy := systemActor
      reason := "not now" }

/-- One denial settles the request. -/
theorem request_resolved_once_denied : ∃ p : Pool Call Store Op Res Err Reply,
    governance.Reach RequestAsRead (Pool.start (Store.empty true)) p ∧
    0 < p.threads.countP (resolutionAccepted firstRequest) ∧
    p.threads.countP (resolutionAccepted firstRequest) ≤ 1 ∧
    ∃ a ∈ p.store.approvalRequests, a.id = firstRequest ∧ a.status ≠ .pending ∧
      ∀ p', governance.Reach RequestAsRead p p' →
        p'.store.approvalRequests.find firstRequest = some a := by
  have hrun : (governance.play (fun h s o _ _ => requestAsRead h s o)
      (Pool.start (Store.empty true)) (awaitingSchedule ++ whole 'e' 4 denyFirst 9)).map
        (fun p => p.threads.countP (resolutionAccepted firstRequest)) = some 1 := by decide +kernel
  obtain ⟨p, hplay, hcount⟩ := Option.map_eq_some_iff.mp hrun
  have hreach : governance.Reach RequestAsRead (Pool.start (Store.empty true)) p :=
    System.play_reach (fun _ _ _ _ _ hread => hread) hplay
  have hpos : 0 < p.threads.countP (resolutionAccepted firstRequest) := by rw [hcount]; decide
  have honce := request_resolved_once hreach firstRequest
  exact ⟨p, hreach, hpos, honce.1, honce.2 hpos⟩

/-- Two resolvers read the pending request, write their resolutions and read the waiting run, and
only then fail it. -/
def twoDenials : List (System.Action Call Choice) :=
  awaitingSchedule ++ [.spawn denyFirst, .spawn denyFirst] ++ advances 'e' 4 0 2 ++
    advances 'f' 5 0 2 ++ advances 'e' 4 2 2 ++ advances 'f' 5 2 2 ++ advances 'e' 4 4 5 ++
    advances 'f' 5 4 5

/-- **A request is resolved twice** when both resolvers have read it as pending. -/
theorem request_resolved_twice : ¬ ∀ p : Pool Call Store Op Res Err Reply,
    governance.Reach unguarded (Pool.start (Store.empty true)) p → ∀ id,
    p.threads.countP (resolutionAccepted id) ≤ 1 ∧
    (0 < p.threads.countP (resolutionAccepted id) →
      ∃ a ∈ p.store.approvalRequests, a.id = id ∧ a.status ≠ .pending ∧
        ∀ p', governance.Reach unguarded p p' → p'.store.approvalRequests.find id = some a) := by
  -- the second denial finds its stale copies pending and awaiting
  have hrun : (carryOut twoDenials).map
      (fun p => p.threads.countP (resolutionAccepted firstRequest)) = some 2 := by decide +kernel
  obtain ⟨p, hplay, hcount⟩ := Option.map_eq_some_iff.mp hrun
  intro honce
  have hle := (honce p (carryOut_reach hplay) firstRequest).1
  rw [hcount] at hle
  exact absurd hle (by decide)

end Governance

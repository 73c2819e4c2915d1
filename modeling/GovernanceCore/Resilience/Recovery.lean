import GovernanceCore.Resilience.Trip

/-!
# Recovery of a breaker

An open breaker closes again through three probes. Along any history the part since the last
opening has one of three shapes (`Phase`): nothing but observations that came too early, then one
successful probe after the cooldown, then a second one. A failed probe starts a new opening, and the
third successful probe closes the breaker, so at that point the history ends in an opening, early
observations and three successes (`breaker_recovers_after_cooldown`).

The buffer is not cleared when the breaker closes. It still holds the failures that were observed
while the breaker was open, and the ratio rule is evaluated at the next observation whether that is
a success or not. A recovered breaker therefore stays closed under further successes exactly when
at most half of the buffer is failures after one more success (`recovered_stays_closed_iff`).
-/

namespace Governance

open Framework

variable {key : BreakerKey} {now : Timestamp}

/-! ### Since the last opening -/

/-- The last opening of a breaker: `p` opened or re-opened it after `h₁`, and `l` is what has been
observed since. -/
structure LastOpening (key : BreakerKey) (now : Timestamp) (h₁ : List Observation)
    (p : Observation) (l : List Observation) : Prop where
  opening : (breakerAfter key now h₁).opens p = true
  /-- No observation since has opened the breaker again. -/
  latest : ∀ g q g', l = g ++ q :: g' → (breakerAfter key now (h₁ ++ p :: g)).opens q = false
  /-- An observation that came too early has moved nothing. -/
  held : ∀ g q g', l = g ++ q :: g' → (breakerAfter key now (h₁ ++ p :: g)).state = .open →
    q.at' - p.at' < openCooldown →
    (breakerAfter key now (h₁ ++ p :: (g ++ [q]))).state = .open ∧
      (breakerAfter key now (h₁ ++ p :: (g ++ [q]))).openedAt
        = (breakerAfter key now (h₁ ++ p :: g)).openedAt

/-- How far the breaker has got since an opening at the instant `t`, with the control it has then:
`l` has been observed since, and `isOpen` tells whether the breaker is open after a part of it. -/
inductive Phase (t : Timestamp) (isOpen : List Observation → Prop) :
    List Observation → BreakerState × Option Timestamp × Nat → Prop where
  | cooling {l : List Observation} (hl : isOpen l) : Phase t isOpen l (.open, some t, 0)
  | first {l : List Observation} {o₁ : Observation} (hl : isOpen l)
      (ht : openCooldown ≤ o₁.at' - t) (h₁ : o₁.success = true) :
      Phase t isOpen (l ++ [o₁]) (.halfOpen, some t, 1)
  | second {l : List Observation} {o₁ o₂ : Observation} (hl : isOpen l)
      (hleft : ¬isOpen (l ++ [o₁])) (ht : openCooldown ≤ o₁.at' - t) (h₁ : o₁.success = true)
      (h₂ : o₂.success = true) :
      Phase t isOpen (l ++ [o₁, o₂]) (.halfOpen, some t, 2)

/-- Whether the breaker is open after `p` and then `l`. -/
def OpenAfter (key : BreakerKey) (now : Timestamp) (h₁ : List Observation) (p : Observation)
    (l : List Observation) : Prop :=
  (breakerAfter key now (h₁ ++ p :: l)).state = .open

/-- Every breaker that is not closed is in a phase after its last opening. -/
def Probing (key : BreakerKey) (now : Timestamp) (h : List Observation) : Prop :=
  ∃ h₁ p l, h = h₁ ++ p :: l ∧ LastOpening key now h₁ p l ∧
    Phase p.at' (OpenAfter key now h₁ p) l (breakerAfter key now h).control

theorem LastOpening.new {h : List Observation} {p : Observation}
    (hopens : (breakerAfter key now h).opens p = true) : LastOpening key now h p [] where
  opening := hopens
  latest := fun g _ _ hl => absurd hl.symm (List.append_ne_nil_of_right_ne_nil g nofun)
  held := fun g _ _ hl => absurd hl.symm (List.append_ne_nil_of_right_ne_nil g nofun)

/-- One more observation that does not open the breaker. -/
theorem LastOpening.concat {h₁ l : List Observation} {p o : Observation}
    (hlast : LastOpening key now h₁ p l)
    (hopens : (breakerAfter key now (h₁ ++ p :: l)).opens o = false)
    (hheld : OpenAfter key now h₁ p l → o.at' - p.at' < openCooldown →
      (breakerAfter key now (h₁ ++ p :: (l ++ [o]))).state = .open ∧
        (breakerAfter key now (h₁ ++ p :: (l ++ [o]))).openedAt
          = (breakerAfter key now (h₁ ++ p :: l)).openedAt) :
    LastOpening key now h₁ p (l ++ [o]) := by
  refine ⟨hlast.opening, fun g q g' hl => ?_, fun g q g' hl hopen ht => ?_⟩
  · rcases concat_eq_append_cons_iff.mp hl with ⟨g₁, -, hl'⟩ | ⟨rfl, rfl, -⟩
    · exact hlast.latest g q g₁ hl'
    · exact hopens
  · rcases concat_eq_append_cons_iff.mp hl with ⟨g₁, -, hl'⟩ | ⟨rfl, rfl, -⟩
    · exact hlast.held g q g₁ hl' hopen ht
    · exact hheld hopen ht

/-- One observation, from one phase to the next. -/
theorem Probing.step {h : List Observation} {o : Observation}
    (hP : (breakerAfter key now h).state ≠ .closed → Probing key now h)
    (hopen : (breakerAfter key now (h ++ [o])).state ≠ .closed) :
    Probing key now (h ++ [o]) := by
  obtain ⟨c, opened, hstep, hc, hopened⟩ := exists_controlStep key now h o
  have hstate : c.1 ≠ .closed := fun hcl => hopen ((congrArg Prod.fst hc).trans hcl)
  cases hstep with
  | stay | recover => exact absurd rfl hstate
  | trip | reopen | relapse =>
    -- the observation itself is the last opening
    refine ⟨h, o, [], rfl, .new hopened, ?_⟩
    rw [hc]
    exact .cooling (congrArg Prod.fst hc)
  | undated hs hat =>
    have hclosed := (breakerAfter_controlFits h).dated.mp hat
    rw [CircuitBreaker.control, hs] at hclosed
    cases hclosed
  | wait hs hat ht =>
    obtain ⟨h₁, p, l, rfl, hlast, hphase⟩ := hP (by rw [hs]; decide)
    rw [CircuitBreaker.control, hs, hat] at hphase
    rw [List.append_assoc, List.cons_append] at hc ⊢
    generalize (breakerAfter key now (h₁ ++ p :: l)).consecutiveSuccesses = n at hphase
    cases hphase with
    | cooling hl =>
      refine ⟨h₁, p, l ++ [o], rfl, hlast.concat hopened fun _ _ => ?_, ?_⟩
      · exact ⟨congrArg Prod.fst hc, (congrArg (fun c => c.2.1) hc).trans hat.symm⟩
      · rw [hc]
        exact .cooling (congrArg Prod.fst hc)
  | probe hs hat ht ho =>
    obtain ⟨h₁, p, l, rfl, hlast, hphase⟩ := hP (by rw [hs]; decide)
    rw [CircuitBreaker.control, hs, hat] at hphase
    rw [List.append_assoc, List.cons_append] at hc ⊢
    generalize (breakerAfter key now (h₁ ++ p :: l)).consecutiveSuccesses = n at hphase
    cases hphase with
    | cooling hl =>
      -- the probe does not come too early
      refine ⟨h₁, p, l ++ [o], rfl, hlast.concat hopened fun _ hlt => ?_, ?_⟩
      · exact absurd hlt (Int.not_lt.mpr ht)
      · rw [hc]
        exact .first hl ht ho
  | again hs ho hlt =>
    obtain ⟨h₁, p, l, rfl, hlast, hphase⟩ := hP (by rw [hs]; decide)
    rw [CircuitBreaker.control, hs] at hphase
    rw [List.append_assoc, List.cons_append] at hc ⊢
    generalize hat : (breakerAfter key now (h₁ ++ p :: l)).openedAt = t,
      hn : (breakerAfter key now (h₁ ++ p :: l)).consecutiveSuccesses = n at hphase hc hlt
    cases hphase with
    | first hl ht ho₁ =>
      -- a probing breaker is not open
      have hleft : ¬OpenAfter key now h₁ p _ := fun hop => by cases hs.symm.trans hop
      refine ⟨h₁, p, _, rfl, hlast.concat hopened fun hop _ => absurd hop hleft, ?_⟩
      rw [hc, List.append_assoc]
      exact .second hl hleft ht ho₁ ho
    | second => exact absurd hlt (Nat.lt_irrefl 2)

theorem probing_of_ne_closed (h : List Observation)
    (hopen : (breakerAfter key now h).state ≠ .closed) : Probing key now h := by
  induction h using List.reverseRecOn with
  | nil => exact absurd rfl hopen
  | append_singleton h o ih => exact Probing.step ih hopen

/-- What stands behind the recovery of a breaker that `o` closes after `h`: the opening `p` before
it, the observations `l` that came between, and the two probes before the last. -/
structure RecoveredBy (key : BreakerKey) (now : Timestamp) (h : List Observation) (o : Observation)
    (h₁ : List Observation) (p : Observation) (l : List Observation) (o₁ o₂ : Observation) :
    Prop where
  history : h ++ [o] = h₁ ++ p :: (l ++ [o₁, o₂, o])
  successes : o₁.success = true ∧ o₂.success = true ∧ o.success = true
  /-- `p` is the most recent opening, and what came too early after it has moved nothing. -/
  opening : LastOpening key now h₁ p (l ++ [o₁, o₂, o])
  /-- The first of the three successes left the open state. -/
  left_open : (breakerAfter key now (h₁ ++ p :: l)).state = .open ∧
    (breakerAfter key now (h₁ ++ p :: (l ++ [o₁]))).state ≠ .open
  cooldown : openCooldown ≤ o₁.at' - p.at'

/-- **Recovery.** Whatever is observed, and at whatever times, an observation that closes a breaker
which was not closed is the third of three successes in a row, and the first of the three came at
least the cooldown after the last opening. -/
theorem breaker_recovers_after_cooldown (key : BreakerKey) (now : Timestamp)
    (h : List Observation) (o : Observation) (hopen : (breakerAfter key now h).state ≠ .closed)
    (hclosed : (breakerAfter key now (h ++ [o])).state = .closed) :
    ∃ h₁ p l o₁ o₂, RecoveredBy key now h o h₁ p l o₁ o₂ := by
  obtain ⟨c, opened, hstep, hc, hopened⟩ := exists_controlStep key now h o
  have hstate : c.1 = .closed := (congrArg Prod.fst hc).symm.trans hclosed
  cases hstep with
  | stay hs => exact absurd hs hopen
  -- Every rule but one ends in `open` or `half_open`.
  | trip | undated | wait | probe | reopen | again | relapse => cases hstate
  | recover hs ho hle =>
    obtain ⟨h₁, p, l, rfl, hlast, hphase⟩ := probing_of_ne_closed h hopen
    rw [CircuitBreaker.control, hs] at hphase
    generalize (breakerAfter key now (h₁ ++ p :: l)).openedAt = t,
      (breakerAfter key now (h₁ ++ p :: l)).consecutiveSuccesses = n at hphase hle
    cases hphase with
    | first => exact absurd hle (by decide)
    | @second l o₁ o₂ hl hleft ht ho₁ ho₂ =>
      have hprobes : l ++ [o₁, o₂] ++ [o] = l ++ [o₁, o₂, o] := by rw [List.append_assoc]; rfl
      have hall : LastOpening key now h₁ p (l ++ [o₁, o₂] ++ [o]) :=
        hlast.concat hopened fun hop _ => by cases hs.symm.trans hop
      refine ⟨h₁, p, l, o₁, o₂, ?_, ⟨ho₁, ho₂, ho⟩, hprobes ▸ hall, ⟨hl, hleft⟩, ht⟩
      rw [List.append_assoc, List.cons_append, hprobes]

/-- Three failures open a breaker, and three probes after the cooldown are about to close it. -/
def recoveringHistory : List Observation :=
  [⟨false, 0⟩, ⟨false, second⟩, ⟨false, 2 * second⟩, ⟨true, 62 * second⟩, ⟨true, 63 * second⟩]

theorem breaker_recovers_after_three_failures :
    ∃ h₁ p l o₁ o₂, RecoveredBy ⟨"shell", "implementer"⟩ 0 recoveringHistory ⟨true, 64 * second⟩
      h₁ p l o₁ o₂ :=
  breaker_recovers_after_cooldown _ _ _ _ (by decide +kernel) (by decide +kernel)

/-! ### After the recovery -/

/-- A breaker leaves `closed` after three observations at the earliest. -/
theorem three_le_length_of_ne_closed (h : List Observation)
    (hopen : (breakerAfter key now h).state ≠ .closed) : 3 ≤ h.length := by
  induction h using List.reverseRecOn with
  | nil => exact absurd rfl hopen
  | append_singleton h o ih =>
    by_cases hclosed : (breakerAfter key now h).state = .closed
    · exact ((state_ne_closed_concat_iff hclosed).mp hopen).length_le
    · have hlen := ih hclosed
      rw [List.length_append]
      omega

/-- After a success only the ratio can trip, and the success itself is no failure. -/
theorem tripRule_concat_success {h : List Observation} {o : Observation}
    (ho : o.success = true) :
    TripRule (h ++ [o]) ↔
      4 ≤ h.length ∧ min (h.length + 1) 20 < 2 * (h.rtake 19).countP Observation.failure := by
  have hcount : ((h ++ [o]).rtake 20).countP Observation.failure
      = (h.rtake 19).countP Observation.failure := by
    rw [List.rtake_concat_succ, List.countP_append]
    simp [Observation.failure, ho]
  rw [TripRule, hcount, List.length_append, List.length_singleton]
  refine ⟨fun ht => ?_, fun ht => .inr ⟨by omega, ht.2⟩⟩
  rcases ht with ⟨-, hall⟩ | ⟨hlen, hratio⟩
  · -- the last of the three is the success
    have hmem : o ∈ (h ++ [o]).rtake 3 := by
      rw [List.rtake_concat_succ]
      exact List.mem_append_right _ (List.mem_singleton_self o)
    rw [hall o hmem] at ho
    cases ho
  · exact ⟨by omega, hratio⟩

/-- Further successes only push failures out of the window. -/
theorem countP_rtake_append_le {h l : List Observation} (hl : ∀ q ∈ l, q.success = true) (n : Nat) :
    ((h ++ l).rtake n).countP Observation.failure ≤ (h.rtake n).countP Observation.failure := by
  have hzero : ∀ l' : List Observation, (∀ q ∈ l', q ∈ l) → l'.countP Observation.failure = 0 := by
    intro l' hsub
    rw [List.countP_eq_zero]
    intro q hq
    simp [Observation.failure, hl q (hsub q hq)]
  rcases Nat.le_total l.length n with hle | hge
  · calc ((h ++ l).rtake n).countP Observation.failure
        = (h.rtake (n - l.length)).countP Observation.failure + l.countP Observation.failure := by
          rw [rtake_append_of_le hle, List.countP_append]
      _ = (h.rtake (n - l.length)).countP Observation.failure := by
          rw [hzero l fun _ hq => hq, Nat.add_zero]
      _ ≤ (h.rtake n).countP Observation.failure :=
          (rtake_suffix_rtake (Nat.sub_le _ _) h).sublist.countP_le
  · rw [rtake_append_of_ge hge, hzero (l.rtake n) fun q hq => List.mem_of_mem_drop hq]
    exact Nat.zero_le _

/-- **A recovered breaker.** When an observation has just closed a probing breaker, the breaker
stays closed under every number of further successes exactly when at most half of the window that
one more success leaves, the last nineteen observations and that success, are failures. -/
theorem recovered_stays_closed_iff (key : BreakerKey) (now : Timestamp) (h : List Observation)
    (o : Observation) (hprobing : (breakerAfter key now h).state = .halfOpen)
    (hclosed : (breakerAfter key now (h ++ [o])).state = .closed) :
    (∀ l : List Observation, (∀ q ∈ l, q.success = true) →
        (breakerAfter key now (h ++ [o] ++ l)).state = .closed) ↔
      2 * ((h ++ [o]).rtake 19).countP Observation.failure
        ≤ min ((h ++ [o]).length + 1) 20 := by
  have hlen : 4 ≤ (h ++ [o]).length := by
    have hopen : (breakerAfter key now h).state ≠ .closed := by rw [hprobing]; decide
    have hthree := three_le_length_of_ne_closed h hopen
    rw [List.length_append, List.length_singleton]
    omega
  generalize h ++ [o] = H at hclosed hlen ⊢
  refine ⟨fun hstay => ?_, fun hfew l hl => ?_⟩
  · -- already the first further success would trip on a window with too many failures
    have hone := hstay [⟨true, 0⟩] (by simp)
    have hno : ¬TripRule (H ++ [⟨true, 0⟩]) := fun ht =>
      (state_ne_closed_concat_iff hclosed).mpr ht hone
    rw [tripRule_concat_success rfl] at hno
    omega
  · -- the window only gets better, so no later success trips either
    induction l using List.reverseRecOn with
    | nil => rwa [List.append_nil]
    | append_singleton l q ih =>
      have hl' : ∀ q ∈ l, q.success = true := fun q hq => hl q (List.mem_append_left _ hq)
      have hq : q.success = true := hl q (List.mem_append_right _ (List.mem_singleton_self q))
      have hfewer := countP_rtake_append_le (h := H) hl' 19
      have hno : ¬TripRule (H ++ l ++ [q]) := by
        rw [tripRule_concat_success hq, List.length_append]
        omega
      rw [← List.append_assoc]
      by_contra hopen
      exact hno ((state_ne_closed_concat_iff (ih hl')).mp hopen)

theorem recovered_stays_closed_after_three_failures :
    (breakerAfter ⟨"shell", "implementer"⟩ 0 recoveringHistory).state = .halfOpen ∧
      (breakerAfter ⟨"shell", "implementer"⟩ 0
        (recoveringHistory ++ [⟨true, 64 * second⟩])).state = .closed ∧
      ∀ l : List Observation, (∀ q ∈ l, q.success = true) →
        (breakerAfter ⟨"shell", "implementer"⟩ 0
          (recoveringHistory ++ [⟨true, 64 * second⟩] ++ l)).state = .closed := by
  refine ⟨by decide +kernel, by decide +kernel, ?_⟩
  exact (recovered_stays_closed_iff _ _ _ _ (by decide +kernel) (by decide +kernel)).mpr
    (by decide +kernel)

/-- Two more failures while the breaker is open: the success after the recovery opens it again. -/
def crowdedHistory : List Observation :=
  [⟨false, 0⟩, ⟨false, second⟩, ⟨false, 2 * second⟩, ⟨false, 3 * second⟩, ⟨false, 4 * second⟩,
    ⟨true, 62 * second⟩, ⟨true, 63 * second⟩]

theorem recovered_breaker_trips_on_success :
    let after := fun l => breakerAfter ⟨"shell", "implementer"⟩ 0 (crowdedHistory ++ l)
    (after []).state = .halfOpen ∧ (after [⟨true, 64 * second⟩]).state = .closed ∧
      (after [⟨true, 64 * second⟩, ⟨true, 65 * second⟩]).state = .open := by
  decide +kernel

end Governance

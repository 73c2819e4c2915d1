import GovernanceCore.Framework.History
import GovernanceCore.Resilience.Breaker
import Mathlib.Tactic.Linarith

/-!
# What a breaker knows, and when it trips

A breaker is fed observations, each a success flag and an instant. `Observe` updates the buffer and
the failure counter first, in every state, and only then looks at the state, so the two are
functions of the whole history (`breakerAfter_ringBuffer`, `breakerAfter_consecutiveFailures`). The
switch on the state has nine ends, and what is returned at each of them is read off the source once,
in `Observed`. What it moves, the **control** of the breaker (its state, the opening instant and the
success counter), is moved by nine rules, `ControlStep`; every later argument about the history is a
case analysis on them.

The trip rule of the source reads the buffer and the counter. Through the two equations above it
becomes a rule about the history alone, `TripRule`, and a closed breaker leaves the closed state at
an observation exactly when the history up to it satisfies the rule.

Times are arbitrary: nothing here assumes that instants increase.
-/

namespace Governance

open Framework

/-- One observation of a tool: the two arguments of `Observe`. -/
structure Observation where
  success : Bool
  at' : Timestamp
  deriving DecidableEq, Repr

/-- `Observe`, without the transition it reports. -/
def CircuitBreaker.step (b : CircuitBreaker) (o : Observation) : CircuitBreaker :=
  (b.observe o.success o.at').1

/-- A new breaker after a history of observations. -/
def breakerAfter (key : BreakerKey) (now : Timestamp) (h : List Observation) : CircuitBreaker :=
  after CircuitBreaker.step (newCircuitBreaker key now) h

@[simp] theorem breakerAfter_concat (key : BreakerKey) (now : Timestamp) (h : List Observation)
    (o : Observation) :
    breakerAfter key now (h ++ [o]) = (breakerAfter key now h).step o :=
  after_concat h o

/-! ### One observation -/

namespace CircuitBreaker

/-- The part of a breaker that its state machine moves. -/
def control (b : CircuitBreaker) : BreakerState × Option Timestamp × Nat :=
  (b.state, b.openedAt, b.consecutiveSuccesses)

/-- The trip condition on buffer and counter, without the reason. -/
def Trips (b : CircuitBreaker) : Prop :=
  3 ≤ b.consecutiveFailures ∨
    5 ≤ b.ringBuffer.length ∧ b.ringBuffer.length < 2 * b.ringBuffer.count true

theorem lt_failureRate_iff {b : CircuitBreaker} (hlen : 0 < b.ringBuffer.length) :
    ratioFailureThreshold < b.failureRate ↔ b.ringBuffer.length < 2 * b.ringBuffer.count true := by
  have hpos : (0 : ℚ) < b.ringBuffer.length := Nat.cast_pos.mpr hlen
  rw [failureRate, if_neg (by omega), ratioFailureThreshold, lt_div_iff₀ hpos,
    ← Nat.cast_lt (α := ℚ), Nat.cast_mul, Nat.cast_ofNat]
  refine ⟨fun h => ?_, fun h => ?_⟩ <;> linarith

theorem evaluateTrip_eq_none_iff (b : CircuitBreaker) : b.evaluateTrip = none ↔ ¬b.Trips := by
  rw [evaluateTrip, Trips, consecutiveFailuresThreshold, ratioMinSamples]
  by_cases hfail : 3 ≤ b.consecutiveFailures
  · simp [hfail]
  · by_cases hlen : 5 ≤ b.ringBuffer.length
    · simp [hfail, hlen, lt_failureRate_iff (b := b) (by omega)]
    · simp [hfail, hlen]

/-- The counters and the buffer after an observation, before the switch on the state. -/
def noted (b : CircuitBreaker) (o : Observation) : CircuitBreaker :=
  ({ b with updatedAt := o.at' }.appendToRingBuffer (!o.success)).count o.success

theorem noted_ringBuffer (b : CircuitBreaker) (o : Observation) :
    (b.noted o).ringBuffer = pushWindow ratioWindowSize b.ringBuffer (!o.success) := by
  unfold noted count
  split <;> rfl

theorem noted_consecutiveFailures (b : CircuitBreaker) (o : Observation) :
    (b.noted o).consecutiveFailures = if o.success then 0 else b.consecutiveFailures + 1 := by
  unfold noted count
  split <;> rfl

theorem noted_state (b : CircuitBreaker) (o : Observation) : (b.noted o).state = b.state := by
  unfold noted count
  split <;> rfl

theorem noted_openedAt (b : CircuitBreaker) (o : Observation) :
    (b.noted o).openedAt = b.openedAt := by
  unfold noted count
  split <;> rfl

theorem noted_consecutiveSuccesses (b : CircuitBreaker) (o : Observation) :
    (b.noted o).consecutiveSuccesses =
      if o.success ∧ b.state = .halfOpen then b.consecutiveSuccesses + 1 else 0 := by
  unfold noted count
  by_cases hs : o.success = true
  · simp [hs, appendToRingBuffer]
  · simp [hs]

theorem noted_control (b : CircuitBreaker) (o : Observation) :
    (b.noted o).control = (b.state, b.openedAt,
      if o.success ∧ b.state = .halfOpen then b.consecutiveSuccesses + 1 else 0) := by
  rw [control, noted_state, noted_openedAt, noted_consecutiveSuccesses]

/-- What `Observe` returns, one rule for each end of its switch on the state. -/
inductive Observed (b : CircuitBreaker) (o : Observation) :
    CircuitBreaker × Option StateTransition → Prop where
  | stay (hs : b.state = .closed) (ht : ¬(b.noted o).Trips) : Observed b o (b.noted o, none)
  | trip {b' : CircuitBreaker} (reason : TripReason) (hs : b.state = .closed)
      (ht : (b.noted o).Trips) (hb : b' = (b.noted o).opened o.at') :
      Observed b o (b', some (b'.makeTransition .closed .open reason o.at'))
  | undated (hs : b.state = .open) (hat : b.openedAt = none) : Observed b o (b.noted o, none)
  | wait {t : Timestamp} (hs : b.state = .open) (hat : b.openedAt = some t)
      (ht : o.at' - t < openCooldown) : Observed b o (b.noted o, none)
  | probe {b' : CircuitBreaker} {t : Timestamp} (hs : b.state = .open) (hat : b.openedAt = some t)
      (ht : openCooldown ≤ o.at' - t) (ho : o.success = true)
      (hb : b' = { b.noted o with
        state := .halfOpen, openedAt := some t, consecutiveSuccesses := 1 }) :
      Observed b o (b', some (b'.makeTransition .open .halfOpen .unset o.at'))
  | reopen {b' : CircuitBreaker} {t : Timestamp} (hs : b.state = .open) (hat : b.openedAt = some t)
      (ht : openCooldown ≤ o.at' - t) (ho : o.success = false)
      (hb : b' = { (b.noted o).opened o.at' with consecutiveSuccesses := 0 }) :
      Observed b o (b', some (b'.makeTransition .halfOpen .open .unset o.at'))
  | again (hs : b.state = .halfOpen) (ho : o.success = true) (hc : b.consecutiveSuccesses < 2) :
      Observed b o (b.noted o, none)
  | recover {b' : CircuitBreaker} (hs : b.state = .halfOpen) (ho : o.success = true)
      (hc : 2 ≤ b.consecutiveSuccesses)
      (hb : b' = { b.noted o with state := .closed, openedAt := none }) :
      Observed b o ({ b' with consecutiveSuccesses := 0 },
        some (b'.makeTransition .halfOpen .closed .unset o.at'))
  | relapse {b' : CircuitBreaker} (hs : b.state = .halfOpen) (ho : o.success = false)
      (hb : b' = { (b.noted o).opened o.at' with consecutiveSuccesses := 0 }) :
      Observed b o (b', some (b'.makeTransition .halfOpen .open .unset o.at'))

theorem observed (b : CircuitBreaker) (o : Observation) :
    Observed b o (b.observe o.success o.at') := by
  -- `Observe` counts first, in every state, and then switches on the state.
  have hnoted : ({ b with updatedAt := o.at' }.appendToRingBuffer (!o.success)).count o.success
      = b.noted o := rfl
  rw [observe, hnoted, noted_state, noted_openedAt]
  cases hs : b.state with
  | closed =>
    cases htrip : (b.noted o).evaluateTrip with
    | none => exact .stay hs ((evaluateTrip_eq_none_iff _).mp htrip)
    | some reason =>
      refine .trip reason hs ?_ rfl
      by_contra hno
      rw [(evaluateTrip_eq_none_iff _).mpr hno] at htrip
      cases htrip
  | «open» =>
    cases hat : b.openedAt with
    | none => exact .undated hs hat
    | some t =>
      dsimp only
      by_cases ht : o.at' - t < openCooldown
      · rw [if_pos ht]
        exact .wait hs hat ht
      · rw [if_neg ht]
        cases ho : o.success with
        | true =>
          -- The probe that leaves `open` is already the first of the three.
          exact .probe hs hat (Int.not_lt.mp ht) ho rfl
        | false => exact .reopen hs hat (Int.not_lt.mp ht) ho rfl
  | halfOpen =>
    dsimp only
    cases ho : o.success with
    | true =>
      have hcount : (b.noted o).consecutiveSuccesses = b.consecutiveSuccesses + 1 := by
        rw [noted_consecutiveSuccesses, if_pos ⟨ho, hs⟩]
      -- The counter includes this success when it is compared with the threshold.
      have hlast : halfOpenProbeSuccesses ≤ (b.noted o).consecutiveSuccesses ↔
          2 ≤ b.consecutiveSuccesses := by
        rw [hcount, halfOpenProbeSuccesses]
        omega
      by_cases hc : 2 ≤ b.consecutiveSuccesses
      · rw [if_pos rfl, if_pos (hlast.mpr hc)]
        exact .recover hs ho hc rfl
      · rw [if_pos rfl, if_neg (fun h => hc (hlast.mp h))]
        exact .again hs ho (Nat.lt_of_not_le hc)
    | false => exact .relapse hs ho rfl

/-- How one observation moves the control of a breaker, and whether it opens the breaker. -/
inductive ControlStep (b : CircuitBreaker) (o : Observation) :
    BreakerState × Option Timestamp × Nat → Bool → Prop where
  /-- Nothing trips a closed breaker. -/
  | stay (hs : b.state = .closed) (ht : ¬(b.noted o).Trips) :
      ControlStep b o (.closed, b.openedAt, 0) false
  /-- A closed breaker trips. -/
  | trip (hs : b.state = .closed) (ht : (b.noted o).Trips) :
      ControlStep b o (.open, some o.at', 0) true
  /-- An open breaker without an opening instant moves no more. -/
  | undated (hs : b.state = .open) (hat : b.openedAt = none) :
      ControlStep b o (.open, none, 0) false
  /-- The cooldown is not over. -/
  | wait {t : Timestamp} (hs : b.state = .open) (hat : b.openedAt = some t)
      (ht : o.at' - t < openCooldown) : ControlStep b o (.open, some t, 0) false
  /-- The first probe after the cooldown succeeds. -/
  | probe {t : Timestamp} (hs : b.state = .open) (hat : b.openedAt = some t)
      (ht : openCooldown ≤ o.at' - t) (ho : o.success = true) :
      ControlStep b o (.halfOpen, some t, 1) false
  /-- The first observation after the cooldown fails: the cooldown starts again. -/
  | reopen {t : Timestamp} (hs : b.state = .open) (hat : b.openedAt = some t)
      (ht : openCooldown ≤ o.at' - t) (ho : o.success = false) :
      ControlStep b o (.open, some o.at', 0) true
  /-- A further probe succeeds. -/
  | again (hs : b.state = .halfOpen) (ho : o.success = true) (hc : b.consecutiveSuccesses < 2) :
      ControlStep b o (.halfOpen, b.openedAt, b.consecutiveSuccesses + 1) false
  /-- The last probe succeeds. -/
  | recover (hs : b.state = .halfOpen) (ho : o.success = true) (hc : 2 ≤ b.consecutiveSuccesses) :
      ControlStep b o (.closed, none, 0) false
  /-- A probe fails. -/
  | relapse (hs : b.state = .halfOpen) (ho : o.success = false) :
      ControlStep b o (.open, some o.at', 0) true

/-- An observation opens or re-opens a breaker when it reports a transition to `open`. -/
def opens (b : CircuitBreaker) (o : Observation) : Bool :=
  match (b.observe o.success o.at').2 with
  | some tr => tr.target = .open
  | none => false

/-- `Observe` is one of the rules. -/
theorem observe_controlStep (b : CircuitBreaker) (o : Observation) :
    ControlStep b o (b.step o).control (b.opens o) := by
  have hsucc := b.noted_consecutiveSuccesses o
  have hcontrol := b.noted_control o
  have hcase := b.observed o
  rw [step, opens]
  generalize b.observe o.success o.at' = res at hcase ⊢
  -- The success counter is at zero unless a probe has just succeeded.
  cases hcase with
  | stay hs ht =>
    rw [hs, if_neg (by simp)] at hcontrol
    rw [hcontrol]
    exact .stay hs ht
  | trip reason hs ht hb =>
    rw [hs, if_neg (by simp)] at hsucc
    rw [hb, opened, control, hsucc]
    exact .trip hs ht
  | undated hs hat =>
    rw [hs, hat, if_neg (by simp)] at hcontrol
    rw [hcontrol]
    exact .undated hs hat
  | wait hs hat ht =>
    rw [hs, hat, if_neg (by simp)] at hcontrol
    rw [hcontrol]
    exact .wait hs hat ht
  | probe hs hat ht ho hb =>
    rw [hb]
    exact .probe hs hat ht ho
  | reopen hs hat ht ho hb =>
    rw [hb]
    exact .reopen hs hat ht ho
  | again hs ho hc =>
    rw [if_pos ⟨ho, hs⟩, hs] at hcontrol
    rw [hcontrol]
    exact .again hs ho hc
  | recover hs ho hc hb =>
    rw [hb]
    exact .recover hs ho hc
  | relapse hs ho hb =>
    rw [hb]
    exact .relapse hs ho

/-- The switch on the state moves the control only. -/
theorem step_eq (b : CircuitBreaker) (o : Observation) :
    ∃ st t c, b.step o =
      { b.noted o with state := st, openedAt := t, consecutiveSuccesses := c } := by
  have hcase := b.observed o
  rw [step]
  generalize b.observe o.success o.at' = res at hcase ⊢
  -- None of the nine ends assigns to the buffer or the failure counter.
  cases hcase with
  | stay | undated | wait | again => exact ⟨_, _, _, rfl⟩
  | trip _ _ _ hb | probe _ _ _ _ hb | reopen _ _ _ _ hb | recover _ _ _ hb | relapse _ _ hb =>
    rw [hb]
    exact ⟨_, _, _, rfl⟩

theorem step_ringBuffer (b : CircuitBreaker) (o : Observation) :
    (b.step o).ringBuffer = (b.noted o).ringBuffer := by
  obtain ⟨st, t, c, h⟩ := step_eq b o
  rw [h]

theorem step_consecutiveFailures (b : CircuitBreaker) (o : Observation) :
    (b.step o).consecutiveFailures = (b.noted o).consecutiveFailures := by
  obtain ⟨st, t, c, h⟩ := step_eq b o
  rw [h]

end CircuitBreaker

/-! ### Buffer and counter as functions of the history -/

variable {key : BreakerKey} {now : Timestamp}

/-- The failure flag that an observation leaves in the buffer. -/
def Observation.failure (o : Observation) : Bool := !o.success

theorem breakerAfter_ringBuffer (h : List Observation) :
    (breakerAfter key now h).ringBuffer = (h.map Observation.failure).rtake ratioWindowSize := by
  refine after_induction (P := fun h (b : CircuitBreaker) =>
    b.ringBuffer = (h.map Observation.failure).rtake ratioWindowSize) rfl ?_ h
  intro h b o _ ih
  rw [CircuitBreaker.step_ringBuffer, CircuitBreaker.noted_ringBuffer, ih, List.map_append,
    List.map_singleton, rtake_concat_eq_pushWindow (by decide), Observation.failure]

theorem breakerAfter_consecutiveFailures (h : List Observation) :
    (breakerAfter key now h).consecutiveFailures
      = (h.rtakeWhile Observation.failure).length := by
  refine after_induction (P := fun h (b : CircuitBreaker) =>
    b.consecutiveFailures = (h.rtakeWhile Observation.failure).length) rfl ?_ h
  intro h b o _ ih
  rw [CircuitBreaker.step_consecutiveFailures, CircuitBreaker.noted_consecutiveFailures, ih,
    List.rtakeWhile_concat, Observation.failure]
  cases o.success with
  | true => rfl
  | false => simp

/-- The trip condition on a history: the last three observations are failures, or there are at
least five observations and more than half of the last twenty are failures. -/
def TripRule (h : List Observation) : Prop :=
  (3 ≤ h.length ∧ ∀ o ∈ h.rtake 3, o.success = false) ∨
    5 ≤ h.length ∧ min h.length 20 < 2 * (h.rtake 20).countP Observation.failure

instance (h : List Observation) : Decidable (TripRule h) :=
  inferInstanceAs (Decidable (_ ∨ _))

theorem TripRule.length_le {h : List Observation} (ht : TripRule h) : 3 ≤ h.length := by
  rcases ht with ⟨hlen, -⟩ | ⟨hlen, -⟩
  · exact hlen
  · omega

/-- The source's condition on buffer and counter is the rule on the history. -/
theorem trips_breakerAfter_iff (h : List Observation) :
    (breakerAfter key now h).Trips ↔ TripRule h := by
  have hcount : ((h.map Observation.failure).rtake 20).count true
      = (h.rtake 20).countP Observation.failure := by
    rw [← map_rtake, List.count, List.countP_map]
    congr 1
    ext o
    simp
  rw [CircuitBreaker.Trips, breakerAfter_ringBuffer, breakerAfter_consecutiveFailures,
    le_length_rtakeWhile_iff, ratioWindowSize, hcount, length_rtake, List.length_map, TripRule,
    Nat.min_comm 20]
  refine or_congr (and_congr_right fun _ => ?_) (and_congr_left fun _ => by omega)
  simp [Observation.failure]

/-! ### The control along a history -/

theorem CircuitBreaker.trips_step_iff (b : CircuitBreaker) (o : Observation) :
    (b.step o).Trips ↔ (b.noted o).Trips := by
  rw [Trips, Trips, step_ringBuffer, step_consecutiveFailures]

/-- The rule that the last observation of a history has taken. -/
theorem exists_controlStep (key : BreakerKey) (now : Timestamp) (h : List Observation)
    (o : Observation) :
    ∃ c opened, (breakerAfter key now h).ControlStep o c opened ∧
      (breakerAfter key now (h ++ [o])).control = c ∧
      (breakerAfter key now h).opens o = opened := by
  rw [breakerAfter_concat]
  exact ⟨_, _, CircuitBreaker.observe_controlStep _ o, rfl, rfl⟩

/-- A closed breaker is moved by the trip rule on its history and by nothing else. -/
theorem state_ne_closed_concat_iff {h : List Observation} {o : Observation}
    (hclosed : (breakerAfter key now h).state = .closed) :
    (breakerAfter key now (h ++ [o])).state ≠ .closed ↔ TripRule (h ++ [o]) := by
  obtain ⟨c, opened, hstep, hc, -⟩ := exists_controlStep key now h o
  have hstate : (breakerAfter key now (h ++ [o])).state = c.1 := congrArg Prod.fst hc
  have htrip : TripRule (h ++ [o]) ↔ ((breakerAfter key now h).noted o).Trips := by
    rw [← CircuitBreaker.trips_step_iff, ← breakerAfter_concat, trips_breakerAfter_iff]
  rw [hstate, htrip]
  -- the rules of the other two states do not apply
  cases hstep with
  | stay _ ht => exact iff_of_false (fun hne => hne rfl) ht
  | trip _ ht => exact iff_of_true nofun ht
  | undated hs | wait hs | probe hs | reopen hs | again hs | recover hs | relapse hs =>
    rw [hclosed] at hs
    cases hs

/-- What the fields of a breaker say about its history. -/
structure Represents (h : List Observation) (b : CircuitBreaker) : Prop where
  /-- The buffer is the failure flags of the last twenty observations, oldest first. -/
  ringBuffer : b.ringBuffer = (h.map Observation.failure).rtake 20
  /-- The failure counter is the trailing run of failures. -/
  consecutiveFailures : b.consecutiveFailures = (h.rtakeWhile Observation.failure).length
  /-- Successes are counted in `half_open` only. -/
  idle : b.state ≠ .halfOpen → b.consecutiveSuccesses = 0
  /-- A probing breaker has seen one or two successes. -/
  probing : b.state = .halfOpen → b.consecutiveSuccesses = 1 ∨ b.consecutiveSuccesses = 2
  /-- The opening instant is kept exactly while the breaker is not closed. -/
  dated : b.openedAt = none ↔ b.state = .closed
  /-- Three failures in a row are never seen in `closed`. -/
  calm : b.state = .closed → b.consecutiveFailures < 3

/-- The clauses of `Represents` that the control decides. -/
structure ControlFits (c : BreakerState × Option Timestamp × Nat) : Prop where
  idle : c.1 ≠ .halfOpen → c.2.2 = 0
  probing : c.1 = .halfOpen → c.2.2 = 1 ∨ c.2.2 = 2
  dated : c.2.1 = none ↔ c.1 = .closed

theorem ControlFits.step {b : CircuitBreaker} {o : Observation} (hb : ControlFits b.control) :
    ControlFits (b.step o).control := by
  have hstep := CircuitBreaker.observe_controlStep b o
  generalize (b.step o).control = c, b.opens o = opened at hstep ⊢
  cases hstep with
  | stay hs _ => exact ⟨fun _ => rfl, nofun, iff_of_true (hb.dated.mpr hs) rfl⟩
  | trip _ _ => exact ⟨fun _ => rfl, nofun, iff_of_false nofun nofun⟩
  | undated hs hat =>
    -- an open breaker is dated
    have hclosed : b.state = .closed := hb.dated.mp hat
    rw [hs] at hclosed
    cases hclosed
  | wait _ _ _ => exact ⟨fun _ => rfl, nofun, iff_of_false nofun nofun⟩
  | probe _ _ _ _ => exact ⟨fun h => absurd rfl h, fun _ => .inl rfl, iff_of_false nofun nofun⟩
  | reopen _ _ _ _ => exact ⟨fun _ => rfl, nofun, iff_of_false nofun nofun⟩
  | again hs _ hc =>
    refine ⟨fun h => absurd rfl h, fun _ => .inr ?_, iff_of_false (fun hnone => ?_) nofun⟩
    · have hcount : b.consecutiveSuccesses = 1 ∨ b.consecutiveSuccesses = 2 := hb.probing hs
      change b.consecutiveSuccesses + 1 = 2
      omega
    · have hclosed : b.state = .closed := hb.dated.mp hnone
      rw [hs] at hclosed
      cases hclosed
  | recover _ _ _ => exact ⟨fun _ => rfl, nofun, iff_of_true rfl rfl⟩
  | relapse _ _ => exact ⟨fun _ => rfl, nofun, iff_of_false nofun nofun⟩

theorem breakerAfter_controlFits (h : List Observation) :
    ControlFits (breakerAfter key now h).control := by
  refine after_induction (P := fun _ (b : CircuitBreaker) => ControlFits b.control) ?_ ?_ h
  · exact ⟨fun _ => rfl, nofun, iff_of_true rfl rfl⟩
  · intro h b o _ hb
    exact hb.step

/-- A closed breaker has not tripped: what closed it was a success. -/
theorem consecutiveFailures_lt_of_closed {h : List Observation}
    (hclosed : (breakerAfter key now h).state = .closed) :
    (breakerAfter key now h).consecutiveFailures < 3 := by
  cases h using List.reverseRecOn with
  | nil => exact Nat.zero_lt_succ _
  | append_singleton h o =>
    obtain ⟨c, opened, hstep, hc, -⟩ := exists_controlStep key now h o
    have hstate : c.1 = .closed := hc ▸ hclosed
    rw [breakerAfter_concat, CircuitBreaker.step_consecutiveFailures]
    cases hstep with
    | stay _ ht => exact Nat.not_le.mp fun hle => ht (.inl hle)
    | recover _ ho _ =>
      rw [CircuitBreaker.noted_consecutiveFailures, ho]
      exact Nat.zero_lt_succ _
    | trip | undated | wait | probe | reopen | again | relapse => cases hstate

/-- **Representation and trip rule.** Whatever is observed, and at whatever times, the fields of a
breaker say what `Represents` reads from them, and the observation at which the breaker first leaves
`closed` is the first one whose history satisfies the trip rule. -/
theorem breaker_represents_history (key : BreakerKey) (now : Timestamp) (h : List Observation) :
    Represents h (breakerAfter key now h) ∧
      ∀ n, IsLeast {n | (breakerAfter key now (h.take n)).state ≠ .closed} n ↔
        IsLeast {n | TripRule (h.take n)} n := by
  have hfits : ControlFits (breakerAfter key now h).control := breakerAfter_controlFits h
  refine ⟨?_, isLeast_take_congr (P := fun h => (breakerAfter key now h).state ≠ .closed) ?_ ?_ h⟩
  · exact {
      ringBuffer := breakerAfter_ringBuffer h
      consecutiveFailures := breakerAfter_consecutiveFailures h
      idle := hfits.idle
      probing := hfits.probing
      dated := hfits.dated
      calm := consecutiveFailures_lt_of_closed }
  · exact iff_of_false (fun hne => hne rfl) (by decide)
  · intro h o hclosed
    exact state_ne_closed_concat_iff (Classical.not_not.mp hclosed)

end Governance

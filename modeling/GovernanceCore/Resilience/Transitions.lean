import GovernanceCore.Resilience.Registry

/-!
# The reported transitions

The listener of the registry writes audit entries and counters from the transitions it is told, and
from nothing else. They should be the history of the breaker: a path from closed to its current
state, one step for each call that changes the state.

One call breaks this. A failure that reaches an open breaker after its cooldown is processed as two
moves, to half open and back, and only the second one is reported. The state before and after the
call is open, and the reported source, half open, is a state in which no earlier transition ended.
Nothing that follows repairs the path, so `transitions_unbroken_iff` is an equivalence: the history
is unbroken exactly when no such failure was observed.
-/

namespace Governance

open Framework

/-- The two ends of a transition. -/
def StateTransition.ends (tr : StateTransition) : BreakerState × BreakerState :=
  (tr.source, tr.target)

/-! ### One breaker alone -/

section Breaker

variable (k : BreakerKey) (now : Timestamp)

/-- What one observation does to the path, by what it reports. -/
theorem connects_observe {b : CircuitBreaker} {o : Observation} {l : List StateTransition}
    {p : CircuitBreaker × Option StateTransition} (hp : CircuitBreaker.Reported b o p)
    (hquiet : ¬b.Retrips o) (hl : Connects .closed (l.map StateTransition.ends) b.state) :
    Connects .closed ((l ++ p.2.toList).map StateTransition.ends) p.1.state := by
  cases hp with
  | silent hstate =>
    rw [Option.toList_none, List.append_nil, hstate]
    exact hl
  | moved hkey hsource htarget =>
    rw [Option.toList_some, List.map_append, List.map_singleton, connects_concat]
    refine ⟨?_, htarget⟩
    change Connects _ _ (StateTransition.source _)
    rw [hsource]
    exact hl
  | retripped hkey hretrips => exact absurd hretrips hquiet

/-- Without a failure after the cooldown the transitions lead to the current state. -/
theorem connects_breakerTransitions {h : List Observation}
    (hquiet : Along (fun g o => ¬(breakerAfter k now g).Retrips o) h) :
    Connects .closed ((breakerTransitions k now h).map StateTransition.ends)
      (breakerAfter k now h).state := by
  induction h using List.reverseRecOn with
  | nil => exact rfl
  | append_singleton h o ih =>
    obtain ⟨hold, hnew⟩ := along_concat.mp hquiet
    rw [breakerTransitions_concat, breakerAfter_concat]
    exact connects_observe (CircuitBreaker.reported _ o) hnew (ih hold)

/-- With such a failure they lead nowhere. -/
theorem along_of_connects {h : List Observation} {st : BreakerState}
    (hpath : Connects .closed ((breakerTransitions k now h).map StateTransition.ends) st) :
    Along (fun g o => ¬(breakerAfter k now g).Retrips o) h := by
  induction h using List.reverseRecOn generalizing st with
  | nil => exact along_nil
  | append_singleton h o ih =>
    -- a path stays one when its last edge is taken away, so the induction hypothesis applies
    have hreported := CircuitBreaker.reported (breakerAfter k now h) o
    rw [breakerTransitions_concat] at hpath
    rw [along_concat]
    generalize CircuitBreaker.observe _ _ _ = p at hpath hreported
    cases hreported with
    | silent hstate hquiet =>
      rw [Option.toList_none, List.append_nil] at hpath
      exact ⟨ih hpath, hquiet⟩
    | moved hkey hsource htarget hne hquiet =>
      rw [Option.toList_some, List.map_append, List.map_singleton, connects_concat] at hpath
      exact ⟨ih hpath.1, hquiet⟩
    | retripped hkey hretrips hsource =>
      rw [Option.toList_some, List.map_append, List.map_singleton, connects_concat] at hpath
      -- the path so far ended in the state of the breaker, and that is open, not half open
      have hend := (connects_breakerTransitions k now (ih hpath.1)).unique hpath.1
      rw [hretrips.2.1] at hend
      cases hend.trans hsource

/-- Only such a failure is reported without a change of state. -/
theorem changes_iff_not_retrips {b : CircuitBreaker} {o : Observation}
    {p : CircuitBreaker × Option StateTransition} (hp : CircuitBreaker.Reported b o p) :
    (p.2.isSome → p.1.state ≠ b.state) ↔ ¬b.Retrips o := by
  cases hp with
  | silent hstate hquiet => exact iff_of_true (fun h => by cases h) hquiet
  | moved hkey hsource htarget hne hquiet => exact iff_of_true (fun _ => hne) hquiet
  | retripped hkey hretrips hsource htarget hstate =>
    refine iff_of_false (fun hne => hne rfl ?_) (not_not_intro hretrips)
    rw [hretrips.2.1]
    exact hstate

end Breaker

/-! ### The registry -/

namespace CircuitBreakerRegistry

/-- The state of a pair's breaker. A pair without a breaker is closed, as a new breaker is. -/
def stateOf (r : CircuitBreakerRegistry) (k : BreakerKey) : BreakerState :=
  ((r.get k.toolName k.agentRole).map BreakerSnapshot.state).getD .closed

/-- The call is a failure, and it comes when the breaker of its pair is open and its cooldown is
over. -/
def Retrips (r : CircuitBreakerRegistry) (c : ObserveCall) : Prop :=
  c.observation.success = false ∧ r.stateOf c.pair = .open ∧
    ((r.get c.tool c.role).bind BreakerSnapshot.openedAt).any fun t =>
      openCooldown ≤ c.observation.at' - t

instance (r : CircuitBreakerRegistry) (c : ObserveCall) : Decidable (r.Retrips c) :=
  inferInstanceAs (Decidable (_ ∧ _))

end CircuitBreakerRegistry

section Registry

variable {k : BreakerKey} {h : List ObserveCall}

/-- What `Get` finds, with a new breaker in place of none. -/
theorem get_registryAfter (hn : k.Named) (h : List ObserveCall) :
    (registryAfter h).get k.toolName k.agentRole = none ∧ observationsOf k h = [] ∨
      (registryAfter h).get k.toolName k.agentRole
        = some (breakerAfter k 0 (observationsOf k h)).snapshot := by
  rw [CircuitBreakerRegistry.get, registryAfter_breakers 0,
    find?_map_eq_map_lookup breakerOf_key, lookup_observedHistories]
  by_cases hnil : observationsOf k h = []
  · rw [if_neg fun hne => hne.2 hnil]
    exact .inl ⟨rfl, hnil⟩
  · rw [if_pos ⟨hn, hnil⟩]
    exact .inr rfl

theorem stateOf_registryAfter (hn : k.Named) (h : List ObserveCall) :
    (registryAfter h).stateOf k = (breakerAfter k 0 (observationsOf k h)).state := by
  unfold CircuitBreakerRegistry.stateOf
  rcases get_registryAfter hn h with ⟨hget, hnil⟩ | hget
  · rw [hget, hnil]
    rfl
  · rw [hget]
    rfl

theorem retrips_registryAfter (hn : k.Named) {c : ObserveCall} (hc : c.pair = k) :
    (registryAfter h).Retrips c ↔
      (breakerAfter k 0 (observationsOf k h)).Retrips c.observation := by
  unfold CircuitBreakerRegistry.Retrips CircuitBreaker.Retrips
  subst hc
  rw [stateOf_registryAfter hn]
  change _ ∧ _ ∧ (((registryAfter h).get c.pair.toolName c.pair.agentRole).bind _).any _ ↔ _
  rcases get_registryAfter hn h with ⟨hget, hnil⟩ | hget
  · rw [hget, hnil]
    rfl
  · rw [hget]
    rfl

/-- A property of the observations of a pair is one of the calls for it. -/
theorem along_observationsOf {P : List Observation → Observation → Prop} :
    Along P (observationsOf k h)
      ↔ Along (fun g c => c.pair = k → P (observationsOf k g) c.observation) h := by
  induction h using List.reverseRecOn with
  | nil => exact iff_of_true along_nil along_nil
  | append_singleton h c ih =>
    rw [observationsOf_concat, along_concat, ← ih]
    by_cases hc : c.pair = k
    · rw [if_pos hc, along_concat]
      exact and_congr_right fun _ => ⟨fun hP _ => hP, fun hP => hP hc⟩
    · rw [if_neg hc, List.append_nil]
      exact (and_iff_left fun h => absurd h hc).symm

theorem along_retrips (hn : k.Named) :
    Along (fun g o => ¬(breakerAfter k 0 g).Retrips o) (observationsOf k h)
      ↔ Along (fun g c => c.pair = k → ¬(registryAfter g).Retrips c) h := by
  rw [along_observationsOf]
  exact along_congr fun g c =>
    forall_congr' fun hc => not_congr (retrips_registryAfter hn hc).symm

/-- A pair that is not named stays closed, since every call for it is skipped. -/
theorem stateOf_of_not_named (hn : ¬k.Named) (h : List ObserveCall) :
    (registryAfter h).stateOf k = .closed := by
  rw [CircuitBreakerRegistry.stateOf, CircuitBreakerRegistry.get, registryAfter_breakers 0,
    find?_map_eq_map_lookup breakerOf_key, lookup_observedHistories, if_neg fun h => hn h.1]
  rfl

/-- A call for the pair reports a change without one exactly when it trips the breaker again. -/
theorem changes_registryAfter (hn : k.Named) (g : List ObserveCall) (c : ObserveCall) :
    (∀ tr, ((registryAfter g).observe c).2 = some tr → tr.key = k →
        (registryAfter (g ++ [c])).stateOf k ≠ (registryAfter g).stateOf k)
      ↔ (c.pair = k → ¬(registryAfter g).Retrips c) := by
  by_cases hc : c.pair = k
  · have hkey : c.key = some k := ObserveCall.key_eq_some_iff.mpr ⟨hc, hn⟩
    have hobserve := observe_registryAfter 0 g c
    rw [hkey, Option.bind_some] at hobserve
    rw [stateOf_registryAfter hn, stateOf_registryAfter hn, observationsOf_concat, if_pos hc,
      breakerAfter_concat, retrips_registryAfter hn hc]
    refine Iff.trans ⟨fun hall hsome => ?_, fun hall tr htr _ => ?_⟩
      ((changes_iff_not_retrips (CircuitBreaker.reported _ c.observation)).trans
        ⟨fun hquiet _ => hquiet, fun hquiet => hquiet hc⟩)
    · obtain ⟨tr, htr⟩ := Option.isSome_iff_exists.mp hsome
      have hret : ((registryAfter g).observe c).2 = some tr := hobserve.trans htr
      refine hall tr hret ?_
      -- what the call returns carries the pair of the call
      have hmem : c.key = some tr.key := key_of_mem_observe (Option.mem_toList.mpr hret)
      exact Option.some.inj (hmem.symm.trans hkey)
    · refine hall ?_
      rw [← hobserve, htr]
      rfl
  · refine iff_of_true (fun tr htr hk => absurd ?_ hc) fun h => absurd h hc
    have hmem : c.key = some tr.key := key_of_mem_observe (Option.mem_toList.mpr htr)
    rw [← hk]
    exact (ObserveCall.key_eq_some_iff.mp hmem).1

end Registry

/-- The transitions that the listener was told for a pair are its history. -/
structure Unbroken (k : BreakerKey) (h : List ObserveCall) : Prop where
  /-- They lead from closed to the current state. -/
  path : Connects .closed
    (((registryAfter h).delivered.filter fun tr => tr.key = k).map StateTransition.ends)
    ((registryAfter h).stateOf k)
  /-- A call delivers one only if it changes the state. -/
  changes : Along (fun g c => ∀ tr, ((registryAfter g).observe c).2 = some tr → tr.key = k →
    (registryAfter (g ++ [c])).stateOf k ≠ (registryAfter g).stateOf k) h

/-- **The reported transitions.** Whatever calls the registry gets, the transitions delivered for a
pair are an unbroken history of its breaker exactly when no call for the pair was a failure that
found the breaker open and its cooldown over. -/
theorem transitions_unbroken_iff (k : BreakerKey) (h : List ObserveCall) :
    Unbroken k h ↔ Along (fun g c => c.pair = k → ¬(registryAfter g).Retrips c) h := by
  by_cases hn : k.Named
  · have hpath := delivered_registryAfter 0 h hn
    rw [← along_retrips hn]
    refine ⟨fun hu => ?_, fun hquiet => ⟨?_, ?_⟩⟩
    · have hconnects := hu.path
      rw [hpath] at hconnects
      exact along_of_connects k 0 hconnects
    · rw [hpath, stateOf_registryAfter hn]
      exact connects_breakerTransitions k 0 hquiet
    · rw [along_congr (changes_registryAfter hn), ← along_retrips hn]
      exact hquiet
  · -- every call for the pair is skipped, so nothing is delivered and the state stays closed
    have hnone : ∀ tr ∈ (registryAfter h).delivered, tr.key ≠ k := by
      intro tr htr hk
      rw [← hk] at hn
      exact hn (delivered_named h tr htr)
    have hfilter : (registryAfter h).delivered.filter (fun tr => tr.key = k) = [] :=
      List.filter_eq_nil_iff.mpr fun tr htr heq => hnone tr htr (of_decide_eq_true heq)
    refine iff_of_true ⟨?_, ?_⟩ ?_
    · rw [hfilter, stateOf_of_not_named hn]
      rfl
    · intro g c g' _ tr htr hk
      have hmem : c.key = some tr.key := key_of_mem_observe (Option.mem_toList.mpr htr)
      rw [hk] at hmem
      exact absurd (ObserveCall.key_eq_some_iff.mp hmem).2 hn
    · intro g c g' _ hc hretrips
      have hopen := hretrips.2.1
      rw [hc, stateOf_of_not_named hn] at hopen
      cases hopen

/-- Three failures a second apart, and a fourth one a minute after them. -/
def failedProbe : List ObserveCall :=
  [0, second, 2 * second, 62 * second].map fun t => ⟨"deploy", "builder", false, t⟩

/-- The three failures open the breaker; the fourth one is reported as a move from half open, where
the breaker never was, and it stays open. -/
theorem failed_probe_breaks_path :
    ((registryAfter failedProbe).delivered.map StateTransition.ends
        = [(.closed, .open), (.halfOpen, .open)]) ∧
      (registryAfter (failedProbe.take 3)).stateOf ⟨"deploy", "builder"⟩ = .open ∧
      (registryAfter failedProbe).stateOf ⟨"deploy", "builder"⟩ = .open ∧
      ¬Unbroken ⟨"deploy", "builder"⟩ failedProbe := by
  have hends : ((registryAfter failedProbe).delivered.filter fun tr =>
      tr.key = ⟨"deploy", "builder"⟩).map StateTransition.ends
        = [(.closed, .open), (.halfOpen, .open)] := by decide +kernel
  refine ⟨by decide +kernel, by decide +kernel, by decide +kernel, fun hu => ?_⟩
  have hpath := hu.path
  rw [hends] at hpath
  -- the second edge does not start where the first one ends
  have hgap : BreakerState.halfOpen = .open := hpath.2.1
  cases hgap

end Governance

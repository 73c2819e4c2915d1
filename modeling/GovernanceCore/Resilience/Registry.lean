import GovernanceCore.Framework.Tally
import GovernanceCore.Resilience.Trip

/-!
# The registry of breakers

`CircuitBreakerRegistry` keeps one breaker for each pair of tool and agent role. A breaker comes
into being at the first observation of its pair; an observation without a tool or without a role is
skipped. All breakers live in one map behind one lock, and every call of `Observe` goes through it.

What the map holds is determined by a map of histories: under each observed pair, the observations
of that pair (`observedHistories`, a tally). `registryAfter_breakers` says that the registry is that
map with every history replaced by the breaker it leads to. So a breaker depends on the observations
of its own pair alone, and the same holds for the transitions that the listener is told.
-/

namespace Governance

open Framework

/-! ### Snapshots -/

/-- `BreakerSnapshot`. -/
structure BreakerSnapshot where
  toolName : String
  agentRole : String
  state : BreakerState
  openedAt : Option Timestamp
  consecutiveFailures : Nat
  consecutiveSuccesses : Nat
  failureRate : ℚ
  sampleSize : Nat
  updatedAt : Timestamp
  deriving DecidableEq

/-- `snapshot`. It counts the failures of the buffer again, as `failureRate` does. -/
def CircuitBreaker.snapshot (b : CircuitBreaker) : BreakerSnapshot where
  toolName := b.key.toolName
  agentRole := b.key.agentRole
  state := b.state
  openedAt := b.openedAt
  consecutiveFailures := b.consecutiveFailures
  consecutiveSuccesses := b.consecutiveSuccesses
  failureRate := b.failureRate
  sampleSize := b.ringBuffer.length
  updatedAt := b.updatedAt

/-- `BreakerFilter`. -/
structure BreakerFilter where
  state : Option BreakerState := none
  toolName : Option String := none
  agentRole : Option String := none
  deriving DecidableEq, Repr

/-- The three tests of the loop of `List`. -/
def BreakerFilter.admits (f : BreakerFilter) (b : CircuitBreaker) : Bool :=
  f.state.all (· = b.state) && f.toolName.all (· = b.key.toolName) &&
    f.agentRole.all (· = b.key.agentRole)

/-! ### The registry -/

/-- `CircuitBreakerRegistry`, with a listener set. -/
structure CircuitBreakerRegistry where
  breakers : Breakers
  /-- What the listener has been called with, oldest first. -/
  delivered : List StateTransition

/-- `NewCircuitBreakerRegistry`. -/
def newCircuitBreakerRegistry : CircuitBreakerRegistry := ⟨[], []⟩

/-- A call of `CircuitBreakerRegistry.Observe`. -/
structure ObserveCall where
  tool : String
  role : String
  observation : Observation
  deriving DecidableEq, Repr

namespace CircuitBreakerRegistry

/-- `CircuitBreakerRegistry.Observe`: the listener gets what is returned. -/
def observe (r : CircuitBreakerRegistry) (c : ObserveCall) :
    CircuitBreakerRegistry × Option StateTransition :=
  let (breakers, transition) :=
    r.breakers.observe c.tool c.role c.observation.success c.observation.at'
  (⟨breakers, r.delivered ++ transition.toList⟩, transition)

/-- `Get`. -/
def get (r : CircuitBreakerRegistry) (tool role : String) : Option BreakerSnapshot :=
  (r.breakers.find? fun b => b.key = ⟨tool, role⟩).map CircuitBreaker.snapshot

/-- `List`. The order is that of a map, so it means nothing. -/
def list (r : CircuitBreakerRegistry) (f : BreakerFilter) : List BreakerSnapshot :=
  (r.breakers.filter f.admits).map CircuitBreaker.snapshot

end CircuitBreakerRegistry

/-- The registry after a sequence of calls. -/
def registryAfter (h : List ObserveCall) : CircuitBreakerRegistry :=
  after (fun r c => (r.observe c).1) newCircuitBreakerRegistry h

theorem registryAfter_concat (h : List ObserveCall) (c : ObserveCall) :
    registryAfter (h ++ [c]) = ((registryAfter h).observe c).1 :=
  after_concat h c

/-- The pair that a call is about. -/
def ObserveCall.pair (c : ObserveCall) : BreakerKey := ⟨c.tool, c.role⟩

/-- Both names of the pair are there. -/
def BreakerKey.Named (k : BreakerKey) : Prop := k.toolName ≠ "" ∧ k.agentRole ≠ ""

instance (k : BreakerKey) : Decidable k.Named := inferInstanceAs (Decidable (_ ∧ _))

/-- The pair whose breaker a call observes, when it is not skipped. -/
def ObserveCall.key (c : ObserveCall) : Option BreakerKey :=
  if c.tool = "" ∨ c.role = "" then none else some c.pair

theorem ObserveCall.key_eq (c : ObserveCall) :
    c.key = if c.pair.Named then some c.pair else none := by
  unfold key
  by_cases hskip : c.tool = "" ∨ c.role = ""
  · rw [if_pos hskip, if_neg fun h => hskip.elim h.1 h.2]
  · have hn : c.pair.Named := not_or.mp hskip
    rw [if_neg hskip, if_pos hn]

theorem ObserveCall.key_eq_some_iff {c : ObserveCall} {k : BreakerKey} :
    c.key = some k ↔ c.pair = k ∧ k.Named := by
  rw [ObserveCall.key_eq]
  by_cases hn : c.pair.Named
  · rw [if_pos hn]
    refine ⟨fun h => ?_, fun h => congrArg some h.1⟩
    obtain rfl := Option.some.inj h
    exact ⟨rfl, hn⟩
  · rw [if_neg hn]
    refine iff_of_false (fun h => by cases h) fun h => hn ?_
    rw [h.1]
    exact h.2

/-! ### One breaker alone -/

/-- The transitions that a new breaker returns along a history. -/
def breakerTransitions (key : BreakerKey) (now : Timestamp) (h : List Observation) :
    List StateTransition :=
  outputs CircuitBreaker.step (fun b o => (b.observe o.success o.at').2.toList)
    (newCircuitBreaker key now) h

theorem breakerTransitions_concat (key : BreakerKey) (now : Timestamp) (h : List Observation)
    (o : Observation) :
    breakerTransitions key now (h ++ [o])
      = breakerTransitions key now h
        ++ ((breakerAfter key now h).observe o.success o.at').2.toList :=
  outputs_concat _ h o

namespace CircuitBreaker

theorem noted_key (b : CircuitBreaker) (o : Observation) : (b.noted o).key = b.key := by
  unfold noted count
  split <;> rfl

theorem step_key (b : CircuitBreaker) (o : Observation) : (b.step o).key = b.key := by
  obtain ⟨st, t, c, h⟩ := b.step_eq o
  rw [h]
  exact b.noted_key o

/-- A failure comes to an open breaker whose cooldown is over. -/
def Retrips (b : CircuitBreaker) (o : Observation) : Prop :=
  o.success = false ∧ b.state = .open ∧ b.openedAt.any fun t => openCooldown ≤ o.at' - t

instance (b : CircuitBreaker) (o : Observation) : Decidable (b.Retrips o) :=
  inferInstanceAs (Decidable (_ ∧ _))

/-- What an observation reports about the state it finds and the state it leaves. -/
inductive Reported (b : CircuitBreaker) (o : Observation) :
    CircuitBreaker × Option StateTransition → Prop where
  /-- The state stays and nothing is reported. -/
  | silent {b' : CircuitBreaker} (hstate : b'.state = b.state) (hquiet : ¬b.Retrips o) :
      Reported b o (b', none)
  /-- The state changes, and the change is reported. -/
  | moved {b' : CircuitBreaker} {tr : StateTransition} (hkey : tr.key = b.key)
      (hsource : tr.source = b.state) (htarget : tr.target = b'.state)
      (hne : b'.state ≠ b.state) (hquiet : ¬b.Retrips o) : Reported b o (b', some tr)
  /-- The breaker opens again without having been half open for its callers to see. -/
  | retripped {b' : CircuitBreaker} {tr : StateTransition} (hkey : tr.key = b.key)
      (hretrips : b.Retrips o) (hsource : tr.source = .halfOpen) (htarget : tr.target = .open)
      (hstate : b'.state = .open) : Reported b o (b', some tr)

theorem not_retrips_of_state {b : CircuitBreaker} (o : Observation) (hs : b.state ≠ .open) :
    ¬b.Retrips o :=
  fun h => hs h.2.1

theorem reported (b : CircuitBreaker) (o : Observation) :
    Reported b o (b.observe o.success o.at') := by
  have hkey := b.noted_key o
  have hstate := b.noted_state o
  have hcase := b.observed o
  generalize b.observe o.success o.at' = res at hcase ⊢
  cases hcase with
  | stay hs ht => exact .silent hstate (not_retrips_of_state o (by rw [hs]; decide))
  | trip reason hs ht hb =>
    subst hb
    refine .moved hkey hs.symm rfl ?_ (not_retrips_of_state o (by rw [hs]; decide))
    rw [hs]
    change BreakerState.open ≠ .closed
    decide
  | undated hs hat =>
    refine .silent hstate fun h => ?_
    have hany := h.2.2
    rw [hat] at hany
    cases hany
  | wait hs hat ht =>
    refine .silent hstate fun h => ?_
    have hany := h.2.2
    rw [hat] at hany
    exact absurd ht (Int.not_lt.mpr (of_decide_eq_true hany))
  | probe hs hat ht ho hb =>
    subst hb
    refine .moved hkey hs.symm rfl ?_ fun h => ?_
    · rw [hs]
      change BreakerState.halfOpen ≠ .open
      decide
    · cases ho.symm.trans h.1
  | reopen hs hat ht ho hb =>
    -- the state in between is reported as the source, though it was never stored
    subst hb
    refine .retripped hkey ⟨ho, hs, ?_⟩ rfl rfl rfl
    rw [hat]
    exact decide_eq_true ht
  | again hs ho hc => exact .silent hstate (not_retrips_of_state o (by rw [hs]; decide))
  | recover hs ho hc hb =>
    subst hb
    refine .moved hkey hs.symm rfl ?_ (not_retrips_of_state o (by rw [hs]; decide))
    rw [hs]
    change BreakerState.closed ≠ .halfOpen
    decide
  | relapse hs ho hb =>
    subst hb
    refine .moved hkey hs.symm rfl ?_ (not_retrips_of_state o (by rw [hs]; decide))
    rw [hs]
    change BreakerState.open ≠ .halfOpen
    decide

end CircuitBreaker

theorem breakerAfter_key (key : BreakerKey) (now : Timestamp) (h : List Observation) :
    (breakerAfter key now h).key = key := by
  induction h using List.reverseRecOn with
  | nil => rfl
  | append_singleton h o ih => rw [breakerAfter_concat, CircuitBreaker.step_key, ih]

/-- The instant at which a breaker was created is gone after the first observation. -/
theorem observe_newCircuitBreaker (key : BreakerKey) (now now' : Timestamp) (success : Bool)
    (at' : Timestamp) :
    (newCircuitBreaker key now).observe success at'
      = (newCircuitBreaker key now').observe success at' := rfl

/-! ### The map of histories -/

/-- Under each observed pair, its observations. -/
def observedHistories (h : List ObserveCall) : List (BreakerKey × List Observation) :=
  tally [] (fun l c => l ++ [c.observation]) ObserveCall.key h

/-- The observations of one pair. -/
def observationsOf (k : BreakerKey) (h : List ObserveCall) : List Observation :=
  (h.filter fun c => c.pair = k).map ObserveCall.observation

theorem observationsOf_concat (k : BreakerKey) (h : List ObserveCall) (c : ObserveCall) :
    observationsOf k (h ++ [c])
      = observationsOf k h ++ if c.pair = k then [c.observation] else [] := by
  rw [observationsOf, List.filter_append, List.map_append, List.filter_singleton]
  by_cases hc : c.pair = k
  · rw [if_pos hc, decide_eq_true hc]
    rfl
  · rw [if_neg hc, decide_eq_false hc]
    rfl

/-- A pair without both names has no history. -/
theorem filter_key_eq (h : List ObserveCall) (k : BreakerKey) :
    h.filter (fun c => c.key = some k) =
      if k.Named then h.filter (fun c => c.pair = k) else [] := by
  by_cases hn : k.Named
  · rw [if_pos hn]
    refine List.filter_congr fun c _ => decide_eq_decide.mpr ?_
    rw [ObserveCall.key_eq_some_iff]
    exact and_iff_left hn
  · rw [if_neg hn, List.filter_eq_nil_iff]
    intro c _ hc
    exact hn (ObserveCall.key_eq_some_iff.mp (of_decide_eq_true hc)).2

/-- Noting the observations of some calls one after the other lists them. -/
theorem foldl_snoc_observation (l : List Observation) (h : List ObserveCall) :
    h.foldl (fun l c => l ++ [c.observation]) l = l ++ h.map ObserveCall.observation := by
  induction h generalizing l with
  | nil => exact (List.append_nil l).symm
  | cons c h ih => rw [List.foldl_cons, ih, List.map_cons, List.append_assoc, List.singleton_append]

theorem lookup_observedHistories (h : List ObserveCall) (k : BreakerKey) :
    (observedHistories h).lookup k
      = if k.Named ∧ observationsOf k h ≠ [] then some (observationsOf k h) else none := by
  rw [observedHistories, lookup_tally, filter_key_eq]
  by_cases hn : k.Named
  · rw [if_pos hn, foldl_snoc_observation, List.nil_append]
    by_cases hnil : observationsOf k h = []
    · rw [if_pos (List.map_eq_nil_iff.mp hnil), if_neg fun h => h.2 hnil]
    · rw [if_neg fun h => hnil (List.map_eq_nil_iff.mpr h), if_pos ⟨hn, hnil⟩]
      rfl
  · rw [if_neg hn, if_pos rfl, if_neg fun h => hn h.1]

theorem getD_lookup_observedHistories {k : BreakerKey} (hn : k.Named) (h : List ObserveCall) :
    ((observedHistories h).lookup k).getD [] = observationsOf k h := by
  rw [observedHistories, getD_lookup_tally, filter_key_eq, if_pos hn, foldl_snoc_observation]
  rfl

/-! ### The registry holds the breakers of the histories -/

section Refinement

variable {now : Timestamp}

/-- The breaker of an entry of the map. -/
def breakerOf (now : Timestamp) (kv : BreakerKey × List Observation) : CircuitBreaker :=
  breakerAfter kv.1 now kv.2

theorem breakerOf_key (kv : BreakerKey × List Observation) : (breakerOf now kv).key = kv.1 :=
  breakerAfter_key _ _ _

/-- The breaker that a call observes is that of the history so far, or a new one. -/
theorem find?_getD_observe (m : List (BreakerKey × List Observation)) (k : BreakerKey)
    (o : Observation) :
    (((m.map (breakerOf now)).find? fun b => b.key = k).getD
        (newCircuitBreaker k o.at')).observe o.success o.at'
      = (breakerAfter k now ((m.lookup k).getD [])).observe o.success o.at' := by
  rw [find?_map_eq_map_lookup breakerOf_key]
  cases m.lookup k with
  | none => exact observe_newCircuitBreaker k o.at' now o.success o.at'
  | some l => rfl

/-- **The refinement.** The registry holds, for each observed pair, the breaker that the
observations of the pair lead to. -/
theorem registryAfter_breakers (now : Timestamp) (h : List ObserveCall) :
    (registryAfter h).breakers = (observedHistories h).map (breakerOf now) := by
  induction h using List.reverseRecOn with
  | nil => rfl
  | append_singleton h c ih =>
    rw [registryAfter_concat, observedHistories, tally_concat, tallyStep]
    change ((registryAfter h).breakers.observe _ _ _ _).1 = _
    rw [ih, Breakers.observe, ObserveCall.key]
    by_cases hskip : c.tool = "" ∨ c.role = ""
    · -- a call without both names is skipped by the source and by the tally alike
      rw [if_pos hskip, if_pos hskip]
      rfl
    · rw [if_neg hskip, if_neg hskip]
      dsimp only
      -- on both sides the entry of the pair is replaced and all others are kept
      rw [find?_getD_observe, map_put breakerOf_key]
      congr 2
      exact (breakerAfter_concat _ _ _ _).symm

/-- What a call returns. -/
theorem observe_registryAfter (now : Timestamp) (h : List ObserveCall) (c : ObserveCall) :
    ((registryAfter h).observe c).2 = c.key.bind fun k =>
      ((breakerAfter k now (observationsOf k h)).observe c.observation.success
        c.observation.at').2 := by
  change ((registryAfter h).breakers.observe _ _ _ _).2 = _
  rw [registryAfter_breakers now, Breakers.observe, ObserveCall.key]
  by_cases hskip : c.tool = "" ∨ c.role = ""
  · rw [if_pos hskip, if_pos hskip]
    rfl
  · have hn : c.pair.Named := not_or.mp hskip
    rw [if_neg hskip, if_neg hskip]
    dsimp only
    rw [find?_getD_observe, Option.bind_some, ← getD_lookup_observedHistories hn]
    rfl

/-- A transition carries the pair of the call that returns it. -/
theorem key_of_mem_observe {h : List ObserveCall} {c : ObserveCall} {tr : StateTransition}
    (htr : tr ∈ ((registryAfter h).observe c).2.toList) : c.key = some tr.key := by
  rw [observe_registryAfter 0] at htr
  cases hkey : c.key with
  | none =>
    rw [hkey] at htr
    cases htr
  | some k =>
    rw [hkey, Option.bind_some] at htr
    have hreported := CircuitBreaker.reported (breakerAfter k 0 (observationsOf k h)) c.observation
    rw [← breakerAfter_key k 0 (observationsOf k h)]
    generalize CircuitBreaker.observe _ _ _ = p at htr hreported
    cases hreported with
    | silent hstate => cases htr
    | moved hkey => rw [List.mem_singleton.mp htr, hkey]
    | retripped hkey => rw [List.mem_singleton.mp htr, hkey]

theorem delivered_named (h : List ObserveCall) :
    ∀ tr ∈ (registryAfter h).delivered, tr.key.Named := by
  induction h using List.reverseRecOn with
  | nil => exact fun tr htr => absurd htr List.not_mem_nil
  | append_singleton h c ih =>
    intro tr htr
    rw [registryAfter_concat] at htr
    rcases List.mem_append.mp htr with hold | hnew
    · exact ih tr hold
    · exact (ObserveCall.key_eq_some_iff.mp (key_of_mem_observe hnew)).2

/-- What the listener is told about one pair is what its breaker alone returns. -/
theorem delivered_registryAfter (now : Timestamp) (h : List ObserveCall) {k : BreakerKey}
    (hn : k.Named) :
    (registryAfter h).delivered.filter (fun tr => tr.key = k)
      = breakerTransitions k now (observationsOf k h) := by
  induction h using List.reverseRecOn with
  | nil => rfl
  | append_singleton h c ih =>
    rw [registryAfter_concat]
    change ((registryAfter h).delivered ++ ((registryAfter h).observe c).2.toList).filter _ = _
    rw [List.filter_append, ih, observationsOf_concat]
    by_cases hk : c.pair = k
    · -- the call is for the pair: everything it returns is kept
      have hkey : c.key = some k := ObserveCall.key_eq_some_iff.mpr ⟨hk, hn⟩
      have hkeep : ((registryAfter h).observe c).2.toList.filter (fun tr => tr.key = k)
          = ((registryAfter h).observe c).2.toList := by
        refine List.filter_eq_self.mpr fun tr htr => decide_eq_true ?_
        exact Option.some.inj ((key_of_mem_observe htr).symm.trans hkey)
      rw [if_pos hk, breakerTransitions_concat, hkeep, observe_registryAfter now, hkey]
      rfl
    · -- the call is for another pair, or for none
      have hdrop : ((registryAfter h).observe c).2.toList.filter (fun tr => tr.key = k) = [] := by
        refine List.filter_eq_nil_iff.mpr fun tr htr heq => hk ?_
        obtain ⟨hpair, -⟩ := ObserveCall.key_eq_some_iff.mp (key_of_mem_observe htr)
        exact hpair.trans (of_decide_eq_true heq)
      rw [if_neg hk, hdrop, List.append_nil, List.append_nil]

/-- The pairs that have been observed, each once. -/
def observedKeys (h : List ObserveCall) : List BreakerKey :=
  ((h.map ObserveCall.pair).filter fun k => k.Named).dedup

theorem filterMap_key (h : List ObserveCall) :
    h.filterMap ObserveCall.key = (h.map ObserveCall.pair).filter fun k => k.Named := by
  induction h with
  | nil => rfl
  | cons c h ih =>
    by_cases hn : c.pair.Named
    · rw [List.filterMap_cons_some (ObserveCall.key_eq_some_iff.mpr ⟨rfl, hn⟩), ih, List.map_cons,
        List.filter_cons_of_pos (by simp [hn])]
    · rw [List.filterMap_cons_none (by rw [ObserveCall.key_eq, if_neg hn]), ih, List.map_cons,
        List.filter_cons_of_neg (by simp [hn])]

/-- The map of histories has one entry for each observed pair. -/
theorem observedHistories_perm (h : List ObserveCall) :
    (observedHistories h).Perm ((observedKeys h).map fun k => (k, observationsOf k h)) := by
  refine (tally_perm [] _ ObserveCall.key h).trans (List.Perm.of_eq ?_)
  rw [filterMap_key]
  refine List.map_congr_left fun k hk => ?_
  have hn : k.Named := of_decide_eq_true (List.mem_filter.mp (List.mem_dedup.mp hk)).2
  rw [filter_key_eq, if_pos hn, foldl_snoc_observation]
  rfl

end Refinement

/-! ### Independence -/

/-- **Breakers are independent.** Whatever calls the registry gets, for any mix of pairs: the
breaker of a pair is the one that its own observations lead to, and it is there exactly when both
names are and the pair was observed; the calls for a pair return, and the listener is told, what
that breaker alone returns; and a listing without a filter has one snapshot for each observed
pair. -/
theorem breakers_independent (h : List ObserveCall) (now : Timestamp) :
    (∀ k : BreakerKey,
      (registryAfter h).get k.toolName k.agentRole
          = (if k.Named ∧ observationsOf k h ≠ [] then
              some (breakerAfter k now (observationsOf k h)).snapshot
            else none) ∧
        (∀ h₁ c h₂, h = h₁ ++ c :: h₂ → c.pair = k →
          ((registryAfter h₁).observe c).2
            = if k.Named then
                ((breakerAfter k now (observationsOf k h₁)).observe c.observation.success
                  c.observation.at').2
              else none) ∧
        (registryAfter h).delivered.filter (fun tr => tr.key = k)
          = if k.Named then breakerTransitions k now (observationsOf k h) else []) ∧
      ((registryAfter h).list {}).Perm
        ((observedKeys h).map fun k => (breakerAfter k now (observationsOf k h)).snapshot) := by
  refine ⟨fun k => ⟨?_, fun h₁ c h₂ _ hc => ?_, ?_⟩, ?_⟩
  · rw [CircuitBreakerRegistry.get, registryAfter_breakers now,
      find?_map_eq_map_lookup breakerOf_key, lookup_observedHistories]
    split <;> rfl
  · rw [observe_registryAfter now, ObserveCall.key_eq, hc]
    split <;> rfl
  · by_cases hn : k.Named
    · rw [if_pos hn]
      exact delivered_registryAfter now h hn
    · -- a skipped call delivers nothing
      rw [if_neg hn, List.filter_eq_nil_iff]
      intro tr htr heq
      exact hn (of_decide_eq_true heq ▸ delivered_named h tr htr)
  · -- the source ranges over a map, so the order of the listing is left open
    have hall : ∀ l : Breakers, l.filter (BreakerFilter.admits {}) = l := by
      intro l
      exact List.filter_eq_self.mpr fun b _ => rfl
    rw [CircuitBreakerRegistry.list, hall, registryAfter_breakers now, List.map_map]
    refine ((observedHistories_perm h).map _).trans (List.Perm.of_eq ?_)
    rw [List.map_map]
    rfl

end Governance

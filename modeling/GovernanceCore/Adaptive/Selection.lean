import GovernanceCore.Domain.Routing
import GovernanceCore.Framework.Best
import Mathlib.Tactic.Linarith
import Mathlib.Tactic.Ring

/-!
# What the adaptive adjustment can do to a selection

`Evaluate` scores three strategies, moves each score by what the failure statistics say about the
strategy, and takes the best one. The two clamps and the cascade over the three maps come down to
one number for each strategy, `adaptiveOffset`: the adjusted score is the score plus this number. It
lies between `-maxPenalty` and `maxBonus`, and neither the task nor the memory has a part in it.

The rest is about the best of several candidates (`Framework/Best.lean`). A lead larger than
`maxPenalty + maxBonus` cannot be lost, and since a higher failure rate of similar tasks adds to the
scores in the order of the strategies, it moves the selection in this order only.

Collaborate is not among the three. It can be forced by the metadata of a task, and then no role is
selected, since the table of default roles has none for it (`names_executor_iff`).
-/

namespace Governance

open Framework

/-! ### The order of the strategies -/

/-- `evaluatedStrategies`: the strategies that are scored. -/
def evaluatedStrategies : List RoutingStrategy := [.direct, .decompose, .escalate]

/-- The second strategy is at least as far along the order direct, decompose, escalate. -/
def RoutingStrategy.UpTo (s s' : RoutingStrategy) : Prop :=
  s = s' ∨ [s, s'].Sublist evaluatedStrategies

instance (s s' : RoutingStrategy) : Decidable (s.UpTo s') := inferInstanceAs (Decidable (_ ∨ _))

/-- The map of `tiebreak` has the strategies in this order. -/
theorem simplicity_le_iff {s s' : RoutingStrategy} (hs : s ∈ evaluatedStrategies)
    (hs' : s' ∈ evaluatedStrategies) : simplicity s ≤ simplicity s' ↔ s.UpTo s' := by
  have hall : ∀ s ∈ evaluatedStrategies, ∀ s' ∈ evaluatedStrategies,
      simplicity s ≤ simplicity s' ↔ s.UpTo s' := by decide
  exact hall s hs s' hs'

/-! ### The clamp -/

theorem clampValue_eq {lo hi : ℚ} (h : lo ≤ hi) (x : ℚ) :
    clampValue x lo hi = max lo (min x hi) := by
  unfold clampValue
  by_cases hlo : x < lo
  · rw [if_pos hlo, min_eq_left (hlo.le.trans h), max_eq_left hlo.le]
  · rw [if_neg hlo]
    by_cases hhi : hi < x
    · rw [if_pos hhi, min_eq_right hhi.le, max_eq_right h]
    · rw [if_neg hhi, min_eq_left (not_lt.mp hhi), max_eq_right (not_lt.mp hlo)]

theorem clampValue_mono {lo hi x y : ℚ} (h : lo ≤ hi) (hxy : x ≤ y) :
    clampValue x lo hi ≤ clampValue y lo hi := by
  rw [clampValue_eq h, clampValue_eq h]
  exact max_le_max_left lo (min_le_min_right hi hxy)

theorem le_clampValue {lo hi : ℚ} (h : lo ≤ hi) (x : ℚ) : lo ≤ clampValue x lo hi := by
  rw [clampValue_eq h]
  exact le_max_left _ _

theorem clampValue_le {lo hi : ℚ} (h : lo ≤ hi) (x : ℚ) : clampValue x lo hi ≤ hi := by
  rw [clampValue_eq h]
  exact max_le h (min_le_right _ _)

/-- A window that moves along with the value does not see where it is. -/
theorem clampValue_add {lo hi : ℚ} (h : lo ≤ hi) (c x : ℚ) :
    clampValue (c + x) (c + lo) (c + hi) = c + clampValue x lo hi := by
  rw [clampValue_eq h, clampValue_eq (by linarith), min_add_add_left, max_add_add_left]

theorem neg_maxPenalty_le_maxBonus : -maxPenalty ≤ maxBonus := by
  unfold maxPenalty maxBonus
  norm_num

/-! ### The offset of a strategy -/

/-- What the failure statistics add to the score of a strategy. -/
def adaptiveOffset (stats : Option FailureStats) (strategy : RoutingStrategy) : ℚ :=
  match stats.bind (computeAdjustment strategy) with
  | none => 0
  | some adj => clampValue adj.finalAdjustment (-maxPenalty) maxBonus

section Offset

variable (stats : Option FailureStats) (strategy : RoutingStrategy)

theorem adjustedScore_eq (e : StrategyEvaluation) :
    (applyAdaptiveAdjustment stats e).adjustedScore =
      e.score + adaptiveOffset stats e.strategy := by
  unfold applyAdaptiveAdjustment adaptiveOffset
  cases stats.bind (computeAdjustment e.strategy) with
  | none => exact (add_zero e.score).symm
  | some adj =>
    dsimp only
    rw [sub_eq_add_neg, clampValue_add neg_maxPenalty_le_maxBonus]

theorem strategy_applyAdaptiveAdjustment (e : StrategyEvaluation) :
    (applyAdaptiveAdjustment stats e).strategy = e.strategy := by
  unfold applyAdaptiveAdjustment
  split <;> rfl

theorem score_applyAdaptiveAdjustment (e : StrategyEvaluation) :
    (applyAdaptiveAdjustment stats e).score = e.score := by
  unfold applyAdaptiveAdjustment
  split <;> rfl

theorem neg_maxPenalty_le_adaptiveOffset : -maxPenalty ≤ adaptiveOffset stats strategy := by
  unfold adaptiveOffset
  split
  · unfold maxPenalty
    norm_num
  · exact le_clampValue neg_maxPenalty_le_maxBonus _

theorem adaptiveOffset_le_maxBonus : adaptiveOffset stats strategy ≤ maxBonus := by
  unfold adaptiveOffset
  split
  · unfold maxBonus
    norm_num
  · exact clampValue_le neg_maxPenalty_le_maxBonus _

end Offset

/-! ### The bucket that is used -/

/-- The counts are those of a share of failures. -/
structure FailureRate.Sound (fr : FailureRate) : Prop where
  failures_nonneg : 0 ≤ fr.failures
  failures_le : fr.failures ≤ fr.total
  rate_eq : 0 < fr.total → fr.rate = (fr.failures : ℚ) / fr.total

/-- Every bucket of the three maps is sound. -/
structure FailureStats.Sound (stats : FailureStats) : Prop where
  fine : ∀ kv ∈ stats.byStrategyRoleCategory, kv.2.Sound
  middle : ∀ kv ∈ stats.byStrategyCategory, kv.2.Sound
  coarse : ∀ kv ∈ stats.byStrategy, kv.2.Sound

/-- The granularity that `computeAdjustment` uses for a strategy, with its counts. -/
def usedBucket (strategy : RoutingStrategy) (stats : FailureStats) :
    Option (String × FailureRate) :=
  let fine := aggregateByStrategyAndRole stats.byStrategyRoleCategory strategy
    (defaultRoleMapping strategy).text
  let middle := aggregateByStrategyFromMap stats.byStrategyCategory strategy
  if minSamples ≤ fine.total then some ("strategy_role_category", fine)
  else if minSamples ≤ middle.total then some ("strategy_category", middle)
  else ((stats.byStrategy.lookup strategy.text).filter fun fr => minSamples ≤ fr.total).map
    (Prod.mk "strategy")

theorem computeAdjustment_eq (strategy : RoutingStrategy) (stats : FailureStats) :
    computeAdjustment strategy stats
      = (usedBucket strategy stats).map fun p => buildAdjustment p.2 p.1 stats.window := by
  unfold computeAdjustment usedBucket
  dsimp only
  -- the three granularities are tried in turn; only the last one may be absent altogether
  split
  · rfl
  split
  · rfl
  cases stats.byStrategy.lookup strategy.text with
  | none => rfl
  | some fr =>
    rw [Option.filter_some]
    by_cases h : minSamples ≤ fr.total
    · rw [if_pos (decide_eq_true h)]
      exact if_pos h
    · rw [if_neg (by simpa using h)]
      exact if_neg h

theorem aggregate_rate (m : List (StatsKey × FailureRate)) (sel : StatsKey → Bool)
    (h : 0 < (aggregate m sel).total) :
    (aggregate m sel).rate = ((aggregate m sel).failures : ℚ) / (aggregate m sel).total :=
  if_pos h

theorem minSamples_pos : 0 < minSamples := by decide

/-- The bucket that is used has enough samples, and its rate is its share of failures. -/
theorem rate_of_usedBucket {strategy : RoutingStrategy} {stats : FailureStats}
    (hsound : stats.Sound) {granularity : String} {fr : FailureRate}
    (h : usedBucket strategy stats = some (granularity, fr)) :
    0 < fr.total ∧ fr.rate = (fr.failures : ℚ) / fr.total := by
  unfold usedBucket at h
  dsimp only at h
  split at h
  · next hfine =>
    obtain ⟨-, rfl⟩ := Prod.mk.inj (Option.some.inj h)
    have hpos := minSamples_pos.trans_le hfine
    exact ⟨hpos, aggregate_rate _ _ hpos⟩
  split at h
  · next hmiddle =>
    obtain ⟨-, rfl⟩ := Prod.mk.inj (Option.some.inj h)
    have hpos := minSamples_pos.trans_le hmiddle
    exact ⟨hpos, aggregate_rate _ _ hpos⟩
  · -- the coarse map is read as it is, so here the statistics have to be sound
    obtain ⟨fr', hfilter, hpair⟩ := Option.map_eq_some_iff.mp h
    obtain ⟨-, rfl⟩ := Prod.mk.inj hpair
    obtain ⟨hlookup, hsamples⟩ := Option.filter_eq_some_iff.mp hfilter
    have hpos := minSamples_pos.trans_le (of_decide_eq_true hsamples)
    obtain ⟨l₁, l₂, hsplit, -⟩ := List.lookup_eq_some_iff.mp hlookup
    have hmem : (strategy.text, fr') ∈ stats.byStrategy := by
      rw [hsplit]
      exact List.mem_append_cons_self
    exact ⟨hpos, (hsound.coarse _ hmem).rate_eq hpos⟩

/-! ### More failures, lower score -/

theorem computeRawAdjustment_antitone {r r' : ℚ} (h : r ≤ r') :
    computeRawAdjustment r' ≤ computeRawAdjustment r := by
  refine clampValue_mono neg_maxPenalty_le_maxBonus ?_
  -- both branches rise with the deviation, and they meet at zero
  have hscale : 1 - baselineFailureRate = 80 / 100 := by
    unfold baselineFailureRate
    norm_num
  rw [hscale]
  unfold baselineFailureRate maxBonus maxPenalty
  split <;> split <;> linarith

theorem computeConfidence_nonneg (n : Int) : 0 ≤ computeConfidence n := by
  unfold computeConfidence
  split
  · exact le_rfl
  · split
    · exact zero_le_one
    · next h _ =>
      refine div_nonneg (Int.cast_nonneg ?_) (Int.cast_nonneg (by decide))
      linarith [not_le.mp h]

theorem finalAdjustment_antitone {fr fr' : FailureRate} (granularity : String) (w w' : Duration)
    (htotal : fr.total = fr'.total) (hrate : fr.rate ≤ fr'.rate) :
    (buildAdjustment fr' granularity w').finalAdjustment
      ≤ (buildAdjustment fr granularity w).finalAdjustment := by
  unfold buildAdjustment
  dsimp only
  rw [htotal]
  exact mul_le_mul_of_nonneg_right (computeRawAdjustment_antitone hrate)
    (computeConfidence_nonneg _)

theorem adaptiveOffset_antitone {strategy : RoutingStrategy} {stats stats' : FailureStats}
    (hsound : stats.Sound) (hsound' : stats'.Sound) {granularity : String} {fr fr' : FailureRate}
    (h : usedBucket strategy stats = some (granularity, fr))
    (h' : usedBucket strategy stats' = some (granularity, fr')) (htotal : fr.total = fr'.total)
    (hfailures : fr.failures ≤ fr'.failures) :
    adaptiveOffset (some stats') strategy ≤ adaptiveOffset (some stats) strategy := by
  obtain ⟨hpos, hrate⟩ := rate_of_usedBucket hsound h
  obtain ⟨-, hrate'⟩ := rate_of_usedBucket hsound' h'
  unfold adaptiveOffset
  rw [Option.bind_some, Option.bind_some, computeAdjustment_eq, computeAdjustment_eq, h, h']
  refine clampValue_mono neg_maxPenalty_le_maxBonus
    (finalAdjustment_antitone granularity _ _ htotal ?_)
  rw [hrate, hrate', ← htotal]
  exact div_le_div_of_nonneg_right (Int.cast_le.mpr hfailures) (Int.cast_nonneg hpos.le)

/-! ### The selection -/

section Selection

variable (t : Task) (memCtx : Option MemoryContext) (stats : Option FailureStats)

/-- The evaluation of a strategy, when nothing overrides the scores. -/
def evaluationOf (strategy : RoutingStrategy) : StrategyEvaluation :=
  applyAdaptiveAdjustment stats (scoreStrategy t memCtx strategy)

theorem evaluationOf_strategy (s : RoutingStrategy) :
    (evaluationOf t memCtx stats s).strategy = s :=
  strategy_applyAdaptiveAdjustment stats _

theorem evaluationOf_score (s : RoutingStrategy) :
    (evaluationOf t memCtx stats s).score = (scoreStrategy t memCtx s).score :=
  score_applyAdaptiveAdjustment stats _

theorem evaluationOf_adjustedScore (s : RoutingStrategy) :
    (evaluationOf t memCtx stats s).adjustedScore
      = (scoreStrategy t memCtx s).score + adaptiveOffset stats s :=
  adjustedScore_eq stats _

variable {t}

theorem evaluations_eq (h : checkOverrides t = none) :
    (Routing.evaluate t memCtx stats).evaluations
      = evaluatedStrategies.map (evaluationOf t memCtx stats) := by
  rw [Routing.evaluate, h]
  rfl

/-- An override decides alone; otherwise the strategies are scored. -/
theorem override_or_scored (t : Task) :
    (∃ strategy reason, ∀ memCtx stats,
        Routing.evaluate t memCtx stats = overrideResult strategy reason) ∨
      checkOverrides t = none := by
  cases hover : checkOverrides t with
  | none => exact .inr rfl
  | some result =>
    obtain ⟨strategy, reason, rfl, -⟩ := checkOverrides_eq_some hover
    refine .inl ⟨strategy, reason, fun memCtx stats => ?_⟩
    rw [Routing.evaluate, hover]

/-- The loop of `tiebreak` finds the best evaluation. -/
theorem isBest_tiebreak (first : StrategyEvaluation) (rest : List StrategyEvaluation) :
    IsBest {e | e ∈ first :: rest} StrategyEvaluation.adjustedScore
      (fun e => simplicity e.strategy) (tiebreak first rest) := by
  refine isBest_of_foldl (fun best e => ?_) first rest
  by_cases hlt : best.adjustedScore < e.adjustedScore
  · rw [if_pos hlt, if_pos (.inl hlt)]
  · rw [if_neg hlt]
    refine if_congr ?_ rfl rfl
    rw [or_iff_right hlt, eq_comm]

/-- The selected strategy is the best of those that are scored. -/
theorem isBest_selected (h : checkOverrides t = none) :
    IsBest {s | s ∈ evaluatedStrategies}
      (fun s => (scoreStrategy t memCtx s).score + adaptiveOffset stats s) simplicity
      (Routing.evaluate t memCtx stats).selectedStrategy := by
  have hselected : (Routing.evaluate t memCtx stats).selectedStrategy
      = (tiebreak (evaluationOf t memCtx stats .direct) [evaluationOf t memCtx stats .decompose,
          evaluationOf t memCtx stats .escalate]).strategy := by
    rw [Routing.evaluate, h]
    rfl
  obtain ⟨hmem, hbest⟩ := isBest_tiebreak (evaluationOf t memCtx stats .direct)
    [evaluationOf t memCtx stats .decompose, evaluationOf t memCtx stats .escalate]
  -- the candidates are the evaluations of the three strategies, so the scores can be read off them
  obtain ⟨s, hs, he⟩ := List.mem_map.mp
    (show _ ∈ evaluatedStrategies.map (evaluationOf t memCtx stats) from hmem)
  rw [hselected, ← he, evaluationOf_strategy]
  refine ⟨hs, fun s' hs' => ?_⟩
  have hle := hbest (evaluationOf t memCtx stats s')
    (show _ ∈ evaluatedStrategies.map (evaluationOf t memCtx stats) from List.mem_map_of_mem hs')
  rw [← he] at hle
  rw [evaluationOf_adjustedScore, evaluationOf_adjustedScore, evaluationOf_strategy,
    evaluationOf_strategy] at hle
  exact hle

theorem adjustedScore_bounds {e : StrategyEvaluation}
    (he : e ∈ (Routing.evaluate t memCtx stats).evaluations) :
    e.score - 15 / 100 ≤ e.adjustedScore ∧ e.adjustedScore ≤ e.score + 5 / 100 := by
  rcases override_or_scored t with ⟨strategy, reason, hover⟩ | hover
  · -- an override has one evaluation, and its two scores are the same
    rw [hover] at he
    rw [List.mem_singleton.mp he]
    norm_num
  · rw [evaluations_eq memCtx stats hover] at he
    obtain ⟨s, -, rfl⟩ := List.mem_map.mp he
    rw [evaluationOf_adjustedScore, evaluationOf_score]
    have hlo := neg_maxPenalty_le_adaptiveOffset stats s
    have hhi := adaptiveOffset_le_maxBonus stats s
    unfold maxPenalty at hlo
    unfold maxBonus at hhi
    exact ⟨by linarith, by linarith⟩

variable (t)

theorem exists_selected : ∃ e ∈ (Routing.evaluate t memCtx stats).evaluations,
    (Routing.evaluate t memCtx stats).selectedStrategy = e.strategy ∧
      ∀ e' ∈ (Routing.evaluate t memCtx stats).evaluations,
        e'.adjustedScore < e.adjustedScore ∨
          e'.adjustedScore = e.adjustedScore ∧ e.strategy.UpTo e'.strategy := by
  rcases override_or_scored t with ⟨strategy, reason, hover⟩ | hover
  · rw [hover]
    refine ⟨_, List.mem_singleton_self _, rfl, fun e' he' => ?_⟩
    rw [List.mem_singleton.mp he']
    exact .inr ⟨rfl, .inl rfl⟩
  · have hbest := isBest_selected memCtx stats hover
    rw [evaluations_eq memCtx stats hover]
    refine ⟨_, List.mem_map_of_mem hbest.mem, (evaluationOf_strategy _ _ _ _).symm, ?_⟩
    intro e' he'
    obtain ⟨s', hs', rfl⟩ := List.mem_map.mp he'
    rw [evaluationOf_adjustedScore, evaluationOf_adjustedScore, evaluationOf_strategy,
      evaluationOf_strategy, ← simplicity_le_iff hbest.mem hs']
    exact hbest.best s' hs'

variable {t}

/-- A lead by more than both bounds together is kept. -/
theorem selected_of_lead {e : StrategyEvaluation}
    (he : e ∈ (Routing.evaluate t memCtx none).evaluations)
    (hlead : ∀ e' ∈ (Routing.evaluate t memCtx none).evaluations,
      e'.strategy ≠ e.strategy → e'.score + 20 / 100 < e.score) :
    (Routing.evaluate t memCtx stats).selectedStrategy = e.strategy := by
  rcases override_or_scored t with ⟨strategy, reason, hover⟩ | hover
  · rw [hover] at he
    rw [hover, List.mem_singleton.mp he]
    rfl
  · rw [evaluations_eq memCtx none hover] at he hlead
    obtain ⟨s, hs, rfl⟩ := List.mem_map.mp he
    rw [evaluationOf_strategy]
    have hmargin : maxPenalty + maxBonus = 20 / 100 := by
      unfold maxPenalty maxBonus
      norm_num
    -- the raw scores do not depend on the statistics, so the lead can be read without them
    have hahead : ∀ s' ∈ {s | s ∈ evaluatedStrategies}, s' ≠ s →
        (scoreStrategy t memCtx s').score + (maxPenalty + maxBonus)
          < (scoreStrategy t memCtx s).score := by
      intro s' hs' hne
      have hlt := hlead _ (List.mem_map_of_mem hs')
      rw [evaluationOf_strategy, evaluationOf_strategy, evaluationOf_score,
        evaluationOf_score] at hlt
      rw [hmargin]
      exact hlt hne
    refine IsBest.eq_of_margin hs hahead (fun s' _ => ?_) (fun s' _ => ?_)
      (isBest_selected memCtx stats hover)
    · have hlo := neg_maxPenalty_le_adaptiveOffset stats s'
      linarith
    · exact add_le_add_right (adaptiveOffset_le_maxBonus stats s') _

theorem evaluate_stats_of_override (h : (checkOverrides t).isSome) :
    Routing.evaluate t memCtx stats = Routing.evaluate t memCtx none := by
  rcases override_or_scored t with ⟨strategy, reason, hover⟩ | hover
  · rw [hover, hover]
  · rw [hover] at h
    cases h

/-- More failures among as many samples do not raise a score. -/
theorem adjustedScore_antitone {st st' : FailureStats} (hsound : st.Sound) (hsound' : st'.Sound)
    {e e' : StrategyEvaluation} (he : e ∈ (Routing.evaluate t memCtx st).evaluations)
    (he' : e' ∈ (Routing.evaluate t memCtx st').evaluations) (hstrategy : e'.strategy = e.strategy)
    {granularity : String} {fr fr' : FailureRate}
    (hfr : usedBucket e.strategy st = some (granularity, fr))
    (hfr' : usedBucket e.strategy st' = some (granularity, fr')) (htotal : fr.total = fr'.total)
    (hfailures : fr.failures ≤ fr'.failures) : e'.adjustedScore ≤ e.adjustedScore := by
  rcases override_or_scored t with ⟨strategy, reason, hover⟩ | hover
  · rw [hover] at he he'
    rw [List.mem_singleton.mp he, List.mem_singleton.mp he']
  · rw [evaluations_eq memCtx _ hover] at he he'
    obtain ⟨s, -, rfl⟩ := List.mem_map.mp he
    obtain ⟨s', -, rfl⟩ := List.mem_map.mp he'
    rw [evaluationOf_strategy, evaluationOf_strategy] at hstrategy
    subst hstrategy
    rw [evaluationOf_strategy] at hfr hfr'
    rw [evaluationOf_adjustedScore, evaluationOf_adjustedScore]
    exact add_le_add_right (adaptiveOffset_antitone hsound hsound' hfr hfr' htotal hfailures) _

end Selection

/-- **The adjustment is bounded and cannot flip a clear winner.** For every task, memory and
statistics: no score moves by more than the bounds; the best adjusted score is selected, and of
equal ones the simplest strategy; a strategy that leads by more than both bounds together is
selected; overridden tasks are routed as without statistics; and of two sound statistics that give a
strategy as many samples at the same granularity, the one with more failures does not give it a
higher score. -/
theorem adaptive_adjustment_bounded (t : Task) (memCtx : Option MemoryContext)
    (stats : Option FailureStats) :
    (∀ e ∈ (Routing.evaluate t memCtx stats).evaluations,
      e.score - 15 / 100 ≤ e.adjustedScore ∧ e.adjustedScore ≤ e.score + 5 / 100) ∧
    (∃ e ∈ (Routing.evaluate t memCtx stats).evaluations,
      (Routing.evaluate t memCtx stats).selectedStrategy = e.strategy ∧
        ∀ e' ∈ (Routing.evaluate t memCtx stats).evaluations,
          e'.adjustedScore < e.adjustedScore ∨
            e'.adjustedScore = e.adjustedScore ∧ e.strategy.UpTo e'.strategy) ∧
    (∀ e ∈ (Routing.evaluate t memCtx none).evaluations,
      (∀ e' ∈ (Routing.evaluate t memCtx none).evaluations,
        e'.strategy ≠ e.strategy → e'.score + 20 / 100 < e.score) →
      (Routing.evaluate t memCtx stats).selectedStrategy = e.strategy) ∧
    ((checkOverrides t).isSome →
      Routing.evaluate t memCtx stats = Routing.evaluate t memCtx none) ∧
    ∀ st st' : FailureStats, st.Sound → st'.Sound →
      ∀ e ∈ (Routing.evaluate t memCtx st).evaluations,
      ∀ e' ∈ (Routing.evaluate t memCtx st').evaluations, e'.strategy = e.strategy →
      ∀ granularity fr fr', usedBucket e.strategy st = some (granularity, fr) →
        usedBucket e.strategy st' = some (granularity, fr') → fr.total = fr'.total →
        fr.failures ≤ fr'.failures → e'.adjustedScore ≤ e.adjustedScore := by
  refine ⟨fun e he => adjustedScore_bounds memCtx stats he, exists_selected t memCtx stats,
    fun e he hlead => selected_of_lead memCtx stats he hlead,
    fun h => evaluate_stats_of_override memCtx stats h, ?_⟩
  intro st st' hsound hsound' e he e' he' hstrategy granularity fr fr' hfr hfr' htotal hfailures
  exact adjustedScore_antitone memCtx hsound hsound' he he' hstrategy hfr hfr' htotal hfailures

/-! ### The failure rate of similar tasks -/

/-- How the score for similar tasks changes with their failure rate. -/
def memorySlope : RoutingStrategy → ℚ
  | .direct => -1
  | .decompose => 3 / 10
  | .escalate => 1
  | .collaborate => 0

theorem scoreMemorySimilarTasks_sub (r₁ r₂ : ℚ) (heuristics : Bool) (s : RoutingStrategy) :
    scoreMemorySimilarTasks (some ⟨r₂, heuristics⟩) s
        - scoreMemorySimilarTasks (some ⟨r₁, heuristics⟩) s
      = memorySlope s * (r₂ - r₁) := by
  cases s <;> simp only [scoreMemorySimilarTasks, memorySlope] <;> ring

/-- Nothing else in the score depends on the rate. -/
theorem score_sub (t : Task) (r₁ r₂ : ℚ) (heuristics : Bool) (s : RoutingStrategy) :
    (scoreStrategy t (some ⟨r₂, heuristics⟩) s).score
        - (scoreStrategy t (some ⟨r₁, heuristics⟩) s).score
      = memorySlope s * (r₂ - r₁) * weightMemorySimilar := by
  rw [← scoreMemorySimilarTasks_sub r₁ r₂ heuristics]
  have hheuristics : scoreMemoryHeuristics (some ⟨r₂, heuristics⟩) s
      = scoreMemoryHeuristics (some ⟨r₁, heuristics⟩) s := rfl
  unfold scoreStrategy
  dsimp only
  rw [hheuristics]
  ring

theorem memorySlope_mono {s s' : RoutingStrategy} (hs : s ∈ evaluatedStrategies)
    (hs' : s' ∈ evaluatedStrategies) (h : simplicity s ≤ simplicity s') :
    memorySlope s ≤ memorySlope s' := by
  have hall : ∀ s ∈ evaluatedStrategies, ∀ s' ∈ evaluatedStrategies,
      simplicity s ≤ simplicity s' → memorySlope s ≤ memorySlope s' := by decide +kernel
  exact hall s hs s' hs' h

/-- **More failures in the past never make the routing simpler.** Of two memories that differ in the
failure rate of similar tasks, the one with the higher rate selects a strategy at least as far along
the order direct, decompose, escalate. -/
theorem higher_failure_rate_not_simpler (t : Task) (stats : Option FailureStats)
    (heuristics : Bool) (r₁ r₂ : ℚ) (hr : r₁ ≤ r₂) :
    (Routing.evaluate t (some ⟨r₁, heuristics⟩) stats).selectedStrategy.UpTo
      (Routing.evaluate t (some ⟨r₂, heuristics⟩) stats).selectedStrategy := by
  rcases override_or_scored t with ⟨strategy, reason, hover⟩ | hover
  · rw [hover, hover]
    exact .inl rfl
  · have hbest₁ := isBest_selected (some ⟨r₁, heuristics⟩) stats hover
    have hbest₂ := isBest_selected (some ⟨r₂, heuristics⟩) stats hover
    rw [← simplicity_le_iff hbest₁.mem hbest₂.mem]
    refine hbest₁.rank_le_of_favours hbest₂ fun s hs s' hs' hle => ?_
    -- the offsets are those of the statistics, so they cancel
    rw [add_sub_add_right_eq_sub, add_sub_add_right_eq_sub, score_sub, score_sub]
    have hweight : 0 ≤ weightMemorySimilar := by
      unfold weightMemorySimilar
      norm_num
    exact mul_le_mul_of_nonneg_right
      (mul_le_mul_of_nonneg_right (memorySlope_mono hs hs' hle) (sub_nonneg.mpr hr)) hweight

/-- A change of medium risk to one module. -/
def moduleChange : Task where
  id := ⟨"t"⟩
  parentTaskID := none
  taskType := .development
  title := "change"
  scope := .module
  priority := .normal
  riskLevel := .medium
  status := .created
  metadata := []
  createdAt := 0
  updatedAt := 0

/-- It is done directly when similar tasks never failed, and decomposed when they always did. -/
theorem moduleChange_not_simpler :
    (0 : ℚ) ≤ 1 ∧
      (Routing.evaluate moduleChange (some ⟨0, false⟩) none).selectedStrategy = .direct ∧
      (Routing.evaluate moduleChange (some ⟨1, false⟩) none).selectedStrategy = .decompose ∧
      (Routing.evaluate moduleChange (some ⟨0, false⟩) none).selectedStrategy.UpTo
        (Routing.evaluate moduleChange (some ⟨1, false⟩) none).selectedStrategy :=
  ⟨zero_le_one, by decide +kernel, by decide +kernel,
    higher_failure_rate_not_simpler moduleChange none false 0 1 zero_le_one⟩

/-! ### The executor -/

/-- The result says who executes the task, and a routing decision can be made of it. -/
structure NamesExecutor (r : Routing.EvaluatorResult) : Prop where
  role : (newAgentRole r.selectedRole.text).isSome
  evaluated : ∃ e ∈ r.evaluations, e.strategy = r.selectedStrategy
  reason_ne : r.reason ≠ ""
  accepted : ∀ id (taskID : TaskID) constraints now, taskID.text ≠ "" →
    ∃ rd, newRoutingDecision id taskID r.evaluations r.selectedStrategy r.selectedRole r.reason
      constraints now = .ok rd

/-- The metadata force the strategy collaborate, and no other override comes before them. -/
def ForcesCollaborate (t : Task) : Prop :=
  t.riskLevel ≠ .critical ∧ ¬(t.scope = .system ∧ t.taskType = .deployment) ∧
    t.metadata.lookup "force_strategy" = some (.string "collaborate")

instance (t : Task) : Decidable (ForcesCollaborate t) := inferInstanceAs (Decidable (_ ∧ _))

section Executor

variable (t : Task) (memCtx : Option MemoryContext) (stats : Option FailureStats)

theorem selectedRole_eq :
    (Routing.evaluate t memCtx stats).selectedRole
      = defaultRoleMapping (Routing.evaluate t memCtx stats).selectedStrategy := by
  rcases override_or_scored t with ⟨strategy, reason, hover⟩ | hover
  · rw [hover]
    rfl
  · rw [Routing.evaluate, hover]

/-- Collaborate is the one strategy whose role is missing. -/
theorem newAgentRole_defaultRoleMapping (s : RoutingStrategy) :
    (newAgentRole (defaultRoleMapping s).text).isSome ↔ s ≠ .collaborate := by
  cases s <;> decide

/-- Collaborate is never scored, so it is selected only when it is forced. -/
theorem selectedStrategy_eq_collaborate_iff :
    (Routing.evaluate t memCtx stats).selectedStrategy = .collaborate ↔ ForcesCollaborate t := by
  unfold ForcesCollaborate
  have hescalate : RoutingStrategy.escalate ≠ .collaborate := by decide
  -- the two rules that escalate come before the metadata
  by_cases hrisk : t.riskLevel = .critical
  · rw [Routing.evaluate, checkOverrides_eq, if_pos hrisk]
    exact iff_of_false hescalate fun h => h.1 hrisk
  by_cases hdeploy : t.scope = .system ∧ t.taskType = .deployment
  · rw [Routing.evaluate, checkOverrides_eq, if_neg hrisk, if_pos hdeploy]
    exact iff_of_false hescalate fun h => h.2.1 hdeploy
  have hoverrides := checkOverrides_eq t
  rw [if_neg hrisk, if_neg hdeploy] at hoverrides
  have hforces : (t.riskLevel ≠ .critical ∧ ¬(t.scope = .system ∧ t.taskType = .deployment) ∧
      t.metadata.lookup "force_strategy" = some (.string "collaborate"))
        ↔ forcedStrategy t.metadata = some .collaborate := by
    rw [forcedStrategy_eq_some_iff, and_iff_right hrisk, and_iff_right hdeploy]
    rfl
  rw [hforces]
  cases hforced : forcedStrategy t.metadata with
  | some strategy =>
    rw [hforced] at hoverrides
    rw [Routing.evaluate, hoverrides, Option.some_inj]
    rfl
  | none =>
    rw [hforced] at hoverrides
    have hmem := (isBest_selected memCtx stats hoverrides).mem
    refine iff_of_false (fun h => ?_) fun h => by cases h
    rw [h] at hmem
    exact absurd hmem (show RoutingStrategy.collaborate ∉ evaluatedStrategies by decide)

/-- **Who executes a task.** For every task, memory and statistics, the result names a valid role
for a strategy that was evaluated, with a reason, and makes a routing decision, exactly when the
metadata do not force the strategy collaborate. -/
theorem names_executor_iff :
    NamesExecutor (Routing.evaluate t memCtx stats) ↔ ¬ForcesCollaborate t := by
  rw [← selectedStrategy_eq_collaborate_iff t memCtx stats, ← ne_eq,
    ← newAgentRole_defaultRoleMapping, ← selectedRole_eq]
  -- a valid role is all that can be missing
  refine ⟨fun h => h.role, fun hrole => ?_⟩
  obtain ⟨hreason, hlength⟩ := evaluate_complete t memCtx stats
  obtain ⟨e, he, hselected, -⟩ := exists_selected t memCtx stats
  refine ⟨hrole, ⟨e, he, hselected.symm⟩, hreason, fun id taskID constraints now htask => ?_⟩
  rw [newRoutingDecision, if_neg htask, if_neg hlength, if_neg hreason]
  exact ⟨_, rfl⟩

end Executor

/-- The metadata of this task ask for collaboration. -/
def jointChange : Task :=
  { moduleChange with metadata := [("force_strategy", .string "collaborate")] }

/-- It gets a decision without an executor. -/
theorem jointChange_has_no_executor :
    (Routing.evaluate jointChange none none).selectedStrategy = .collaborate ∧
      (Routing.evaluate jointChange none none).selectedRole.text = "" ∧
      ¬NamesExecutor (Routing.evaluate jointChange none none) :=
  ⟨by decide, by decide, fun h => absurd h.role (by decide)⟩

end Governance

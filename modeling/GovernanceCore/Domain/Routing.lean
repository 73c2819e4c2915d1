import GovernanceCore.Domain.Task

/-!
# Routing: strategies, scores, adaptive adjustment, decisions

`internal/domain/routing`. A task is routed by a hard override or by the best of three weighted
scores, each of them moved by a bounded amount when the failure statistics hold enough samples.

Scores are rationals where the source has `float64`: the constants below are the decimal literals of
the source, and rounding is not modelled.
-/

namespace Governance

/-! ### Strategies and roles -/

/-- `RoutingStrategy`: the declared constants, the only ones `NewRoutingStrategy` lets through. -/
inductive RoutingStrategy where
  | direct | decompose | collaborate | escalate
  deriving DecidableEq, Repr

def RoutingStrategy.text : RoutingStrategy → String
  | .direct => "direct"
  | .decompose => "decompose"
  | .collaborate => "collaborate"
  | .escalate => "escalate"

/-- `NewRoutingStrategy`; its only caller drops the error. -/
def newRoutingStrategy (s : String) : Option RoutingStrategy :=
  [RoutingStrategy.direct, .decompose, .collaborate, .escalate].find? fun r => r.text = s

/-- `AgentRole`; `unset` is the empty text, the zero value of a map lookup that misses. -/
inductive AgentRole where
  | implementer | reviewer | researcher | architect | human
  | unset
  deriving DecidableEq, Repr

def AgentRole.text : AgentRole → String
  | .implementer => "implementer"
  | .reviewer => "reviewer"
  | .researcher => "researcher"
  | .architect => "architect"
  | .human => "human"
  | .unset => ""

/-- `NewAgentRole`. Nothing calls it. -/
def newAgentRole (s : String) : Option AgentRole :=
  [AgentRole.implementer, .reviewer, .researcher, .architect, .human].find? fun r => r.text = s

/-- `defaultRoleMapping`: no entry for collaborate. -/
def defaultRoleMapping : RoutingStrategy → AgentRole
  | .direct => .implementer
  | .decompose => .architect
  | .escalate => .human
  | .collaborate => .unset

/-! ### Scoring factors -/

/-- `MemoryContext`. -/
structure MemoryContext where
  similarTaskFailureRate : ℚ
  hasRelevantHeuristics : Bool
  deriving DecidableEq

def weightRiskLevel : ℚ := 30 / 100
def weightTaskScope : ℚ := 25 / 100
def weightTaskType : ℚ := 20 / 100
def weightTaskPriority : ℚ := 10 / 100
def weightMemorySimilar : ℚ := 10 / 100
def weightMemoryHeuristics : ℚ := 5 / 100

/-- `scoreRiskLevel`. -/
def scoreRiskLevel : RiskLevel → RoutingStrategy → ℚ
  | .low, .direct => 9 / 10
  | .medium, .direct => 6 / 10
  | .high, .direct => 3 / 10
  | .critical, .direct => 1 / 10
  | .low, .decompose => 4 / 10
  | .medium, .decompose => 7 / 10
  | .high, .decompose => 8 / 10
  | .critical, .decompose => 5 / 10
  | .low, .escalate => 1 / 10
  | .medium, .escalate => 4 / 10
  | .high, .escalate => 7 / 10
  | .critical, .escalate => 1
  | _, _ => 5 / 10

/-- `scoreTaskScope`. -/
def scoreTaskScope : TaskScope → RoutingStrategy → ℚ
  | .file, .direct => 9 / 10
  | .module, .direct => 7 / 10
  | .repo, .direct => 4 / 10
  | .system, .direct => 2 / 10
  | .file, .decompose => 3 / 10
  | .module, .decompose => 6 / 10
  | .repo, .decompose => 8 / 10
  | .system, .decompose => 7 / 10
  | .file, .escalate => 1 / 10
  | .module, .escalate => 3 / 10
  | .repo, .escalate => 5 / 10
  | .system, .escalate => 8 / 10
  | _, _ => 5 / 10

/-- `scoreTaskType`. -/
def scoreTaskType : TaskType → RoutingStrategy → ℚ
  | .bugfix, .direct => 8 / 10
  | .development, .direct => 7 / 10
  | .review, .direct => 6 / 10
  | .research, .direct => 5 / 10
  | .refactor, .direct => 4 / 10
  | .deployment, .direct => 2 / 10
  | .bugfix, .decompose => 3 / 10
  | .development, .decompose => 6 / 10
  | .review, .decompose => 4 / 10
  | .research, .decompose => 7 / 10
  | .refactor, .decompose => 8 / 10
  | .deployment, .decompose => 5 / 10
  | .bugfix, .escalate => 2 / 10
  | .development, .escalate => 3 / 10
  | .review, .escalate => 4 / 10
  | .research, .escalate => 3 / 10
  | .refactor, .escalate => 4 / 10
  | .deployment, .escalate => 9 / 10
  | _, _ => 5 / 10

/-- `scoreTaskPriority`. -/
def scoreTaskPriority : Priority → RoutingStrategy → ℚ
  | .low, .direct => 7 / 10
  | .normal, .direct => 7 / 10
  | .high, .direct => 5 / 10
  | .urgent, .direct => 4 / 10
  | .low, .decompose => 5 / 10
  | .normal, .decompose => 5 / 10
  | .high, .decompose => 6 / 10
  | .urgent, .decompose => 5 / 10
  | .low, .escalate => 2 / 10
  | .normal, .escalate => 3 / 10
  | .high, .escalate => 6 / 10
  | .urgent, .escalate => 8 / 10
  | _, _ => 5 / 10

/-- `scoreMemorySimilarTasks`. -/
def scoreMemorySimilarTasks : Option MemoryContext → RoutingStrategy → ℚ
  | none, _ => 5 / 10
  | some ctx, .direct => 1 - ctx.similarTaskFailureRate
  | some ctx, .decompose => 5 / 10 + ctx.similarTaskFailureRate * (3 / 10)
  | some ctx, .escalate => ctx.similarTaskFailureRate
  | some _, .collaborate => 5 / 10

/-- `scoreMemoryHeuristics`. -/
def scoreMemoryHeuristics (ctx : Option MemoryContext) (strategy : RoutingStrategy) : ℚ :=
  match ctx with
  | none => 5 / 10
  | some m =>
    if m.hasRelevantHeuristics then
      match strategy with
      | .direct => 8 / 10
      | .decompose => 6 / 10
      | .escalate => 3 / 10
      | .collaborate => 5 / 10
    else 5 / 10

/-! ### Adaptive adjustment -/

/-- `StatsKey`. The strategy is a text: keys come from recorded audit data. -/
structure StatsKey where
  strategy : String
  role : String
  category : String
  deriving DecidableEq, Repr

/-- `FailureRate`. -/
structure FailureRate where
  total : Int
  failures : Int
  rate : ℚ
  deriving DecidableEq

/-- `FailureStats`: the entries of its three maps, and the window they cover. A nil map of the
source and an empty one give the same answers, so both are the empty list. -/
structure FailureStats where
  byStrategyRoleCategory : List (StatsKey × FailureRate)
  byStrategyCategory : List (StatsKey × FailureRate)
  byStrategy : List (String × FailureRate)
  window : Duration
  deriving DecidableEq

def maxPenalty : ℚ := 15 / 100
def maxBonus : ℚ := 5 / 100
def baselineFailureRate : ℚ := 20 / 100
def minSamples : Int := 5
def fullConfidenceAt : Int := 30

/-- `AdaptiveAdjustment`; the window is kept as a duration, not as its text. -/
structure AdaptiveAdjustment where
  rawAdjustment : ℚ
  confidence : ℚ
  finalAdjustment : ℚ
  failureRate : ℚ
  sampleSize : Int
  granularity : String
  window : Duration
  deriving DecidableEq

/-- `clampValue`. -/
def clampValue (value min max : ℚ) : ℚ :=
  if value < min then min else if max < value then max else value

/-- The sum of the rates whose key is selected, with its rate: the loop that
`aggregateByStrategyAndRole` and `aggregateByStrategyFromMap` share. -/
def aggregate (m : List (StatsKey × FailureRate)) (sel : StatsKey → Bool) : FailureRate :=
  let hits := m.filter fun kv => sel kv.1
  let total := (hits.map fun kv => kv.2.total).sum
  let failures := (hits.map fun kv => kv.2.failures).sum
  ⟨total, failures, if 0 < total then (failures : ℚ) / total else 0⟩

/-- `aggregateByStrategyAndRole`. -/
def aggregateByStrategyAndRole (m : List (StatsKey × FailureRate)) (strategy : RoutingStrategy)
    (role : String) : FailureRate :=
  aggregate m fun k => k.strategy = strategy.text && k.role = role

/-- `aggregateByStrategyFromMap`. -/
def aggregateByStrategyFromMap (m : List (StatsKey × FailureRate)) (strategy : RoutingStrategy) :
    FailureRate :=
  aggregate m fun k => k.strategy = strategy.text

/-- `computeRawAdjustment`. -/
def computeRawAdjustment (failureRate : ℚ) : ℚ :=
  let deviation := baselineFailureRate - failureRate
  let raw := if 0 ≤ deviation then deviation / baselineFailureRate * maxBonus
    else deviation / (1 - baselineFailureRate) * maxPenalty
  clampValue raw (-maxPenalty) maxBonus

/-- `computeConfidence`. -/
def computeConfidence (samples : Int) : ℚ :=
  if samples ≤ minSamples then 0
  else if fullConfidenceAt ≤ samples then 1
  else ((samples - minSamples : Int) : ℚ) / ((fullConfidenceAt - minSamples : Int) : ℚ)

/-- `buildAdjustment`. -/
def buildAdjustment (fr : FailureRate) (granularity : String) (window : Duration) :
    AdaptiveAdjustment :=
  let raw := computeRawAdjustment fr.rate
  let conf := computeConfidence fr.total
  ⟨raw, conf, raw * conf, fr.rate, fr.total, granularity, window⟩

/-- `computeAdjustment`: the finest granularity with enough samples. -/
def computeAdjustment (strategy : RoutingStrategy) (stats : FailureStats) :
    Option AdaptiveAdjustment :=
  let fine := aggregateByStrategyAndRole stats.byStrategyRoleCategory strategy
    (defaultRoleMapping strategy).text
  let middle := aggregateByStrategyFromMap stats.byStrategyCategory strategy
  if minSamples ≤ fine.total then
    some (buildAdjustment fine "strategy_role_category" stats.window)
  else if minSamples ≤ middle.total then
    some (buildAdjustment middle "strategy_category" stats.window)
  else match stats.byStrategy.lookup strategy.text with
    | some fr => if minSamples ≤ fr.total then some (buildAdjustment fr "strategy" stats.window)
      else none
    | none => none

/-! ### Evaluation -/

/-- `StrategyEvaluation`. -/
structure StrategyEvaluation where
  strategy : RoutingStrategy
  score : ℚ
  adjustedScore : ℚ
  factorScores : List (String × ℚ)
  overridden : Bool
  reason : String
  adaptiveAdjustment : Option AdaptiveAdjustment := none
  deriving DecidableEq

/-- `EvaluatorResult` of package `routing`. -/
structure Routing.EvaluatorResult where
  evaluations : List StrategyEvaluation
  selectedStrategy : RoutingStrategy
  selectedRole : AgentRole
  reason : String
  deriving DecidableEq

/-- `applyAdaptiveAdjustments`, on one evaluation. -/
def applyAdaptiveAdjustment (stats : Option FailureStats) (eval : StrategyEvaluation) :
    StrategyEvaluation :=
  match stats.bind (computeAdjustment eval.strategy) with
  | none => { eval with adjustedScore := eval.score }
  | some adj =>
    { eval with
      adaptiveAdjustment := some adj
      adjustedScore := clampValue (eval.score + adj.finalAdjustment) (eval.score - maxPenalty)
        (eval.score + maxBonus) }

/-- One round of the loop of `scoreStrategies`. -/
def scoreStrategy (t : Task) (memCtx : Option MemoryContext) (strategy : RoutingStrategy) :
    StrategyEvaluation :=
  let risk := scoreRiskLevel t.riskLevel strategy
  let scope := scoreTaskScope t.scope strategy
  let type := scoreTaskType t.taskType strategy
  let priority := scoreTaskPriority t.priority strategy
  let similar := scoreMemorySimilarTasks memCtx strategy
  let heuristics := scoreMemoryHeuristics memCtx strategy
  let score := risk * weightRiskLevel + scope * weightTaskScope + type * weightTaskType
    + priority * weightTaskPriority + similar * weightMemorySimilar
    + heuristics * weightMemoryHeuristics
  { strategy, score, adjustedScore := score
    factorScores := [("risk_level", risk), ("task_scope", scope), ("task_type", type),
      ("task_priority", priority), ("memory_similar_tasks", similar),
      ("memory_heuristics", heuristics)]
    overridden := false
    reason := strategy.text ++ " scored " ++ formatFixed 4 score }

/-- The order of preference on equal scores. Collaborate is missing from the map of the source, so
it reads as zero. -/
def simplicity : RoutingStrategy → Nat
  | .direct => 0
  | .decompose => 1
  | .escalate => 2
  | .collaborate => 0

/-- `tiebreak`, with the first evaluation apart: the source indexes it. -/
def tiebreak (first : StrategyEvaluation) (rest : List StrategyEvaluation) : StrategyEvaluation :=
  rest.foldl (fun best e =>
    if best.adjustedScore < e.adjustedScore then e
    else if e.adjustedScore = best.adjustedScore
        ∧ simplicity e.strategy < simplicity best.strategy then e
    else best) first

/-- `overrideResult`. -/
def overrideResult (strategy : RoutingStrategy) (reason : String) : Routing.EvaluatorResult where
  evaluations := [{ strategy, score := 1, adjustedScore := 1, factorScores := [],
                    overridden := true, reason }]
  selectedStrategy := strategy
  selectedRole := defaultRoleMapping strategy
  reason := reason

/-- `checkOverrides`. -/
def checkOverrides (t : Task) : Option Routing.EvaluatorResult :=
  if t.riskLevel = .critical then
    some (overrideResult .escalate "[override] risk_level is critical")
  else if t.scope = .system ∧ t.taskType = .deployment then
    some (overrideResult .escalate "[override] system-scope deployment")
  else match t.metadata.lookup "force_strategy" with
    | some (.string s) => (newRoutingStrategy s).map fun strategy =>
        overrideResult strategy ("[override] force_strategy=" ++ strategy.text)
    | _ => none

/-- The reason `Evaluate` gives for a score-based selection. The numbers are rounded from exact
rationals, where the code prints a `float64`. -/
def selectionReason (e : StrategyEvaluation) : String :=
  match e.adaptiveAdjustment with
  | none => "score-based: " ++ e.strategy.text ++ " scored " ++ formatFixed 4 e.score
  | some adj => "[adaptive] score-based: " ++ e.strategy.text ++ " scored " ++ formatFixed 4 e.score
      ++ " → adjusted to " ++ formatFixed 4 e.adjustedScore
      ++ " (failure_rate=" ++ formatFixed 2 adj.failureRate
      ++ ", confidence=" ++ formatFixed 2 adj.confidence ++ ")"

/-- `Evaluate`: overrides, then scores with their adjustments, then the tiebreak. -/
def Routing.evaluate (t : Task) (memCtx : Option MemoryContext) (stats : Option FailureStats) :
    Routing.EvaluatorResult :=
  match checkOverrides t with
  | some result => result
  | none =>
    let eval strategy := applyAdaptiveAdjustment stats (scoreStrategy t memCtx strategy)
    let selected := tiebreak (eval .direct) [eval .decompose, eval .escalate]
    { evaluations := [eval .direct, eval .decompose, eval .escalate]
      selectedStrategy := selected.strategy
      selectedRole := defaultRoleMapping selected.strategy
      reason := selectionReason selected }

theorem append_ne_empty {a : String} (ha : a ≠ "") (b : String) : a ++ b ≠ "" := by
  intro h
  have hlist := congrArg String.toList h
  rw [String.toList_append] at hlist
  exact ha (String.toList_injective (List.append_eq_nil_iff.mp hlist).1)

theorem newRoutingStrategy_eq_some_iff {x : String} {s : RoutingStrategy} :
    newRoutingStrategy x = some s ↔ x = s.text := by
  refine ⟨fun h => ?_, fun h => ?_⟩
  · have htext := List.find?_some h
    exact (of_decide_eq_true htext).symm
  · rw [h]
    cases s <;> decide

/-- The strategy that the metadata force, if they name one. -/
def forcedStrategy (m : TaskMetadata) : Option RoutingStrategy :=
  match m.lookup "force_strategy" with
  | some (.string s) => newRoutingStrategy s
  | _ => none

theorem forcedStrategy_eq_some_iff {m : TaskMetadata} {s : RoutingStrategy} :
    forcedStrategy m = some s ↔ m.lookup "force_strategy" = some (.string s.text) := by
  unfold forcedStrategy
  split
  · next x hx => rw [newRoutingStrategy_eq_some_iff, hx, Option.some_inj, MetaValue.string.injEq]
  · next hx => exact iff_of_false (fun h => by cases h) (hx _)

/-- The overrides come in the order of the source: risk, deployment, then the metadata. -/
theorem checkOverrides_eq (t : Task) : checkOverrides t =
    if t.riskLevel = .critical then
      some (overrideResult .escalate "[override] risk_level is critical")
    else if t.scope = .system ∧ t.taskType = .deployment then
      some (overrideResult .escalate "[override] system-scope deployment")
    else (forcedStrategy t.metadata).map fun strategy =>
      overrideResult strategy ("[override] force_strategy=" ++ strategy.text) := by
  unfold checkOverrides forcedStrategy
  refine if_congr Iff.rfl rfl (if_congr Iff.rfl rfl ?_)
  split <;> rfl

/-- An override names its strategy and its reason. -/
theorem checkOverrides_eq_some {t : Task} {result : Routing.EvaluatorResult}
    (h : checkOverrides t = some result) :
    ∃ strategy reason, result = overrideResult strategy reason ∧ reason ≠ "" := by
  rw [checkOverrides_eq] at h
  split at h
  · exact ⟨_, _, (Option.some.inj h).symm, by decide⟩
  split at h
  · exact ⟨_, _, (Option.some.inj h).symm, by decide⟩
  · obtain ⟨strategy, -, rfl⟩ := Option.map_eq_some_iff.mp h
    exact ⟨strategy, _, rfl, append_ne_empty (by decide) _⟩

theorem selectionReason_ne (e : StrategyEvaluation) : selectionReason e ≠ "" := by
  unfold selectionReason
  cases e.adaptiveAdjustment with
  | none =>
    simp only [String.append_assoc]
    exact append_ne_empty (by decide) _
  | some adj =>
    simp only [String.append_assoc]
    exact append_ne_empty (by decide) _

/-- A selection is explained and has been evaluated, whatever it is based on. -/
theorem evaluate_complete (t : Task) (memCtx : Option MemoryContext)
    (stats : Option FailureStats) :
    (Routing.evaluate t memCtx stats).reason ≠ "" ∧
      (Routing.evaluate t memCtx stats).evaluations.length ≠ 0 := by
  unfold Routing.evaluate
  cases h : checkOverrides t with
  | some result =>
    obtain ⟨strategy, reason, rfl, hreason⟩ := checkOverrides_eq_some h
    exact ⟨hreason, Nat.succ_ne_zero _⟩
  | none => exact ⟨selectionReason_ne _, Nat.succ_ne_zero _⟩

/-! ### Decisions -/

/-- `RoutingConstraint`. -/
structure RoutingConstraint where
  type : String
  value : String
  deriving DecidableEq, Repr

/-- The `RoutingDecision` aggregate. -/
structure RoutingDecision where
  id : RoutingDecisionID
  taskID : TaskID
  evaluatedStrategies : List StrategyEvaluation
  selectedStrategy : RoutingStrategy
  selectedAgentRole : AgentRole
  reason : String
  constraints : List RoutingConstraint
  createdAt : Timestamp
  deriving DecidableEq

def errMissingTaskID : Err := .new "routing decision must reference a task"
def errNoEvaluations : Err :=
  .new "routing decision must have at least one evaluated strategy"
def errEmptyRoutingReason : Err := .new "routing decision must have a reason"

/-- `NewRoutingDecision`. -/
def newRoutingDecision (id : RoutingDecisionID) (taskID : TaskID)
    (evaluatedStrategies : List StrategyEvaluation) (selectedStrategy : RoutingStrategy)
    (selectedAgentRole : AgentRole) (reason : String) (constraints : List RoutingConstraint)
    (createdAt : Timestamp) : Except Err RoutingDecision :=
  if taskID.text = "" then .error errMissingTaskID
  else if evaluatedStrategies.length = 0 then .error errNoEvaluations
  else if reason = "" then .error errEmptyRoutingReason
  else .ok
    { id, taskID, evaluatedStrategies, selectedStrategy, selectedAgentRole, reason, constraints,
      createdAt }

theorem taskID_ne_of_newRoutingDecision {id : RoutingDecisionID} {taskID : TaskID}
    {evals : List StrategyEvaluation} {strategy : RoutingStrategy} {role : AgentRole}
    {reason : String} {constraints : List RoutingConstraint} {now : Timestamp}
    {rd : RoutingDecision}
    (h : newRoutingDecision id taskID evals strategy role reason constraints now = .ok rd) :
    taskID.text ≠ "" := by
  intro hempty
  rw [newRoutingDecision, if_pos hempty] at h
  cases h

/-- An accepted decision is the one asked for. -/
theorem newRoutingDecision_eq_ok {id : RoutingDecisionID} {taskID : TaskID}
    {evals : List StrategyEvaluation} {strategy : RoutingStrategy} {role : AgentRole}
    {reason : String} {constraints : List RoutingConstraint} {now : Timestamp}
    {rd : RoutingDecision}
    (h : newRoutingDecision id taskID evals strategy role reason constraints now = .ok rd) :
    rd = ⟨id, taskID, evals, strategy, role, reason, constraints, now⟩ := by
  unfold newRoutingDecision at h
  split at h
  · cases h
  split at h
  · cases h
  split at h
  · cases h
  · exact (Except.ok.inj h).symm

end Governance

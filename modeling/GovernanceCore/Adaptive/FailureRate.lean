import GovernanceCore.Adaptive.Counts
import GovernanceCore.Services.Footprint
import GovernanceCore.Store.Effects

/-!
# Is the failure rate of a strategy its failure rate?

`computeAdjustment` takes the finest granularity that has enough samples. The two finer ones are
kept by failure category, and a category comes from a failure code, which `Validate` forbids on a
success: so they contain failures only, and their rate is one whenever they are asked
(`rateOf_eq_iff`). Successes are counted in the coarsest map alone, and five failures are enough to
hide one (`success_left_out`).

`adaptive_rate_iff` says for every recorded history when the rate that is used is the true one: when
the granularity that is chosen has no success to leave out.
-/

namespace Governance

open Framework

/-! ### What is recorded for an attempt -/

/-- The entry is one that `RegisterAttempt` records for a valid result. -/
def AttemptEntry (e : AuditEntry) : Prop :=
  ∃ result lease span, AttemptResult.validate result = .ok () ∧ e.outcome = result.status.text ∧
    e.context = (attemptContext lease result).withTraceInfo span

theorem exec_auditRecord {ch : Choice} {s s' : Store} {actor : ActorID} {action outcome : String}
    {ctx : AuditContext} {taskID : Option TaskID} {wfID : Option WorkflowRunID}
    {r : Except RepoError Unit}
    (h : exec ch s (.auditRecord actor action outcome ctx taskID wfID) = (r, s')) :
    s'.auditEntries = s.auditEntries ∨ ∃ e : AuditEntry,
      s'.auditEntries.rows = s.auditEntries.rows ++ [e] ∧ e.action = action ∧
        e.outcome = outcome ∧ e.context = ctx.withTraceInfo ch.span := by
  rcases write_eq h with hrecord | ⟨rfl, -⟩
  · right
    unfold recordAudit at hrecord
    split at hrecord
    · cases hrecord
    · next entry hentry =>
      obtain ⟨T, hT, rfl⟩ := inserted_eq_ok_iff.mp hrecord
      obtain ⟨-, -, rfl⟩ := newAuditEntry_eq_ok_iff.mp hentry
      exact ⟨_, (Table.insert_eq_some_iff.mp hT).2, rfl, rfl, rfl⟩
  · exact Or.inl rfl

theorem auditEntries_eq {ch : Choice} {s s' : Store} {o : Op} {r : Res o}
    (ho : ∀ actor action outcome ctx taskID wfID,
      o ≠ .auditRecord actor action outcome ctx taskID wfID)
    (h : exec ch s o = (r, s')) : s'.auditEntries = s.auditEntries := by
  have heffect := exec_effect h
  cases heffect with
  | auditRecord hT _ _ _ => exact absurd rfl (ho _ _ _ _ _ _)
  | _ => rfl

/-- **Every recorded attempt has passed `Validate`**, under every interleaving and every failure. -/
theorem reachable_attemptEntry {metrics : Bool} {s : Store}
    (hs : governance.Reachable (Store.empty metrics) s) :
    ∀ e ∈ s.auditEntries, e.action = "attempt_registered" → AttemptEntry e := by
  have hbody : ∀ c, (governance.body c).Only fun o => ∃ c, Footprint c o := fun c =>
    Program.Only.mono (fun _ ho => ⟨c, ho⟩) c.body_footprint
  refine System.Reachable.of_only hbody (I := fun s => ∀ e ∈ s.auditEntries,
    e.action = "attempt_registered" → AttemptEntry e)
    (fun e he => absurd he (Table.notMem_empty e)) ?_ hs
  rintro s o ch r s' hI ⟨c, ho⟩ hex
  by_cases haudit : ∃ actor action outcome ctx taskID wfID,
      o = .auditRecord actor action outcome ctx taskID wfID
  · obtain ⟨actor, action, outcome, ctx, taskID, wfID, rfl⟩ := haudit
    rcases exec_auditRecord hex with hsame | ⟨e, hrows, haction, houtcome, hctx⟩
    · rw [hsame]
      exact hI
    · intro e' he' haction'
      rw [Table.mem_def, hrows] at he'
      rcases List.mem_append.mp he' with hold | hnew
      · exact hI e' hold haction'
      · -- the new entry is about an attempt only in a call that has validated it
        obtain rfl := List.mem_singleton.mp hnew
        obtain ⟨id, result, lease, -, hvalid, rfl, rfl⟩ := ho (haction.symm.trans haction')
        exact ⟨result, lease, ch.span, hvalid, houtcome, hctx⟩
  · have hsame : s'.auditEntries = s.auditEntries :=
      auditEntries_eq (fun a b c d e f h => haudit ⟨a, b, c, d, e, f, h⟩) hex
    rw [hsame]
    exact hI

/-! ### A category means a failure -/

theorem AuditContext.textAt_set (c : AuditContext) (j k : String) (v : AuditValue) :
    (c.set k v).textAt j
      = if j = k then (match v with | .text s => s | _ => "") else c.textAt j := by
  unfold textAt
  have hlookup : (c.set k v).lookup j = if j = k then some v else c.lookup j := lookup_put c j k v
  rw [hlookup]
  by_cases h : j = k
  · rw [if_pos h, if_pos h]
    cases v <;> rfl
  · rw [if_neg h, if_neg h]

/-- A success has no failure code. -/
theorem textAt_failureCode_of_success {result : AttemptResult} (hvalid : result.validate = .ok ())
    (hsuccess : result.status = .success) (lease : ExecutionLease)
    (span : Option (String × String)) :
    ((attemptContext lease result).withTraceInfo span).textAt "failure_code" = "" := by
  -- A success is refused when it names a stage, and the code is recorded along with a stage only.
  have hstage : result.failureStage = none := by
    unfold AttemptResult.validate at hvalid
    rw [hsuccess] at hvalid
    dsimp only at hvalid
    split at hvalid
    · cases hvalid
    · next h => exact not_not.mp fun hne => h (Or.inl hne)
  have hcontext : (attemptContext lease result).textAt "failure_code" = "" := by
    unfold attemptContext
    rw [hstage]
    cases result.strategyUsed <;> cases result.agentRole <;> cases result.toolName <;>
      simp [AuditContext.withLeaseState, AuditContext.withStrategy, AuditContext.withAgentRole,
        AuditContext.withToolName, AuditContext.textAt_set] <;> rfl
  cases span with
  | none => exact hcontext
  | some ids =>
    rw [AuditContext.withTraceInfo, AuditContext.textAt_set, AuditContext.textAt_set, hcontext]
    rfl

theorem AttemptEntry.isFailure_of_category {e : AuditEntry} (he : AttemptEntry e)
    (hcat : e.category ≠ "") : e.isFailure = true := by
  obtain ⟨result, lease, span, hvalid, houtcome, hctx⟩ := he
  rcases AttemptResult.status_of_validate hvalid with h | h | h
  · refine absurd ?_ hcat
    rw [AuditEntry.category, hctx, textAt_failureCode_of_success hvalid h]
    decide
  · rw [AuditEntry.isFailure, houtcome, h]
    decide
  · rw [AuditEntry.isFailure, houtcome, h]
    decide

/-! ### The three granularities -/

section Granularities

variable (strategy : RoutingStrategy) (entries : List AuditEntry)

/-- The entries that the finest granularity counts for a strategy and its default role. -/
def fineSamples : List AuditEntry :=
  entries.filter fun e => e.strategyUsed = strategy.text
    && e.agentRole = (defaultRoleMapping strategy).text && e.agentRole ≠ "" && e.category ≠ ""

/-- The entries that the middle granularity counts for a strategy. -/
def middleSamples : List AuditEntry :=
  entries.filter fun e => e.strategyUsed = strategy.text && e.category ≠ ""

/-- The entries of a strategy. -/
def strategySamples : List AuditEntry :=
  entries.filter fun e => e.strategyUsed = strategy.text

theorem strategy_text_ne : strategy.text ≠ "" := by
  cases strategy <;> decide

theorem counted_fineKey : counted AuditEntry.fineKey (fun k => k.strategy = strategy.text
    && k.role = (defaultRoleMapping strategy).text) entries = fineSamples strategy entries := by
  refine List.filter_congr fun e _ => ?_
  unfold AuditEntry.fineKey
  by_cases hs : e.strategyUsed = ""
  · simp [hs, Ne.symm (strategy_text_ne strategy)]
  · by_cases hr : e.agentRole ≠ "" ∧ e.category ≠ ""
    · simp [hs, hr]
    · rw [not_and_or, not_not, not_not] at hr
      rcases hr with hr | hr <;> simp [hs, hr]

theorem counted_middleKey : counted AuditEntry.middleKey (fun k => k.strategy = strategy.text)
    entries = middleSamples strategy entries := by
  refine List.filter_congr fun e _ => ?_
  unfold AuditEntry.middleKey
  by_cases hs : e.strategyUsed = ""
  · simp [hs, Ne.symm (strategy_text_ne strategy)]
  · by_cases hc : e.category = ""
    · simp [hs, hc]
    · simp [hs, hc]

end Granularities

theorem rateOf_eq_one_iff {entries : List AuditEntry} (hne : entries ≠ []) :
    rateOf entries = 1 ↔ ∀ e ∈ entries, e.isFailure = true := by
  have hlen : (entries.length : ℚ) ≠ 0 := by
    rw [Nat.cast_ne_zero]
    exact fun h => hne (List.length_eq_zero_iff.mp h)
  rw [rateOf, div_eq_one_iff_eq hlen, Nat.cast_inj, List.countP_eq_length]

theorem aggregate_total (key : AuditEntry → Option StatsKey) (sel : StatsKey → Bool)
    (entries : List AuditEntry) : (aggregate (computeRates (counts key entries)) sel).total
      = (counted key sel entries).length :=
  sum_total key sel entries

/-- The aggregate over the selected keys. -/
theorem aggregate_counts (key : AuditEntry → Option StatsKey)
    (sel : StatsKey → Bool) (entries : List AuditEntry)
    (h : 5 ≤ (counted key sel entries).length) :
    (aggregate (computeRates (counts key entries)) sel).rate
      = rateOf (counted key sel entries) := by
  have htotal := sum_total key sel entries
  have hfailures := sum_failures key sel entries
  change (if 0 < sumOver sel FailureRate.total (computeRates (counts key entries)) then
    (sumOver sel FailureRate.failures (computeRates (counts key entries)) : ℚ)
      / sumOver sel FailureRate.total (computeRates (counts key entries)) else 0) = _
  rw [htotal, hfailures, if_pos (by omega), rateOf, Int.cast_natCast, Int.cast_natCast]

/-- What stands under a strategy in the coarsest map. -/
theorem lookup_byStrategy (strategy : RoutingStrategy) (entries : List AuditEntry) :
    ((computeRates (counts AuditEntry.coarseKey entries)).lookup strategy.text).getD .zero
      = .ofSample (strategySamples strategy entries) := by
  have hsample : sampleOf AuditEntry.coarseKey strategy.text entries
      = strategySamples strategy entries := by
    refine List.filter_congr fun e _ => ?_
    unfold AuditEntry.coarseKey
    by_cases hs : e.strategyUsed = ""
    · simp [hs, Ne.symm (strategy_text_ne strategy)]
    · simp [hs]
  rw [getD_lookup_counts, hsample]

section Reports

variable (strategy : RoutingStrategy) (window : Duration) (entries : List AuditEntry)

/-- The finest granularity. -/
theorem aggregate_fine : (aggregateByStrategyAndRole (computeRates (counts AuditEntry.fineKey
      entries)) strategy (defaultRoleMapping strategy).text).total
        = (fineSamples strategy entries).length ∧
    (5 ≤ (fineSamples strategy entries).length → (aggregateByStrategyAndRole (computeRates (counts
      AuditEntry.fineKey entries)) strategy (defaultRoleMapping strategy).text).rate
        = rateOf (fineSamples strategy entries)) := by
  rw [← counted_fineKey]
  exact ⟨aggregate_total _ _ entries, aggregate_counts _ _ entries⟩

/-- The middle granularity. -/
theorem aggregate_middle : (aggregateByStrategyFromMap (computeRates (counts AuditEntry.middleKey
      entries)) strategy).total = (middleSamples strategy entries).length ∧
    (5 ≤ (middleSamples strategy entries).length → (aggregateByStrategyFromMap (computeRates (counts
      AuditEntry.middleKey entries)) strategy).rate = rateOf (middleSamples strategy entries)) := by
  rw [← counted_middleKey]
  exact ⟨aggregate_total _ _ entries, aggregate_counts _ _ entries⟩

theorem minSamples_le_iff (n : Nat) : minSamples ≤ (n : Int) ↔ 5 ≤ n := by
  unfold minSamples
  omega

/-- **What `computeAdjustment` reports**, for any entries: the rate of the finest granularity with
enough samples. -/
theorem computeAdjustment_snapshot :
    (computeAdjustment strategy (snapshot window entries)).map
        (fun adj => (adj.granularity, adj.failureRate)) =
      if 5 ≤ (fineSamples strategy entries).length then
        some ("strategy_role_category", rateOf (fineSamples strategy entries))
      else if 5 ≤ (middleSamples strategy entries).length then
        some ("strategy_category", rateOf (middleSamples strategy entries))
      else if 5 ≤ (strategySamples strategy entries).length then
        some ("strategy", rateOf (strategySamples strategy entries))
      else none := by
  obtain ⟨hfine, hfineRate⟩ := aggregate_fine strategy entries
  obtain ⟨hmiddle, hmiddleRate⟩ := aggregate_middle strategy entries
  rw [snapshot_eq, computeAdjustment]
  dsimp only
  rw [hfine, hmiddle]
  by_cases h₁ : 5 ≤ (fineSamples strategy entries).length
  · rw [if_pos ((minSamples_le_iff _).mpr h₁), if_pos h₁, ← hfineRate h₁]
    rfl
  rw [if_neg fun h => h₁ ((minSamples_le_iff _).mp h), if_neg h₁]
  by_cases h₂ : 5 ≤ (middleSamples strategy entries).length
  · rw [if_pos ((minSamples_le_iff _).mpr h₂), if_pos h₂, ← hmiddleRate h₂]
    rfl
  rw [if_neg fun h => h₂ ((minSamples_le_iff _).mp h), if_neg h₂]
  -- a missing key and a key without samples are the same
  have hcoarse := lookup_byStrategy strategy entries
  have htotal : (FailureRate.ofSample (strategySamples strategy entries)).total
      = (strategySamples strategy entries).length := rfl
  cases hlookup : (computeRates (counts AuditEntry.coarseKey entries)).lookup strategy.text with
  | none =>
    rw [hlookup, Option.getD_none] at hcoarse
    rw [← hcoarse] at htotal
    have hzero : (0 : Int) = (strategySamples strategy entries).length := htotal
    rw [if_neg (by omega)]
    rfl
  | some fr =>
    rw [hlookup, Option.getD_some] at hcoarse
    rw [← hcoarse] at htotal
    dsimp only
    rw [htotal]
    by_cases h₃ : 5 ≤ (strategySamples strategy entries).length
    · rw [if_pos ((minSamples_le_iff _).mpr h₃), if_pos h₃, hcoarse]
      rfl
    · rw [if_neg fun h => h₃ ((minSamples_le_iff _).mp h), if_neg h₃]
      rfl

end Reports

/-! ### The true rate -/

/-- The true rate of a strategy at a granularity: over all its entries, at the finest granularity
over those of its default role. -/
def trueRate (strategy : RoutingStrategy) (granularity : String) (entries : List AuditEntry) : ℚ :=
  if granularity = "strategy_role_category" then
    rateOf ((strategySamples strategy entries).filter fun e =>
      e.agentRole = (defaultRoleMapping strategy).text)
  else rateOf (strategySamples strategy entries)

/-- The chosen granularity leaves no success out. -/
structure NoSuccessLeftOut (strategy : RoutingStrategy) (entries : List AuditEntry) : Prop where
  fine : 5 ≤ (fineSamples strategy entries).length →
    ∀ e ∈ entries, e.strategyUsed = strategy.text →
      e.agentRole = (defaultRoleMapping strategy).text → e.isFailure = true
  middle : (fineSamples strategy entries).length < 5 → 5 ≤ (middleSamples strategy entries).length →
    ∀ e ∈ entries, e.strategyUsed = strategy.text → e.isFailure = true

/-- Samples that are all failures have the rate one, so the true rate is theirs when the larger list
has no success either. -/
theorem rateOf_eq_iff {samples larger : List AuditEntry} (hne : samples ≠ [])
    (hsub : ∀ e ∈ samples, e ∈ larger) (hfail : ∀ e ∈ samples, e.isFailure = true) :
    rateOf samples = rateOf larger ↔ ∀ e ∈ larger, e.isFailure = true := by
  have hlarger : larger ≠ [] := by
    obtain ⟨e, he⟩ := List.exists_mem_of_ne_nil samples hne
    exact List.ne_nil_of_mem (hsub e he)
  rw [(rateOf_eq_one_iff hne).mpr hfail, eq_comm]
  exact rateOf_eq_one_iff hlarger

theorem adjustment_iff {R : String → ℚ → Prop} (adjustment : Option AdaptiveAdjustment) :
    (∀ adj, adjustment = some adj → R adj.granularity adj.failureRate) ↔
      ∀ p, adjustment.map (fun adj => (adj.granularity, adj.failureRate)) = some p →
        R p.1 p.2 := by
  cases adjustment with
  | none => simp
  | some adj => simp

section CategoryMeansFailure

variable {strategy : RoutingStrategy} {entries : List AuditEntry}

theorem fine_rate_iff (hfailure : ∀ e ∈ entries, e.category ≠ "" → e.isFailure = true)
    (h : 5 ≤ (fineSamples strategy entries).length) :
    rateOf (fineSamples strategy entries)
        = rateOf ((strategySamples strategy entries).filter fun e =>
            e.agentRole = (defaultRoleMapping strategy).text) ↔
      ∀ e ∈ entries, e.strategyUsed = strategy.text →
        e.agentRole = (defaultRoleMapping strategy).text → e.isFailure = true := by
  have hmem : ∀ e ∈ fineSamples strategy entries, e ∈ entries ∧ e.strategyUsed = strategy.text ∧
      e.agentRole = (defaultRoleMapping strategy).text ∧ e.category ≠ "" := by
    intro e he
    simp only [fineSamples, List.mem_filter, Bool.and_eq_true, decide_eq_true_eq] at he
    exact ⟨he.1, he.2.1.1.1, he.2.1.1.2, he.2.2⟩
  rw [rateOf_eq_iff (List.ne_nil_of_length_pos (by omega)) ?_ ?_]
  · simp only [strategySamples, List.mem_filter, decide_eq_true_eq, and_imp]
  · intro e he
    obtain ⟨hin, hstrategy, hrole, -⟩ := hmem e he
    simp only [strategySamples, List.mem_filter, decide_eq_true_eq]
    exact ⟨⟨hin, hstrategy⟩, hrole⟩
  · exact fun e he => hfailure e (hmem e he).1 (hmem e he).2.2.2

theorem middle_rate_iff (hfailure : ∀ e ∈ entries, e.category ≠ "" → e.isFailure = true)
    (h : 5 ≤ (middleSamples strategy entries).length) :
    rateOf (middleSamples strategy entries) = rateOf (strategySamples strategy entries) ↔
      ∀ e ∈ entries, e.strategyUsed = strategy.text → e.isFailure = true := by
  have hmem : ∀ e ∈ middleSamples strategy entries, e ∈ entries ∧
      e.strategyUsed = strategy.text ∧ e.category ≠ "" := by
    intro e he
    simpa only [middleSamples, List.mem_filter, Bool.and_eq_true, decide_eq_true_eq] using he
  rw [rateOf_eq_iff (List.ne_nil_of_length_pos (by omega)) ?_ ?_]
  · simp only [strategySamples, List.mem_filter, decide_eq_true_eq, and_imp]
  · intro e he
    obtain ⟨hin, hstrategy, -⟩ := hmem e he
    simp only [strategySamples, List.mem_filter, decide_eq_true_eq]
    exact ⟨hin, hstrategy⟩
  · exact fun e he => hfailure e (hmem e he).1 (hmem e he).2.2

theorem snapshot_rate_iff (hfailure : ∀ e ∈ entries, e.category ≠ "" → e.isFailure = true)
    (window : Duration) :
    (∀ adj, computeAdjustment strategy (snapshot window entries) = some adj →
        adj.failureRate = trueRate strategy adj.granularity entries) ↔
      NoSuccessLeftOut strategy entries := by
  rw [adjustment_iff (R := fun granularity rate => rate = trueRate strategy granularity entries),
    computeAdjustment_snapshot]
  by_cases h₁ : 5 ≤ (fineSamples strategy entries).length
  · rw [if_pos h₁]
    refine ⟨fun hall => ⟨fun _ => ?_, fun hlt => absurd h₁ (by omega)⟩, fun hno p hp => ?_⟩
    · exact (fine_rate_iff hfailure h₁).mp (hall _ rfl)
    · obtain rfl := Option.some.inj hp
      exact (fine_rate_iff hfailure h₁).mpr (hno.fine h₁)
  rw [if_neg h₁]
  by_cases h₂ : 5 ≤ (middleSamples strategy entries).length
  · rw [if_pos h₂]
    refine ⟨fun hall => ⟨fun h => absurd h h₁, fun _ _ => ?_⟩, fun hno p hp => ?_⟩
    · exact (middle_rate_iff hfailure h₂).mp (hall _ rfl)
    · obtain rfl := Option.some.inj hp
      exact (middle_rate_iff hfailure h₂).mpr (hno.middle (by omega) h₂)
  -- the coarsest map counts every entry
  rw [if_neg h₂]
  refine ⟨fun _ => ⟨fun h => absurd h h₁, fun _ h => absurd h h₂⟩, fun _ p hp => ?_⟩
  split at hp
  · obtain rfl := Option.some.inj hp
    rfl
  · cases hp

end CategoryMeansFailure

/-- In the entries that `refresh` reads back, a category means a failure. -/
theorem isFailure_of_mem_query {metrics : Bool} {s : Store}
    (hs : governance.Reachable (Store.empty metrics) s) (cutoff : Timestamp) :
    ∀ e ∈ queryAttempts cutoff s, e.category ≠ "" → e.isFailure = true := by
  intro e he
  rw [queryAttempts, List.mem_mergeSort, List.mem_filter] at he
  have haction : e.action = "attempt_registered" :=
    of_decide_eq_true (Bool.and_eq_true_iff.mp he.2).1
  exact (reachable_attemptEntry hs e he.1 haction).isFailure_of_category

/-- **The failure rate that adaptive routing uses is the true one** exactly when the granularity it
is taken from leaves no success out. The entries are those that `refresh` reads back from any
reachable store; a success is left out because it has no failure category. -/
theorem adaptive_rate_iff {metrics : Bool} {s : Store}
    (hs : governance.Reachable (Store.empty metrics) s) (now : Timestamp) (window : Duration)
    (strategy : RoutingStrategy) :
    (∀ adj, computeAdjustment strategy (refresh now window s) = some adj →
      adj.failureRate = trueRate strategy adj.granularity (queryAttempts (now - window) s)) ↔
      NoSuccessLeftOut strategy (queryAttempts (now - window) s) :=
  snapshot_rate_iff (isFailure_of_mem_query hs _) window

/-! ### Five failures and a success -/

/-- An attempt of the direct strategy by the implementer that has failed. -/
def directFailure : AttemptResult :=
  { toolFailure with strategyUsed := some "direct", agentRole := some "implementer" }

/-- The same, to be retried. -/
def directRetry : AttemptResult := { directFailure with status := .retry }

/-- One that has succeeded. -/
def directSuccess : AttemptResult :=
  { status := .success, strategyUsed := some "direct", agentRole := some "implementer" }

/-- The task and the run of a second submission. -/
def secondTask : TaskID := ⟨scheduleID 'm' 0⟩

def secondRun : WorkflowRunID := ⟨scheduleID 'n' 7⟩

/-- Two runs are started. On the first, two failures; on the second, three that do not end it. -/
def fiveFailures : List (System.Action Call Choice) :=
  runningSchedule ++ whole 'm' 4 (.submitTask bugfixInput) 5 ++
    whole 'n' 5 (.routeTask secondTask) 11 ++ whole 'o' 6 (.evaluatePolicy secondTask "edit") 8 ++
    whole 'p' 7 (.startWorkflow secondTask) 10 ++
    whole 'e' 8 (.registerAttempt firstRun directFailure) 7 ++
    whole 'f' 9 (.registerAttempt firstRun directFailure) 7 ++
    whole 'g' 10 (.registerAttempt secondRun directFailure) 7 ++
    whole 'h' 11 (.registerAttempt secondRun directFailure) 7 ++
    whole 'i' 12 (.registerAttempt secondRun directRetry) 7

/-- The attempts that `refresh` selects, in the order in which they were recorded. -/
def attemptsSince (cutoff : Timestamp) (s : Store) : List AuditEntry :=
  s.auditEntries.rows.filter fun e => e.action = "attempt_registered" && cutoff < e.createdAt

theorem queryAttempts_perm (cutoff : Timestamp) (s : Store) :
    (queryAttempts cutoff s).Perm (attemptsSince cutoff s) :=
  List.mergeSort_perm _ _

theorem length_fineSamples_query (strategy : RoutingStrategy) (cutoff : Timestamp) (s : Store) :
    (fineSamples strategy (queryAttempts cutoff s)).length
      = (fineSamples strategy (attemptsSince cutoff s)).length :=
  ((queryAttempts_perm cutoff s).filter _).length_eq

/-- Five failures are reported as they are. -/
theorem adaptive_rate_fiveFailures : ∃ s : Store, governance.Reachable (Store.empty true) s ∧
    (fineSamples .direct (queryAttempts (1 - 1) s)).length = 5 ∧
    ∀ adj, computeAdjustment .direct (refresh 1 1 s) = some adj →
      adj.failureRate = trueRate .direct adj.granularity (queryAttempts (1 - 1) s) := by
  have hrun : (carryOut fiveFailures).map (fun p =>
      ((fineSamples .direct (attemptsSince (1 - 1) p.store)).length,
        (attemptsSince (1 - 1) p.store).all AuditEntry.isFailure)) = some (5, true) := by
    decide +kernel
  obtain ⟨p, hplay, hp⟩ := Option.map_eq_some_iff.mp hrun
  obtain ⟨hfine, hall⟩ := Prod.mk.inj hp
  have hs : governance.Reachable (Store.empty true) p.store := ⟨p, carryOut_reach hplay, rfl⟩
  have hfailure : ∀ e ∈ queryAttempts (1 - 1) p.store, e.isFailure = true := fun e he =>
    List.all_eq_true.mp hall e ((queryAttempts_perm _ _).mem_iff.mp he)
  refine ⟨p.store, hs, by rw [length_fineSamples_query, hfine], ?_⟩
  rw [adaptive_rate_iff hs 1 1 .direct]
  exact ⟨fun _ e he _ _ => hfailure e he, fun _ _ e he _ => hfailure e he⟩

/-- **A success is left out**: after five failures and a success of the direct strategy by its
default role the reported rate is one. -/
theorem success_left_out : ¬ ∀ s : Store, governance.Reachable (Store.empty true) s →
    ∀ (now : Timestamp) (window : Duration) (strategy : RoutingStrategy) (adj : AdaptiveAdjustment),
      computeAdjustment strategy (refresh now window s) = some adj →
      adj.failureRate = trueRate strategy adj.granularity (queryAttempts (now - window) s) := by
  have hrun : (carryOut (fiveFailures ++
      whole 'j' 13 (.registerAttempt firstRun directSuccess) 8)).map (fun p =>
        ((fineSamples .direct (attemptsSince (1 - 1) p.store)).length,
          (attemptsSince (1 - 1) p.store).any fun e => e.strategyUsed = "direct" &&
            e.agentRole = "implementer" && !e.isFailure)) = some (5, true) := by
    decide +kernel
  obtain ⟨p, hplay, hp⟩ := Option.map_eq_some_iff.mp hrun
  obtain ⟨hfine, hany⟩ := Prod.mk.inj hp
  intro hrate
  have hs : governance.Reachable (Store.empty true) p.store := ⟨p, carryOut_reach hplay, rfl⟩
  have hnone : NoSuccessLeftOut .direct (queryAttempts (1 - 1) p.store) :=
    (snapshot_rate_iff (isFailure_of_mem_query hs _) 1).mp (hrate p.store hs 1 1 .direct)
  obtain ⟨e, he, hsuccess⟩ := List.any_eq_true.mp hany
  simp only [Bool.and_eq_true, decide_eq_true_eq, Bool.not_eq_true'] at hsuccess
  have hfailure : e.isFailure = true := by
    refine hnone.fine ?_ e ((queryAttempts_perm _ _).mem_iff.mpr he) hsuccess.1.1 hsuccess.1.2
    rw [length_fineSamples_query, hfine]
  rw [hsuccess.2] at hfailure
  cases hfailure

end Governance

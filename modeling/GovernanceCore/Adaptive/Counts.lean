import GovernanceCore.Adaptive.Collector
import Mathlib.Data.List.TakeWhile

/-!
# What the failure statistics count

The maps of a snapshot are tallies with a rate computed for each entry. Under a key stands therefore
a function of the **sample** of that key, the audit entries that belong to it
(`getD_lookup_counts`), and the sum over several keys is a function of the sample of all of them
(`sum_total`, `sum_failures`).

The samples are then said in terms of the context maps alone (`UnderStrategy`, `ByRole`,
`InCategory`), without the type assertions and the text functions of the collector.
`FailureStats.Counts` is the whole report, and `snapshot_counts` says that every snapshot is one,
whatever the entries and whatever their order.
-/

namespace Governance

open Framework

/-! ### Buckets and samples -/

/-- The share of failures and retries. -/
def rateOf (entries : List AuditEntry) : ℚ :=
  (entries.countP AuditEntry.isFailure : ℚ) / entries.length

/-- The value of an entry after the loop over the rates. -/
def FailureRate.withRate (fr : FailureRate) : FailureRate :=
  if 0 < fr.total then { fr with rate := (fr.failures : ℚ) / fr.total } else fr

/-- The bucket that a sample fills. -/
def FailureRate.ofSample (sample : List AuditEntry) : FailureRate :=
  ⟨sample.length, sample.countP AuditEntry.isFailure, rateOf sample⟩

theorem foldl_note (sample : List AuditEntry) (fr : FailureRate) :
    sample.foldl FailureRate.note fr = ⟨fr.total + sample.length,
      fr.failures + sample.countP AuditEntry.isFailure, fr.rate⟩ := by
  induction sample generalizing fr with
  | nil => simp
  | cons e rest ih =>
    rw [List.foldl_cons, ih, List.length_cons, List.countP_cons, FailureRate.note]
    by_cases h : e.isFailure = true
    · rw [if_pos h, if_pos h]
      simp only [FailureRate.mk.injEq, Nat.cast_add, Nat.cast_one, and_true]
      omega
    · rw [if_neg h, if_neg h]
      simp only [FailureRate.mk.injEq, Nat.cast_add, Nat.cast_one, and_true]
      omega

/-- An empty sample leaves the zero bucket, whose rate is not computed. -/
theorem withRate_foldl_note (sample : List AuditEntry) :
    (sample.foldl FailureRate.note .zero).withRate = .ofSample sample := by
  rw [foldl_note, FailureRate.withRate]
  cases sample with
  | nil => simp [FailureRate.zero, FailureRate.ofSample, rateOf]
  | cons e rest =>
    have hpos : (0 : Int) < FailureRate.zero.total + (e :: rest).length := by
      change (0 : Int) < 0 + (rest.length + 1 : Nat)
      omega
    rw [if_pos hpos]
    simp [FailureRate.zero, FailureRate.ofSample, rateOf]

theorem lookup_computeRates {K : Type} [DecidableEq K] (m : List (K × FailureRate)) (k : K) :
    (computeRates m).lookup k = (m.lookup k).map FailureRate.withRate := by
  induction m with
  | nil => rfl
  | cons kv m ih =>
    obtain ⟨k', fr⟩ := kv
    have hcons : computeRates ((k', fr) :: m) = (k', fr.withRate) :: computeRates m := rfl
    by_cases h : k = k'
    · subst h
      rw [hcons, lookup_cons_self, lookup_cons_self, Option.map_some]
    · rw [hcons, lookup_cons_ne _ _ h, lookup_cons_ne _ _ h, ih]

section Sample

variable {K : Type} [DecidableEq K] (key : AuditEntry → Option K)

/-- The entries of a key. -/
def sampleOf (k : K) (entries : List AuditEntry) : List AuditEntry :=
  entries.filter fun e => key e = some k

/-- **What a map of the snapshot holds**: the buckets of the samples that are not empty. -/
theorem lookup_counts (k : K) (entries : List AuditEntry) :
    (computeRates (counts key entries)).lookup k
      = if sampleOf key k entries = [] then none
        else some (.ofSample (sampleOf key k entries)) := by
  rw [lookup_computeRates, lookup_tally]
  by_cases hnil : sampleOf key k entries = []
  · rw [if_pos hnil]
    exact congrArg _ (if_pos hnil)
  · rw [if_neg hnil, ← withRate_foldl_note]
    exact congrArg _ (if_neg hnil)

/-- A missing key reads as the bucket of the empty sample. -/
theorem getD_lookup_counts (k : K) (entries : List AuditEntry) :
    ((computeRates (counts key entries)).lookup k).getD .zero
      = .ofSample (sampleOf key k entries) := by
  rw [lookup_counts]
  by_cases hnil : sampleOf key k entries = []
  · rw [if_pos hnil, hnil, Option.getD_none, ← withRate_foldl_note]
    rfl
  · rw [if_neg hnil, Option.getD_some]

/-- The order of the entries is not seen. -/
theorem lookup_counts_perm {entries entries' : List AuditEntry} (h : entries.Perm entries')
    (k : K) : (computeRates (counts key entries)).lookup k
      = (computeRates (counts key entries')).lookup k := by
  have hsample : (sampleOf key k entries).Perm (sampleOf key k entries') := h.filter _
  have hnil : sampleOf key k entries = [] ↔ sampleOf key k entries' = [] :=
    ⟨fun he => (he ▸ hsample).nil_eq.symm, fun he => (he ▸ hsample).eq_nil⟩
  have hbucket : FailureRate.ofSample (sampleOf key k entries)
      = .ofSample (sampleOf key k entries') := by
    rw [FailureRate.ofSample, FailureRate.ofSample, rateOf, rateOf, hsample.length_eq,
      hsample.countP_eq]
  rw [lookup_counts, lookup_counts, hbucket, if_congr hnil rfl rfl]

end Sample

/-! ### Sums over several keys -/

theorem sumOver_computeRates {K : Type} (sel : K → Bool) {g : FailureRate → Int}
    (hg : ∀ fr q, g { fr with rate := q } = g fr) (m : List (K × FailureRate)) :
    sumOver sel g (computeRates m) = sumOver sel g m := by
  unfold sumOver computeRates
  rw [List.filter_map, List.map_map]
  congr 1
  refine List.map_congr_left fun kv _ => ?_
  by_cases h : 0 < kv.2.total
  · simp only [Function.comp, if_pos h, hg]
  · simp only [Function.comp, if_neg h]

theorem sum_map_indicator {α : Type} (p : α → Bool) (l : List α) :
    (l.map fun a => if p a then (1 : Int) else 0).sum = l.countP p := by
  induction l with
  | nil => rfl
  | cons a l ih =>
    rw [List.map_cons, List.sum_cons, ih, List.countP_cons]
    by_cases h : p a = true
    · simp [h, add_comm]
    · simp [h]

section Aggregate

variable {K : Type} [DecidableEq K] (key : AuditEntry → Option K) (sel : K → Bool)
  (entries : List AuditEntry)

/-- The entries that a granularity counts for the selected keys. -/
def counted : List AuditEntry := entries.filter fun e => (key e).any sel

theorem sum_total : sumOver sel FailureRate.total (computeRates (counts key entries))
    = (counted key sel entries).length := by
  rw [sumOver_computeRates sel fun _ _ => rfl]
  have hzero : FailureRate.zero.total = 0 := rfl
  have hsum : sumOver sel FailureRate.total (counts key entries)
      = ((counted key sel entries).map fun _ => (1 : Int)).sum :=
    sum_tally FailureRate.zero FailureRate.note key hzero (fun _ _ => rfl) entries
  rw [hsum, List.map_const', List.sum_replicate, nsmul_one]

theorem sum_failures : sumOver sel FailureRate.failures (computeRates (counts key entries))
    = (counted key sel entries).countP AuditEntry.isFailure := by
  rw [sumOver_computeRates sel fun _ _ => rfl]
  have hnote : ∀ (fr : FailureRate) (e : AuditEntry),
      (fr.note e).failures = fr.failures + if e.isFailure then 1 else 0 := by
    intro fr e
    unfold FailureRate.note
    by_cases h : e.isFailure = true
    · simp [h]
    · simp [h]
  have hzero : FailureRate.zero.failures = 0 := rfl
  have hsum : sumOver sel FailureRate.failures (counts key entries)
      = ((counted key sel entries).map fun e => if e.isFailure then (1 : Int) else 0).sum :=
    sum_tally FailureRate.zero FailureRate.note key hzero hnote entries
  rw [hsum, sum_map_indicator]

end Aggregate

theorem snapshot_eq (window : Duration) (entries : List AuditEntry) :
    snapshot window entries = ⟨computeRates (counts AuditEntry.fineKey entries),
      computeRates (counts AuditEntry.middleKey entries),
      computeRates (counts AuditEntry.coarseKey entries), window⟩ := by
  rw [← foldl_note_byStrat, ← foldl_note_byStratCat, ← foldl_note_byStratRoleCat]
  rfl

/-! ### What the entries say -/

/-- The category of a failure code: what stands before its first slash, the whole code if it has
none. -/
def CategoryOf (code category : String) : Prop :=
  ('/' ∉ code.toList ∧ category = code) ∨
    ('/' ∉ category.toList ∧ ∃ rest, code = category ++ "/" ++ rest)

theorem extractCategory_eq_iff {code category : String} :
    extractCategory code = category ↔ CategoryOf code category := by
  have htake : extractCategory code = category ↔
      code.toList.takeWhile (· ≠ '/') = category.toList := by
    rw [extractCategory, ← String.toList_inj, String.toList_ofList]
  rw [htake]
  refine ⟨fun h => ?_, ?_⟩
  · have hslash : '/' ∉ category.toList := by
      intro hmem
      rw [← h] at hmem
      exact absurd (List.mem_takeWhile_imp hmem) (by decide)
    have hsplit := List.takeWhile_append_dropWhile (p := (· ≠ '/')) (l := code.toList)
    rw [h] at hsplit
    cases hdrop : code.toList.dropWhile (· ≠ '/') with
    | nil =>
      -- nothing is dropped: no slash
      rw [hdrop, List.append_nil] at hsplit
      exact Or.inl ⟨hsplit ▸ hslash, String.toList_inj.mp hsplit⟩
    | cons c rest =>
      have hc : c = '/' := by
        have hhead := List.head?_dropWhile_not (p := (· ≠ '/')) (l := code.toList)
        rw [hdrop] at hhead
        simpa using hhead
      refine Or.inr ⟨hslash, String.ofList rest, ?_⟩
      have hrest : (String.ofList rest).toList = rest := String.toList_ofList
      rw [← String.toList_inj, String.toList_append, String.toList_append, hrest, ← hsplit, hdrop,
        hc, List.append_assoc]
      rfl
  · rintro (⟨hslash, rfl⟩ | ⟨hslash, rest, rfl⟩)
    · exact List.takeWhile_eq_self_iff.mpr fun c hc => decide_eq_true fun h => hslash (h ▸ hc)
    · have hall : ∀ c ∈ category.toList, decide (c ≠ '/') = true :=
        fun c hc => decide_eq_true fun h => hslash (h ▸ hc)
      rw [String.toList_append, String.toList_append, List.append_assoc,
        List.takeWhile_append_of_pos hall]
      exact List.append_nil _

instance (code category : String) : Decidable (CategoryOf code category) :=
  decidable_of_iff (extractCategory code = category) extractCategory_eq_iff

namespace AuditEntry

/-- The context has this text, which is not empty, under the key. -/
def HasText (e : AuditEntry) (key text : String) : Prop :=
  text ≠ "" ∧ e.context.lookup key = some (.text text)

/-- The entry was recorded under the strategy. -/
def UnderStrategy (e : AuditEntry) (strategy : String) : Prop := e.HasText "strategy_used" strategy

def ByRole (e : AuditEntry) (role : String) : Prop := e.HasText "agent_role" role

/-- The entry has a failure code of the category. -/
def InCategory (e : AuditEntry) (category : String) : Prop :=
  category ≠ "" ∧ ∃ code, e.context.lookup "failure_code" = some (.text code) ∧
    CategoryOf code category

theorem hasText_iff {e : AuditEntry} {key text : String} :
    e.HasText key text ↔ text ≠ "" ∧ e.context.textAt key = text := by
  refine and_congr_right fun hne => ?_
  unfold AuditContext.textAt
  split
  · next s hs => rw [hs, Option.some.injEq, AuditValue.text.injEq]
  · next hnone => exact iff_of_false (fun h => hnone text h) fun h => hne h.symm

theorem inCategory_iff {e : AuditEntry} {category : String} :
    e.InCategory category ↔ category ≠ "" ∧ e.category = category := by
  refine and_congr_right fun hne => ?_
  unfold AuditEntry.category AuditContext.textAt
  split
  · next s hs =>
    rw [extractCategory_eq_iff]
    refine ⟨fun ⟨code, hcode, hcat⟩ => ?_, fun h => ⟨s, hs, h⟩⟩
    obtain rfl := AuditValue.text.inj (Option.some.inj (hs.symm.trans hcode))
    exact hcat
  · next hnone =>
    refine iff_of_false (fun ⟨code, hcode, _⟩ => hnone code hcode) fun h => hne ?_
    rw [← h]
    decide

instance (e : AuditEntry) (key text : String) : Decidable (e.HasText key text) :=
  inferInstanceAs (Decidable (_ ∧ _))

instance (e : AuditEntry) (strategy : String) : Decidable (e.UnderStrategy strategy) :=
  inferInstanceAs (Decidable (e.HasText _ _))

instance (e : AuditEntry) (role : String) : Decidable (e.ByRole role) :=
  inferInstanceAs (Decidable (e.HasText _ _))

instance (e : AuditEntry) (category : String) : Decidable (e.InCategory category) :=
  decidable_of_iff _ inCategory_iff.symm

/-- The keys of the three granularities in these terms. -/
theorem coarseKey_eq_iff {e : AuditEntry} {strategy : String} :
    e.coarseKey = some strategy ↔ e.UnderStrategy strategy := by
  rw [UnderStrategy, hasText_iff]
  change _ ↔ _ ∧ e.strategyUsed = strategy
  unfold coarseKey
  by_cases h : e.strategyUsed = ""
  · rw [if_pos h]
    exact iff_of_false nofun fun ⟨hne, heq⟩ => hne (heq ▸ h)
  · rw [if_neg h, Option.some.injEq]
    exact ⟨fun heq => ⟨heq ▸ h, heq⟩, And.right⟩

theorem middleKey_eq_iff {e : AuditEntry} {k : StatsKey} :
    e.middleKey = some k ↔ k.role = "" ∧ e.UnderStrategy k.strategy ∧ e.InCategory k.category := by
  rw [UnderStrategy, hasText_iff, inCategory_iff]
  change _ ↔ _ ∧ (_ ∧ e.strategyUsed = k.strategy) ∧ _
  unfold middleKey
  obtain ⟨strategy, role, category⟩ := k
  by_cases h : e.strategyUsed = ""
  · rw [if_pos h]
    exact iff_of_false nofun fun ⟨_, ⟨hne, heq⟩, _⟩ => hne (heq ▸ h)
  rw [if_neg h]
  by_cases hc : e.category ≠ ""
  · rw [if_pos hc, Option.some.injEq, StatsKey.mk.injEq]
    refine ⟨?_, fun ⟨hrole, ⟨_, hs⟩, _, hcat⟩ => ⟨hs, hrole.symm, hcat⟩⟩
    rintro ⟨rfl, rfl, rfl⟩
    exact ⟨rfl, ⟨h, rfl⟩, hc, rfl⟩
  · rw [if_neg hc]
    exact iff_of_false nofun fun ⟨_, _, hne, heq⟩ => hc (heq ▸ hne)

theorem fineKey_eq_iff {e : AuditEntry} {k : StatsKey} : e.fineKey = some k ↔
    e.UnderStrategy k.strategy ∧ e.ByRole k.role ∧ e.InCategory k.category := by
  rw [UnderStrategy, ByRole, hasText_iff, hasText_iff, inCategory_iff]
  change _ ↔ (_ ∧ e.strategyUsed = k.strategy) ∧ (_ ∧ e.agentRole = k.role) ∧ _
  unfold fineKey
  obtain ⟨strategy, role, category⟩ := k
  by_cases h : e.strategyUsed = ""
  · rw [if_pos h]
    exact iff_of_false nofun fun ⟨⟨hne, heq⟩, _⟩ => hne (heq ▸ h)
  rw [if_neg h]
  by_cases hrc : e.agentRole ≠ "" ∧ e.category ≠ ""
  · rw [if_pos hrc, Option.some.injEq, StatsKey.mk.injEq]
    refine ⟨?_, fun ⟨⟨_, hs⟩, ⟨_, hr⟩, _, hcat⟩ => ⟨hs, hr, hcat⟩⟩
    rintro ⟨rfl, rfl, rfl⟩
    exact ⟨⟨h, rfl⟩, ⟨hrc.1, rfl⟩, hrc.2, rfl⟩
  · rw [if_neg hrc]
    refine iff_of_false nofun fun ⟨_, ⟨hr, hreq⟩, hc, hceq⟩ => hrc ⟨?_, ?_⟩
    · exact hreq ▸ hr
    · exact hceq ▸ hc

end AuditEntry

/-! ### The report -/

/-- The bucket says how many entries the sample has, how many of them are failures or retries, and
the share of the latter. -/
structure FailureRate.Counts (fr : FailureRate) (sample : List AuditEntry) : Prop where
  total : fr.total = sample.length
  failures : fr.failures
    = (sample.filter fun e => e.outcome = "failure" ∨ e.outcome = "retry").length
  rate : fr.rate = (fr.failures : ℚ) / fr.total
  failures_nonneg : 0 ≤ fr.failures
  failures_le : fr.failures ≤ fr.total

theorem FailureRate.ofSample_counts (sample : List AuditEntry) :
    (FailureRate.ofSample sample).Counts sample where
  total := rfl
  failures := by
    have hfilter : sample.countP AuditEntry.isFailure
        = (sample.filter fun e => e.outcome = "failure" ∨ e.outcome = "retry").length := by
      rw [List.countP_eq_length_filter]
      congr 2
      funext e
      simp [AuditEntry.isFailure]
    exact congrArg Nat.cast hfilter
  rate := by
    change rateOf sample = ((sample.countP AuditEntry.isFailure : Int) : ℚ) / (sample.length : Int)
    rw [rateOf, Int.cast_natCast, Int.cast_natCast]
  failures_nonneg := Int.natCast_nonneg _
  failures_le := Int.ofNat_le.mpr List.countP_le_length

/-- `m[k]`, the zero value where the key is missing. -/
def rateAt {K : Type} [DecidableEq K] (m : List (K × FailureRate)) (k : K) : FailureRate :=
  (m.lookup k).getD .zero

/-- **The report that failure statistics are to give** of a list of audit entries, at the three
granularities. A finer one sees fewer entries, so its totals add up to no more than the coarser
total. -/
structure FailureStats.Counts (stats : FailureStats) (entries : List AuditEntry) : Prop where
  byStrategy : ∀ strategy : String, (rateAt stats.byStrategy strategy).Counts
    (entries.filter fun e => e.UnderStrategy strategy)
  byStrategyCategory : ∀ strategy category : String,
    (rateAt stats.byStrategyCategory ⟨strategy, "", category⟩).Counts
      (entries.filter fun e => e.UnderStrategy strategy ∧ e.InCategory category)
  byStrategyRoleCategory : ∀ strategy role category : String,
    (rateAt stats.byStrategyRoleCategory ⟨strategy, role, category⟩).Counts
      (entries.filter fun e => e.UnderStrategy strategy ∧ e.ByRole role ∧ e.InCategory category)
  roles_le : ∀ strategy category : String,
    sumOver (fun k => k.strategy = strategy ∧ k.category = category) FailureRate.total
        stats.byStrategyRoleCategory
      ≤ (rateAt stats.byStrategyCategory ⟨strategy, "", category⟩).total
  categories_le : ∀ strategy : String,
    sumOver (fun k => k.strategy = strategy) FailureRate.total stats.byStrategyCategory
      ≤ (rateAt stats.byStrategy strategy).total

/-- Two snapshots are the same: their maps agree at every key. -/
structure FailureStats.Same (stats stats' : FailureStats) : Prop where
  fine : ∀ k, stats.byStrategyRoleCategory.lookup k = stats'.byStrategyRoleCategory.lookup k
  middle : ∀ k, stats.byStrategyCategory.lookup k = stats'.byStrategyCategory.lookup k
  coarse : ∀ k, stats.byStrategy.lookup k = stats'.byStrategy.lookup k
  window : stats.window = stats'.window

section Report

variable {K : Type} [DecidableEq K] {key : AuditEntry → Option K}

theorem rateAt_counts {k : K} {entries : List AuditEntry} {p : AuditEntry → Bool}
    (hp : ∀ e, key e = some k ↔ p e = true) :
    (rateAt (computeRates (counts key entries)) k).Counts (entries.filter p) := by
  have hsample : sampleOf key k entries = entries.filter p := by
    refine List.filter_congr fun e _ => ?_
    rw [Bool.eq_iff_iff, decide_eq_true_iff, hp]
  rw [rateAt, getD_lookup_counts, hsample]
  exact FailureRate.ofSample_counts _

/-- Keys that all belong to one coarser key. -/
theorem sum_total_le {K' : Type} [DecidableEq K'] {key' : AuditEntry → Option K'} {sel : K → Bool}
    {k' : K'} (h : ∀ e k, key e = some k → sel k = true → key' e = some k')
    (entries : List AuditEntry) :
    sumOver sel FailureRate.total (computeRates (counts key entries))
      ≤ (rateAt (computeRates (counts key' entries)) k').total := by
  rw [sum_total, rateAt, getD_lookup_counts]
  refine Int.ofNat_le.mpr ?_
  unfold counted sampleOf
  rw [← List.countP_eq_length_filter, ← List.countP_eq_length_filter]
  refine List.countP_mono_left fun e _ he => ?_
  obtain ⟨k, hk, hsel⟩ := (Option.any_eq_true sel (key e)).mp he
  exact decide_eq_true (h e k hk hsel)

end Report

/-- **Failure statistics count what the audit entries say.** Every bucket of a snapshot has the
number of the entries it is about and of the failures among them; the totals of a finer granularity
add up to no more than those of a coarser one; and the order of the entries does not matter. -/
theorem snapshot_counts (window : Duration) (entries : List AuditEntry) :
    (snapshot window entries).Counts entries ∧
      ∀ entries', entries.Perm entries' →
        (snapshot window entries).Same (snapshot window entries') := by
  refine ⟨?_, fun entries' hperm => ?_⟩
  · rw [snapshot_eq]
    refine ⟨fun strategy => ?_, fun strategy category => ?_, fun strategy role category => ?_,
      fun strategy category => ?_, fun strategy => ?_⟩
    · exact rateAt_counts fun e => by rw [AuditEntry.coarseKey_eq_iff, decide_eq_true_iff]
    · exact rateAt_counts fun e => by
        rw [AuditEntry.middleKey_eq_iff, decide_eq_true_iff, eq_self_iff_true, true_and]
    · exact rateAt_counts fun e => by rw [AuditEntry.fineKey_eq_iff, decide_eq_true_iff]
    · -- a role is dropped
      refine sum_total_le (fun e k hk hsel => ?_) entries
      obtain ⟨rfl, rfl⟩ := of_decide_eq_true hsel
      obtain ⟨hs, -, hc⟩ := AuditEntry.fineKey_eq_iff.mp hk
      exact AuditEntry.middleKey_eq_iff.mpr ⟨rfl, hs, hc⟩
    · -- a category is dropped
      refine sum_total_le (fun e k hk hsel => ?_) entries
      obtain rfl := of_decide_eq_true hsel
      exact AuditEntry.coarseKey_eq_iff.mpr (AuditEntry.middleKey_eq_iff.mp hk).2.1
  · rw [snapshot_eq, snapshot_eq]
    exact ⟨lookup_counts_perm _ hperm, lookup_counts_perm _ hperm, lookup_counts_perm _ hperm, rfl⟩

end Governance

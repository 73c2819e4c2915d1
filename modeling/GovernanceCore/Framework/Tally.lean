import Mathlib.Algebra.BigOperators.Group.List.Basic
import Mathlib.Algebra.Ring.Int.Defs
import Mathlib.Data.List.Dedup
import Mathlib.Data.List.Induction
import Mathlib.Data.List.Nodup

/-!
# Tallies

A **tally** goes through a list once and keeps a map from keys to running values. Each item is noted
under its key, if it has one; a key that is not in the map yet begins with the value `zero`. Maps
are lists of entries, as they come out of a hash map whose order is not relied on.

Three results say what a tally contains. `lookup_tally`: under a key stands what the items of that
key add up to. `tally_perm`: there is one entry for each key that occurs. `sum_tally`: an additive
quantity, summed over the entries of some keys, is the sum over the items of those keys, however the
items are spread over the keys.
-/

namespace Framework

section Map

variable {K V : Type} [DecidableEq K]

/-- The map after `m[k] = v`. -/
def put (m : List (K × V)) (k : K) (v : V) : List (K × V) :=
  m.filter (fun kv => kv.1 ≠ k) ++ [(k, v)]

theorem lookup_cons_self (m : List (K × V)) (k : K) (v : V) : ((k, v) :: m).lookup k = some v := by
  rw [List.lookup_cons, beq_self_eq_true]

theorem lookup_cons_ne (m : List (K × V)) {j k : K} (v : V) (h : j ≠ k) :
    ((k, v) :: m).lookup j = m.lookup j := by
  rw [List.lookup_cons, beq_eq_false_iff_ne.mpr h]

theorem lookup_filter_ne (m : List (K × V)) {j k : K} (h : j ≠ k) :
    (m.filter fun kv => kv.1 ≠ k).lookup j = m.lookup j := by
  induction m with
  | nil => rfl
  | cons kv m ih =>
    obtain ⟨k', v⟩ := kv
    by_cases hk : k' = k
    · rw [List.filter_cons_of_neg (by simp [hk]), ih, lookup_cons_ne m v (hk ▸ h)]
    · rw [List.filter_cons_of_pos (by simp [hk])]
      by_cases hj : j = k'
      · rw [hj, lookup_cons_self, lookup_cons_self]
      · rw [lookup_cons_ne _ v hj, lookup_cons_ne _ v hj, ih]

theorem lookup_put (m : List (K × V)) (j k : K) (v : V) :
    (put m k v).lookup j = if j = k then some v else m.lookup j := by
  unfold put
  rw [List.lookup_append]
  by_cases h : j = k
  · subst h
    have hnone : (m.filter fun kv => kv.1 ≠ j).lookup j = none := by
      refine List.lookup_eq_none_iff.mpr fun kv hkv => ?_
      have hne : kv.1 ≠ j := of_decide_eq_true (List.mem_filter.mp hkv).2
      exact bne_iff_ne.mpr hne.symm
    rw [hnone, if_pos rfl, lookup_cons_self, Option.none_or]
  · rw [lookup_filter_ne m h, if_neg h, lookup_cons_ne _ v h, List.lookup_nil, Option.or_none]

theorem nodup_put {m : List (K × V)} (hm : (m.map Prod.fst).Nodup) (k : K) (v : V) :
    ((put m k v).map Prod.fst).Nodup := by
  unfold put
  rw [List.map_append, List.map_singleton]
  refine List.nodup_append.mpr ⟨hm.sublist (List.filter_sublist.map _), List.nodup_singleton k, ?_⟩
  intro a ha b hb hab
  obtain ⟨kv, hkv, rfl⟩ := List.mem_map.mp ha
  have hne : kv.1 ≠ k := of_decide_eq_true (List.mem_filter.mp hkv).2
  exact hne (hab.trans (List.mem_singleton.mp hb))

/-- In a map, an entry is what its key looks up. -/
theorem mem_iff_lookup {m : List (K × V)} (hm : (m.map Prod.fst).Nodup) {k : K} {v : V} :
    (k, v) ∈ m ↔ m.lookup k = some v := by
  rw [List.lookup_eq_some_iff]
  refine ⟨fun h => ?_, fun ⟨l₁, l₂, h, _⟩ => ?_⟩
  · obtain ⟨l₁, l₂, rfl⟩ := List.append_of_mem h
    refine ⟨l₁, l₂, rfl, fun kv hkv => bne_iff_ne.mpr fun heq => ?_⟩
    -- the same key twice
    rw [List.map_append, List.map_cons, List.nodup_append] at hm
    exact hm.2.2 kv.1 (List.mem_map_of_mem hkv) k List.mem_cons_self heq.symm
  · rw [h]
    exact List.mem_append_right _ List.mem_cons_self

/-- Values that know their key can be kept without it: the first value of a key is the one that is
looked up. -/
theorem find?_map_eq_map_lookup {B : Type} {keyOf : B → K} {f : K × V → B}
    (hf : ∀ kv, keyOf (f kv) = kv.1) (m : List (K × V)) (k : K) :
    (m.map f).find? (fun b => keyOf b = k) = (m.lookup k).map fun v => f (k, v) := by
  induction m with
  | nil => rfl
  | cons kv m ih =>
    obtain ⟨k', v⟩ := kv
    by_cases hk : k = k'
    · subst hk
      rw [List.map_cons, List.find?_cons_of_pos (by simp [hf]), lookup_cons_self]
      rfl
    · rw [List.map_cons, List.find?_cons_of_neg (by simp [hf, Ne.symm hk]), ih,
        lookup_cons_ne m v hk]

theorem map_put {B : Type} {keyOf : B → K} {f : K × V → B} (hf : ∀ kv, keyOf (f kv) = kv.1)
    (m : List (K × V)) (k : K) (v : V) :
    (put m k v).map f = (m.map f).filter (fun b => keyOf b ≠ k) ++ [f (k, v)] := by
  rw [put, List.map_append, List.filter_map]
  congr 2
  refine List.filter_congr fun kv _ => ?_
  simp [hf]

/-- The sum of `g` over the entries whose key is selected. -/
def sumOver (sel : K → Bool) (g : V → Int) (m : List (K × V)) : Int :=
  ((m.filter fun kv => sel kv.1).map fun kv => g kv.2).sum

omit [DecidableEq K] in
theorem sumOver_cons (sel : K → Bool) (g : V → Int) (k : K) (v : V) (m : List (K × V)) :
    sumOver sel g ((k, v) :: m) = (if sel k then g v else 0) + sumOver sel g m := by
  unfold sumOver
  by_cases h : sel k = true <;> simp [h]

omit [DecidableEq K] in
theorem sumOver_concat (sel : K → Bool) (g : V → Int) (k : K) (v : V) (m : List (K × V)) :
    sumOver sel g (m ++ [(k, v)]) = sumOver sel g m + if sel k then g v else 0 := by
  unfold sumOver
  by_cases h : sel k = true <;> simp [h]

/-- Replacing the value of a key changes the sum by the difference. -/
theorem sumOver_put {sel : K → Bool} {g : V → Int} {zero : V} (hzero : g zero = 0)
    {m : List (K × V)} (hm : (m.map Prod.fst).Nodup) (k : K) (v : V) :
    sumOver sel g (put m k v) + (if sel k then g ((m.lookup k).getD zero) else 0)
      = sumOver sel g m + if sel k then g v else 0 := by
  induction m with
  | nil =>
    have hput : put ([] : List (K × V)) k v = [] ++ [(k, v)] := rfl
    rw [hput, sumOver_concat, List.lookup_nil, Option.getD_none, hzero, ite_self, Int.add_zero]
  | cons kv m ih =>
    obtain ⟨k', v'⟩ := kv
    rw [List.map_cons, List.nodup_cons] at hm
    by_cases hk : k' = k
    · -- the key stands first, and nowhere else
      subst hk
      have hrest : m.filter (fun kv => kv.1 ≠ k') = m := by
        refine List.filter_eq_self.mpr fun kv hkv => decide_eq_true fun heq => hm.1 ?_
        exact List.mem_map.mpr ⟨kv, hkv, heq⟩
      have hput : put ((k', v') :: m) k' v = m ++ [(k', v)] := by
        rw [put, List.filter_cons_of_neg (by simp), hrest]
      rw [hput, sumOver_concat, sumOver_cons, lookup_cons_self, Option.getD_some]
      omega
    · have hput : put ((k', v') :: m) k v = (k', v') :: put m k v := by
        rw [put, List.filter_cons_of_pos (by simp [hk])]
        rfl
      have hih := ih hm.2
      rw [hput, sumOver_cons, sumOver_cons, lookup_cons_ne m v' fun h => hk h.symm]
      omega

end Map

section Tally

variable {A K V : Type} [DecidableEq K] (zero : V) (note : V → A → V) (key : A → Option K)

/-- One item is noted. -/
def tallyStep (m : List (K × V)) (a : A) : List (K × V) :=
  match key a with
  | none => m
  | some k => put m k (note ((m.lookup k).getD zero) a)

/-- The map after all items. -/
def tally (as : List A) : List (K × V) := as.foldl (tallyStep zero note key) []

theorem tally_concat (as : List A) (a : A) :
    tally zero note key (as ++ [a]) = tallyStep zero note key (tally zero note key as) a := by
  rw [tally, List.foldl_append]
  rfl

theorem nodup_tally (as : List A) : ((tally zero note key as).map Prod.fst).Nodup := by
  induction as using List.reverseRecOn with
  | nil => exact List.nodup_nil
  | append_singleton as a ih =>
    rw [tally_concat]
    unfold tallyStep
    cases key a with
    | none => exact ih
    | some k => exact nodup_put ih k _

/-- **What stands under a key**: the items of that key, noted one after the other, if there are
any. -/
theorem lookup_tally (as : List A) (k : K) :
    (tally zero note key as).lookup k
      = if as.filter (fun a => key a = some k) = [] then none
        else some ((as.filter fun a => key a = some k).foldl note zero) := by
  induction as using List.reverseRecOn with
  | nil => rfl
  | append_singleton as a ih =>
    rw [tally_concat, List.filter_append, List.foldl_append]
    unfold tallyStep
    by_cases hkey : key a = some k
    · -- a further item of the key, or its first one
      rw [List.filter_cons_of_pos (by simp [hkey]), List.filter_nil, hkey]
      dsimp only
      rw [lookup_put, if_pos rfl,
        if_neg (List.append_ne_nil_of_right_ne_nil _ (List.cons_ne_nil a [])), ih]
      by_cases hnil : as.filter (fun a => key a = some k) = []
      · rw [if_pos hnil, hnil]
        rfl
      · rw [if_neg hnil]
        rfl
    · rw [List.filter_cons_of_neg (by simp [hkey]), List.filter_nil, List.append_nil,
        List.foldl_nil, ← ih]
      cases hj : key a with
      | none => rfl
      | some j => rw [lookup_put, if_neg fun h => hkey (hj.trans (congrArg some h.symm))]

/-- **The entries of the map**: one for each key that occurs. -/
theorem tally_perm (as : List A) :
    (tally zero note key as).Perm ((as.filterMap key).dedup.map fun k =>
      (k, (as.filter fun a => key a = some k).foldl note zero)) := by
  have hkeys := nodup_tally zero note key as
  refine (List.perm_ext_iff_of_nodup hkeys.of_map ?_).mpr fun kv => ?_
  · refine (List.nodup_dedup _).map fun k k' h => ?_
    exact (Prod.mk.inj h).1
  · obtain ⟨k, v⟩ := kv
    have hmem : as.filter (fun a => key a = some k) ≠ [] ↔ k ∈ (as.filterMap key).dedup := by
      simp [List.filter_eq_nil_iff]
    rw [mem_iff_lookup hkeys, lookup_tally, List.mem_map]
    by_cases hnil : as.filter (fun a => key a = some k) = []
    · rw [if_pos hnil]
      refine iff_of_false (fun h => by cases h) fun ⟨k', hk', heq⟩ => ?_
      obtain ⟨rfl, -⟩ := Prod.mk.inj heq
      exact hmem.mpr hk' hnil
    · rw [if_neg hnil]
      refine ⟨fun h => ⟨k, hmem.mp hnil, by rw [← Option.some.inj h]⟩, fun ⟨k', _, heq⟩ => ?_⟩
      obtain ⟨rfl, rfl⟩ := Prod.mk.inj heq
      rfl

/-- The same, with the value that a key begins with. -/
theorem getD_lookup_tally (as : List A) (k : K) :
    ((tally zero note key as).lookup k).getD zero
      = (as.filter fun a => key a = some k).foldl note zero := by
  rw [lookup_tally]
  by_cases hnil : as.filter (fun a => key a = some k) = []
  · rw [if_pos hnil, hnil]
    rfl
  · rw [if_neg hnil]
    rfl

/-- **What the selected keys add up to**: the items of those keys. -/
theorem sum_tally {sel : K → Bool} {g : V → Int} {d : A → Int} (hzero : g zero = 0)
    (hnote : ∀ v a, g (note v a) = g v + d a) (as : List A) :
    sumOver sel g (tally zero note key as)
      = ((as.filter fun a => (key a).any sel).map d).sum := by
  induction as using List.reverseRecOn with
  | nil => rfl
  | append_singleton as a ih =>
    rw [tally_concat, List.filter_append, List.map_append, List.sum_append, ← ih]
    unfold tallyStep
    cases hkey : key a with
    | none => simp [hkey]
    | some k =>
      -- `put` replaces the entry of `k`: the sum changes by the difference of the two values.
      have hput : sumOver sel g (put _ k _) + _ = sumOver sel g _ + _ := sumOver_put hzero
        (nodup_tally zero note key as) k (note (((tally zero note key as).lookup k).getD zero) a)
      rw [hnote] at hput
      by_cases hs : sel k = true
      · simp only [hs, if_true] at hput
        simp [hkey, hs]
        omega
      · simp only [hs] at hput
        simp [hkey, hs]
        simpa using hput

end Tally

end Framework

import Mathlib.Data.List.Basic
import Mathlib.Data.List.Nodup
import Mathlib.Data.List.Range

/-!
# Pages of an ordered listing

A listing shows the rows that match, the newest first, one page at a time; beside each row stands
the number of all matching rows. Rows with the same key have no order of their own: a database may
return them in another order each time, so what is said about the order is for keys that are
pairwise distinct.

The pages of one size, put together, are the listing (`flatMap_page`), which has every matching row
once and in strictly descending order (`ordered_perm`, `ordered_pairwise`). The count can only be
read off a row, so a page without rows has none (`page_eq_nil_iff`).
-/

namespace Framework

variable {α : Type}

/-- `ORDER BY key DESC`. -/
def ordered (key : α → Int) (rows : List α) : List α :=
  rows.mergeSort fun a b => decide (key b ≤ key a)

/-- `LIMIT limit OFFSET offset`. -/
def page (limit offset : Nat) (rows : List α) : List α := (rows.drop offset).take limit

/-- `COUNT(*) OVER()`, next to every row. -/
def withCount (rows : List α) : List (α × Int) := rows.map fun a => (a, (rows.length : Int))

theorem ordered_perm (key : α → Int) (rows : List α) : (ordered key rows).Perm rows :=
  List.mergeSort_perm rows _

@[simp] theorem length_ordered (key : α → Int) (rows : List α) :
    (ordered key rows).length = rows.length := (ordered_perm key rows).length_eq

/-- Distinct keys descend strictly. -/
theorem ordered_pairwise {key : α → Int} {rows : List α} (h : (rows.map key).Nodup) :
    (ordered key rows).Pairwise fun a b => key b < key a := by
  have htrans : ∀ a b c : α, decide (key b ≤ key a) = true → decide (key c ≤ key b) = true →
      decide (key c ≤ key a) = true := by
    intro a b c hab hbc
    rw [decide_eq_true_eq] at hab hbc ⊢
    omega
  have htotal : ∀ a b : α, (decide (key b ≤ key a) || decide (key a ≤ key b)) = true := by
    intro a b
    rw [Bool.or_eq_true, decide_eq_true_eq, decide_eq_true_eq]
    omega
  have hle : (ordered key rows).Pairwise fun a b => key b ≤ key a :=
    (List.pairwise_mergeSort htrans htotal rows).imp fun hab => of_decide_eq_true hab
  -- sorting only permutes, so the keys stay distinct
  have hne : (ordered key rows).Pairwise fun a b => key a ≠ key b := by
    rw [← List.pairwise_map]
    exact ((ordered_perm key rows).map key).nodup_iff.mpr h
  exact hle.imp₂ (fun a b hab hne => by omega) hne

/-- Rows in strictly descending order have the keys that a descending list of them has. -/
theorem map_key_of_descending {key : α → Int} {rows : List α} {keys : List Int}
    (hrows : rows.Pairwise fun a b => key b < key a) (hkeys : keys.Pairwise fun a b => b < a)
    (hperm : (rows.map key).Perm keys) : rows.map key = keys := by
  refine hperm.eq_of_pairwise ?_ (List.pairwise_map.mpr hrows) hkeys
  intro x y _ _ hyx hxy
  exact absurd hxy (Int.lt_asymm hyx)

theorem map_key_ordered {key : α → Int} {rows : List α} {keys : List Int}
    (hkeys : keys.Pairwise fun a b => b < a) (hperm : (rows.map key).Perm keys) :
    (ordered key rows).map key = keys := by
  have hdistinct : (rows.map key).Nodup := hperm.nodup_iff.mpr (hkeys.imp Int.ne_of_gt)
  exact map_key_of_descending (ordered_pairwise hdistinct) hkeys
    (((ordered_perm key rows).map key).trans hperm)

theorem map_page {β : Type} (f : α → β) (limit offset : Nat) (rows : List α) :
    (page limit offset rows).map f = page limit offset (rows.map f) := by
  rw [page, page, List.map_take, List.map_drop]

/-- **The pages, put together**, are the rows up to where the last page ends. -/
theorem flatMap_page (limit n : Nat) (rows : List α) :
    (List.range n).flatMap (fun i => page limit (i * limit) rows) = rows.take (n * limit) := by
  induction n with
  | zero => rw [Nat.zero_mul, List.take_zero, List.range_zero, List.flatMap_nil]
  | succ n ih =>
    rw [List.range_succ, List.flatMap_append, ih, Nat.succ_mul, List.take_add]
    simp [page]

theorem page_eq_nil_iff {limit offset : Nat} (hlimit : 0 < limit) {rows : List α} :
    page limit offset rows = [] ↔ rows.length ≤ offset := by
  unfold page
  rw [List.take_eq_nil_iff, List.drop_eq_nil_iff]
  refine or_iff_right ?_
  omega

theorem map_fst_withCount (rows : List α) : (withCount rows).map Prod.fst = rows := by
  unfold withCount
  rw [List.map_map]
  exact List.map_id rows

theorem map_fst_page_withCount (limit offset : Nat) (rows : List α) :
    (page limit offset (withCount rows)).map Prod.fst = page limit offset rows := by
  unfold page
  rw [List.map_take, List.map_drop, map_fst_withCount]

theorem snd_of_mem_withCount {rows : List α} {p : α × Int} (h : p ∈ withCount rows) :
    p.2 = rows.length := by
  obtain ⟨a, -, rfl⟩ := List.mem_map.mp h
  rfl

theorem mem_of_mem_page {limit offset : Nat} {rows : List α} {a : α}
    (h : a ∈ page limit offset rows) : a ∈ rows := List.mem_of_mem_drop (List.mem_of_mem_take h)

end Framework

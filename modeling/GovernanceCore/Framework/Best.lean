import Mathlib.Algebra.Order.Group.Defs
import Mathlib.Data.List.MinMax
import Mathlib.Data.Prod.Lex

/-!
# The best of several candidates

Candidates have a score and a rank: the greatest score wins, and of equal scores the one with the
lowest rank. `IsBest` states this of a set of candidates.

* `isBest_of_foldl` — a loop that keeps the better one of two finds the best one;
* `IsBest.eq_of_margin` — a candidate that leads by more than scores can move stays the best;
* `IsBest.rank_le_of_favours` — a change that favours the higher ranks never moves the choice to a
  lower one. It compares two choices, each of them known by its own scores only.
-/

namespace Framework

variable {α ι K : Type*} [LinearOrder ι] [LinearOrder K]

/-- `a` has the greatest score of the candidates, and the lowest rank of those that have it. -/
structure IsBest (s : Set α) (score : α → K) (rank : α → ι) (a : α) : Prop where
  mem : a ∈ s
  best : ∀ b ∈ s, score b < score a ∨ score b = score a ∧ rank a ≤ rank b

namespace IsBest

variable {s : Set α} {score score' : α → K} {rank : α → ι} {a b : α}

theorem score_le (h : IsBest s score rank a) (hb : b ∈ s) : score b ≤ score a := by
  rcases h.best b hb with hlt | ⟨heq, -⟩
  · exact hlt.le
  · exact heq.le

/-- What has a lower rank has a lower score. -/
theorem score_lt (h : IsBest s score rank a) (hb : b ∈ s) (hrank : rank b < rank a) :
    score b < score a := by
  rcases h.best b hb with hlt | ⟨-, hle⟩
  · exact hlt
  · exact absurd hrank hle.not_gt

section Group

variable [AddCommGroup K] [IsOrderedAddMonoid K]

theorem eq_of_margin {down up : K} (ha : a ∈ s)
    (hlead : ∀ b ∈ s, b ≠ a → score b + (down + up) < score a)
    (hdown : ∀ b ∈ s, score b - down ≤ score' b) (hup : ∀ b ∈ s, score' b ≤ score b + up)
    (hb : IsBest s score' rank b) : b = a := by
  by_contra hne
  have hlt : score' b < score' a :=
    calc score' b ≤ score b + up := hup b hb.mem
      _ = score b + (down + up) - down := by rw [add_comm down, ← add_assoc, add_sub_cancel_right]
      _ < score a - down := sub_lt_sub_right (hlead b hb.mem hne) down
      _ ≤ score' a := hdown a ha
  exact absurd (hb.score_le ha) hlt.not_ge

theorem rank_le_of_favours (h : IsBest s score rank a) (h' : IsBest s score' rank b)
    (hfavours : ∀ c ∈ s, ∀ d ∈ s, rank c ≤ rank d → score' c - score c ≤ score' d - score d) :
    rank a ≤ rank b := by
  by_contra hnot
  have hrank : rank b < rank a := lt_of_not_ge hnot
  -- `a` was strictly ahead of `b`, and it gains at least as much as `b`
  have hlt : score' b < score' a :=
    calc score' b = score' b - score b + score b := (sub_add_cancel _ _).symm
      _ ≤ score' a - score a + score b :=
        add_le_add_left (hfavours b h'.mem a h.mem hrank.le) (score b)
      _ < score' a - score a + score a := add_lt_add_right (h.score_lt h'.mem hrank) _
      _ = score' a := sub_add_cancel _ _
  exact absurd (h'.score_le h.mem) hlt.not_ge

end Group

end IsBest

/-! ### The loop -/

/-- A loop that keeps the first one of the greatest computes `List.argmax`. -/
theorem argmax_cons_eq_foldl (key : α → K) (a : α) (l : List α) :
    (a :: l).argmax key = some (l.foldl (fun b c => if key b < key c then c else b) a) := by
  induction l generalizing a with
  | nil => rfl
  | cons c l ih =>
    rw [List.foldl_cons, ← ih]
    change l.foldl _ (List.argAux _ (some a) c) = l.foldl _ (some _)
    congr 1
    change (if key a < key c then some c else some a) = _
    rw [apply_ite some]

/-- A loop that keeps the better one of two finds the best one. -/
theorem isBest_of_foldl {score : α → K} {rank : α → ι} {better : α → α → α}
    (hbetter : ∀ b c, better b c
      = if score b < score c ∨ score b = score c ∧ rank c < rank b then c else b)
    (a : α) (l : List α) :
    IsBest {x | x ∈ a :: l} score rank (l.foldl better a) := by
  have hargmax : l.foldl better a
      ∈ (a :: l).argmax fun x => toLex (score x, OrderDual.toDual (rank x)) := by
    rw [argmax_cons_eq_foldl]
    refine congrArg (fun f => some (l.foldl f a)) ?_
    funext b c
    rw [hbetter]
    refine if_congr ?_ rfl rfl
    rw [Prod.Lex.toLex_lt_toLex]
    rfl
  refine ⟨List.argmax_mem hargmax, fun b hb => ?_⟩
  have hle := List.le_of_mem_argmax hb hargmax
  rw [Prod.Lex.toLex_le_toLex] at hle
  exact hle

end Framework

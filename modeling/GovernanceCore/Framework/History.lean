import Mathlib.Data.List.DropRight
import Mathlib.Order.Bounds.Basic

/-!
# Machines and their histories

A deterministic machine is a step function; its state after a history is the fold of the step over
the inputs, oldest first. What such a machine keeps about its past is stated against the history:

* `after_induction` — a relation between history and state that one step extends holds after every
  history;
* `outputs` — what the machine has put out along a history, with `outputs_concat`;
* `concat_eq_append_cons_iff` — an input of an extended history is an old one or the new one;
* `Along` — a property of every input together with the history before it, with `along_concat`;
* `Connects` — edges that lead from one state to another without a gap, with `connects_concat`;
* `pushWindow` — a buffer that drops its oldest entry when it is full holds the last `n` inputs
  (`rtake_concat_eq_pushWindow`);
* `le_length_rtakeWhile_iff` — the length of the trailing run of inputs with a property;
* `isLeast_take_congr` — the first time a condition holds along a history, for two conditions that
  agree as long as neither has held before.
-/

namespace Framework

section Machine

variable {State Input : Type*} {step : State → Input → State} {s₀ : State}

/-- The state after a history. -/
def after (step : State → Input → State) (s₀ : State) (h : List Input) : State := h.foldl step s₀

@[simp] theorem after_concat (h : List Input) (x : Input) :
    after step s₀ (h ++ [x]) = step (after step s₀ h) x := by
  rw [after, List.foldl_append]
  rfl

/-- **The history rule.** A relation between a history and the state it leads to, once every step
extends it, holds after every history. -/
theorem after_induction {P : List Input → State → Prop} (hnil : P [] s₀)
    (hstep : ∀ h s x, s = after step s₀ h → P h s → P (h ++ [x]) (step s x)) (h : List Input) :
    P h (after step s₀ h) := by
  induction h using List.reverseRecOn with
  | nil => exact hnil
  | append_singleton h x ih =>
    rw [after_concat]
    exact hstep h _ x rfl ih

/-- What a machine puts out along a history, when it puts out `out s x` in the state `s` at the
input `x`. -/
def outputs {Output : Type*} (step : State → Input → State) (out : State → Input → List Output) :
    State → List Input → List Output
  | _, [] => []
  | s, x :: h => out s x ++ outputs step out (step s x) h

theorem outputs_concat {Output : Type*} {out : State → Input → List Output} (s : State)
    (h : List Input) (x : Input) :
    outputs step out s (h ++ [x]) = outputs step out s h ++ out (after step s h) x := by
  induction h generalizing s with
  | nil => exact List.append_nil _
  | cons y h ih =>
    rw [List.cons_append, outputs, outputs, ih, List.append_assoc]
    rfl

/-- Where an input of an extended history stands: among the old inputs, or it is the new one. -/
theorem concat_eq_append_cons_iff {h g g' : List Input} {x y : Input} :
    h ++ [x] = g ++ y :: g' ↔
      (∃ g₁, g' = g₁ ++ [x] ∧ h = g ++ y :: g₁) ∨ (h = g ∧ x = y ∧ g' = []) := by
  refine ⟨fun hl => ?_, ?_⟩
  · cases g' using List.reverseRecOn with
    | nil =>
      obtain ⟨hgl, hxy⟩ := List.append_inj' hl rfl
      exact .inr ⟨hgl, List.head_eq_of_cons_eq hxy, rfl⟩
    | append_singleton g₁ z =>
      rw [← List.cons_append, ← List.append_assoc] at hl
      obtain ⟨hgl, hxz⟩ := List.append_inj' hl rfl
      rw [← hxz]
      exact .inl ⟨g₁, rfl, hgl⟩
  · rintro (⟨g₁, rfl, rfl⟩ | ⟨rfl, rfl, rfl⟩)
    · rw [List.append_assoc, List.cons_append]
    · rfl

/-- `P` holds of every input of the history, together with the inputs before it. -/
def Along (P : List Input → Input → Prop) (h : List Input) : Prop :=
  ∀ g x g', h = g ++ x :: g' → P g x

theorem along_nil {P : List Input → Input → Prop} : Along P [] := by
  intro g x g' hg
  exact absurd hg.symm (List.append_ne_nil_of_right_ne_nil g (List.cons_ne_nil x g'))

theorem along_concat {P : List Input → Input → Prop} {h : List Input} {x : Input} :
    Along P (h ++ [x]) ↔ Along P h ∧ P h x := by
  refine ⟨fun hP => ⟨fun g y g' hg => ?_, hP h x [] rfl⟩, fun ⟨hP, hx⟩ g y g' hg => ?_⟩
  · refine hP g y (g' ++ [x]) ?_
    rw [hg, List.append_assoc, List.cons_append]
  · rcases concat_eq_append_cons_iff.mp hg with ⟨g₁, -, rfl⟩ | ⟨rfl, rfl, -⟩
    · exact hP g y g₁ rfl
    · exact hx

theorem along_congr {P Q : List Input → Input → Prop} {h : List Input}
    (hPQ : ∀ g x, P g x ↔ Q g x) : Along P h ↔ Along Q h :=
  forall_congr' fun g => forall_congr' fun x => forall_congr' fun _ =>
    imp_congr_right fun _ => hPQ g x

end Machine

/-! ### Paths -/

section Path

variable {State : Type*} {a b b' : State} {e : State × State}

/-- The edges lead from `a` to `b`: the first one starts at `a`, each one ends where the next one
starts, and the last one ends at `b`. -/
def Connects (a : State) : List (State × State) → State → Prop
  | [], b => a = b
  | e :: l, b => e.1 = a ∧ Connects e.2 l b

theorem connects_concat {l : List (State × State)} :
    Connects a (l ++ [e]) b ↔ Connects a l e.1 ∧ e.2 = b := by
  induction l generalizing a with
  | nil => exact and_congr_left fun _ => eq_comm
  | cons e' l ih =>
    change e'.1 = a ∧ Connects e'.2 (l ++ [e]) b ↔ (e'.1 = a ∧ Connects e'.2 l e.1) ∧ e.2 = b
    rw [ih, and_assoc]

theorem Connects.unique {l : List (State × State)} (h : Connects a l b) (h' : Connects a l b') :
    b = b' := by
  induction l generalizing a with
  | nil => exact h.symm.trans h'
  | cons e l ih => exact ih h.2 h'.2

end Path

/-! ### The last inputs of a history -/

section Window

variable {α : Type*}

theorem length_rtake (n : Nat) (h : List α) : (h.rtake n).length = min n h.length := by
  rw [List.rtake, List.length_drop]
  omega

/-- The buffer after one more input: the oldest entry goes when the buffer is full. -/
def pushWindow (n : Nat) (w : List α) (x : α) : List α :=
  (if n ≤ w.length then w.tail else w) ++ [x]

/-- **The window of a history.** Pushing an input onto the last `n` inputs gives the last `n` inputs
of the longer history. -/
theorem rtake_concat_eq_pushWindow {n : Nat} (hn : 0 < n) (h : List α) (x : α) :
    (h ++ [x]).rtake n = pushWindow n (h.rtake n) x := by
  obtain ⟨m, rfl⟩ : ∃ m, n = m + 1 := ⟨n - 1, by omega⟩
  rw [List.rtake_concat_succ, pushWindow, length_rtake]
  by_cases hfull : m + 1 ≤ h.length
  · -- a full buffer starts one input too early
    have hdrop : h.length - (m + 1) + 1 = h.length - m := by omega
    rw [if_pos (by omega), List.rtake, List.rtake, List.tail_drop, hdrop]
  · have hm : h.length - m = 0 := by omega
    have hm' : h.length - (m + 1) = 0 := by omega
    rw [if_neg (by omega), List.rtake, List.rtake, hm, hm']

/-- Recent inputs stay where they are when the history is extended by fewer than `n` inputs. -/
theorem rtake_append_of_le {n : Nat} {h l : List α} (hl : l.length ≤ n) :
    (h ++ l).rtake n = h.rtake (n - l.length) ++ l := by
  have hle : h.length + l.length - n ≤ h.length := by omega
  rw [List.rtake, List.length_append, List.drop_append_of_le_length hle, List.rtake]
  congr 2
  omega

/-- An extension of `n` inputs or more hides everything before it. -/
theorem rtake_append_of_ge {n : Nat} {h l : List α} (hl : n ≤ l.length) :
    (h ++ l).rtake n = l.rtake n := by
  have hlen : h.length + l.length - n = h.length + (l.length - n) := by omega
  rw [List.rtake, List.length_append, hlen, List.drop_append, List.rtake,
    List.drop_eq_nil_of_le (by omega), List.nil_append, Nat.add_sub_cancel_left]

/-- A shorter window is the end of a longer one. -/
theorem rtake_suffix_rtake {m n : Nat} (hmn : m ≤ n) (h : List α) : h.rtake m <:+ h.rtake n := by
  have hle : h.length - n ≤ h.length - m := by omega
  exact List.drop_suffix_drop_left h hle

theorem map_rtake {β : Type*} (f : α → β) (n : Nat) (h : List α) :
    (h.rtake n).map f = (h.map f).rtake n := by
  rw [List.rtake, List.rtake, List.map_drop, List.length_map]

/-! ### Trailing runs -/

/-- A run from the front is at least `k` long when the first `k` entries are there and have the
property. -/
theorem le_length_takeWhile_iff (p : α → Bool) :
    ∀ (k : Nat) (l : List α),
      k ≤ (l.takeWhile p).length ↔ k ≤ l.length ∧ ∀ x ∈ l.take k, p x = true := by
  intro k
  induction k with
  | zero => simp
  | succ k ih =>
    intro l
    cases l with
    | nil => simp
    | cons a l =>
      by_cases ha : p a = true
      · simp [ha, ih]
      · simp [ha]

/-- The trailing run of inputs with a property is at least `k` long when the last `k` inputs are
there and have it. -/
theorem le_length_rtakeWhile_iff (p : α → Bool) (k : Nat) (h : List α) :
    k ≤ (h.rtakeWhile p).length ↔ k ≤ h.length ∧ ∀ x ∈ h.rtake k, p x = true := by
  rw [List.rtakeWhile, List.length_reverse, le_length_takeWhile_iff, List.length_reverse,
    List.rtake_eq_reverse_take_reverse]
  simp only [List.mem_reverse]

end Window

/-! ### The first time a condition holds -/

section First

variable {Input : Type*} {P Q : List Input → Prop}

/-- Two conditions on histories that agree at the start, and after every history at which the first
has not held, have not held up to the same time. -/
theorem forall_lt_not_take_congr (hnil : P [] ↔ Q [])
    (hstep : ∀ h x, ¬P h → (P (h ++ [x]) ↔ Q (h ++ [x]))) (h : List Input) :
    ∀ n, (∀ m < n, ¬P (h.take m)) ↔ ∀ m < n, ¬Q (h.take m) := by
  intro n
  induction n with
  | zero => simp
  | succ n ih =>
    simp only [Nat.lt_succ_iff_lt_or_eq, or_imp, forall_and, forall_eq]
    rw [ih]
    refine and_congr_right fun hQ => not_congr ?_
    have hP := ih.mpr hQ
    cases n with
    | zero => simpa using hnil
    | succ n =>
      by_cases hn : n < h.length
      · -- one more input, after a history at which `P` has not held
        rw [List.take_succ_eq_append_getElem hn]
        exact hstep _ _ (hP n (by omega))
      · -- the history has no further input
        have htake : h.take (n + 1) = h.take n := by
          rw [List.take_of_length_le (by omega), List.take_of_length_le (by omega)]
        rw [htake]
        exact iff_of_false (hP n (by omega)) (hQ n (by omega))

/-- **The first time.** Two conditions that agree as long as the first has not held first hold at
the same time. -/
theorem isLeast_take_congr (hnil : P [] ↔ Q [])
    (hstep : ∀ h x, ¬P h → (P (h ++ [x]) ↔ Q (h ++ [x]))) (h : List Input) (n : Nat) :
    IsLeast {n | P (h.take n)} n ↔ IsLeast {n | Q (h.take n)} n := by
  have hfirst : ∀ R : List Input → Prop,
      IsLeast {n | R (h.take n)} n ↔
        (∀ m < n, ¬R (h.take m)) ∧ ¬∀ m < n + 1, ¬R (h.take m) := by
    intro R
    simp only [IsLeast, lowerBounds, Set.mem_ofPred_eq, Nat.lt_succ_iff_lt_or_eq, or_imp,
      forall_and, forall_eq]
    refine ⟨fun ⟨hn, hle⟩ => ?_, fun ⟨hlt, hn⟩ => ?_⟩
    · exact ⟨fun m hm hR => absurd (hle hR) (Nat.not_le.mpr hm), fun hno => hno.2 hn⟩
    · refine ⟨Classical.not_not.mp fun hR => hn ⟨hlt, hR⟩, fun m hR => ?_⟩
      exact Nat.not_lt.mp fun hm => hlt m hm hR
  rw [hfirst P, hfirst Q, forall_lt_not_take_congr hnil hstep h n,
    forall_lt_not_take_congr hnil hstep h (n + 1)]

end First

end Framework

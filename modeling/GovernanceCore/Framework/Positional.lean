import Mathlib.Data.Nat.Digits.Lemmas

/-!
# Positional notation of a fixed width

Numbers below `b ^ w` written with exactly `w` digits, the most significant one first. Mathlib has
the digits with the least significant one first (`Nat.digitsAppend`, `Nat.ofDigits`); the texts of
programs have them the other way round.
-/

namespace Framework.Positional

variable {b w n m : ℕ}

/-- The digits of `n`, padded with zeros to the width. -/
def fixed (b w n : ℕ) : List ℕ := (Nat.digitsAppend b w n).reverse

/-- The number with these digits. -/
def value (b : ℕ) (ds : List ℕ) : ℕ := Nat.ofDigits b ds.reverse

/-- The digits of a number in base `b`. -/
def Digits (b : ℕ) (ds : List ℕ) : Prop := ∀ d ∈ ds, d < b

theorem length_fixed (hb : 1 < b) (hn : n < b ^ w) : (fixed b w n).length = w := by
  rw [fixed, List.length_reverse, Nat.length_digitsAppend hb w hn]

theorem length_fixed_le (hb : 1 < b) {v : ℕ} (hwv : w ≤ v) (hn : n < b ^ v) :
    (fixed b w n).length ≤ v := by
  have hlen : (Nat.digits b n).length ≤ v := (Nat.digits_length_le_iff hb n).mpr hn
  rw [fixed, List.length_reverse, Nat.digitsAppend, List.length_append, List.length_replicate]
  omega

theorem digits_fixed (hb : 1 < b) (w n : ℕ) : Digits b (fixed b w n) := fun d hd =>
  Nat.lt_of_mem_digitsAppend hb w d (List.mem_reverse.mp hd)

/-- **Reading back what was written**, also where it takes more digits than the width. -/
theorem value_fixed (b w n : ℕ) : value b (fixed b w n) = n := by
  rw [value, fixed, List.reverse_reverse, Nat.digitsAppend, Nat.ofDigits_append_replicate_zero,
    Nat.ofDigits_digits]

theorem fixed_injective (b w : ℕ) : Function.Injective (fixed b w) := fun n m h => by
  rw [← value_fixed b w n, h, value_fixed]

theorem value_lt (hb : 1 < b) {ds : List ℕ} (hds : Digits b ds) : value b ds < b ^ ds.length := by
  rw [← List.length_reverse]
  exact Nat.ofDigits_lt_base_pow_length hb fun d hd => hds d (List.mem_reverse.mp hd)

theorem value_append_replicate_zero (b : ℕ) (ds : List ℕ) (k : ℕ) :
    value b (ds ++ List.replicate k 0) = value b ds * b ^ k := by
  rw [value, List.reverse_append, List.reverse_replicate, Nat.ofDigits_append,
    Nat.ofDigits_replicate_zero, List.length_replicate, Nat.zero_add, Nat.mul_comm, value]

end Framework.Positional

import Mathlib

/-!
# The Gregorian calendar

Dates of the Gregorian calendar, extended to all years before and after its introduction, and the
number of a day counted from 1 January of year 0. A `Date` holds the proof that its month and its
day exist, so that dates and day numbers are the same thing (`Date.toDays_ofDays`,
`Date.ofDays_toDays`).

A year begins at a multiple of 365 corrected by its leap days, so the year of a day is estimated
from the average length of a year and is off by at most one (`yearOf`). The month of a day in its
year is found by going through the lengths of the months (`locate`).
-/

namespace Framework.Calendar

/-! ### Blocks -/

/-- The block that holds position `d` when blocks of the given lengths follow each other, and the
position in it. -/
def locate : List ℕ → ℕ → ℕ × ℕ
  | [], d => (0, d)
  | n :: ns, d => if d < n then (0, d) else ((locate ns (d - n)).1 + 1, (locate ns (d - n)).2)

/-- Where a block begins. -/
def blockStart (ns : List ℕ) (m : ℕ) : ℕ := (ns.take m).sum

theorem blockStart_cons_succ (n : ℕ) (ns : List ℕ) (m : ℕ) :
    blockStart (n :: ns) (m + 1) = n + blockStart ns m := by
  rw [blockStart, List.take_succ_cons, List.sum_cons, ← blockStart]

theorem locate_lt {ns : List ℕ} : ∀ {d : ℕ}, d < ns.sum →
    (locate ns d).2 < ns.getD (locate ns d).1 0 := by
  induction ns with
  | nil => exact fun h => absurd h (Nat.not_lt_zero _)
  | cons n ns ih =>
    intro d h
    rw [locate]
    by_cases hd : d < n
    · rwa [if_pos hd]
    · rw [if_neg hd]
      rw [List.sum_cons] at h
      exact ih (by omega)

theorem blockStart_locate (ns : List ℕ) : ∀ d, d < ns.sum →
    blockStart ns (locate ns d).1 + (locate ns d).2 = d := by
  induction ns with
  | nil => exact fun d h => absurd h (Nat.not_lt_zero _)
  | cons n ns ih =>
    intro d h
    rw [locate]
    by_cases hd : d < n
    · rw [if_pos hd, blockStart, List.take_zero, List.sum_nil, Nat.zero_add]
    · rw [List.sum_cons] at h
      have hrest := ih (d - n) (by omega)
      rw [if_neg hd, blockStart_cons_succ]
      omega

theorem locate_blockStart {ns : List ℕ} : ∀ {m r : ℕ}, r < ns.getD m 0 →
    locate ns (blockStart ns m + r) = (m, r) := by
  induction ns with
  | nil => exact fun h => absurd h (Nat.not_lt_zero _)
  | cons n ns ih =>
    intro m r h
    cases m with
    | zero =>
      rw [blockStart, List.take_zero, List.sum_nil, Nat.zero_add, locate, if_pos]
      exact h
    | succ m =>
      have hrest : n + blockStart ns m + r - n = blockStart ns m + r := by omega
      rw [blockStart_cons_succ, locate, if_neg (by omega), hrest, ih h]

theorem blockStart_add_lt {ns : List ℕ} : ∀ {m r : ℕ}, r < ns.getD m 0 →
    blockStart ns m + r < ns.sum := by
  induction ns with
  | nil => exact fun h => absurd h (Nat.not_lt_zero _)
  | cons n ns ih =>
    intro m r h
    rw [List.sum_cons]
    cases m with
    | zero =>
      have h : r < n := h
      rw [blockStart, List.take_zero, List.sum_nil]
      omega
    | succ m =>
      have hrest := ih (m := m) (r := r) h
      rw [blockStart_cons_succ]
      omega

/-! ### Years -/

/-- Every fourth year is a leap year, but of the full centuries only every fourth one. -/
def isLeap (y : ℤ) : Bool := y % 4 = 0 ∧ (y % 100 ≠ 0 ∨ y % 400 = 0)

/-- The days from 1 January of year 0 to 1 January of a year. -/
def daysBeforeYear (y : ℤ) : ℤ := 365 * y + (y + 3) / 4 - (y + 99) / 100 + (y + 399) / 400

/-- The lengths of the months of a year. -/
def monthLengths (y : ℤ) : List ℕ :=
  [31, if isLeap y then 29 else 28, 31, 30, 31, 30, 31, 31, 30, 31, 30, 31]

theorem daysBeforeYear_succ (y : ℤ) :
    daysBeforeYear (y + 1) = daysBeforeYear y + (monthLengths y).sum := by
  have hsum : ((monthLengths y).sum : ℤ) = if isLeap y then 366 else 365 := by
    rw [monthLengths]
    cases isLeap y <;> rfl
  rw [hsum, daysBeforeYear, daysBeforeYear, isLeap]
  split
  · next h =>
    have h := of_decide_eq_true h
    omega
  · next h =>
    have h : ¬(y % 4 = 0 ∧ (y % 100 ≠ 0 ∨ y % 400 = 0)) := fun hp => h (decide_eq_true hp)
    omega

theorem daysBeforeYear_strictMono : StrictMono daysBeforeYear := by
  refine strictMono_int_of_lt_succ fun y => ?_
  have hpos : 0 < (monthLengths y).sum := by
    rw [monthLengths]
    cases isLeap y <;> decide
  rw [daysBeforeYear_succ]
  omega

/-- The year of a day: 400 years have 146097 days, and the estimate from it is off by at most
one. -/
def yearOf (d : ℤ) : ℤ :=
  let y := 400 * d / 146097
  if d < daysBeforeYear y then y - 1 else if d < daysBeforeYear (y + 1) then y else y + 1

theorem yearOf_spec (d : ℤ) :
    daysBeforeYear (yearOf d) ≤ d ∧ d < daysBeforeYear (yearOf d + 1) := by
  have hlow : daysBeforeYear (400 * d / 146097 - 1) ≤ d := by
    rw [daysBeforeYear]
    omega
  have hhigh : d < daysBeforeYear (400 * d / 146097 + 1 + 1) := by
    rw [daysBeforeYear]
    omega
  dsimp only [yearOf]
  split
  · next h => exact ⟨hlow, by rwa [Int.sub_add_cancel]⟩
  · next h =>
    split
    · next h' => exact ⟨Int.not_lt.mp h, h'⟩
    · next h' => exact ⟨Int.not_lt.mp h', hhigh⟩

theorem yearOf_eq {y d : ℤ} (hle : daysBeforeYear y ≤ d) (hlt : d < daysBeforeYear (y + 1)) :
    yearOf d = y := by
  have hspec := yearOf_spec d
  have hyear := daysBeforeYear_strictMono.lt_iff_lt.mp (hle.trans_lt hspec.2)
  have hyear' := daysBeforeYear_strictMono.lt_iff_lt.mp (hspec.1.trans_lt hlt)
  omega

/-! ### Dates -/

/-- A date; its month and its day count from 0. -/
@[ext]
structure Date where
  year : ℤ
  month : ℕ
  day : ℕ
  day_lt : day < (monthLengths year).getD month 0
  deriving DecidableEq

namespace Date

theorem month_lt (d : Date) : d.month < 12 := by
  by_contra h
  have hnone : (monthLengths d.year).getD d.month 0 = 0 := by
    rw [List.getD_eq_getElem?_getD, List.getElem?_eq_none (Nat.not_lt.mp h), Option.getD_none]
  exact absurd (hnone ▸ d.day_lt) (Nat.not_lt_zero _)

theorem day_le (d : Date) : d.day < 31 := by
  have hle : ∀ y : ℤ, ∀ m < 12, (monthLengths y).getD m 0 ≤ 31 := by
    intro y
    rw [monthLengths]
    cases isLeap y <;> decide
  exact d.day_lt.trans_le (hle d.year d.month d.month_lt)

/-- The number of the day. -/
def toDays (d : Date) : ℤ :=
  daysBeforeYear d.year + (blockStart (monthLengths d.year) d.month + d.day : ℕ)

/-- The place of a day in its year. -/
def yearDay (n : ℤ) : ℕ := (n - daysBeforeYear (yearOf n)).toNat

theorem yearDay_lt (n : ℤ) : yearDay n < (monthLengths (yearOf n)).sum := by
  have hspec := yearOf_spec n
  rw [daysBeforeYear_succ] at hspec
  rw [yearDay]
  omega

/-- The date of a day. -/
def ofDays (n : ℤ) : Date where
  year := yearOf n
  month := (locate (monthLengths (yearOf n)) (yearDay n)).1
  day := (locate (monthLengths (yearOf n)) (yearDay n)).2
  day_lt := locate_lt (yearDay_lt n)

theorem toDays_ofDays (n : ℤ) : (ofDays n).toDays = n := by
  have hspec := yearOf_spec n
  have hplace : blockStart (monthLengths (ofDays n).year) (ofDays n).month + (ofDays n).day
      = yearDay n := blockStart_locate _ _ (yearDay_lt n)
  have hday : (yearDay n : ℤ) = n - daysBeforeYear (yearOf n) := by
    rw [yearDay, Int.toNat_of_nonneg (by omega)]
  rw [toDays, hplace, hday]
  exact add_sub_cancel _ _

theorem yearOf_toDays (d : Date) : yearOf d.toDays = d.year := by
  have hlt := blockStart_add_lt d.day_lt
  refine yearOf_eq ?_ ?_
  · rw [toDays]
    omega
  · rw [daysBeforeYear_succ, toDays]
    omega

theorem ofDays_toDays (d : Date) : ofDays d.toDays = d := by
  have hday : yearDay d.toDays = blockStart (monthLengths d.year) d.month + d.day := by
    rw [yearDay, yearOf_toDays, toDays]
    omega
  have hplace : locate (monthLengths (yearOf d.toDays)) (yearDay d.toDays) = (d.month, d.day) := by
    rw [yearOf_toDays, hday, locate_blockStart d.day_lt]
  ext
  · exact yearOf_toDays d
  · exact congrArg Prod.fst hplace
  · exact congrArg Prod.snd hplace

end Date

end Framework.Calendar

import GovernanceCore.Framework.ByteString
import Mathlib.Data.List.Basic

/-!
# Hexadecimal texts

Bytes are written as two digits each, in lower case (`encode`); a text of digits in either case is
read back (`decode`). `mem_encode` and `exists_ne_zero_encode` say what can be seen of the bytes in
the text without reading it: all of it is lower case, and it has a digit other than `0` exactly when
a byte is not zero.
-/

namespace Framework.Hex

open Framework

/-! ### Digits -/

/-- A digit in lower case. -/
def IsLower (b : UInt8) : Prop :=
  ('0'.toNat ≤ b.toNat ∧ b.toNat ≤ '9'.toNat) ∨ ('a'.toNat ≤ b.toNat ∧ b.toNat ≤ 'f'.toNat)

/-- A digit that is a capital letter. -/
def IsUpper (b : UInt8) : Prop := 'A'.toNat ≤ b.toNat ∧ b.toNat ≤ 'F'.toNat

def IsDigit (b : UInt8) : Prop := IsLower b ∨ IsUpper b

instance (b : UInt8) : Decidable (IsLower b) := inferInstanceAs (Decidable (_ ∨ _))

instance (b : UInt8) : Decidable (IsUpper b) := inferInstanceAs (Decidable (_ ∧ _))

instance (b : UInt8) : Decidable (IsDigit b) := inferInstanceAs (Decidable (_ ∨ _))

/-- The bounds as numbers. -/
theorem isLower_iff {b : UInt8} :
    IsLower b ↔ (48 ≤ b.toNat ∧ b.toNat ≤ 57) ∨ (97 ≤ b.toNat ∧ b.toNat ≤ 102) := Iff.rfl

theorem isUpper_iff {b : UInt8} : IsUpper b ↔ 65 ≤ b.toNat ∧ b.toNat ≤ 70 := Iff.rfl

theorem IsLower.not_isUpper {b : UInt8} (h : IsLower b) : ¬ IsUpper b := by
  rw [isLower_iff] at h
  rw [isUpper_iff]
  omega

theorem IsDigit.isLower {b : UInt8} (h : IsDigit b) (hupper : ¬ IsUpper b) : IsLower b :=
  h.resolve_right hupper

theorem IsDigit.lt {b : UInt8} (h : IsDigit b) : b.toNat < 0x80 := by
  rw [IsDigit, isLower_iff, isUpper_iff] at h
  omega

/-- The digit for a value. -/
def digit (v : Nat) : UInt8 := UInt8.ofNat (if v < 10 then '0'.toNat + v else 'a'.toNat + (v - 10))

/-- The value of a digit. -/
def value (b : UInt8) : Option Nat :=
  if '0'.toNat ≤ b.toNat ∧ b.toNat ≤ '9'.toNat then some (b.toNat - '0'.toNat)
  else if 'a'.toNat ≤ b.toNat ∧ b.toNat ≤ 'f'.toNat then some (b.toNat - 'a'.toNat + 10)
  else if 'A'.toNat ≤ b.toNat ∧ b.toNat ≤ 'F'.toNat then some (b.toNat - 'A'.toNat + 10)
  else none

theorem toNat_digit {v : Nat} (h : v < 16) :
    (digit v).toNat = if v < 10 then 48 + v else 97 + (v - 10) := by
  have hsmall : (if v < 10 then '0'.toNat + v else 'a'.toNat + (v - 10)) < 256 := by
    change (if v < 10 then 48 + v else 97 + (v - 10)) < 256
    split <;> omega
  rw [digit, UInt8.toNat_ofNat', Nat.mod_eq_of_lt hsmall]
  rfl

theorem isLower_digit {v : Nat} (h : v < 16) : IsLower (digit v) := by
  rw [isLower_iff, toNat_digit h]
  split <;> omega

/-- Zero is the only value with the digit `0`. -/
theorem digit_eq_zero_iff {v : Nat} (h : v < 16) : (digit v).toNat = '0'.toNat ↔ v = 0 := by
  rw [toNat_digit h]
  change (if v < 10 then 48 + v else 97 + (v - 10)) = 48 ↔ v = 0
  split <;> omega

theorem exists_value_iff {b : UInt8} : (∃ v, value b = some v) ↔ IsDigit b := by
  unfold value IsDigit IsLower IsUpper
  split
  · next h => exact iff_of_true ⟨_, rfl⟩ (Or.inl (Or.inl h))
  split
  · next h => exact iff_of_true ⟨_, rfl⟩ (Or.inl (Or.inr h))
  split
  · next h => exact iff_of_true ⟨_, rfl⟩ (Or.inr h)
  · next h₁ h₂ h₃ =>
    refine iff_of_false (fun ⟨_, h⟩ => by cases h) ?_
    rintro ((h | h) | h)
    · exact h₁ h
    · exact h₂ h
    · exact h₃ h

theorem lt_of_value {b : UInt8} {v : Nat} (h : value b = some v) : v < 16 := by
  unfold value at h
  change (if 48 ≤ b.toNat ∧ b.toNat ≤ 57 then some (b.toNat - 48)
    else if 97 ≤ b.toNat ∧ b.toNat ≤ 102 then some (b.toNat - 97 + 10)
    else if 65 ≤ b.toNat ∧ b.toNat ≤ 70 then some (b.toNat - 65 + 10) else none) = some v at h
  split at h
  · obtain rfl := Option.some.inj h
    omega
  split at h
  · obtain rfl := Option.some.inj h
    omega
  split at h
  · obtain rfl := Option.some.inj h
    omega
  · cases h

/-! ### Writing -/

/-- `EncodeToString`. -/
def encode (bs : Bytes) : Bytes := bs.flatMap fun b => [digit (b.toNat / 16), digit (b.toNat % 16)]

@[simp] theorem length_encode (bs : Bytes) : (encode bs).length = 2 * bs.length := by
  unfold encode
  induction bs with
  | nil => rfl
  | cons b bs ih =>
    rw [List.flatMap_cons, List.length_append, ih, List.length_cons]
    change 2 + 2 * bs.length = 2 * (bs.length + 1)
    omega

theorem mem_encode_iff {bs : Bytes} {d : UInt8} :
    d ∈ encode bs ↔ ∃ b ∈ bs, d = digit (b.toNat / 16) ∨ d = digit (b.toNat % 16) := by
  simp [encode]

theorem isLower_of_mem_encode {bs : Bytes} {d : UInt8} (h : d ∈ encode bs) : IsLower d := by
  obtain ⟨b, -, rfl | rfl⟩ := mem_encode_iff.mp h
  · have hb := b.toNat_lt
    exact isLower_digit (by omega)
  · exact isLower_digit (by omega)

/-- A byte other than zero shows in one of its two digits. -/
theorem exists_ne_zero_encode {bs : Bytes} :
    (∃ d ∈ encode bs, d.toNat ≠ '0'.toNat) ↔ ∃ b ∈ bs, b ≠ 0 := by
  have hzero : ∀ b : UInt8, b = 0 ↔ b.toNat = 0 := fun b => UInt8.toNat_inj.symm
  refine ⟨fun ⟨d, hd, hne⟩ => ?_, fun ⟨b, hb, hne⟩ => ?_⟩
  · obtain ⟨b, hb, hdigit⟩ := mem_encode_iff.mp hd
    refine ⟨b, hb, fun h => hne ?_⟩
    rw [hzero] at h
    rcases hdigit with rfl | rfl
    · exact (digit_eq_zero_iff (by omega)).mpr (by omega)
    · exact (digit_eq_zero_iff (by omega)).mpr (by omega)
  · have hlt := b.toNat_lt
    rw [Ne, hzero] at hne
    -- if the high digit is zero, the low one is not
    by_cases hhigh : b.toNat / 16 = 0
    · refine ⟨_, mem_encode_iff.mpr ⟨b, hb, Or.inr rfl⟩, fun h => ?_⟩
      rw [digit_eq_zero_iff (by omega)] at h
      omega
    · refine ⟨_, mem_encode_iff.mpr ⟨b, hb, Or.inl rfl⟩, fun h => hhigh ?_⟩
      rwa [digit_eq_zero_iff (by omega)] at h

/-! ### Reading -/

inductive DecodeError where
  | invalidByte (b : UInt8)
  | oddLength
  deriving DecidableEq

/-- `DecodeString`. An invalid byte is reported before an odd length. -/
def decode : Bytes → Except DecodeError Bytes
  | [] => .ok []
  | [p] => match value p with
    | none => .error (.invalidByte p)
    | some _ => .error .oddLength
  | p :: q :: rest => match value p with
    | none => .error (.invalidByte p)
    | some a => match value q with
      | none => .error (.invalidByte q)
      | some b => (decode rest).map fun bs => UInt8.ofNat (16 * a + b) :: bs

/-- The number that a text of digits stands for. -/
def number (s : Bytes) : Nat := s.foldl (fun n d => 16 * n + (value d).getD 0) 0

theorem number_pair {p q : UInt8} {a b : Nat} (hp : value p = some a) (hq : value q = some b) :
    number [p, q] = 16 * a + b := by
  change 16 * (16 * 0 + (value p).getD 0) + (value q).getD 0 = _
  rw [hp, hq, Nat.mul_zero, Nat.zero_add, Option.getD_some, Option.getD_some]

/-- Two digits are one byte. -/
theorem decode_pair_eq_ok_iff {p q : UInt8} {bs : Bytes} :
    decode [p, q] = .ok bs ↔
      (IsDigit p ∧ IsDigit q) ∧ bs = [UInt8.ofNat (number [p, q])] := by
  rw [← exists_value_iff, ← exists_value_iff]
  unfold decode
  cases hp : value p with
  | none => exact iff_of_false (fun h => by cases h) fun ⟨⟨⟨_, h⟩, _⟩, _⟩ => by cases h
  | some a =>
    cases hq : value q with
    | none => exact iff_of_false (fun h => by cases h) fun ⟨⟨_, _, h⟩, _⟩ => by cases h
    | some b =>
      rw [number_pair hp hq]
      refine ⟨fun h => ⟨⟨⟨a, rfl⟩, b, rfl⟩, ?_⟩, fun h => ?_⟩
      · exact (Except.ok.inj h).symm
      · rw [h.2]
        rfl

theorem number_pair_lt {p q : UInt8} (hp : IsDigit p) (hq : IsDigit q) : number [p, q] < 256 := by
  obtain ⟨a, ha⟩ := exists_value_iff.mpr hp
  obtain ⟨b, hb⟩ := exists_value_iff.mpr hq
  have ha16 := lt_of_value ha
  have hb16 := lt_of_value hb
  rw [number_pair ha hb]
  omega

end Framework.Hex

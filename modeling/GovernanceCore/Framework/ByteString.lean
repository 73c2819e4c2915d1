import Mathlib.Data.List.Basic

/-!
# Texts as bytes

A text is a list of bytes that need not be valid UTF-8. Two functions look at a text as a sequence
of runes: a loop over it, which reads an invalid byte as `U+FFFD` (`runes`), and a change of every
rune, which writes the new runes back (`toLower`).

A test that only ASCII runes pass does not see the difference between runes and bytes
(`all_runes`): every byte of a longer sequence is outside ASCII, and so is the rune that the
sequence stands for.

Of the Unicode tables nothing is modelled but the facts in `Unicode`.
-/

namespace Framework

abbrev Bytes := List UInt8

/-- The bytes of a text of ASCII characters. -/
def ascii (s : String) : Bytes := s.toList.map fun c => UInt8.ofNat c.toNat

/-! ### Reading runes -/

/-- What an invalid byte is read as. -/
def runeError : Nat := 0xFFFD

def isContinuation (b : UInt8) : Bool := 0x80 ≤ b.toNat && b.toNat ≤ 0xBF

/-- The bytes that may follow a first byte. The bounds are narrower where the sequence would be
longer than needed, a surrogate, or too large. -/
def mayFollow (b₀ b₁ : UInt8) : Bool :=
  if b₀.toNat = 0xE0 then 0xA0 ≤ b₁.toNat && b₁.toNat ≤ 0xBF
  else if b₀.toNat = 0xED then 0x80 ≤ b₁.toNat && b₁.toNat ≤ 0x9F
  else if b₀.toNat = 0xF0 then 0x90 ≤ b₁.toNat && b₁.toNat ≤ 0xBF
  else if b₀.toNat = 0xF4 then 0x80 ≤ b₁.toNat && b₁.toNat ≤ 0x8F
  else isContinuation b₁

/-- The rune that begins with a byte outside ASCII, and how many further bytes it takes. -/
def decodeLong (b₀ : UInt8) (rest : Bytes) : Option (Nat × Nat) :=
  if b₀.toNat < 0xC2 ∨ 0xF4 < b₀.toNat then none
  else match rest with
  | [] => none
  | b₁ :: rest =>
    if ¬ mayFollow b₀ b₁ then none
    else if b₀.toNat < 0xE0 then some ((b₀.toNat - 0xC0) * 64 + (b₁.toNat - 0x80), 1)
    else match rest with
    | [] => none
    | b₂ :: rest =>
      if ¬ isContinuation b₂ then none
      else if b₀.toNat < 0xF0 then
        some ((b₀.toNat - 0xE0) * 4096 + (b₁.toNat - 0x80) * 64 + (b₂.toNat - 0x80), 2)
      else match rest with
      | [] => none
      | b₃ :: _ =>
        if ¬ isContinuation b₃ then none
        else some ((b₀.toNat - 0xF0) * 262144 + (b₁.toNat - 0x80) * 4096
          + (b₂.toNat - 0x80) * 64 + (b₃.toNat - 0x80), 3)

/-- The runes of a text of which the first `skip` bytes belong to a rune that was read. -/
def runesFrom : Nat → Bytes → List Nat
  | _, [] => []
  | skip + 1, _ :: rest => runesFrom skip rest
  | 0, b :: rest =>
    if b.toNat < 0x80 then b.toNat :: runesFrom 0 rest
    else match decodeLong b rest with
    | some (r, more) => r :: runesFrom more rest
    | none => runeError :: runesFrom 0 rest

def runes (s : Bytes) : List Nat := runesFrom 0 s

theorem mayFollow_of_e0 {b₀ b₁ : UInt8} (h : mayFollow b₀ b₁ = true) (h₀ : b₀.toNat = 0xE0) :
    0xA0 ≤ b₁.toNat := by
  rw [mayFollow, if_pos h₀, Bool.and_eq_true, decide_eq_true_eq] at h
  exact h.1

theorem mayFollow_of_f0 {b₀ b₁ : UInt8} (h : mayFollow b₀ b₁ = true) (h₀ : b₀.toNat = 0xF0) :
    0x90 ≤ b₁.toNat := by
  rw [mayFollow, if_neg (by omega), if_neg (by omega), if_pos h₀, Bool.and_eq_true,
    decide_eq_true_eq] at h
  exact h.1

/-- A longer sequence never stands for an ASCII rune. -/
theorem le_of_decodeLong {b₀ : UInt8} {rest : Bytes} {r more : Nat}
    (h : decodeLong b₀ rest = some (r, more)) : 0x80 ≤ r := by
  unfold decodeLong at h
  split at h
  · cases h
  split at h
  · cases h
  next b₁ rest =>
  split at h
  · cases h
  next hfollow =>
  rw [not_not] at hfollow
  -- the leads E0 and F0 could begin an overlong sequence; the byte after them rules that out
  have he0 := mayFollow_of_e0 hfollow
  have hf0 := mayFollow_of_f0 hfollow
  split at h
  · obtain ⟨rfl, -⟩ := Prod.mk.inj (Option.some.inj h)
    omega
  split at h
  · cases h
  next b₂ rest =>
  split at h
  · cases h
  split at h
  · obtain ⟨rfl, -⟩ := Prod.mk.inj (Option.some.inj h)
    omega
  split at h
  · cases h
  next b₃ rest =>
  split at h
  · cases h
  · obtain ⟨rfl, -⟩ := Prod.mk.inj (Option.some.inj h)
    omega

/-- **A test that only ASCII runes pass can be made on the bytes.** -/
theorem all_runes {p : Nat → Bool} (hp : ∀ r, p r = true → r < 0x80) (s : Bytes) :
    (runes s).all p = s.all fun b => p b.toNat := by
  have hfalse : ∀ r, 0x80 ≤ r → p r = false := by
    intro r hr
    rw [Bool.eq_false_iff]
    intro h
    exact absurd (hp r h) (by omega)
  unfold runes
  induction s with
  | nil => rfl
  | cons b rest ih =>
    rw [List.all_cons, runesFrom]
    by_cases hb : b.toNat < 0x80
    · rw [if_pos hb, List.all_cons, ih]
    -- both tests fail here, and what is left of the text does not matter
    rw [if_neg hb, hfalse b.toNat (by omega), Bool.false_and]
    cases hlong : decodeLong b rest with
    | none => rw [List.all_cons, hfalse runeError (by decide), Bool.false_and]
    | some rm => rw [List.all_cons, hfalse rm.1 (le_of_decodeLong hlong), Bool.false_and]

/-! ### Writing runes -/

/-- The bytes of a rune; `U+FFFD` for a number that is none. -/
def encodeRune (r : Nat) : Bytes :=
  if r < 0x80 then [UInt8.ofNat r]
  else if r < 0x800 then [UInt8.ofNat (0xC0 + r / 64), UInt8.ofNat (0x80 + r % 64)]
  else if 0x10FFFF < r ∨ (0xD800 ≤ r ∧ r ≤ 0xDFFF) then [0xEF, 0xBF, 0xBD]
  else if r < 0x10000 then
    [UInt8.ofNat (0xE0 + r / 4096), UInt8.ofNat (0x80 + r / 64 % 64), UInt8.ofNat (0x80 + r % 64)]
  else
    [UInt8.ofNat (0xF0 + r / 262144), UInt8.ofNat (0x80 + r / 4096 % 64),
      UInt8.ofNat (0x80 + r / 64 % 64), UInt8.ofNat (0x80 + r % 64)]

/-- A byte of ASCII is written for an ASCII rune only, which it is. -/
theorem toNat_of_mem_encodeRune {r : Nat} {b : UInt8} (h : b ∈ encodeRune r) (hb : b.toNat < 0x80) :
    b.toNat = r := by
  have hofNat : ∀ n : Nat, (UInt8.ofNat n).toNat = n % 256 := fun n => UInt8.toNat_ofNat'
  unfold encodeRune at h
  split at h
  · obtain rfl := List.mem_singleton.mp h
    rw [hofNat]
    omega
  -- every other byte that is written has its highest bit set
  exfalso
  split at h
  · simp only [List.mem_cons, List.not_mem_nil, or_false] at h
    rcases h with rfl | rfl <;> rw [hofNat] at hb <;> omega
  split at h
  · simp only [List.mem_cons, List.not_mem_nil, or_false] at h
    rcases h with rfl | rfl | rfl <;> exact absurd hb (by decide)
  split at h
  · simp only [List.mem_cons, List.not_mem_nil, or_false] at h
    rcases h with rfl | rfl | rfl <;> rw [hofNat] at hb <;> omega
  · simp only [List.mem_cons, List.not_mem_nil, or_false] at h
    rcases h with rfl | rfl | rfl | rfl <;> rw [hofNat] at hb <;> omega

/-! ### Lower case -/

/-- A capital letter of ASCII. -/
def IsCapital (r : Nat) : Prop := 'A'.toNat ≤ r ∧ r ≤ 'Z'.toNat

instance (r : Nat) : Decidable (IsCapital r) := inferInstanceAs (Decidable (_ ∧ _))

/-- What comes from the Unicode tables: the lower case of a rune outside ASCII, which is never a
capital letter of ASCII; how a text is quoted (`%q`) and how a rune is described (`%#U`), which
depends on the runes that can be printed. -/
structure Unicode where
  lower : Nat → Nat
  lower_not_capital : ∀ r, 0x80 ≤ r → ¬ IsCapital (lower r)
  quote : Bytes → String
  describe : Nat → String

/-- Tables that leave every rune outside ASCII as it is, and quote nothing. -/
instance : Inhabited Unicode where
  default :=
    { lower := id
      lower_not_capital := fun r hr hcap => absurd hcap.2 (by change ¬ r ≤ 90; omega)
      quote := fun _ => ""
      describe := fun _ => "" }

def lowerASCII (r : Nat) : Nat := if IsCapital r then r + 32 else r

theorem lowerASCII_not_capital (r : Nat) : ¬ IsCapital (lowerASCII r) := by
  unfold lowerASCII
  split
  · next h =>
    have hlow : 65 ≤ r := h.1
    intro hcap
    have hhigh : r + 32 ≤ 90 := hcap.2
    omega
  · next h => exact h

namespace Unicode

variable (u : Unicode)

def toLowerRune (r : Nat) : Nat := if r < 0x80 then lowerASCII r else u.lower r

/-- The text in lower case. A text of ASCII is changed byte by byte; any other text rune by rune,
and its invalid bytes do not survive. -/
def toLower (s : Bytes) : Bytes :=
  if s.all fun b => b.toNat < 0x80 then s.map fun b => UInt8.ofNat (lowerASCII b.toNat)
  else (runes s).flatMap fun r => encodeRune (u.toLowerRune r)

theorem toLower_of_ascii {s : Bytes} (h : ∀ b ∈ s, b.toNat < 0x80) :
    u.toLower s = s.map fun b => UInt8.ofNat (lowerASCII b.toNat) :=
  if_pos (List.all_eq_true.mpr fun b hb => decide_eq_true (h b hb))

/-- **No capital letter is left.** -/
theorem not_capital_of_mem_toLower {s : Bytes} {b : UInt8} (h : b ∈ u.toLower s) :
    ¬ IsCapital b.toNat := by
  unfold toLower at h
  split at h
  · next hascii =>
    obtain ⟨c, hc, rfl⟩ := List.mem_map.mp h
    have hlt : c.toNat < 0x80 := of_decide_eq_true (List.all_eq_true.mp hascii c hc)
    have hsmall : lowerASCII c.toNat < 256 := by
      unfold lowerASCII
      split <;> omega
    rw [UInt8.toNat_ofNat', Nat.mod_eq_of_lt hsmall]
    exact lowerASCII_not_capital c.toNat
  · -- a capital would be an ASCII byte, and such a byte is the whole encoding of its rune
    intro hcap
    obtain ⟨r, -, hr⟩ := List.mem_flatMap.mp h
    have hlt : b.toNat < 0x80 := Nat.lt_of_le_of_lt hcap.2 (by decide)
    rw [toNat_of_mem_encodeRune hr hlt] at hcap
    unfold toLowerRune at hcap
    split at hcap
    · exact lowerASCII_not_capital r hcap
    · next hr => exact u.lower_not_capital r (by omega) hcap

end Unicode

end Framework

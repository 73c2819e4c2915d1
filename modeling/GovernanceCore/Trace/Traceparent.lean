import GovernanceCore.Domain.Shared
import GovernanceCore.Framework.Hex

/-!
# The traceparent header

The value object of `internal/domain/trace`: a trace is written as a header `00-T-S-F` and read back
from one. Header values are byte strings of which nothing is known, so every function here is total
on `Bytes`.

`Traceparent digit h T S F` is the grammar, with the digits that the two identifiers may have as a
parameter. `parse_eq_ok_iff` says that `Parse` accepts the grammar with digits in **either** case,
and returns the identifiers in lower case. Its comment promises the grammar with digits in lower
case only; `parse_documented_iff` says for which headers the two are the same.
-/

namespace Governance

open Framework

/-- `Trace`. -/
structure Trace where
  traceID : Bytes
  spanID : Bytes
  sampled : Bool
  deriving DecidableEq

namespace Trace

/-! ### The source -/

def dash : UInt8 := UInt8.ofNat '-'.toNat

def errInvalidTraceparent : Err := .new "trace: invalid traceparent header"

def isHexRune (c : Nat) : Bool :=
  ('0'.toNat ≤ c && c ≤ '9'.toNat) || ('a'.toNat ≤ c && c ≤ 'f'.toNat)
    || ('A'.toNat ≤ c && c ≤ 'F'.toNat)

/-- `isHex`: a loop over the runes. -/
def isHex (s : Bytes) : Bool := (runes s).all isHexRune && decide (0 < s.length)

/-- `allZeros`: a loop over the runes. -/
def allZeros (s : Bytes) : Bool := (runes s).all fun c => c = '0'.toNat

/-- `validateHex`. -/
def validateHex (s : Bytes) (expectedLen : Nat) (field : String) : Except Err Unit :=
  if s.length ≠ expectedLen then
    .error (errInvalidTraceparent.detail (field ++ " must be " ++ toString expectedLen
      ++ " hex chars, got " ++ toString s.length))
  else if isHex s = false then
    .error (errInvalidTraceparent.detail (field ++ " contains non-hex characters"))
  else .ok ()

/-- An `if` that returns an error. -/
def reject (cond : Bool) (err : Err) : Except Err Unit := if cond then .error err else .ok ()

section Unicode

variable (u : Unicode)

/-- The text of an error of `hex.DecodeString`. -/
def decodeErrorText : Hex.DecodeError → String
  | .invalidByte b => "encoding/hex: invalid byte: " ++ u.describe b.toNat
  | .oddLength => "encoding/hex: odd length hex string"

/-- `Parse`. -/
def parse (traceparent : Bytes) : Except Err Trace :=
  match traceparent.splitOn dash with
  | [version, traceID, spanID, flags] => do
    reject (version ≠ ascii "00")
      (errInvalidTraceparent.detail ("unsupported version " ++ u.quote version))
    validateHex traceID 32 "trace_id"
    reject (allZeros traceID) (errInvalidTraceparent.detail "trace_id must not be all zeros")
    validateHex spanID 16 "span_id"
    reject (allZeros spanID) (errInvalidTraceparent.detail "span_id must not be all zeros")
    reject (flags.length ≠ 2) (errInvalidTraceparent.detail "flags must be 2 hex chars")
    match Hex.decode flags with
    | .error err =>
      .error (errInvalidTraceparent.detail ("flags not valid hex: " ++ decodeErrorText u err))
    | .ok flagBytes =>
      return ⟨u.toLower traceID, u.toLower spanID, (flagBytes.headD 0 &&& 1) ≠ 0⟩
  | parts => .error (errInvalidTraceparent.detail
      ("expected 4 segments, got " ++ toString parts.length))

/-- `String`. -/
def string (t : Trace) : Bytes :=
  ascii "00-" ++ t.traceID ++ ascii "-" ++ t.spanID ++ ascii "-"
    ++ if t.sampled then ascii "01" else ascii "00"

/-- The loop of `normaliseRequestID` over the bytes that are left, from index `i` on. -/
def xorSpread : Nat → Bytes → Bytes → Bytes
  | _, out, [] => out
  | i, out, b :: rest => xorSpread (i + 1) (out.modify (i % 16) (· ^^^ b)) rest

/-- The bytes of the fallback of `normaliseRequestID`. -/
def spreadBytes (id : Bytes) : Bytes :=
  let out := xorSpread 0 (List.replicate 16 0) id
  if allZeros (Hex.encode out) then out.set 15 1 else out

/-- `normaliseRequestID`. -/
def normaliseRequestID (id : Bytes) : Bytes :=
  let stripped := u.toLower (id.filter (· ≠ dash))
  if stripped.length = 32 ∧ isHex stripped ∧ ¬ allZeros stripped then stripped
  else Hex.encode (spreadBytes id)

end Unicode

/-! ### The tests on texts -/

theorem isHex_eq_true_iff {s : Bytes} : isHex s = true ↔ (∀ b ∈ s, Hex.IsDigit b) ∧ s ≠ [] := by
  have hrune : ∀ c : Nat, isHexRune c = true ↔
      ((48 ≤ c ∧ c ≤ 57) ∨ (97 ≤ c ∧ c ≤ 102)) ∨ (65 ≤ c ∧ c ≤ 70) := by
    intro c
    change ((decide (48 ≤ c) && decide (c ≤ 57)) || (decide (97 ≤ c) && decide (c ≤ 102))
      || (decide (65 ≤ c) && decide (c ≤ 70))) = true ↔ _
    simp only [Bool.or_eq_true, Bool.and_eq_true, decide_eq_true_eq]
  have hall : (runes s).all isHexRune = s.all fun b => isHexRune b.toNat := by
    refine all_runes (fun r hr => ?_) s
    rw [hrune] at hr
    omega
  rw [isHex, Bool.and_eq_true, decide_eq_true_eq, List.length_pos_iff, hall, List.all_eq_true]
  exact and_congr_left fun _ => forall₂_congr fun b _ => hrune b.toNat

theorem allZeros_eq_true_iff {s : Bytes} :
    allZeros s = true ↔ ∀ b ∈ s, b.toNat = '0'.toNat := by
  have hall : allZeros s = s.all fun b => decide (b.toNat = '0'.toNat) := by
    refine all_runes (fun r hr => ?_) s
    rw [of_decide_eq_true hr]
    decide
  rw [hall, List.all_eq_true]
  exact forall₂_congr fun b _ => decide_eq_true_iff

/-- An identifier of `n` digits that are not all `0`. -/
structure IDText (digit : UInt8 → Prop) (n : Nat) (s : Bytes) : Prop where
  length_eq : s.length = n
  digits : ∀ b ∈ s, digit b
  nonzero : ∃ b ∈ s, b.toNat ≠ '0'.toNat

theorem IDText.mono {digit digit' : UInt8 → Prop} (h : ∀ b, digit b → digit' b) {n : Nat}
    {s : Bytes} (hs : IDText digit n s) : IDText digit' n s :=
  ⟨hs.length_eq, fun b hb => h b (hs.digits b hb), hs.nonzero⟩

theorem not_allZeros_iff {s : Bytes} : ¬ allZeros s = true ↔ ∃ b ∈ s, b.toNat ≠ '0'.toNat := by
  rw [allZeros_eq_true_iff]
  push Not
  rfl

/-- The three tests that `Parse` makes on an identifier. -/
theorem idText_iff {n : Nat} (hn : 0 < n) {s : Bytes} : IDText Hex.IsDigit n s ↔
    (s.length = n ∧ isHex s = true) ∧ ¬ allZeros s = true := by
  rw [isHex_eq_true_iff, not_allZeros_iff]
  refine ⟨fun h => ⟨⟨h.length_eq, h.digits, ?_⟩, h.nonzero⟩, fun h => ⟨h.1.1, h.1.2.1, h.2⟩⟩
  intro hnil
  have hlen := h.length_eq
  rw [hnil, List.length_nil] at hlen
  omega

theorem validateHex_eq_ok_iff {s : Bytes} {n : Nat} {field : String} {a : Unit} :
    validateHex s n field = .ok a ↔ s.length = n ∧ isHex s = true := by
  unfold validateHex
  by_cases hlen : s.length = n
  · rw [if_neg (not_not.mpr hlen)]
    cases hhex : isHex s with
    | false => exact iff_of_false (fun h => by cases h) fun h => by cases h.2
    | true => exact iff_of_true rfl ⟨hlen, rfl⟩
  · rw [if_pos hlen]
    exact iff_of_false (fun h => by cases h) fun h => hlen h.1

/-! ### Splitting at the dashes -/

/-- **The grammar**: the header is `00-T-S-F`, with the digits of the identifiers as a parameter. -/
structure Traceparent (digit : UInt8 → Prop) (h traceID spanID flags : Bytes) : Prop where
  header : h = ascii "00-" ++ traceID ++ ascii "-" ++ spanID ++ ascii "-" ++ flags
  traceID : IDText digit 32 traceID
  spanID : IDText digit 16 spanID
  flags_length : flags.length = 2
  flags_digits : ∀ b ∈ flags, Hex.IsDigit b

theorem dash_not_mem {s : Bytes} (h : ∀ b ∈ s, Hex.IsDigit b) : dash ∉ s := by
  intro hmem
  exact absurd (h dash hmem) (by decide)

theorem intercalate_parts (v T S F : Bytes) :
    [dash].intercalate [v, T, S, F] = v ++ [dash] ++ T ++ [dash] ++ S ++ [dash] ++ F := by
  simp [List.intercalate]

theorem header_eq (T S F : Bytes) : ascii "00-" ++ T ++ ascii "-" ++ S ++ ascii "-" ++ F
    = [dash].intercalate [ascii "00", T, S, F] := by
  have hversion : ascii "00-" = ascii "00" ++ [dash] := by decide
  have hdash : ascii "-" = [dash] := by decide
  rw [intercalate_parts, hversion, hdash]

/-- Digits have no dashes, so the parts of a header can be told. -/
theorem splitOn_header_iff {h T S F : Bytes} (hT : ∀ b ∈ T, Hex.IsDigit b)
    (hS : ∀ b ∈ S, Hex.IsDigit b) (hF : ∀ b ∈ F, Hex.IsDigit b) :
    h.splitOn dash = [ascii "00", T, S, F] ↔
      h = ascii "00-" ++ T ++ ascii "-" ++ S ++ ascii "-" ++ F := by
  rw [header_eq]
  refine ⟨fun hsplit => ?_, fun hh => ?_⟩
  · rw [← hsplit, List.intercalate_splitOn]
  · rw [hh]
    refine List.splitOn_intercalate dash (fun part hpart => ?_) (List.cons_ne_nil _ _)
    simp only [List.mem_cons, List.not_mem_nil, or_false] at hpart
    rcases hpart with rfl | rfl | rfl | rfl
    · decide
    · exact dash_not_mem hT
    · exact dash_not_mem hS
    · exact dash_not_mem hF

theorem Traceparent.splitOn_eq {h T S F : Bytes} (hh : Traceparent Hex.IsDigit h T S F) :
    h.splitOn dash = [ascii "00", T, S, F] :=
  (splitOn_header_iff hh.traceID.digits hh.spanID.digits hh.flags_digits).mpr hh.header

theorem Traceparent.mono {digit digit' : UInt8 → Prop} (hdigit : ∀ b, digit b → digit' b)
    {h T S F : Bytes} (hh : Traceparent digit h T S F) : Traceparent digit' h T S F :=
  ⟨hh.header, hh.traceID.mono hdigit, hh.spanID.mono hdigit, hh.flags_length, hh.flags_digits⟩

/-- A header is of the grammar in one way only. -/
theorem Traceparent.unique {h T S F T' S' F' : Bytes} (hh : Traceparent Hex.IsDigit h T S F)
    (hh' : Traceparent Hex.IsDigit h T' S' F') : T = T' ∧ S = S' ∧ F = F' := by
  have heq := hh.splitOn_eq.symm.trans hh'.splitOn_eq
  simpa using heq

/-! ### What is accepted -/

/-- Bit 0 of the flags. -/
def flagBit (flags : Bytes) : Bool := (Hex.number flags).testBit 0

theorem low_bit_ofNat {n : Nat} (h : n < 256) :
    decide ((UInt8.ofNat n &&& 1) ≠ 0) = n.testBit 0 := by
  have hand : (UInt8.ofNat n &&& 1).toNat = n % 2 := by
    rw [UInt8.toNat_and, UInt8.toNat_ofNat', Nat.mod_eq_of_lt h]
    exact Nat.and_one_is_mod n
  have hzero : (UInt8.ofNat n &&& 1) = 0 ↔ n % 2 = 0 := by
    rw [← UInt8.toNat_inj, hand]
    rfl
  rw [Nat.testBit_zero, decide_eq_decide, Ne, hzero]
  omega

/-- The flags that can be decoded, and their lowest bit. -/
theorem decode_flags_iff {flags : Bytes} {bs : Bytes} (hlen : flags.length = 2) :
    Hex.decode flags = .ok bs ↔
      (∀ b ∈ flags, Hex.IsDigit b) ∧ bs = [UInt8.ofNat (Hex.number flags)] := by
  obtain ⟨p, q, rfl⟩ := List.length_eq_two.mp hlen
  rw [Hex.decode_pair_eq_ok_iff]
  simp

theorem flagBit_of_decode {flags : Bytes} (hlen : flags.length = 2)
    (hdigits : ∀ b ∈ flags, Hex.IsDigit b) :
    decide (([UInt8.ofNat (Hex.number flags)].headD 0 &&& 1) ≠ 0) = flagBit flags := by
  obtain ⟨p, q, rfl⟩ := List.length_eq_two.mp hlen
  exact low_bit_ofNat (Hex.number_pair_lt (hdigits p (by simp)) (hdigits q (by simp)))

theorem reject_bind_eq_ok_iff {α : Type} {cond : Bool} {err : Err} {f : Unit → Except Err α}
    {a : α} : (reject cond err >>= f) = .ok a ↔ ¬ cond = true ∧ f () = .ok a := by
  unfold reject
  by_cases h : cond = true
  · rw [if_pos h]
    exact iff_of_false (fun h => by cases h) fun hc => hc.1 h
  · rw [if_neg h]
    exact ⟨fun hf => ⟨h, hf⟩, And.right⟩

theorem validateHex_bind_eq_ok_iff {α : Type} {s : Bytes} {n : Nat} {field : String}
    {f : Unit → Except Err α} {a : α} :
    (validateHex s n field >>= f) = .ok a ↔ (s.length = n ∧ isHex s = true) ∧ f () = .ok a := by
  rw [← @validateHex_eq_ok_iff s n field ()]
  cases validateHex s n field with
  | error e => exact iff_of_false (fun h => by cases h) fun h => by cases h.1
  | ok x => exact ⟨fun h => ⟨rfl, h⟩, And.right⟩

variable (u : Unicode)

/-- **What `Parse` accepts**: the grammar with digits in either case. -/
theorem parse_eq_ok_iff {h : Bytes} {t : Trace} : parse u h = .ok t ↔
    ∃ T S F, Traceparent Hex.IsDigit h T S F ∧ t = ⟨u.toLower T, u.toLower S, flagBit F⟩ := by
  refine ⟨fun hparse => ?_, ?_⟩
  · unfold parse at hparse
    split at hparse
    · next v T S F hsplit =>
      -- every check has passed, in the order of the source
      simp only [reject_bind_eq_ok_iff, validateHex_bind_eq_ok_iff, decide_eq_true_eq,
        not_not] at hparse
      obtain ⟨rfl, hT, hTzero, hS, hSzero, hlen, hdecode⟩ := hparse
      cases hbytes : Hex.decode F with
      | error e =>
        rw [hbytes] at hdecode
        cases hdecode
      | ok bs =>
        rw [hbytes] at hdecode
        obtain ⟨hF, rfl⟩ := (decode_flags_iff hlen).mp hbytes
        have hT' := (idText_iff (by decide)).mpr ⟨hT, hTzero⟩
        have hS' := (idText_iff (by decide)).mpr ⟨hS, hSzero⟩
        refine ⟨T, S, F, ⟨(splitOn_header_iff hT'.digits hS'.digits hF).mp hsplit, hT', hS', hlen,
          hF⟩, ?_⟩
        rw [← flagBit_of_decode hlen hF]
        exact (Except.ok.inj hdecode).symm
    · cases hparse
  · rintro ⟨T, S, F, hh, rfl⟩
    obtain ⟨hT, hTzero⟩ := (idText_iff (by decide)).mp hh.traceID
    obtain ⟨hS, hSzero⟩ := (idText_iff (by decide)).mp hh.spanID
    have hdecode := (decode_flags_iff hh.flags_length).mpr ⟨hh.flags_digits, rfl⟩
    unfold parse
    rw [hh.splitOn_eq]
    simp only [reject_bind_eq_ok_iff, validateHex_bind_eq_ok_iff, decide_eq_true_eq, not_not]
    refine ⟨trivial, hT, hTzero, hS, hSzero, hh.flags_length, ?_⟩
    rw [hdecode, ← flagBit_of_decode hh.flags_length hh.flags_digits]
    rfl

/-! ### Lower case -/

theorem not_isCapital_of_isLower {b : UInt8} (h : Hex.IsLower b) : ¬ IsCapital b.toNat := by
  have hlower := Hex.isLower_iff.mp h
  change ¬ (65 ≤ b.toNat ∧ b.toNat ≤ 90)
  omega

/-- Digits in lower case stay as they are. -/
theorem toLower_of_isLower {s : Bytes} (h : ∀ b ∈ s, Hex.IsLower b) : u.toLower s = s := by
  rw [u.toLower_of_ascii fun b hb => Hex.IsDigit.lt (Or.inl (h b hb))]
  refine (List.map_congr_left fun b hb => ?_).trans (List.map_id s)
  rw [lowerASCII, if_neg (not_isCapital_of_isLower (h b hb)), UInt8.ofNat_toNat]
  rfl

/-- A digit in either case becomes one in lower case, and `0` is the only one that becomes `0`. -/
theorem lowerASCII_digit {b : UInt8} (h : Hex.IsDigit b) :
    Hex.IsLower (UInt8.ofNat (lowerASCII b.toNat)) ∧
      ((UInt8.ofNat (lowerASCII b.toNat)).toNat = '0'.toNat → b.toNat = '0'.toNat) := by
  have hlt := h.lt
  rw [Hex.isLower_iff, UInt8.toNat_ofNat']
  change _ ∧ (lowerASCII b.toNat % 256 = 48 → b.toNat = 48)
  unfold lowerASCII
  rcases h with h | h
  · have hlower := Hex.isLower_iff.mp h
    rw [if_neg (not_isCapital_of_isLower h)]
    omega
  · have hupper := Hex.isUpper_iff.mp h
    have hcap : IsCapital b.toNat := by
      change 65 ≤ b.toNat ∧ b.toNat ≤ 90
      omega
    rw [if_pos hcap]
    omega

theorem IDText.toLower {n : Nat} {s : Bytes} (h : IDText Hex.IsDigit n s) :
    IDText Hex.IsLower n (u.toLower s) := by
  have heq := u.toLower_of_ascii fun b hb => (h.digits b hb).lt
  refine ⟨?_, fun b hb => ?_, ?_⟩
  · rw [heq, List.length_map, h.length_eq]
  · rw [heq] at hb
    obtain ⟨c, hc, rfl⟩ := List.mem_map.mp hb
    exact (lowerASCII_digit (h.digits c hc)).1
  · obtain ⟨b, hb, hne⟩ := h.nonzero
    rw [heq]
    refine ⟨_, List.mem_map_of_mem hb, fun hzero => hne ?_⟩
    exact (lowerASCII_digit (h.digits b hb)).2 hzero

/-! ### Valid traces -/

/-- What the comments on the fields of `Trace` promise, and more: neither identifier is zero. -/
structure Valid (t : Trace) : Prop where
  traceID : IDText Hex.IsLower 32 t.traceID
  spanID : IDText Hex.IsLower 16 t.spanID

/-- Only valid traces are read. -/
theorem valid_of_parse {h : Bytes} {t : Trace} (hparse : parse u h = .ok t) : t.Valid := by
  obtain ⟨T, S, F, hh, rfl⟩ := (parse_eq_ok_iff u).mp hparse
  exact ⟨hh.traceID.toLower u, hh.spanID.toLower u⟩

theorem traceparent_string {t : Trace} (ht : t.Valid) :
    Traceparent Hex.IsLower t.string t.traceID t.spanID
      (if t.sampled then ascii "01" else ascii "00") := by
  refine ⟨rfl, ht.traceID, ht.spanID, ?_, ?_⟩
  · cases t.sampled <;> rfl
  · cases t.sampled <;> decide +kernel

/-- **Round trip**: exactly the valid traces are read back from what is written for them. -/
theorem parse_string_iff {t : Trace} : parse u t.string = .ok t ↔ t.Valid := by
  refine ⟨valid_of_parse u, fun ht => (parse_eq_ok_iff u).mpr ?_⟩
  refine ⟨_, _, _, (traceparent_string ht).mono fun b => Or.inl, ?_⟩
  rw [toLower_of_isLower u ht.traceID.digits, toLower_of_isLower u ht.spanID.digits]
  have hbit : flagBit (if t.sampled then ascii "01" else ascii "00") = t.sampled := by
    cases t.sampled <;> decide
  rw [hbit]

/-! ### The documented grammar -/

/-- `h` has a capital letter in one of its identifiers, and is of the grammar otherwise. -/
def SpelledWithCapitals (h : Bytes) : Prop :=
  ∃ T S F, Traceparent Hex.IsDigit h T S F ∧
    ((∃ b ∈ T, Hex.IsUpper b) ∨ ∃ b ∈ S, Hex.IsUpper b)

/-- **When `Parse` keeps to its comment.** The documented grammar, with its identifiers as they
stand and bit 0 of the flags, is what `Parse` accepts and returns for every header but those with a
capital letter in an identifier. -/
theorem parse_documented_iff (h : Bytes) :
    (∀ t, parse u h = .ok t ↔
        ∃ T S F, Traceparent Hex.IsLower h T S F ∧ t = ⟨T, S, flagBit F⟩) ↔
      ¬ SpelledWithCapitals h := by
  refine ⟨fun hdoc => ?_, fun hcap t => ?_⟩
  · rintro ⟨T, S, F, hh, hupper⟩
    obtain ⟨T', S', F', hh', -⟩ := (hdoc _).mp ((parse_eq_ok_iff u).mpr ⟨T, S, F, hh, rfl⟩)
    -- the documented spelling is the only one, so the capital letter is a lower-case digit
    obtain ⟨rfl, rfl, -⟩ := hh.unique (hh'.mono fun b => Or.inl)
    rcases hupper with ⟨b, hb, hup⟩ | ⟨b, hb, hup⟩
    · exact (hh'.traceID.digits b hb).not_isUpper hup
    · exact (hh'.spanID.digits b hb).not_isUpper hup
  · rw [parse_eq_ok_iff]
    refine exists_congr fun T => exists_congr fun S => exists_congr fun F => ?_
    refine ⟨fun ⟨hh, ht⟩ => ?_, fun ⟨hh, ht⟩ => ⟨hh.mono fun b => Or.inl, ?_⟩⟩
    · have hT : ∀ b ∈ T, Hex.IsLower b := fun b hb => (hh.traceID.digits b hb).isLower fun hup =>
        hcap ⟨T, S, F, hh, Or.inl ⟨b, hb, hup⟩⟩
      have hS : ∀ b ∈ S, Hex.IsLower b := fun b hb => (hh.spanID.digits b hb).isLower fun hup =>
        hcap ⟨T, S, F, hh, Or.inr ⟨b, hb, hup⟩⟩
      rw [ht, toLower_of_isLower u hT, toLower_of_isLower u hS]
      exact ⟨⟨hh.header, ⟨hh.traceID.length_eq, hT, hh.traceID.nonzero⟩,
        ⟨hh.spanID.length_eq, hS, hh.spanID.nonzero⟩, hh.flags_length, hh.flags_digits⟩, rfl⟩
    · rw [ht, toLower_of_isLower u hh.traceID.digits, toLower_of_isLower u hh.spanID.digits]

/-- A trace id in capitals is accepted, and returned in lower case. -/
theorem parse_capitals :
    parse default (ascii "00-4BF92F3577B34DA6A3CE929D0E0E4736-00f067aa0ba902b7-01")
        = .ok ⟨ascii "4bf92f3577b34da6a3ce929d0e0e4736", ascii "00f067aa0ba902b7", true⟩ ∧
      ¬ ∃ T S F, Traceparent Hex.IsLower
        (ascii "00-4BF92F3577B34DA6A3CE929D0E0E4736-00f067aa0ba902b7-01") T S F := by
  refine ⟨by decide +kernel, ?_⟩
  rintro ⟨T, S, F, hh⟩
  have hsplit := (hh.mono fun b => Or.inl).splitOn_eq
  have hparts : (ascii "00-4BF92F3577B34DA6A3CE929D0E0E4736-00f067aa0ba902b7-01").splitOn dash
      = [ascii "00", ascii "4BF92F3577B34DA6A3CE929D0E0E4736", ascii "00f067aa0ba902b7",
        ascii "01"] := by decide +kernel
  rw [hparts] at hsplit
  simp only [List.cons.injEq, and_true] at hsplit
  have hB : UInt8.ofNat 'B'.toNat ∈ T := by
    rw [← hsplit.2.1]
    decide
  exact absurd (hh.traceID.digits _ hB) (by decide)

/-! ### Identifiers from a request -/

@[simp] theorem length_xorSpread (i : Nat) (out id : Bytes) :
    (xorSpread i out id).length = out.length := by
  induction id generalizing i out with
  | nil => rfl
  | cons b rest ih => rw [xorSpread, ih, List.length_modify]

theorem length_spreadBytes (id : Bytes) : (spreadBytes id).length = 16 := by
  have hlen : (xorSpread 0 (List.replicate 16 0) id).length = 16 := by
    rw [length_xorSpread, List.length_replicate]
  unfold spreadBytes
  dsimp only
  split
  · rw [List.length_set, hlen]
  · exact hlen

/-- The last byte is set when all bytes cancel out. -/
theorem spreadBytes_ne_zero (id : Bytes) : ∃ b ∈ spreadBytes id, b ≠ 0 := by
  unfold spreadBytes
  dsimp only
  split
  · have hlast : 15 < (xorSpread 0 (List.replicate 16 0) id).length := by
      rw [length_xorSpread, List.length_replicate]
      decide
    exact ⟨1, List.mem_set hlast 1, by decide⟩
  · next h => exact Hex.exists_ne_zero_encode.mp (not_allZeros_iff.mp h)

theorem idText_encode {bs : Bytes} {n : Nat} (hlen : bs.length = n) (hne : ∃ b ∈ bs, b ≠ 0) :
    IDText Hex.IsLower (2 * n) (Hex.encode bs) :=
  ⟨by rw [Hex.length_encode, hlen], fun _ => Hex.isLower_of_mem_encode,
    Hex.exists_ne_zero_encode.mpr hne⟩

/-- **Every request id gives a valid trace id**: 32 digits in lower case, not all `0`. -/
theorem idText_normaliseRequestID (id : Bytes) :
    IDText Hex.IsLower 32 (normaliseRequestID u id) := by
  unfold normaliseRequestID
  dsimp only
  split
  · next h =>
    obtain ⟨hlen, hhex, hzero⟩ := h
    obtain ⟨-, hdigits, hne⟩ := (idText_iff (by decide)).mpr ⟨⟨hlen, hhex⟩, hzero⟩
    refine ⟨hlen, fun b hb => (hdigits b hb).isLower fun hup => ?_, hne⟩
    -- `ToLower` leaves no capital letter, not even for runes outside ASCII
    have hupper := Hex.isUpper_iff.mp hup
    refine u.not_capital_of_mem_toLower hb ?_
    change 65 ≤ b.toNat ∧ b.toNat ≤ 90
    omega
  · exact idText_encode (length_spreadBytes id) (spreadBytes_ne_zero id)

end Trace

end Governance

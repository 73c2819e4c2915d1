import GovernanceCore.Framework.Calendar
import GovernanceCore.Framework.Positional
import Mathlib.Data.List.DropRight

/-!
# Times as RFC 3339 texts

The texts of the layout `2006-01-02T15:04:05.999999999Z07:00`: a date, a time of day with as many
digits of a second as it takes, and the offset of the zone in whole minutes. `format` writes a
moment at the offset of its zone; `parse` is as lenient as Go's `time.Parse` is: it takes an hour of
one digit, a comma before the fraction, any number of its digits, and offsets up to `24:60`.

The offset is written without its seconds. So a text denotes the moment it was written for if the
offset has none, and otherwise one that is off by them (`parse_format`, `Moment.settled`).

A reader takes a text off the front of its input. `Reads` says that it takes exactly that text,
whatever follows, and a sequence of readers is verified text by text (`Reads.bind`). `Yields` says
what holds of every value that it returns, whatever the input (`Yields.bind`); with it, a moment
that was read from any text can be written and read again (`writable_of_parse`).
-/

namespace Framework

/-! ### Readers -/

/-- A reader of a text: the value, and what is left of the input. -/
abbrev Reader := StateT (List Char) Option

/-- The reader takes exactly this text off its input, whatever follows. -/
def Reads {α : Type} (p : Reader α) (text : List Char) (a : α) : Prop :=
  ∀ rest, p (text ++ rest) = some (a, rest)

/-- Every value of the reader has the property. -/
def Yields {α : Type} (p : Reader α) (Q : α → Prop) : Prop :=
  ∀ s a rest, p s = some (a, rest) → Q a

namespace Reader

/-- One character. -/
def expect (c : Char) : Reader Unit
  | d :: rest => if d = c then some ((), rest) else none
  | [] => none

/-- A reader whose value has to be in a range. -/
def ranged {α : Type} (p : Reader α) (ok : α → Bool) : Reader α := do
  let a ← p
  if ok a then pure a else failure

/-- Either of two readers, the first one if both can. -/
def either {α : Type} (p q : Reader α) : Reader α := fun s => (p s).or (q s)

end Reader

namespace Reads

variable {α β : Type} {p q : Reader α} {f : α → Reader β} {s t : List Char} {a : α} {b : β}

theorem ret (a : α) : Reads (pure a : Reader α) [] a := fun _ => rfl

theorem bind (hp : Reads p s a) (hf : Reads (f a) t b) : Reads (p >>= f) (s ++ t) b := by
  intro rest
  change (p (s ++ t ++ rest)).bind (fun r => f r.1 r.2) = some (b, rest)
  rw [List.append_assoc, hp (t ++ rest)]
  exact hf rest

theorem expect (c : Char) : Reads (Reader.expect c) [c] () := fun _ => if_pos rfl

theorem ranged {ok : α → Bool} (hp : Reads p s a) (ha : ok a = true) :
    Reads (Reader.ranged p ok) s a := by
  have hbind : Reads (Reader.ranged p ok) (s ++ []) a := by
    refine hp.bind ?_
    rw [if_pos ha]
    exact ret a
  rwa [List.append_nil] at hbind

theorem either (hp : Reads p s a) : Reads (Reader.either p q) s a := by
  intro rest
  rw [Reader.either, hp rest, Option.some_or]

end Reads

namespace Yields

variable {α β : Type} {p q : Reader α} {f : α → Reader β} {Q : α → Prop} {R : β → Prop}

theorem ret {a : α} (h : Q a) : Yields (pure a : Reader α) Q := by
  intro s b rest hret
  obtain ⟨rfl, -⟩ := Prod.mk.inj (Option.some.inj hret)
  exact h

theorem fails : Yields (failure : Reader α) Q := fun _ _ _ h => nomatch h

theorem trivial (p : Reader α) : Yields p fun _ => True := fun _ _ _ _ => True.intro

theorem bind (hp : Yields p Q) (hf : ∀ a, Q a → Yields (f a) R) : Yields (p >>= f) R := by
  intro s b rest h
  obtain ⟨r, hr, hrest⟩ := Option.bind_eq_some_iff.mp h
  exact hf r.1 (hp s r.1 r.2 hr) r.2 b rest hrest

theorem ranged {ok : α → Bool} (hp : Yields p Q) :
    Yields (Reader.ranged p ok) fun a => Q a ∧ ok a = true := by
  refine hp.bind fun a ha => ?_
  split
  · next hok => exact ret ⟨ha, hok⟩
  · exact fails

end Yields

namespace Rfc3339

open Positional Calendar

/-! ### Decimals -/

def digitValue (c : Char) : ℕ := c.toNat - '0'.toNat

/-- A number with at least `w` digits. -/
def decimal (w n : ℕ) : List Char := (fixed 10 w n).map Nat.digitChar

/-- A number of exactly `w` digits. -/
def digits (w : ℕ) : Reader ℕ := fun s =>
  if (s.take w).length = w ∧ (s.take w).all Char.isDigit then
    some (value 10 ((s.take w).map digitValue), s.drop w)
  else none

theorem isDigit_digitChar : ∀ d < 10, (Nat.digitChar d).isDigit = true := by decide

theorem digitValue_digitChar : ∀ d < 10, digitValue (Nat.digitChar d) = d := by decide

theorem all_isDigit {ds : List ℕ} (h : Digits 10 ds) :
    (ds.map Nat.digitChar).all Char.isDigit = true := by
  rw [List.all_map, List.all_eq_true]
  exact fun d hd => isDigit_digitChar d (h d hd)

theorem map_digitValue {ds : List ℕ} (h : Digits 10 ds) :
    (ds.map Nat.digitChar).map digitValue = ds := by
  rw [List.map_map]
  calc ds.map (digitValue ∘ Nat.digitChar) = ds.map id :=
        List.map_congr_left fun d hd => digitValue_digitChar d (h d hd)
    _ = ds := List.map_id ds

theorem isDigit_of_mem_decimal {w n : ℕ} {c : Char} (h : c ∈ decimal w n) : c.isDigit = true :=
  List.all_eq_true.mp (all_isDigit (digits_fixed (by decide) w n)) c h

theorem decimal_injective (w : ℕ) : Function.Injective (decimal w) := by
  intro n m h
  have hds := congrArg (List.map digitValue) h
  rw [decimal, decimal, map_digitValue (digits_fixed (by decide) w n),
    map_digitValue (digits_fixed (by decide) w m)] at hds
  exact fixed_injective 10 w hds

theorem reads_digits {w n : ℕ} (hn : n < 10 ^ w) : Reads (digits w) (decimal w n) n := by
  intro rest
  have hds := digits_fixed (b := 10) (by decide) w n
  have hlen : (decimal w n).length = w := by
    rw [decimal, List.length_map, length_fixed (by decide) hn]
  rw [digits, List.take_left' hlen, List.drop_left' hlen, if_pos ⟨hlen, all_isDigit hds⟩, decimal,
    map_digitValue hds, value_fixed]

theorem digitValue_lt {c : Char} (h : c.isDigit = true) : digitValue c < 10 := by
  rw [Char.isDigit, Bool.and_eq_true, decide_eq_true_eq, decide_eq_true_eq] at h
  have hle : c.toNat ≤ '9'.toNat := h.2
  rw [digitValue]
  have hnine : '9'.toNat = 57 := rfl
  have hzero : '0'.toNat = 48 := rfl
  omega

theorem digits_map_digitValue {cs : List Char} (h : ∀ c ∈ cs, c.isDigit = true) :
    Digits 10 (cs.map digitValue) := by
  intro d hd
  obtain ⟨c, hc, rfl⟩ := List.mem_map.mp hd
  exact digitValue_lt (h c hc)

theorem yields_digits (w : ℕ) : Yields (digits w) (· < 10 ^ w) := by
  intro s n rest h
  rw [digits] at h
  split at h
  · next hs =>
    obtain ⟨rfl, -⟩ := Prod.mk.inj (Option.some.inj h)
    have hlt := value_lt (by decide) (digits_map_digitValue (List.all_eq_true.mp hs.2))
    rwa [List.length_map, hs.1] at hlt
  · cases h

/-! ### Fractions of a second -/

/-- The digits of the nanoseconds up to the last one that is not zero. -/
def nanoDigits (n : ℕ) : List ℕ := (fixed 10 9 n).rdropWhile (· == 0)

/-- The fraction with its point, and no text at all for a whole second. -/
def nanoText (n : ℕ) : List Char :=
  if nanoDigits n = [] then [] else '.' :: (nanoDigits n).map Nat.digitChar

/-- The nanoseconds of a fraction; digits after the ninth do not count. -/
def nanoValue (ds : List ℕ) : ℕ := value 10 (ds.take 9) * 10 ^ (9 - (ds.take 9).length)

/-- A fraction, if there is one. -/
def fraction : Reader ℕ
  | [] => some (0, [])
  | c :: rest =>
    if (c = '.' ∨ c = ',') ∧ rest.takeWhile Char.isDigit ≠ [] then
      some (nanoValue ((rest.takeWhile Char.isDigit).map digitValue), rest.dropWhile Char.isDigit)
    else some (0, c :: rest)

theorem digits_nanoDigits (n : ℕ) : Digits 10 (nanoDigits n) := fun d hd =>
  digits_fixed (by decide) 9 n d ((List.rdropWhile_prefix _ _).subset hd)

/-- Only zeros were left out. -/
theorem nanoDigits_append {n : ℕ} (hn : n < 10 ^ 9) :
    nanoDigits n ++ List.replicate (9 - (nanoDigits n).length) 0 = fixed 10 9 n := by
  have hsplit : nanoDigits n ++ (fixed 10 9 n).rtakeWhile (· == 0) = fixed 10 9 n :=
    List.rdropWhile_append_rtakeWhile
  have hlen := congrArg List.length hsplit
  rw [List.length_append, length_fixed (by decide) hn] at hlen
  have hzeros : (fixed 10 9 n).rtakeWhile (· == 0)
      = List.replicate ((fixed 10 9 n).rtakeWhile (· == 0)).length 0 :=
    List.eq_replicate_iff.mpr
      ⟨rfl, fun d hd => beq_iff_eq.mp (List.mem_rtakeWhile_imp (p := (· == 0)) hd)⟩
  have hcount : 9 - (nanoDigits n).length = ((fixed 10 9 n).rtakeWhile (· == 0)).length := by
    omega
  rw [hcount, ← hzeros, hsplit]

theorem nanoValue_nanoDigits {n : ℕ} (hn : n < 10 ^ 9) : nanoValue (nanoDigits n) = n := by
  have hall := nanoDigits_append hn
  have hlen := congrArg List.length hall
  rw [List.length_append, length_fixed (by decide) hn] at hlen
  rw [nanoValue, List.take_of_length_le (by omega), ← value_append_replicate_zero, hall,
    value_fixed]

theorem nanoValue_lt {ds : List ℕ} (h : Digits 10 ds) : nanoValue ds < 10 ^ 9 := by
  have hlen : (ds.take 9).length ≤ 9 := List.length_take_le 9 ds
  have hds : Digits 10 (ds.take 9) := fun d hd => h d (List.mem_of_mem_take hd)
  have hlt := value_lt (by decide) hds
  calc nanoValue ds < 10 ^ (ds.take 9).length * 10 ^ (9 - (ds.take 9).length) :=
        Nat.mul_lt_mul_of_pos_right hlt (Nat.pow_pos (by decide))
    _ = 10 ^ 9 := by rw [← Nat.pow_add, Nat.add_sub_cancel' hlen]

theorem yields_fraction : Yields fraction (· < 10 ^ 9) := by
  intro s n rest h
  cases s with
  | nil =>
    obtain ⟨rfl, -⟩ := Prod.mk.inj (Option.some.inj h)
    decide
  | cons c s =>
    rw [fraction] at h
    split at h
    · obtain ⟨rfl, -⟩ := Prod.mk.inj (Option.some.inj h)
      exact nanoValue_lt (digits_map_digitValue fun c hc => List.mem_takeWhile_imp hc)
    · obtain ⟨rfl, -⟩ := Prod.mk.inj (Option.some.inj h)
      decide

/-- A text that does not go on with a digit or a separator of a fraction. -/
def EndsFraction (s : List Char) : Prop :=
  ∀ c ∈ s.head?, c.isDigit = false ∧ c ≠ '.' ∧ c ≠ ','

theorem fraction_nanoText {n : ℕ} (hn : n < 10 ^ 9) {rest : List Char} (hrest : EndsFraction rest) :
    fraction (nanoText n ++ rest) = some (n, rest) := by
  have hvalue := nanoValue_nanoDigits hn
  by_cases hnil : nanoDigits n = []
  · have hzero : n = 0 := by
      rw [hnil] at hvalue
      exact hvalue.symm
    rw [nanoText, if_pos hnil, List.nil_append, hzero]
    cases rest with
    | nil => rfl
    | cons c rest =>
      have hc := hrest c rfl
      rw [fraction, if_neg]
      rintro ⟨hc' | hc', -⟩
      · exact hc.2.1 hc'
      · exact hc.2.2 hc'
  · have hds := digits_nanoDigits n
    have htake : ((nanoDigits n).map Nat.digitChar ++ rest).takeWhile Char.isDigit
        = (nanoDigits n).map Nat.digitChar := by
      rw [List.takeWhile_append_of_pos (List.all_eq_true.mp (all_isDigit hds))]
      cases rest with
      | nil => rw [List.takeWhile_nil, List.append_nil]
      | cons c rest =>
        rw [List.takeWhile_cons_of_neg (by rw [(hrest c rfl).1]; exact Bool.false_ne_true),
          List.append_nil]
    have hdrop : ((nanoDigits n).map Nat.digitChar ++ rest).dropWhile Char.isDigit = rest := by
      rw [List.dropWhile_append_of_pos (List.all_eq_true.mp (all_isDigit hds))]
      cases rest with
      | nil => rfl
      | cons c rest =>
        rw [List.dropWhile_cons_of_neg (by rw [(hrest c rfl).1]; exact Bool.false_ne_true)]
    rw [nanoText, if_neg hnil, List.cons_append, fraction, htake, hdrop, if_pos, map_digitValue hds,
      hvalue]
    exact ⟨Or.inl rfl, fun h => hnil (List.map_eq_nil_iff.mp h)⟩

/-! ### Zones -/

/-- The offset of a zone, in seconds, as it is written: without its seconds. -/
def zoneText (offset : ℤ) : List Char :=
  if offset = 0 then ['Z']
  else
    (if offset.tdiv 60 < 0 then '-' else '+') ::
      [decimal 2 ((offset.tdiv 60).natAbs / 60), [':'],
        decimal 2 ((offset.tdiv 60).natAbs % 60)].flatten

/-- The offset that a text keeps: without its seconds. -/
def wholeMinutes (offset : ℤ) : ℤ := offset.tdiv 60 * 60

theorem wholeMinutes_of_dvd {offset : ℤ} (h : 60 ∣ offset) : wholeMinutes offset = offset :=
  Int.tdiv_mul_cancel h

theorem dvd_wholeMinutes (offset : ℤ) : 60 ∣ wholeMinutes offset := Int.dvd_mul_left _ _

theorem natAbs_wholeMinutes_le (offset : ℤ) : (wholeMinutes offset).natAbs ≤ offset.natAbs := by
  rw [wholeMinutes, Int.natAbs_mul, Int.natAbs_tdiv]
  exact Nat.div_mul_le_self _ _

theorem sub_wholeMinutes_lt (offset : ℤ) : (offset - wholeMinutes offset).natAbs < 60 := by
  have hrest : offset - wholeMinutes offset = offset.tmod 60 := by
    have hsplit := Int.mul_tdiv_add_tmod offset 60
    rw [wholeMinutes]
    omega
  rw [hrest, Int.natAbs_tmod]
  exact Nat.mod_lt _ (by decide)

/-- The hours and minutes of an offset. -/
def zoneMinutes : Reader ℕ := do
  let hours ← (digits 2).ranged (· ≤ 24)
  Reader.expect ':'
  let minutes ← (digits 2).ranged (· ≤ 60)
  pure (hours * 60 + minutes)

def zone : Reader ℤ
  | 'Z' :: rest => some (0, rest)
  | '+' :: rest => (zoneMinutes rest).map fun r => ((r.1 : ℤ) * 60, r.2)
  | '-' :: rest => (zoneMinutes rest).map fun r => (-(r.1 : ℤ) * 60, r.2)
  | _ => none

theorem reads_zoneMinutes {m : ℕ} (hm : m < 25 * 60) :
    Reads zoneMinutes [decimal 2 (m / 60), [':'], decimal 2 (m % 60)].flatten m := by
  have hsum : m / 60 * 60 + m % 60 = m := by omega
  simp only [List.flatten_cons, List.flatten_nil]
  refine ((reads_digits (by omega)).ranged (decide_eq_true (by omega))).bind ?_
  refine (Reads.expect ':').bind ?_
  refine ((reads_digits (by omega)).ranged (decide_eq_true (by omega))).bind ?_
  rw [hsum]
  exact Reads.ret m

theorem reads_zone {offset : ℤ} (h : offset.natAbs < 25 * 3600) :
    Reads zone (zoneText offset) (wholeMinutes offset) := by
  intro rest
  rw [zoneText, wholeMinutes]
  by_cases hz : offset = 0
  · rw [if_pos hz, hz]
    rfl
  · have habs : (offset.tdiv 60).natAbs = offset.natAbs / 60 := Int.natAbs_tdiv offset 60
    have hread := reads_zoneMinutes (m := (offset.tdiv 60).natAbs) (by omega) rest
    rw [if_neg hz]
    by_cases hneg : offset.tdiv 60 < 0
    · rw [if_pos hneg, List.cons_append]
      change (zoneMinutes _).map _ = _
      rw [hread, Option.map_some]
      congr 3
      omega
    · rw [if_neg hneg, List.cons_append]
      change (zoneMinutes _).map _ = _
      rw [hread, Option.map_some]
      congr 3
      omega

/-- An offset that is read is one of whole minutes, and `24:60` is the largest. -/
def ReadOffset (offset : ℤ) : Prop := 60 ∣ offset ∧ offset.natAbs ≤ 25 * 3600

theorem yields_zoneMinutes : Yields zoneMinutes (· ≤ 25 * 60) := by
  refine (Yields.trivial _).ranged.bind fun hours hhours => ?_
  refine (Yields.trivial _).bind fun _ _ => ?_
  refine (Yields.trivial _).ranged.bind fun minutes hminutes => Yields.ret ?_
  have hhours := of_decide_eq_true hhours.2
  have hminutes := of_decide_eq_true hminutes.2
  omega

theorem yields_zone : Yields zone ReadOffset := by
  intro s offset rest h
  unfold zone at h
  split at h
  · obtain ⟨rfl, -⟩ := Prod.mk.inj (Option.some.inj h)
    exact ⟨Int.dvd_zero 60, by decide⟩
  · obtain ⟨r, hr, heq⟩ := Option.map_eq_some_iff.mp h
    obtain ⟨rfl, -⟩ := Prod.mk.inj heq
    have hle := yields_zoneMinutes _ r.1 r.2 hr
    exact ⟨Int.dvd_mul_left _ _, by omega⟩
  · obtain ⟨r, hr, heq⟩ := Option.map_eq_some_iff.mp h
    obtain ⟨rfl, -⟩ := Prod.mk.inj heq
    have hle := yields_zoneMinutes _ r.1 r.2 hr
    exact ⟨Int.dvd_mul_left _ _, by omega⟩
  · cases h

theorem endsFraction_zoneText (offset : ℤ) (rest : List Char) :
    EndsFraction (zoneText offset ++ rest) := by
  intro c hc
  rw [zoneText] at hc
  split at hc
  · obtain rfl := Option.some.inj hc
    decide
  · split at hc <;> obtain rfl := Option.some.inj hc <;> decide

/-! ### Moments -/

/-- A moment: the nanoseconds since 1970 began in UTC, and the offset of its zone in seconds. -/
@[ext]
structure Moment where
  instant : ℤ
  offset : ℤ
  deriving DecidableEq

namespace Moment

/-- The seconds since 1970 began on the clocks of the zone. -/
def wallSeconds (m : Moment) : ℤ := m.instant / 1000000000 + m.offset

def date (m : Moment) : Date := Date.ofDays (daysBeforeYear 1970 + m.wallSeconds / 86400)

/-- The second of the day. -/
def clock (m : Moment) : ℕ := (m.wallSeconds % 86400).toNat

def nanos (m : Moment) : ℕ := (m.instant % 1000000000).toNat

/-- The moment that a calendar and a clock show at an offset. -/
def ofWall (date : Date) (clock nanos : ℕ) (offset : ℤ) : Moment where
  instant :=
    ((date.toDays - daysBeforeYear 1970) * 86400 + clock - offset) * 1000000000 + nanos
  offset := offset

/-- The moment on the same clock in a zone with another offset. -/
def onClockAt (m : Moment) (offset : ℤ) : Moment where
  instant := m.instant + (m.offset - offset) * 1000000000
  offset := offset

theorem clock_lt (m : Moment) : m.clock < 86400 := by
  rw [clock]
  omega

theorem nanos_lt (m : Moment) : m.nanos < 10 ^ 9 := by
  rw [nanos]
  omega

theorem ofWall_date_clock (m : Moment) (offset : ℤ) :
    ofWall m.date m.clock m.nanos offset = m.onClockAt offset := by
  have hclock : (m.clock : ℤ) = m.wallSeconds % 86400 := by
    rw [clock]
    omega
  have hnanos : (m.nanos : ℤ) = m.instant % 1000000000 := by
    rw [nanos]
    omega
  ext
  · change ((m.date.toDays - daysBeforeYear 1970) * 86400 + m.clock - offset) * 1000000000 + m.nanos
      = m.instant + (m.offset - offset) * 1000000000
    rw [date, Date.toDays_ofDays, hclock, hnanos, wallSeconds]
    omega
  · rfl

/-- The calendar shows the date that the moment was made from. -/
theorem date_ofWall (d : Date) {clock nanos : ℕ} (offset : ℤ) (hclock : clock < 86400)
    (hnanos : nanos < 10 ^ 9) : (ofWall d clock nanos offset).date = d := by
  have hdays : daysBeforeYear 1970 + (ofWall d clock nanos offset).wallSeconds / 86400
      = d.toDays := by
    dsimp only [wallSeconds, ofWall]
    omega
  rw [date, hdays, Date.ofDays_toDays]

/-- The clock shows the same, whatever the offset. -/
theorem wallSeconds_onClockAt (m : Moment) (offset : ℤ) :
    (m.onClockAt offset).wallSeconds = m.wallSeconds := by
  dsimp only [wallSeconds, onClockAt]
  omega

/-- The moment that the text of a moment denotes. -/
def settled (m : Moment) : Moment := m.onClockAt (wholeMinutes m.offset)

theorem settled_of_dvd {m : Moment} (h : 60 ∣ m.offset) : m.settled = m := by
  rw [settled, wholeMinutes_of_dvd h, onClockAt, Int.sub_self, Int.zero_mul, Int.add_zero]

/-- It is less than a minute away. -/
theorem settled_near (m : Moment) : (m.settled.instant - m.instant).natAbs < 60 * 1000000000 := by
  have hlost := sub_wholeMinutes_lt m.offset
  dsimp only [settled, onClockAt]
  omega

end Moment

def yearText (y : ℤ) : List Char :=
  if y < 0 then '-' :: decimal 4 y.natAbs else decimal 4 y.natAbs

/-- The text of a moment at the offset of its zone. -/
def format (m : Moment) : List Char :=
  [yearText m.date.year, ['-'], decimal 2 (m.date.month + 1), ['-'], decimal 2 (m.date.day + 1),
    ['T'], decimal 2 (m.clock / 3600), [':'], decimal 2 (m.clock / 60 % 60), [':'],
    decimal 2 (m.clock % 60), nanoText m.nanos, zoneText m.offset].flatten

/-- A day that exists, from the numbers of its month and its day. -/
def dateOf (year : ℤ) (month day : ℕ) : Option Date :=
  if h : day - 1 < (monthLengths year).getD (month - 1) 0 ∧ day ≠ 0 then
    some ⟨year, month - 1, day - 1, h.1⟩
  else none

def moment : Reader Moment := do
  let year ← digits 4
  Reader.expect '-'
  let month ← (digits 2).ranged fun m => 1 ≤ m ∧ m ≤ 12
  Reader.expect '-'
  let day ← digits 2
  Reader.expect 'T'
  let hour ← (Reader.either (digits 2) (digits 1)).ranged (· < 24)
  Reader.expect ':'
  let minute ← (digits 2).ranged (· < 60)
  Reader.expect ':'
  let second ← (digits 2).ranged (· < 60)
  let nanos ← fraction
  let offset ← zone
  -- the day is checked when the whole text has been read
  match dateOf year month day with
  | none => failure
  | some date => pure (Moment.ofWall date (hour * 3600 + minute * 60 + second) nanos offset)

/-- A text that is a moment and nothing else. -/
def parse (s : List Char) : Option Moment :=
  match moment s with
  | some (m, []) => some m
  | _ => none

theorem dateOf_date (d : Date) : dateOf d.year (d.month + 1) (d.day + 1) = some d := by
  rw [dateOf, dif_pos ⟨d.day_lt, Nat.succ_ne_zero _⟩]
  rfl

theorem year_of_dateOf {year : ℤ} {month day : ℕ} {d : Date} (h : dateOf year month day = some d) :
    d.year = year := by
  rw [dateOf] at h
  split at h
  · obtain rfl := Option.some.inj h
    rfl
  · cases h

theorem reads_yearText {y : ℤ} (h : 0 ≤ y ∧ y < 10000) :
    Reads (digits 4) (yearText y) y.natAbs := by
  rw [yearText, if_neg (by omega)]
  exact reads_digits (by omega)

theorem reads_fraction_bind {β : Type} {f : ℕ → Reader β} {n : ℕ} {t : List Char} {b : β}
    (hn : n < 10 ^ 9) (ht : ∀ rest, EndsFraction (t ++ rest)) (hf : Reads (f n) t b) :
    Reads (fraction >>= f) (nanoText n ++ t) b := by
  intro rest
  change (fraction (nanoText n ++ t ++ rest)).bind (fun r => f r.1 r.2) = some (b, rest)
  rw [List.append_assoc, fraction_nanoText hn (ht rest)]
  exact hf rest

/-- Years of four digits, and an offset that the readers of a zone take. -/
def Moment.Writable (m : Moment) : Prop :=
  (0 ≤ m.date.year ∧ m.date.year < 10000) ∧ m.offset.natAbs < 25 * 3600

instance (m : Moment) : Decidable m.Writable :=
  inferInstanceAs (Decidable (_ ∧ _))

theorem reads_moment {m : Moment} (h : m.Writable) :
    Reads moment (format m) m.settled := by
  have hmonth := m.date.month_lt
  have hday := m.date.day_le
  have hclock := m.clock_lt
  have hsum : m.clock / 3600 * 3600 + m.clock / 60 % 60 * 60 + m.clock % 60 = m.clock := by omega
  have hyear : (m.date.year.natAbs : ℤ) = m.date.year := Int.natAbs_of_nonneg h.1.1
  simp only [format, List.flatten_cons, List.flatten_nil]
  refine (reads_yearText h.1).bind ?_
  refine (Reads.expect '-').bind ?_
  refine ((reads_digits (by omega)).ranged (decide_eq_true (by omega))).bind ?_
  refine (Reads.expect '-').bind ?_
  refine (reads_digits (by omega)).bind ?_
  refine (Reads.expect 'T').bind ?_
  refine ((reads_digits (by omega)).either.ranged (decide_eq_true (by omega))).bind ?_
  refine (Reads.expect ':').bind ?_
  refine ((reads_digits (by omega)).ranged (decide_eq_true (by omega))).bind ?_
  refine (Reads.expect ':').bind ?_
  refine ((reads_digits (by omega)).ranged (decide_eq_true (by omega))).bind ?_
  refine reads_fraction_bind m.nanos_lt (fun rest => ?_) ?_
  · rw [List.append_nil]
    exact endsFraction_zoneText m.offset rest
  refine (reads_zone h.2).bind ?_
  rw [hyear, dateOf_date, hsum, Moment.settled, ← Moment.ofWall_date_clock]
  exact Reads.ret _

theorem Moment.Writable.settled {m : Moment} (h : m.Writable) : m.settled.Writable := by
  have hdate : m.settled.date = m.date := by
    rw [Moment.date, Moment.settled, Moment.wallSeconds_onClockAt, ← Moment.date]
  exact ⟨hdate ▸ h.1, (natAbs_wholeMinutes_le m.offset).trans_lt h.2⟩

/-- **Reading back what was written.** The text denotes the moment that the clock of the zone shows
at the offset without its seconds. -/
theorem parse_format {m : Moment} (h : m.Writable) : parse (format m) = some m.settled := by
  have hread := reads_moment h []
  rw [List.append_nil] at hread
  rw [parse, hread]

theorem yields_moment : Yields moment fun m =>
    (0 ≤ m.date.year ∧ m.date.year < 10000) ∧ ReadOffset m.offset := by
  refine (yields_digits 4).bind fun year hyear => ?_
  refine (Yields.trivial _).bind fun _ _ => ?_
  refine (Yields.trivial _).bind fun month _ => ?_
  refine (Yields.trivial _).bind fun _ _ => ?_
  refine (Yields.trivial _).bind fun day _ => ?_
  refine (Yields.trivial _).bind fun _ _ => ?_
  refine (Yields.trivial _).ranged.bind fun hour hhour => ?_
  refine (Yields.trivial _).bind fun _ _ => ?_
  refine (Yields.trivial _).ranged.bind fun minute hminute => ?_
  refine (Yields.trivial _).bind fun _ _ => ?_
  refine (Yields.trivial _).ranged.bind fun second hsecond => ?_
  refine yields_fraction.bind fun nanos hnanos => ?_
  refine yields_zone.bind fun offset hoffset => ?_
  have hhour := of_decide_eq_true hhour.2
  have hminute := of_decide_eq_true hminute.2
  have hsecond := of_decide_eq_true hsecond.2
  split
  · exact Yields.fails
  · next date hdate =>
    refine Yields.ret ⟨?_, hoffset⟩
    rw [Moment.date_ofWall date offset (by omega) hnanos, year_of_dateOf hdate]
    omega

/-- **What was read can be written and read again**, unless the offset is 25 hours: `24:60` is read,
but it is written as `25:00`. -/
theorem writable_of_parse {s : List Char} {m : Moment} (h : parse s = some m)
    (hoffset : m.offset.natAbs ≠ 25 * 3600) : m.Writable ∧ 60 ∣ m.offset := by
  rw [parse] at h
  split at h
  · next m' hm =>
    obtain rfl := Option.some.inj h
    have hyields := yields_moment s m' [] hm
    exact ⟨⟨hyields.1, Nat.lt_of_le_of_ne hyields.2.2 hoffset⟩, hyields.2.1⟩
  · cases h

end Rfc3339

end Framework

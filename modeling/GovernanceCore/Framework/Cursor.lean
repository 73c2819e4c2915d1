import Mathlib.Data.List.Forall2

/-!
# Reading rows from a cursor

The answer to a query is a **stream**: rows one after the other, and after the last one either the
end or an error. The loop that reads it sees the same in both cases, no next row; which of the two
it was stands in `err`, for whoever asks.

`scanLoop` is the loop: each row is decoded and noted, and a row that cannot be decoded ends it.
Its two outcomes are characterised by the rows alone: all of them are decodable
(`scanLoop_eq_ok_iff`), or one is not and those before it are (`scanLoop_eq_error_iff`). How rows
are noted plays no role in that.
-/

namespace Framework

/-- The rows that come, and the error that cut them off, if one did. -/
structure Rows (R ε : Type) where
  rows : List R
  err : Option ε

section Loop

variable {R ε A S : Type} (scan : R → Except ε A) (note : S → R → A → S)

/-- `for rows.Next() { … }`. -/
def scanLoop : S → List R → Except ε S
  | s, [] => .ok s
  | s, row :: rest =>
    match scan row with
    | .error e => .error e
    | .ok a => scanLoop (note s row a) rest

/-- What is noted for rows and what they are decoded to. -/
def noteAll (s : S) (rows : List R) (as : List A) : S :=
  (rows.zip as).foldl (fun s p => note s p.1 p.2) s

/-- **The loop comes to its end** when every row is decodable; it has noted what they are. -/
theorem scanLoop_eq_ok_iff {s s' : S} {rows : List R} :
    scanLoop scan note s rows = .ok s' ↔
      ∃ as, List.Forall₂ (fun row a => scan row = .ok a) rows as ∧
        s' = noteAll note s rows as := by
  induction rows generalizing s with
  | nil =>
    refine ⟨fun h => ⟨[], .nil, (Except.ok.inj h).symm⟩, ?_⟩
    rintro ⟨as, has, rfl⟩
    cases has
    rfl
  | cons row rest ih =>
    rw [scanLoop]
    cases hrow : scan row with
    | error e =>
      refine iff_of_false (fun h => by cases h) ?_
      rintro ⟨as, has, -⟩
      cases has with
      | cons hhead _ => cases hrow.symm.trans hhead
    | ok a =>
      dsimp only
      rw [ih]
      refine ⟨fun ⟨as, has, heq⟩ => ⟨a :: as, .cons hrow has, heq⟩, ?_⟩
      rintro ⟨as, has, rfl⟩
      cases has with
      | cons hhead htail =>
        obtain rfl := Except.ok.inj (hrow.symm.trans hhead)
        exact ⟨_, htail, rfl⟩

/-- **The loop stops at the first row that is not decodable**, with its error. -/
theorem scanLoop_eq_error_iff {s : S} {rows : List R} {e : ε} :
    scanLoop scan note s rows = .error e ↔
      ∃ before row after, rows = before ++ row :: after ∧
        (∀ r ∈ before, ∃ a, scan r = .ok a) ∧ scan row = .error e := by
  induction rows generalizing s with
  | nil =>
    refine iff_of_false (fun h => by cases h) ?_
    rintro ⟨before, row, after, h, -⟩
    exact absurd h.symm (List.append_ne_nil_of_right_ne_nil _ (List.cons_ne_nil _ _))
  | cons row rest ih =>
    rw [scanLoop]
    cases hrow : scan row with
    | error e' =>
      -- the loop stops here, so the row that fails is this one and no other
      refine ⟨fun h => ⟨[], row, rest, rfl, nofun, ?_⟩, ?_⟩
      · exact hrow.trans (congrArg _ (Except.error.inj h))
      · rintro ⟨before, row', after, h, hbefore, herr⟩
        cases before with
        | nil =>
          obtain ⟨rfl, -⟩ := List.cons.inj h
          exact congrArg _ (Except.error.inj (hrow.symm.trans herr))
        | cons r before =>
          obtain ⟨rfl, -⟩ := List.cons.inj h
          obtain ⟨a, ha⟩ := hbefore row List.mem_cons_self
          cases hrow.symm.trans ha
    | ok a =>
      -- the row that fails is further on, whatever has been noted
      dsimp only
      rw [ih]
      refine ⟨fun ⟨before, row', after, h, hbefore, herr⟩ => ?_, ?_⟩
      · refine ⟨row :: before, row', after, by rw [h, List.cons_append], ?_, herr⟩
        intro r hr
        rcases List.mem_cons.mp hr with rfl | hr
        · exact ⟨a, hrow⟩
        · exact hbefore r hr
      · rintro ⟨before, row', after, h, hbefore, herr⟩
        cases before with
        | nil =>
          obtain ⟨rfl, -⟩ := List.cons.inj h
          cases hrow.symm.trans herr
        | cons r before =>
          obtain ⟨-, rfl⟩ := List.cons.inj h
          exact ⟨before, row', after, rfl,
            fun x hx => hbefore x (List.mem_cons_of_mem _ hx), herr⟩

end Loop

/-- A loop that appends what it decodes. -/
def appendDecoded {R A : Type} (acc : List A) (_row : R) (a : A) : List A := acc ++ [a]

/-- Noting by appending gives the decoded rows in their order. -/
theorem noteAll_appendDecoded {R A : Type} {rows : List R} {as : List A} (acc : List A)
    (hlen : rows.length = as.length) : noteAll appendDecoded acc rows as = acc ++ as := by
  unfold noteAll
  induction rows generalizing as acc with
  | nil =>
    rw [List.length_eq_zero_iff.mp hlen.symm, List.append_nil]
    rfl
  | cons row rest ih =>
    cases as with
    | nil => cases hlen
    | cons a as =>
      rw [List.zip_cons_cons, List.foldl_cons, ih _ (Nat.succ.inj hlen), appendDecoded,
        List.append_assoc]
      rfl

/-- Appending, all rows decodable. -/
theorem scanLoop_append_eq_ok {R ε A : Type} {scan : R → Except ε A} {rows : List R} {as : List A}
    (h : List.Forall₂ (fun row a => scan row = .ok a) rows as) :
    scanLoop scan appendDecoded [] rows = .ok as :=
  (scanLoop_eq_ok_iff scan appendDecoded).mpr ⟨as, h, (noteAll_appendDecoded [] h.length_eq).symm⟩

theorem exists_of_mem_forall₂ {A B : Type} {R : A → B → Prop} {as : List A} {bs : List B}
    (h : List.Forall₂ R as bs) {b : B} (hb : b ∈ bs) : ∃ a ∈ as, R a b := by
  induction h with
  | nil => cases hb
  | cons hhead _ ih =>
    rcases List.mem_cons.mp hb with rfl | hb
    · exact ⟨_, List.mem_cons_self, hhead⟩
    · obtain ⟨a, ha, hR⟩ := ih hb
      exact ⟨a, List.mem_cons_of_mem _ ha, hR⟩

end Framework

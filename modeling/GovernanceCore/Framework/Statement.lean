import Mathlib.Data.List.Range

/-!
# Statements with numbered placeholders

A `SELECT` whose conditions are put together at run time: each condition names a column and compares
it with an argument, and refers to the argument by its number, `$1` being the first. The text and the
list of arguments grow side by side, with a counter for the next number; whether the two fit together
is decided by the database.

`Statement.eval` is what the database makes of the two: nothing when the numbers in the text are not
those of the arguments, and otherwise the condition on a row and the page. `Builder.Means` is the
invariant of the construction, and `Builder.Means.eval_finish` says what comes out.
-/

namespace Framework

/-- A value of a column or an argument. -/
inductive SqlValue where
  | text (s : String)
  | time (t : Int)
  | int (n : Int)
  deriving DecidableEq, Repr

inductive Comparison where
  | eq | gt | lt
  deriving DecidableEq, Repr

def Comparison.symbol : Comparison → String
  | .eq => "="
  | .gt => ">"
  | .lt => "<"

/-- The comparison of two values of one type. -/
def Comparison.holds : Comparison → SqlValue → SqlValue → Bool
  | .eq, .text a, .text b => a = b
  | .gt, .time a, .time b => b < a
  | .lt, .time a, .time b => a < b
  | _, _, _ => false

/-- One condition of a `WHERE` clause. -/
structure Condition where
  column : String
  comparison : Comparison
  placeholder : Nat
  deriving DecidableEq, Repr

def Condition.text (c : Condition) : String :=
  c.column ++ " " ++ c.comparison.symbol ++ " $" ++ toString c.placeholder

/-- What was put together, with the arguments. -/
structure Statement where
  conditions : List Condition
  /-- The placeholders of `LIMIT` and `OFFSET`. -/
  page : Option (Nat × Nat)
  args : List SqlValue
  deriving DecidableEq, Repr

namespace Statement

/-- `WHERE … AND …`, or nothing. -/
def whereClause (st : Statement) : String :=
  if st.conditions = [] then ""
  else "WHERE " ++ String.intercalate " AND " (st.conditions.map Condition.text)

/-- `LIMIT … OFFSET …`, or nothing. -/
def limitClause (st : Statement) : String :=
  match st.page with
  | none => ""
  | some (limit, offset) => "LIMIT $" ++ toString limit ++ " OFFSET $" ++ toString offset

/-- The placeholders in the text, from left to right. -/
def placeholders (st : Statement) : List Nat :=
  st.conditions.map Condition.placeholder ++ match st.page with
    | none => []
    | some (limit, offset) => [limit, offset]

end Statement

/-- The argument with this number. -/
def argument (args : List SqlValue) (n : Nat) : Option SqlValue := args[n - 1]?

/-- A condition on a row whose columns are `column`; a column may be null, and then no comparison
holds. -/
def Condition.holds (args : List SqlValue) (column : String → Option SqlValue) (c : Condition) :
    Bool :=
  match column c.column, argument args c.placeholder with
  | some v, some a => c.comparison.holds v a
  | _, _ => false

/-- The value of an argument of `LIMIT` or `OFFSET`. -/
def intArgument (args : List SqlValue) (n : Nat) : Option Int :=
  match argument args n with
  | some (.int v) => some v
  | _ => none

/-- What the database makes of a statement: the condition on rows, and the page. It refuses a
statement whose placeholders are not those of the arguments. -/
def Statement.eval {A : Type} (column : A → String → Option SqlValue) (st : Statement) :
    Option ((A → Bool) × Option (Int × Int)) :=
  if st.placeholders ≠ List.range' 1 st.args.length then none
  else
    let rows := fun a => st.conditions.all (Condition.holds st.args (column a))
    match st.page with
    | none => some (rows, none)
    | some (limit, offset) =>
      match intArgument st.args limit, intArgument st.args offset with
      | some l, some o => some (rows, some (l, o))
      | _, _ => none

/-! ### Building -/

/-- The three variables of the construction. -/
structure Builder where
  conditions : List Condition
  args : List SqlValue
  argIdx : Nat
  deriving DecidableEq, Repr

namespace Builder

def start : Builder := ⟨[], [], 1⟩

/-- A condition for an argument that is there. -/
def addIf (b : Builder) (column : String) (comparison : Comparison) :
    Option SqlValue → Builder
  | none => b
  | some arg =>
    ⟨b.conditions ++ [⟨column, comparison, b.argIdx⟩], b.args ++ [arg], b.argIdx + 1⟩

/-- The page, for a positive limit. -/
def finish (b : Builder) (limit offset : Int) : Statement :=
  if 0 < limit then
    ⟨b.conditions, some (b.argIdx, b.argIdx + 1), b.args ++ [.int limit, .int offset]⟩
  else ⟨b.conditions, none, b.args⟩

variable {A : Type} {column : A → String → Option SqlValue} {b : Builder} {p : A → Bool}

/-- What was put together so far means `p`, and goes on to do so when more arguments follow. -/
structure Means (column : A → String → Option SqlValue) (b : Builder) (p : A → Bool) : Prop where
  next : b.argIdx = b.args.length + 1
  placeholders : b.conditions.map Condition.placeholder = List.range' 1 b.args.length
  rows : ∀ more a, b.conditions.all (Condition.holds (b.args ++ more) (column a)) = p a

theorem Means.congr {p' : A → Bool} (h : b.Means column p) (hp : ∀ a, p a = p' a) :
    b.Means column p' :=
  ⟨h.next, h.placeholders, fun more a => (h.rows more a).trans (hp a)⟩

theorem means_start : start.Means column fun _ => true :=
  ⟨rfl, rfl, fun _ _ => rfl⟩

/-- The argument that is added gets the number that the condition refers to. -/
theorem argument_append {args more : List SqlValue} {arg : SqlValue} {n : Nat}
    (hn : n = args.length + 1) : argument (args ++ arg :: more) n = some arg := by
  rw [argument, hn, Nat.add_sub_cancel, List.getElem?_append_right (Nat.le_refl _), Nat.sub_self]
  rfl

/-- The rule for one condition: `q` is what it says about the column. -/
theorem Means.addIf (h : b.Means column p) {name : String} {comparison : Comparison}
    {arg : Option SqlValue} {q : A → Bool}
    (hq : ∀ a, (arg.all fun v => (column a name).any fun x => comparison.holds x v) = q a) :
    (b.addIf name comparison arg).Means column fun a => p a && q a := by
  simp only [← hq]
  cases arg with
  | none => exact ⟨h.next, h.placeholders, fun more a => (h.rows more a).trans (Bool.and_true _).symm⟩
  | some v =>
    refine ⟨?_, ?_, fun more a => ?_⟩
    · change b.argIdx + 1 = (b.args ++ [v]).length + 1
      rw [List.length_append, List.length_singleton, h.next]
    · change (b.conditions ++ [_]).map Condition.placeholder = List.range' 1 (b.args ++ [v]).length
      rw [List.map_append, h.placeholders, List.length_append, List.length_singleton,
        List.range'_concat, List.map_singleton, h.next, Nat.one_mul, Nat.add_comm 1]
    · change (b.conditions ++ [_]).all (Condition.holds (b.args ++ [v] ++ more) (column a)) = _
      rw [List.all_append, List.append_assoc, List.singleton_append, h.rows (v :: more) a]
      congr 1
      rw [List.all_cons, List.all_nil, Bool.and_true, Condition.holds, argument_append h.next,
        Option.all_some]
      cases column a name <;> rfl

/-- **The statement that was built means its parts.** -/
theorem Means.eval_finish (h : b.Means column p) (limit offset : Int) :
    (b.finish limit offset).eval column
      = some (p, if 0 < limit then some (limit, offset) else none) := by
  unfold finish
  by_cases hlimit : 0 < limit
  · have hnumbers : (⟨b.conditions, some (b.argIdx, b.argIdx + 1),
        b.args ++ [.int limit, .int offset]⟩ : Statement).placeholders
        = List.range' 1 (b.args ++ [SqlValue.int limit, .int offset]).length := by
      change b.conditions.map Condition.placeholder ++ [b.argIdx, b.argIdx + 1] = _
      rw [h.placeholders, h.next, List.length_append]
      change _ = List.range' 1 (b.args.length + 1 + 1)
      rw [List.range'_concat, List.range'_concat, List.append_assoc]
      simp [Nat.add_comm]
    have hlim : intArgument (b.args ++ [.int limit, .int offset]) b.argIdx = some limit := by
      rw [intArgument, argument_append h.next]
    have hoff : intArgument (b.args ++ [.int limit, .int offset]) (b.argIdx + 1) = some offset := by
      rw [← List.singleton_append, ← List.append_assoc, intArgument, argument_append]
      rw [List.length_append, List.length_singleton, h.next]
    rw [if_pos hlimit, if_pos hlimit, Statement.eval, if_neg (not_not.mpr hnumbers)]
    dsimp only
    rw [hlim, hoff]
    exact congrArg (fun q => some (q, some (limit, offset))) (funext fun a => h.rows _ a)
  · have hnumbers : (⟨b.conditions, none, b.args⟩ : Statement).placeholders
        = List.range' 1 b.args.length := by
      change b.conditions.map Condition.placeholder ++ [] = _
      rw [List.append_nil, h.placeholders]
    rw [if_neg hlimit, if_neg hlimit, Statement.eval, if_neg (not_not.mpr hnumbers)]
    refine congrArg (fun q => some (q, none)) (funext fun a => ?_)
    have hrows := h.rows [] a
    rwa [List.append_nil] at hrows

end Builder

end Framework

import Mathlib.Algebra.Order.Ring.Rat
import GovernanceCore.Framework.ByteString

/-!
# Shared values: identifiers, time, errors, enumerations

The value objects of `internal/domain/shared`, and the pieces of the standard library that the
domain uses on texts.

Every enumeration of the source is a named string type, so a value may hold a text outside the
declared constants. Where such a text can reach the modelled code the enumeration has a constructor
`other` for it.
-/

namespace Governance

/-! ### Errors -/

/-- An error value: one made from a text, or one that wraps another (`fmt.Errorf` with `%w`), with
the texts before and after the wrapped error. A value that is printed with `%q` is kept as it is;
how it is quoted depends on the Unicode tables. -/
inductive Err where
  | new (text : String)
  | quoted (before value : String)
  | wrap (before : String) (cause : Err) (after : String)
  | because (cause reason : Err)
  deriving DecidableEq, Repr

/-- The text of an error. -/
def Err.text (u : Framework.Unicode) : Err → String
  | .new t => t
  | .quoted b v => b ++ u.quote v.toUTF8.data.toList
  | .wrap b c a => b ++ c.text u ++ a
  | .because c r => c.text u ++ ": " ++ r.text u

/-- `fmt.Errorf("msg: %w", err)`. -/
def Err.context (msg : String) (cause : Err) : Err := .wrap (msg ++ ": ") cause ""

/-- `fmt.Errorf("%w: msg", err)`. -/
def Err.detail (cause : Err) (msg : String) : Err := .wrap "" cause (": " ++ msg)

/-! ### Identifiers and time -/

/-- What an identifier identifies; keeps the identifier types apart. -/
inductive Entity where
  | task | workflowRun | routingDecision | policyDecision | approvalRequest | executionLease
  | auditEntry | actor
  deriving DecidableEq, Repr

/-- An identifier is its text. -/
structure ID (e : Entity) where
  text : String
  deriving DecidableEq, Repr

abbrev TaskID := ID .task
abbrev WorkflowRunID := ID .workflowRun
abbrev RoutingDecisionID := ID .routingDecision
abbrev PolicyDecisionID := ID .policyDecision
abbrev ApprovalRequestID := ID .approvalRequest
abbrev ExecutionLeaseID := ID .executionLease
abbrev AuditEntryID := ID .auditEntry
abbrev ActorID := ID .actor

/-- `shared.ActorID("system")`. -/
def systemActor : ActorID := ⟨"system"⟩

/-- An instant, in nanoseconds. -/
abbrev Timestamp := Int

/-- A `time.Duration`, in nanoseconds. -/
abbrev Duration := Int

def millisecond : Duration := 1000000

def second : Duration := 1000 * millisecond

def minute : Duration := 60 * second

/-- `Duration.Milliseconds`: the whole milliseconds, rounded toward zero. -/
def Duration.milliseconds (d : Duration) : Int := d.tdiv millisecond

/-! ### Texts -/

/-- `unicode.IsSpace`. -/
def isSpace (c : Char) : Bool :=
  let n := c.toNat
  (9 ≤ n && n ≤ 13) || n == 0x20 || n == 0x85 || n == 0xA0 || n == 0x1680
    || (0x2000 ≤ n && n ≤ 0x200a) || n == 0x2028 || n == 0x2029 || n == 0x202f || n == 0x205f
    || n == 0x3000

/-- `strings.TrimSpace(s) == ""`. -/
def isBlank (s : String) : Bool := s.toList.all isSpace

/-- The digits of `n`, padded with zeros on the left to `width`. -/
def padDigits (width n : Nat) : String :=
  let ds := Nat.toDigits 10 n
  String.ofList (List.replicate (width - ds.length) '0' ++ ds)

/-- `%.Nf`: `q` with `digits` decimals, a half rounded to even. -/
def formatFixed (digits : Nat) (q : ℚ) : String :=
  let scaled := q.num.natAbs * 10 ^ digits
  let floor := scaled / q.den
  let rest := 2 * (scaled % q.den)
  let n := if rest < q.den then floor
    else if q.den < rest then floor + 1
    else floor + floor % 2
  let sign := if q < 0 then "-" else ""
  let whole := String.ofList (Nat.toDigits 10 (n / 10 ^ digits))
  sign ++ whole ++ "." ++ padDigits digits (n % 10 ^ digits)

example : formatFixed 4 (5 / 8) = "0.6250" := by decide +kernel

/-! ### Enumerations -/

inductive RiskLevel where
  | low | medium | high | critical
  | other (text : String)
  deriving DecidableEq, Repr

inductive Priority where
  | low | normal | high | urgent
  | other (text : String)
  deriving DecidableEq, Repr

inductive FailureStage where
  | routing | policy | approval | workflow | execution | runtime | memoryContext | notification
  | other (text : String)
  deriving DecidableEq, Repr

/-- `FailureStage.String`. -/
def FailureStage.text : FailureStage → String
  | .routing => "routing"
  | .policy => "policy"
  | .approval => "approval"
  | .workflow => "workflow"
  | .execution => "execution"
  | .runtime => "runtime"
  | .memoryContext => "memory_context"
  | .notification => "notification"
  | .other t => t

end Governance

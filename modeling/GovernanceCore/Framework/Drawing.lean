import GovernanceCore.Framework.ByteString
import GovernanceCore.Framework.Program

/-!
# Programs that draw bytes from a source

A **drawing** is a program whose only operation asks a source for a number of bytes. A source is a
state and a function that reads from it: a finite stream, a generator, a device that fails now and
then. Which bytes a program gets depends on how much was read before, so a source cannot be replaced
by a set of answers.

`Returns p Q` says that `p` ends with a result that satisfies `Q`, whatever the answers, as long as
each of them is a success with a byte other than zero. It has a rule for each way to build a
drawing, and `Returns.run` carries it over to every source and every state, if the bytes that are
actually drawn there are such.
-/

namespace Framework

/-! ### Errors as values -/

section Attempt

variable {Op : Type} {Res : Op → Type} {ε ε' α : Type}

/-- The result of a program as a value: an error does not end what comes after. -/
def Program.attempt : Program Op Res ε α → Program Op Res ε' (Except ε α)
  | .ret a => .ret (.ok a)
  | .fail e => .ret (.error e)
  | .act o k => .act o fun r => (k r).attempt

theorem Program.Follows.attempt {C : Contract Op Res}
    {E : Except ε' (Except ε α) → Log Op Res → Prop} :
    ∀ {p : Program Op Res ε α} {h : Log Op Res},
      p.Follows C (fun res h' => E (.ok res) h') h → p.attempt.Follows C E h := by
  intro p
  induction p with
  | ret a => exact fun hp => hp
  | fail e => exact fun hp => hp
  | act o k ih => exact fun hp => ⟨hp.1, fun r hr => ih r (hp.2 r hr)⟩

end Attempt

/-! ### Sources -/

/-- The read of exactly `n` bytes. -/
inductive ReadOp where
  | readFull (n : Nat)

/-- A program that draws bytes. -/
abbrev Drawing (ε α : Type) := Program ReadOp (fun _ => Except ε Bytes) ε α

def Drawing.readFull {ε : Type} (n : Nat) : Drawing ε (Except ε Bytes) :=
  .act (.readFull n) .ret

/-- A source of bytes. A read without an error has filled the whole buffer. -/
structure Source (ε σ : Type) where
  read : σ → Nat → Except ε Bytes × σ
  length_eq : ∀ {s n bs}, (read s n).1 = .ok bs → bs.length = n

section Source

variable {ε σ α : Type} (src : Source ε σ)

/-- The result of a drawing, and the source after it. -/
def Source.run : Drawing ε α → σ → Except ε α × σ
  | .ret a, s => (.ok a, s)
  | .fail e, s => (.error e, s)
  | .act (.readFull n) k, s => run (k (src.read s n).1) (src.read s n).2

/-- What the reads of a drawing have answered. -/
def Source.drawn : Drawing ε α → σ → List (Except ε Bytes)
  | .ret _, _ => []
  | .fail _, _ => []
  | .act (.readFull n) k, s => (src.read s n).1 :: drawn (k (src.read s n).1) (src.read s n).2

/-- Every read of the drawing succeeds, with bytes that are not all zero. -/
def Source.DrawsNonzero (p : Drawing ε α) (s : σ) : Prop :=
  ∀ r ∈ src.drawn p s, ∃ bs, r = .ok bs ∧ ∃ b ∈ bs, b ≠ 0

/-- The answers of reads that succeed with bytes that are not all zero. -/
def nonzeroReads (ε : Type) : Contract ReadOp (fun _ => Except ε Bytes) where
  answers := fun | .readFull n, r => ∃ bs, r = .ok bs ∧ bs.length = n ∧ ∃ b ∈ bs, b ≠ 0
  permits _ _ := True

/-- **What holds whatever is drawn holds for every source.** -/
theorem Source.run_of_follows {Q : Except ε α → Prop} :
    ∀ {p : Drawing ε α} {h : Log ReadOp (fun _ => Except ε Bytes)} {s : σ},
      p.Follows (nonzeroReads ε) (fun res _ => Q res) h → src.DrawsNonzero p s →
        Q (src.run p s).1 := by
  intro p
  induction p with
  | ret a => exact fun hp _ => hp
  | fail e => exact fun hp _ => hp
  | act o k ih =>
    obtain ⟨n⟩ := o
    intro h s hp hdrawn
    -- the first answer is one of those that the contract allows
    have hfirst : (nonzeroReads ε).answers (.readFull n) (src.read s n).1 := by
      obtain ⟨bs, hbs, hne⟩ := hdrawn _ List.mem_cons_self
      exact ⟨bs, hbs, src.length_eq hbs, hne⟩
    exact ih _ (hp.2 _ hfirst) fun r hr => hdrawn r (List.mem_cons_of_mem _ hr)

end Source

/-! ### Results -/

section Returns

variable {ε α β : Type} {Q : α → Prop} {R : β → Prop}

/-- The drawing ends without an error and with a result that satisfies `Q`, as long as its reads
succeed with bytes that are not all zero. -/
def Returns (p : Drawing ε α) (Q : α → Prop) : Prop :=
  ∀ h, p.Follows (nonzeroReads ε) (fun res _ => ∃ a, res = .ok a ∧ Q a) h

theorem Returns.ret {a : α} (ha : Q a) : Returns (.ret a : Drawing ε α) Q := fun _ => ⟨a, rfl, ha⟩

theorem Returns.mono {Q' : α → Prop} {p : Drawing ε α} (hp : Returns p Q)
    (hQ : ∀ a, Q a → Q' a) : Returns p Q' := by
  intro h
  refine Program.Follows.mono ?_ (hp h)
  rintro res _ ⟨a, rfl, ha⟩
  exact ⟨a, rfl, hQ a ha⟩

theorem Returns.bind {p : Drawing ε α} {f : α → Drawing ε β} (hp : Returns p Q)
    (hf : ∀ a, Q a → Returns (f a) R) : Returns (p >>= f) R := by
  intro h
  refine Program.Follows.bind (Program.Follows.mono ?_ (hp h))
  rintro res h' ⟨a, rfl, ha⟩
  exact hf a ha h'

/-- The rule for a read. -/
theorem Returns.readFull_bind {n : Nat} {f : Except ε Bytes → Drawing ε β}
    (hf : ∀ bs, bs.length = n → (∃ b ∈ bs, b ≠ 0) → Returns (f (.ok bs)) R) :
    Returns (Drawing.readFull n >>= f) R := by
  intro h
  refine ⟨trivial, ?_⟩
  rintro r ⟨bs, rfl, hlen, hne⟩
  exact hf bs hlen hne _

/-- The rule for a result that is looked at. -/
theorem Returns.attempt_bind {p : Drawing ε α} {f : Except ε α → Drawing ε β} (hp : Returns p Q)
    (hf : ∀ a, Q a → Returns (f (.ok a)) R) : Returns (p.attempt >>= f) R := by
  intro h
  refine Program.Follows.bind (Program.Follows.attempt (Program.Follows.mono ?_ (hp h)))
  rintro res h' ⟨a, rfl, ha⟩
  exact hf a ha h'

/-- The result for a source. -/
theorem Returns.run {p : Drawing ε α} (hp : Returns p Q) {σ : Type} {src : Source ε σ} {s : σ}
    (hdrawn : src.DrawsNonzero p s) : ∃ a, (src.run p s).1 = .ok a ∧ Q a :=
  src.run_of_follows (hp []) hdrawn

end Returns

end Framework

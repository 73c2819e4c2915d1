import Mathlib.Logic.Relation

/-!
# Programs of atomic operations

A **program** is a tree of atomic operations on a shared store: it returns, fails, or performs one
operation and continues with the operation's answer. The store is not part of the tree. Operations
get their meaning from an interpreter

  `exec : Choice → Store → (o : Op) → Res o × Store`

where a `Choice` carries whatever the environment decides (a fault, the row an unordered query
returns, the clock), so an interpreter is a function and a program can be executed.

Two semantics share these trees. `Program.Runs` runs one program to completion with nothing in
between. `Framework/Interleaving.lean` lets any number of programs take their operations in turn.

Each semantics has its own way of saying what a program does:

* `Program.Follows` is store-free. It says which operation a program may perform after which
  answers, and of the answers only what holds in every store (`Contract`), so it holds under every
  interleaving.
* `Program.Only` is the part of it that looks at neither the log nor the answers.
* `Program.wp` is the weakest precondition for the sequential semantics; `Program.Runs.of_wp` is
  its soundness. What a program follows is of use there too (`Program.Runs.sound`).
-/

namespace Framework

/-- A program over the operations `Op`, each answered by a `Res o`, that ends with an `α` or with
an error `ε`. -/
inductive Program (Op : Type) (Res : Op → Type) (ε α : Type) : Type where
  | ret (a : α)
  | fail (e : ε)
  | act (o : Op) (k : Res o → Program Op Res ε α)

namespace Program

variable {Op : Type} {Res : Op → Type} {ε α β : Type}

/-- Sequencing: an error ends the whole program. -/
def bind : Program Op Res ε α → (α → Program Op Res ε β) → Program Op Res ε β
  | ret a, f => f a
  | fail e, _ => fail e
  | act o k, f => act o (fun r => bind (k r) f)

instance : Monad (Program Op Res ε) where
  pure := ret
  bind := bind

theorem bind_assoc {γ : Type} (p : Program Op Res ε α) (f : α → Program Op Res ε β)
    (g : β → Program Op Res ε γ) : (p >>= f) >>= g = p >>= fun a => f a >>= g := by
  induction p with
  | ret a => rfl
  | fail e => rfl
  | act o k ih => exact congrArg (act o) (funext ih)

end Program

/-- One performed operation with its answer. -/
structure Event (Op : Type) (Res : Op → Type) where
  op : Op
  res : Res op

/-- What a program has performed so far, oldest first. -/
abbrev Log (Op : Type) (Res : Op → Type) := List (Event Op Res)

/-! ### What a program performs, whatever the answers -/

/-- What can be said about operations without a store: which answers an operation can give, and
which operations a program may perform after a log. -/
structure Contract (Op : Type) (Res : Op → Type) where
  answers : (o : Op) → Res o → Prop
  permits : Log Op Res → Op → Prop

section Follows

variable {Op : Type} {Res : Op → Type} {ε α β : Type}

/-- `p.Follows C E h`: from the log `h` on, as long as operations give the answers of the contract,
every operation that `p` performs is permitted at the log it has then, and `p` ends with a result
and a log that satisfy `E`. -/
def Program.Follows (C : Contract Op Res) (E : Except ε α → Log Op Res → Prop) :
    Program Op Res ε α → Log Op Res → Prop
  | .ret a, h => E (.ok a) h
  | .fail e, h => E (.error e) h
  | .act o k, h => C.permits h o ∧ ∀ r, C.answers o r → (k r).Follows C E (h ++ [⟨o, r⟩])

variable {C : Contract Op Res}

/-- The rule of consequence. -/
theorem Program.Follows.mono {E E' : Except ε α → Log Op Res → Prop}
    (hE : ∀ res h, E res h → E' res h) :
    ∀ {p : Program Op Res ε α} {h : Log Op Res}, p.Follows C E h → p.Follows C E' h := by
  intro p
  induction p with
  | ret a => exact fun hp => hE _ _ hp
  | fail e => exact fun hp => hE _ _ hp
  | act o k ih => exact fun hp => ⟨hp.1, fun r hr => ih r (hp.2 r hr)⟩

/-- The rule for sequencing. -/
theorem Program.Follows.bind {E : Except ε β → Log Op Res → Prop}
    {f : α → Program Op Res ε β} :
    ∀ {p : Program Op Res ε α} {h : Log Op Res},
      p.Follows C (fun res h' => match res with
        | .ok a => (f a).Follows C E h'
        | .error e => E (.error e) h') h →
      (p >>= f).Follows C E h := by
  intro p
  induction p with
  | ret a => exact fun hp => hp
  | fail e => exact fun hp => hp
  | act o k ih => exact fun hp => ⟨hp.1, fun r hr => ih r (hp.2 r hr)⟩

end Follows

/-! ### The operations a program may perform at all -/

section Only

variable {Op : Type} {Res : Op → Type} {ε α β : Type} {P P' : Op → Prop}

/-- Every operation that the program can come to, whatever the answers, satisfies `P`. -/
def Program.Only (P : Op → Prop) : Program Op Res ε α → Prop
  | .ret _ => True
  | .fail _ => True
  | .act o k => P o ∧ ∀ r, (k r).Only P

theorem Program.Only.mono (hP : ∀ o, P o → P' o) :
    ∀ {p : Program Op Res ε α}, p.Only P → p.Only P' := by
  intro p
  induction p with
  | ret a => exact id
  | fail e => exact id
  | act o k ih => exact fun hp => ⟨hP o hp.1, fun r => ih r (hp.2 r)⟩

theorem Program.Only.bind {f : α → Program Op Res ε β} (hf : ∀ a, (f a).Only P) :
    ∀ {p : Program Op Res ε α}, p.Only P → (p >>= f).Only P := by
  intro p
  induction p with
  | ret a => exact fun _ => hf a
  | fail e => exact id
  | act o k ih => exact fun hp => ⟨hp.1, fun r => ih r (hp.2 r)⟩

/-- Operations that a contract permits after every log need no further argument. -/
theorem Program.Only.follows {C : Contract Op Res} (hC : ∀ h o, P o → C.permits h o)
    {p : Program Op Res ε α} (hp : p.Only P) : ∀ h, p.Follows C (fun _ _ => True) h := by
  induction p with
  | ret a => exact fun _ => trivial
  | fail e => exact fun _ => trivial
  | act o k ih => exact fun h => ⟨hC h o hp.1, fun r _ => ih r (hp.2 r) _⟩

/-- A program that follows a contract and performs certain operations only. -/
theorem Program.Follows.and_only {C : Contract Op Res} {E : Except ε α → Log Op Res → Prop}
    {p : Program Op Res ε α} {h : Log Op Res} (hfol : p.Follows C E h) (honly : p.Only P) :
    p.Follows ⟨C.answers, fun h o => C.permits h o ∧ P o⟩ E h := by
  induction p generalizing h with
  | ret a => exact hfol
  | fail e => exact hfol
  | act o k ih => exact ⟨⟨hfol.1, honly.1⟩, fun r hr => ih r (hfol.2 r hr) (honly.2 r)⟩

end Only

/-! ### Running one program to completion -/

section Runs

variable {Store Op : Type} {Res : Op → Type} {ε α β : Type}

/-- The big-step semantics over a step relation: `p.Runs step s res s'` when `p`, started in `s`
and left alone, ends with `res` in `s'`. -/
inductive Program.Runs (step : Store → (o : Op) → Res o → Store → Prop) :
    Program Op Res ε α → Store → Except ε α → Store → Prop where
  | ret (a : α) (s : Store) : Runs step (.ret a) s (.ok a) s
  | fail (e : ε) (s : Store) : Runs step (.fail e) s (.error e) s
  | act {o : Op} {k : Res o → Program Op Res ε α} {s s₁ s' : Store} {r : Res o}
      {res : Except ε α} (hstep : step s o r s₁) (hrest : Runs step (k r) s₁ res s') :
      Runs step (.act o k) s res s'

variable {step : Store → (o : Op) → Res o → Store → Prop}

/-- The weakest precondition of a program left alone: `Q` holds of the result and the store at the
end of every run. -/
def Program.wp (step : Store → (o : Op) → Res o → Store → Prop) (Q : Except ε α → Store → Prop) :
    Program Op Res ε α → Store → Prop
  | .ret a, s => Q (.ok a) s
  | .fail e, s => Q (.error e) s
  | .act o k, s => ∀ r s₁, step s o r s₁ → (k r).wp step Q s₁

/-- The weakest precondition of a sequence, as a composition. -/
theorem Program.wp_bind {Q : Except ε β → Store → Prop} {f : α → Program Op Res ε β} :
    ∀ {p : Program Op Res ε α} {s : Store},
      (p >>= f).wp step Q s ↔ p.wp step (fun res s' => match res with
        | .ok a => (f a).wp step Q s'
        | .error e => Q (.error e) s') s := by
  intro p
  -- both sides ask for the same steps, in the same order
  induction p with
  | ret a => exact Iff.rfl
  | fail e => exact Iff.rfl
  | act o k ih =>
    intro s
    exact forall_congr' fun r => forall_congr' fun s₁ => imp_congr_right fun _ => ih r

/-- The rule of consequence for weakest preconditions. -/
theorem Program.wp_mono {Q Q' : Except ε α → Store → Prop} (hQ : ∀ res s, Q res s → Q' res s) :
    ∀ {p : Program Op Res ε α} {s : Store}, p.wp step Q s → p.wp step Q' s := by
  intro p
  induction p with
  | ret a => exact fun hp => hQ _ _ hp
  | fail e => exact fun hp => hQ _ _ hp
  | act o k ih => exact fun hp r s₁ hs => ih r (hp r s₁ hs)

/-- **Soundness**: the weakest precondition speaks about every complete run. -/
theorem Program.Runs.of_wp {Q : Except ε α → Store → Prop} {p : Program Op Res ε α}
    {s s' : Store} {res : Except ε α} (hrun : p.Runs step s res s') :
    p.wp step Q s → Q res s' := by
  induction hrun with
  | ret a s => exact id
  | fail e s => exact id
  | act hstep _ ih => exact fun hp => ih (hp _ _ hstep)

/-- **The event rule for a program left alone.** `I` is an invariant of the store and `V` a validity
of logged events. When every operation within the contract keeps both and makes a valid event, the
invariant holds at the end of the run. -/
theorem Program.Runs.sound {C : Contract Op Res} {E : Except ε α → Log Op Res → Prop}
    {I : Store → Prop} {V : Event Op Res → Store → Prop}
    (hanswers : ∀ {s o r s'}, step s o r s' → C.answers o r)
    (hstep : ∀ (h : Log Op Res) (s : Store) (o : Op) (r : Res o) (s' : Store),
      I s → (∀ e ∈ h, V e s) → C.permits h o → step s o r s' →
        I s' ∧ V ⟨o, r⟩ s' ∧ ∀ e, V e s → V e s')
    {p : Program Op Res ε α} {s s' : Store} {res : Except ε α} (hrun : p.Runs step s res s') :
    ∀ {h : Log Op Res}, p.Follows C E h → I s → (∀ e ∈ h, V e s) → I s' := by
  induction hrun with
  | ret a s => exact fun _ hI _ => hI
  | fail e s => exact fun _ hI _ => hI
  | act hs _ ih =>
    intro h hfol hI hV
    obtain ⟨hI₁, hnew, hold⟩ := hstep h _ _ _ _ hI hV hfol.1 hs
    refine ih (hfol.2 _ (hanswers hs)) hI₁ fun e he => ?_
    rcases List.mem_append.mp he with he | he
    · exact hold e (hV e he)
    · rw [List.mem_singleton] at he
      exact he ▸ hnew

/-- An error ends the whole sequence. -/
theorem Program.Runs.bind_error {f : α → Program Op Res ε β} {e : ε} :
    ∀ {p : Program Op Res ε α} {s s' : Store},
      p.Runs step s (.error e) s' → (p >>= f).Runs step s (.error e) s' := by
  intro p
  induction p with
  | ret a =>
    intro s s' h
    cases h
  | fail e' =>
    intro s s' h
    cases h
    exact .fail e s
  | act o k ih =>
    intro s s' h
    cases h with
    | act hstep hrest => exact .act hstep (ih _ hrest)

/-- A program that is never left without a step has a run. -/
theorem Program.exists_runs (hstep : ∀ s o, ∃ r s', step s o r s') :
    ∀ (p : Program Op Res ε α) (s : Store), ∃ res s', p.Runs step s res s' := by
  intro p
  induction p with
  | ret a => exact fun s => ⟨.ok a, s, .ret a s⟩
  | fail e => exact fun s => ⟨.error e, s, .fail e s⟩
  | act o k ih =>
    intro s
    obtain ⟨r, s₁, hr⟩ := hstep s o
    obtain ⟨res, s', hrest⟩ := ih r s₁
    exact ⟨res, s', .act hr hrest⟩

/-- **Projection of runs.** When every step over one state is a step over its image, a run is a run
over the image. -/
theorem Program.Runs.map {State : Type} {step' : State → (o : Op) → Res o → State → Prop}
    {f : Store → State} (hstep : ∀ {s o r s'}, step s o r s' → step' (f s) o r (f s'))
    {p : Program Op Res ε α} {s s' : Store} {res : Except ε α} (hrun : p.Runs step s res s') :
    p.Runs step' (f s) res (f s') := by
  induction hrun with
  | ret a s => exact .ret a (f s)
  | fail e s => exact .fail e (f s)
  | act h _ ih => exact .act (hstep h) ih

end Runs

end Framework

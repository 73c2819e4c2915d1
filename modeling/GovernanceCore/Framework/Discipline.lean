import GovernanceCore.Framework.Interleaving

/-!
# Runs under a discipline

A `Guard` knows the moving call by its log only. A **discipline** knows which call it is and sees
all the others, so it can say that two calls are never in the same section at once, or that a kind
of call is only made in certain states.

`System.ReachUnder` are the pools reached by steps that keep the discipline. They are reachable
(`ReachUnder.reach`), so whatever holds under every interleaving holds of them, and they have an
invariant rule of their own (`ReachUnder.invariant`).
-/

namespace Framework

variable {Call Choice Store Op : Type} {Res : Op → Type} {ε α : Type}

/-- A restriction on steps: all calls with their store, the moving call, its operation and the
answer. -/
abbrev Discipline (Call Store Op : Type) (Res : Op → Type) (ε α : Type) :=
  Pool Call Store Op Res ε α → Thread Call Op Res ε α → (o : Op) → Res o → Prop

namespace System

/-- The pools reached from `p₀` by arrivals and by operations that keep the discipline. -/
inductive ReachUnder (S : System Call Choice Store Op Res ε α)
    (D : Discipline Call Store Op Res ε α) (p₀ : Pool Call Store Op Res ε α) :
    Pool Call Store Op Res ε α → Prop where
  | start : ReachUnder S D p₀ p₀
  | spawn {p : Pool Call Store Op Res ε α} (hp : ReachUnder S D p₀ p) (c : Call) :
      ReachUnder S D p₀ (p.spawn S c)
  | advance {p : Pool Call Store Op Res ε α} {i : Nat} {t : Thread Call Op Res ε α} {o : Op}
      {k : Res o → Program Op Res ε α} {ch : Choice} {r : Res o} {s' : Store}
      (hp : ReachUnder S D p₀ p) (hi : p.threads[i]? = some t) (ht : t.prog = .act o k)
      (hex : S.exec ch p.store o = (r, s')) (hD : D p t o r) :
      ReachUnder S D p₀ (p.advance i t o k r s')

variable {S : System Call Choice Store Op Res ε α} {D : Discipline Call Store Op Res ε α}
  {C : Contract Op Res} {E : Call → Except ε α → Log Op Res → Prop}
  {p₀ p p' : Pool Call Store Op Res ε α}

theorem ReachUnder.reach (hp : S.ReachUnder D p₀ p) : S.Reach unguarded p₀ p := by
  induction hp with
  | start => exact .refl
  | spawn _ c ih => exact ih.tail (.spawn _ c)
  | advance _ hi ht hex _ ih => exact ih.tail (.advance hi ht hex trivial)

/-- **The pool rule** for runs under a discipline. -/
theorem ReachUnder.invariant (hS : S.Keeps C E) (hp₀ : InContract C E p₀)
    {J : Pool Call Store Op Res ε α → Prop} (hstart : J p₀)
    (hspawn : ∀ p c, J p → J (p.spawn S c))
    (hadvance : ∀ (p : Pool Call Store Op Res ε α) (i : Nat) (t : Thread Call Op Res ε α) (o : Op)
      (k : Res o → Program Op Res ε α) (ch : Choice) (r : Res o) (s' : Store),
      S.ReachUnder D p₀ p → J p → p.threads[i]? = some t → t.prog = .act o k →
      C.permits t.log o → S.exec ch p.store o = (r, s') → D p t o r →
      J (p.advance i t o k r s'))
    (hp : S.ReachUnder D p₀ p) : J p := by
  induction hp with
  | start => exact hstart
  | spawn _ c ih => exact hspawn _ c ih
  | advance hreach hi ht hex hD ih =>
    have hcontract := Reach.inContract hS hp₀ hreach.reach
    have hfol := hcontract _ (List.mem_of_getElem? hi)
    rw [ht] at hfol
    exact hadvance _ _ _ _ _ _ _ _ hreach ih hi ht hfol.1 hex hD

/-! ### Execution of a given schedule -/

/-- Carry out a schedule, as long as the check `d` accepts its steps. -/
def playUnder (S : System Call Choice Store Op Res ε α)
    (d : Pool Call Store Op Res ε α → Thread Call Op Res ε α → (o : Op) → Res o → Bool) :
    Pool Call Store Op Res ε α → List (Action Call Choice) → Option (Pool Call Store Op Res ε α)
  | p, [] => some p
  | p, .spawn c :: acts => S.playUnder d (p.spawn S c) acts
  | p, .advance i ch :: acts =>
    match p.threads[i]? with
    | none => none
    | some t =>
      match t.prog with
      | .act o k =>
        match S.exec ch p.store o with
        | (r, s') => if d p t o r then S.playUnder d (p.advance i t o k r s') acts else none
      | _ => none

theorem playUnder_reachUnder
    {d : Pool Call Store Op Res ε α → Thread Call Op Res ε α → (o : Op) → Res o → Bool}
    (hd : ∀ p t o r, d p t o r = true → D p t o r) :
    ∀ {acts : List (Action Call Choice)} {p : Pool Call Store Op Res ε α},
      S.playUnder d p acts = some p' → S.ReachUnder D p₀ p → S.ReachUnder D p₀ p' := by
  intro acts
  induction acts with
  | nil =>
    intro p h hp
    rw [playUnder, Option.some.injEq] at h
    exact h ▸ hp
  | cons a acts ih =>
    intro p h hp
    cases a with
    | spawn c => exact ih h (.spawn hp c)
    | advance i ch =>
      unfold playUnder at h
      split at h
      · cases h
      · next t hi =>
        split at h
        · next o k ht =>
          split at h
          -- The answer is known before the test: a discipline may depend on it.
          next r s' hex =>
          split at h
          · next hdr => exact ih h (.advance hp hi ht hex (hd _ _ _ _ hdr))
          · cases h
        · cases h

end System

end Framework

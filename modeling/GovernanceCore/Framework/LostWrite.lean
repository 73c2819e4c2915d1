import GovernanceCore.Framework.Program

/-!
# Programs that lose a write

Some operations of a program are **writes**. `lostAt k` are the steps of an execution in which the
write number `k` is lost: it has no effect and the program gets an error for it. Every other
operation succeeds.

`Program.Writes` says what a program writes when nothing is lost, one effect for each write, and
that it gives up at the first write that fails. From it both executions can be read off: nothing is
lost and all effects take place (`Program.Writes.runs`), or the write `k` is lost and the first `k`
take place (`Program.Writes.runs_lostAt`).
-/

namespace Framework

variable {σ Op : Type} {Res : Op → Type} {ε α β : Type}

/-- The effects of a list, one after the other. -/
def Chain : List (σ → σ → Prop) → σ → σ → Prop
  | [], s, s' => s' = s
  | e :: es, s, s' => ∃ s₁, e s s₁ ∧ Chain es s₁ s'

/-- What no effect changes is not changed. -/
theorem Chain.keeps {A : Type} {f : σ → A} {es : List (σ → σ → Prop)}
    (h : ∀ e ∈ es, ∀ s s', e s s' → f s' = f s) {s s' : σ} (hchain : Chain es s s') :
    f s' = f s := by
  induction es generalizing s with
  | nil => exact congrArg f hchain
  | cons e es ih =>
    obtain ⟨s₁, he, hrest⟩ := hchain
    rw [← h e List.mem_cons_self s s₁ he]
    exact ih (fun e' he' => h e' (List.mem_cons_of_mem e he')) hrest

/-- The steps of an execution that loses its write number `k`. The second component counts the
writes. -/
def lostAt (good lost : σ → (o : Op) → Res o → σ → Prop) (isWrite : Op → Bool) (k : Nat) :
    σ × Nat → (o : Op) → Res o → σ × Nat → Prop := fun s o r s' =>
  if isWrite o then
    s'.2 = s.2 + 1 ∧ if s.2 = k then lost s.1 o r s'.1 else good s.1 o r s'.1
  else s'.2 = s.2 ∧ good s.1 o r s'.1

/-- Steps that lose a write, seen through a projection of the state. -/
theorem lostAt.map {τ : Type} {good lost : σ → (o : Op) → Res o → σ → Prop}
    {good' lost' : τ → (o : Op) → Res o → τ → Prop} {isWrite : Op → Bool} {k : Nat} {f : σ → τ}
    (hgood : ∀ {s o r s'}, good s o r s' → good' (f s) o r (f s'))
    (hlost : ∀ {s o r s'}, lost s o r s' → lost' (f s) o r (f s')) {x x' : σ × Nat} {o : Op}
    {r : Res o} (h : lostAt good lost isWrite k x o r x') :
    lostAt good' lost' isWrite k (f x.1, x.2) o r (f x'.1, x'.2) := by
  unfold lostAt at h ⊢
  by_cases ho : isWrite o = true
  · rw [if_pos ho] at h ⊢
    refine ⟨h.1, ?_⟩
    by_cases hk : x.2 = k
    · rw [if_pos hk] at h ⊢
      exact hlost h.2
    · rw [if_neg hk] at h ⊢
      exact hgood h.2
  · rw [if_neg ho] at h ⊢
    exact ⟨h.1, hgood h.2⟩

/-- `p.Writes good lost isWrite es s`: from `s` on, the writes of `p` have the effects `es` and
nothing else changes the state; `p` succeeds, and it fails at once when a write is lost. -/
def Program.Writes (good lost : σ → (o : Op) → Res o → σ → Prop) (isWrite : Op → Bool) :
    Program Op Res ε α → List (σ → σ → Prop) → σ → Prop
  | .ret _, es, _ => es = []
  | .fail _, _, _ => False
  | .act o k, es, s =>
    if isWrite o then
      ∃ e rest, es = e :: rest ∧
        (∀ r s', good s o r s' → e s s' ∧ (k r).Writes good lost isWrite rest s') ∧
        ∀ r s', lost s o r s' → s' = s ∧ ∃ err, k r = .fail err
    else ∀ r s', good s o r s' → s' = s ∧ (k r).Writes good lost isWrite es s

variable {good lost : σ → (o : Op) → Res o → σ → Prop} {isWrite : Op → Bool}
  {es : List (σ → σ → Prop)} {s : σ}

namespace Program.Writes

/-! ### Rules -/

/-- A read, or anything else that leaves the state as it is. -/
theorem read {o : Op} {f : Res o → Program Op Res ε α} (ho : isWrite o = false)
    (h : ∀ r s', good s o r s' → s' = s ∧ (f r).Writes good lost isWrite es s) :
    (Program.act o f).Writes good lost isWrite es s := by
  rw [Program.Writes, if_neg (by rw [ho]; exact Bool.false_ne_true)]
  exact h

theorem write {o : Op} {f : Res o → Program Op Res ε α} {e : σ → σ → Prop}
    (ho : isWrite o = true)
    (h : ∀ r s', good s o r s' → e s s' ∧ (f r).Writes good lost isWrite es s')
    (hlost : ∀ r s', lost s o r s' → s' = s ∧ ∃ err, f r = .fail err) :
    (Program.act o f).Writes good lost isWrite (e :: es) s := by
  rw [Program.Writes, if_pos ho]
  exact ⟨e, es, rfl, h, hlost⟩

/-- The result of a program does not matter to what it writes. -/
theorem map {f : α → β} {p : Program Op Res ε α} (h : p.Writes good lost isWrite es s) :
    (p >>= fun a => .ret (f a)).Writes good lost isWrite es s := by
  induction p generalizing es s with
  | ret a => exact h
  | fail err => exact h
  | act o k ih =>
    change (Program.act o fun r => k r >>= fun a => .ret (f a)).Writes good lost isWrite es s
    by_cases ho : isWrite o = true
    · rw [Program.Writes, if_pos ho] at h
      obtain ⟨e, rest, rfl, hgood, hlost⟩ := h
      refine write ho (fun r s' hr => ?_) fun r s' hr => ?_
      · obtain ⟨he, hrest⟩ := hgood r s' hr
        exact ⟨he, ih r hrest⟩
      · -- After the lost write the program has failed, and what would follow is not run.
        obtain ⟨hs, err, hfail⟩ := hlost r s' hr
        refine ⟨hs, err, ?_⟩
        rw [hfail]
        rfl
    · rw [Program.Writes, if_neg ho] at h
      refine read (Bool.eq_false_iff.mpr ho) fun r s' hr => ?_
      obtain ⟨hs, hrest⟩ := h r s' hr
      exact ⟨hs, ih r hrest⟩

/-! ### The two executions -/

/-- **Nothing is lost**: the program succeeds and all its effects take place. -/
theorem runs {p : Program Op Res ε α} {s' : σ} {res : Except ε α}
    (h : p.Writes good lost isWrite es s) (hrun : p.Runs good s res s') :
    (∃ a, res = .ok a) ∧ Chain es s s' := by
  induction hrun generalizing es with
  | ret a s =>
    subst h
    exact ⟨⟨a, rfl⟩, rfl⟩
  | fail err s => exact h.elim
  | act hstep _ ih =>
    rw [Program.Writes] at h
    split at h
    · obtain ⟨e, rest, rfl, hgood, -⟩ := h
      obtain ⟨he, hrest⟩ := hgood _ _ hstep
      obtain ⟨hres, hchain⟩ := ih hrest
      exact ⟨hres, _, he, hchain⟩
    · obtain ⟨rfl, hrest⟩ := h _ _ hstep
      exact ih hrest

/-- **A write is lost**: the effects before it take place and the program fails. A program with
fewer writes makes them all. -/
theorem runs_lostAt {p : Program Op Res ε α} {k : Nat} {x x' : σ × Nat} {res : Except ε α}
    (hrun : p.Runs (lostAt good lost isWrite k) x res x') :
    ∀ {es : List (σ → σ → Prop)} {j : Nat}, p.Writes good lost isWrite es x.1 → x.2 + j = k →
      (j < es.length ∧ k < x'.2 ∧ (∃ err, res = .error err) ∧ Chain (es.take j) x.1 x'.1) ∨
        (es.length ≤ j ∧ x'.2 = x.2 + es.length) := by
  induction hrun with
  | ret a x =>
    intro es j h hj
    subst h
    exact Or.inr ⟨Nat.zero_le j, rfl⟩
  | fail err x =>
    intro es j h
    exact h.elim
  | @act o f x x₁ x' r res hstep hrest ih =>
    intro es j h hj
    rw [Program.Writes] at h
    rw [lostAt] at hstep
    split at h
    · next ho =>
      rw [if_pos ho] at hstep
      obtain ⟨e, rest, rfl, hgood, hlost⟩ := h
      obtain ⟨hcount, hstep⟩ := hstep
      cases j with
      | zero =>
        -- this is the write that is lost
        rw [if_pos (by omega)] at hstep
        obtain ⟨hs, err, hfail⟩ := hlost r _ hstep
        rw [hfail] at hrest
        cases hrest
        exact Or.inl ⟨Nat.succ_pos _, by omega, ⟨err, rfl⟩, hs⟩
      | succ j =>
        rw [if_neg (by omega)] at hstep
        obtain ⟨he, hwrites⟩ := hgood r _ hstep
        rcases ih (j := j) hwrites (by omega) with ⟨hlen, hk, herr, hchain⟩ | ⟨hlen, hall⟩
        · exact Or.inl ⟨Nat.succ_lt_succ hlen, hk, herr, _, he, hchain⟩
        · refine Or.inr ⟨Nat.succ_le_succ hlen, ?_⟩
          rw [hall, List.length_cons]
          omega
    · next ho =>
      rw [if_neg ho] at hstep
      obtain ⟨hcount, hstep⟩ := hstep
      obtain ⟨hs, hwrites⟩ := h r _ hstep
      rw [← hs] at hwrites ⊢
      rw [← hcount]
      exact ih hwrites (by omega)

end Program.Writes

end Framework

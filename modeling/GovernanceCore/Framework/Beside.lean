import GovernanceCore.Framework.Composition

/-!
# A system beside another

Programs of another kind run beside the calls of a system `S`: a `Companion`. It has a store of its
own, the side, and operations on it. Its programs may read the store of `S`, may perform operations
of `S`, and what they leave in the side may decide what `S` takes from its environment
(`Companion.steer`). `System.beside` is the system of both.

A companion that performs no operation of `S` cannot be told from the environment:
`System.Reach.exists_behind` finds a run of `S` alone behind every run of both, with the calls of
`S` as they are.
-/

namespace Framework

variable {Call Choice Store Op : Type} {Res : Op → Type} {ε α : Type}
  {Call' Choice' Side Op' : Type} {Res' : Op' → Type} {ε' β γ δ : Type}

/-! ### Programs over more operations -/

/-- The same program, where there are other operations too. -/
def Program.lift : Program Op Res ε α → Program (Op ⊕ Op') (Sum.elim Res Res') ε α
  | .ret a => .ret a
  | .fail e => .fail e
  | .act o k => .act (.inl o) fun r => (k r).lift

/-- The end of a call of the system. -/
def Program.inLeft : Except ε α → Program (Op ⊕ Op') (Sum.elim Res Res') (ε ⊕ ε') (α ⊕ β)
  | .ok a => .ret (.inl a)
  | .error e => .fail (.inl e)

/-- The end of a program of the companion. -/
def Program.inRight : Except ε' β → Program (Op ⊕ Op') (Sum.elim Res Res') (ε ⊕ ε') (α ⊕ β)
  | .ok b => .ret (.inr b)
  | .error e => .fail (.inr e)

/-- A contract that permits all operations of the system is followed by its calls. -/
theorem Program.follows_lift {C : Contract (Op ⊕ Op') (Sum.elim Res Res')}
    {E : Except (ε ⊕ ε') (α ⊕ β) → Log (Op ⊕ Op') (Sum.elim Res Res') → Prop}
    (hC : ∀ h o, C.permits h (.inl o)) (hok : ∀ {a h}, E (.ok (.inl a)) h)
    (herror : ∀ {e h}, E (.error (.inl e)) h) (p : Program Op Res ε α)
    (h : Log (Op ⊕ Op') (Sum.elim Res Res')) : (p.lift.handle Program.inLeft).Follows C E h := by
  induction p generalizing h with
  | ret a => exact hok
  | fail e => exact herror
  | act o k ih => exact ⟨hC h o, fun r _ => ih r _⟩

theorem Program.Only.handle {P : Op → Prop} {p : Program Op Res ε α} (hp : p.Only P)
    {k : Except ε α → Program Op Res δ γ} (hk : ∀ res, (k res).Only P) : (p.handle k).Only P := by
  induction p with
  | ret a => exact hk (.ok a)
  | fail e => exact hk (.error e)
  | act o q ih => exact ⟨hp.1, fun r => ih r (hp.2 r)⟩

theorem Program.Follows.handle {C : Contract Op Res} {E : Except δ γ → Log Op Res → Prop}
    {p : Program Op Res ε α} {k : Except ε α → Program Op Res δ γ} {h : Log Op Res}
    (hp : p.Follows C (fun res h' => (k res).Follows C E h') h) : (p.handle k).Follows C E h := by
  induction p generalizing h with
  | ret a => exact hp
  | fail e => exact hp
  | act o q ih => exact ⟨hp.1, fun r hr => ih r (hp.2 r hr)⟩

theorem Program.only_inRight {P : Op ⊕ Op' → Prop} (res : Except ε' β) :
    (Program.inRight res : Program _ (Sum.elim Res Res') (ε ⊕ ε') (α ⊕ β)).Only P := by
  cases res <;> trivial

/-! ### Both systems -/

/-- What runs beside a system with these operations, over these choices and stores. -/
structure Companion (Choice Store Op : Type) (Res : Op → Type) (Call' Choice' Side Op' : Type)
    (Res' : Op' → Type) (ε' β : Type) where
  steer : Side → Choice → Choice
  exec : Choice' → Store → Side → (o : Op') → Res' o × Side
  body : Call' → Program (Op ⊕ Op') (Sum.elim Res Res') ε' β

/-- The system and its companion. -/
def System.beside (S : System Call Choice Store Op Res ε α)
    (K : Companion Choice Store Op Res Call' Choice' Side Op' Res' ε' β) :
    System (Call ⊕ Call') (Choice × Choice') (Store × Side) (Op ⊕ Op') (Sum.elim Res Res')
      (ε ⊕ ε') (α ⊕ β) where
  exec ch s
    | .inl o =>
      let (r, s') := S.exec (K.steer s.2 ch.1) s.1 o
      (r, (s', s.2))
    | .inr o =>
      let (r, d) := K.exec ch.2 s.1 s.2 o
      (r, (s.1, d))
  body
    | .inl c => (S.body c).lift.handle Program.inLeft
    | .inr c => (K.body c).handle Program.inRight

section Beside

variable {S : System Call Choice Store Op Res ε α}
  {K : Companion Choice Store Op Res Call' Choice' Side Op' Res' ε' β}

theorem System.beside_exec_inl {ch : Choice × Choice'} {s s' : Store × Side} {o : Op}
    {r : Res o} (h : (S.beside K).exec ch s (.inl o) = (r, s')) :
    S.exec (K.steer s.2 ch.1) s.1 o = (r, s'.1) ∧ s'.2 = s.2 := by
  obtain ⟨rfl, rfl⟩ := Prod.mk.inj h
  exact ⟨rfl, rfl⟩

theorem System.beside_exec_inr {ch : Choice × Choice'} {s s' : Store × Side} {o : Op'}
    {r : Res' o} (h : (S.beside K).exec ch s (.inr o) = (r, s')) :
    K.exec ch.2 s.1 s.2 o = (r, s'.2) ∧ s'.1 = s.1 := by
  obtain ⟨rfl, rfl⟩ := Prod.mk.inj h
  exact ⟨rfl, rfl⟩

/-- How programs of both kinds end, given how those of the companion do. -/
def besideEnds (E : Call' → Except ε' β → Log (Op ⊕ Op') (Sum.elim Res Res') → Prop) :
    Call ⊕ Call' → Except (ε ⊕ ε') (α ⊕ β) → Log (Op ⊕ Op') (Sum.elim Res Res') → Prop
  | .inl _, .ok (.inl _), _ => True
  | .inl _, .error (.inl _), _ => True
  | .inr c, .ok (.inr b), h => E c (.ok b) h
  | .inr c, .error (.inr e), h => E c (.error e) h
  | _, _, _ => False

/-- **A contract about the companion** is kept when its programs follow it. -/
theorem System.beside_keeps {C : Contract (Op ⊕ Op') (Sum.elim Res Res')}
    {E : Call' → Except ε' β → Log (Op ⊕ Op') (Sum.elim Res Res') → Prop}
    (hanswers : ∀ o r, C.answers o r) (hleft : ∀ h o, C.permits h (.inl o))
    (hright : ∀ c, (K.body c).Follows C (E c) []) : (S.beside K).Keeps C (besideEnds E) where
  answers _ := hanswers _ _
  follows c := by
    cases c with
    | inl c => exact Program.follows_lift hleft trivial trivial (S.body c) []
    | inr c =>
      refine Program.Follows.handle ((hright c).mono fun res h hres => ?_)
      cases res <;> exact hres

variable {C : Contract (Op ⊕ Op') (Sum.elim Res Res')}
  {E : Call' → Except ε' β → Log (Op ⊕ Op') (Sum.elim Res Res') → Prop}
  {G : Guard (Store × Side) (Op ⊕ Op') (Sum.elim Res Res')} {s₀ : Store × Side}
  {p : Pool (Call ⊕ Call') (Store × Side) (Op ⊕ Op') (Sum.elim Res Res') (ε ⊕ ε') (α ⊕ β)}
  {t : Thread (Call ⊕ Call') (Op ⊕ Op') (Sum.elim Res Res') (ε ⊕ ε') (α ⊕ β)}

/-- A result of the companion is one of its programs, which has ended as it should. -/
theorem System.Reach.companion_ends (hS : (S.beside K).Keeps C (besideEnds E))
    (hp : (S.beside K).Reach G (Pool.start s₀) p) (ht : t ∈ p.threads) {b : β}
    (hret : t.prog = .ret (.inr b)) : ∃ c, t.call = .inr c ∧ E c (.ok b) t.log := by
  have hends := System.Reach.inContract hS System.inContract_start hp t ht
  rw [hret] at hends
  cases hcall : t.call with
  | inl c =>
    rw [hcall] at hends
    exact hends.elim
  | inr c =>
    rw [hcall] at hends
    exact ⟨c, rfl, hends⟩

/-- The same of an error. -/
theorem System.Reach.companion_fails (hS : (S.beside K).Keeps C (besideEnds E))
    (hp : (S.beside K).Reach G (Pool.start s₀) p) (ht : t ∈ p.threads) {e : ε'}
    (hfail : t.prog = .fail (.inr e)) : ∃ c, t.call = .inr c ∧ E c (.error e) t.log := by
  have hends := System.Reach.inContract hS System.inContract_start hp t ht
  rw [hfail] at hends
  cases hcall : t.call with
  | inl c =>
    rw [hcall] at hends
    exact hends.elim
  | inr c =>
    rw [hcall] at hends
    exact ⟨c, rfl, hends⟩

end Beside

/-! ### The run of the system alone -/

section Behind

/-- The calls of the system among the threads of both, in their order: `us` are their threads in a
run of the system alone. -/
inductive Behind : List (Thread (Call ⊕ Call') (Op ⊕ Op') (Sum.elim Res Res') (ε ⊕ ε') (α ⊕ β)) →
    List (Thread Call Op Res ε α) → Prop where
  | nil : Behind [] []
  | call {t ts us} {u : Thread Call Op Res ε α} (hcall : t.call = .inl u.call)
      (hprog : t.prog = u.prog.lift.handle Program.inLeft) (h : Behind ts us) :
      Behind (t :: ts) (u :: us)
  | companion {t ts us} (honly : t.prog.Only fun o => o.isRight = true) (h : Behind ts us) :
      Behind (t :: ts) us

variable {ts : List (Thread (Call ⊕ Call') (Op ⊕ Op') (Sum.elim Res Res') (ε ⊕ ε') (α ⊕ β))}
  {us : List (Thread Call Op Res ε α)}

theorem Behind.append (h : Behind ts us)
    {ts' : List (Thread (Call ⊕ Call') (Op ⊕ Op') (Sum.elim Res Res') (ε ⊕ ε') (α ⊕ β))}
    {us' : List (Thread Call Op Res ε α)} (h' : Behind ts' us') : Behind (ts ++ ts') (us ++ us') := by
  induction h with
  | nil => exact h'
  | call hcall hprog _ ih => exact .call hcall hprog ih
  | companion honly _ ih => exact .companion honly ih

/-- A lifted call performs the operations of the call, and then goes on as the call does. -/
theorem Program.exists_of_lift_eq_act {p : Program Op Res ε α} {o : Op}
    {k : Res o → Program (Op ⊕ Op') (Sum.elim Res Res') (ε ⊕ ε') (α ⊕ β)}
    (h : p.lift.handle Program.inLeft = .act (.inl o) k) :
    ∃ k₀, p = .act o k₀ ∧ ∀ r, k r = (k₀ r).lift.handle Program.inLeft := by
  cases p with
  | ret a => cases h
  | fail e => cases h
  | act o₀ k₀ =>
    cases h
    exact ⟨k₀, rfl, fun _ => rfl⟩

theorem Program.lift_ne_act_inr {p : Program Op Res ε α} {o : Op'}
    {k : Res' o → Program (Op ⊕ Op') (Sum.elim Res Res') (ε ⊕ ε') (α ⊕ β)} :
    p.lift.handle Program.inLeft ≠ .act (.inr o) k := by
  intro h
  cases p <;> cases h

variable {i : Nat} {t : Thread (Call ⊕ Call') (Op ⊕ Op') (Sum.elim Res Res') (ε ⊕ ε') (α ⊕ β)}

/-- An operation of the system is performed by one of its calls. -/
theorem Behind.advance_inl (h : Behind ts us) (hi : ts[i]? = some t) {o : Op}
    {k : Res o → Program (Op ⊕ Op') (Sum.elim Res Res') (ε ⊕ ε') (α ⊕ β)}
    (ht : t.prog = .act (.inl o) k) :
    ∃ j u k₀, us[j]? = some u ∧ u.prog = .act o k₀ ∧
      ∀ r : Res o, Behind (ts.set i ⟨t.call, k r, t.log ++ [⟨.inl o, r⟩]⟩)
        (us.set j ⟨u.call, k₀ r, u.log ++ [⟨o, r⟩]⟩) := by
  induction h generalizing i with
  | nil => cases hi
  | @call t' ts us u hcall hprog h ih =>
    cases i with
    | zero =>
      obtain rfl := Option.some.inj hi
      obtain ⟨k₀, hk₀, hk⟩ := Program.exists_of_lift_eq_act (hprog.symm.trans ht)
      exact ⟨0, u, k₀, rfl, hk₀, fun r => .call hcall (hk r) h⟩
    | succ i =>
      obtain ⟨j, v, k₀, hj, hv, hbehind⟩ := ih hi
      exact ⟨j + 1, v, k₀, hj, hv, fun r => .call hcall hprog (hbehind r)⟩
  | @companion t' ts us honly h ih =>
    cases i with
    | zero =>
      -- the companion performs operations of its own only
      obtain rfl := Option.some.inj hi
      rw [ht] at honly
      cases honly.1
    | succ i =>
      obtain ⟨j, v, k₀, hj, hv, hbehind⟩ := ih hi
      exact ⟨j, v, k₀, hj, hv, fun r => .companion honly (hbehind r)⟩

/-- An operation of the companion is performed by one of its programs. -/
theorem Behind.advance_inr (h : Behind ts us) (hi : ts[i]? = some t) {o : Op'}
    {k : Res' o → Program (Op ⊕ Op') (Sum.elim Res Res') (ε ⊕ ε') (α ⊕ β)}
    (ht : t.prog = .act (.inr o) k) (r : Res' o) :
    Behind (ts.set i ⟨t.call, k r, t.log ++ [⟨.inr o, r⟩]⟩) us := by
  induction h generalizing i with
  | nil => cases hi
  | @call t' ts us u hcall hprog h ih =>
    cases i with
    | zero =>
      obtain rfl := Option.some.inj hi
      exact absurd (hprog.symm.trans ht) Program.lift_ne_act_inr
    | succ i => exact .call hcall hprog (ih hi)
  | @companion t' ts us honly h ih =>
    cases i with
    | zero =>
      obtain rfl := Option.some.inj hi
      rw [ht] at honly
      exact .companion (honly.2 r) h
    | succ i => exact .companion honly (ih hi)

end Behind

/-- **The companion is part of the environment.** When it performs operations of its own only, the
calls of the system do in every run of both what they do in some run of the system alone. -/
theorem System.Reach.exists_behind {S : System Call Choice Store Op Res ε α}
    {K : Companion Choice Store Op Res Call' Choice' Side Op' Res' ε' β}
    (hown : ∀ c, (K.body c).Only fun o => o.isRight = true) {s₀ : Store} {d₀ : Side}
    {p : Pool (Call ⊕ Call') (Store × Side) (Op ⊕ Op') (Sum.elim Res Res') (ε ⊕ ε') (α ⊕ β)}
    (hp : (S.beside K).Reach unguarded (Pool.start (s₀, d₀)) p) :
    ∃ q, S.Reach unguarded (Pool.start s₀) q ∧ q.store = p.store.1 ∧
      Behind p.threads q.threads := by
  induction hp with
  | refl => exact ⟨Pool.start s₀, .refl, rfl, .nil⟩
  | tail _ hstep ih =>
    obtain ⟨q, hq, hstore, hbehind⟩ := ih
    cases hstep with
    | spawn c =>
      cases c with
      | inl c =>
        exact ⟨q.spawn S c, hq.tail (.spawn q c), hstore, hbehind.append (.call rfl rfl .nil)⟩
      | inr c =>
        refine ⟨q, hq, hstore, ?_⟩
        have happend := hbehind.append
          (.companion ((hown c).handle Program.only_inRight) .nil : Behind [⟨.inr c, _, []⟩] [])
        rwa [List.append_nil] at happend
    | @advance i t o k ch r s' hi ht hex _ =>
      cases o with
      | inl o =>
        obtain ⟨hexec, -⟩ := System.beside_exec_inl hex
        obtain ⟨j, u, k₀, hj, hu, hbehind'⟩ := hbehind.advance_inl hi ht
        exact ⟨q.advance j u o k₀ r s'.1, hq.tail (.advance hj hu (hstore ▸ hexec) trivial), rfl,
          hbehind' r⟩
      | inr o =>
        obtain ⟨-, hs'⟩ := System.beside_exec_inr hex
        exact ⟨q, hq, hstore.trans hs'.symm, hbehind.advance_inr hi ht r⟩

end Framework

import GovernanceCore.Framework.Interleaving
import Mathlib.Logic.Function.Basic
import Mathlib.Order.Nat
import Mathlib.Tactic.Set

/-!
# Calls made of calls

A front end serves each of its requests by calls of another system, one after the other, over the
same store; between them it may read. `Program.MadeOf` says of a program that it is put together in
this way from calls that meet a condition. `System.Reachable.of_madeOf` is what this is good for: a
store that the front end reaches, under any interleaving of requests, is one that the calls
themselves reach, under an interleaving of calls that meet the condition. So whatever is known of
the reachable stores of the system behind holds behind the front end too. `System.Reachable.of_follows`
is the invariant rule that goes with it, for programs that rely on what they read.

`System.Reach.refines` changes what is behind instead: the same programs over another store.
-/

namespace Framework

variable {Call Choice Store Op : Type} {Res : Op → Type} {ε ε' α α' β : Type}

/-- Sequencing in which the continuation gets the error as well. -/
def Program.handle : Program Op Res ε α → (Except ε α → Program Op Res ε' β) →
    Program Op Res ε' β
  | .ret a, k => k (.ok a)
  | .fail e, k => k (.error e)
  | .act o q, k => .act o fun r => (q r).handle k

theorem Program.handle_bind {γ : Type} (p : Program Op Res ε α)
    (k : Except ε α → Program Op Res ε' β) (f : β → Program Op Res ε' γ) :
    p.handle k >>= f = p.handle fun res => k res >>= f := by
  induction p with
  | ret a => rfl
  | fail e => rfl
  | act o q ih => exact congrArg (Program.act o) (funext ih)

theorem Program.handle_handle {ε'' γ : Type} (p : Program Op Res ε α)
    (k : Except ε α → Program Op Res ε' β) (k' : Except ε' β → Program Op Res ε'' γ) :
    (p.handle k).handle k' = p.handle fun res => (k res).handle k' := by
  induction p with
  | ret a => rfl
  | fail e => rfl
  | act o q ih => exact congrArg (Program.act o) (funext ih)

/-- Handing the result on changes nothing. -/
def Program.ofExcept : Except ε α → Program Op Res ε α
  | .ok a => .ret a
  | .error e => .fail e

theorem Program.handle_ofExcept (p : Program Op Res ε α) : p.handle .ofExcept = p := by
  induction p with
  | ret a => rfl
  | fail e => rfl
  | act o q ih => exact congrArg (Program.act o) (funext ih)

/-- The system with those calls only that meet the condition. -/
def System.restrict (S : System Call Choice Store Op Res ε α) (L : Call → Prop) :
    System {c // L c} Choice Store Op Res ε α where
  exec := S.exec
  body c := S.body c.1

section MadeOf

variable (S : System Call Choice Store Op Res ε α) (L : Call → Prop)

/-- The program makes calls that meet the condition, one after the other, and between them performs
operations that leave every store as it is. A caller may look at less than the reply: `f` is what
the call makes of the result of its program. -/
inductive Program.MadeOf : Program Op Res ε' β → Prop where
  | ret (b : β) : MadeOf (.ret b)
  | fail (e : ε') : MadeOf (.fail e)
  | read {o : Op} (ho : ∀ ch s, (S.exec ch s o).2 = s) {k : Res o → Program Op Res ε' β}
      (hk : ∀ r, MadeOf (k r)) : MadeOf (.act o k)
  | call {c : Call} (hc : L c) {γ : Type} {p : Program Op Res ε γ} {f : γ → α}
      (hbody : S.body c = p >>= fun a => .ret (f a)) {k : Except ε γ → Program Op Res ε' β}
      (hk : ∀ res, MadeOf (k res)) : MadeOf (p.handle k)

variable {S L}

theorem Program.MadeOf.bind {γ : Type} {p : Program Op Res ε' β}
    (hp : p.MadeOf S L) {f : β → Program Op Res ε' γ} (hf : ∀ b, (f b).MadeOf S L) :
    (p >>= f).MadeOf S L := by
  induction hp with
  | ret b => exact hf b
  | fail e => exact .fail e
  | read ho _ ih => exact .read ho ih
  | call hc hbody _ ih =>
    rw [Program.handle_bind]
    exact .call hc hbody ih

/-- The program of one call. -/
theorem Program.MadeOf.of_body {c : Call} (hc : L c) {γ : Type} {p : Program Op Res ε γ} {f : γ → α}
    (hbody : S.body c = p >>= fun a => .ret (f a)) : p.MadeOf S L := by
  have hmade : (p.handle Program.ofExcept : Program Op Res ε γ).MadeOf S L := by
    refine .call hc hbody fun res => ?_
    cases res with
    | ok a => exact .ret a
    | error e => exact .fail e
  rwa [Program.handle_ofExcept] at hmade

theorem Program.MadeOf.handle {ε'' γ : Type} {p : Program Op Res ε' β} (hp : p.MadeOf S L)
    {k : Except ε' β → Program Op Res ε'' γ} (hk : ∀ res, (k res).MadeOf S L) :
    (p.handle k).MadeOf S L := by
  induction hp with
  | ret b => exact hk (.ok b)
  | fail e => exact hk (.error e)
  | read ho _ ih => exact .read ho ih
  | call hc hbody _ ih =>
    rw [Program.handle_handle]
    exact .call hc hbody ih

end MadeOf

/-! ### Simulation -/

section Simulation

variable {S : System Call Choice Store Op Res ε α} {L : Call → Prop}

/-- What the first operation of a program made of calls can be: a read, or the first operation of a
call. -/
theorem Program.MadeOf.of_act {p : Program Op Res ε' β} (hp : p.MadeOf S L) {o : Op}
    {k : Res o → Program Op Res ε' β} (h : p = .act o k) :
    ((∀ ch s, (S.exec ch s o).2 = s) ∧ ∀ r, (k r).MadeOf S L) ∨
      ∃ (c : Call) (_ : L c) (γ : Type) (q : Res o → Program Op Res ε γ) (f : γ → α)
        (k' : Except ε γ → Program Op Res ε' β),
        S.body c = .act o (fun r => q r >>= fun a => .ret (f a)) ∧
          (∀ r, k r = (q r).handle k') ∧ ∀ res, (k' res).MadeOf S L := by
  induction hp with
  | ret b => cases h
  | fail e => cases h
  | read ho hk _ =>
    cases h
    exact Or.inl ⟨ho, hk⟩
  | @call c hc γ p f hbody k' hk ih =>
    cases p with
    -- a call that performs nothing: the program goes on at once
    | ret a => exact ih (.ok a) h
    | fail e => exact ih (.error e) h
    | act o' q =>
      cases h
      exact Or.inr ⟨c, hc, γ, q, f, k', hbody, fun _ => rfl, hk⟩

/-- Where a program stands that is made of calls: between two calls, or in the middle of the call at
position `j`, whose own program has the rest `q`. -/
inductive Program.Stands (S : System Call Choice Store Op Res ε α) (L : Call → Prop)
    (threads : List (Thread {c // L c} Op Res ε α)) : Option Nat → Program Op Res ε' β → Prop where
  | between {p : Program Op Res ε' β} (hp : p.MadeOf S L) : Stands S L threads none p
  | within {j : Nat} {t : Thread {c // L c} Op Res ε α} (hj : threads[j]? = some t) {γ : Type}
      {q : Program Op Res ε γ} {f : γ → α} (ht : t.prog = q >>= fun a => .ret (f a))
      {k : Except ε γ → Program Op Res ε' β} (hk : ∀ res, (k res).MadeOf S L) :
      Stands S L threads (some j) (q.handle k)

/-- Only the thread of its own call matters to where a program stands. -/
theorem Program.Stands.congr {threads threads' : List (Thread {c // L c} Op Res ε α)}
    {m : Option Nat} {p : Program Op Res ε' β} (hp : p.Stands S L threads m)
    (h : ∀ j t, m = some j → threads[j]? = some t → threads'[j]? = some t) :
    p.Stands S L threads' m := by
  cases hp with
  | between hp => exact .between hp
  | within hj ht hk => exact .within (h _ _ rfl hj) ht hk

variable {Call' : Type} {T : System Call' Choice Store Op Res ε' β}

/-- The calls behind a pool of requests: the store is the same, and every request stands at a call
of its own, or at none. -/
structure Simulates (S : System Call Choice Store Op Res ε α) (L : Call → Prop)
    (q : Pool {c // L c} Store Op Res ε α) (p : Pool Call' Store Op Res ε' β)
    (σ : Nat → Option Nat) : Prop where
  store_eq : q.store = p.store
  stands : ∀ (i : Nat) (t : Thread Call' Op Res ε' β), p.threads[i]? = some t →
    t.prog.Stands S L q.threads (σ i)
  bound : ∀ i j, σ i = some j → j < q.threads.length
  inj : ∀ i i' j, σ i = some j → σ i' = some j → i = i'

variable {q : Pool {c // L c} Store Op Res ε α} {p : Pool Call' Store Op Res ε' β}
  {σ : Nat → Option Nat}

theorem Simulates.spawn (h : Simulates S L q p σ) {c : Call'} (hc : (T.body c).MadeOf S L) :
    Simulates S L q (p.spawn T c) (Function.update σ p.threads.length none) := by
  -- the place that was made free belongs to nobody
  have hne : ∀ {x j}, Function.update σ p.threads.length none x = some j → σ x = some j := by
    intro x j hx
    by_cases hxl : x = p.threads.length
    · rw [hxl, Function.update_self] at hx
      cases hx
    · rwa [Function.update_of_ne hxl] at hx
  refine ⟨h.store_eq, fun i t hi => ?_, fun i j hij => h.bound i j (hne hij),
    fun i i' j hij hij' => h.inj i i' j (hne hij) (hne hij')⟩
  rcases Nat.lt_trichotomy i p.threads.length with hlt | rfl | hgt
  · rw [Pool.spawn, List.getElem?_append_left hlt] at hi
    rw [Function.update_of_ne hlt.ne]
    exact h.stands i t hi
  · rw [Pool.spawn, List.getElem?_concat_length] at hi
    obtain rfl := Option.some.inj hi
    rw [Function.update_self]
    exact .between hc
  · have hlen : (p.spawn T c).threads.length ≤ i := by
      rw [Pool.spawn, List.length_append, List.length_singleton]
      omega
    rw [List.getElem?_eq_none hlen] at hi
    cases hi

/-- One request has moved: it stands at `m` now, and the calls of the other requests are as they
were. -/
theorem Simulates.advance (h : Simulates S L q p σ) {i : Nat}
    {t : Thread Call' Op Res ε' β} (hi : p.threads[i]? = some t) {o : Op}
    {k : Res o → Program Op Res ε' β} {r : Res o} {m : Option Nat}
    (q' : Pool {c // L c} Store Op Res ε α)
    (hstands : (k r).Stands S L q'.threads m) (hlen : q.threads.length ≤ q'.threads.length)
    (hm : ∀ j, m = some j → j < q'.threads.length)
    (hothers : ∀ i' j, i' ≠ i → σ i' = some j → m ≠ some j ∧ q'.threads[j]? = q.threads[j]?) :
    Simulates S L q' (p.advance i t o k r q'.store) (Function.update σ i m) := by
  have hlt : i < p.threads.length := (List.getElem?_eq_some_iff.mp hi).1
  refine ⟨rfl, fun i' u hu => ?_, fun x j hx => ?_, fun x y j hx hy => ?_⟩
  · by_cases hii : i' = i
    · subst hii
      rw [Pool.advance, List.getElem?_set_self hlt] at hu
      obtain rfl := Option.some.inj hu
      rw [Function.update_self]
      exact hstands
    · rw [Pool.advance, List.getElem?_set_ne (Ne.symm hii)] at hu
      rw [Function.update_of_ne hii]
      exact (h.stands i' u hu).congr fun j v hj hv => (hothers i' j hii hj).2.trans hv
  · by_cases hxi : x = i
    · rw [hxi, Function.update_self] at hx
      exact hm j hx
    · rw [Function.update_of_ne hxi] at hx
      exact (h.bound x j hx).trans_le hlen
  · by_cases hxi : x = i <;> by_cases hyi : y = i
    · rw [hxi, hyi]
    · rw [hxi, Function.update_self] at hx
      rw [Function.update_of_ne hyi] at hy
      exact absurd hx (hothers y j hyi hy).1
    · rw [hyi, Function.update_self] at hy
      rw [Function.update_of_ne hxi] at hx
      exact absurd hy (hothers x j hxi hx).1
    · rw [Function.update_of_ne hxi] at hx
      rw [Function.update_of_ne hyi] at hy
      exact h.inj x y j hx hy

section Advance

variable {i : Nat} {t : Thread Call' Op Res ε' β} {o : Op} {k : Res o → Program Op Res ε' β}
  {ch : Choice} {r : Res o} {s' : Store}

/-- A request that stands between two calls performs its next operation: it reads, or it makes a
call and performs the first operation of that. -/
theorem Simulates.advance_between (h : Simulates S L q p σ) (hi : p.threads[i]? = some t)
    (hmade : (Program.act o k : Program Op Res ε' β).MadeOf S L)
    (hex : S.exec ch p.store o = (r, s')) :
    ∃ q' σ', (S.restrict L).Reach unguarded q q' ∧ Simulates S L q' (p.advance i t o k r s') σ' := by
  rcases hmade.of_act rfl with ⟨hread, hk⟩ | ⟨c, hc, γ, body, f, k', hbody, hk, hk'⟩
  · have hs' : q.store = s' := by
      rw [h.store_eq, ← hread ch p.store, hex]
    subst hs'
    exact ⟨q, _, .refl, h.advance hi q (.between (hk r)) le_rfl nofun
      fun i' j _ _ => ⟨nofun, rfl⟩⟩
  · -- the call arrives behind all others and performs the operation
    set q₁ := q.spawn (S.restrict L) ⟨c, hc⟩ with hq₁
    set u : Thread {c // L c} Op Res ε α := ⟨⟨c, hc⟩, S.body c, []⟩ with hu
    set k₁ : Res o → Program Op Res ε α := fun r => body r >>= fun a => .ret (f a) with hk₁
    have hj : q₁.threads[q.threads.length]? = some u := List.getElem?_concat_length
    have hspawn : (S.restrict L).Step unguarded q q₁ := .spawn q ⟨c, hc⟩
    have hadvance : (S.restrict L).Step unguarded q₁ (q₁.advance q.threads.length u o k₁ r s') :=
      .advance hj hbody (by rw [hq₁]; exact h.store_eq ▸ hex) trivial
    have hlen : q₁.threads.length = q.threads.length + 1 := by
      rw [hq₁, Pool.spawn, List.length_append, List.length_singleton]
    have hlt : q.threads.length < q₁.threads.length := by omega
    refine ⟨_, _, (Relation.ReflTransGen.single hspawn).tail hadvance,
      h.advance (m := some q.threads.length) hi (q₁.advance q.threads.length u o k₁ r s')
        ?_ ?_ ?_ ?_⟩
    · rw [hk r]
      exact .within (List.getElem?_set_self hlt) rfl hk'
    · rw [Pool.advance, List.length_set]
      omega
    · intro j hj
      obtain rfl := Option.some.inj hj
      rw [Pool.advance, List.length_set]
      exact hlt
    · intro i' j _ hσ
      have hjlt := h.bound i' j hσ
      refine ⟨fun hj => hjlt.ne (Option.some.inj hj).symm, ?_⟩
      rw [Pool.advance, List.getElem?_set_ne hjlt.ne', hq₁, Pool.spawn,
        List.getElem?_append_left hjlt]

/-- A request performs its next operation, wherever it stands. -/
theorem Simulates.exists_advance (h : Simulates S L q p σ) (hi : p.threads[i]? = some t)
    (ht : t.prog = .act o k) (hex : S.exec ch p.store o = (r, s')) :
    ∃ q' σ', (S.restrict L).Reach unguarded q q' ∧ Simulates S L q' (p.advance i t o k r s') σ' := by
  have hstands := h.stands i t hi
  rw [ht] at hstands
  generalize hm : σ i = m at hstands
  generalize hprog : Program.act o k = prog at hstands
  cases hstands with
  | between hmade => exact h.advance_between hi (hprog ▸ hmade) hex
  | @within j u hj γ body f hu k' hk' =>
    cases body with
    -- the call has ended, so the request is between two calls
    | ret a => exact h.advance_between hi (hprog ▸ hk' (.ok a)) hex
    | fail e => exact h.advance_between hi (hprog ▸ hk' (.error e)) hex
    | act o' body =>
      cases hprog
      have hlt : j < q.threads.length := (List.getElem?_eq_some_iff.mp hj).1
      have hadvance : (S.restrict L).Step unguarded q
          (q.advance j u o (fun r => body r >>= fun a => .ret (f a)) r s') :=
        .advance hj hu (h.store_eq ▸ hex) trivial
      refine ⟨_, _, .single hadvance, h.advance (m := some j) hi
        (q.advance j u o (fun r => body r >>= fun a => .ret (f a)) r s')
        (.within (List.getElem?_set_self hlt) rfl hk') ?_ ?_ ?_⟩
      · exact (List.length_set ..).ge
      · intro j' hj'
        obtain rfl := Option.some.inj hj'
        rw [Pool.advance, List.length_set]
        exact hlt
      · intro i' j' hne hσ
        have hjj : j ≠ j' := fun hjj => hne (h.inj i' i j' hσ (hm.trans (congrArg some hjj)))
        exact ⟨fun hj => hjj (Option.some.inj hj), by rw [Pool.advance, List.getElem?_set_ne hjj]⟩

end Advance

/-- **Every interleaving of requests is an interleaving of calls.** -/
theorem System.Reach.exists_simulates (hexec : T.exec = S.exec)
    (hbody : ∀ c, (T.body c).MadeOf S L) {s₀ : Store}
    (hp : T.Reach unguarded (Pool.start s₀) p) :
    ∃ q σ, (S.restrict L).Reach unguarded (Pool.start s₀) q ∧ Simulates S L q p σ := by
  induction hp with
  | refl =>
    refine ⟨Pool.start s₀, fun _ => none, .refl, rfl, fun i t hi => ?_, fun i j hij => ?_,
      fun i i' j hij => ?_⟩
    · cases hi
    · cases hij
    · cases hij
  | tail _ hstep ih =>
    obtain ⟨q, σ, hq, hsim⟩ := ih
    cases hstep with
    | spawn c => exact ⟨q, _, hq, hsim.spawn (hbody c)⟩
    | advance hi ht hex _ =>
      rw [hexec] at hex
      obtain ⟨q', σ', hq', hsim'⟩ := hsim.exists_advance hi ht hex
      exact ⟨q', σ', hq.trans hq', hsim'⟩

/-- **The stores behind a front end.** A store that requests reach is one that calls reach which
meet the condition. -/
theorem System.Reachable.of_madeOf (hexec : T.exec = S.exec)
    (hbody : ∀ c, (T.body c).MadeOf S L) {s₀ s : Store} (hs : T.Reachable s₀ s) :
    (S.restrict L).Reachable s₀ s := by
  obtain ⟨p, hp, rfl⟩ := hs
  obtain ⟨q, σ, hq, hsim⟩ := System.Reach.exists_simulates hexec hbody hp
  exact ⟨q, hq, hsim.store_eq⟩

/-- Calls that meet a condition are calls. -/
theorem System.Reachable.of_restrict {s₀ s : Store} (hs : (S.restrict L).Reachable s₀ s) :
    S.Reachable s₀ s := by
  have hpool : ∀ q, (S.restrict L).Reach unguarded (Pool.start s₀) q →
      S.Reach unguarded (Pool.start s₀)
        ⟨q.store, q.threads.map fun t => ⟨t.call.1, t.prog, t.log⟩⟩ := by
    intro q hq
    induction hq with
    | refl => exact .refl
    | @tail q q' _ hstep ih =>
      cases hstep with
      | spawn c =>
        refine ih.tail ?_
        rw [Pool.spawn, List.map_append]
        exact .spawn _ c.1
      | @advance i t o k ch r s' hi ht hex _ =>
        refine ih.tail ?_
        rw [Pool.advance, List.map_set]
        exact .advance (t := ⟨t.call.1, t.prog, t.log⟩) (by rw [List.getElem?_map, hi]; rfl) ht hex
          trivial
  obtain ⟨q, hq, rfl⟩ := hs
  exact ⟨_, hpool q hq, rfl⟩

end Simulation

/-! ### The same programs over another store -/

/-- **Refinement of the store.** When every operation over the store of `T` is one over a related
store of `S` with the same answer, every interleaving of `T` is one of `S`. The relation may depend
on the calls in flight. -/
theorem System.Reach.refines {Choice' Store' : Type}
    {T : System Call Choice' Store' Op Res ε α} {S : System Call Choice Store Op Res ε α}
    {G : Guard Store' Op Res} {R : Pool Call Store' Op Res ε α → Store → Prop} {m₀ : Store'}
    {s₀ : Store} (hbody : ∀ c, T.body c = S.body c) (hstart : R (Pool.start m₀) s₀)
    (hspawn : ∀ p s c, R p s → R (p.spawn T c) s)
    (hadvance : ∀ (p : Pool Call Store' Op Res ε α) (s : Store) (i : Nat)
      (t : Thread Call Op Res ε α) (o : Op) (k : Res o → Program Op Res ε α) (ch : Choice')
      (r : Res o) (m' : Store'), T.Reach G (Pool.start m₀) p → R p s → p.threads[i]? = some t →
      t.prog = .act o k → T.exec ch p.store o = (r, m') → G t.log p.store o r m' →
      ∃ ch' s', S.exec ch' s o = (r, s') ∧ R (p.advance i t o k r m') s')
    {p : Pool Call Store' Op Res ε α} (hp : T.Reach G (Pool.start m₀) p) :
    ∃ s, S.Reach unguarded (Pool.start s₀) ⟨s, p.threads⟩ ∧ R p s := by
  induction hp with
  | refl => exact ⟨s₀, .refl, hstart⟩
  | tail hreach hstep ih =>
    obtain ⟨s, hs, hR⟩ := ih
    cases hstep with
    | spawn c =>
      refine ⟨s, hs.tail ?_, hspawn _ s c hR⟩
      rw [Pool.spawn, hbody c]
      exact .spawn _ c
    | advance hi ht hex hG =>
      obtain ⟨ch', s', hex', hR'⟩ := hadvance _ s _ _ _ _ _ _ _ hreach hR hi ht hex hG
      exact ⟨s', hs.tail (.advance hi ht hex' trivial), hR'⟩

/-! ### What is known of all reachable stores -/

/-- **A run in known stores.** What holds of every store on the way can be taken for a guard, so
that the rules for guarded runs may use it at each step. -/
theorem System.Reach.along {S : System Call Choice Store Op Res ε α} {G : Guard Store Op Res}
    {R : Store → Prop} {p₀ p : Pool Call Store Op Res ε α}
    (hR : ∀ p, S.Reach G p₀ p → R p.store) (hp : S.Reach G p₀ p) :
    S.Reach (fun h s o r s' => G h s o r s' ∧ R s) p₀ p := by
  induction hp with
  | refl => exact .refl
  | tail hreach hstep ih =>
    refine ih.tail ?_
    cases hstep with
    | spawn c => exact .spawn _ c
    | advance hi ht hex hG => exact .advance hi ht hex ⟨hG, hR _ hreach⟩

/-! ### Answers that an invariant makes sure of -/

/-- **Assume and guarantee.** The programs rely on answers of a certain kind and perform operations
of a certain kind. When a store with the invariant gives such answers, and such operations keep the
invariant, then every reachable store has it. -/
theorem System.Reachable.of_follows {S : System Call Choice Store Op Res ε α}
    {C : Contract Op Res} {I : Store → Prop} {s₀ s : Store}
    (hbody : ∀ c, (S.body c).Follows C (fun _ _ => True) []) (hstart : I s₀)
    (hstep : ∀ (h : Log Op Res) (s : Store) (o : Op) (ch : Choice) (r : Res o) (s' : Store),
      I s → C.permits h o → S.exec ch s o = (r, s') → C.answers o r ∧ I s')
    (hs : S.Reachable s₀ s) : I s := by
  obtain ⟨p, hp, rfl⟩ := hs
  suffices h : I p.store ∧ ∀ t ∈ p.threads, t.prog.Follows C (fun _ _ => True) t.log from h.1
  induction hp with
  | refl => exact ⟨hstart, fun t ht => absurd ht List.not_mem_nil⟩
  | tail _ hstep' ih =>
    obtain ⟨hI, hfollows⟩ := ih
    cases hstep' with
    | spawn c =>
      refine ⟨hI, fun t ht => ?_⟩
      rcases Pool.mem_spawn.mp ht with ht | rfl
      · exact hfollows t ht
      · exact hbody c
    | @advance i t o k ch r s' hi ht hex _ =>
      have hfol := hfollows t (List.mem_of_getElem? hi)
      rw [ht] at hfol
      obtain ⟨hanswer, hI'⟩ := hstep t.log _ o ch r s' hI hfol.1 hex
      refine ⟨hI', fun t' ht' => ?_⟩
      rcases Pool.mem_advance ht' with ht' | rfl
      · exact hfollows t' ht'
      · exact hfol.2 r hanswer

end Framework

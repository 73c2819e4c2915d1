import GovernanceCore.Framework.Program

/-!
# Interleaved and sequential runs

A `System` fixes what the operations do (`exec`) and which program each call runs (`body`). A
`Pool` is the shared store with the calls that have been made on it, each as the rest of its
program and the log of what it has performed. A pool moves when a new call arrives or when one of
its calls performs its next operation, so `System.Reach` ranges over every interleaving of every
number of calls.

A run can be restricted to the steps that satisfy a guard on the log of the moving call and on the
store (`Guard`). `unguarded` restricts nothing.

Two rules reduce a statement about all interleavings to one about single steps:

* `Reach.invariant` — an invariant of the whole pool, where a moving call is known to keep to its
  contract (`Program.Follows`);
* `Reach.sound` — an invariant of the store together with a validity of logged events, for
  arguments in which what a call has seen stays true while others move.

`System.Session` is the sequential counterpart: calls made one after the other, each to completion.

`System.play` and `Program.eval` execute a given schedule; `play_reach` and `eval_runs` place what
they compute inside the relations.
-/

namespace Framework

/-- What the atomic operations do, and which program a call runs. -/
structure System (Call Choice Store Op : Type) (Res : Op → Type) (ε α : Type) where
  exec : Choice → Store → (o : Op) → Res o × Store
  body : Call → Program Op Res ε α

/-- A call in flight: the rest of its program and what it has performed. -/
structure Thread (Call Op : Type) (Res : Op → Type) (ε α : Type) where
  call : Call
  prog : Program Op Res ε α
  log : Log Op Res

/-- The shared store with all calls made on it, in order of arrival. A call that has ended stays,
with its result as its program. -/
structure Pool (Call Store Op : Type) (Res : Op → Type) (ε α : Type) where
  store : Store
  threads : List (Thread Call Op Res ε α)

/-- A restriction on steps: the log of the moving call, the store, the operation, its answer and
the store after it. -/
abbrev Guard (Store Op : Type) (Res : Op → Type) :=
  Log Op Res → Store → (o : Op) → Res o → Store → Prop

/-- The guard that restricts nothing. -/
def unguarded {Store Op : Type} {Res : Op → Type} : Guard Store Op Res := fun _ _ _ _ _ => True

variable {Call Choice Store Op : Type} {Res : Op → Type} {ε α : Type}

namespace Pool

/-- The pool on which no call has been made yet. -/
def start (s : Store) : Pool Call Store Op Res ε α := ⟨s, []⟩

/-- A call arrives. -/
def spawn (S : System Call Choice Store Op Res ε α) (p : Pool Call Store Op Res ε α) (c : Call) :
    Pool Call Store Op Res ε α :=
  ⟨p.store, p.threads ++ [⟨c, S.body c, []⟩]⟩

/-- The `i`-th call, `t`, has performed `o` with answer `r` and goes on as `k r` over `s'`. -/
def advance (p : Pool Call Store Op Res ε α) (i : Nat) (t : Thread Call Op Res ε α) (o : Op)
    (k : Res o → Program Op Res ε α) (r : Res o) (s' : Store) : Pool Call Store Op Res ε α :=
  ⟨s', p.threads.set i ⟨t.call, k r, t.log ++ [⟨o, r⟩]⟩⟩

theorem mem_spawn {S : System Call Choice Store Op Res ε α} {p : Pool Call Store Op Res ε α}
    {c : Call} {t : Thread Call Op Res ε α} :
    t ∈ (p.spawn S c).threads ↔ t ∈ p.threads ∨ t = ⟨c, S.body c, []⟩ := by
  simp [spawn]

theorem mem_advance {p : Pool Call Store Op Res ε α} {i : Nat} {t t' : Thread Call Op Res ε α}
    {o : Op} {k : Res o → Program Op Res ε α} {r : Res o} {s' : Store}
    (h : t' ∈ (p.advance i t o k r s').threads) :
    t' ∈ p.threads ∨ t' = ⟨t.call, k r, t.log ++ [⟨o, r⟩]⟩ :=
  List.mem_or_eq_of_mem_set h

/-! #### Counting calls by what they have performed -/

/-- The number of calls whose log satisfies `q`. -/
def count (q : Log Op Res → Bool) (p : Pool Call Store Op Res ε α) : Nat :=
  p.threads.countP fun t => q t.log

section Count

variable {q : Log Op Res → Bool} {p : Pool Call Store Op Res ε α}

theorem count_spawn {S : System Call Choice Store Op Res ε α} {c : Call} (hq : q [] = false) :
    (p.spawn S c).count q = p.count q := by
  simp [count, spawn, hq]

section Advance

variable {i : Nat} {t : Thread Call Op Res ε α} {o : Op} {k : Res o → Program Op Res ε α}
  {r : Res o} {s' : Store}

/-- Calls of any kind after an advance, with the call that has moved counted apart. -/
theorem countP_advance_add (kind : Thread Call Op Res ε α → Bool) (hi : p.threads[i]? = some t)
    (k : Res o → Program Op Res ε α) (r : Res o) (s' : Store) :
    (p.advance i t o k r s').threads.countP kind + (if kind t then 1 else 0)
      = p.threads.countP kind + if kind ⟨t.call, k r, t.log ++ [⟨o, r⟩]⟩ then 1 else 0 := by
  obtain ⟨hlt, hget⟩ := List.getElem?_eq_some_iff.mp hi
  -- `List.countP_set` subtracts the old entry, so the difference must not be truncated
  have hmem : kind t = true → 0 < p.threads.countP kind := fun hk =>
    List.countP_pos_iff.mpr ⟨t, List.mem_of_getElem? hi, hk⟩
  rw [advance, List.countP_set hlt, hget]
  by_cases hk : kind t = true
  · have := hmem hk
    simp only [hk, if_true]
    omega
  · simp [hk]

/-- The count after an advance, with the call that has moved counted apart. -/
theorem count_advance_add (hi : p.threads[i]? = some t) :
    (p.advance i t o k r s').count q + (if q t.log then 1 else 0)
      = p.count q + if q (t.log ++ [⟨o, r⟩]) then 1 else 0 :=
  countP_advance_add (fun t => q t.log) hi k r s'

theorem count_advance_of_eq (hi : p.threads[i]? = some t)
    (hq : q (t.log ++ [⟨o, r⟩]) = q t.log) : (p.advance i t o k r s').count q = p.count q := by
  have hadd : (p.advance i t o k r s').count q + _ = p.count q + _ := count_advance_add hi
  rw [hq] at hadd
  exact Nat.add_right_cancel hadd

/-- One advance adds at most one call to a count. -/
theorem count_advance_le (hi : p.threads[i]? = some t) :
    (p.advance i t o k r s').count q ≤ p.count q + 1 := by
  have hadd : (p.advance i t o k r s').count q + _ = p.count q + _ := count_advance_add hi
  have hle : (if q (t.log ++ [⟨o, r⟩]) then 1 else 0) ≤ 1 := by split <;> omega
  omega

end Advance

end Count

end Pool

namespace System

/-- One step of a pool under a guard. -/
inductive Step (S : System Call Choice Store Op Res ε α) (G : Guard Store Op Res) :
    Pool Call Store Op Res ε α → Pool Call Store Op Res ε α → Prop where
  | spawn (p : Pool Call Store Op Res ε α) (c : Call) : Step S G p (p.spawn S c)
  | advance {p : Pool Call Store Op Res ε α} {i : Nat} {t : Thread Call Op Res ε α} {o : Op}
      {k : Res o → Program Op Res ε α} {ch : Choice} {r : Res o} {s' : Store}
      (hi : p.threads[i]? = some t) (ht : t.prog = .act o k)
      (hex : S.exec ch p.store o = (r, s')) (hG : G t.log p.store o r s') :
      Step S G p (p.advance i t o k r s')

/-- The pools reachable from `p₀` by steps that satisfy the guard. -/
def Reach (S : System Call Choice Store Op Res ε α) (G : Guard Store Op Res)
    (p₀ p : Pool Call Store Op Res ε α) : Prop :=
  Relation.ReflTransGen (S.Step G) p₀ p

/-- The stores reachable from `s₀` by any interleaving of any calls. -/
def Reachable (S : System Call Choice Store Op Res ε α) (s₀ s : Store) : Prop :=
  ∃ p, S.Reach unguarded (Pool.start s₀) p ∧ p.store = s

variable {S : System Call Choice Store Op Res ε α} {G : Guard Store Op Res}
  {C : Contract Op Res} {E : Call → Except ε α → Log Op Res → Prop}
  {s₀ : Store} {p₀ p p' : Pool Call Store Op Res ε α}

/-- The system keeps the contract: its operations give the answers of the contract, and the program
of every call follows it. -/
structure Keeps (S : System Call Choice Store Op Res ε α) (C : Contract Op Res)
    (E : Call → Except ε α → Log Op Res → Prop) : Prop where
  answers : ∀ {ch : Choice} {s s' : Store} {o : Op} {r : Res o},
    S.exec ch s o = (r, s') → C.answers o r
  follows : ∀ c, (S.body c).Follows C (E c) []

/-! ### The contract of every call in flight -/

/-- Every call in flight keeps to its contract. -/
def InContract (C : Contract Op Res) (E : Call → Except ε α → Log Op Res → Prop)
    (p : Pool Call Store Op Res ε α) : Prop :=
  ∀ t ∈ p.threads, t.prog.Follows C (E t.call) t.log

theorem inContract_start : InContract C E (Pool.start s₀ : Pool Call Store Op Res ε α) :=
  fun _ ht => absurd ht List.not_mem_nil

theorem Step.inContract (hS : S.Keeps C E) (hstep : S.Step G p p') (hp : InContract C E p) :
    InContract C E p' := by
  cases hstep with
  | spawn c =>
    intro t ht
    rcases Pool.mem_spawn.mp ht with ht | rfl
    · exact hp t ht
    · exact hS.follows c
  | advance hi ht hex hG =>
    intro t' ht'
    rcases Pool.mem_advance ht' with ht' | rfl
    · exact hp t' ht'
    · -- the call that has moved goes on with an answer of the contract
      have hfol := hp _ (List.mem_of_getElem? hi)
      rw [ht] at hfol
      exact hfol.2 _ (hS.answers hex)

theorem Reach.inContract (hS : S.Keeps C E) (hp₀ : InContract C E p₀) (hp : S.Reach G p₀ p) :
    InContract C E p := by
  induction hp with
  | refl => exact hp₀
  | tail _ hstep ih => exact hstep.inContract hS ih

/-! ### Invariants of all interleavings -/

/-- **The pool rule.** A property of pools that holds at `p₀`, survives the arrival of a call and
survives every operation a call performs within its contract holds of every pool reached from
`p₀`. -/
theorem Reach.invariant (hS : S.Keeps C E) (hp₀ : InContract C E p₀)
    {J : Pool Call Store Op Res ε α → Prop} (hstart : J p₀)
    (hspawn : ∀ p c, J p → J (p.spawn S c))
    (hadvance : ∀ (p : Pool Call Store Op Res ε α) (i : Nat) (t : Thread Call Op Res ε α) (o : Op)
      (k : Res o → Program Op Res ε α) (ch : Choice) (r : Res o) (s' : Store),
      S.Reach G p₀ p → J p → p.threads[i]? = some t → t.prog = .act o k → C.permits t.log o →
      S.exec ch p.store o = (r, s') → G t.log p.store o r s' → J (p.advance i t o k r s'))
    (hp : S.Reach G p₀ p) : J p := by
  induction hp with
  | refl => exact hstart
  | tail hreach hstep ih =>
    -- the contract of the moving call is not part of `J`; it comes from the run so far
    have hcontract := Reach.inContract hS hp₀ hreach
    cases hstep with
    | spawn c => exact hspawn _ c ih
    | advance hi ht hex hG =>
      have hfol := hcontract _ (List.mem_of_getElem? hi)
      rw [ht] at hfol
      exact hadvance _ _ _ _ _ _ _ _ hreach ih hi ht hfol.1 hex hG

/-- **The event rule.** `I` is an invariant of the store and `V` a validity of logged events. One
operation, performed by a call whose log is valid, keeps the invariant, makes a valid event and
leaves every valid event valid; then every reachable store satisfies the invariant and every log
is valid. -/
theorem Reach.sound (hS : S.Keeps C E)
    {I : Store → Prop} {V : Event Op Res → Store → Prop} (hstart : I s₀)
    (hstep : ∀ (h : Log Op Res) (s : Store) (o : Op) (ch : Choice) (r : Res o)
      (s' : Store), I s → (∀ e ∈ h, V e s) → C.permits h o → S.exec ch s o = (r, s') →
      G h s o r s' →
      I s' ∧ V ⟨o, r⟩ s' ∧ ∀ e, V e s → V e s')
    (hp : S.Reach G (Pool.start s₀) p) :
    I p.store ∧ ∀ t ∈ p.threads, ∀ e ∈ t.log, V e p.store := by
  refine Reach.invariant (J := fun p => I p.store ∧ ∀ t ∈ p.threads, ∀ e ∈ t.log, V e p.store)
    hS inContract_start ⟨hstart, fun t ht => absurd ht List.not_mem_nil⟩ ?_ ?_ hp
  · intro p c hJ
    refine ⟨hJ.1, fun t ht e he => ?_⟩
    rcases Pool.mem_spawn.mp ht with ht | rfl
    · exact hJ.2 t ht e he
    · exact absurd he List.not_mem_nil
  · intro p i t o k ch r s' _ hJ hi ht hC hex hG
    have ht_mem : t ∈ p.threads := List.mem_of_getElem? hi
    obtain ⟨hI, hnew, hold⟩ := hstep _ _ _ _ _ _ hJ.1 (hJ.2 t ht_mem) hC hex hG
    refine ⟨hI, fun t' ht' e he => ?_⟩
    -- old events, of this call and of the others, stay valid; one event is new
    rcases Pool.mem_advance ht' with ht' | rfl
    · exact hold e (hJ.2 t' ht' e he)
    · rcases List.mem_append.mp he with he | he
      · exact hold e (hJ.2 t ht_mem e he)
      · rw [List.mem_singleton] at he
        exact he ▸ hnew

/-- **The footprint rule.** When every call performs operations of a certain kind only, what those
operations preserve holds of every reachable store. -/
theorem Reachable.of_only {P : Op → Prop} (hbody : ∀ c, (S.body c).Only P) {I : Store → Prop}
    (hstart : I s₀)
    (hstep : ∀ (s : Store) (o : Op) (ch : Choice) (r : Res o) (s' : Store),
      I s → P o → S.exec ch s o = (r, s') → I s')
    {s : Store} (hs : S.Reachable s₀ s) : I s := by
  obtain ⟨p, hp, rfl⟩ := hs
  have hkeeps : S.Keeps ⟨fun _ _ => True, fun _ o => P o⟩ fun _ _ _ => True :=
    ⟨fun _ => trivial, fun c => (hbody c).follows (fun _ _ ho => ho) []⟩
  refine Reach.invariant (J := fun p => I p.store) hkeeps inContract_start hstart ?_ ?_ hp
  · exact fun p c hI => hI
  · intro p i t o k ch r s' _ hI _ _ hP hex _
    exact hstep p.store o ch r s' hI hP hex

/-- **Every call stays within its own footprint.** -/
theorem Reach.only {P : Call → Op → Prop} (hbody : ∀ c, (S.body c).Only (P c))
    (hp : S.Reach G (Pool.start s₀) p) : ∀ t ∈ p.threads, t.prog.Only (P t.call) := by
  induction hp with
  | refl => exact fun t ht => absurd ht List.not_mem_nil
  | tail _ hstep ih =>
    intro t' ht'
    cases hstep with
    | spawn c =>
      rcases Pool.mem_spawn.mp ht' with ht' | rfl
      · exact ih t' ht'
      · exact hbody c
    | advance hi ht hex hG =>
      rcases Pool.mem_advance ht' with ht' | rfl
      · exact ih t' ht'
      · have honly := ih _ (List.mem_of_getElem? hi)
        rw [ht] at honly
        exact honly.2 _

/-! ### Calls made one after the other -/

/-- The steps of a call left alone, with the answers that `ok` accepts. -/
def Alone (S : System Call Choice Store Op Res ε α) (ok : (o : Op) → Res o → Bool) :
    Store → (o : Op) → Res o → Store → Prop :=
  fun s o r s' => ∃ ch, S.exec ch s o = (r, s') ∧ ok o r = true

/-- A session: the calls made so far with their results, each run to completion before the next
one, and the store they have led to. Every call meets the condition on the store it is made on. -/
inductive Session (S : System Call Choice Store Op Res ε α) (ok : (o : Op) → Res o → Bool)
    (cond : Store → Call → Prop) (s₀ : Store) : List (Call × Except ε α) → Store → Prop where
  | start : Session S ok cond s₀ [] s₀
  | call {tr : List (Call × Except ε α)} {s s' : Store} {c : Call} {res : Except ε α}
      (hs : Session S ok cond s₀ tr s) (hcond : cond s c)
      (hrun : (S.body c).Runs (S.Alone ok) s res s') :
      Session S ok cond s₀ (tr ++ [(c, res)]) s'

/-- The condition that every call meets. -/
def anyCall {Call Store : Type} : Store → Call → Prop := fun _ _ => True

/-! ### Execution of a given schedule -/

/-- A scheduler's decision. -/
inductive Action (Call Choice : Type) where
  | spawn (c : Call)
  | advance (i : Nat) (ch : Choice)

/-- Carry out one decision, if it is possible and the check `g` accepts the step. -/
def next (S : System Call Choice Store Op Res ε α)
    (g : Log Op Res → Store → (o : Op) → Res o → Store → Bool) (p : Pool Call Store Op Res ε α) :
    Action Call Choice → Option (Pool Call Store Op Res ε α)
  | .spawn c => some (p.spawn S c)
  | .advance i ch =>
    match p.threads[i]? with
    | none => none
    | some t =>
      match t.prog with
      | .act o k =>
        match S.exec ch p.store o with
        | (r, s') => if g t.log p.store o r s' then some (p.advance i t o k r s') else none
      | _ => none

/-- Carry out a schedule. -/
def play (S : System Call Choice Store Op Res ε α)
    (g : Log Op Res → Store → (o : Op) → Res o → Store → Bool) :
    Pool Call Store Op Res ε α → List (Action Call Choice) → Option (Pool Call Store Op Res ε α)
  | p, [] => some p
  | p, a :: acts =>
    match S.next g p a with
    | none => none
    | some p' => S.play g p' acts

variable {g : Log Op Res → Store → (o : Op) → Res o → Store → Bool}

theorem next_step {a : Action Call Choice} (hg : ∀ h s o r s', g h s o r s' = true → G h s o r s')
    (h : S.next g p a = some p') : S.Step G p p' := by
  cases a with
  | spawn c =>
    rw [next, Option.some.injEq] at h
    exact h ▸ .spawn p c
  | advance i ch =>
    -- every refusal of `next` contradicts `h`; what is left is an operation that the check accepts
    simp only [next] at h
    split at h
    · cases h
    · next t hi =>
      split at h
      · next o k ht =>
        split at h
        · next hgr =>
          rw [Option.some.injEq] at h
          exact h ▸ .advance hi ht rfl (hg _ _ _ _ _ hgr)
        · cases h
      · cases h

/-- What a schedule leads to is reachable. -/
theorem play_reach (hg : ∀ h s o r s', g h s o r s' = true → G h s o r s') :
    ∀ {acts : List (Action Call Choice)} {p p' : Pool Call Store Op Res ε α},
      S.play g p acts = some p' → S.Reach G p p' := by
  intro acts
  induction acts with
  | nil =>
    intro p p' h
    rw [play, Option.some.injEq] at h
    exact h ▸ .refl
  | cons a acts ih =>
    intro p p' h
    unfold play at h
    split at h
    · cases h
    · next q hq => exact .head (next_step hg hq) (ih h)

end System

/-- Run a program to completion, one choice for each operation; nothing when the choices run out
or `ok` rejects an answer. -/
def Program.eval (S : System Call Choice Store Op Res ε α) (ok : (o : Op) → Res o → Bool) :
    Program Op Res ε α → List Choice → Store → Option (Except ε α × Store)
  | .ret a, _, s => some (.ok a, s)
  | .fail e, _, s => some (.error e, s)
  | .act _ _, [], _ => none
  | .act o k, ch :: chs, s =>
    -- a rejected answer leaves the semantics of `Alone`, so there is no run to compute
    match S.exec ch s o with
    | (r, s') => if ok o r then (k r).eval S ok chs s' else none

theorem Program.eval_runs {S : System Call Choice Store Op Res ε α}
    {ok : (o : Op) → Res o → Bool} {res : Except ε α} {s' : Store} :
    ∀ {p : Program Op Res ε α} {chs : List Choice} {s : Store},
      p.eval S ok chs s = some (res, s') → p.Runs (S.Alone ok) s res s' := by
  intro p
  induction p with
  | ret a =>
    intro chs s h
    simp only [eval, Option.some.injEq, Prod.mk.injEq] at h
    obtain ⟨rfl, rfl⟩ := h
    exact .ret a s
  | fail e =>
    intro chs s h
    simp only [eval, Option.some.injEq, Prod.mk.injEq] at h
    obtain ⟨rfl, rfl⟩ := h
    exact .fail e s
  | act o k ih =>
    intro chs s h
    cases chs with
    | nil => cases h
    | cons ch chs =>
      unfold eval at h
      split at h
      next r s₁ hex =>
      split at h
      · next hok => exact .act ⟨ch, hex, hok⟩ (ih r h)
      · cases h

/-- Make the given calls one after the other, each with its own choices and as long as `check`
accepts it. -/
def System.playSession (S : System Call Choice Store Op Res ε α) (ok : (o : Op) → Res o → Bool)
    (check : Store → Call → Bool) :
    List (Call × Except ε α) × Store → List (Call × List Choice) →
      Option (List (Call × Except ε α) × Store)
  | st, [] => some st
  | st, (c, chs) :: calls =>
    if check st.2 c then
      match (S.body c).eval S ok chs st.2 with
      | none => none
      | some (res, s') => S.playSession ok check (st.1 ++ [(c, res)], s') calls
    else none

theorem System.playSession_session {S : System Call Choice Store Op Res ε α}
    {ok : (o : Op) → Res o → Bool} {check : Store → Call → Bool} {cond : Store → Call → Prop}
    {s₀ : Store} (hcheck : ∀ s c, check s c = true → cond s c) :
    ∀ {calls : List (Call × List Choice)} {st st' : List (Call × Except ε α) × Store},
      S.playSession ok check st calls = some st' → S.Session ok cond s₀ st.1 st.2 →
      S.Session ok cond s₀ st'.1 st'.2 := by
  intro calls
  induction calls with
  | nil =>
    intro st st' h hs
    rw [playSession, Option.some.injEq] at h
    exact h ▸ hs
  | cons c calls ih =>
    intro st st' h hs
    unfold playSession at h
    split at h
    · next hc =>
      split at h
      · cases h
      · next res s' hev => exact ih h (.call hs (hcheck _ _ hc) (Program.eval_runs hev))
    · cases h

end Framework

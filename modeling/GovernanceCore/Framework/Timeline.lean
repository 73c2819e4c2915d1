import GovernanceCore.Framework.Interleaving
import GovernanceCore.Framework.History
import Mathlib.Data.List.Perm.Basic

/-!
# The timeline of an interleaving

A pool knows what each of its calls has performed, but not in which order the calls have taken their
turns. `System.ReachBy` is reachability with that order: the **timeline**, a list of all performed
operations, oldest first, each with the call that has performed it. It is the object that a
linearization is read off from.

* `Reach.reachBy` and `ReachBy.reach`: timelines exist for exactly the reachable pools.
* `ReachBy.trans`: a pool that is reached later has a longer timeline. So an operation that a call
  has performed before another call arrived stands before every operation of that other call.
* `ReachBy.log_eq`: the log of a call is its share of the timeline.
* `Reach.leads`: the rest of a call's program is what its log leads to, so the shape of a short
  program can be read off by cases.
* `Pool.held`: what the calls in flight hold, for resources that move between the store and them.
* `Reach.journal`: a journal that operations extend holds what the calls have recorded.
-/

namespace Framework

section Along

variable {Input : Type}

theorem along_cons {P : List Input → Input → Prop} {x : Input} {h : List Input} :
    Along P (x :: h) ↔ P [] x ∧ Along (fun g => P (x :: g)) h := by
  refine ⟨fun hP => ⟨hP [] x h rfl, fun g y g' hg => hP (x :: g) y g' (hg ▸ rfl)⟩, ?_⟩
  rintro ⟨hx, hP⟩ g y g' hg
  cases g with
  | nil =>
    obtain ⟨rfl, rfl⟩ := List.cons.inj hg
    exact hx
  | cons z g =>
    obtain ⟨rfl, rfl⟩ := List.cons.inj hg
    exact hP g y g' rfl

/-- `Along` is decided by going through the history. -/
instance decidableAlong : (P : List Input → Input → Prop) → [∀ g x, Decidable (P g x)] →
    (h : List Input) → Decidable (Along P h)
  | _, _, [] => isTrue along_nil
  | P, _, x :: h =>
    have := decidableAlong (fun g => P (x :: g)) h
    decidable_of_iff _ along_cons.symm

end Along

variable {Call Choice Store Op : Type} {Res : Op → Type} {ε α : Type}

/-- A performed operation and the position of the call that has performed it. -/
structure Performed (Op : Type) (Res : Op → Type) where
  thread : Nat
  event : Event Op Res

/-- All performed operations, oldest first. -/
abbrev Timeline (Op : Type) (Res : Op → Type) := List (Performed Op Res)

/-- The share of one call. -/
def Timeline.of (tl : Timeline Op Res) (i : Nat) : Log Op Res :=
  (tl.filter fun x => x.thread = i).map Performed.event

theorem Timeline.of_concat_self (tl : Timeline Op Res) (i : Nat) (e : Event Op Res) :
    Timeline.of (tl ++ [⟨i, e⟩]) i = tl.of i ++ [e] := by
  simp [Timeline.of]

theorem Timeline.of_concat_of_ne (tl : Timeline Op Res) {i j : Nat} (hij : i ≠ j)
    (e : Event Op Res) : Timeline.of (tl ++ [⟨i, e⟩]) j = tl.of j := by
  simp [Timeline.of, hij]

/-- The share of a call that has performed nothing. -/
theorem Timeline.of_eq_nil {tl : Timeline Op Res} {i : Nat} (h : ∀ x ∈ tl, x.thread ≠ i) :
    tl.of i = [] := by
  have hfilter : tl.filter (fun x => x.thread = i) = [] :=
    List.filter_eq_nil_iff.mpr fun x hx hxi => h x hx (of_decide_eq_true hxi)
  rw [Timeline.of, hfilter, List.map_nil]

/-- An event in the share of a call has a place on the timeline. -/
theorem Timeline.exists_of_mem {tl : Timeline Op Res} {i : Nat} {e : Event Op Res}
    (h : e ∈ tl.of i) : ∃ before after, tl = before ++ ⟨i, e⟩ :: after := by
  obtain ⟨x, hx, rfl⟩ := List.mem_map.mp h
  obtain ⟨hmem, hi⟩ := List.mem_filter.mp hx
  obtain rfl := of_decide_eq_true hi
  exact List.append_of_mem hmem

/-- `p.Leads h q`: having performed `h`, the program `p` goes on as `q`. -/
inductive Program.Leads : Program Op Res ε α → Log Op Res → Program Op Res ε α → Prop where
  | refl (p : Program Op Res ε α) : Leads p [] p
  | act {o : Op} {k : Res o → Program Op Res ε α} {r : Res o} {h : Log Op Res}
      {q : Program Op Res ε α} (hk : Leads (k r) h q) : Leads (.act o k) (⟨o, r⟩ :: h) q

theorem Program.Leads.concat {p : Program Op Res ε α} {h : Log Op Res} {o : Op}
    {k : Res o → Program Op Res ε α} (r : Res o) (hp : p.Leads h (.act o k)) :
    p.Leads (h ++ [⟨o, r⟩]) (k r) := by
  generalize hq : Program.act o k = q at hp
  induction hp with
  | refl p =>
    subst hq
    exact .act (.refl _)
  | act _ ih => exact .act (ih hq)

namespace System

/-- The pools reached from `p₀` by any arrivals and the operations of the timeline. -/
inductive ReachBy (S : System Call Choice Store Op Res ε α) (p₀ : Pool Call Store Op Res ε α) :
    Timeline Op Res → Pool Call Store Op Res ε α → Prop where
  | start : ReachBy S p₀ [] p₀
  | spawn {tl : Timeline Op Res} {p : Pool Call Store Op Res ε α} (hp : ReachBy S p₀ tl p)
      (c : Call) : ReachBy S p₀ tl (p.spawn S c)
  | advance {tl : Timeline Op Res} {p : Pool Call Store Op Res ε α} {i : Nat}
      {t : Thread Call Op Res ε α} {o : Op} {k : Res o → Program Op Res ε α} {ch : Choice}
      {r : Res o} {s' : Store} (hp : ReachBy S p₀ tl p) (hi : p.threads[i]? = some t)
      (ht : t.prog = .act o k) (hex : S.exec ch p.store o = (r, s')) :
      ReachBy S p₀ (tl ++ [⟨i, o, r⟩]) (p.advance i t o k r s')

variable {S : System Call Choice Store Op Res ε α} {p₀ p p' : Pool Call Store Op Res ε α}
  {tl tl' : Timeline Op Res} {s₀ : Store}

theorem Reach.reachBy (hp : S.Reach unguarded p₀ p) : ∃ tl, S.ReachBy p₀ tl p := by
  induction hp with
  | refl => exact ⟨[], .start⟩
  | tail _ hstep ih =>
    obtain ⟨tl, htl⟩ := ih
    cases hstep with
    | spawn c => exact ⟨tl, htl.spawn c⟩
    | advance hi ht hex _ => exact ⟨_, htl.advance hi ht hex⟩

theorem ReachBy.reach (hp : S.ReachBy p₀ tl p) : S.Reach unguarded p₀ p := by
  induction hp with
  | start => exact .refl
  | spawn _ c ih => exact ih.tail (.spawn _ c)
  | advance _ hi ht hex ih => exact ih.tail (.advance hi ht hex trivial)

/-- **What comes later stands later on the timeline.** -/
theorem ReachBy.trans (hp : S.ReachBy p₀ tl p) (hp' : S.ReachBy p tl' p') :
    S.ReachBy p₀ (tl ++ tl') p' := by
  induction hp' with
  | start => simpa using hp
  | spawn _ c ih => exact ih.spawn c
  | advance _ hi ht hex ih =>
    rw [← List.append_assoc]
    exact ih.advance hi ht hex

/-- Only calls that have arrived have performed anything. -/
theorem ReachBy.thread_lt (hp : S.ReachBy (Pool.start s₀) tl p) :
    ∀ x ∈ tl, x.thread < p.threads.length := by
  induction hp with
  | start => exact fun x hx => absurd hx List.not_mem_nil
  | spawn _ c ih =>
    intro x hx
    have hlt := ih x hx
    simp only [Pool.spawn, List.length_append, List.length_singleton]
    omega
  | advance _ hi _ _ ih =>
    intro x hx
    rw [Pool.advance, List.length_set]
    rcases List.mem_append.mp hx with hx | hx
    · exact ih x hx
    · rw [List.mem_singleton.mp hx]
      exact (List.getElem?_eq_some_iff.mp hi).1

/-- **The log of a call is its share of the timeline.** -/
theorem ReachBy.log_eq (hp : S.ReachBy (Pool.start s₀) tl p) :
    ∀ {i : Nat} {t : Thread Call Op Res ε α}, p.threads[i]? = some t → t.log = tl.of i := by
  induction hp with
  | start =>
    intro i t hi
    cases hi
  | @spawn tl p hp c ih =>
    intro i t hi
    rcases Nat.lt_trichotomy i p.threads.length with hlt | rfl | hgt
    · rw [Pool.spawn, List.getElem?_append_left hlt] at hi
      exact ih hi
    · -- the call that has just arrived
      rw [Pool.spawn, List.getElem?_concat_length] at hi
      obtain rfl := Option.some.inj hi
      exact (Timeline.of_eq_nil fun x hx => (hp.thread_lt x hx).ne).symm
    · have hlen : (p.spawn S c).threads.length ≤ i := by
        rw [Pool.spawn, List.length_append, List.length_singleton]
        omega
      rw [List.getElem?_eq_none hlen] at hi
      cases hi
  | @advance tl p i₀ t₀ o k ch r s' hp hi₀ ht hex ih =>
    intro i t hi
    have hlt : i₀ < p.threads.length := (List.getElem?_eq_some_iff.mp hi₀).1
    by_cases hii : i₀ = i
    · subst hii
      rw [Pool.advance, List.getElem?_set_self hlt] at hi
      obtain rfl := Option.some.inj hi
      rw [Timeline.of_concat_self, ← ih hi₀]
    · rw [Pool.advance, List.getElem?_set_ne hii] at hi
      rw [Timeline.of_concat_of_ne tl hii, ih hi]

/-- **The rest of a program is what its log leads to.** -/
theorem Reach.leads {G : Guard Store Op Res} (hp : S.Reach G (Pool.start s₀) p) :
    ∀ t ∈ p.threads, (S.body t.call).Leads t.log t.prog := by
  induction hp with
  | refl => exact fun t ht => absurd ht List.not_mem_nil
  | tail _ hstep ih =>
    intro t' ht'
    cases hstep with
    | spawn c =>
      rcases Pool.mem_spawn.mp ht' with ht' | rfl
      · exact ih t' ht'
      · exact .refl _
    | advance hi ht _ _ =>
      rcases Pool.mem_advance ht' with ht' | rfl
      · exact ih t' ht'
      · exact (ht ▸ ih _ (List.mem_of_getElem? hi)).concat _

/-- Carry out a schedule and keep its timeline. -/
def playBy (S : System Call Choice Store Op Res ε α) :
    Timeline Op Res → Pool Call Store Op Res ε α → List (Action Call Choice) →
      Option (Timeline Op Res × Pool Call Store Op Res ε α)
  | tl, p, [] => some (tl, p)
  | tl, p, .spawn c :: acts => S.playBy tl (p.spawn S c) acts
  | tl, p, .advance i ch :: acts =>
    match p.threads[i]? with
    | none => none
    | some t =>
      match t.prog with
      | .act o k =>
        match S.exec ch p.store o with
        | (r, s') => S.playBy (tl ++ [⟨i, o, r⟩]) (p.advance i t o k r s') acts
      | _ => none

theorem playBy_reachBy {acts : List (Action Call Choice)} :
    ∀ {tl tl' : Timeline Op Res} {p p' : Pool Call Store Op Res ε α},
      S.ReachBy p₀ tl p → S.playBy tl p acts = some (tl', p') → S.ReachBy p₀ tl' p' := by
  induction acts with
  | nil =>
    intro tl tl' p p' hp h
    obtain ⟨rfl, rfl⟩ := Prod.mk.inj (Option.some.inj h)
    exact hp
  | cons a acts ih =>
    intro tl tl' p p' hp h
    cases a with
    | spawn c => exact ih (hp.spawn c) h
    | advance i ch =>
      -- every refusal contradicts `h`
      simp only [playBy] at h
      split at h
      · cases h
      · next t hi =>
        split at h
        · next o k ht => exact ih (hp.advance hi ht rfl) h
        · cases h

end System

/-! ### What the calls of a pool hold -/

/-- What the calls of a pool hold, in order of arrival: `hold` says what one call holds. -/
def Pool.held {A : Type} (hold : Thread Call Op Res ε α → Option A)
    (p : Pool Call Store Op Res ε α) : List A :=
  p.threads.filterMap hold

theorem filterMap_set_perm {T A : Type} (f : T → Option A) {l : List T} {i : Nat} {x : T}
    (hi : l[i]? = some x) (y : T) :
    ((l.set i y).filterMap f ++ (f x).toList).Perm (l.filterMap f ++ (f y).toList) := by
  induction l generalizing i with
  | nil => cases hi
  | cons a l ih =>
    cases i with
    | zero =>
      obtain rfl := Option.some.inj hi
      have hcons : ∀ b : T, (b :: l).filterMap f = (f b).toList ++ l.filterMap f := by
        intro b
        cases hb : f b <;> simp [hb]
      rw [List.set_cons_zero, hcons, hcons]
      -- the two entries change places around the rest
      exact List.perm_append_comm.trans ((List.perm_append_comm.append_left _).trans
        (List.append_assoc _ _ _ ▸ List.Perm.refl _))
    | succ i =>
      rw [List.set_cons_succ]
      have hrest := ih hi
      cases ha : f a with
      | none => simpa [List.filterMap_cons, ha] using hrest
      | some b => simpa [List.filterMap_cons, ha] using hrest.cons b

/-- What is held after an advance, with the call that has moved counted apart. -/
theorem Pool.held_advance {A : Type} (hold : Thread Call Op Res ε α → Option A)
    {p : Pool Call Store Op Res ε α} {i : Nat} {t : Thread Call Op Res ε α} {o : Op}
    (hi : p.threads[i]? = some t) (k : Res o → Program Op Res ε α) (r : Res o) (s' : Store) :
    ((p.advance i t o k r s').held hold ++ (hold t).toList).Perm
      (p.held hold ++ (hold ⟨t.call, k r, t.log ++ [⟨o, r⟩]⟩).toList) :=
  filterMap_set_perm hold hi _

theorem Pool.held_spawn {A : Type} {hold : Thread Call Op Res ε α → Option A}
    {S : System Call Choice Store Op Res ε α} {p : Pool Call Store Op Res ε α} {c : Call}
    (hc : hold ⟨c, S.body c, []⟩ = none) : (p.spawn S c).held hold = p.held hold := by
  simp [Pool.held, Pool.spawn, hc]

/-! ### What the calls of a pool have put on record -/

/-- What the calls of a pool have put on record: `note` says what an operation leaves there. -/
def Pool.recorded {A : Type} (note : Event Op Res → Option A)
    (p : Pool Call Store Op Res ε α) : List A :=
  p.threads.flatMap fun t => t.log.filterMap note

theorem flatMap_set_perm {T A : Type} (f : T → List A) {l : List T} {i : Nat} {x y : T}
    (hi : l[i]? = some x) {new : List A} (hy : f y = f x ++ new) :
    ((l.set i y).flatMap f).Perm (l.flatMap f ++ new) := by
  induction l generalizing i with
  | nil => cases hi
  | cons a l ih =>
    cases i with
    | zero =>
      obtain rfl := Option.some.inj hi
      rw [List.set_cons_zero, List.flatMap_cons, List.flatMap_cons, hy, List.append_assoc,
        List.append_assoc]
      exact List.perm_append_comm.append_left _
    | succ i =>
      rw [List.set_cons_succ, List.flatMap_cons, List.flatMap_cons, List.append_assoc]
      exact (ih hi).append_left _

theorem Pool.recorded_advance {A : Type} (note : Event Op Res → Option A)
    {p : Pool Call Store Op Res ε α} {i : Nat} {t : Thread Call Op Res ε α} {o : Op}
    (hi : p.threads[i]? = some t) (k : Res o → Program Op Res ε α) (r : Res o) (s' : Store) :
    ((p.advance i t o k r s').recorded note).Perm
      (p.recorded note ++ (note ⟨o, r⟩).toList) := by
  refine flatMap_set_perm _ hi ?_
  cases hnote : note ⟨o, r⟩ <;> simp [List.filterMap_append, hnote]

/-- **A journal** that every operation extends by its record holds what the calls have recorded,
each entry as often as it was recorded. -/
theorem System.Reach.journal {A : Type} {S : System Call Choice Store Op Res ε α}
    {G : Guard Store Op Res} {note : Event Op Res → Option A} (journal : Store → List A)
    (hjournal : ∀ (ch : Choice) (s : Store) (o : Op) (r : Res o) (s' : Store),
      S.exec ch s o = (r, s') → journal s' = journal s ++ (note ⟨o, r⟩).toList)
    {s₀ : Store} {p : Pool Call Store Op Res ε α} (hp : S.Reach G (Pool.start s₀) p) :
    (journal p.store).Perm (journal s₀ ++ p.recorded note) := by
  induction hp with
  | refl =>
    rw [Pool.recorded, Pool.start, List.flatMap_nil, List.append_nil]
  | tail _ hstep ih =>
    cases hstep with
    | spawn c => simpa [Pool.recorded, Pool.spawn] using ih
    | @advance i t o k ch r s' hi ht hex _ =>
      have hadvance := (Pool.recorded_advance note hi k r s').append_left (journal s₀)
      refine List.Perm.trans ?_ hadvance.symm
      rw [← List.append_assoc]
      exact hjournal ch _ o r s' hex ▸ ih.append_right _

end Framework

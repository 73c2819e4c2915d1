import GovernanceCore.Resilience.Registry
import GovernanceCore.Framework.Timeline

/-!
# The registry under concurrent calls

`CircuitBreakerRegistry` is shared by all requests. Its three methods hold the mutex while they use
the map, and `Observe` calls the listener after it has released the mutex. So a call is at most two
atomic steps: its critical section, and the delivery of the transition that it returned.

* `registry_linearizable`: the calls behave as if they were made one after the other, in the order
  of their critical sections. That order respects the order of calls that do not overlap.
* `transitions_delivered_once`: the listener is told every transition once, or a call in flight
  still owes it.
* `transitions_delivered_in_order`: it is told the transitions of one pair in the order in which
  they have happened, provided that no observation of the pair overtakes a delivery. Without that
  the order can be wrong, as the example at the end shows.
-/

namespace Governance

open Framework

/-- The atomic steps: the critical sections of the three methods, and a call of the listener. -/
inductive RegistryOp where
  | observe (c : ObserveCall)
  | deliver (t : StateTransition)
  | get (tool role : String)
  | list (filter : BreakerFilter)
  deriving DecidableEq

def RegistryOp.Res : RegistryOp → Type
  | .observe _ => Option StateTransition
  | .deliver _ => Unit
  | .get _ _ => Option BreakerSnapshot
  | .list _ => List BreakerSnapshot

/-- One atomic step. -/
def CircuitBreakerRegistry.exec (r : CircuitBreakerRegistry) :
    (o : RegistryOp) → o.Res × CircuitBreakerRegistry
  | .observe c =>
    let (breakers, transition) :=
      r.breakers.observe c.tool c.role c.observation.success c.observation.at'
    (transition, { r with breakers })
  | .deliver t => ((), { r with delivered := r.delivered ++ [t] })
  | .get tool role => (r.get tool role, r)
  | .list filter => (r.list filter, r)

/-- The calls of the three methods. -/
inductive RegistryCall where
  | observe (c : ObserveCall)
  | get (tool role : String)
  | list (filter : BreakerFilter)
  deriving DecidableEq

/-- What they return. -/
inductive RegistryReply where
  | transition (t : Option StateTransition)
  | snapshot (s : Option BreakerSnapshot)
  | snapshots (l : List BreakerSnapshot)
  deriving DecidableEq

/-- `CircuitBreakerRegistry.Observe`, with the mutex. -/
def observeBody (c : ObserveCall) : Program RegistryOp RegistryOp.Res Empty RegistryReply :=
  if c.tool = "" ∨ c.role = "" then .ret (.transition none)
  else .act (.observe c) fun
    | none => .ret (.transition none)
    | some t => .act (.deliver t) fun _ => .ret (.transition (some t))

/-- The programs of the three methods; none of them fails. -/
def RegistryCall.body :
    RegistryCall → Program RegistryOp RegistryOp.Res Empty RegistryReply
  | .observe c => observeBody c
  | .get tool role => .act (.get tool role) fun s => .ret (.snapshot s)
  | .list filter => .act (.list filter) fun l => .ret (.snapshots l)

/-- The registry with all calls made on it. -/
def breakerRegistry : System RegistryCall Unit CircuitBreakerRegistry RegistryOp RegistryOp.Res
    Empty RegistryReply where
  exec _ r o := r.exec o
  body := RegistryCall.body

abbrev RegistryPool :=
  Pool RegistryCall CircuitBreakerRegistry RegistryOp RegistryOp.Res Empty RegistryReply

abbrev RegistryTimeline := Timeline RegistryOp RegistryOp.Res

/-- The pool of a registry that was just made. -/
def newRegistryPool : RegistryPool := Pool.start newCircuitBreakerRegistry

/-! ### What the steps of a call are -/

/-- The observation that a step makes. -/
def RegistryOp.observation : RegistryOp → Option ObserveCall
  | .observe c => some c
  | _ => none

/-- The observations of a timeline, in the order of their critical sections. -/
def observed (tl : RegistryTimeline) : List ObserveCall :=
  tl.filterMap fun x => x.event.op.observation

theorem observed_concat (tl : RegistryTimeline) (i : Nat) (e : Event RegistryOp RegistryOp.Res) :
    observed (tl ++ [⟨i, e⟩]) = observed tl ++ e.op.observation.toList := by
  rw [observed, List.filterMap_append, ← observed]
  cases ho : e.op.observation <;> simp [ho]

theorem observed_concat_of_none (tl : RegistryTimeline) (i : Nat) {o : RegistryOp} (r : o.Res)
    (ho : o.observation = none) : observed (tl ++ [⟨i, o, r⟩]) = observed tl := by
  rw [observed_concat, ho, Option.toList_none, List.append_nil]

/-- The critical section of a call. -/
def RegistryCall.entry : RegistryCall → RegistryOp
  | .observe c => .observe c
  | .get tool role => .get tool role
  | .list filter => .list filter

/-- The call returns before the critical section. -/
def RegistryCall.Skipped : RegistryCall → Prop
  | .observe c => c.tool = "" ∨ c.role = ""
  | _ => False

/-- What the registry replies to a call when nobody else is there. -/
def CircuitBreakerRegistry.reply (r : CircuitBreakerRegistry) : RegistryCall → RegistryReply
  | .observe c => .transition (r.observe c).2
  | .get tool role => .snapshot (r.get tool role)
  | .list filter => .snapshots (r.list filter)

/-- The transition that a call has got but not yet passed on. -/
def owed (t : Thread RegistryCall RegistryOp RegistryOp.Res Empty RegistryReply) :
    Option StateTransition :=
  match t.prog with
  | .act (.deliver tr) _ => some tr
  | _ => none

/-- What a step leaves owed: an observation its transition, and nothing else anything. -/
def leftOwed : (o : RegistryOp) → o.Res → Option StateTransition
  | .observe _, transition => transition
  | _, _ => none

/-- What a step pays. -/
def paid : RegistryOp → Option StateTransition
  | .deliver tr => some tr
  | _ => none

theorem owed_spawn (c : RegistryCall) : owed ⟨c, breakerRegistry.body c, []⟩ = none := by
  cases c with
  | observe c =>
    change owed ⟨_, observeBody c, []⟩ = none
    by_cases hskip : c.tool = "" ∨ c.role = ""
    · rw [observeBody, if_pos hskip]
      rfl
    · rw [observeBody, if_neg hskip]
      rfl
  | get tool role => rfl
  | list filter => rfl

/-- Only a call that is about to deliver owes something. -/
theorem owed_of_act {t : Thread RegistryCall RegistryOp RegistryOp.Res Empty RegistryReply}
    {o : RegistryOp} {k : o.Res → Program RegistryOp RegistryOp.Res Empty RegistryReply}
    (ht : t.prog = .act o k) : owed t = paid o := by
  unfold owed
  rw [ht]
  cases o <;> rfl

/-- The transition of an observation is owed right after it. -/
theorem owed_after {c : RegistryCall} {h h' : Log RegistryOp RegistryOp.Res} {o : RegistryOp}
    {k : o.Res → Program RegistryOp RegistryOp.Res Empty RegistryReply} (r : o.Res)
    (hlead : c.body.Leads h (.act o k)) : owed ⟨c, k r, h'⟩ = leftOwed o r := by
  cases c with
  | observe c =>
    change (observeBody c).Leads h (.act o k) at hlead
    by_cases hskip : c.tool = "" ∨ c.role = ""
    · rw [observeBody, if_pos hskip] at hlead
      cases hlead
    · rw [observeBody, if_neg hskip] at hlead
      cases hlead with
      | refl => cases r <;> rfl
      | @act _ _ r₁ _ _ hk =>
        -- past the critical section there is at most the delivery
        cases r₁ with
        | none => cases hk
        | some tr =>
          cases hk with
          | refl => rfl
          | act hk => cases hk
  | get tool role =>
    cases hlead with
    | refl => rfl
    | act hk => cases hk
  | list filter =>
    cases hlead with
    | refl => rfl
    | act hk => cases hk

/-- **A call that has returned has been in its critical section once**, and replies with what it got
there; a skipped call has performed nothing. -/
theorem log_of_returned {c : RegistryCall} {h : Log RegistryOp RegistryOp.Res} {a : RegistryReply}
    (hlead : c.body.Leads h (.ret a)) :
    (c.Skipped ∧ h = [] ∧ a = .transition none) ∨
      ∃ r : c.entry.Res, ¬c.Skipped ∧ ⟨c.entry, r⟩ ∈ h ∧ (h.map Event.op).count c.entry = 1 ∧
        ∀ reg : CircuitBreakerRegistry, (reg.exec c.entry).1 = r → a = reg.reply c := by
  cases c with
  | observe c =>
    change (observeBody c).Leads h (.ret a) at hlead
    by_cases hskip : c.tool = "" ∨ c.role = ""
    · rw [observeBody, if_pos hskip] at hlead
      cases hlead
      exact Or.inl ⟨hskip, rfl, rfl⟩
    · rw [observeBody, if_neg hskip] at hlead
      right
      cases hlead with
      | @act _ _ r _ _ hk =>
        cases r with
        | none =>
          cases hk
          exact ⟨none, hskip, List.mem_singleton_self _, by simp [RegistryCall.entry],
            fun reg hreg => congrArg RegistryReply.transition hreg.symm⟩
        | some tr =>
          cases hk with
          | act hk =>
            cases hk
            exact ⟨some tr, hskip, List.mem_cons_self, by simp [RegistryCall.entry],
              fun reg hreg => congrArg RegistryReply.transition hreg.symm⟩
  | get tool role =>
    cases hlead with
    | @act _ _ r _ _ hk =>
      cases hk
      exact Or.inr ⟨r, not_false, List.mem_singleton_self _, by simp [RegistryCall.entry],
        fun reg hreg => congrArg RegistryReply.snapshot hreg.symm⟩
  | list filter =>
    cases hlead with
    | @act _ _ r _ _ hk =>
      cases hk
      exact Or.inr ⟨r, not_false, List.mem_singleton_self _, by simp [RegistryCall.entry],
        fun reg hreg => congrArg RegistryReply.snapshots hreg.symm⟩

/-! ### Linearization -/

section Linearization

/-- An answer is that of the registry after the observations before it. -/
def AnsweredAsSequential (before : RegistryTimeline)
    (x : Performed RegistryOp RegistryOp.Res) : Prop :=
  ((registryAfter (observed before)).exec x.event.op).1 = x.event.res

/-- Answers look at the breakers only, not at what was delivered. -/
theorem exec_fst_congr {r r' : CircuitBreakerRegistry} (h : r.breakers = r'.breakers)
    (o : RegistryOp) : (r.exec o).1 = (r'.exec o).1 := by
  cases o with
  | observe c =>
    change (r.breakers.observe _ _ _ _).2 = (r'.breakers.observe _ _ _ _).2
    rw [h]
  | deliver t => rfl
  | get tool role =>
    change r.get tool role = r'.get tool role
    rw [CircuitBreakerRegistry.get, h, CircuitBreakerRegistry.get]
  | list filter =>
    change r.list filter = r'.list filter
    rw [CircuitBreakerRegistry.list, h, CircuitBreakerRegistry.list]

/-- One step on the breakers, beside the same step on the registry of the observations. -/
theorem breakers_exec {tl : RegistryTimeline} {r : CircuitBreakerRegistry} {i : Nat}
    {o : RegistryOp} (h : r.breakers = (registryAfter (observed tl)).breakers) :
    (r.exec o).2.breakers
      = (registryAfter (observed (tl ++ [⟨i, o, (r.exec o).1⟩]))).breakers := by
  cases o with
  | observe c =>
    rw [observed_concat]
    change (r.breakers.observe _ _ _ _).1 = (registryAfter (observed tl ++ [c])).breakers
    rw [h, registryAfter_concat]
    rfl
  | deliver t =>
    rw [observed_concat_of_none tl i _ rfl]
    exact h
  | get tool role =>
    rw [observed_concat_of_none tl i _ rfl]
    exact h
  | list filter =>
    rw [observed_concat_of_none tl i _ rfl]
    exact h

/-- The run lemma: the breakers are those of the observations in the order of the timeline, and so
is every answer. -/
theorem breakers_of_reachBy {tl : RegistryTimeline} {p : RegistryPool}
    (hp : breakerRegistry.ReachBy newRegistryPool tl p) :
    p.store.breakers = (registryAfter (observed tl)).breakers ∧ Along AnsweredAsSequential tl := by
  induction hp with
  | start => exact ⟨rfl, along_nil⟩
  | spawn _ c ih => exact ih
  | @advance tl p i t o k ch r s' _ _ _ hex ih =>
    obtain ⟨hbreakers, halong⟩ := ih
    have hr : (p.store.exec o).1 = r := congrArg Prod.fst hex
    have hs' : (p.store.exec o).2 = s' := congrArg Prod.snd hex
    subst hr hs'
    exact ⟨breakers_exec hbreakers, along_concat.mpr ⟨halong, exec_fst_congr hbreakers.symm o⟩⟩

/-- The calls of a pool behave as the timeline has their critical sections one after the other. -/
structure Linearizes (tl : RegistryTimeline) (p : RegistryPool) : Prop where
  /-- The state is that of the observations in this order. -/
  breakers_eq : p.store.breakers = (registryAfter (observed tl)).breakers
  /-- A call that has returned was in its critical section once, and its reply is that of the
  registry after the observations before this. A skipped call has no critical section. -/
  reply_eq : ∀ i t a, p.threads[i]? = some t → t.prog = .ret a →
    (t.call.Skipped ∧ tl.of i = [] ∧ a = .transition none) ∨
      (¬t.call.Skipped ∧ ((tl.of i).map Event.op).count t.call.entry = 1 ∧
        ∃ before r after, tl = before ++ ⟨i, t.call.entry, r⟩ :: after ∧
          a = (registryAfter (observed before)).reply t.call)

theorem linearizes_of_reachBy {tl : RegistryTimeline} {p : RegistryPool}
    (hp : breakerRegistry.ReachBy newRegistryPool tl p) : Linearizes tl p := by
  obtain ⟨hbreakers, halong⟩ := breakers_of_reachBy hp
  refine ⟨hbreakers, fun i t a hi ht => ?_⟩
  have hlead : t.call.body.Leads (tl.of i) (.ret a) := by
    have hlead := hp.reach.leads t (List.mem_of_getElem? hi)
    rwa [hp.log_eq hi, ht] at hlead
  rcases log_of_returned hlead with hskip | ⟨r, hskip, hmem, hcount, hreply⟩
  · exact Or.inl hskip
  · obtain ⟨before, after, htl⟩ := Timeline.exists_of_mem hmem
    exact Or.inr ⟨hskip, hcount, before, r, after, htl, hreply _ (halong _ _ _ htl)⟩

/-- **The registry is linearizable.** At any moment of any interleaving of `Observe`, `Get` and
`List`, the breakers and all replies are those of the calls made one after the other, in the order
of their critical sections. The order of a later moment continues the order of an earlier one, and
a call that has not arrived has no place in it; so a call that has returned before another one
arrives comes before it. -/
theorem registry_linearizable {tl tl' : RegistryTimeline} {p p' : RegistryPool}
    (hp : breakerRegistry.ReachBy newRegistryPool tl p) (hp' : breakerRegistry.ReachBy p tl' p') :
    Linearizes tl p ∧ Linearizes (tl ++ tl') p' ∧ ∀ x ∈ tl, x.thread < p.threads.length :=
  ⟨linearizes_of_reachBy hp, linearizes_of_reachBy (hp.trans hp'), hp.thread_lt⟩

/-- An observation of the one pair of the schedules below. -/
def bashObservation (success : Bool) (at' : Timestamp) : RegistryCall :=
  .observe ⟨"bash", "developer", success, at'⟩

/-- Three failures: the third one trips the breaker, and its call still owes the transition. -/
def trippingSchedule : List (System.Action RegistryCall Unit) :=
  [.spawn (bashObservation false 0), .advance 0 (), .spawn (bashObservation false second),
    .advance 1 (), .spawn (bashObservation false (2 * second)), .advance 2 ()]

/-- An observation after the cooldown. Before it the last delivery is made, or not. -/
def probeSchedule (prompt : Bool) : List (System.Action RegistryCall Unit) :=
  let probe := [.spawn (bashObservation true (90 * second)), .advance 3 (), .advance 3 ()]
  if prompt then .advance 2 () :: probe else probe ++ [.advance 2 ()]

/-- The states that the listener was told a breaker went to. -/
def CircuitBreakerRegistry.toldTargets (r : CircuitBreakerRegistry) : List BreakerState :=
  r.delivered.map StateTransition.target

theorem exists_overtaken : ∃ tl p tl' p', breakerRegistry.ReachBy newRegistryPool tl p ∧
    breakerRegistry.ReachBy p tl' p' ∧ p.store.toldTargets = [] ∧
      p'.store.toldTargets = [.halfOpen, .open] := by
  have hrun : ((breakerRegistry.playBy [] newRegistryPool trippingSchedule).bind fun x =>
      (breakerRegistry.playBy [] x.2 (probeSchedule false)).map fun y =>
        (x.2.store.toldTargets, y.2.store.toldTargets))
      = some ([], [.halfOpen, .open]) := by decide +kernel
  obtain ⟨⟨tl, p⟩, hp, hrun⟩ := Option.bind_eq_some_iff.mp hrun
  obtain ⟨⟨tl', p'⟩, hp', htold⟩ := Option.map_eq_some_iff.mp hrun
  obtain ⟨htold, htold'⟩ := Prod.mk.inj htold
  exact ⟨tl, p, tl', p', System.playBy_reachBy .start hp, System.playBy_reachBy .start hp', htold,
    htold'⟩

theorem registry_linearizable_overtaken : ∃ tl p tl' p',
    breakerRegistry.ReachBy newRegistryPool tl p ∧ breakerRegistry.ReachBy p tl' p' ∧
      p'.store.toldTargets = [.halfOpen, .open] ∧ Linearizes (tl ++ tl') p' := by
  obtain ⟨tl, p, tl', p', hp, hp', -, htold⟩ := exists_overtaken
  exact ⟨tl, p, tl', p', hp, hp', htold, (registry_linearizable hp hp').2.1⟩

end Linearization

/-! ### Deliveries -/

section Deliveries

/-- What one step does to the transitions: they pass from the breakers to the call, and from the
call to the listener. -/
theorem delivered_exec {tl : RegistryTimeline} {r : CircuitBreakerRegistry} (i : Nat)
    (o : RegistryOp) (h : r.breakers = (registryAfter (observed tl)).breakers) :
    (r.exec o).2.delivered = r.delivered ++ (paid o).toList ∧
      (registryAfter (observed (tl ++ [⟨i, o, (r.exec o).1⟩]))).delivered
        = (registryAfter (observed tl)).delivered ++ (leftOwed o (r.exec o).1).toList := by
  cases o with
  | observe c =>
    refine ⟨(List.append_nil _).symm, ?_⟩
    rw [observed_concat]
    change (registryAfter (observed tl ++ [c])).delivered
      = _ ++ (r.breakers.observe _ _ _ _).2.toList
    rw [registryAfter_concat, h]
    rfl
  | deliver t =>
    rw [observed_concat_of_none tl i _ rfl]
    exact ⟨rfl, (List.append_nil _).symm⟩
  | get tool role =>
    rw [observed_concat_of_none tl i _ rfl]
    exact ⟨(List.append_nil _).symm, (List.append_nil _).symm⟩
  | list filter =>
    rw [observed_concat_of_none tl i _ rfl]
    exact ⟨(List.append_nil _).symm, (List.append_nil _).symm⟩

/-- What one step does to what the calls in flight owe. -/
theorem held_owed_advance {tl : RegistryTimeline} {p : RegistryPool} {i : Nat}
    {t : Thread RegistryCall RegistryOp RegistryOp.Res Empty RegistryReply} {o : RegistryOp}
    {k : o.Res → Program RegistryOp RegistryOp.Res Empty RegistryReply} (r : o.Res)
    (s' : CircuitBreakerRegistry) (hp : breakerRegistry.ReachBy newRegistryPool tl p)
    (hi : p.threads[i]? = some t) (ht : t.prog = .act o k) :
    ((p.advance i t o k r s').held owed ++ (paid o).toList).Perm
      (p.held owed ++ (leftOwed o r).toList) := by
  have hlead : t.call.body.Leads t.log (.act o k) := by
    rw [← ht]
    exact hp.reach.leads t (List.mem_of_getElem? hi)
  have hheld := Pool.held_advance owed hi k r s'
  rwa [owed_of_act ht, owed_after r hlead] at hheld

theorem delivered_perm {tl : RegistryTimeline} {p : RegistryPool}
    (hp : breakerRegistry.ReachBy newRegistryPool tl p) :
    (p.store.delivered ++ p.held owed).Perm (registryAfter (observed tl)).delivered := by
  induction hp with
  | start => exact .refl _
  | spawn _ c ih =>
    rw [Pool.held_spawn (owed_spawn c)]
    exact ih
  | @advance tl p i t o k ch r s' hp hi ht hex ih =>
    have hr : (p.store.exec o).1 = r := congrArg Prod.fst hex
    have hs' : (p.store.exec o).2 = s' := congrArg Prod.snd hex
    subst hr hs'
    obtain ⟨htold, hseq⟩ := delivered_exec i o (breakers_of_reachBy hp).1
    change ((p.store.exec o).2.delivered ++ _).Perm _
    rw [htold, hseq, List.append_assoc]
    -- what the step pays moves to the calls that owe, to be settled with what it leaves
    refine (List.perm_append_comm.append_left _).trans ?_
    refine ((held_owed_advance _ _ hp hi ht).append_left _).trans ?_
    rw [← List.append_assoc]
    exact ih.append_right _

theorem held_owed_eq_nil {p : RegistryPool} (h : ∀ t ∈ p.threads, ∃ a, t.prog = .ret a) :
    p.held owed = [] := by
  refine List.filterMap_eq_nil_iff.mpr fun t ht => ?_
  obtain ⟨a, ha⟩ := h t ht
  rw [owed, ha]

/-- **Every transition is delivered once.** What the listener was told, together with what the calls
in flight still owe it, is but for the order what the breakers have returned in the order of the
critical sections. Once all calls have returned, nothing is owed. -/
theorem transitions_delivered_once {tl : RegistryTimeline} {p : RegistryPool}
    (hp : breakerRegistry.ReachBy newRegistryPool tl p) :
    (p.store.delivered ++ p.held owed).Perm (registryAfter (observed tl)).delivered ∧
      ((∀ t ∈ p.threads, ∃ a, t.prog = .ret a) →
        p.store.delivered.Perm (registryAfter (observed tl)).delivered) := by
  refine ⟨delivered_perm hp, fun hret => ?_⟩
  have hperm := delivered_perm hp
  rwa [held_owed_eq_nil hret, List.append_nil] at hperm

theorem transitions_delivered_once_overtaken : ∃ tl p,
    breakerRegistry.ReachBy newRegistryPool tl p ∧ p.store.toldTargets = [.halfOpen, .open] ∧
      (p.store.delivered ++ p.held owed).Perm (registryAfter (observed tl)).delivered := by
  obtain ⟨tl, p, tl', p', hp, hp', -, htold⟩ := exists_overtaken
  exact ⟨tl ++ tl', p', hp.trans hp', htold, (transitions_delivered_once (hp.trans hp')).1⟩

/-- The transitions of one pair. -/
def transitionsOf (k : BreakerKey) (l : List StateTransition) : List StateTransition :=
  l.filter fun tr => tr.key = k

/-- The deliveries of a timeline. -/
def deliveries (tl : RegistryTimeline) : List StateTransition :=
  tl.filterMap fun x => paid x.event.op

theorem delivered_eq_deliveries {tl : RegistryTimeline} {p : RegistryPool}
    (hp : breakerRegistry.ReachBy newRegistryPool tl p) : p.store.delivered = deliveries tl := by
  induction hp with
  | start => rfl
  | spawn _ c ih => exact ih
  | @advance tl p i t o k ch r s' hp hi ht hex ih =>
    have hs' : (p.store.exec o).2 = s' := congrArg Prod.snd hex
    subst hs'
    change (p.store.exec o).2.delivered = _
    rw [(delivered_exec i o (breakers_of_reachBy hp).1).1, ih, deliveries, deliveries,
      List.filterMap_append]
    cases hpaid : paid o <;> simp [hpaid]

/-- No observation of the pair overtakes a delivery: it finds everything about the pair that has
happened delivered. This is so when the calls for the pair do not overlap. -/
def Prompt (k : BreakerKey) (before : RegistryTimeline)
    (x : Performed RegistryOp RegistryOp.Res) : Prop :=
  match x.event.op with
  | .observe c => c.pair = k → transitionsOf k (deliveries before)
      = transitionsOf k (registryAfter (observed before)).delivered
  | _ => True

instance (k : BreakerKey) (before : RegistryTimeline) (x : Performed RegistryOp RegistryOp.Res) :
    Decidable (Prompt k before x) := by
  unfold Prompt
  split <;> infer_instance

theorem transitionsOf_append (k : BreakerKey) (l l' : List StateTransition) :
    transitionsOf k (l ++ l') = transitionsOf k l ++ transitionsOf k l' :=
  List.filter_append _ _

/-- An observation of another pair leaves nothing of this pair owed. -/
theorem transitionsOf_observe {h : List ObserveCall} {k : BreakerKey} {c : ObserveCall}
    (hc : c.pair ≠ k) : transitionsOf k ((registryAfter h).observe c).2.toList = [] := by
  refine List.filter_eq_nil_iff.mpr fun tr htr heq => hc ?_
  obtain ⟨hpair, -⟩ := ObserveCall.key_eq_some_iff.mp (key_of_mem_observe htr)
  exact hpair.trans (of_decide_eq_true heq)

/-- Where the step is prompt, no second transition of the pair comes to be owed. -/
theorem length_owed_le_one {tl : RegistryTimeline} {p : RegistryPool} {k : BreakerKey} {i : Nat}
    {o : RegistryOp} (hbreakers : p.store.breakers = (registryAfter (observed tl)).breakers)
    (hdelivered : p.store.delivered = deliveries tl)
    (hprompt : Prompt k tl ⟨i, o, (p.store.exec o).1⟩)
    (horder : transitionsOf k p.store.delivered ++ transitionsOf k (p.held owed)
      = transitionsOf k (registryAfter (observed tl)).delivered)
    (hone : (transitionsOf k (p.held owed)).length ≤ 1) :
    (transitionsOf k (p.held owed)
      ++ transitionsOf k (leftOwed o (p.store.exec o).1).toList).length ≤ 1 := by
  cases o with
  | observe c =>
    have hleft : leftOwed (.observe c) (p.store.exec (.observe c)).1
        = ((registryAfter (observed tl)).observe c).2 := by
      change (p.store.breakers.observe _ _ _ _).2 = _
      rw [hbreakers]
      rfl
    rw [hleft]
    by_cases hc : c.pair = k
    · -- the observation finds all earlier transitions of the pair delivered, so none is owed
      have htold := hprompt hc
      rw [← hdelivered, ← horder] at htold
      rw [List.self_eq_append_right.mp htold, List.nil_append]
      refine (List.length_filter_le _ _).trans ?_
      cases ((registryAfter (observed tl)).observe c).2 <;> simp
    · rw [transitionsOf_observe hc, List.append_nil]
      exact hone
  | deliver t => exact (List.append_nil _).symm ▸ hone
  | get tool role => exact (List.append_nil _).symm ▸ hone
  | list filter => exact (List.append_nil _).symm ▸ hone

theorem append_comm_of_length_le_one {A : Type} {l l' : List A} (h : (l' ++ l).length ≤ 1) :
    l ++ l' = l' ++ l := by
  cases l with
  | nil => rw [List.nil_append, List.append_nil]
  | cons a l =>
    have hl' : l' = [] := by
      refine List.length_eq_zero_iff.mp ?_
      rw [List.length_append, List.length_cons] at h
      omega
    rw [hl', List.nil_append, List.append_nil]

theorem eq_of_perm_of_length_le_one {A : Type} {l l' : List A} (h : l.Perm l')
    (hl : l'.length ≤ 1) : l = l' := by
  match l', hl with
  | [], _ => exact h.eq_nil
  | [a], _ => exact List.perm_singleton.mp h

/-- **Deliveries of one pair in order.** When no observation of the pair overtakes a delivery, the
listener is told the transitions of the pair in the order in which they have happened, and at most
the last one is still owed. -/
theorem transitions_delivered_in_order {tl : RegistryTimeline} {p : RegistryPool} {k : BreakerKey}
    (hp : breakerRegistry.ReachBy newRegistryPool tl p) (hprompt : Along (Prompt k) tl) :
    transitionsOf k p.store.delivered ++ transitionsOf k (p.held owed)
        = transitionsOf k (registryAfter (observed tl)).delivered ∧
      (transitionsOf k (p.held owed)).length ≤ 1 := by
  induction hp with
  | start => exact ⟨rfl, Nat.zero_le 1⟩
  | spawn _ c ih =>
    rw [Pool.held_spawn (owed_spawn c)]
    exact ih hprompt
  | @advance tl p i t o k₀ ch r s' hp hi ht hex ih =>
    obtain ⟨halong, hnow⟩ := along_concat.mp hprompt
    obtain ⟨horder, hone⟩ := ih halong
    have hr : (p.store.exec o).1 = r := congrArg Prod.fst hex
    have hs' : (p.store.exec o).2 = s' := congrArg Prod.snd hex
    subst hr hs'
    obtain ⟨htold, hseq⟩ := delivered_exec i o (breakers_of_reachBy hp).1
    set p' := p.advance i t o k₀ (p.store.exec o).1 (p.store.exec o).2 with hp'
    have hheld : (transitionsOf k (p'.held owed) ++ transitionsOf k (paid o).toList).Perm
        (transitionsOf k (p.held owed)
          ++ transitionsOf k (leftOwed o (p.store.exec o).1).toList) := by
      rw [← transitionsOf_append, ← transitionsOf_append]
      exact (held_owed_advance _ _ hp hi ht).filter _
    have hfew := length_owed_le_one (breakers_of_reachBy hp).1 (delivered_eq_deliveries hp)
      hnow horder hone
    -- so few transitions have only one order
    have hsame := eq_of_perm_of_length_le_one hheld hfew
    have hcomm : transitionsOf k (paid o).toList ++ transitionsOf k (p'.held owed)
        = transitionsOf k (p'.held owed) ++ transitionsOf k (paid o).toList :=
      append_comm_of_length_le_one (hsame ▸ hfew)
    refine ⟨?_, ?_⟩
    · change transitionsOf k (p.store.exec o).2.delivered ++ _ = _
      rw [htold, hseq, transitionsOf_append, transitionsOf_append, ← horder, List.append_assoc,
        List.append_assoc, hcomm, hsame]
    · have hlen := congrArg List.length hsame
      rw [List.length_append] at hlen
      exact (Nat.le_add_right _ _).trans (hlen.le.trans hfew)

theorem transitions_delivered_in_order_prompt : ∃ tl p,
    breakerRegistry.ReachBy newRegistryPool tl p ∧ Along (Prompt ⟨"bash", "developer"⟩) tl ∧
      p.store.toldTargets = [.open, .halfOpen] ∧
      transitionsOf ⟨"bash", "developer"⟩ p.store.delivered
          ++ transitionsOf ⟨"bash", "developer"⟩ (p.held owed)
        = transitionsOf ⟨"bash", "developer"⟩ (registryAfter (observed tl)).delivered := by
  have hrun : ((breakerRegistry.playBy [] newRegistryPool
      (trippingSchedule ++ probeSchedule true)).map fun x =>
        (decide (Along (Prompt ⟨"bash", "developer"⟩) x.1), x.2.store.toldTargets))
      = some (true, [.open, .halfOpen]) := by decide +kernel
  obtain ⟨⟨tl, p⟩, hp, hrun⟩ := Option.map_eq_some_iff.mp hrun
  obtain ⟨hprompt, htold⟩ := Prod.mk.inj hrun
  have hreach := System.playBy_reachBy .start hp
  exact ⟨tl, p, hreach, of_decide_eq_true hprompt, htold,
    (transitions_delivered_in_order hreach (of_decide_eq_true hprompt)).1⟩

-- The trip of the third failure is delivered after the half-opening that followed it.
example : ((breakerRegistry.playBy [] newRegistryPool
    (trippingSchedule ++ probeSchedule false)).map fun x =>
      (x.2.store.toldTargets, (registryAfter (observed x.1)).toldTargets))
    = some ([.halfOpen, .open], [.open, .halfOpen]) := by decide +kernel

end Deliveries

end Governance

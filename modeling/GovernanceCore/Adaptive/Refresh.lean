import GovernanceCore.Adaptive.Collector
import GovernanceCore.Concurrency.Permanence
import GovernanceCore.Framework.Beside

/-!
# The collector beside the services

`FailureStatsCollector` runs in a goroutine of its own. It refreshes at once and then at each tick,
until its context is cancelled; a refresh asks the clock, queries the audit trail, and swaps the
pointer of the `FailureStatsStore` that `RouteTask` reads. Nothing keeps attempts from being
registered between the query and the swap, queries fail or break off in the middle, and several
collectors may share a store.

* `collector_is_environment`: the services do nothing beside collectors that they do not do alone,
  with statistics that the environment makes up. So what is known of their reachable stores stays.
* `routing_statistics_true`: the statistics that the environment may make up are not just any.
  What a call has read is `refresh` of a store that the services have reached before, whose rows are
  all still there: a query that breaks off is never counted.
-/

namespace Governance

open Framework

/-! ### The collector -/

/-- How a query for several rows fails. -/
inductive QueryFault where
  | none
  | refused (err : Err)
  /-- The connection breaks after some rows. -/
  | broken (rows : Nat) (err : Err)

/-- What the driver hands over for the rows of an answer. -/
def QueryFault.answer : QueryFault → Rows AuditRow Err → Except Err (Rows AuditRow Err)
  | .none, rows => .ok rows
  | .refused err, _ => .error err
  | .broken n err, rows => .ok ⟨rows.rows.take n, some err⟩

structure CollectorChoice where
  now : Timestamp := 0
  fault : QueryFault := .none

/-- What the collector asks for: `time.Now`, `AuditEntryRepository.Query` and
`FailureStatsStore.Update`. -/
inductive CollectorOp where
  | timeNow
  | query (filter : AuditFilter)
  | update (stats : FailureStats)

def CollectorRes : CollectorOp → Type
  | .timeNow => Timestamp
  | .query _ => List AuditEntry × Int × Option Err
  | .update _ => Unit

/-- The operations of the collector, over the tables and the pointer. -/
def CollectorOp.exec (ch : CollectorChoice) (s : Store) (current : Option FailureStats) :
    (o : CollectorOp) → CollectorRes o × Option FailureStats
  | .timeNow => (ch.now, current)
  | .query f => (queryAudit (ch.fault.answer (auditAnswer f s.auditEntries.rows)), current)
  | .update stats => ((), some stats)

abbrev CollectorProgram := Program (Op ⊕ CollectorOp) (Sum.elim Res CollectorRes) Empty

/-- `refresh`. -/
def refreshStats (window : Duration) : CollectorProgram Unit :=
  .act (.inr .timeNow) fun (cutoff : Timestamp) =>
  .act (.inr (.query (attemptsAfter (cutoff - window)))) fun
    | (_, _, some _) => .ret ()
    | (entries, _, none) =>
      -- the second reading is for `ComputedAt`, which nothing reads
      .act (.inr .timeNow) fun _ =>
      .act (.inr (.update (snapshot window entries))) fun _ => .ret ()

/-- `Start`, when its context is cancelled after so many ticks. -/
def startCollector (window : Duration) : Nat → CollectorProgram Unit
  | 0 => refreshStats window
  | ticks + 1 => refreshStats window >>= fun _ => startCollector window ticks

/-- `DefaultStatsWindow`. -/
def defaultStatsWindow : Duration := 48 * 60 * minute

/-- Any number of collectors that share a `FailureStatsStore`. -/
def collector (window : Duration) : Companion Choice Store Op Res Nat CollectorChoice
    (Option FailureStats) CollectorOp CollectorRes Empty Unit where
  -- `RouteTask` reads the pointer
  steer current ch := { ch with stats := current }
  exec := CollectorOp.exec
  body := startCollector window

/-- The services with the collectors. -/
def collected (window : Duration) := governance.beside (collector window)

theorem refreshStats_own (window : Duration) :
    (refreshStats window).Only fun o => o.isRight = true := by
  refine ⟨rfl, fun cutoff => ⟨rfl, fun answer => ?_⟩⟩
  obtain ⟨entries, total, err⟩ := answer
  cases err with
  | some err => trivial
  | none => exact ⟨rfl, fun _ => ⟨rfl, fun _ => trivial⟩⟩

theorem startCollector_own (window : Duration) (ticks : Nat) :
    (startCollector window ticks).Only fun o => o.isRight = true := by
  induction ticks with
  | zero => exact refreshStats_own window
  | succ ticks ih => exact Program.Only.bind (fun _ => ih) (refreshStats_own window)

/-! ### What a query answers -/

/-- **A query that fails or breaks off answers with an error.** -/
theorem fault_eq_none_of_queryAudit {fault : QueryFault} {rows : Rows AuditRow Err}
    {entries : List AuditEntry} {total : Int}
    (h : queryAudit (fault.answer rows) = (entries, total, none)) : fault = .none := by
  cases fault with
  | none => rfl
  | refused err => cases h
  | broken n err =>
    rw [QueryFault.answer, queryAudit] at h
    dsimp only at h
    split at h <;> cases h

/-! ### Every step of the collector -/

/-- The log of both kinds of programs. -/
abbrev CollectedLog := Log (Op ⊕ CollectorOp) (Sum.elim Res CollectorRes)

/-- The collector publishes what it has computed from an answer without an error. -/
def Publishes (window : Duration) (h : CollectedLog) : Op ⊕ CollectorOp → Prop
  | .inr (.update stats) => ∃ (now : Timestamp) (entries : List AuditEntry) (total : Int),
      ⟨.inr (.query (attemptsAfter (now - window))), (entries, total, none)⟩ ∈ h ∧
        stats = snapshot window entries
  | _ => True

def collectorContract (window : Duration) : Contract (Op ⊕ CollectorOp) (Sum.elim Res CollectorRes) :=
  ⟨fun _ _ => True, Publishes window⟩

theorem refreshStats_follows {window : Duration} {E : Except Empty Unit → CollectedLog → Prop}
    (hE : ∀ h, E (.ok ()) h) (h : CollectedLog) :
    (refreshStats window).Follows (collectorContract window) E h := by
  refine ⟨trivial, fun now _ => ⟨trivial, fun answer _ => ?_⟩⟩
  obtain ⟨entries, total, err⟩ := answer
  cases err with
  | some err => exact hE _
  | none =>
    refine ⟨trivial, fun _ _ => ⟨⟨now, entries, total, ?_, rfl⟩, fun _ _ => hE _⟩⟩
    simp

theorem startCollector_follows (window : Duration) (ticks : Nat) (h : CollectedLog) :
    (startCollector window ticks).Follows (collectorContract window) (fun _ _ => True) h := by
  induction ticks generalizing h with
  | zero => exact refreshStats_follows (fun _ => trivial) h
  | succ ticks ih => exact Program.Follows.bind (refreshStats_follows (fun h' => ih h') h)

/-! ### What statistics are about -/

section Backed

variable {metrics : Bool} {window : Duration}

/-- An earlier store of the services, as seen from a later one. -/
def Earlier (metrics : Bool) (s₀ s : Store) : Prop :=
  governance.Reachable (Store.empty metrics) s₀ ∧ Lasts s₀ s

/-- The statistics are those of an earlier store. -/
def Backed (metrics : Bool) (window : Duration) (s : Store) (stats : FailureStats) : Prop :=
  ∃ now s₀, Earlier metrics s₀ s ∧ stats = refresh now window s₀

theorem Earlier.mono {s₀ s s' : Store} (h : Earlier metrics s₀ s) (hlasts : Lasts s s') :
    Earlier metrics s₀ s' := ⟨h.1, h.2.trans hlasts⟩

theorem Backed.mono {s s' : Store} {stats : FailureStats} (h : Backed metrics window s stats)
    (hlasts : Lasts s s') : Backed metrics window s' stats := by
  obtain ⟨now, s₀, hs₀, rfl⟩ := h
  exact ⟨now, s₀, hs₀.mono hlasts, rfl⟩

/-- What a call of the services or a collector has been answered. -/
structure ValidAnswer (metrics : Bool) (window : Duration)
    (e : Event (Op ⊕ CollectorOp) (Sum.elim Res CollectorRes)) (s : Store) : Prop where
  read : ∀ stats : FailureStats, e = ⟨.inl .failureStats, some stats⟩ →
    Backed metrics window s stats
  queried : ∀ (cutoff : Timestamp) (entries : List AuditEntry) (total : Int),
    e = ⟨.inr (.query (attemptsAfter cutoff)), (entries, total, none)⟩ →
      ∃ s₀, Earlier metrics s₀ s ∧ entries = queryAttempts cutoff s₀

theorem ValidAnswer.mono {e : Event (Op ⊕ CollectorOp) (Sum.elim Res CollectorRes)}
    {s s' : Store} (h : ValidAnswer metrics window e s) (hlasts : Lasts s s') :
    ValidAnswer metrics window e s' where
  read stats he := (h.read stats he).mono hlasts
  queried cutoff entries total he := by
    obtain ⟨s₀, hs₀, hentries⟩ := h.queried cutoff entries total he
    exact ⟨s₀, hs₀.mono hlasts, hentries⟩

variable {ch : Choice × CollectorChoice} {s s' : Store × Option FailureStats}
  {o : Op ⊕ CollectorOp} {r : Sum.elim Res CollectorRes o}

/-- No step takes away rows of the services. -/
theorem lasts_of_collected (hex : (collected window).exec ch s o = (r, s')) : Lasts s.1 s'.1 := by
  cases o with
  | inl o => exact .of_effect (exec_effect (System.beside_exec_inl hex).1)
  | inr o =>
    rw [(System.beside_exec_inr hex).2]
    exact .refl _

/-- The pointer moves only when a collector publishes. -/
theorem current_of_collected {h : CollectedLog} (hperm : Publishes window h o)
    (hvalid : ∀ e ∈ h, ValidAnswer metrics window e s.1)
    (hbacked : ∀ stats, s.2 = some stats → Backed metrics window s.1 stats)
    (hex : (collected window).exec ch s o = (r, s')) :
    ∀ stats, s'.2 = some stats → Backed metrics window s'.1 stats := by
  have hlasts := lasts_of_collected hex
  have hsame : s'.2 = s.2 → ∀ stats, s'.2 = some stats → Backed metrics window s'.1 stats :=
    fun heq stats hstats => (hbacked stats (heq.symm.trans hstats)).mono hlasts
  cases o with
  | inl o => exact hsame (System.beside_exec_inl hex).2
  | inr o =>
    have hexec := (System.beside_exec_inr hex).1
    cases o with
    | timeNow => exact hsame (Prod.mk.inj hexec).2.symm
    | query f => exact hsame (Prod.mk.inj hexec).2.symm
    | update published =>
      intro stats hstats
      obtain rfl : published = stats := Option.some.inj ((Prod.mk.inj hexec).2.trans hstats)
      -- the entries were answered in an earlier store, and their rows have stayed
      obtain ⟨now, entries, total, hmem, rfl⟩ := hperm
      obtain ⟨s₀, hs₀, rfl⟩ := (hvalid _ hmem).queried _ entries total rfl
      exact ⟨now, s₀, hs₀.mono hlasts, rfl⟩

/-- What the environment answers at a reachable store is valid. -/
theorem validAnswer_of_collected (hreach : governance.Reachable (Store.empty metrics) s.1)
    (hbacked : ∀ stats, s.2 = some stats → Backed metrics window s.1 stats)
    (hex : (collected window).exec ch s o = (r, s')) :
    ValidAnswer metrics window ⟨o, r⟩ s'.1 where
  read stats he := by
    cases he
    have hread := (System.beside_exec_inl hex).1
    exact (hbacked stats (Prod.mk.inj hread).1).mono (lasts_of_collected hex)
  queried cutoff entries total he := by
    cases he
    obtain ⟨hexec, hs'⟩ := System.beside_exec_inr hex
    have hanswer := (Prod.mk.inj hexec).1
    rw [fault_eq_none_of_queryAudit hanswer, QueryFault.answer,
      queryAudit_attemptsAfter] at hanswer
    refine ⟨s.1, ⟨hreach, hs' ▸ .refl _⟩, (Prod.mk.inj hanswer).1.symm⟩

end Backed

/-! ### Whole runs -/

/-- A run of services and collectors. -/
abbrev CollectedPool := Pool (Call ⊕ Nat) (Store × Option FailureStats) (Op ⊕ CollectorOp)
  (Sum.elim Res CollectorRes) (Err ⊕ Empty) (Reply ⊕ Unit)

/-- **The collector is part of the environment.** In every run of services and collectors the
services go through what they go through in some run without collectors, and leave the same
store. -/
theorem collector_is_environment {window : Duration} {metrics : Bool} {p : CollectedPool}
    (hp : (collected window).Reach unguarded (Pool.start (Store.empty metrics, none)) p) :
    ∃ q, governance.Reach unguarded (Pool.start (Store.empty metrics)) q ∧
      q.store = p.store.1 ∧ Behind p.threads q.threads :=
  System.Reach.exists_behind (startCollector_own window) hp

/-- A collector refreshes once; then a task is submitted and routed. -/
def routedAfterRefresh : List (System.Action (Call ⊕ Nat) (Choice × CollectorChoice)) :=
  .spawn (.inr 0) :: List.replicate 4 (.advance 0 ({}, {})) ++
    (whole 'a' 0 (.submitTask bugfixInput) 5 ++ whole 'b' 1 (.routeTask firstTask) 11).map fun
      | .spawn c => .spawn (.inl c)
      | .advance i ch => .advance (i + 1) (ch, {})

/-- The calls that have read statistics. -/
def readersOf (p : CollectedPool) : Nat :=
  p.threads.countP fun t => t.log.any fun e => match e with
    | ⟨.inl .failureStats, some _⟩ => true
    | _ => false

theorem exists_routedAfterRefresh : ∃ p : CollectedPool,
    (collected defaultStatsWindow).Reach unguarded (Pool.start (Store.empty true, none)) p ∧
      readersOf p = 1 := by
  have hplay : ((collected defaultStatsWindow).play (fun _ _ _ _ _ => true)
      (Pool.start (Store.empty true, none)) routedAfterRefresh).map readersOf = some 1 := by
    decide +kernel
  obtain ⟨p, hp, hreaders⟩ := Option.map_eq_some_iff.mp hplay
  exact ⟨p, System.play_reach (fun _ _ _ _ _ _ => trivial) hp, hreaders⟩

theorem exists_read {p : CollectedPool} (h : readersOf p = 1) : ∃ stats, ∃ t ∈ p.threads,
    ⟨.inl .failureStats, some stats⟩ ∈ t.log := by
  have hpos : 0 < readersOf p := by rw [h]; decide
  obtain ⟨t, ht, hany⟩ := List.countP_pos_iff.mp hpos
  obtain ⟨e, he, hread⟩ := List.any_eq_true.mp hany
  split at hread
  · next stats => exact ⟨stats, t, ht, he⟩
  · cases hread

/-- The services behind a task that is routed after a refresh. -/
theorem collector_is_environment_routed : ∃ p : CollectedPool, readersOf p = 1 ∧
    ∃ q, governance.Reach unguarded (Pool.start (Store.empty true)) q ∧
      q.store = p.store.1 ∧ Behind p.threads q.threads := by
  obtain ⟨p, hp, hreaders⟩ := exists_routedAfterRefresh
  exact ⟨p, hreaders, collector_is_environment hp⟩

/-- **Routing uses true statistics.** Whatever a call has read as failure statistics, and whatever
is published for the next, is `refresh` at some moment of a store that the services have reached
before and of which no row is lost. -/
theorem routing_statistics_true {window : Duration} {metrics : Bool} {p : CollectedPool}
    (hp : (collected window).Reach unguarded (Pool.start (Store.empty metrics, none)) p)
    (stats : FailureStats)
    (hstats : p.store.2 = some stats ∨
      ∃ t ∈ p.threads, ⟨.inl .failureStats, some stats⟩ ∈ t.log) :
    ∃ now s₀, governance.Reachable (Store.empty metrics) s₀ ∧ Lasts s₀ p.store.1 ∧
      stats = refresh now window s₀ := by
  -- every store on the way is one of the services alone
  have halong := System.Reach.along
    (R := fun s => governance.Reachable (Store.empty metrics) s.1) (fun q hq => by
      obtain ⟨q', hq', hstore, -⟩ := System.Reach.exists_behind (startCollector_own window) hq
      exact ⟨q', hq', hstore⟩) hp
  have hsound := System.Reach.sound
    (I := fun s => ∀ stats, s.2 = some stats → Backed metrics window s.1 stats)
    (V := fun e s => ValidAnswer metrics window e s.1)
    (System.beside_keeps (C := collectorContract window) (fun _ _ => trivial)
      (fun _ _ => trivial) fun ticks => startCollector_follows window ticks [])
    (fun _ h => by cases h) ?_ halong
  · have hbacked : Backed metrics window p.store.1 stats := by
      rcases hstats with hcurrent | ⟨t, ht, hread⟩
      · exact hsound.1 stats hcurrent
      · exact (hsound.2 t ht _ hread).read stats rfl
    obtain ⟨now, s₀, hs₀, rfl⟩ := hbacked
    exact ⟨now, s₀, hs₀.1, hs₀.2, rfl⟩
  · intro h s o ch r s' hI hvalid hperm hex hG
    exact ⟨current_of_collected hperm hvalid hI hex, validAnswer_of_collected hG.2 hI hex,
      fun e he => he.mono (lasts_of_collected hex)⟩

/-- The statistics that the routed task was routed by. -/
theorem routing_statistics_true_routed : ∃ (p : CollectedPool) (stats : FailureStats),
    (∃ t ∈ p.threads, ⟨.inl .failureStats, some stats⟩ ∈ t.log) ∧
      ∃ now s₀, governance.Reachable (Store.empty true) s₀ ∧ Lasts s₀ p.store.1 ∧
        stats = refresh now defaultStatsWindow s₀ := by
  obtain ⟨p, hp, hreaders⟩ := exists_routedAfterRefresh
  obtain ⟨stats, hread⟩ := exists_read hreaders
  exact ⟨p, stats, hread, routing_statistics_true hp stats (Or.inr hread)⟩

end Governance

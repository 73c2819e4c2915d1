import GovernanceCore.Concurrency.Permanence
import GovernanceCore.Domain.Escalation
import GovernanceCore.Framework.Beside
import GovernanceCore.Http.Handlers

/-!
# Escalations beside the other requests

`POST /tasks/{taskID}/escalate`, from the handler over `TriggerEscalation` to the table. The service
does not load the task; that it exists is left to the foreign key of the table. Escalations run
beside the other requests of the server, share the clock and the audit trail with them, and have a
table of their own.

`escalations_fired` says what is in that table whatever happens at the same time, and what a reply
means.
-/

namespace Governance

open Framework

/-! ### The service -/

/-- `escalation_triggers`. -/
abbrev EscalationTable := Table EscalationTrigger.id

/-- What the use case asks for beyond the ports of the other services. -/
inductive EscalationOp where
  | newEscalationTriggerID
  | save (e : EscalationTrigger)

def EscalationRes : EscalationOp → Type
  | .newEscalationTriggerID => EscalationTriggerID
  | .save _ => Except RepoError Unit

/-- The effect of the insertion: the task must exist, and the identifier must be new. -/
def insertTrigger (s : Store) (table : EscalationTable) (e : EscalationTrigger) :
    Except RepoError EscalationTable :=
  match s.tasks.find e.taskID, table.insert e with
  | none, _ => .error (.invalid (.context "inserting escalation trigger"
      (.new "insert or update violates foreign key constraint")))
  | some _, none => .error (.duplicate "inserting escalation trigger" .primaryKey)
  | some _, some table' => .ok table'

/-- The operations, over the tables of the services and the one of the escalations. -/
def EscalationOp.exec (ch : Choice) (s : Store) (table : EscalationTable) :
    (o : EscalationOp) → EscalationRes o × EscalationTable
  | .newEscalationTriggerID => (⟨ch.id⟩, table)
  | .save e =>
    match ch.fault, insertTrigger s table e with
    | .none, .ok table' => (.ok (), table')
    | .none, .error err => (.error err, table)
    | .afterCommit, .ok table' => (.error (.unavailable "inserting escalation trigger"), table')
    | _, _ => (.error (.unavailable "inserting escalation trigger"), table)

abbrev EscalationProgram := Program (Op ⊕ EscalationOp) (Sum.elim Res EscalationRes)

/-- `TriggerEscalation`. -/
def triggerEscalation (taskID : TaskID) (condition : EscalationCondition)
    (target : EscalationTarget) : EscalationProgram Err EscalationTrigger :=
  .act (.inl .now) fun (now : Timestamp) =>
  .act (.inr .newEscalationTriggerID) fun (id : EscalationTriggerID) =>
  match (newEscalationTrigger id taskID condition target now).trigger now with
  | .error err => .fail (.context "triggering escalation" err)
  | .ok trigger =>
    .act (.inr (.save trigger)) fun
    | .error err => .fail (.context "persisting escalation" err.err)
    | .ok () =>
      -- the answer of the recorder is dropped
      .act (.inl (.auditRecord systemActor "escalation_triggered" "triggered" [] (some taskID) none))
        fun _ => .ret trigger

/-! ### The handler -/

/-- `triggerEscalationRequest`. -/
structure TriggerEscalationRequest where
  conditionType : String
  conditionParams : List (String × AuditValue)
  target : String

/-- A request: the identifier in its path, its body. -/
structure EscalationRequest where
  rawID : String
  body : Option TriggerEscalationRequest

variable (ulid : UlidPackage)

/-- The checks of `handleTriggerEscalation`. -/
def checkedEscalation (r : EscalationRequest) :
    Handler (TaskID × EscalationCondition × EscalationTarget) := do
  let taskID ← orBadRequest "INVALID_TASK_ID" (newTaskID ulid r.rawID)
  let req ← decodeBody r.body
  require (req.conditionType ≠ "") "MISSING_CONDITION_TYPE" "condition_type is required"
  let target ← orBadRequest "INVALID_ESCALATION_TARGET" (newEscalationTarget req.target)
  return (taskID, ⟨req.conditionType, req.conditionParams⟩, target)

/-- `handleTriggerEscalation`; a success is written with status 201. -/
def handleTriggerEscalation (r : EscalationRequest) :
    EscalationProgram ErrorReply EscalationTrigger :=
  (checkedEscalation ulid r).lift >>= fun (taskID, condition, target) =>
    (triggerEscalation taskID condition target).handle fun
      | .ok trigger => .ret trigger
      | .error err => .fail ⟨500, "ESCALATION_FAILED", err⟩

/-- The endpoint of the escalations. -/
def escalation : Companion Choice Store Op Res EscalationRequest Choice EscalationTable
    EscalationOp EscalationRes ErrorReply EscalationTrigger where
  steer _ ch := ch
  exec := EscalationOp.exec
  body := handleTriggerEscalation ulid

/-- The server with all its endpoints that write. -/
def escalating := (server ulid).beside (escalation ulid)

/-! ### What the checks let through -/

/-- Arguments that have passed the checks. -/
structure Admissible (taskID : TaskID) (condition : EscalationCondition) : Prop where
  isULID : taskID.IsULID ulid
  condition_ne : condition.type ≠ ""

variable {ulid}

/-- The checks perform nothing: they pass or refuse. -/
theorem checkedEscalation_cases (r : EscalationRequest) :
    (∃ taskID condition target, checkedEscalation ulid r = .ret (taskID, condition, target) ∧
      Admissible ulid taskID condition) ∨
    ∃ reply, checkedEscalation ulid r = .fail reply ∧ reply.status = 400 := by
  obtain ⟨rawID, body⟩ := r
  unfold checkedEscalation
  cases hid : newTaskID ulid rawID with
  | error e => exact Or.inr ⟨_, rfl, rfl⟩
  | ok taskID =>
    cases body with
    | none => exact Or.inr ⟨_, rfl, rfl⟩
    | some req =>
      by_cases htype : req.conditionType = ""
      · refine Or.inr ⟨⟨400, "MISSING_CONDITION_TYPE", .new "condition_type is required"⟩, ?_, rfl⟩
        simp [orBadRequest, decodeBody, require, badRequest, htype, bind, Program.bind]
      · cases htarget : newEscalationTarget req.target with
        | error e =>
          refine Or.inr ⟨⟨400, "INVALID_ESCALATION_TARGET", e⟩, ?_, rfl⟩
          simp [orBadRequest, decodeBody, require, badRequest, htype, htarget, bind, Program.bind]
        | ok target =>
          refine Or.inl ⟨taskID, ⟨req.conditionType, req.conditionParams⟩, target, ?_,
            (checkedID_eq_ok_iff.mp hid).2, htype⟩
          simp [orBadRequest, decodeBody, require, htype, htarget, bind, Program.bind, pure]

/-! ### What the programs do -/

abbrev EscalationLog := Log (Op ⊕ EscalationOp) (Sum.elim Res EscalationRes)

/-- A trigger is fired before it is stored, and its arguments have passed the checks. -/
def FiresFirst (ulid : UlidPackage) : Op ⊕ EscalationOp → Prop
  | .inr (.save e) => e.Fired ∧ e.taskID.IsULID ulid
  | _ => True

def escalationContract (ulid : UlidPackage) :
    Contract (Op ⊕ EscalationOp) (Sum.elim Res EscalationRes) :=
  ⟨fun _ _ => True, fun _ => FiresFirst ulid⟩

/-- What a reply means: a trigger that is shown was stored, and a bad request has done nothing. -/
def EscalationEnds : Except ErrorReply EscalationTrigger → EscalationLog → Prop
  | .ok e, h => ⟨.inr (.save e), .ok ()⟩ ∈ h
  | .error reply, h => reply.status = 400 → h = []

theorem triggerEscalation_follows {taskID : TaskID} {condition : EscalationCondition}
    (hadmissible : Admissible ulid taskID condition) (target : EscalationTarget)
    (h : EscalationLog) :
    (triggerEscalation taskID condition target).Follows (escalationContract ulid) (fun res h' =>
      match res with
      | .ok e => ⟨.inr (.save e), .ok ()⟩ ∈ h'
      | .error _ => True) h := by
  refine ⟨trivial, fun now _ => ⟨trivial, fun id _ => ?_⟩⟩
  -- a new trigger is pending, so it fires
  refine ⟨⟨⟨rfl, rfl, hadmissible.condition_ne⟩, hadmissible.isULID⟩, fun saved _ => ?_⟩
  cases saved with
  | error err => trivial
  | ok _ =>
    refine ⟨trivial, fun _ _ => ?_⟩
    change _ ∈ _ ++ [_]
    simp

theorem handleTriggerEscalation_follows (r : EscalationRequest) :
    (handleTriggerEscalation ulid r).Follows (escalationContract ulid) EscalationEnds [] := by
  unfold handleTriggerEscalation
  rcases checkedEscalation_cases r with ⟨taskID, condition, target, hret, hadmissible⟩ | hfail
  · rw [hret]
    refine Program.Follows.handle ((triggerEscalation_follows hadmissible target []).mono ?_)
    intro res h hres
    cases res with
    | ok e => exact hres
    | error err => exact fun hstatus => by cases hstatus
  · obtain ⟨reply, hreply, -⟩ := hfail
    rw [hreply]
    exact fun _ => rfl

/-! ### What the operations do -/

/-- A trigger is stored by the insertion of its own, which needs its task. -/
theorem save_eq {ch : Choice} {s : Store} {table table' : EscalationTable} {e : EscalationTrigger}
    {r : Except RepoError Unit} (h : EscalationOp.exec ch s table (.save e) = (r, table')) :
    (∃ t, s.tasks.find e.taskID = some t ∧ table.insert e = some table') ∨
      (table' = table ∧ ∃ err, r = .error err) := by
  have hinsert : ∀ table', insertTrigger s table e = .ok table' →
      ∃ t, s.tasks.find e.taskID = some t ∧ table.insert e = some table' := by
    intro table' hok
    unfold insertTrigger at hok
    split at hok
    · cases hok
    · cases hok
    · next t table'' ht htable =>
      cases hok
      exact ⟨t, ht, htable⟩
  unfold EscalationOp.exec at h
  dsimp only at h
  split at h <;> obtain ⟨rfl, rfl⟩ := Prod.mk.inj h
  · next htable => exact Or.inl (hinsert _ htable)
  · exact Or.inr ⟨rfl, _, rfl⟩
  · next htable => exact Or.inl (hinsert _ htable)
  · exact Or.inr ⟨rfl, _, rfl⟩

/-- What the table holds, next to the tables of the services. -/
def AllFired (ulid : UlidPackage) (s : Store × EscalationTable) : Prop :=
  ∀ e ∈ s.2, e.Fired ∧ e.taskID.IsULID ulid ∧ ∃ t ∈ s.1.tasks, t.id = e.taskID

/-- A trigger whose insertion was confirmed is in the table. -/
def ConfirmedStored (e : Event (Op ⊕ EscalationOp) (Sum.elim Res EscalationRes))
    (s : Store × EscalationTable) : Prop :=
  ∀ trigger, e = ⟨.inr (.save trigger), .ok ()⟩ → trigger ∈ s.2

/-- One operation, of the services or of an escalation. -/
theorem AllFired.step {ch : Choice × Choice} {s s' : Store × EscalationTable}
    {o : Op ⊕ EscalationOp} {r : Sum.elim Res EscalationRes o} (hI : AllFired ulid s)
    (hperm : FiresFirst ulid o) (hex : (escalating ulid).exec ch s o = (r, s')) :
    AllFired ulid s' ∧ ConfirmedStored ⟨o, r⟩ s' ∧ ∀ e ∈ s.2, e ∈ s'.2 := by
  cases o with
  | inl o =>
    obtain ⟨hexec, htable⟩ := System.beside_exec_inl hex
    have hlasts : Lasts s.1 s'.1 := .of_effect (exec_effect hexec)
    refine ⟨fun e he => ?_, fun trigger h => (by cases h), fun e he => htable ▸ he⟩
    obtain ⟨hfired, hid, t, ht, htask⟩ := hI e (htable ▸ he)
    exact ⟨hfired, hid, t, hlasts.tasks t ht, htask⟩
  | inr o =>
    obtain ⟨hexec, hstore⟩ := System.beside_exec_inr hex
    have hsame : s'.2 = s.2 → AllFired ulid s' := by
      intro htable e he
      rw [hstore]
      exact hI e (htable ▸ he)
    cases o with
    | newEscalationTriggerID =>
      have htable : s'.2 = s.2 := (Prod.mk.inj hexec).2.symm
      exact ⟨hsame htable, fun trigger h => (by cases h), fun e he => htable ▸ he⟩
    | save e =>
      rcases save_eq hexec with ⟨t, ht, htable⟩ | ⟨htable, err, herr⟩
      · refine ⟨fun e' he' => ?_, fun trigger h => ?_,
          fun e' he' => (Table.mem_insert htable).mpr (Or.inl he')⟩
        · rw [hstore]
          rcases (Table.mem_insert htable).mp he' with he' | rfl
          · exact hI e' he'
          · obtain ⟨htmem, htid⟩ := Table.find_eq_some_iff.mp ht
            exact ⟨hperm.1, hperm.2, t, htmem, htid⟩
        · cases h
          exact (Table.mem_insert htable).mpr (Or.inr rfl)
      · refine ⟨hsame htable, fun trigger h => ?_, fun e' he' => htable ▸ he'⟩
        cases h
        cases herr

/-! ### Whole runs -/

theorem escalating_keeps :
    (escalating ulid).Keeps (escalationContract ulid) (besideEnds fun _ => EscalationEnds) :=
  System.beside_keeps (fun _ _ => trivial) (fun _ _ => trivial) handleTriggerEscalation_follows

abbrev EscalatingPool := Pool (Request ⊕ EscalationRequest) (Store × EscalationTable)
  (Op ⊕ EscalationOp) (Sum.elim Res EscalationRes) (ErrorReply ⊕ ErrorReply)
  (SuccessReply ⊕ EscalationTrigger)

/-- **Every stored escalation is triggered and belongs to a stored task.** It was triggered when it
was created, and stays so: nothing resolves it. A reply that shows a trigger shows one that is
stored, and a bad request has performed no operation. -/
theorem escalations_fired {metrics : Bool} {p : EscalatingPool}
    (hp : (escalating ulid).Reach unguarded (Pool.start (Store.empty metrics, ∅)) p) :
    (∀ e ∈ p.store.2, (e.status = .triggered ∧ e.triggeredAt = some e.createdAt) ∧
      ∃ t ∈ p.store.1.tasks, t.id = e.taskID) ∧
    ∀ t ∈ p.threads, (∀ e, t.prog = .ret (.inr e) → e ∈ p.store.2) ∧
      ∀ reply, t.prog = .fail (.inr reply) → reply.status = 400 → t.log = [] := by
  have hsound := System.Reach.sound (I := AllFired ulid) (V := ConfirmedStored) escalating_keeps
    (fun e he => absurd he (Table.notMem_empty e)) ?_ hp
  · refine ⟨fun e he => ?_, fun t ht => ?_⟩
    · obtain ⟨hfired, -, htask⟩ := hsound.1 e he
      exact ⟨⟨hfired.status, hfired.triggeredAt⟩, htask⟩
    · refine ⟨fun e hret => ?_, fun reply hfail => ?_⟩
      · obtain ⟨req, -, hmem⟩ := System.Reach.companion_ends escalating_keeps hp ht hret
        exact hsound.2 t ht _ hmem e rfl
      · obtain ⟨req, -, hbad⟩ := System.Reach.companion_fails escalating_keeps hp ht hfail
        exact hbad
  · intro h s o ch r s' hI hvalid hperm hex _
    obtain ⟨hI', hconfirmed, hold⟩ := hI.step hperm hex
    exact ⟨hI', hconfirmed, fun e he trigger heq => hold trigger (he trigger heq)⟩

/-- A fix is submitted, and then escalated to a human. -/
def escalatedFix : List (System.Action (Request ⊕ EscalationRequest) (Choice × Choice)) :=
  let id := "01ARZ3NDEKTSV4RRFFQ69G5FAV"
  .spawn (.inl (.submitTask (some ⟨"bugfix", "fix", "file", "normal", [], ""⟩))) ::
    .advance 0 ({ id, now := 1 }, {}) ::
    (List.range 4).map (fun j => .advance 0 (scheduleChoice 'a' j, {})) ++
    .spawn (.inr ⟨id, some ⟨"retries", [], "human"⟩⟩) ::
    (List.range 4).map fun j => .advance 1 (scheduleChoice 'b' j, scheduleChoice 'c' j)

/-- The escalation of a stored task. -/
theorem escalations_fired_human : ∃ p : EscalatingPool,
    (escalating default).Reach unguarded (Pool.start (Store.empty true, ∅)) p ∧
    ∃ e ∈ p.store.2, e.target = .human ∧ e.status = .triggered ∧
      ∃ t ∈ p.store.1.tasks, t.id = e.taskID := by
  have hplay : ((escalating default).play (fun _ _ _ _ _ => true) (Pool.start (Store.empty true, ∅))
      escalatedFix).map (fun p => p.store.2.rows.map EscalationTrigger.target)
        = some [.human] := by
    decide +kernel
  obtain ⟨p, hp, htargets⟩ := Option.map_eq_some_iff.mp hplay
  have hreach : (escalating default).Reach unguarded (Pool.start (Store.empty true, ∅)) p :=
    System.play_reach (fun _ _ _ _ _ _ => trivial) hp
  obtain ⟨e, he, htarget⟩ := exists_row_of_map htargets
  obtain ⟨⟨hstatus, -⟩, htask⟩ := (escalations_fired hreach).1 e he
  exact ⟨p, hreach, e, he, htarget, hstatus, htask⟩

end Governance

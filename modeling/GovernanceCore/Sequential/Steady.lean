import GovernanceCore.Services.Governance
import GovernanceCore.Store.Effects
import Mathlib.Data.Fintype.EquivFin

/-!
# Calls without failures

A call is **steady** when no repository call of it fails and every id it generates is fresh: not
empty, and not yet in any id column of the store. Whatever else the environment decides (the clock,
the row a query picks, the advice of the memory engine and of the failure statistics) is left to a
parameter.

Steady steps are always possible (`steady_serial`), so what the weakest precondition says about a
steady call holds of a run that exists: it is a statement of total correctness. The rules below give
each operation its only steady outcome.
-/

namespace Governance

open Framework

/-! ### The governed tables -/

/-- The tables that the services decide on. The audit trail, the notifications, the metrics and the
breakers are written and never read back. -/
structure Core where
  tasks : Table Task.id
  routingDecisions : Table RoutingDecision.id
  policyDecisions : Table PolicyDecisionRow.id
  workflowRuns : Table WorkflowRun.id
  executionLeases : IndexedTable ExecutionLease.id ExecutionLease.workflowRunID
  approvalRequests : Table ApprovalRequest.id

/-- The governed tables of a store. -/
def Store.core (s : Store) : Core :=
  ⟨s.tasks, s.routingDecisions, s.policyDecisions, s.workflowRuns, s.executionLeases,
    s.approvalRequests⟩

theorem WorkflowRun.overwrite_id (w row : WorkflowRun) : (w.overwrite row).id = row.id := rfl

theorem ApprovalRequest.overwrite_id (a row : ApprovalRequest) : (a.overwrite row).id = row.id :=
  rfl

/-- `UPDATE workflow_runs`, on the governed tables. -/
def Core.updateWorkflow (c : Core) (w : WorkflowRun) : Core :=
  { c with workflowRuns := c.workflowRuns.modify w.id w.overwrite w.overwrite_id }

/-- `UPDATE approval_requests`, on the governed tables. -/
def Core.updateApproval (c : Core) (a : ApprovalRequest) : Core :=
  { c with approvalRequests := c.approvalRequests.modify a.id a.overwrite a.overwrite_id }

/-! ### Fresh ids -/

/-- A text that can serve as a new id: it is in no id column of the governed tables. -/
structure Core.Fresh (c : Core) (text : String) : Prop where
  nonempty : text ≠ ""
  task : ∀ t ∈ c.tasks, t.id.text ≠ text
  routing : ∀ d ∈ c.routingDecisions, d.id.text ≠ text ∧ d.taskID.text ≠ text
  policy : ∀ d ∈ c.policyDecisions, d.id.text ≠ text ∧ d.taskID.text ≠ text
  workflow : ∀ w ∈ c.workflowRuns, w.id.text ≠ text ∧ w.taskID.text ≠ text
  lease : ∀ l ∈ c.executionLeases, l.id.text ≠ text ∧ l.workflowRunID.text ≠ text
  approval : ∀ a ∈ c.approvalRequests, a.id.text ≠ text ∧ a.workflowRunID.text ≠ text

/-- The same, for the whole store. -/
def Store.Fresh (s : Store) (text : String) : Prop :=
  s.core.Fresh text ∧ ∀ e ∈ s.auditEntries, e.id.text ≠ text

/-- The texts in the id columns of the store. -/
def Store.texts (s : Store) : List String :=
  s.tasks.rows.map (·.id.text) ++
    (s.routingDecisions.rows.map (·.id.text) ++ s.routingDecisions.rows.map (·.taskID.text)) ++
    (s.policyDecisions.rows.map (·.id.text) ++ s.policyDecisions.rows.map (·.taskID.text)) ++
    (s.workflowRuns.rows.map (·.id.text) ++ s.workflowRuns.rows.map (·.taskID.text)) ++
    (s.executionLeases.rows.map (·.id.text) ++ s.executionLeases.rows.map (·.workflowRunID.text)) ++
    (s.approvalRequests.rows.map (·.id.text) ++
      s.approvalRequests.rows.map (·.workflowRunID.text)) ++
    s.auditEntries.rows.map (·.id.text)

/-- A store is finite, so a fresh id exists. -/
theorem Store.exists_fresh (s : Store) : ∃ text, s.Fresh text := by
  obtain ⟨text, htext⟩ := Infinite.exists_notMem_finset ("" :: s.texts).toFinset
  simp only [Store.texts, List.mem_toFinset, List.mem_cons, List.mem_append, List.mem_map,
    not_or, not_exists, not_and] at htext
  obtain ⟨hne, ⟨⟨⟨⟨⟨ht, hr, hr'⟩, hp, hp'⟩, hw, hw'⟩, hl, hl'⟩, ha, ha'⟩, he⟩ := htext
  refine ⟨text, ?_, he⟩
  exact {
    nonempty := hne
    task := ht
    routing := fun d hd => ⟨hr d hd, hr' d hd⟩
    policy := fun d hd => ⟨hp d hd, hp' d hd⟩
    workflow := fun w hw₁ => ⟨hw w hw₁, hw' w hw₁⟩
    lease := fun l hl₁ => ⟨hl l hl₁, hl' l hl₁⟩
    approval := fun a ha₁ => ⟨ha a ha₁, ha' a ha₁⟩ }

/-! ### Steady steps -/

/-- What the environment may decide about an operation. -/
abbrev Environment := Op → Choice → Prop

/-- An environment that leaves faults and ids open. -/
def Environment.Open (env : Environment) : Prop :=
  ∀ o text, ∃ ch, ch.fault = .none ∧ ch.id = text ∧ env o ch

/-- One operation without a failure, with a fresh id at hand. -/
def Steady (env : Environment) : Store → (o : Op) → Res o → Store → Prop :=
  fun s o r s' => ∃ ch, ch.fault = .none ∧ s.Fresh ch.id ∧ env o ch ∧ exec ch s o = (r, s')

theorem steady_serial {env : Environment} (henv : env.Open) (s : Store) (o : Op) :
    ∃ r s', Steady env s o r s' := by
  obtain ⟨text, hfresh⟩ := s.exists_fresh
  obtain ⟨ch, hfault, hid, hch⟩ := henv o text
  exact ⟨_, _, ch, hfault, hid ▸ hfresh, hch, rfl⟩

/-- A steady step, seen through the governed tables. -/
def CoreStep (env : Environment) : Core → (o : Op) → Res o → Core → Prop :=
  fun c o r c' => ∃ s s', s.core = c ∧ s'.core = c' ∧ Steady env s o r s'

/-- A steady call ends with a result and governed tables that satisfy `Q`. -/
abbrev Gives {α : Type} (env : Environment) (Q : Except Err α → Core → Prop) (p : UseCase α)
    (c : Core) : Prop :=
  p.wp (CoreStep env) Q c

/-- **Total correctness.** A steady call has a run, and all of its runs satisfy `Q`. -/
theorem Gives.total {α : Type} {env : Environment} {Q : Except Err α → Core → Prop}
    {p : UseCase α} {s : Store} (henv : env.Open) (h : Gives env Q p s.core) :
    (∃ res s', p.Runs (Steady env) s res s') ∧
      ∀ res s', p.Runs (Steady env) s res s' → Q res s'.core := by
  refine ⟨Program.exists_runs (steady_serial henv) p s, fun res s' hrun => ?_⟩
  have hcore : p.Runs (CoreStep env) s.core res s'.core :=
    hrun.map fun hstep => ⟨_, _, rfl, rfl, hstep⟩
  exact hcore.of_wp h

/-! ### The only steady outcome of each operation -/

/-- The operations that write a governed table. The errors of the audit trail are dropped. -/
def Op.isWrite : Op → Bool
  | .taskSave _ | .routingSave _ | .policySave _ | .workflowSave _ | .workflowUpdate _
  | .leaseSave _ | .leaseUpdate _ | .approvalSave _ | .approvalUpdate _ => true
  | _ => false

section Outcomes

variable {env : Environment} {ch : Choice} {s s' : Store} {c c' : Core}

theorem query_of_found {α : Type} {what : String} {found : Option α} {a : α}
    (hfault : ch.fault = .none) (hfound : found = some a) : query ch s what found = (.ok a, s) := by
  simp only [query, hfault, hfound]

/-- The one row of a selection is the one that is picked. -/
theorem pick_singleton {R : Type} {l : List R} {p : R → Bool} {r : R} (n : Nat)
    (h : l.filter p = [r]) : pick l p n = some r := by
  rw [pick, h, List.length_singleton, Nat.mod_one]
  rfl

theorem pick_empty {R : Type} {l : List R} {p : R → Bool} (n : Nat) (h : l.filter p = []) :
    pick l p n = none := by
  rw [pick, h]
  rfl

/-- An insertion under a new key. -/
theorem write_inserted {R K : Type} [DecidableEq K] {key : R → K} {t : Table key} {v : R}
    {set : Table key → Store} {doing doing' : String} {index : UniqueIndex}
    {r : Except RepoError Unit} (hfault : ch.fault = .none) (hnew : t.find (key v) = none)
    (h : write ch s doing (inserted doing' index (t.insert v) set) = (r, s')) :
    r = .ok () ∧ ∃ T, T.rows = t.rows ++ [v] ∧ s' = set T := by
  obtain ⟨T, hT, hrows⟩ := Table.exists_insert hnew
  simp only [hT, inserted, write, hfault] at h
  obtain ⟨rfl, rfl⟩ := Prod.mk.inj h
  exact ⟨rfl, T, hrows, rfl⟩

/-- Only writes change the governed tables. -/
theorem core_eq {o : Op} {r : Res o} (ho : o.isWrite = false) (hex : exec ch s o = (r, s')) :
    s'.core = s.core := by
  have heffect := exec_effect hex
  cases heffect with
  | taskSave | routingSave | policySave | workflowSave | workflowUpdate | leaseSave | leaseUpdate
  | approvalSave | approvalUpdate => cases ho
  | _ => rfl

namespace CoreStep

theorem quiet {o : Op} {r : Res o} (ho : o.isWrite = false) (h : CoreStep env c o r c') :
    c' = c := by
  obtain ⟨s, s', rfl, rfl, ch, -, -, -, hex⟩ := h
  exact core_eq ho hex

theorem fresh {e : Entity} {id : ID e} (h : CoreStep env c (.newID e) id c') :
    c.Fresh id.text := by
  obtain ⟨s, s', rfl, rfl, ch, -, hfresh, -, hex⟩ := h
  obtain ⟨rfl, -⟩ := Prod.mk.inj hex
  exact hfresh.1

section Writes

variable {r : Except RepoError Unit}

theorem taskSave {t : Task} (hnew : c.tasks.find t.id = none)
    (h : CoreStep env c (.taskSave t) r c') :
    r = .ok () ∧ ∃ T, T.rows = c.tasks.rows ++ [t] ∧ c' = { c with tasks := T } := by
  obtain ⟨s, s', rfl, rfl, ch, hfault, -, -, hex⟩ := h
  obtain ⟨rfl, T, hT, rfl⟩ := write_inserted hfault hnew hex
  exact ⟨rfl, T, hT, rfl⟩

theorem routingSave {d : RoutingDecision} (hnew : c.routingDecisions.find d.id = none)
    (h : CoreStep env c (.routingSave d) r c') :
    r = .ok () ∧ ∃ T, T.rows = c.routingDecisions.rows ++ [d] ∧
      c' = { c with routingDecisions := T } := by
  obtain ⟨s, s', rfl, rfl, ch, hfault, -, -, hex⟩ := h
  obtain ⟨rfl, T, hT, rfl⟩ := write_inserted hfault hnew hex
  exact ⟨rfl, T, hT, rfl⟩

theorem policySave {d : PolicyDecision} (hnew : c.policyDecisions.find d.id = none)
    (h : CoreStep env c (.policySave d) r c') :
    r = .ok () ∧ ∃ T, T.rows = c.policyDecisions.rows ++ [d.toRow] ∧
      c' = { c with policyDecisions := T } := by
  obtain ⟨s, s', rfl, rfl, ch, hfault, -, -, hex⟩ := h
  obtain ⟨rfl, T, hT, rfl⟩ := write_inserted (v := d.toRow) hfault hnew hex
  exact ⟨rfl, T, hT, rfl⟩

theorem workflowSave {w : WorkflowRun} (hnew : c.workflowRuns.find w.id = none)
    (h : CoreStep env c (.workflowSave w) r c') :
    r = .ok () ∧ ∃ T, T.rows = c.workflowRuns.rows ++ [w] ∧
      c' = { c with workflowRuns := T } := by
  obtain ⟨s, s', rfl, rfl, ch, hfault, -, -, hex⟩ := h
  obtain ⟨rfl, T, hT, rfl⟩ := write_inserted hfault hnew hex
  exact ⟨rfl, T, hT, rfl⟩

theorem approvalSave {a : ApprovalRequest} (hnew : c.approvalRequests.find a.id = none)
    (h : CoreStep env c (.approvalSave a) r c') :
    r = .ok () ∧ ∃ T, T.rows = c.approvalRequests.rows ++ [a] ∧
      c' = { c with approvalRequests := T } := by
  obtain ⟨s, s', rfl, rfl, ch, hfault, -, -, hex⟩ := h
  obtain ⟨rfl, T, hT, rfl⟩ := write_inserted hfault hnew hex
  exact ⟨rfl, T, hT, rfl⟩

/-- A lease is new to two indexes. -/
theorem leaseSave {l : ExecutionLease} (hnew : c.executionLeases.toTable.find l.id = none)
    (hindex : c.executionLeases.lookup l.workflowRunID = none)
    (h : CoreStep env c (.leaseSave l) r c') :
    r = .ok () ∧ ∃ T, T.rows = c.executionLeases.rows ++ [l.toRow] ∧
      c' = { c with executionLeases := T } := by
  obtain ⟨s, s', rfl, rfl, ch, hfault, -, -, hex⟩ := h
  change s.executionLeases.toTable.find l.id = none at hnew
  change s.executionLeases.lookup l.workflowRunID = none at hindex
  obtain ⟨T, hT, hrows⟩ := IndexedTable.exists_insert (r := l.toRow) hnew hindex
  simp only [exec, hT, inserted, write, hfault] at hex
  obtain ⟨rfl, rfl⟩ := Prod.mk.inj hex
  exact ⟨rfl, T, hrows, rfl⟩

/-- The unique index refuses a second lease. -/
theorem leaseSave_conflict {l : ExecutionLease}
    (hindex : c.executionLeases.lookup l.workflowRunID ≠ none)
    (h : CoreStep env c (.leaseSave l) r c') : ∃ e, r = .error e := by
  obtain ⟨s, s', rfl, rfl, ch, hfault, -, -, hex⟩ := h
  change s.executionLeases.lookup l.workflowRunID ≠ none at hindex
  rcases write_eq hex with hinsert | ⟨-, he⟩
  · obtain ⟨T, hT, -⟩ := inserted_eq_ok_iff.mp hinsert
    obtain ⟨⟨-, hnone⟩, -⟩ := IndexedTable.insert_eq_some_iff.mp hT
    exact absurd hnone hindex
  · exact he

theorem workflowUpdate {w : WorkflowRun} (h : CoreStep env c (.workflowUpdate w) r c') :
    r = .ok () ∧ c' = c.updateWorkflow w := by
  obtain ⟨s, s', rfl, rfl, ch, hfault, -, -, hex⟩ := h
  simp only [exec, write, hfault] at hex
  obtain ⟨rfl, rfl⟩ := Prod.mk.inj hex
  exact ⟨rfl, rfl⟩

theorem approvalUpdate {a : ApprovalRequest} (h : CoreStep env c (.approvalUpdate a) r c') :
    r = .ok () ∧ c' = c.updateApproval a := by
  obtain ⟨s, s', rfl, rfl, ch, hfault, -, -, hex⟩ := h
  simp only [exec, write, hfault] at hex
  obtain ⟨rfl, rfl⟩ := Prod.mk.inj hex
  exact ⟨rfl, rfl⟩

end Writes

end CoreStep

end Outcomes

namespace Gives

variable {α β : Type} {env : Environment} {Q : Except Err β → Core → Prop} {c : Core}

theorem newID {e : Entity} {f : ID e → UseCase β}
    (h : ∀ id : ID e, c.Fresh id.text → Gives env Q (f id) c) :
    Gives env Q (.act (.newID e) .ret >>= f) c := by
  intro (id : ID e) c₁ hid
  obtain rfl := hid.quiet rfl
  exact h id hid.fresh

theorem now {f : Timestamp → UseCase β} (h : ∀ now, Gives env Q (f now) c) :
    Gives env Q (Clock.now >>= f) c := by
  intro now c₁ hnow
  obtain rfl := hnow.quiet rfl
  exact h now

theorem context {taskID : TaskID} {title : String} {f : Option MemoryContext → UseCase β}
    (h : ∀ ch : Choice, env (.getRelevantContext taskID title) ch → Gives env Q (f ch.memory) c) :
    Gives env Q (Memory.getRelevantContext taskID title >>= f) c := by
  rintro r c₁ ⟨s, s', rfl, rfl, ch, -, -, hch, hex⟩
  obtain ⟨rfl, rfl⟩ := Prod.mk.inj hex
  exact h ch hch

theorem stats {f : Option FailureStats → UseCase β}
    (h : ∀ ch : Choice, env .failureStats ch → Gives env Q (f ch.stats) c) :
    Gives env Q (StatsStore.get >>= f) c := by
  rintro r c₁ ⟨s, s', rfl, rfl, ch, -, -, hch, hex⟩
  obtain ⟨rfl, rfl⟩ := Prod.mk.inj hex
  exact h ch hch

/-- A domain method that accepts its arguments. -/
theorem wrap {msg : String} {r : Except Err α} {a : α} {f : α → UseCase β} (hr : r = .ok a)
    (h : Gives env Q (f a) c) : Gives env Q (orWrap msg r >>= f) c :=
  wp_orWrap_of_eq_ok hr h

/-! #### Reads

A read is followed by `orFail` or `orCause`; both go on with what was found. -/

section Reads

theorem findTask {lift : Except RepoError Task → UseCase Task} {id : TaskID} {t : Task}
    {f : Task → UseCase β} (hlift : lift (.ok t) = .ret t) (hfind : c.tasks.find id = some t)
    (h : Gives env Q (f t) c) :
    Gives env Q (TaskRepo.findByID id >>= fun r => lift r >>= f) c := by
  rintro r c₁ ⟨s, s', rfl, rfl, ch, hfault, -, -, hex⟩
  change s.tasks.find id = some t at hfind
  rw [exec, query_of_found hfault hfind] at hex
  obtain ⟨rfl, rfl⟩ := Prod.mk.inj hex
  change Gives env Q (lift (.ok t) >>= f) s.core
  rw [hlift]
  exact h

theorem findRouting {lift : Except RepoError RoutingDecision → UseCase RoutingDecision}
    {id : TaskID} {d : RoutingDecision} {f : RoutingDecision → UseCase β}
    (hlift : lift (.ok d) = .ret d)
    (hfind : c.routingDecisions.rows.filter (fun d => d.taskID = id) = [d])
    (h : Gives env Q (f d) c) :
    Gives env Q (RoutingRepo.findByTaskID id >>= fun r => lift r >>= f) c := by
  rintro r c₁ ⟨s, s', rfl, rfl, ch, hfault, -, -, hex⟩
  change s.routingDecisions.rows.filter (fun d => d.taskID = id) = [d] at hfind
  rw [exec, query_of_found hfault (pick_singleton ch.pick hfind)] at hex
  obtain ⟨rfl, rfl⟩ := Prod.mk.inj hex
  change Gives env Q (lift (.ok d) >>= f) s.core
  rw [hlift]
  exact h

theorem findPolicy {lift : Except RepoError PolicyDecision → UseCase PolicyDecision}
    {id : TaskID} {d : PolicyDecisionRow} {f : PolicyDecision → UseCase β}
    (hlift : lift (.ok d.scan) = .ret d.scan)
    (hfind : c.policyDecisions.rows.filter (fun d => d.taskID = id) = [d])
    (h : Gives env Q (f d.scan) c) :
    Gives env Q (PolicyRepo.findByTaskID id >>= fun r => lift r >>= f) c := by
  rintro r c₁ ⟨s, s', rfl, rfl, ch, hfault, -, -, hex⟩
  change s.policyDecisions.rows.filter (fun d => d.taskID = id) = [d] at hfind
  have hpick := congrArg (Option.map PolicyDecisionRow.scan) (pick_singleton ch.pick hfind)
  rw [exec, query_of_found hfault hpick] at hex
  obtain ⟨rfl, rfl⟩ := Prod.mk.inj hex
  change Gives env Q (lift (.ok d.scan) >>= f) s.core
  rw [hlift]
  exact h

theorem findRun {lift : Except RepoError WorkflowRun → UseCase WorkflowRun} {id : TaskID}
    {w : WorkflowRun} {f : WorkflowRun → UseCase β} (hlift : lift (.ok w) = .ret w)
    (hfind : c.workflowRuns.rows.filter (fun w => w.taskID = id) = [w])
    (h : Gives env Q (f w) c) :
    Gives env Q (WfRepo.findByTaskID id >>= fun r => lift r >>= f) c := by
  rintro r c₁ ⟨s, s', rfl, rfl, ch, hfault, -, -, hex⟩
  change s.workflowRuns.rows.filter (fun w => w.taskID = id) = [w] at hfind
  rw [exec, query_of_found hfault (pick_singleton ch.pick hfind)] at hex
  obtain ⟨rfl, rfl⟩ := Prod.mk.inj hex
  change Gives env Q (lift (.ok w) >>= f) s.core
  rw [hlift]
  exact h

/-- No run of the task is stored. -/
theorem findNoRun {id : TaskID} {f : Except RepoError WorkflowRun → UseCase β}
    (hfind : c.workflowRuns.rows.filter (fun w => w.taskID = id) = [])
    (h : ∀ e, Gives env Q (f (.error e)) c) : Gives env Q (WfRepo.findByTaskID id >>= f) c := by
  rintro r c₁ ⟨s, s', rfl, rfl, ch, hfault, -, -, hex⟩
  change s.workflowRuns.rows.filter (fun w => w.taskID = id) = [] at hfind
  simp only [exec, query, hfault, pick_empty ch.pick hfind] at hex
  obtain ⟨rfl, rfl⟩ := Prod.mk.inj hex
  exact h _

end Reads

/-! #### Writes -/

section Writes

variable {f : Unit → UseCase β} {msg : String}

theorem saveTask {t : Task} (hnew : c.tasks.find t.id = none)
    (h : ∀ T, T.rows = c.tasks.rows ++ [t] → Gives env Q (f ()) { c with tasks := T }) :
    Gives env Q (TaskRepo.save t >>= fun r => orFail msg r >>= f) c := by
  intro r c₁ hr
  obtain ⟨rfl, T, hT, rfl⟩ := hr.taskSave hnew
  exact h T hT

theorem saveRouting {d : RoutingDecision} (hnew : c.routingDecisions.find d.id = none)
    (h : ∀ T, T.rows = c.routingDecisions.rows ++ [d] →
      Gives env Q (f ()) { c with routingDecisions := T }) :
    Gives env Q (RoutingRepo.save d >>= fun r => orFail msg r >>= f) c := by
  intro r c₁ hr
  obtain ⟨rfl, T, hT, rfl⟩ := hr.routingSave hnew
  exact h T hT

theorem savePolicy {d : PolicyDecision} (hnew : c.policyDecisions.find d.id = none)
    (h : ∀ T, T.rows = c.policyDecisions.rows ++ [d.toRow] →
      Gives env Q (f ()) { c with policyDecisions := T }) :
    Gives env Q (PolicyRepo.save d >>= fun r => orFail msg r >>= f) c := by
  intro r c₁ hr
  obtain ⟨rfl, T, hT, rfl⟩ := hr.policySave hnew
  exact h T hT

theorem saveRun {w : WorkflowRun} (hnew : c.workflowRuns.find w.id = none)
    (h : ∀ T, T.rows = c.workflowRuns.rows ++ [w] →
      Gives env Q (f ()) { c with workflowRuns := T }) :
    Gives env Q (WfRepo.save w >>= fun r => orFail msg r >>= f) c := by
  intro r c₁ hr
  obtain ⟨rfl, T, hT, rfl⟩ := hr.workflowSave hnew
  exact h T hT

theorem updateRun {w : WorkflowRun} (h : Gives env Q (f ()) (c.updateWorkflow w)) :
    Gives env Q (WfRepo.update w >>= fun r => orFail msg r >>= f) c := by
  intro r c₁ hr
  obtain ⟨rfl, rfl⟩ := hr.workflowUpdate
  exact h

theorem saveLease {l : ExecutionLease} (hnew : c.executionLeases.toTable.find l.id = none)
    (hindex : c.executionLeases.lookup l.workflowRunID = none)
    (h : ∀ T, T.rows = c.executionLeases.rows ++ [l.toRow] →
      Gives env Q (f ()) { c with executionLeases := T }) :
    Gives env Q (LeaseRepo.save l >>= fun r => orFail msg r >>= f) c := by
  intro r c₁ hr
  obtain ⟨rfl, T, hT, rfl⟩ := hr.leaseSave hnew hindex
  exact h T hT

theorem saveApproval {a : ApprovalRequest} (hnew : c.approvalRequests.find a.id = none)
    (h : ∀ T, T.rows = c.approvalRequests.rows ++ [a] →
      Gives env Q (f ()) { c with approvalRequests := T }) :
    Gives env Q (ApprovalRepo.save a >>= fun r => orFail msg r >>= f) c := by
  intro r c₁ hr
  obtain ⟨rfl, T, hT, rfl⟩ := hr.approvalSave hnew
  exact h T hT

/-- An audit entry whose error is dropped. Its id is fresh and its texts are not blank, so it is
recorded all the same. -/
theorem recordDropped {actor : ActorID} {action outcome : String} {ctx : AuditContext}
    {taskID : Option TaskID} {wfID : Option WorkflowRunID} {f : Except RepoError Unit → UseCase β}
    (haction : isBlank action = false) (houtcome : isBlank outcome = false)
    (h : Gives env Q (f (.ok ())) c) :
    Gives env Q (Audit.record actor action outcome ctx taskID wfID >>= f) c := by
  rintro r c₁ ⟨s, s', rfl, rfl, ch, hfault, hfresh, -, hex⟩
  have hnew : s.auditEntries.find ⟨ch.id⟩ = none :=
    Table.find_eq_none_iff.mpr fun e he hid => hfresh.2 e he (congrArg ID.text hid)
  obtain ⟨T, hT, -⟩ := Table.exists_insert
    (r := (⟨⟨ch.id⟩, taskID, wfID, actor, action, outcome, ctx.withTraceInfo ch.span, ch.now⟩ :
      AuditEntry)) hnew
  have hrecord : recordAudit ch s actor action outcome ctx taskID wfID
      = .ok { s with auditEntries := T } := by
    rw [recordAudit, newAuditEntry_eq_ok_iff.mpr ⟨haction, houtcome, rfl⟩]
    simp only [hT, inserted]
  simp only [exec, hrecord, write, hfault] at hex
  obtain ⟨rfl, rfl⟩ := Prod.mk.inj hex
  exact h

theorem record {actor : ActorID} {action outcome : String} {ctx : AuditContext}
    {taskID : Option TaskID} {wfID : Option WorkflowRunID}
    (haction : isBlank action = false) (houtcome : isBlank outcome = false)
    (h : Gives env Q (f ()) c) :
    Gives env Q
      (Audit.record actor action outcome ctx taskID wfID >>= fun r => orFail msg r >>= f) c :=
  recordDropped haction houtcome h

end Writes

/-! #### Outside the database -/

theorem notify {n : Notification} {f : Unit → UseCase β}
    (h : Gives env Q (f ()) c) :
    Gives env Q (.act (.notify n) .ret >>= f) c := by
  intro r c₁ hr
  obtain rfl := hr.quiet rfl
  exact h

theorem emit {m : LifecycleMetric} {f : Unit → UseCase β}
    (h : Gives env Q (f ()) c) :
    Gives env Q (.act (.emit m) .ret >>= f) c := by
  intro r c₁ hr
  obtain rfl := hr.quiet rfl
  exact h

/-! #### Sequences -/

/-- A use case that succeeds, followed by another. -/
theorem seq {P : α → Core → Prop} {p : UseCase α} {f : α → UseCase β}
    (hp : Gives env (fun res c' => ∃ a, res = .ok a ∧ P a c') p c)
    (hf : ∀ a c', P a c' → Gives env Q (f a) c') : Gives env Q (p >>= f) c := by
  refine Program.wp_bind.mpr (Program.wp_mono ?_ hp)
  rintro res c' ⟨a, rfl, ha⟩
  exact hf a c' ha

/-- A message for an error does not matter to a use case that succeeds. -/
theorem wrapError {P : α → Core → Prop} {p : UseCase α} {msg : String}
    (hp : Gives env (fun res c' => ∃ a, res = .ok a ∧ P a c') p c) :
    Gives env (fun res c' => ∃ a, res = .ok a ∧ P a c') (wrapError msg p) c := by
  induction p generalizing c with
  | ret a => exact hp
  | fail e =>
    obtain ⟨a, ha, -⟩ := hp
    cases ha
  | act o k ih => exact fun r c₁ hr => ih r (hp r c₁ hr)

end Gives

end Governance

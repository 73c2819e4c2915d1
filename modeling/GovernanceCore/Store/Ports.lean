import GovernanceCore.Store.Schema
import GovernanceCore.Framework.Interleaving

/-!
# The outbound ports as atomic operations

`Op` lists the calls that the services make on their outbound ports, `Res` what each one answers,
and `exec` what it does to the store. The environment decides the rest through a `Choice`: whether
a repository call fails, and then before or after its effect; which row a query without an order
returns; the clock; the generated id; what the memory engine and the failure statistics say.
-/

namespace Governance

open Framework

/-- The unique indexes that can refuse an insertion. -/
inductive UniqueIndex where
  | primaryKey | leaseWorkflow
  deriving DecidableEq, Repr

/-- Why a repository call failed. -/
inductive RepoError where
  | notFound (what : String)
  | duplicate (doing : String) (index : UniqueIndex)
  | unavailable (doing : String)
  | invalid (cause : Err)
  deriving DecidableEq, Repr

/-- The error a repository returns. -/
def RepoError.err : RepoError → Err
  | .notFound what => .new (what ++ " not found")
  | .duplicate doing _ => .context doing (.new "duplicate key value violates unique constraint")
  | .unavailable doing => .context doing (.new "connection failure")
  | .invalid cause => cause

/-- How a repository call fails. -/
inductive Fault where
  | none
  /-- It has had no effect. -/
  | lost
  /-- It has had its effect, and the answer was lost. -/
  | afterCommit
  deriving DecidableEq, Repr

/-- What the environment decides about one operation. -/
structure Choice where
  fault : Fault := .none
  pick : Nat := 0
  id : String := ""
  now : Timestamp := 0
  memory : Option MemoryContext := none
  stats : Option FailureStats := none
  span : Option (String × String) := none

/-- The calls on the outbound ports. -/
inductive Op where
  | newID (e : Entity)
  | now
  | getRelevantContext (taskID : TaskID) (query : String)
  | failureStats
  | taskSave (t : Task)
  | taskFindByID (id : TaskID)
  | routingSave (d : RoutingDecision)
  | routingFindByTaskID (id : TaskID)
  | policySave (d : PolicyDecision)
  | policyFindByTaskID (id : TaskID)
  | workflowSave (w : WorkflowRun)
  | workflowFindByID (id : WorkflowRunID)
  | workflowFindByTaskID (id : TaskID)
  | workflowUpdate (w : WorkflowRun)
  | leaseSave (l : ExecutionLease)
  | leaseFindByWorkflowRunID (id : WorkflowRunID)
  | leaseUpdate (l : ExecutionLease)
  | approvalSave (a : ApprovalRequest)
  | approvalFindByID (id : ApprovalRequestID)
  | approvalUpdate (a : ApprovalRequest)
  | auditRecord (actor : ActorID) (action outcome : String) (ctx : AuditContext)
      (taskID : Option TaskID) (wfID : Option WorkflowRunID)
  | notify (n : Notification)
  | emit (m : LifecycleMetric)
  | breakerObserve (tool role : String) (success : Bool) (at' : Timestamp)

/-- What a call answers. Every caller drops the answer of a notification. -/
def Res : Op → Type
  | .newID e => ID e
  | .now => Timestamp
  | .getRelevantContext _ _ => Option MemoryContext
  | .failureStats => Option FailureStats
  | .taskFindByID _ => Except RepoError Task
  | .routingFindByTaskID _ => Except RepoError RoutingDecision
  | .policyFindByTaskID _ => Except RepoError PolicyDecision
  | .workflowFindByID _ => Except RepoError WorkflowRun
  | .workflowFindByTaskID _ => Except RepoError WorkflowRun
  | .leaseFindByWorkflowRunID _ => Except RepoError ExecutionLease
  | .approvalFindByID _ => Except RepoError ApprovalRequest
  | .notify _ => Unit
  | .emit _ => Unit
  | .breakerObserve _ _ _ _ => Option StateTransition
  | _ => Except RepoError Unit

/-! ### Reads and writes that may fail -/

/-- A read whose answer without a failure is `found`. -/
def query {α : Type} (ch : Choice) (s : Store) (what : String) (found : Option α) :
    Except RepoError α × Store :=
  match ch.fault, found with
  | .none, some a => (.ok a, s)
  | .none, none => (.error (.notFound what), s)
  | _, _ => (.error (.unavailable ("scanning " ++ what)), s)

/-- A write whose effect without a failure is `effect`. -/
def write (ch : Choice) (s : Store) (doing : String) (effect : Except RepoError Store) :
    Except RepoError Unit × Store :=
  match ch.fault, effect with
  | .none, .ok s' => (.ok (), s')
  | .none, .error e => (.error e, s)
  -- the statement was committed and the connection broke before the answer
  | .afterCommit, .ok s' => (.error (.unavailable doing), s')
  | _, _ => (.error (.unavailable doing), s)

/-- The effect of an insertion, given the table it leads to. -/
def inserted {T : Type} (doing : String) (index : UniqueIndex) (t : Option T) (set : T → Store) :
    Except RepoError Store :=
  match t with
  | some t => .ok (set t)
  | none => .error (.duplicate doing index)

section Specs

variable {α : Type} {ch : Choice} {s s' : Store} {what doing : String}

/-- **A read changes nothing**, and what it answers was found. -/
theorem query_eq {found : Option α} {r : Except RepoError α}
    (h : query ch s what found = (r, s')) : s' = s ∧ ∀ a, r = .ok a → found = some a := by
  unfold query at h
  split at h <;> obtain ⟨rfl, rfl⟩ := Prod.mk.inj h
  · exact ⟨rfl, fun a ha => by rw [Except.ok.inj ha]⟩
  · exact ⟨rfl, fun a ha => by cases ha⟩
  · exact ⟨rfl, fun a ha => by cases ha⟩

/-- **A write has its effect or none**, and it has it when it answers without an error. -/
theorem write_eq {effect : Except RepoError Store} {r : Except RepoError Unit}
    (h : write ch s doing effect = (r, s')) :
    effect = .ok s' ∨ (s' = s ∧ ∃ e, r = .error e) := by
  unfold write at h
  split at h <;> obtain ⟨rfl, rfl⟩ := Prod.mk.inj h
  · exact Or.inl rfl
  · exact Or.inr ⟨rfl, _, rfl⟩
  · exact Or.inl rfl
  · exact Or.inr ⟨rfl, _, rfl⟩

theorem inserted_eq_ok_iff {T : Type} {index : UniqueIndex} {t : Option T} {set : T → Store} :
    inserted doing index t set = .ok s' ↔ ∃ t', t = some t' ∧ s' = set t' := by
  cases t with
  | none => simp [inserted]
  | some t => simp [inserted, eq_comm]

end Specs

/-! ### The interpreter -/

/-- The index that refuses a lease: the one on the workflow run when that is taken. -/
def leaseConflict (s : Store) (l : ExecutionLease) : UniqueIndex :=
  if (s.executionLeases.lookup l.workflowRunID).isSome then .leaseWorkflow else .primaryKey

/-- `RecordAuditService.Record`: builds the entry and appends it. -/
def recordAudit (ch : Choice) (s : Store) (actor : ActorID) (action outcome : String)
    (ctx : AuditContext) (taskID : Option TaskID) (wfID : Option WorkflowRunID) :
    Except RepoError Store :=
  -- the recorder has its own id generator and clock, and reads the span of the request
  match newAuditEntry ⟨ch.id⟩ actor action outcome (ctx.withTraceInfo ch.span) ch.now with
  | .error e => .error (.invalid e)
  | .ok entry =>
    inserted "appending audit entry" .primaryKey
      (s.auditEntries.insert { entry with taskID, workflowRunID := wfID })
      fun t => { s with auditEntries := t }

/-- What each operation does. -/
def exec (ch : Choice) (s : Store) : (o : Op) → Res o × Store
  | .newID _ => (⟨ch.id⟩, s)
  | .now => (ch.now, s)
  | .getRelevantContext _ _ => (ch.memory, s)
  | .failureStats => (ch.stats, s)
  | .taskSave t => write ch s "inserting task" <|
      inserted "inserting task" .primaryKey (s.tasks.insert t) fun t => { s with tasks := t }
  | .taskFindByID id => query ch s "task" (s.tasks.find id)
  | .routingSave d => write ch s "inserting routing decision" <|
      inserted "inserting routing decision" .primaryKey (s.routingDecisions.insert d)
        fun t => { s with routingDecisions := t }
  -- several decisions of one task are possible, and the query has no order
  | .routingFindByTaskID id => query ch s "routing decision"
      (pick s.routingDecisions.rows (fun d => d.taskID = id) ch.pick)
  | .policySave d => write ch s "inserting policy decision" <|
      inserted "inserting policy decision" .primaryKey (s.policyDecisions.insert d.toRow)
        fun t => { s with policyDecisions := t }
  | .policyFindByTaskID id => query ch s "policy decision"
      ((pick s.policyDecisions.rows (fun d => d.taskID = id) ch.pick).map PolicyDecisionRow.scan)
  | .workflowSave w => write ch s "inserting workflow run" <|
      inserted "inserting workflow run" .primaryKey (s.workflowRuns.insert w)
        fun t => { s with workflowRuns := t }
  | .workflowFindByID id => query ch s "workflow run" (s.workflowRuns.find id)
  | .workflowFindByTaskID id => query ch s "workflow run"
      (pick s.workflowRuns.rows (fun w => w.taskID = id) ch.pick)
  | .workflowUpdate w => write ch s "updating workflow run" (.ok (s.updateWorkflow w))
  | .leaseSave l => write ch s "inserting execution lease" <|
      inserted "inserting execution lease" (leaseConflict s l) (s.executionLeases.insert l.toRow)
        fun t => { s with executionLeases := t }
  -- here the unique index leaves one row at most
  | .leaseFindByWorkflowRunID id => query ch s "execution lease" (s.executionLeases.lookup id)
  | .leaseUpdate l => write ch s "updating execution lease" (.ok (s.updateLease l))
  | .approvalSave a => write ch s "inserting approval request" <|
      inserted "inserting approval request" .primaryKey (s.approvalRequests.insert a)
        fun t => { s with approvalRequests := t }
  | .approvalFindByID id => query ch s "approval request" (s.approvalRequests.find id)
  | .approvalUpdate a => write ch s "updating approval request" (.ok (s.updateApproval a))
  | .auditRecord actor action outcome ctx taskID wfID => write ch s "appending audit entry" <|
      recordAudit ch s actor action outcome ctx taskID wfID
  | .notify n => ((), { s with notifications := s.notifications ++ [n] })
  | .emit m => ((), { s with lifecycleMetrics := s.lifecycleMetrics.map (· ++ [m]) })
  | .breakerObserve tool role success at' =>
      let (breakers, transition) := s.breakers.observe tool role success at'
      (transition, { s with breakers })

end Governance

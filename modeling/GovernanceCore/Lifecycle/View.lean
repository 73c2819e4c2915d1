import GovernanceCore.Services.Governance
import GovernanceCore.Store.Effects

/-!
# The store as one workflow run sees it

When calls are made one after the other, what happens to one workflow run can be followed in a small
part of the store: its row, its lease, its approval requests, its audit trail, the notifications and
terminal metrics issued for it, and the policy decisions. `view id` is that part.

`ViewStep id` says what each operation does to the view of `id`, without a table: an operation on
another run leaves the view, and a query about another run may answer anything. `view_step` is the
refinement: every operation of the interpreter that does not fail is such a step. By
`Program.Runs.map` a call that runs over the store is then a run of the same program over the view.
-/

namespace Governance

open Framework

/-! ### Operations that do not fail -/

/-- The errors of a repository that does not fail: nothing was found, or the run has a lease
already. -/
def RepoError.isExpected : RepoError → Bool
  | .notFound _ => true
  | .duplicate _ .leaseWorkflow => true
  | _ => false

/-- The answers without a repository failure. With `strict` the audit trail does not fail either;
without, it may answer anything. -/
def accepts (strict : Bool) : (o : Op) → Res o → Bool
  | .auditRecord .., .error _ => !strict
  | .taskSave _, .error e => e.isExpected
  | .taskFindByID _, .error e => e.isExpected
  | .routingSave _, .error e => e.isExpected
  | .routingFindByTaskID _, .error e => e.isExpected
  | .policySave _, .error e => e.isExpected
  | .policyFindByTaskID _, .error e => e.isExpected
  | .workflowSave _, .error e => e.isExpected
  | .workflowFindByID _, .error e => e.isExpected
  | .workflowFindByTaskID _, .error e => e.isExpected
  | .workflowUpdate _, .error e => e.isExpected
  | .leaseSave _, .error e => e.isExpected
  | .leaseFindByWorkflowRunID _, .error e => e.isExpected
  | .leaseUpdate _, .error e => e.isExpected
  | .approvalSave _, .error e => e.isExpected
  | .approvalFindByID _, .error e => e.isExpected
  | .approvalUpdate _, .error e => e.isExpected
  | _, _ => true

section Accepted

variable {ch : Choice} {s s' : Store} {doing what : String}

/-- A read that does not fail answers with what is there. -/
theorem query_expected {α : Type} {found : Option α} {r : Except RepoError α}
    (h : query ch s what found = (r, s')) (hr : ∀ e, r = .error e → e.isExpected = true) :
    s' = s ∧ ((∃ a, found = some a ∧ r = .ok a) ∨ (found = none ∧ ∃ e, r = .error e)) := by
  unfold query at h
  split at h <;> obtain ⟨rfl, rfl⟩ := Prod.mk.inj h
  · exact ⟨rfl, Or.inl ⟨_, rfl, rfl⟩⟩
  · exact ⟨rfl, Or.inr ⟨rfl, _, rfl⟩⟩
  · -- a broken connection is not expected
    exact absurd (hr _ rfl) (by simp [RepoError.isExpected])

/-- A write that does not fail has its effect, or is refused by the index of leases. -/
theorem write_expected {effect : Except RepoError Store} {r : Except RepoError Unit}
    (h : write ch s doing effect = (r, s')) (hr : ∀ e, r = .error e → e.isExpected = true) :
    (effect = .ok s' ∧ r = .ok ()) ∨
      (s' = s ∧ ∃ e, effect = .error e ∧ r = .error e ∧ e.isExpected = true) := by
  unfold write at h
  split at h <;> obtain ⟨rfl, rfl⟩ := Prod.mk.inj h
  · exact Or.inl ⟨rfl, rfl⟩
  · exact Or.inr ⟨rfl, _, rfl, rfl, hr _ rfl⟩
  · exact absurd (hr _ rfl) (by simp [RepoError.isExpected])
  · exact absurd (hr _ rfl) (by simp [RepoError.isExpected])

/-- An insertion under a fresh id that does not fail. -/
theorem inserted_expected {T : Type} {t : Option T} {set : T → Store} {r : Except RepoError Unit}
    (h : write ch s doing (inserted doing .primaryKey t set) = (r, s'))
    (hr : ∀ e, r = .error e → e.isExpected = true) : ∃ T, t = some T ∧ s' = set T ∧ r = .ok () := by
  rcases write_expected h hr with ⟨hok, rfl⟩ | ⟨rfl, e, he, rfl, hexp⟩
  · obtain ⟨T, hT, hs⟩ := inserted_eq_ok_iff.mp hok
    exact ⟨T, hT, hs, rfl⟩
  · cases t with
    | some T => cases he
    | none =>
      obtain rfl := Except.error.inj he
      cases hexp

/-- An update that does not fail. -/
theorem update_expected {s₁ : Store} {r : Except RepoError Unit}
    (h : write ch s doing (.ok s₁) = (r, s')) (hr : ∀ e, r = .error e → e.isExpected = true) :
    s' = s₁ ∧ r = .ok () := by
  rcases write_expected h hr with ⟨hok, rfl⟩ | ⟨rfl, e, he, rfl, hexp⟩
  · exact ⟨(Except.ok.inj hok).symm, rfl⟩
  · cases he

end Accepted

/-! ### The view -/

/-- The kind of a notification. -/
inductive Note where
  | executionReady | approvalRequired | workflowTerminated
  deriving DecidableEq, Repr

def Notification.note : Notification → Note
  | .executionReady _ _ => .executionReady
  | .approvalRequired _ _ => .approvalRequired
  | .workflowTerminated _ _ => .workflowTerminated

/-- The emission announces the end of the run. -/
def LifecycleMetric.isTerminalOf (id : WorkflowRunID) : LifecycleMetric → Bool
  | .terminal w _ => w = id
  | _ => false

/-- What the store holds about one workflow run, and the policy decisions. -/
structure View where
  run : Option WorkflowRun
  lease : Option ExecutionLease
  /-- The approval requests for the run, oldest first. -/
  requests : List ApprovalRequest
  decisions : List PolicyDecisionRow
  /-- Action and outcome of the audit entries that carry the id of the run, oldest first. -/
  trail : List (String × String)
  /-- The notifications about the run, oldest first. -/
  notes : List Note
  /-- The number of terminal emissions for the run, when instruments are configured. -/
  endings : Option Nat

def auditTrail (id : WorkflowRunID) (s : Store) : List (String × String) :=
  (s.auditEntries.rows.filter fun e => e.workflowRunID = some id).map fun e => (e.action, e.outcome)

def notesFor (id : WorkflowRunID) (s : Store) : List Note :=
  (s.notifications.filter fun n => n.workflowRunID = id).map Notification.note

def endingsOf (id : WorkflowRunID) (s : Store) : Option Nat :=
  s.lifecycleMetrics.map fun ms => ms.countP (LifecycleMetric.isTerminalOf id)

def requestsFor (id : WorkflowRunID) (s : Store) : List ApprovalRequest :=
  s.approvalRequests.rows.filter fun a => a.workflowRunID = id

def view (id : WorkflowRunID) (s : Store) : View where
  run := s.workflowRuns.find id
  lease := s.executionLeases.lookup id
  requests := requestsFor id s
  decisions := s.policyDecisions.rows
  trail := auditTrail id s
  notes := notesFor id s
  endings := endingsOf id s

theorem view_run {s : Store} {w : WorkflowRun} (hw : w ∈ s.workflowRuns) :
    (view w.id s).run = some w :=
  Table.find_eq_some_iff.mpr ⟨hw, rfl⟩

theorem view_lease {s : Store} {l : ExecutionLease} (hl : l ∈ s.executionLeases) :
    (view l.workflowRunID s).lease = some l :=
  IndexedTable.lookup_eq_some_iff.mpr ⟨hl, rfl⟩

/-! ### What an operation does to a view -/

/-- One operation that does not fail, as the run `id` sees it. -/
def ViewStep (strict : Bool) (id : WorkflowRunID) (v : View) : (o : Op) → Res o → View → Prop
  | .workflowSave w, .ok _, v' =>
      if w.id = id then v.run = none ∧ v' = { v with run := some w } else v' = v
  | .workflowSave _, .error _, _ => False
  | .workflowFindByID i, .ok w, v' => v' = v ∧ w.id = i ∧ (i = id → v.run = some w)
  | .workflowFindByID i, .error _, v' => v' = v ∧ (i = id → v.run = none)
  | .workflowFindByTaskID t, .ok w, v' => v' = v ∧ w.taskID = t ∧ (w.id = id → v.run = some w)
  | .workflowFindByTaskID _, .error _, v' => v' = v
  -- an update addresses its row by the id alone, and finds it or does nothing
  | .workflowUpdate w, .ok _, v' =>
      v' = { v with run := if w.id = id then v.run.map w.overwrite else v.run }
  | .workflowUpdate _, .error _, _ => False
  | .leaseSave l, .ok _, v' =>
      if l.workflowRunID = id then v.lease = none ∧ v' = { v with lease := some l.toRow }
      else v' = v
  -- the one refusal that does not count as a failure
  | .leaseSave l, .error _, v' => v' = v ∧ (l.workflowRunID = id → v.lease ≠ none)
  -- what is said about the lease of another run is that an update of it will miss this one
  | .leaseFindByWorkflowRunID i, .ok l, v' =>
      v' = v ∧ (i = id → v.lease = some l) ∧ (i ≠ id → ∀ r, v.lease = some r → r.id ≠ l.id)
  | .leaseFindByWorkflowRunID i, .error _, v' => v' = v ∧ (i = id → v.lease = none)
  | .leaseUpdate l, .ok _, v' =>
      v' = { v with lease := v.lease.map fun r => if r.id = l.id then l.overwrite r else r }
  | .leaseUpdate _, .error _, _ => False
  | .approvalSave a, .ok _, v' =>
      v' = { v with requests := if a.workflowRunID = id then v.requests ++ [a] else v.requests }
  | .approvalSave _, .error _, _ => False
  | .approvalFindByID i, .ok a, v' =>
      v' = v ∧ a.id = i ∧ (a.workflowRunID = id → a ∈ v.requests) ∧
        ∀ b ∈ v.requests, b.id = i → b = a ∧ a.workflowRunID = id
  | .approvalUpdate a, .ok _, v' =>
      v' = { v with requests := overwrite ApprovalRequest.id a.id a.overwrite v.requests }
  | .approvalUpdate _, .error _, _ => False
  | .policySave d, .ok _, v' => v' = { v with decisions := v.decisions ++ [d.toRow] }
  | .policySave _, .error _, _ => False
  | .policyFindByTaskID t, .ok d, v' =>
      v' = v ∧ ∃ row ∈ v.decisions, row.taskID = t ∧ d = row.scan
  | .auditRecord _ action outcome _ _ wf, r, v' => ∃ trail, v' = { v with trail } ∧
      (strict = true → r = .ok () ∧
        trail = if wf = some id then v.trail ++ [(action, outcome)] else v.trail)
  | .notify n, _, v' =>
      v' = { v with notes := if n.workflowRunID = id then v.notes ++ [n.note] else v.notes }
  | .emit (.terminal i _), _, v' =>
      v' = { v with endings := if i = id then v.endings.map (· + 1) else v.endings }
  | _, _, v' => v' = v

/-! ### The refinement -/

section Refinement

variable {strict : Bool} {ch : Choice} {s s' : Store} (id : WorkflowRunID)

/-- A row found under a key is the row the view shows, when the key is its own. -/
theorem workflowSave_view {w : WorkflowRun} {T : Table WorkflowRun.id}
    (hT : s.workflowRuns.insert w = some T) :
    if w.id = id then (view id s).run = none ∧
        view id { s with workflowRuns := T } = { view id s with run := some w }
    else view id { s with workflowRuns := T } = view id s := by
  split
  · next hid =>
    subst hid
    refine ⟨(Table.insert_eq_some_iff.mp hT).1, ?_⟩
    show { view w.id s with run := T.find w.id } = _
    rw [Table.find_insert_self hT]
  · next hid =>
    show { view id s with run := T.find id } = _
    rw [Table.find_insert_of_ne hT (Ne.symm hid)]
    rfl

theorem leaseSave_view {l : ExecutionLease}
    {T : IndexedTable ExecutionLease.id ExecutionLease.workflowRunID}
    (hT : s.executionLeases.insert l.toRow = some T) :
    if l.workflowRunID = id then (view id s).lease = none ∧
        view id { s with executionLeases := T } = { view id s with lease := some l.toRow }
    else view id { s with executionLeases := T } = view id s := by
  have hidx := IndexedTable.insert_byIndex hT
  split
  · next hid =>
    subst hid
    refine ⟨(Table.insert_eq_some_iff.mp hidx).1, ?_⟩
    show { view l.workflowRunID s with lease := T.byIndex.find l.toRow.workflowRunID } = _
    rw [Table.find_insert_self hidx]
  · next hid =>
    show { view id s with lease := T.byIndex.find id } = _
    rw [Table.find_insert_of_ne hidx (Ne.symm hid)]
    rfl

theorem workflowUpdate_view (w : WorkflowRun) :
    view id (s.updateWorkflow w)
      = { view id s with run := if w.id = id then (view id s).run.map w.overwrite
                                else (view id s).run } := by
  -- the view reads its parts off different tables, so only the run has to be compared
  have hrun : (s.updateWorkflow w).workflowRuns.find id
      = if w.id = id then (view id s).run.map w.overwrite else (view id s).run := by
    split
    · next hid =>
      subst hid
      exact Table.find_modify_self (t := s.workflowRuns) (f := w.overwrite) fun _ => rfl
    · next hid =>
      exact Table.find_modify_of_ne (t := s.workflowRuns) (f := w.overwrite) (fun _ => rfl)
        (Ne.symm hid)
  show { view id s with run := (s.updateWorkflow w).workflowRuns.find id } = _
  rw [hrun]

theorem leaseUpdate_view (l : ExecutionLease) :
    view id (s.updateLease l) = { view id s with
      lease := (view id s).lease.map fun r => if r.id = l.id then l.overwrite r else r } := by
  have hlease : (s.updateLease l).executionLeases.lookup id
      = (view id s).lease.map fun r => if r.id = l.id then l.overwrite r else r :=
    IndexedTable.lookup_modify (f := l.overwrite) (fun _ => rfl) id
  show { view id s with lease := (s.updateLease l).executionLeases.lookup id } = _
  rw [hlease]

theorem approvalSave_view {a : ApprovalRequest} {T : Table ApprovalRequest.id}
    (hT : s.approvalRequests.insert a = some T) :
    view id { s with approvalRequests := T } = { view id s with
      requests := if a.workflowRunID = id then (view id s).requests ++ [a]
                  else (view id s).requests } := by
  have hrequests : requestsFor id { s with approvalRequests := T }
      = if a.workflowRunID = id then (view id s).requests ++ [a] else (view id s).requests := by
    show T.rows.filter _ = _
    rw [(Table.insert_eq_some_iff.mp hT).2, List.filter_append]
    split
    · next hid => simp [hid, view, requestsFor]
    · next hid => simp [hid, view, requestsFor]
  show { view id s with requests := requestsFor id { s with approvalRequests := T } } = _
  rw [hrequests]

theorem approvalUpdate_view (a : ApprovalRequest) :
    view id (s.updateApproval a) = { view id s with
      requests := overwrite ApprovalRequest.id a.id a.overwrite (view id s).requests } := by
  have hrequests : requestsFor id (s.updateApproval a)
      = overwrite ApprovalRequest.id a.id a.overwrite (view id s).requests :=
    filter_overwrite (f := a.overwrite) (fun _ => rfl) s.approvalRequests.rows
  show { view id s with requests := requestsFor id (s.updateApproval a) } = _
  rw [hrequests]

/-- A request that is found is the one the view shows under that id. -/
theorem approvalFind_view {i : ApprovalRequestID} {a : ApprovalRequest}
    (ha : s.approvalRequests.find i = some a) :
    a.id = i ∧ (a.workflowRunID = id → a ∈ (view id s).requests) ∧
      ∀ b ∈ (view id s).requests, b.id = i → b = a ∧ a.workflowRunID = id := by
  obtain ⟨hmem, hid⟩ := Table.find_eq_some_iff.mp ha
  refine ⟨hid, fun hrun => List.mem_filter.mpr ⟨hmem, by simpa using hrun⟩, fun b hb hbid => ?_⟩
  obtain ⟨hbmem, hbrun⟩ := List.mem_filter.mp hb
  obtain rfl : b = a := Table.eq_of_key_eq hbmem hmem (hbid.trans hid.symm)
  exact ⟨rfl, by simpa using hbrun⟩

/-- A lease that is found is the one the view shows, or has another id than that one. -/
theorem leaseFind_view {i : WorkflowRunID} {l : ExecutionLease}
    (hl : s.executionLeases.lookup i = some l) :
    (i = id → (view id s).lease = some l) ∧
      (i ≠ id → ∀ r, (view id s).lease = some r → r.id ≠ l.id) := by
  refine ⟨fun hi => hi ▸ hl, fun hi r hr hrid => ?_⟩
  -- equal ids would make it one row, with one run
  obtain ⟨hlmem, hlrun⟩ := IndexedTable.lookup_eq_some_iff.mp hl
  obtain ⟨hrmem, hrrun⟩ := IndexedTable.lookup_eq_some_iff.mp hr
  obtain rfl : r = l := Table.eq_of_key_eq (t := s.executionLeases.toTable) hrmem hlmem hrid
  exact hi (hlrun.symm.trans hrrun)

/-- Only the trail can change with an audit entry, and without a failure it gets the entry. -/
theorem auditRecord_view {actor : ActorID} {action outcome : String} {ctx : AuditContext}
    {taskID : Option TaskID} {wf : Option WorkflowRunID} {r : Except RepoError Unit}
    (hex : exec ch s (.auditRecord actor action outcome ctx taskID wf) = (r, s'))
    (hr : ∀ e, r = .error e → strict = false) :
    ∃ trail, view id s' = { view id s with trail } ∧ (strict = true → r = .ok () ∧
      trail = if wf = some id then (view id s).trail ++ [(action, outcome)]
              else (view id s).trail) := by
  rcases write_eq hex with hok | ⟨rfl, e, he⟩
  · obtain ⟨e, T, hT, rfl, ha, ho, hw⟩ := recordAudit_eq_ok hok
    -- the entry may be there although the answer was lost; a strict recorder excludes that
    refine ⟨auditTrail id { s with auditEntries := T }, rfl, fun hstrict => ⟨?_, ?_⟩⟩
    · cases r with
      | ok u => rfl
      | error e => rw [hr e rfl] at hstrict; cases hstrict
    · show ((T.rows.filter _).map _) = _
      rw [(Table.insert_eq_some_iff.mp hT).2, List.filter_append, List.map_append]
      split
      · next hid => simp [hw, ha, ho, hid, view, auditTrail]
      · next hid => simp [hw, hid, view, auditTrail]
  · refine ⟨(view id s').trail, rfl, fun hstrict => ?_⟩
    rw [hr e he] at hstrict
    cases hstrict

theorem notify_view (n : Notification) :
    view id { s with notifications := s.notifications ++ [n] } = { view id s with
      notes := if n.workflowRunID = id then (view id s).notes ++ [n.note]
               else (view id s).notes } := by
  have hnotes : notesFor id { s with notifications := s.notifications ++ [n] }
      = if n.workflowRunID = id then (view id s).notes ++ [n.note] else (view id s).notes := by
    unfold notesFor
    rw [List.filter_append, List.map_append]
    split
    · next hid => simp [hid, view, notesFor]
    · next hid => simp [hid, view, notesFor]
  show { view id s with
    notes := notesFor id { s with notifications := s.notifications ++ [n] } } = _
  rw [hnotes]

theorem emit_view (m : LifecycleMetric) :
    view id { s with lifecycleMetrics := s.lifecycleMetrics.map (· ++ [m]) } = { view id s with
      endings := if m.isTerminalOf id then (view id s).endings.map (· + 1)
                 else (view id s).endings } := by
  have hendings : endingsOf id { s with lifecycleMetrics := s.lifecycleMetrics.map (· ++ [m]) }
      = if m.isTerminalOf id then (view id s).endings.map (· + 1) else (view id s).endings := by
    -- without instruments nothing is ever counted
    cases hm : s.lifecycleMetrics with
    | none => simp [endingsOf, view, hm]
    | some ms =>
      by_cases ht : m.isTerminalOf id
      · simp [endingsOf, view, hm, List.countP_append, ht]
      · simp [endingsOf, view, hm, List.countP_append, ht]
  show { view id s with endings :=
    (endingsOf id { s with lifecycleMetrics := s.lifecycleMetrics.map (· ++ [m]) }) } = _
  rw [hendings]

/-- **Every operation that does not fail is a step of the view.** -/
theorem view_step {o : Op} {r : Res o} (hex : exec ch s o = (r, s'))
    (hok : accepts strict o r = true) : ViewStep strict id (view id s) o r (view id s') := by
  -- first the ports that the view does not show, then writes, reads and emissions
  cases o with
  | newID e => obtain ⟨-, rfl⟩ := Prod.mk.inj hex; exact rfl
  | now => obtain ⟨-, rfl⟩ := Prod.mk.inj hex; exact rfl
  | getRelevantContext t q => obtain ⟨-, rfl⟩ := Prod.mk.inj hex; exact rfl
  | failureStats => obtain ⟨-, rfl⟩ := Prod.mk.inj hex; exact rfl
  | breakerObserve tool role success at' => obtain ⟨-, rfl⟩ := Prod.mk.inj hex; exact rfl
  | taskSave t =>
    obtain ⟨T, -, rfl, rfl⟩ := inserted_expected hex fun e he => by subst he; exact hok
    exact rfl
  | routingSave d =>
    obtain ⟨T, -, rfl, rfl⟩ := inserted_expected hex fun e he => by subst he; exact hok
    exact rfl
  | policySave d =>
    obtain ⟨T, hT, rfl, rfl⟩ := inserted_expected hex fun e he => by subst he; exact hok
    show { view id s with decisions := T.rows } = _
    rw [(Table.insert_eq_some_iff.mp hT).2]
    rfl
  | workflowSave w =>
    obtain ⟨T, hT, rfl, rfl⟩ := inserted_expected hex fun e he => by subst he; exact hok
    exact workflowSave_view id hT
  | approvalSave a =>
    obtain ⟨T, hT, rfl, rfl⟩ := inserted_expected hex fun e he => by subst he; exact hok
    exact approvalSave_view id hT
  | leaseSave l =>
    rcases write_expected hex fun e he => by subst he; exact hok with
      ⟨hsaved, rfl⟩ | ⟨rfl, e, he, rfl, hexp⟩
    · obtain ⟨T, hT, rfl⟩ := inserted_eq_ok_iff.mp hsaved
      exact leaseSave_view id hT
    · -- the only expected refusal is the index on the run
      refine ⟨rfl, fun hid hnone => ?_⟩
      subst hid
      unfold inserted at he
      split at he
      · cases he
      · obtain rfl := Except.error.inj he
        have hfree : s'.executionLeases.lookup l.workflowRunID = none := hnone
        simp [RepoError.isExpected, leaseConflict, hfree] at hexp
  | workflowUpdate w =>
    obtain ⟨rfl, rfl⟩ := update_expected hex fun e he => by subst he; exact hok
    exact workflowUpdate_view id w
  | leaseUpdate l =>
    obtain ⟨rfl, rfl⟩ := update_expected hex fun e he => by subst he; exact hok
    exact leaseUpdate_view id l
  | approvalUpdate a =>
    obtain ⟨rfl, rfl⟩ := update_expected hex fun e he => by subst he; exact hok
    exact approvalUpdate_view id a
  | taskFindByID i =>
    obtain ⟨rfl, -⟩ := query_eq hex
    exact rfl
  | routingFindByTaskID t =>
    obtain ⟨rfl, -⟩ := query_eq hex
    exact rfl
  | policyFindByTaskID t =>
    obtain ⟨rfl, ⟨d, hd, rfl⟩ | ⟨-, e, rfl⟩⟩ :=
      query_expected hex fun e he => by subst he; exact hok
    · obtain ⟨row, hrow, rfl⟩ := Option.map_eq_some_iff.mp hd
      obtain ⟨hmem, htask⟩ := pick_eq_some hrow
      exact ⟨rfl, row, hmem, by simpa using htask, rfl⟩
    · exact rfl
  | workflowFindByID i =>
    obtain ⟨rfl, ⟨w, hw, rfl⟩ | ⟨hw, e, rfl⟩⟩ :=
      query_expected hex fun e he => by subst he; exact hok
    · exact ⟨rfl, (Table.find_eq_some_iff.mp hw).2, fun hi => hi ▸ hw⟩
    · exact ⟨rfl, fun hi => hi ▸ hw⟩
  | workflowFindByTaskID t =>
    obtain ⟨rfl, ⟨w, hw, rfl⟩ | ⟨hw, e, rfl⟩⟩ :=
      query_expected hex fun e he => by subst he; exact hok
    · obtain ⟨hmem, htask⟩ := pick_eq_some hw
      refine ⟨rfl, by simpa using htask, fun hi => ?_⟩
      exact Table.find_eq_some_iff.mpr ⟨hmem, hi⟩
    · exact rfl
  | leaseFindByWorkflowRunID i =>
    obtain ⟨rfl, ⟨l, hl, rfl⟩ | ⟨hl, e, rfl⟩⟩ :=
      query_expected hex fun e he => by subst he; exact hok
    · exact ⟨rfl, leaseFind_view id hl⟩
    · exact ⟨rfl, fun hi => hi ▸ hl⟩
  | approvalFindByID i =>
    obtain ⟨rfl, ⟨a, ha, rfl⟩ | ⟨-, e, rfl⟩⟩ :=
      query_expected hex fun e he => by subst he; exact hok
    · exact ⟨rfl, approvalFind_view id ha⟩
    · exact rfl
  | auditRecord actor action outcome ctx taskID wf =>
    refine auditRecord_view id hex fun e he => ?_
    subst he
    simpa [accepts] using hok
  | notify n => obtain ⟨-, rfl⟩ := Prod.mk.inj hex; exact notify_view id n
  | emit m =>
    obtain ⟨-, rfl⟩ := Prod.mk.inj hex
    have hview := emit_view (s := s) id m
    -- of the three metrics only the terminal one is counted
    cases m with
    | terminal i status =>
      show _ = { view id s with
        endings := if i = id then (view id s).endings.map (· + 1) else (view id s).endings }
      rw [hview]
      simp [LifecycleMetric.isTerminalOf]
    | failure stage category retryable => exact hview
    | approvalWait resolution => exact hview

end Refinement

end Governance

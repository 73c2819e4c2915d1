import GovernanceCore.Store.Ports

/-!
# What one operation can do to the store

`Effect` lists it, one constructor for each kind of write, and `exec_effect` says that the
interpreter does nothing else, whatever fails. Invariants of the store are case analyses on
`Effect`; nothing above this module unfolds `exec` to find out what has changed.

The lemmas `…_ok` are the other direction, for the writes that later steps rely on: without an
error the effect has taken place.
-/

namespace Governance

open Framework

/-- What an operation can leave behind. -/
inductive Effect (s : Store) : Op → Store → Prop where
  /-- A read, or a write that had no effect. -/
  | none (o : Op) : Effect s o s
  | taskSave {t : Task} {T : Table Task.id} (hT : s.tasks.insert t = some T) :
      Effect s (.taskSave t) { s with tasks := T }
  | routingSave {d : RoutingDecision} {T : Table RoutingDecision.id}
      (hT : s.routingDecisions.insert d = some T) :
      Effect s (.routingSave d) { s with routingDecisions := T }
  | policySave {d : PolicyDecision} {T : Table PolicyDecisionRow.id}
      (hT : s.policyDecisions.insert d.toRow = some T) :
      Effect s (.policySave d) { s with policyDecisions := T }
  | workflowSave {w : WorkflowRun} {T : Table WorkflowRun.id}
      (hT : s.workflowRuns.insert w = some T) :
      Effect s (.workflowSave w) { s with workflowRuns := T }
  | workflowUpdate (w : WorkflowRun) :
      Effect s (.workflowUpdate w) (s.updateWorkflow w)
  | leaseSave {l : ExecutionLease} {T : IndexedTable ExecutionLease.id ExecutionLease.workflowRunID}
      (hT : s.executionLeases.insert l.toRow = some T) :
      Effect s (.leaseSave l) { s with executionLeases := T }
  | leaseUpdate (l : ExecutionLease) :
      Effect s (.leaseUpdate l) (s.updateLease l)
  | approvalSave {a : ApprovalRequest} {T : Table ApprovalRequest.id}
      (hT : s.approvalRequests.insert a = some T) :
      Effect s (.approvalSave a) { s with approvalRequests := T }
  | approvalUpdate (a : ApprovalRequest) :
      Effect s (.approvalUpdate a) (s.updateApproval a)
  | auditRecord {actor : ActorID} {action outcome : String} {ctx : AuditContext}
      {taskID : Option TaskID} {wfID : Option WorkflowRunID} {e : AuditEntry}
      {T : Table AuditEntry.id} (hT : s.auditEntries.insert e = some T)
      (haction : e.action = action) (houtcome : e.outcome = outcome)
      (hwf : e.workflowRunID = wfID) :
      Effect s (.auditRecord actor action outcome ctx taskID wfID) { s with auditEntries := T }
  | notify (n : Notification) :
      Effect s (.notify n) { s with notifications := s.notifications ++ [n] }
  | emit (m : LifecycleMetric) :
      Effect s (.emit m) { s with lifecycleMetrics := s.lifecycleMetrics.map (· ++ [m]) }
  | breakerObserve (tool role : String) (success : Bool) (at' : Timestamp) (b : Breakers) :
      Effect s (.breakerObserve tool role success at') { s with breakers := b }

section

variable {ch : Choice} {s s' : Store}

/-- The entry that `recordAudit` appends. -/
theorem recordAudit_eq_ok {actor : ActorID} {action outcome : String} {ctx : AuditContext}
    {taskID : Option TaskID} {wfID : Option WorkflowRunID}
    (h : recordAudit ch s actor action outcome ctx taskID wfID = .ok s') :
    ∃ (e : AuditEntry) (T : Table AuditEntry.id), s.auditEntries.insert e = some T ∧
      s' = { s with auditEntries := T } ∧ e.action = action ∧ e.outcome = outcome ∧
      e.workflowRunID = wfID := by
  unfold recordAudit at h
  split at h
  · cases h
  · next entry hentry =>
    obtain ⟨T, hT, rfl⟩ := inserted_eq_ok_iff.mp h
    obtain ⟨-, -, rfl⟩ := newAuditEntry_eq_ok_iff.mp hentry
    exact ⟨_, T, hT, rfl, rfl, rfl, rfl⟩

/-- A write whose effect, when it takes place, is one that `Effect` lists. -/
theorem write_effect {doing : String} {o : Op} {effect : Except RepoError Store}
    {r : Except RepoError Unit} (h : write ch s doing effect = (r, s'))
    (heffect : ∀ s₁, effect = .ok s₁ → Effect s o s₁) : Effect s o s' := by
  rcases write_eq h with hok | ⟨rfl, -⟩
  · exact heffect s' hok
  · exact .none o

/-- A read leaves the store. -/
theorem query_effect {α : Type} {what : String} {o : Op} {found : Option α}
    {r : Except RepoError α} (h : query ch s what found = (r, s')) : Effect s o s' := by
  obtain ⟨rfl, -⟩ := query_eq h
  exact .none o

/-- **An operation has an effect of the list**, whatever the environment chooses. -/
theorem exec_effect {o : Op} {r : Res o} (h : exec ch s o = (r, s')) : Effect s o s' := by
  -- reads first, then the insertions, the updates and the ports without an answer
  cases o with
  | newID e => obtain ⟨-, rfl⟩ := Prod.mk.inj h; exact .none _
  | now => obtain ⟨-, rfl⟩ := Prod.mk.inj h; exact .none _
  | getRelevantContext id q => obtain ⟨-, rfl⟩ := Prod.mk.inj h; exact .none _
  | failureStats => obtain ⟨-, rfl⟩ := Prod.mk.inj h; exact .none _
  | taskFindByID id => exact query_effect h
  | routingFindByTaskID id => exact query_effect h
  | policyFindByTaskID id => exact query_effect h
  | workflowFindByID id => exact query_effect h
  | workflowFindByTaskID id => exact query_effect h
  | leaseFindByWorkflowRunID id => exact query_effect h
  | approvalFindByID id => exact query_effect h
  | taskSave t =>
    refine write_effect h fun s₁ hs₁ => ?_
    obtain ⟨T, hT, rfl⟩ := inserted_eq_ok_iff.mp hs₁
    exact .taskSave hT
  | routingSave d =>
    refine write_effect h fun s₁ hs₁ => ?_
    obtain ⟨T, hT, rfl⟩ := inserted_eq_ok_iff.mp hs₁
    exact .routingSave hT
  | policySave d =>
    refine write_effect h fun s₁ hs₁ => ?_
    obtain ⟨T, hT, rfl⟩ := inserted_eq_ok_iff.mp hs₁
    exact .policySave hT
  | workflowSave w =>
    refine write_effect h fun s₁ hs₁ => ?_
    obtain ⟨T, hT, rfl⟩ := inserted_eq_ok_iff.mp hs₁
    exact .workflowSave hT
  | leaseSave l =>
    refine write_effect h fun s₁ hs₁ => ?_
    obtain ⟨T, hT, rfl⟩ := inserted_eq_ok_iff.mp hs₁
    exact .leaseSave hT
  | approvalSave a =>
    refine write_effect h fun s₁ hs₁ => ?_
    obtain ⟨T, hT, rfl⟩ := inserted_eq_ok_iff.mp hs₁
    exact .approvalSave hT
  | workflowUpdate w =>
    refine write_effect h fun s₁ hs₁ => ?_
    obtain rfl := Except.ok.inj hs₁
    exact .workflowUpdate w
  | leaseUpdate l =>
    refine write_effect h fun s₁ hs₁ => ?_
    obtain rfl := Except.ok.inj hs₁
    exact .leaseUpdate l
  | approvalUpdate a =>
    refine write_effect h fun s₁ hs₁ => ?_
    obtain rfl := Except.ok.inj hs₁
    exact .approvalUpdate a
  | auditRecord actor action outcome ctx taskID wfID =>
    refine write_effect h fun s₁ hs₁ => ?_
    obtain ⟨e, T, hT, rfl, ha, ho, hw⟩ := recordAudit_eq_ok hs₁
    exact .auditRecord hT ha ho hw
  | notify n => obtain ⟨-, rfl⟩ := Prod.mk.inj h; exact .notify n
  | emit m => obtain ⟨-, rfl⟩ := Prod.mk.inj h; exact .emit m
  | breakerObserve tool role success at' =>
    obtain ⟨-, rfl⟩ := Prod.mk.inj h
    exact .breakerObserve tool role success at' _

/-! ### Writes that have taken place -/

/-- A write that answers without an error has had its effect. -/
theorem write_ok {doing : String} {effect : Except RepoError Store}
    (h : write ch s doing effect = (.ok (), s')) : effect = .ok s' := by
  rcases write_eq h with hok | ⟨-, e, he⟩
  · exact hok
  · cases he

theorem routingSave_ok {d : RoutingDecision}
    (h : exec ch s (.routingSave d) = (.ok (), s')) : d ∈ s'.routingDecisions := by
  obtain ⟨T, hT, rfl⟩ := inserted_eq_ok_iff.mp (write_ok h)
  exact (Table.mem_insert hT).mpr (Or.inr rfl)

theorem policySave_ok {d : PolicyDecision}
    (h : exec ch s (.policySave d) = (.ok (), s')) : d.toRow ∈ s'.policyDecisions := by
  obtain ⟨T, hT, rfl⟩ := inserted_eq_ok_iff.mp (write_ok h)
  exact (Table.mem_insert hT).mpr (Or.inr rfl)

theorem workflowSave_ok {w : WorkflowRun}
    (h : exec ch s (.workflowSave w) = (.ok (), s')) : w ∈ s'.workflowRuns := by
  obtain ⟨T, hT, rfl⟩ := inserted_eq_ok_iff.mp (write_ok h)
  exact (Table.mem_insert hT).mpr (Or.inr rfl)

theorem leaseSave_ok {l : ExecutionLease}
    (h : exec ch s (.leaseSave l) = (.ok (), s')) : l.toRow ∈ s'.executionLeases := by
  obtain ⟨T, hT, rfl⟩ := inserted_eq_ok_iff.mp (write_ok h)
  exact (IndexedTable.mem_insert hT).mpr (Or.inr rfl)

theorem leaseUpdate_ok {l : ExecutionLease}
    (h : exec ch s (.leaseUpdate l) = (.ok (), s')) : s' = s.updateLease l :=
  (Except.ok.inj (write_ok h)).symm

theorem approvalUpdate_ok {a : ApprovalRequest}
    (h : exec ch s (.approvalUpdate a) = (.ok (), s')) : s' = s.updateApproval a :=
  (Except.ok.inj (write_ok h)).symm

end

end Governance

import GovernanceCore.Domain.Approval
import GovernanceCore.Domain.Audit
import GovernanceCore.Domain.Task
import GovernanceCore.Domain.Workflow
import GovernanceCore.Framework.Cursor

/-!
# Readers of many rows

The methods of the PostgreSQL repositories that return a list. Each one runs a query, goes through
the rows in a loop, and decodes them one by one. A row is what the driver hands over: its columns,
unless `Scan` fails, with a JSON column standing for what `json.Unmarshal` makes of it.

When the connection breaks in the middle, `rows.Next` returns false as it does at the end, and the
loop ends in the same way. Four of the readers ask `rows.Err` after it; `List` of the workflow
runs does not (`listRuns`). `reportsTruncation_iff` says for each reader and each stream whether a
truncated result is told from a complete one.
-/

namespace Governance

open Framework

/-! ### Rows -/

/-- What `json.Unmarshal` makes of a column. -/
abbrev Json (α : Type) := Except Err α

/-- Why `Scan` failed. -/
inductive ScanError where
  | noRows
  | failed (err : Err)

/-- `if err == pgx.ErrNoRows` of the scan helpers. -/
def ScanError.err (notFound doing : String) : ScanError → Err
  | .noRows => .new notFound
  | .failed err => err.context doing

/-- The columns of `tasks`. -/
structure TaskColumns where
  id : TaskID
  parentID : Option TaskID
  taskType : TaskType
  title : String
  scope : TaskScope
  priority : Priority
  riskLevel : RiskLevel
  status : TaskStatus
  metaJSON : Json TaskMetadata
  createdAt : Timestamp
  updatedAt : Timestamp

abbrev TaskRow := Except ScanError TaskColumns

/-- `scanTask`. -/
def scanTask (row : TaskRow) : Except Err Task :=
  match row with
  | .error e => .error (e.err "task not found" "scanning task")
  | .ok c =>
    match c.metaJSON with
    | .error err => .error (err.context "unmarshaling task metadata")
    | .ok metadata => .ok
      { id := c.id, parentTaskID := c.parentID, taskType := c.taskType, title := c.title,
        scope := c.scope, priority := c.priority, riskLevel := c.riskLevel, status := c.status,
        metadata, createdAt := c.createdAt, updatedAt := c.updatedAt }

/-- The columns of `approval_requests`; a resolution that is not there yet is no JSON at all. -/
structure ApprovalColumns where
  id : ApprovalRequestID
  taskID : TaskID
  workflowRunID : WorkflowRunID
  reason : String
  approverJSON : Json ApproverSpec
  status : ApprovalStatus
  resJSON : Option (Json ApprovalResolution)
  expiresAt : Option Timestamp
  createdAt : Timestamp

abbrev ApprovalRow := Except ScanError ApprovalColumns

/-- The resolution of `scanApprovalRequest`. -/
def scanResolution : Option (Json ApprovalResolution) → Except Err (Option ApprovalResolution)
  | none => .ok none
  | some (.error err) => .error (err.context "unmarshaling resolution")
  | some (.ok resolution) => .ok (some resolution)

/-- `scanApprovalRequest`. -/
def scanApprovalRequest (row : ApprovalRow) : Except Err ApprovalRequest :=
  match row with
  | .error e => .error (e.err "approval request not found" "scanning approval request")
  | .ok c =>
    match c.approverJSON with
    | .error err => .error (err.context "unmarshaling required approver")
    | .ok approver =>
      match scanResolution c.resJSON with
      | .error err => .error err
      | .ok resolution => .ok
        { id := c.id, taskID := c.taskID, workflowRunID := c.workflowRunID, reason := c.reason,
          requiredApprover := approver, status := c.status, resolution, expiresAt := c.expiresAt,
          createdAt := c.createdAt }

/-- The columns of the query for audit entries. -/
structure AuditColumns where
  id : AuditEntryID
  taskID : Option TaskID
  workflowRunID : Option WorkflowRunID
  actor : ActorID
  action : String
  outcome : String
  contextJSON : Json AuditContext
  createdAt : Timestamp
  totalCount : Int

abbrev AuditRow := Except Err AuditColumns

/-- The body of the loop of `Query`: the entry, and the count in its row. -/
def scanAuditEntry (row : AuditRow) : Except Err (AuditEntry × Int) :=
  match row with
  | .error err => .error (err.context "scanning audit entry")
  | .ok c =>
    match c.contextJSON with
    | .error err => .error (err.context "unmarshaling audit context")
    | .ok context => .ok
      ({ id := c.id, taskID := c.taskID, workflowRunID := c.workflowRunID, actor := c.actor,
         action := c.action, outcome := c.outcome, context, createdAt := c.createdAt },
        c.totalCount)

/-- The time in a `transitionJSON`: an instant, the zero time, or a text that is no time. -/
inductive StoredTime where
  | instant (t : Timestamp)
  | zero
  | malformed (text : String)

/-- `transitionJSON`. -/
structure TransitionJSON where
  source : WorkflowStatus
  target : WorkflowStatus
  reason : String
  actor : ActorID
  timestamp : StoredTime

/-- How decoding a row can end early: with an error that is returned, or in a panic. -/
inductive Abort where
  | failed (err : Err)
  | panicked (msg : String)

def errZeroTimestamp : Err := .new "timestamp must not be zero"

/-- The body of the loop of `unmarshalTransitions`, with `mustParseTime`. -/
def unmarshalTransition (item : TransitionJSON) : Except Abort WorkflowTransition :=
  match item.timestamp with
  | .malformed text => .error (.panicked ("persistence: invalid timestamp in JSONB: " ++ text))
  | .zero => .error (.failed (errZeroTimestamp.context "parsing transition timestamp"))
  | .instant t => .ok ⟨item.source, item.target, item.reason, item.actor, t⟩

/-- `unmarshalTransitions`. -/
def unmarshalTransitions (data : Json (List TransitionJSON)) :
    Except Abort (List WorkflowTransition) :=
  match data with
  | .error err => .error (.failed (err.context "unmarshaling transitions"))
  | .ok items => scanLoop unmarshalTransition appendDecoded [] items

/-- The columns of the query for workflow runs. -/
structure RunColumns where
  id : WorkflowRunID
  taskID : TaskID
  status : WorkflowStatus
  routingID : Option RoutingDecisionID
  policyID : Option PolicyDecisionID
  currentStepIndex : Int
  transitionsJSON : Json (List TransitionJSON)
  createdAt : Timestamp
  updatedAt : Timestamp
  totalCount : Int

abbrev RunRow := Except Err RunColumns

/-- The body of the loop of `List`: the run, and the count in its row. -/
def scanListedRun (row : RunRow) : Except Abort (WorkflowRun × Int) :=
  match row with
  | .error err => .error (.failed (err.context "scanning workflow run"))
  | .ok c =>
    match unmarshalTransitions c.transitionsJSON with
    | .error abort => .error abort
    | .ok transitions => .ok
      ({ id := c.id, taskID := c.taskID, status := c.status, routingDecisionID := c.routingID,
         policyDecisionID := c.policyID, currentStepIndex := c.currentStepIndex, transitions,
         createdAt := c.createdAt, updatedAt := c.updatedAt }, c.totalCount)

/-! ### Readers -/

/-- A reader that returns what it has read together with `rows.Err()`. -/
def readAll {R A : Type} (doing : String) (scan : R → Except Err A)
    (answer : Except Err (Rows R Err)) : List A × Option Err :=
  match answer with
  | .error err => ([], some (err.context doing))
  | .ok rows =>
    match scanLoop scan appendDecoded [] rows.rows with
    | .error err => ([], some err)
    | .ok items => (items, rows.err)

/-- `PgTaskRepository.FindByParentID`. -/
def findByParentID : Except Err (Rows TaskRow Err) → List Task × Option Err :=
  readAll "querying tasks by parent" scanTask

/-- `PgApprovalRequestRepository.FindByTaskID`. -/
def findApprovalsByTaskID : Except Err (Rows ApprovalRow Err) → List ApprovalRequest × Option Err :=
  readAll "querying approval requests by task" scanApprovalRequest

/-- `PgApprovalRequestRepository.FindPending`. -/
def findPending : Except Err (Rows ApprovalRow Err) → List ApprovalRequest × Option Err :=
  readAll "querying pending approval requests" scanApprovalRequest

/-- A loop that appends what it decodes, and takes the total from a row while it has none. -/
def appendCounted {R A : Type} (st : List A × Int) (_row : R) (p : A × Int) : List A × Int :=
  (st.1 ++ [p.1], if st.2 = 0 then p.2 else st.2)

/-- `PgAuditEntryRepository.Query`, with the answer of its query. -/
def queryAudit (answer : Except Err (Rows AuditRow Err)) : List AuditEntry × Int × Option Err :=
  match answer with
  | .error err => ([], 0, some (err.context "querying audit entries"))
  | .ok rows =>
    match scanLoop scanAuditEntry appendCounted ([], 0) rows.rows with
    | .error err => ([], 0, some err)
    | .ok (entries, total) =>
      match rows.err with
      | some err => ([], 0, some (err.context "iterating audit entries"))
      | none => (entries, total, none)

/-- `PgWorkflowRunRepository.List`, with the answer of its query; a panic leaves it with its
message. `rows.Err` is not asked. -/
def listRuns (answer : Except Err (Rows RunRow Err)) :
    Except String (List WorkflowRun × Int × Option Err) :=
  match answer with
  | .error err => .ok ([], 0, some (err.context "listing workflow runs"))
  | .ok rows =>
    match scanLoop scanListedRun appendCounted ([], 0) rows.rows with
    | .error (.panicked msg) => .error msg
    | .error (.failed err) => .ok ([], 0, some err)
    | .ok (results, total) => .ok (results, total, none)

/-! ### The loops -/

/-- What the counting loop has after rows that were decoded: their values, and the first count that
is not zero. -/
def countedTotal : Int → List Int → Int
  | total, [] => total
  | total, n :: rest => countedTotal (if total = 0 then n else total) rest

theorem noteAll_appendCounted {R A : Type} {rows : List R} {ps : List (A × Int)} (acc : List A)
    (total : Int) (hlen : rows.length = ps.length) :
    noteAll appendCounted (acc, total) rows ps
      = (acc ++ ps.map Prod.fst, countedTotal total (ps.map Prod.snd)) := by
  unfold noteAll
  induction rows generalizing ps acc total with
  | nil =>
    rw [List.length_eq_zero_iff.mp hlen.symm, List.map_nil, List.append_nil]
    rfl
  | cons row rest ih =>
    cases ps with
    | nil => cases hlen
    | cons p ps =>
      rw [List.zip_cons_cons, List.foldl_cons, appendCounted, ih _ _ (Nat.succ.inj hlen),
        List.map_cons, List.map_cons, List.append_assoc]
      rfl

theorem scanLoop_counted_eq_ok {R ε A : Type} {scan : R → Except ε (A × Int)} {rows : List R}
    {ps : List (A × Int)} (h : List.Forall₂ (fun row p => scan row = .ok p) rows ps) :
    scanLoop scan appendCounted ([], 0) rows
      = .ok (ps.map Prod.fst, countedTotal 0 (ps.map Prod.snd)) :=
  (scanLoop_eq_ok_iff scan appendCounted).mpr ⟨ps, h, (noteAll_appendCounted [] 0 h.length_eq).symm⟩

/-! ### Which reader reports a truncation -/

/-- The readers of many rows. -/
inductive RowReader where
  | findByParentID | findByTaskID | findPending | query | list
  deriving DecidableEq

namespace RowReader

/-- The rows that a reader gets. -/
abbrev Row : RowReader → Type
  | findByParentID => TaskRow
  | findByTaskID => ApprovalRow
  | findPending => ApprovalRow
  | query => AuditRow
  | list => RunRow

/-- What it makes of a row. -/
abbrev Item : RowReader → Type
  | findByParentID => Task
  | findByTaskID => ApprovalRequest
  | findPending => ApprovalRequest
  | query => AuditEntry × Int
  | list => WorkflowRun × Int

/-- What it returns for a row. -/
abbrev Value : RowReader → Type
  | findByParentID => Task
  | findByTaskID => ApprovalRequest
  | findPending => ApprovalRequest
  | query => AuditEntry
  | list => WorkflowRun

/-- The value of a decoded row, without the count. -/
def value : (r : RowReader) → r.Item → r.Value
  | findByParentID, a => a
  | findByTaskID, a => a
  | findPending, a => a
  | query, p => p.1
  | list, p => p.1

/-- The error of a row as the way in which decoding it ends. -/
def orFailed {A : Type} : Except Err A → Except Abort A
  | .ok a => .ok a
  | .error err => .error (.failed err)

/-- How a row is decoded. -/
def scan : (r : RowReader) → r.Row → Except Abort r.Item
  | findByParentID, row => orFailed (scanTask row)
  | findByTaskID, row => orFailed (scanApprovalRequest row)
  | findPending, row => orFailed (scanApprovalRequest row)
  | query, row => orFailed (scanAuditEntry row)
  | list, row => scanListedRun row

/-- What a reader returns for the stream of its query: a list and an error, or a panic. -/
def read : (r : RowReader) → Rows r.Row Err → Except String (List r.Value × Option Err)
  | findByParentID, s => .ok (Governance.findByParentID (.ok s))
  | findByTaskID, s => .ok (findApprovalsByTaskID (.ok s))
  | findPending, s => .ok (Governance.findPending (.ok s))
  | query, s => .ok ((queryAudit (.ok s)).1, (queryAudit (.ok s)).2.2)
  | list, s => (listRuns (.ok s)).map fun res => (res.1, res.2.2)

/-- **What a caller relies on**: a stream that was cut off gives an error, and one that was not
gives all of its rows in order, if they can be decoded. -/
structure ReportsTruncation (r : RowReader) (s : Rows r.Row Err) : Prop where
  cut : s.err ≠ none → ∃ values err, r.read s = .ok (values, some err)
  whole : s.err = none → ∀ items, List.Forall₂ (fun row a => r.scan row = .ok a) s.rows items →
    r.read s = .ok (items.map r.value, none)

/-- A row cannot be decoded and that is returned as an error, before any panic. -/
def StopsWithError (r : RowReader) (rows : List r.Row) : Prop :=
  ∃ before row after err, rows = before ++ row :: after ∧
    (∀ x ∈ before, ∃ a, r.scan x = .ok a) ∧ r.scan row = .error (.failed err)

end RowReader

section ReadAll

variable {R A : Type} {doing : String} {scan : R → Except Err A} {s : Rows R Err}

theorem orFailed_eq_ok_iff {x : Except Err A} {a : A} :
    RowReader.orFailed x = .ok a ↔ x = .ok a := by
  cases x with
  | error err => exact iff_of_false (fun h => by cases h) fun h => by cases h
  | ok b => exact ⟨fun h => congrArg _ (Except.ok.inj h), fun h => congrArg _ (Except.ok.inj h)⟩

/-- Either the loop fails, or what is asked after it says why the rows ended. -/
theorem readAll_cut (hcut : s.err ≠ none) :
    ∃ values err, readAll doing scan (.ok s) = (values, some err) := by
  obtain ⟨err, herr⟩ := Option.ne_none_iff_exists'.mp hcut
  rw [readAll]
  cases scanLoop scan appendDecoded [] s.rows with
  | error err' => exact ⟨[], err', rfl⟩
  | ok items =>
    refine ⟨items, err, ?_⟩
    rw [← herr]

theorem readAll_whole (hend : s.err = none) {as : List A}
    (h : List.Forall₂ (fun row a => RowReader.orFailed (scan row) = .ok a) s.rows as) :
    readAll doing scan (.ok s) = (as, none) := by
  have hloop := scanLoop_append_eq_ok (h.imp fun row a => orFailed_eq_ok_iff.mp)
  rw [readAll, hloop]
  exact congrArg _ hend

end ReadAll

theorem queryAudit_cut {s : Rows AuditRow Err} (hcut : s.err ≠ none) :
    ∃ err, queryAudit (.ok s) = ([], 0, some err) := by
  obtain ⟨err, herr⟩ := Option.ne_none_iff_exists'.mp hcut
  rw [queryAudit]
  cases scanLoop scanAuditEntry appendCounted ([], 0) s.rows with
  | error err' => exact ⟨err', rfl⟩
  | ok st =>
    refine ⟨err.context "iterating audit entries", ?_⟩
    dsimp only
    rw [herr]

theorem queryAudit_whole {s : Rows AuditRow Err} (hend : s.err = none)
    {ps : List (AuditEntry × Int)}
    (h : List.Forall₂ (fun row p => scanAuditEntry row = .ok p) s.rows ps) :
    queryAudit (.ok s) = (ps.map Prod.fst, countedTotal 0 (ps.map Prod.snd), none) := by
  rw [queryAudit, scanLoop_counted_eq_ok h]
  dsimp only
  rw [hend]

/-- The end of the stream plays no role here. -/
theorem listRuns_decodable {s : Rows RunRow Err} {ps : List (WorkflowRun × Int)}
    (h : List.Forall₂ (fun row p => scanListedRun row = .ok p) s.rows ps) :
    listRuns (.ok s) = .ok (ps.map Prod.fst, countedTotal 0 (ps.map Prod.snd), none) := by
  rw [listRuns, scanLoop_counted_eq_ok h]

/-- `List` returns an error exactly when decoding stops with one. -/
theorem listRuns_error_iff {s : Rows RunRow Err} :
    (∃ values err, RowReader.list.read s = .ok (values, some err)) ↔
      RowReader.list.StopsWithError s.rows := by
  have hstop : RowReader.list.StopsWithError s.rows ↔
      ∃ err, scanLoop scanListedRun appendCounted ([], 0) s.rows = .error (.failed err) := by
    refine ⟨fun ⟨before, row, after, err, h⟩ => ?_, fun ⟨err, h⟩ => ?_⟩
    · exact ⟨err, (scanLoop_eq_error_iff scanListedRun appendCounted).mpr ⟨before, row, after, h⟩⟩
    · obtain ⟨before, row, after, h⟩ := (scanLoop_eq_error_iff scanListedRun appendCounted).mp h
      exact ⟨before, row, after, err, h⟩
  rw [hstop]
  -- only a failed decoding gives an error: a panic returns nothing, and the end is not looked at
  change (∃ values err, (listRuns (.ok s)).map (fun res => (res.1, res.2.2))
    = .ok (values, some err)) ↔ _
  rw [listRuns]
  cases scanLoop scanListedRun appendCounted ([], 0) s.rows with
  | error abort =>
    cases abort with
    | failed err => exact iff_of_true ⟨[], err, rfl⟩ ⟨err, rfl⟩
    | panicked msg =>
      exact iff_of_false (fun ⟨_, _, h⟩ => by cases h) fun ⟨_, h⟩ => by cases h
  | ok st => exact iff_of_false (fun ⟨_, _, h⟩ => by cases h) fun ⟨_, h⟩ => by cases h

namespace RowReader

/-- A normal end with decodable rows is read as such by every reader. -/
theorem read_whole (r : RowReader) {s : Rows r.Row Err} (hend : s.err = none) {items : List r.Item}
    (h : List.Forall₂ (fun row a => r.scan row = .ok a) s.rows items) :
    r.read s = .ok (items.map r.value, none) := by
  cases r with
  | findByParentID | findByTaskID | findPending =>
    -- what these decode is what they return
    refine (congrArg Except.ok (readAll_whole hend h)).trans ?_
    exact congrArg (fun values => Except.ok (values, none)) (List.map_id items).symm
  | query =>
    have hread := queryAudit_whole hend (h.imp fun row a => orFailed_eq_ok_iff.mp)
    change Except.ok ((queryAudit (.ok s)).1, (queryAudit (.ok s)).2.2) = _
    rw [hread]
    rfl
  | list =>
    -- a normal end is no different for this one, which does not ask
    have hread := listRuns_decodable h
    change (listRuns (.ok s)).map (fun res => (res.1, res.2.2)) = _
    rw [hread]
    rfl

/-- **When a truncated result is reported.** Every reader tells a stream that was cut off from one
that was not, except `List` of the workflow runs: it returns what it has read as a success, unless
one of those rows cannot be decoded. -/
theorem reportsTruncation_iff (r : RowReader) (s : Rows r.Row Err) :
    r.ReportsTruncation s ↔ ¬ (r = .list ∧ s.err ≠ none ∧ ¬ r.StopsWithError s.rows) := by
  refine ⟨fun h => ?_, fun h => ⟨fun hcut => ?_, fun hend items => read_whole r hend⟩⟩
  · rintro ⟨rfl, hcut, hstop⟩
    exact hstop (listRuns_error_iff.mp (h.cut hcut))
  · cases r with
    | findByParentID | findByTaskID | findPending =>
      obtain ⟨values, err, hread⟩ := readAll_cut hcut
      exact ⟨values, err, congrArg _ hread⟩
    | query =>
      obtain ⟨err, hread⟩ := queryAudit_cut hcut
      refine ⟨[], err, ?_⟩
      change Except.ok ((queryAudit (.ok s)).1, (queryAudit (.ok s)).2.2) = _
      rw [hread]
    | list => exact listRuns_error_iff.mpr (not_not.mp fun hstop => h ⟨rfl, hcut, hstop⟩)

end RowReader

/-- A run that was stored, and after it the connection breaks. -/
def brokenListing : Rows RunRow Err :=
  ⟨[.ok ⟨⟨"wf-1"⟩, ⟨"t-1"⟩, .created, none, none, 0, .ok [], 1, 1, 2⟩],
    some (.new "unexpected EOF")⟩

/-- One of two runs is returned as if it were the whole page. -/
theorem brokenListing_succeeds :
    listRuns (.ok brokenListing)
        = .ok ([⟨⟨"wf-1"⟩, ⟨"t-1"⟩, .created, none, none, 0, [], 1, 1⟩], 2, none) ∧
      ¬ RowReader.list.ReportsTruncation brokenListing := by
  refine ⟨rfl, fun h => ?_⟩
  obtain ⟨values, err, hread⟩ := h.cut (by simp [brokenListing])
  cases hread

end Governance

import GovernanceCore.Framework.Interleaving
import GovernanceCore.Http.Handlers
import Mathlib.Data.List.DropRight

/-!
# The decisions facade

`/governance/v1`: what an orchestrator asks before it runs a phase or a sensitive capability. Every
well-formed question is answered with "allow", and the answer is written to `phase_decisions`
first; whether a phase is approved is read from `phase_approvals`, and a phase without a row counts
as granted.

The handlers run over the ports of `DecisionsService`, the generator of identifiers, the clock and
the two repositories, and `facade` runs them over the tables of the migrations. Columns of type
`CHAR(n)` and `VARCHAR(n)` refuse texts that are too long and texts with a NUL, and `CHAR(n)`
compares texts without their trailing blanks.

`allowed_is_recorded` says what the trail is worth: whatever the interleaving and the faults, the
table has a row of its own for every "allow" that was answered.
-/

namespace Governance

open Framework

/-! ### Ports -/

/-- `PhaseDecisionRecord`. -/
structure PhaseDecisionRecord where
  id : String
  changeID : String
  phaseType : String
  capability : String := ""
  sensitive : Bool
  decision : String
  agentRole : String := ""
  strategy : String := ""
  reason : String
  createdAt : Timestamp
  deriving DecidableEq, Repr

/-- `PhaseApprovalRecord`, as far as the service reads it. -/
structure PhaseApprovalRecord where
  changeID : String
  phaseID : String
  status : String
  deriving DecidableEq, Repr

/-- The operations that `DecisionsService` performs. -/
inductive DecisionOp where
  | newPhaseDecisionID
  | nowUTC
  | save (rec : PhaseDecisionRecord)
  | find (changeID phaseID : String)
  deriving DecidableEq, Repr

abbrev DecisionRes : DecisionOp → Type
  | .newPhaseDecisionID => String
  | .nowUTC => Timestamp
  | .save _ => Except Err Unit
  | .find _ _ => Except Err (Option PhaseApprovalRecord)

/-! ### The service -/

/-- An error of the service: `ErrInvalidInput` with a detail, or one that is not. -/
inductive DecisionError where
  | invalidInput (detail : String)
  | failed (err : Err)

def DecisionError.err : DecisionError → Err
  | .invalidInput detail => (Err.new "invalid input").detail detail
  | .failed err => err

/-- `Decision`, without the strategy and the constraints, which the service leaves empty. -/
structure Decision where
  id : String
  decision : String
  agentRole : String := ""
  reason : String
  deriving DecidableEq, Repr

/-- `PhaseDecisionInput`, without the description of the task, which the service does not read. -/
structure PhaseDecisionInput where
  changeID : String
  phaseType : String
  sensitive : Bool
  deriving DecidableEq, Repr

/-- `SensitiveDecisionInput`, without the payload, which the service does not read. -/
structure SensitiveDecisionInput where
  changeID : String
  capability : String
  deriving DecidableEq, Repr

abbrev DecisionProgram (ε α : Type) := Program DecisionOp DecisionRes ε α

/-- Perform one operation. -/
def perform {ε : Type} (o : DecisionOp) : DecisionProgram ε (DecisionRes o) := .act o .ret

/-- Go on unless a required text is missing. -/
def requireText (present : Bool) (detail : String) : DecisionProgram DecisionError Unit :=
  if present then .ret () else .fail (.invalidInput detail)

/-- Go on unless the operation has failed. -/
def elseFail {α : Type} (doing : String) : Except Err α → DecisionProgram DecisionError α
  | .ok a => .ret a
  | .error err => .fail (.failed (err.context doing))

/-- The decision that a record is about. -/
def PhaseDecisionRecord.decided (rec : PhaseDecisionRecord) : Decision :=
  ⟨rec.id, rec.decision, rec.agentRole, rec.reason⟩

/-- What `EvaluatePhase` and `EvaluateSensitive` do alike: two required texts, then the record is
made and saved. The warnings of sensitive questions are left out. -/
def evaluate (changeID subject missing doing : String)
    (record : String → Timestamp → PhaseDecisionRecord) :
    DecisionProgram DecisionError Decision := do
  requireText (changeID ≠ "") "change_id is required"
  requireText (subject ≠ "") missing
  let id ← perform .newPhaseDecisionID
  let now ← perform .nowUTC
  let saved ← perform (.save (record id now))
  elseFail doing saved
  return (record id now).decided

/-- The record of an allowed phase. -/
def PhaseDecisionInput.record (input : PhaseDecisionInput) (id : String) (now : Timestamp) :
    PhaseDecisionRecord where
  id := id
  changeID := input.changeID
  phaseType := input.phaseType
  sensitive := input.sensitive
  decision := "allow"
  agentRole := "team-lead"
  reason := "M-E0 default-allow policy"
  createdAt := now

/-- `EvaluatePhase`. -/
def evaluatePhase (input : PhaseDecisionInput) : DecisionProgram DecisionError Decision :=
  evaluate input.changeID input.phaseType "phase_type is required" "persisting phase decision"
    input.record

/-- The record of an allowed capability. -/
def SensitiveDecisionInput.record (input : SensitiveDecisionInput) (id : String)
    (now : Timestamp) : PhaseDecisionRecord where
  id := id
  changeID := input.changeID
  phaseType := "sensitive"
  capability := input.capability
  sensitive := true
  decision := "allow"
  reason := "M-E0 default-allow sensitive policy"
  createdAt := now

/-- `EvaluateSensitive`. -/
def evaluateSensitive (input : SensitiveDecisionInput) : DecisionProgram DecisionError Decision :=
  evaluate input.changeID input.capability "capability is required"
    "persisting sensitive decision" input.record

/-- `ApprovalStatusFor`. -/
def approvalStatusFor (changeID phaseID : String) : DecisionProgram DecisionError String := do
  requireText (changeID ≠ "" ∧ phaseID ≠ "") "change_id and phase_id are required"
  let found ← perform (.find changeID phaseID)
  let row ← elseFail "looking up phase approval" found
  match row with
  | none => return "granted"
  | some rec => return rec.status

/-! ### The handlers -/

/-- A request to the facade; no body is one that `encoding/json` refuses. -/
inductive DecisionRequest where
  | phase (body : Option PhaseDecisionInput)
  | sensitive (body : Option SensitiveDecisionInput)
  | approvalStatus (changeID phaseID : String)
  deriving DecidableEq, Repr

/-- `decisionPayload` and `approvalStatusPayload`. -/
inductive DecisionPayload where
  | decision (decision agentRole reason : String)
  | status (text : String)
  deriving DecidableEq, Repr

/-- `toDecisionPayload`. -/
def toDecisionPayload (d : Decision) : DecisionPayload := .decision d.decision d.agentRole d.reason

/-- Call the service; an error of the input is the caller's. -/
def answerWith {α : Type} (code : String) (service : DecisionProgram DecisionError α) :
    DecisionProgram ErrorReply α :=
  service.handle fun
    | .ok a => .ret a
    | .error (.invalidInput detail) =>
      .fail ⟨400, "INVALID_INPUT", (DecisionError.invalidInput detail).err⟩
    | .error (.failed err) => .fail ⟨500, code, (DecisionError.failed err).err⟩

def decodeDecision {α : Type} : Option α → DecisionProgram ErrorReply α
  | some a => .ret a
  | none => .fail ⟨400, "INVALID_JSON", .new "invalid request body"⟩

/-- What the handlers of the two decisions do alike. -/
def handleDecision {α : Type} (service : α → DecisionProgram DecisionError Decision)
    (body : Option α) : DecisionProgram ErrorReply DecisionPayload := do
  let req ← decodeDecision body
  let dec ← answerWith "DECISION_FAILED" (service req)
  return toDecisionPayload dec

/-- `handleDecisionPhase`. -/
def handleDecisionPhase : Option PhaseDecisionInput → DecisionProgram ErrorReply DecisionPayload :=
  handleDecision evaluatePhase

/-- `handleDecisionSensitive`. -/
def handleDecisionSensitive :
    Option SensitiveDecisionInput → DecisionProgram ErrorReply DecisionPayload :=
  handleDecision evaluateSensitive

/-- `handleApprovalStatus`. -/
def handleApprovalStatus (changeID phaseID : String) :
    DecisionProgram ErrorReply DecisionPayload := do
  let status ← answerWith "APPROVAL_LOOKUP_FAILED" (approvalStatusFor changeID phaseID)
  return .status status

/-- The routes under `/governance/v1`. -/
def DecisionRequest.handler : DecisionRequest → DecisionProgram ErrorReply DecisionPayload
  | .phase body => handleDecisionPhase body
  | .sensitive body => handleDecisionSensitive body
  | .approvalStatus changeID phaseID => handleApprovalStatus changeID phaseID

/-! ### The tables -/

/-- A text without its trailing blanks, which is what `CHAR(n)` compares. -/
def trimBlanks (s : String) : String := String.ofList (s.toList.rdropWhile (· == ' '))

def errNul : Err := .new "ERROR: invalid byte sequence for encoding \"UTF8\": 0x00 (SQLSTATE 22021)"

def errTooLong (type : String) (n : Nat) : Err :=
  .new ("ERROR: value too long for type " ++ type ++ "(" ++ toString n ++ ") (SQLSTATE 22001)")

/-- A text for a column of `n` characters: blanks beyond its width are cut off, other characters
there are refused. -/
def fitColumn (type : String) (n : Nat) (s : String) : Except Err String :=
  if '\x00' ∈ s.toList then .error errNul
  else if s.length ≤ n then .ok s
  else if (s.toList.drop n).all (· == ' ') then .ok (String.ofList (s.toList.take n))
  else .error (errTooLong type n)

/-- A value of a `VARCHAR(n)`. -/
def varcharColumn (n : Nat) (s : String) : Except Err String := fitColumn "character varying" n s

/-- A value of a `CHAR(n)`; the padding does not count. -/
def charColumn (n : Nat) (s : String) : Except Err String :=
  (fitColumn "character" n s).map trimBlanks

/-- `Save` passes an empty text as `NULL`. -/
def nullableColumn (n : Nat) (s : String) : Except Err (Option String) :=
  if s ≠ "" then (varcharColumn n s).map some else .ok none

/-- A row of `phase_decisions`. -/
structure PhaseDecisionRow where
  id : String
  changeID : String
  phaseType : String
  capability : Option String
  sensitive : Bool
  decision : String
  agentRole : Option String
  strategy : Option String
  reason : String
  createdAt : Timestamp
  deriving DecidableEq, Repr

/-- The columns of a record. -/
def PhaseDecisionRecord.row (rec : PhaseDecisionRecord) : Except Err PhaseDecisionRow := do
  let id ← charColumn 26 rec.id
  let changeID ← charColumn 26 rec.changeID
  let phaseType ← varcharColumn 50 rec.phaseType
  let capability ← nullableColumn 100 rec.capability
  let decision ← varcharColumn 30 rec.decision
  let agentRole ← nullableColumn 50 rec.agentRole
  let strategy ← nullableColumn 50 rec.strategy
  return { id, changeID, phaseType, capability, sensitive := rec.sensitive, decision, agentRole,
           strategy, reason := rec.reason, createdAt := rec.createdAt }

/-- `phase_decisions` and `phase_approvals`. -/
structure PhaseTables where
  decisions : List PhaseDecisionRow
  approvals : List PhaseApprovalRecord

/-- The checks of `INSERT INTO phase_decisions`. -/
def insertable (rows : List PhaseDecisionRow) (row : PhaseDecisionRow) : Except Err Unit :=
  if row.decision ∉ ["allow", "deny", "require_approval"] then
    .error (.new ("ERROR: new row for relation \"phase_decisions\" violates check constraint "
      ++ "\"phase_decisions_decision_check\" (SQLSTATE 23514)"))
  else if row.id ∈ rows.map PhaseDecisionRow.id then
    .error (.new ("ERROR: duplicate key value violates unique constraint "
      ++ "\"phase_decisions_pkey\" (SQLSTATE 23505)"))
  else .ok ()

/-- The row of a record, if it can be inserted. -/
def insertedRow (rows : List PhaseDecisionRow) (rec : PhaseDecisionRecord) :
    Except Err PhaseDecisionRow := do
  let row ← rec.row
  insertable rows row
  return row

/-- The primary key of `phase_approvals`, compared as `CHAR(26)` is. -/
def PhaseApprovalRecord.hasKey (rec : PhaseApprovalRecord) (changeID phaseID : String) : Bool :=
  trimBlanks rec.changeID = trimBlanks changeID ∧ trimBlanks rec.phaseID = trimBlanks phaseID

/-- What the world decides: the next identifier, the time, and whether an operation fails; a write
that fails may have been committed. -/
structure PhaseChoice where
  id : String
  now : Timestamp
  fault : Option (Err × Bool) := none

/-- The operations over the tables. -/
def PhaseTables.exec (ch : PhaseChoice) (s : PhaseTables) :
    (o : DecisionOp) → DecisionRes o × PhaseTables
  | .newPhaseDecisionID => (ch.id, s)
  | .nowUTC => (ch.now, s)
  | .save rec =>
    match insertedRow s.decisions rec with
    | .error err => (.error (err.context "inserting phase decision"), s)
    | .ok row =>
      match ch.fault with
      | none => (.ok (), { s with decisions := s.decisions ++ [row] })
      | some (err, false) => (.error (err.context "inserting phase decision"), s)
      | some (err, true) =>
        (.error (err.context "inserting phase decision"),
          { s with decisions := s.decisions ++ [row] })
  | .find changeID phaseID =>
    match ch.fault with
    | some (err, _) => (.error (err.context "scanning phase approval"), s)
    | none =>
      if '\x00' ∈ changeID.toList ∨ '\x00' ∈ phaseID.toList then
        (.error (errNul.context "scanning phase approval"), s)
      else (.ok (s.approvals.find? (·.hasKey changeID phaseID)), s)

/-- The facade over the tables. -/
def facade : System DecisionRequest PhaseChoice PhaseTables DecisionOp DecisionRes ErrorReply
    DecisionPayload where
  exec := PhaseTables.exec
  body := DecisionRequest.handler

/-! ### The shape of a request -/

/-- The record that a request is answered with, if it is one that is. -/
def DecisionRequest.record : DecisionRequest → String → Timestamp → Option PhaseDecisionRecord
  | .phase (some input), id, now =>
    if input.changeID ≠ "" ∧ input.phaseType ≠ "" then some (input.record id now) else none
  | .sensitive (some input), id, now =>
    if input.changeID ≠ "" ∧ input.capability ≠ "" then some (input.record id now) else none
  | _, _, _ => none

/-- The end of a request that has tried to save its record. -/
def afterSave (doing : String) (rec : PhaseDecisionRecord) :
    Except Err Unit → DecisionProgram ErrorReply DecisionPayload
  | .ok _ => .ret (toDecisionPayload rec.decided)
  | .error err => .fail ⟨500, "DECISION_FAILED", err.context doing⟩

/-- The three operations of a request that is allowed. -/
def allowing (doing : String) (record : String → Timestamp → PhaseDecisionRecord) :
    DecisionProgram ErrorReply DecisionPayload :=
  .act .newPhaseDecisionID fun id => .act .nowUTC fun now =>
    .act (.save (record id now)) (afterSave doing (record id now))

/-- The end of a request that has looked up an approval. -/
def afterFind : Except Err (Option PhaseApprovalRecord) →
    DecisionProgram ErrorReply DecisionPayload
  | .ok none => .ret (.status "granted")
  | .ok (some rec) => .ret (.status rec.status)
  | .error err =>
    .fail ⟨500, "APPROVAL_LOOKUP_FAILED", err.context "looking up phase approval"⟩

/-- What a request does: it is refused at once, it looks up an approval, or it is allowed. -/
inductive DecisionRequest.Shape (req : DecisionRequest) : Prop where
  | refused (reply : ErrorReply) (hrecord : ∀ id now, req.record id now = none)
      (hbody : req.handler = .fail reply)
  | lookup (changeID phaseID : String) (hreq : req = .approvalStatus changeID phaseID)
      (hbody : req.handler = .act (.find changeID phaseID) afterFind)
  | allowed (doing : String) (record : String → Timestamp → PhaseDecisionRecord)
      (hrecord : ∀ id now, req.record id now = some (record id now))
      (hbody : req.handler = allowing doing record)

theorem answerWith_evaluate {changeID subject missing doing : String}
    {record : String → Timestamp → PhaseDecisionRecord} (h : changeID ≠ "" ∧ subject ≠ "") :
    (answerWith "DECISION_FAILED" (evaluate changeID subject missing doing record) >>=
        fun dec => pure (toDecisionPayload dec))
      = allowing doing record := by
  rw [evaluate, decide_eq_true h.1, decide_eq_true h.2]
  refine congrArg (Program.act _) (funext fun id => congrArg (Program.act _) (funext fun now =>
    congrArg (Program.act _) (funext fun saved => ?_)))
  cases saved <;> rfl

theorem answerWith_evaluate_refused {changeID subject : String} (missing doing : String)
    (record : String → Timestamp → PhaseDecisionRecord) (h : ¬(changeID ≠ "" ∧ subject ≠ "")) :
    ∃ reply, (answerWith "DECISION_FAILED" (evaluate changeID subject missing doing record) >>=
      fun dec => pure (toDecisionPayload dec)) = .fail reply := by
  rw [evaluate]
  by_cases hchange : changeID ≠ ""
  · rw [decide_eq_true hchange, decide_eq_false fun hsubject => h ⟨hchange, hsubject⟩]
    exact ⟨_, rfl⟩
  · rw [decide_eq_false hchange]
    exact ⟨_, rfl⟩

theorem answerWith_approvalStatusFor {changeID phaseID : String}
    (h : changeID ≠ "" ∧ phaseID ≠ "") :
    handleApprovalStatus changeID phaseID = .act (.find changeID phaseID) afterFind := by
  rw [handleApprovalStatus, approvalStatusFor, decide_eq_true h]
  refine congrArg (Program.act _) (funext fun found => ?_)
  rcases found with err | (_ | rec) <;> rfl

theorem answerWith_approvalStatusFor_refused {changeID phaseID : String}
    (h : ¬(changeID ≠ "" ∧ phaseID ≠ "")) :
    ∃ reply, handleApprovalStatus changeID phaseID = .fail reply := by
  rw [handleApprovalStatus, approvalStatusFor, decide_eq_false h]
  exact ⟨_, rfl⟩

/-- A request for a decision, by whether its texts are there. -/
theorem shape_of_evaluate {req : DecisionRequest} {changeID subject missing doing : String}
    {record : String → Timestamp → PhaseDecisionRecord}
    (hbody : req.handler = (answerWith "DECISION_FAILED"
      (evaluate changeID subject missing doing record) >>= fun dec => pure (toDecisionPayload dec)))
    (hrecord : ∀ id now, req.record id now
      = if changeID ≠ "" ∧ subject ≠ "" then some (record id now) else none) : req.Shape := by
  by_cases h : changeID ≠ "" ∧ subject ≠ ""
  · exact .allowed doing record (fun id now => (hrecord id now).trans (if_pos h))
      (hbody.trans (answerWith_evaluate h))
  · obtain ⟨reply, hreply⟩ := answerWith_evaluate_refused missing doing record h
    exact .refused reply (fun id now => (hrecord id now).trans (if_neg h)) (hbody.trans hreply)

theorem DecisionRequest.shape (req : DecisionRequest) : req.Shape := by
  rcases req with (_ | input) | (_ | input) | ⟨changeID, phaseID⟩
  · exact .refused _ (fun _ _ => rfl) rfl
  · exact shape_of_evaluate rfl fun _ _ => rfl
  · exact .refused _ (fun _ _ => rfl) rfl
  · exact shape_of_evaluate rfl fun _ _ => rfl
  · by_cases h : changeID ≠ "" ∧ phaseID ≠ ""
    · exact .lookup changeID phaseID rfl (answerWith_approvalStatusFor h)
    · obtain ⟨reply, hreply⟩ := answerWith_approvalStatusFor_refused h
      exact .refused reply (fun _ _ => rfl) hreply

/-! ### The trail -/

/-- The content of a row: everything but its identifier and its time. -/
def PhaseDecisionRow.content (row : PhaseDecisionRow) : PhaseDecisionRow :=
  { row with id := "", createdAt := 0 }

/-- The content of the row that a request leaves, if it leaves one. -/
def DecisionRequest.content (req : DecisionRequest) : Option PhaseDecisionRow :=
  (req.record "" 0).bind fun rec => rec.row.toOption

/-- The row has the content of the request. -/
def DecisionRequest.left (req : DecisionRequest) (row : PhaseDecisionRow) : Bool :=
  req.content = some row.content

/-- The row of a record with another identifier and another time. -/
theorem row_with {rec : PhaseDecisionRecord} {row : PhaseDecisionRow} (h : rec.row = .ok row)
    {id id' : String} (hid : charColumn 26 id = .ok id') (now : Timestamp) :
    { rec with id := id, createdAt := now : PhaseDecisionRecord }.row
      = .ok { row with id := id', createdAt := now } := by
  obtain ⟨_, -, h⟩ := exists_of_bind_eq_ok h
  obtain ⟨changeID, hchange, h⟩ := exists_of_bind_eq_ok h
  obtain ⟨phaseType, htype, h⟩ := exists_of_bind_eq_ok h
  obtain ⟨capability, hcapability, h⟩ := exists_of_bind_eq_ok h
  obtain ⟨decision, hdecision, h⟩ := exists_of_bind_eq_ok h
  obtain ⟨agentRole, hrole, h⟩ := exists_of_bind_eq_ok h
  obtain ⟨strategy, hstrategy, h⟩ := exists_of_bind_eq_ok h
  obtain rfl := Except.ok.inj h
  rw [PhaseDecisionRecord.row, hid, hchange, htype, hcapability, hdecision, hrole, hstrategy]
  rfl

/-- The record of a request with another identifier and another time. -/
theorem record_with {req : DecisionRequest} {id : String} {now : Timestamp}
    {rec : PhaseDecisionRecord} (h : req.record id now = some rec) (id' : String)
    (now' : Timestamp) : req.record id' now' = some { rec with id := id', createdAt := now' } := by
  rcases req with (_ | input) | (_ | input) | ⟨changeID, phaseID⟩
  · cases h
  · rw [DecisionRequest.record] at h ⊢
    split at h
    · next htexts =>
      obtain rfl := Option.some.inj h
      exact if_pos htexts
    · cases h
  · cases h
  · rw [DecisionRequest.record] at h ⊢
    split at h
    · next htexts =>
      obtain rfl := Option.some.inj h
      exact if_pos htexts
    · cases h
  · cases h

theorem left_of_record {req : DecisionRequest} {id : String} {now : Timestamp}
    {rec : PhaseDecisionRecord} {row : PhaseDecisionRow} (hrec : req.record id now = some rec)
    (hrow : rec.row = .ok row) : req.left row = true := by
  have hempty : charColumn 26 "" = .ok "" := by decide
  rw [DecisionRequest.left, DecisionRequest.content, record_with hrec, Option.bind_some,
    row_with hrow hempty]
  exact decide_eq_true rfl

/-- An operation that a request comes to: what it saves is its own record. -/
def DecisionRequest.Performs (req : DecisionRequest) : DecisionOp → Prop
  | .save rec => ∃ id now, req.record id now = some rec
  | _ => True

/-- A record was saved, and the caller was told so. -/
def savedEvent : Event DecisionOp DecisionRes → Bool
  | ⟨.save _, .ok _⟩ => true
  | _ => false

theorem exists_of_savedEvent {e : Event DecisionOp DecisionRes} (h : savedEvent e = true) :
    ∃ rec u, e = ⟨.save rec, .ok u⟩ := by
  unfold savedEvent at h
  split at h
  · exact ⟨_, _, rfl⟩
  · cases h

/-- An answer that allows was saved. -/
def AnswersSaved (res : Except ErrorReply DecisionPayload)
    (log : Log DecisionOp DecisionRes) : Prop :=
  ∀ decision agentRole reason, res = .ok (.decision decision agentRole reason) →
    log.any savedEvent = true

theorem handler_performs (req : DecisionRequest) : req.handler.Only req.Performs := by
  cases req.shape with
  | refused reply hrecord hbody =>
    rw [hbody]
    exact trivial
  | lookup changeID phaseID hreq hbody =>
    rw [hbody]
    refine ⟨trivial, fun found => ?_⟩
    rcases found with err | (_ | rec) <;> exact trivial
  | allowed doing record hrecord hbody =>
    rw [hbody]
    refine ⟨trivial, fun id => ⟨trivial, fun now => ⟨⟨id, now, hrecord id now⟩, fun saved => ?_⟩⟩⟩
    cases saved <;> exact trivial

theorem handler_answersSaved (req : DecisionRequest) :
    req.handler.Follows ⟨fun _ _ => True, fun _ _ => True⟩ AnswersSaved [] := by
  cases req.shape with
  | refused reply hrecord hbody =>
    rw [hbody]
    exact fun _ _ _ h => nomatch h
  | lookup changeID phaseID hreq hbody =>
    rw [hbody]
    refine ⟨trivial, fun found _ => ?_⟩
    rcases found with err | (_ | rec)
    · exact fun _ _ _ h => nomatch h
    · exact fun _ _ _ h => nomatch h
    · exact fun _ _ _ h => nomatch h
  | allowed doing record hrecord hbody =>
    rw [hbody]
    refine ⟨trivial, fun id _ => ⟨trivial, fun now _ => ⟨trivial, fun saved _ => ?_⟩⟩⟩
    cases saved with
    | error err => exact fun _ _ _ h => nomatch h
    | ok _ => exact fun _ _ _ _ => rfl

theorem row_of_insertedRow {rows : List PhaseDecisionRow} {rec : PhaseDecisionRecord}
    {row : PhaseDecisionRow} (h : insertedRow rows rec = .ok row) : rec.row = .ok row := by
  obtain ⟨row', hrow, h⟩ := exists_of_bind_eq_ok h
  obtain ⟨-, -, h⟩ := exists_of_bind_eq_ok h
  rw [hrow, ← Except.ok.inj h]

theorem exec_save_eq_ok {ch : PhaseChoice} {s s' : PhaseTables} {rec : PhaseDecisionRecord}
    {u : Unit} (h : s.exec ch (.save rec) = (.ok u, s')) :
    ∃ row, rec.row = .ok row ∧ s'.decisions = s.decisions ++ [row] := by
  rw [PhaseTables.exec] at h
  split at h
  · cases h
  · next row hrow =>
    split at h
    · exact ⟨row, row_of_insertedRow hrow, by rw [← (Prod.mk.inj h).2]⟩
    · cases h
    · cases h

/-- No operation takes a row away. -/
theorem exec_grows {ch : PhaseChoice} {s s' : PhaseTables} {o : DecisionOp} {r : DecisionRes o}
    (h : s.exec ch o = (r, s')) : s.decisions <+: s'.decisions := by
  have hkept : s = s' → s.decisions <+: s'.decisions := by
    rintro rfl
    exact List.prefix_refl _
  cases o with
  | newPhaseDecisionID | nowUTC => exact hkept (Prod.mk.inj h).2
  | save rec =>
    rw [PhaseTables.exec] at h
    split at h
    · exact hkept (Prod.mk.inj h).2
    · split at h
      · rw [← (Prod.mk.inj h).2]
        exact List.prefix_append _ _
      · exact hkept (Prod.mk.inj h).2
      · rw [← (Prod.mk.inj h).2]
        exact List.prefix_append _ _
  | find changeID phaseID =>
    rw [PhaseTables.exec] at h
    split at h
    · exact hkept (Prod.mk.inj h).2
    · split at h <;> exact hkept (Prod.mk.inj h).2

/-- The calls with this request whose record was saved. -/
def savedFor (req : DecisionRequest)
    (t : Thread DecisionRequest DecisionOp DecisionRes ErrorReply DecisionPayload) : Bool :=
  t.call = req ∧ t.log.any savedEvent = true

/-- The calls with this request that were answered with a decision. -/
def allowedFor (req : DecisionRequest)
    (t : Thread DecisionRequest DecisionOp DecisionRes ErrorReply DecisionPayload) : Bool :=
  match t.prog with
  | .ret (.decision _ _ _) => t.call = req
  | _ => false

theorem count_savedFor_le {s₀ : PhaseTables}
    {p : Pool DecisionRequest PhaseTables DecisionOp DecisionRes ErrorReply DecisionPayload}
    (hp : facade.Reach unguarded (Pool.start s₀) p) (req : DecisionRequest) :
    p.threads.countP (savedFor req) + s₀.decisions.countP req.left
      ≤ p.store.decisions.countP req.left := by
  have hkeeps : facade.Keeps ⟨fun _ _ => True, fun _ _ => True⟩ fun _ => AnswersSaved :=
    ⟨fun _ => trivial, handler_answersSaved⟩
  refine System.Reach.invariant
    (J := fun p => p.threads.countP (savedFor req) + s₀.decisions.countP req.left
      ≤ p.store.decisions.countP req.left)
    hkeeps System.inContract_start (Nat.le_of_eq (Nat.zero_add _)) ?_ ?_ hp
  · intro p c hJ
    have hnew : savedFor req ⟨c, facade.body c, []⟩ = false := decide_eq_false (fun h => nomatch h.2)
    rw [Pool.spawn, List.countP_append, List.countP_singleton, hnew]
    exact hJ
  · intro p i t o k ch r s' hreach hJ hi ht _ hex _
    have honly := System.Reach.only handler_performs hreach t (List.mem_of_getElem? hi)
    rw [ht] at honly
    have hcount := Pool.countP_advance_add (savedFor req) hi k r s'
    have hgrows := (exec_grows hex).sublist.countP_le (p := req.left)
    by_cases hsaved : savedFor req ⟨t.call, k r, t.log ++ [⟨o, r⟩]⟩ = true ∧ savedFor req t = false
    · -- the one kind of step that adds a call to the count adds its row
      obtain ⟨hcall, hnew⟩ := of_decide_eq_true hsaved.1
      have hold : t.log.any savedEvent = false := by
        rw [Bool.eq_false_iff]
        exact fun h => Bool.eq_false_iff.mp hsaved.2 (decide_eq_true ⟨hcall, h⟩)
      rw [List.any_append, hold, Bool.false_or, List.any_cons, List.any_nil, Bool.or_false] at hnew
      obtain ⟨rec, u, heq⟩ := exists_of_savedEvent hnew
      cases heq
      obtain ⟨id, now, hrec⟩ := honly.1
      obtain ⟨row, hrow, hrows⟩ := exec_save_eq_ok hex
      have hleft : req.left row = true := left_of_record (hcall ▸ hrec) hrow
      rw [hsaved.1, hsaved.2, if_neg Bool.false_ne_true, if_pos rfl] at hcount
      have hrow_count : s'.decisions.countP req.left = p.store.decisions.countP req.left + 1 := by
        rw [hrows, List.countP_append, List.countP_singleton, hleft]
        rfl
      change (p.advance i t (.save rec) k (.ok u) s').threads.countP (savedFor req) + _
        ≤ s'.decisions.countP req.left
      omega
    · have hle : (p.advance i t o k r s').threads.countP (savedFor req)
          ≤ p.threads.countP (savedFor req) := by
        cases hold : savedFor req t with
        | true =>
          have hbit : (if savedFor req ⟨t.call, k r, t.log ++ [⟨o, r⟩]⟩ = true then 1 else 0) ≤ 1 := by
            split <;> omega
          rw [hold, if_pos rfl] at hcount
          omega
        | false =>
          rw [hold, Bool.eq_false_iff.mpr fun hnew => hsaved ⟨hnew, hold⟩] at hcount
          exact Nat.le_of_eq hcount
      exact (Nat.add_le_add_right hle _).trans (hJ.trans hgrows)

theorem count_allowedFor_le_savedFor {s₀ : PhaseTables}
    {p : Pool DecisionRequest PhaseTables DecisionOp DecisionRes ErrorReply DecisionPayload}
    (hp : facade.Reach unguarded (Pool.start s₀) p) (req : DecisionRequest) :
    p.threads.countP (allowedFor req) ≤ p.threads.countP (savedFor req) := by
  have hkeeps : facade.Keeps ⟨fun _ _ => True, fun _ _ => True⟩ fun _ => AnswersSaved :=
    ⟨fun _ => trivial, handler_answersSaved⟩
  refine List.countP_mono_left fun t ht h => ?_
  have hfollows := System.Reach.inContract hkeeps System.inContract_start hp t ht
  unfold allowedFor at h
  split at h
  · next decision agentRole reason hprog =>
    rw [hprog] at hfollows
    exact decide_eq_true ⟨of_decide_eq_true h, hfollows _ _ _ rfl⟩
  · cases h

/-- **Every "allow" is on record.** However the requests interleave and whatever fails, for each
request the table has as many rows with its content as there have been answers that allow it, on top
of those that it began with. -/
theorem allowed_is_recorded (s₀ : PhaseTables)
    (p : Pool DecisionRequest PhaseTables DecisionOp DecisionRes ErrorReply DecisionPayload)
    (hp : facade.Reach unguarded (Pool.start s₀) p) (req : DecisionRequest) :
    p.threads.countP (allowedFor req) + s₀.decisions.countP req.left
      ≤ p.store.decisions.countP req.left :=
  (Nat.add_le_add_right (count_allowedFor_le_savedFor hp req) _).trans (count_savedFor_le hp req)

def applyPhase : DecisionRequest := .phase (some ⟨"01J0000000000000000000CHNG", "apply", false⟩)

/-- The same question twice: the first time the row is written but the answer of the database is
lost, and both times the identifier is a new one. -/
def askedTwice : List (System.Action DecisionRequest PhaseChoice) :=
  [.spawn applyPhase, .spawn applyPhase,
    .advance 0 ⟨"01J00000000000000000000001", 1, none⟩,
    .advance 1 ⟨"01J00000000000000000000002", 1, none⟩,
    .advance 1 ⟨"", 2, none⟩, .advance 0 ⟨"", 2, none⟩,
    .advance 0 ⟨"", 3, some (.new "conn closed", true)⟩, .advance 1 ⟨"", 3, none⟩]

theorem allowed_is_recorded_lost_answer : ∃ p,
    facade.Reach unguarded (Pool.start ⟨[], []⟩) p ∧
    p.threads.countP (allowedFor applyPhase) = 1 ∧
    p.store.decisions.countP applyPhase.left = 2 ∧
    p.threads.countP (allowedFor applyPhase) ≤ p.store.decisions.countP applyPhase.left := by
  have hrun : (facade.play (fun _ _ _ _ _ => true) (Pool.start ⟨[], []⟩) askedTwice).map
      (fun p => (p.threads.countP (allowedFor applyPhase),
        p.store.decisions.countP applyPhase.left)) = some (1, 2) := by decide +kernel
  obtain ⟨p, hp, hcounts⟩ := Option.map_eq_some_iff.mp hrun
  obtain ⟨hallowed, hrows⟩ := Prod.mk.inj hcounts
  have hreach : facade.Reach unguarded (Pool.start ⟨[], []⟩) p :=
    System.play_reach (fun _ _ _ _ _ _ => trivial) hp
  exact ⟨p, hreach, hallowed, hrows, allowed_is_recorded ⟨[], []⟩ p hreach applyPhase⟩

end Governance

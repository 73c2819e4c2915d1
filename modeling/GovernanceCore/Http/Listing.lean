import GovernanceCore.Http.Handlers
import GovernanceCore.Resilience.Registry
import GovernanceCore.Store.Statements

/-!
# The endpoints that list

`handleListWorkflows`, `handleQueryAuditTrail` and `handleListBreakers` make a filter of the query
parameters; an absent parameter is the empty text. The two paged listings treat the same parameters
differently. The listing of the runs replaces a limit or an offset that it does not like by its
default, and never asks for more than a hundred runs (`listed_runs_bounded`). The audit trail refuses
such a parameter, and has no default limit: without one, or with the limit 0, it returns every entry
that matches, and the offset does not count (`audit_listing_unlimited`).

The breakers are not in the database. What is shown of them is what their observations have left
(`listed_breakers_replay`).
-/

namespace Governance

open Framework

/-! ### Numbers -/

/-- The value of a text of digits. -/
def digitsValue : List Char → Option Nat
  | [] => none
  | ds => ds.foldlM (fun n c => if c.isDigit then some (n * 10 + (c.toNat - '0'.toNat)) else none) 0

/-- `strconv.Atoi`, on a machine with 64 bits. -/
def atoi (s : String) : Option Int :=
  match s.toList with
  | '-' :: ds => (digitsValue ds).bind fun n => if n ≤ 2 ^ 63 then some (-(n : Int)) else none
  | '+' :: ds => (digitsValue ds).bind fun n => if n < 2 ^ 63 then some (n : Int) else none
  | ds => (digitsValue ds).bind fun n => if n < 2 ^ 63 then some (n : Int) else none

/-! ### Workflow runs -/

/-- The query parameters of `GET /workflows`. -/
structure ListParams where
  status : String := ""
  limit : String := ""
  offset : String := ""
  deriving DecidableEq, Repr

/-- `validWorkflowStatuses`. -/
def validWorkflowStatuses : List WorkflowStatus :=
  [.created, .routed, .policyChecked, .running, .awaitingApproval, .approved, .paused, .completed,
    .failed, .killed, .quarantined]

/-- The filter that `handleListWorkflows` makes. -/
def ListParams.filter (p : ListParams) : Except ErrorReply WorkflowListFilter :=
  if p.status ≠ "" ∧ .ofText p.status ∉ validWorkflowStatuses then
    .error ⟨400, "INVALID_STATUS", .new ("invalid status: " ++ p.status)⟩
  else .ok
    { status := if p.status = "" then none else some (.ofText p.status)
      taskID := none
      limit := match atoi p.limit with
        | some l => if 0 < l ∧ l ≤ 100 then l else 20
        | none => 20
      offset := match atoi p.offset with
        | some o => if 0 ≤ o then o else 0
        | none => 0 }

/-- `handleListWorkflows`, with `List` of the query service. A panic there is recovered by the
middleware, which writes a status and no body. -/
def handleListWorkflows (p : ListParams)
    (list : WorkflowListFilter → Except String (List WorkflowRun × Int × Option Err)) :
    Except ErrorReply (List WorkflowRun × Int) := do
  let filter ← p.filter
  match list filter with
  | .error _ => .error ⟨500, "", .new ""⟩
  | .ok (_, _, some err) => .error ⟨500, "LIST_FAILED", err⟩
  | .ok (workflows, total, none) => .ok (workflows, total)

/-! ### The audit trail -/

/-- The query parameters of `GET /audit`. -/
structure AuditParams where
  taskID : String := ""
  workflowRunID : String := ""
  actor : String := ""
  action : String := ""
  limit : String := ""
  offset : String := ""
  deriving DecidableEq, Repr

/-- A parameter that is checked when it is there. -/
def optional {α : Type} (v : String) (code : String) (check : String → Except Err α) :
    Except ErrorReply (Option α) :=
  if v = "" then .ok none
  else match check v with
    | .ok a => .ok (some a)
    | .error e => .error ⟨400, code, e⟩

/-- A limit or an offset; zero when it is absent. -/
def nonNegative (v code message : String) : Except ErrorReply Int :=
  if v = "" then .ok 0
  else match atoi v with
    | some n => if n < 0 then .error ⟨400, code, .new message⟩ else .ok n
    | none => .error ⟨400, code, .new message⟩

/-- The filter that `handleQueryAuditTrail` makes. -/
def AuditParams.filter (ulid : UlidPackage) (p : AuditParams) : Except ErrorReply AuditFilter := do
  let taskID ← optional p.taskID "INVALID_TASK_ID" (newTaskID ulid)
  let workflowRunID ← optional p.workflowRunID "INVALID_WORKFLOW_ID" (newWorkflowRunID ulid)
  let actor ← optional p.actor "INVALID_ACTOR" newActorID
  let action := if p.action = "" then none else some p.action
  let limit ← nonNegative p.limit "INVALID_LIMIT" "limit must be a non-negative integer"
  let offset ← nonNegative p.offset "INVALID_OFFSET" "offset must be a non-negative integer"
  return ⟨taskID, workflowRunID, actor, action, none, none, limit, offset⟩

/-- `handleQueryAuditTrail`, with `Query` of the repository. -/
def handleQueryAuditTrail (ulid : UlidPackage) (p : AuditParams)
    (query : AuditFilter → List AuditEntry × Int × Option Err) :
    Except ErrorReply (List AuditEntry × Int) := do
  let filter ← p.filter ulid
  match query filter with
  | (_, _, some err) => .error ⟨500, "QUERY_FAILED", err⟩
  | (entries, total, none) => .ok (entries, total)

/-! ### Circuit breakers -/

/-- The query parameters of `GET /breakers`. -/
structure BreakerParams where
  state : String := ""
  toolName : String := ""
  agentRole : String := ""
  deriving DecidableEq, Repr

/-- The states that `handleListBreakers` knows. -/
def breakerStateOf : String → Option BreakerState
  | "closed" => some .closed
  | "open" => some .open
  | "half_open" => some .halfOpen
  | _ => none

/-- `handleListBreakers`: the snapshots and their number. -/
def handleListBreakers (p : BreakerParams) (r : CircuitBreakerRegistry) :
    Except ErrorReply (List BreakerSnapshot × Nat) := do
  let state ← if p.state = "" then .ok none
    else match breakerStateOf p.state with
      | some s => .ok (some s)
      | none => .error ⟨400, "INVALID_STATE", .new "state must be one of: closed, open, half_open"⟩
  let filter : BreakerFilter :=
    { state
      toolName := if p.toolName = "" then none else some p.toolName
      agentRole := if p.agentRole = "" then none else some p.agentRole }
  let snapshots := r.list filter
  return (snapshots, snapshots.length)

/-! ### What they return -/

theorem ListParams.filter_spec {p : ListParams} {f : WorkflowListFilter} (h : p.filter = .ok f) :
    (1 ≤ f.limit ∧ f.limit ≤ 100) ∧ 0 ≤ f.offset ∧ f.taskID = none ∧
      (if p.status = "" then f.status = none
        else f.status = some (.ofText p.status) ∧ .ofText p.status ∈ validWorkflowStatuses) := by
  unfold ListParams.filter at h
  split at h
  · cases h
  · next hstatus =>
    obtain rfl := Except.ok.inj h
    refine ⟨?_, ?_, rfl, ?_⟩
    · dsimp only
      split
      · split <;> omega
      · omega
    · dsimp only
      split
      · split <;> omega
      · omega
    · dsimp only
      by_cases hempty : p.status = ""
      · rw [if_pos hempty, if_pos hempty]
      · rw [if_neg hempty, if_neg hempty]
        exact ⟨rfl, by_contra fun hmem => hstatus ⟨hempty, hmem⟩⟩

theorem length_listingPage_le {A : Type} (key : A → Timestamp) (matching : List A)
    (limit offset : Nat) : (listingPage key matching limit offset).length ≤ limit := by
  rw [listingPage, page]
  exact List.length_take_le _ _

theorem handleListWorkflows_of_ok {p : ListParams} {f : WorkflowListFilter} (hf : p.filter = .ok f)
    {list : WorkflowListFilter → Except String (List WorkflowRun × Int × Option Err)}
    {items : List WorkflowRun} {total : Int} (hlist : list f = .ok (items, total, none)) :
    handleListWorkflows p list = .ok (items, total) := by
  simp only [handleListWorkflows, hf, bind, Except.bind, hlist]

/-- **No more than a hundred runs.** Whatever the parameters of `GET /workflows` are, the reply is a
page of at most a hundred of the stored runs with the status that was asked for, newest first; only
an unknown status is refused. -/
theorem listed_runs_bounded (p : ListParams) (runs : List WorkflowRun) :
    (p.status ≠ "" ∧ .ofText p.status ∉ validWorkflowStatuses ∧
      handleListWorkflows p (fun f => listRuns (.ok (runAnswer f runs)))
        = .error ⟨400, "INVALID_STATUS", .new ("invalid status: " ++ p.status)⟩) ∨
    ∃ items total limit offset,
      handleListWorkflows p (fun f => listRuns (.ok (runAnswer f runs))) = .ok (items, total) ∧
        items = listingPage WorkflowRun.updatedAt
          (runs.filter fun w => p.status = "" ∨ w.status = .ofText p.status) limit offset ∧
        1 ≤ limit ∧ limit ≤ 100 ∧ items.length ≤ 100 := by
  by_cases hstatus : p.status ≠ "" ∧ .ofText p.status ∉ validWorkflowStatuses
  · refine Or.inl ⟨hstatus.1, hstatus.2, ?_⟩
    rw [handleListWorkflows, ListParams.filter, if_pos hstatus]
    rfl
  · obtain ⟨f, hf⟩ : ∃ f, p.filter = .ok f := ⟨_, if_neg hstatus⟩
    obtain ⟨hlimit, hoffset, htask, hfstatus⟩ := ListParams.filter_spec hf
    obtain ⟨limit, hl⟩ := Int.eq_ofNat_of_zero_le (by omega : 0 ≤ f.limit)
    obtain ⟨offset, ho⟩ := Int.eq_ofNat_of_zero_le hoffset
    have hpos : 0 < limit := by omega
    have hmatches : f.matches = fun w => decide (p.status = "" ∨ w.status = .ofText p.status) := by
      funext w
      rw [WorkflowListFilter.matches, htask, Option.all_none, Bool.and_true]
      by_cases hempty : p.status = ""
      · rw [if_pos hempty] at hfstatus
        rw [hfstatus, Option.all_none, decide_eq_true (Or.inl hempty)]
      · rw [if_neg hempty] at hfstatus
        rw [hfstatus.1, Option.all_some]
        exact decide_eq_decide.mpr (or_iff_right hempty).symm
    have hlist := listRuns_page f runs hpos offset
    rw [← hl, ← ho] at hlist
    refine Or.inr ⟨_, _, limit, offset, handleListWorkflows_of_ok hf hlist, ?_, by omega, by omega,
      (length_listingPage_le _ _ _ _).trans (by omega)⟩
    rw [hmatches]

/-! ### The audit trail without a limit -/

variable {ulid : UlidPackage}

theorem handleQueryAuditTrail_of_ok {p : AuditParams} {f : AuditFilter} (hf : p.filter ulid = .ok f)
    (query : AuditFilter → List AuditEntry × Int × Option Err) {entries : List AuditEntry}
    {total : Int} (hquery : query f = (entries, total, none)) :
    handleQueryAuditTrail ulid p query = .ok (entries, total) := by
  simp only [handleQueryAuditTrail, hf, bind, Except.bind, hquery]

/-- The parts of an accepted filter. -/
theorem AuditParams.filter_eq_ok {p : AuditParams} {f : AuditFilter} (h : p.filter ulid = .ok f) :
    ∃ taskID workflowRunID actor limit offset,
      optional p.taskID "INVALID_TASK_ID" (newTaskID ulid) = .ok taskID ∧
      optional p.workflowRunID "INVALID_WORKFLOW_ID" (newWorkflowRunID ulid) = .ok workflowRunID ∧
      optional p.actor "INVALID_ACTOR" newActorID = .ok actor ∧
      nonNegative p.limit "INVALID_LIMIT" "limit must be a non-negative integer" = .ok limit ∧
      f = ⟨taskID, workflowRunID, actor, if p.action = "" then none else some p.action, none, none,
        limit, offset⟩ := by
  obtain ⟨taskID, htask, h⟩ := exists_of_bind_eq_ok h
  obtain ⟨workflowRunID, hwf, h⟩ := exists_of_bind_eq_ok h
  obtain ⟨actor, hactor, h⟩ := exists_of_bind_eq_ok h
  obtain ⟨limit, hlimit, h⟩ := exists_of_bind_eq_ok h
  obtain ⟨offset, -, h⟩ := exists_of_bind_eq_ok h
  exact ⟨taskID, workflowRunID, actor, limit, offset, htask, hwf, hactor, hlimit,
    (Except.ok.inj h).symm⟩

/-- The condition of the filter does not look at the offset. -/
theorem AuditParams.matches_of_offset {p : AuditParams} {offset : String} {f f' : AuditFilter}
    (hf : p.filter ulid = .ok f) (hf' : { p with offset }.filter ulid = .ok f') :
    f'.matches = f.matches ∧ f'.limit = f.limit := by
  obtain ⟨taskID, wfID, actor, limit, o, htask, hwf, hactor, hlimit, rfl⟩ := filter_eq_ok hf
  obtain ⟨taskID', wfID', actor', limit', o', htask', hwf', hactor', hlimit', rfl⟩ :=
    filter_eq_ok hf'
  obtain rfl := Except.ok.inj (htask.symm.trans htask')
  obtain rfl := Except.ok.inj (hwf.symm.trans hwf')
  obtain rfl := Except.ok.inj (hactor.symm.trans hactor')
  exact ⟨rfl, Except.ok.inj (hlimit'.symm.trans hlimit)⟩

theorem AuditParams.limit_eq_zero {p : AuditParams} {f : AuditFilter} (hf : p.filter ulid = .ok f)
    (hlimit : p.limit = "" ∨ atoi p.limit = some 0) : f.limit = 0 := by
  obtain ⟨_, _, _, limit, _, -, -, -, hl, rfl⟩ := filter_eq_ok hf
  unfold nonNegative at hl
  split at hl
  · exact (Except.ok.inj hl).symm
  · next hne =>
    rw [hlimit.resolve_left hne] at hl
    exact (Except.ok.inj hl).symm

/-- **The audit trail without a limit.** When `GET /audit` is accepted without a limit, or with the
limit 0, the reply has every entry that matches, however many there are, and their number; and it is
the same with any other offset that is accepted. -/
theorem audit_listing_unlimited {p : AuditParams} {offset : String} {f f' : AuditFilter}
    (entries : List AuditEntry) (hf : p.filter ulid = .ok f)
    (hf' : { p with offset }.filter ulid = .ok f')
    (hlimit : p.limit = "" ∨ atoi p.limit = some 0) :
    handleQueryAuditTrail ulid p (fun f => queryAudit (.ok (auditAnswer f entries)))
        = .ok (ordered AuditEntry.createdAt (entries.filter f.matches),
          ((entries.filter f.matches).length : Int)) ∧
      handleQueryAuditTrail ulid { p with offset }
          (fun f => queryAudit (.ok (auditAnswer f entries)))
        = handleQueryAuditTrail ulid p (fun f => queryAudit (.ok (auditAnswer f entries))) := by
  obtain ⟨hmatches, hlim⟩ := AuditParams.matches_of_offset hf hf'
  have hzero := AuditParams.limit_eq_zero hf hlimit
  have hreply := handleQueryAuditTrail_of_ok hf (fun f => queryAudit (.ok (auditAnswer f entries)))
    (queryAudit_unlimited f hzero.le entries)
  have hreply' := handleQueryAuditTrail_of_ok hf'
    (fun f => queryAudit (.ok (auditAnswer f entries)))
    (queryAudit_unlimited f' (hlim.trans hzero).le entries)
  refine ⟨hreply, ?_⟩
  rw [hreply, hreply', hmatches]

/-- Three submissions among four entries: the offset 2 skips none of them. -/
theorem audit_listing_unlimited_offset :
    ∃ entries, handleQueryAuditTrail default { action := "task_submitted", offset := "2" }
        (fun f => queryAudit (.ok (auditAnswer f unsortedEntries))) = .ok (entries, 3) ∧
      entries.map AuditEntry.createdAt = [30, 20, 10] := by
  have hskip : ({ action := "task_submitted", offset := "2" } : AuditParams).filter default
      = .ok { submissions with offset := 2 } := rfl
  obtain ⟨hall, hoffset⟩ := audit_listing_unlimited (p := { action := "task_submitted" })
    unsortedEntries rfl hskip (Or.inl rfl)
  exact ⟨_, hoffset.trans hall, map_key_ordered (by decide) (by decide)⟩

/-! ### The listing of the breakers -/

/-- Whether a snapshot has everything that the parameters ask for. -/
def BreakerParams.shows (p : BreakerParams) (s : BreakerSnapshot) : Bool :=
  (p.state = "" || s.state.text = p.state) && (p.toolName = "" || s.toolName = p.toolName) &&
    (p.agentRole = "" || s.agentRole = p.agentRole)

theorem breakerStateOf_eq_some_iff {text : String} {state : BreakerState} :
    breakerStateOf text = some state ↔ state.text = text := by
  constructor
  · intro h
    unfold breakerStateOf at h
    split at h <;> cases h <;> rfl
  · rintro rfl
    cases state <;> rfl

/-- A parameter that is absent admits everything. -/
theorem all_optional {text value : String} :
    (if text = "" then none else some text : Option String).all (fun t => t = value)
      = (decide (text = "") || decide (value = text)) := by
  by_cases htext : text = ""
  · simp [htext]
  · simp [htext, eq_comm]

/-- What the registry holds of the observed pairs. -/
theorem snapshots_perm (now : Timestamp) (h : List ObserveCall) :
    ((registryAfter h).breakers.map CircuitBreaker.snapshot).Perm
      ((observedKeys h).map fun k => (breakerAfter k now (observationsOf k h)).snapshot) := by
  rw [registryAfter_breakers now, List.map_map]
  refine ((observedHistories_perm h).map _).trans (List.Perm.of_eq ?_)
  rw [List.map_map]
  rfl

/-- A filter that looks at snapshots may be applied before or after they are taken. -/
theorem list_perm {f : BreakerFilter} {q : BreakerSnapshot → Bool}
    (hf : ∀ b : CircuitBreaker, f.admits b = q b.snapshot) (now : Timestamp)
    (h : List ObserveCall) : ((registryAfter h).list f).Perm
      (((observedKeys h).map fun k => (breakerAfter k now (observationsOf k h)).snapshot).filter
        q) := by
  have hlist : (registryAfter h).list f
      = ((registryAfter h).breakers.map CircuitBreaker.snapshot).filter q := by
    rw [List.filter_map, CircuitBreakerRegistry.list]
    exact congrArg _ (List.filter_congr fun b _ => hf b)
  rw [hlist]
  exact (snapshots_perm now h).filter q

/-- **What `GET /breakers` shows** after any observations. It refuses a state that is none. Otherwise
it shows, for each observed pair of names whose breaker has what the parameters ask for, that breaker
once, as the observations of the pair alone have left it. -/
theorem listed_breakers_replay (h : List ObserveCall) (p : BreakerParams) (now : Timestamp) :
    ((p.state ≠ "" ∧ ∀ state : BreakerState, state.text ≠ p.state) ∧
      handleListBreakers p (registryAfter h)
        = .error ⟨400, "INVALID_STATE", .new "state must be one of: closed, open, half_open"⟩) ∨
    ((p.state = "" ∨ ∃ state : BreakerState, state.text = p.state) ∧
      ∃ snapshots, handleListBreakers p (registryAfter h) = .ok (snapshots, snapshots.length) ∧
        snapshots.Perm (((observedKeys h).map fun k =>
          (breakerAfter k now (observationsOf k h)).snapshot).filter p.shows)) := by
  -- the filter of the handler, once the state is settled
  have hshown : ∀ state : Option BreakerState,
      (∀ s : BreakerState, state.all (fun t => t = s) = (p.state = "" || s.text = p.state)) →
      ((registryAfter h).list ⟨state, if p.toolName = "" then none else some p.toolName,
        if p.agentRole = "" then none else some p.agentRole⟩).Perm
        (((observedKeys h).map fun k =>
          (breakerAfter k now (observationsOf k h)).snapshot).filter p.shows) := by
    intro state hstate
    refine list_perm (fun b => ?_) now h
    rw [BreakerFilter.admits, BreakerParams.shows, hstate b.state, all_optional, all_optional]
    rfl
  unfold handleListBreakers
  by_cases hempty : p.state = ""
  · refine Or.inr ⟨Or.inl hempty, _, ?_, hshown none fun s => ?_⟩
    · rw [if_pos hempty]
      rfl
    · simp [hempty]
  · rw [if_neg hempty]
    cases hstate : breakerStateOf p.state with
    | none =>
      refine Or.inl ⟨⟨hempty, fun state htext => ?_⟩, rfl⟩
      rw [breakerStateOf_eq_some_iff.mpr htext] at hstate
      cases hstate
    | some state =>
      have htext := breakerStateOf_eq_some_iff.mp hstate
      refine Or.inr ⟨Or.inr ⟨state, htext⟩, _, rfl, hshown (some state) fun s => ?_⟩
      -- states with the same text are the same
      have hsame : state = s ↔ s.text = p.state := by
        rw [← htext]
        cases state <;> cases s <;> decide
      simp [hempty, hsame]

end Governance

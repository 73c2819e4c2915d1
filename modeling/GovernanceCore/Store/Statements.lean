import GovernanceCore.Framework.Statement
import GovernanceCore.Store.Listing
import GovernanceCore.Domain.TransitionLog

/-!
# The statements of the listings

`Query` of the audit entries and `List` of the workflow runs write their statements while they go
through the fields of a filter. `Store/Listing.lean` says what those statements select; here they are
built as the source builds them, and `listing_statements_mean_filters` says that they select that:
the placeholders and the arguments fit together for every combination of fields, and the condition
and the page are those of the filter.
-/

namespace Governance

open Framework

/-! ### The audit entries -/

/-- The conditions of `PgAuditEntryRepository.Query`. -/
def AuditFilter.builder (f : AuditFilter) : Builder :=
  Builder.start
    |>.addIf "task_id" .eq (f.taskID.map fun id => .text id.text)
    |>.addIf "workflow_run_id" .eq (f.workflowRunID.map fun id => .text id.text)
    |>.addIf "actor" .eq (f.actor.map fun id => .text id.text)
    |>.addIf "action" .eq (f.action.map .text)
    |>.addIf "created_at" .gt (f.createdAfter.map .time)
    |>.addIf "created_at" .lt (f.createdBefore.map .time)

/-- The statement of `Query` with its arguments. -/
def AuditFilter.statement (f : AuditFilter) : Statement := f.builder.finish f.limit f.offset

/-- Its text. -/
def AuditFilter.queryText (f : AuditFilter) : String :=
  "\n\t\tSELECT id, task_id, workflow_run_id, actor, action, outcome, context, created_at,\n"
    ++ "\t\t       COUNT(*) OVER() AS total_count\n"
    ++ "\t\tFROM audit_entries " ++ f.statement.whereClause ++ "\n"
    ++ "\t\tORDER BY created_at DESC\n"
    ++ "\t\t" ++ f.statement.limitClause

/-- The columns of `audit_entries` that a condition can name. -/
def AuditEntry.column (e : AuditEntry) : String → Option SqlValue
  | "task_id" => e.taskID.map fun id => .text id.text
  | "workflow_run_id" => e.workflowRunID.map fun id => .text id.text
  | "actor" => some (.text e.actor.text)
  | "action" => some (.text e.action)
  | "created_at" => some (.time e.createdAt)
  | _ => none

/-! ### The workflow runs -/

/-- The conditions of `PgWorkflowRunRepository.List`. -/
def WorkflowListFilter.builder (f : WorkflowListFilter) : Builder :=
  Builder.start
    |>.addIf "status" .eq (f.status.map fun status => .text status.text)
    |>.addIf "task_id" .eq (f.taskID.map fun id => .text id.text)

/-- The statement of `List` with its arguments. -/
def WorkflowListFilter.statement (f : WorkflowListFilter) : Statement :=
  f.builder.finish f.limit f.offset

/-- Its text. -/
def WorkflowListFilter.queryText (f : WorkflowListFilter) : String :=
  "\n\t\tSELECT id, task_id, status, routing_decision_id, policy_decision_id,\n"
    ++ "\t\t       current_step_index, transitions, created_at, updated_at,\n"
    ++ "\t\t       COUNT(*) OVER() AS total_count\n"
    ++ "\t\tFROM workflow_runs " ++ f.statement.whereClause ++ "\n"
    ++ "\t\tORDER BY updated_at DESC\n"
    ++ "\t\t" ++ f.statement.limitClause

/-- The columns of `workflow_runs` that a condition can name. -/
def WorkflowRun.column (w : WorkflowRun) : String → Option SqlValue
  | "status" => some (.text w.status.text)
  | "task_id" => some (.text w.taskID.text)
  | _ => none

example : ({ anyRun with status := some .running, limit := 20 } : WorkflowListFilter).queryText
    = "\n\t\tSELECT id, task_id, status, routing_decision_id, policy_decision_id,\n"
      ++ "\t\t       current_step_index, transitions, created_at, updated_at,\n"
      ++ "\t\t       COUNT(*) OVER() AS total_count\n"
      ++ "\t\tFROM workflow_runs WHERE status = $1\n"
      ++ "\t\tORDER BY updated_at DESC\n\t\tLIMIT $2 OFFSET $3" := by
  decide +kernel

/-! ### What they select -/

/-- A condition on a nullable column of identifiers. -/
theorem all_text_nullable {e : Entity} (filter stored : Option (ID e)) :
    ((filter.map fun id => SqlValue.text id.text).all fun v =>
      (stored.map fun id => SqlValue.text id.text).any fun x => Comparison.eq.holds x v)
      = filter.all fun id => stored = some id := by
  rcases filter with _ | ⟨a⟩
  · rfl
  · rcases stored with _ | ⟨b⟩
    · rfl
    · exact decide_eq_decide.mpr ⟨fun h => congrArg (fun t => some (ID.mk t)) h,
        fun h => congrArg ID.text (Option.some.inj h)⟩

/-- A condition on a column of identifiers. -/
theorem all_text_id {e : Entity} (filter : Option (ID e)) (stored : ID e) :
    ((filter.map fun id => SqlValue.text id.text).all fun v =>
      (some (SqlValue.text stored.text)).any fun x => Comparison.eq.holds x v)
      = filter.all fun id => stored = id := by
  rw [show some (SqlValue.text stored.text) = (some stored).map fun id => SqlValue.text id.text
    from rfl, all_text_nullable]
  cases filter with
  | none => rfl
  | some id => exact decide_eq_decide.mpr Option.some_inj

/-- A condition on a column that holds what the filter has. -/
theorem all_some {α : Type} {make : α → SqlValue} {comparison : Comparison} {x : SqlValue}
    {test : α → Bool} (h : ∀ a, comparison.holds x (make a) = test a) (filter : Option α) :
    ((filter.map make).all fun v => (some x).any fun x => comparison.holds x v)
      = filter.all test := by
  cases filter with
  | none => rfl
  | some a => exact h a

theorem AuditFilter.means_builder (f : AuditFilter) :
    f.builder.Means AuditEntry.column f.matches := by
  have hmeans : f.builder.Means AuditEntry.column _ :=
    .addIf (.addIf (.addIf (.addIf (.addIf (.addIf Builder.means_start
      fun e => all_text_nullable f.taskID e.taskID)
      fun e => all_text_nullable f.workflowRunID e.workflowRunID)
      fun e => all_text_id f.actor e.actor)
      fun e => all_some (fun _ => rfl) f.action)
      fun e => all_some (fun _ => rfl) f.createdAfter)
      fun e => all_some (fun _ => rfl) f.createdBefore
  exact hmeans.congr fun e => by simp only [Bool.true_and]; rfl

/-- The status is compared by its text. -/
theorem WorkflowListFilter.means_builder (f : WorkflowListFilter) :
    f.builder.Means WorkflowRun.column fun w =>
      f.status.all (fun status => w.status.text = status.text)
        && f.taskID.all (fun id => w.taskID = id) := by
  have hmeans : f.builder.Means WorkflowRun.column _ :=
    .addIf (.addIf Builder.means_start
      fun w => all_some (fun _ => rfl) f.status)
      fun w => all_text_id f.taskID w.taskID
  exact hmeans.congr fun w => by simp only [Bool.true_and]; rfl

/-! ### What the database answers -/

/-- What a statement answers over a table, if the database accepts it. -/
def answer {A R : Type} (key : A → Timestamp) (column : A → String → Option SqlValue)
    (toRow : A → Int → R) (st : Statement) (table : List A) : Option (Rows R Err) :=
  (st.eval column).map fun m =>
    let page := m.2.getD (0, 0)
    resultRows toRow (selectRows key page.1 page.2 (table.filter m.1))

theorem answer_finish {A R : Type} {key : A → Timestamp} {column : A → String → Option SqlValue}
    {toRow : A → Int → R} {b : Builder} {p : A → Bool} (h : b.Means column p) (limit offset : Int)
    (table : List A) :
    answer key column toRow (b.finish limit offset) table
      = some (resultRows toRow (selectRows key limit offset (table.filter p))) := by
  rw [answer, h.eval_finish, Option.map_some]
  by_cases hlimit : 0 < limit
  · rw [if_pos hlimit]
    rfl
  · -- without a limit the offset is not in the statement
    have hall : ∀ l o : Int, ¬ 0 < l → selectRows key l o (table.filter p)
        = ⟨withCount (ordered key (table.filter p)), none⟩ := fun l o hl => if_neg hl
    rw [if_neg hlimit, hall limit offset hlimit]
    exact congrArg (fun rows => some (resultRows toRow rows)) (hall 0 0 (lt_irrefl 0))

/-- A status that reading its text gives back. -/
def WorkflowStatus.Canonical (s : WorkflowStatus) : Prop := ofText s.text = s

theorem WorkflowStatus.Canonical.eq_iff {s t : WorkflowStatus} (hs : s.Canonical)
    (ht : t.Canonical) : s.text = t.text ↔ s = t :=
  ⟨fun h => hs.symm.trans ((congrArg ofText h).trans ht), congrArg text⟩

/-- **The statements mean the filters.** For every filter, whichever of its fields are set, the
database accepts the statement with its arguments, and answers with the rows that match the filter,
in the order and on the page that the filter asks for. Statuses are those that can be read from the
table. -/
theorem listing_statements_mean_filters (af : AuditFilter) (entries : List AuditEntry)
    (wf : WorkflowListFilter) (runs : List WorkflowRun) (hruns : ∀ w ∈ runs, w.status.Canonical)
    (hwf : ∀ status ∈ wf.status, status.Canonical) :
    answer AuditEntry.createdAt AuditEntry.column AuditEntry.toRow af.statement entries
        = some (auditAnswer af entries) ∧
      answer WorkflowRun.updatedAt WorkflowRun.column WorkflowRun.toRow wf.statement runs
        = some (runAnswer wf runs) := by
  refine ⟨answer_finish af.means_builder af.limit af.offset entries, ?_⟩
  refine (answer_finish wf.means_builder wf.limit wf.offset runs).trans ?_
  rw [runAnswer]
  have hfilter : (runs.filter fun w => wf.status.all (fun status => w.status.text = status.text)
      && wf.taskID.all (fun id => w.taskID = id)) = runs.filter wf.matches := by
    refine List.filter_congr fun w hw => congrArg (· && _) ?_
    cases hstatus : wf.status with
    | none => rfl
    | some status =>
      exact decide_eq_decide.mpr ((hruns w hw).eq_iff (hwf status hstatus))
  rw [hfilter]

/-- The second page of the submissions and the first one of the untouched runs, from their
statements. -/
theorem listing_statements_mean_filters_unsorted :
    (∃ rows, answer AuditEntry.createdAt AuditEntry.column AuditEntry.toRow
        ({ submissions with limit := 2, offset := 2 } : AuditFilter).statement unsortedEntries
          = some rows ∧
        (queryAudit (.ok rows)).1.map AuditEntry.createdAt = [10]) ∧
      ∃ rows, answer WorkflowRun.updatedAt WorkflowRun.column WorkflowRun.toRow
        ({ untouchedRuns with limit := 2 } : WorkflowListFilter).statement unsortedRuns
          = some rows ∧
        (listRuns (.ok rows)).map (fun reply => reply.1.map WorkflowRun.updatedAt)
          = .ok [30, 20] := by
  obtain ⟨hentries, hlisted⟩ := listing_statements_mean_filters
    { submissions with limit := 2, offset := 2 } unsortedEntries
    { untouchedRuns with limit := 2 } unsortedRuns
    (by
      intro w hw
      simp only [unsortedRuns, List.mem_cons, List.not_mem_nil, or_false] at hw
      rcases hw with rfl | rfl | rfl | rfl <;> rfl)
    (by
      intro status hstatus
      obtain rfl := Option.some.inj hstatus
      rfl)
  have hkeys : [30, 20, 10].Pairwise fun a b : Timestamp => b < a := by decide
  refine ⟨⟨_, hentries, ?_⟩, _, hlisted, ?_⟩
  · have hpage := queryAudit_page submissions unsortedEntries Nat.two_pos 2
    refine (congrArg (fun reply => reply.1.map AuditEntry.createdAt) hpage).trans ?_
    exact map_key_listingPage _ _ hkeys (by decide) 2 2
  · have hpage := listRuns_page untouchedRuns unsortedRuns Nat.two_pos 0
    refine (congrArg (Except.map fun reply => reply.1.map WorkflowRun.updatedAt) hpage).trans ?_
    exact congrArg Except.ok (map_key_listingPage _ _ hkeys (by decide) 2 0)

end Governance

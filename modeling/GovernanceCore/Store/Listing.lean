import GovernanceCore.Framework.Paging
import GovernanceCore.Store.Readers

/-!
# Paged listings

`Query` of the audit entries and `List` of the workflow runs build the same kind of statement: the
rows that match a filter, newest first, one page of them, with the number of all matching rows next
to each (`COUNT(*) OVER()`). `selectRows` is that statement, and the two readers go through its
rows.

The pages of a listing are complete: put together they have every matching row once, in descending
order. The total is read off the rows of the page, so it is the number of matching rows on every
page that has a row; a page behind the last one reports zero (`Paged`, `listings_paged`). The design
accepts that: "If the result set is empty, `total_count` is not available".
-/

namespace Governance

open Framework

/-! ### The statements -/

def errNegativeOffset : Err := .new "ERROR: OFFSET must not be negative (SQLSTATE 2201X)"

/-- The rows of a statement with `ORDER BY key DESC` and, for a positive limit, `LIMIT … OFFSET …`.
The error of a negative offset comes when the rows are read. -/
def selectRows {A : Type} (key : A → Timestamp) (limit offset : Int) (matching : List A) :
    Rows (A × Int) Err :=
  let rows := withCount (ordered key matching)
  if 0 < limit then
    if offset < 0 then ⟨[], some errNegativeOffset⟩
    else ⟨page limit.toNat offset.toNat rows, none⟩
  else ⟨rows, none⟩

/-- The selected rows as the driver hands them over, the count as their last column. -/
def resultRows {A R : Type} (toRow : A → Int → R) (selected : Rows (A × Int) Err) : Rows R Err :=
  ⟨selected.rows.map fun p => toRow p.1 p.2, selected.err⟩

/-- `AuditFilter`. -/
structure AuditFilter where
  taskID : Option TaskID
  workflowRunID : Option WorkflowRunID
  actor : Option ActorID
  action : Option String
  createdAfter : Option Timestamp
  createdBefore : Option Timestamp
  limit : Int
  offset : Int

/-- The `WHERE` clause of `Query`: a condition for each field that is set. -/
def AuditFilter.matches (f : AuditFilter) (e : AuditEntry) : Bool :=
  f.taskID.all (fun id => e.taskID = some id)
    && f.workflowRunID.all (fun id => e.workflowRunID = some id)
    && f.actor.all (fun actor => e.actor = actor)
    && f.action.all (fun action => e.action = action)
    && f.createdAfter.all (fun t => t < e.createdAt)
    && f.createdBefore.all (fun t => e.createdAt < t)

/-- The row of an entry in the result. -/
def AuditEntry.toRow (e : AuditEntry) (totalCount : Int) : AuditRow :=
  .ok { id := e.id, taskID := e.taskID, workflowRunID := e.workflowRunID, actor := e.actor,
        action := e.action, outcome := e.outcome, contextJSON := .ok e.context,
        createdAt := e.createdAt, totalCount }

/-- What the statement of `Query` answers over a table. -/
def auditAnswer (f : AuditFilter) (entries : List AuditEntry) : Rows AuditRow Err :=
  resultRows AuditEntry.toRow
    (selectRows AuditEntry.createdAt f.limit f.offset (entries.filter f.matches))

/-- `WorkflowListFilter`. -/
structure WorkflowListFilter where
  status : Option WorkflowStatus
  taskID : Option TaskID
  limit : Int
  offset : Int

/-- The `WHERE` clause of `List`. -/
def WorkflowListFilter.matches (f : WorkflowListFilter) (wf : WorkflowRun) : Bool :=
  f.status.all (fun status => wf.status = status) && f.taskID.all (fun id => wf.taskID = id)

/-- One item of `marshalTransitions`. -/
def WorkflowTransition.toJSON (t : WorkflowTransition) : TransitionJSON :=
  ⟨t.source, t.target, t.reason, t.actor, .instant t.timestamp⟩

/-- The row of a run in the result. -/
def WorkflowRun.toRow (wf : WorkflowRun) (totalCount : Int) : RunRow :=
  .ok { id := wf.id, taskID := wf.taskID, status := wf.status, routingID := wf.routingDecisionID,
        policyID := wf.policyDecisionID, currentStepIndex := wf.currentStepIndex,
        transitionsJSON := .ok (wf.transitions.map WorkflowTransition.toJSON),
        createdAt := wf.createdAt, updatedAt := wf.updatedAt, totalCount }

/-- What the statement of `List` answers over a table. -/
def runAnswer (f : WorkflowListFilter) (runs : List WorkflowRun) : Rows RunRow Err :=
  resultRows WorkflowRun.toRow
    (selectRows WorkflowRun.updatedAt f.limit f.offset (runs.filter f.matches))

/-! ### Reading the rows back -/

theorem scanAuditEntry_toRow (e : AuditEntry) (n : Int) :
    scanAuditEntry (e.toRow n) = .ok (e, n) := rfl

theorem unmarshalTransitions_toJSON (ts : List WorkflowTransition) :
    unmarshalTransitions (.ok (ts.map WorkflowTransition.toJSON)) = .ok ts := by
  refine scanLoop_append_eq_ok ?_
  rw [List.forall₂_map_left_iff, List.forall₂_same]
  intro t _
  rfl

theorem scanListedRun_toRow (wf : WorkflowRun) (n : Int) :
    scanListedRun (wf.toRow n) = .ok (wf, n) := by
  rw [WorkflowRun.toRow, scanListedRun]
  dsimp only
  rw [unmarshalTransitions_toJSON]

/-- Rows that were written are decoded to what they were written for. -/
theorem forall₂_decoded {R A ε : Type} {scan : R → Except ε (A × Int)} {toRow : A → Int → R}
    (h : ∀ a n, scan (toRow a n) = .ok (a, n)) (ps : List (A × Int)) :
    List.Forall₂ (fun row p => scan row = .ok p) (ps.map fun p => toRow p.1 p.2) ps := by
  rw [List.forall₂_map_left_iff, List.forall₂_same]
  exact fun p _ => h p.1 p.2

/-- The total of rows that all have the same count. -/
theorem countedTotal_eq {A : Type} {n : Int} {ps : List (A × Int)} (h : ∀ p ∈ ps, p.2 = n) :
    countedTotal 0 (ps.map Prod.snd) = if ps = [] then 0 else n := by
  -- from the first row on, the total does not change
  have hrest : ∀ qs : List (A × Int), (∀ q ∈ qs, q.2 = n) →
      countedTotal n (qs.map Prod.snd) = n := by
    intro qs
    induction qs with
    | nil => exact fun _ => rfl
    | cons q qs ih =>
      intro hqs
      have hq : (if n = 0 then q.2 else n) = n := by
        rw [hqs q List.mem_cons_self, ite_self]
      rw [List.map_cons, countedTotal, hq]
      exact ih fun r hr => hqs r (List.mem_cons_of_mem _ hr)
  cases ps with
  | nil => rfl
  | cons p ps =>
    rw [if_neg (List.cons_ne_nil p ps), List.map_cons, countedTotal, if_pos rfl,
      h p List.mem_cons_self]
    exact hrest ps fun q hq => h q (List.mem_cons_of_mem _ hq)

/-! ### Pages -/

section Pages

variable {A : Type} (key : A → Timestamp) (matching : List A)

/-- A page of the listing. -/
def listingPage (limit offset : Nat) : List A := page limit offset (ordered key matching)

theorem map_key_listingPage {keys : List Timestamp} (hkeys : keys.Pairwise fun a b => b < a)
    (hperm : (matching.map key).Perm keys) (limit offset : Nat) :
    (listingPage key matching limit offset).map key = page limit offset keys := by
  rw [listingPage, map_page, map_key_ordered hkeys hperm]

theorem listingPage_of_length_le {limit offset : Nat} (hlimit : 0 < limit)
    (h : matching.length ≤ offset) : listingPage key matching limit offset = [] := by
  refine (page_eq_nil_iff hlimit).mpr ?_
  rwa [length_ordered]

theorem selectRows_page {limit : Nat} (hlimit : 0 < limit) (offset : Nat) :
    selectRows key limit offset matching
      = ⟨page limit offset (withCount (ordered key matching)), none⟩ := by
  have hpos : (0 : Int) < limit := Int.natCast_pos.mpr hlimit
  have hneg : ¬ (offset : Int) < 0 := by omega
  rw [selectRows, if_pos hpos, if_neg hneg, Int.toNat_natCast, Int.toNat_natCast]

/-- The total that is read off a page. -/
theorem countedTotal_page {limit : Nat} (hlimit : 0 < limit) (offset : Nat) :
    countedTotal 0 ((page limit offset (withCount (ordered key matching))).map Prod.snd)
      = if offset < matching.length then (matching.length : Int) else 0 := by
  have hall : ∀ p ∈ page limit offset (withCount (ordered key matching)),
      p.2 = (matching.length : Int) := by
    intro p hp
    rw [snd_of_mem_withCount (mem_of_mem_page hp), length_ordered]
  have hnil : page limit offset (withCount (ordered key matching)) = [] ↔
      matching.length ≤ offset := by
    rw [page_eq_nil_iff hlimit, withCount, List.length_map, length_ordered]
  rw [countedTotal_eq hall]
  by_cases h : offset < matching.length
  · rw [if_pos h, if_neg fun h' => absurd (hnil.mp h') (by omega)]
  · rw [if_neg h, if_pos (hnil.mpr (by omega))]

/-- Without a page the total is always there: no row, and zero is the right number. -/
theorem countedTotal_withCount :
    countedTotal 0 ((withCount (ordered key matching)).map Prod.snd) = matching.length := by
  have hall : ∀ p ∈ withCount (ordered key matching), p.2 = (matching.length : Int) := by
    intro p hp
    rw [snd_of_mem_withCount hp, length_ordered]
  rw [countedTotal_eq hall]
  split
  · rename_i hnil
    have hlength := congrArg List.length hnil
    rw [withCount, List.length_map, length_ordered, List.length_nil] at hlength
    rw [hlength]
    rfl
  · rfl

/-- The pages of one size, put together. -/
theorem flatMap_listingPage {limit n : Nat} (h : matching.length ≤ n * limit) :
    (List.range n).flatMap (fun i => listingPage key matching limit (i * limit))
      = ordered key matching := by
  unfold listingPage
  rw [flatMap_page, List.take_of_length_le]
  rwa [length_ordered]

end Pages

/-- `Query` without a limit: every matching entry. -/
theorem queryAudit_unlimited (f : AuditFilter) (hlimit : f.limit ≤ 0) (entries : List AuditEntry) :
    queryAudit (.ok (auditAnswer f entries))
      = (ordered AuditEntry.createdAt (entries.filter f.matches),
        ((entries.filter f.matches).length : Int), none) := by
  have hrows : selectRows AuditEntry.createdAt f.limit f.offset (entries.filter f.matches)
      = ⟨withCount (ordered AuditEntry.createdAt (entries.filter f.matches)), none⟩ :=
    if_neg (not_lt.mpr hlimit)
  rw [auditAnswer, hrows, resultRows,
    queryAudit_whole rfl (forall₂_decoded scanAuditEntry_toRow _), countedTotal_withCount,
    map_fst_withCount]

theorem queryAudit_page (f : AuditFilter) (entries : List AuditEntry) {limit : Nat}
    (hlimit : 0 < limit) (offset : Nat) :
    queryAudit (.ok (auditAnswer { f with limit, offset } entries))
      = (listingPage AuditEntry.createdAt (entries.filter f.matches) limit offset,
        if offset < (entries.filter f.matches).length then
          ((entries.filter f.matches).length : Int) else 0, none) := by
  -- the condition of the filter does not look at the page
  change queryAudit (.ok (resultRows AuditEntry.toRow
    (selectRows AuditEntry.createdAt limit offset (entries.filter f.matches)))) = _
  rw [selectRows_page _ _ hlimit, resultRows]
  rw [queryAudit_whole rfl (forall₂_decoded scanAuditEntry_toRow _),
    countedTotal_page _ _ hlimit, map_fst_page_withCount]
  rfl

theorem listRuns_page (f : WorkflowListFilter) (runs : List WorkflowRun) {limit : Nat}
    (hlimit : 0 < limit) (offset : Nat) :
    listRuns (.ok (runAnswer { f with limit, offset } runs))
      = .ok (listingPage WorkflowRun.updatedAt (runs.filter f.matches) limit offset,
        if offset < (runs.filter f.matches).length then
          ((runs.filter f.matches).length : Int) else 0, none) := by
  change listRuns (.ok (resultRows WorkflowRun.toRow
    (selectRows WorkflowRun.updatedAt limit offset (runs.filter f.matches)))) = _
  rw [selectRows_page _ _ hlimit, resultRows]
  rw [listRuns_decodable (forall₂_decoded scanListedRun_toRow _),
    countedTotal_page _ _ hlimit, map_fst_page_withCount]
  rfl

/-! ### What a listing gives -/

/-- **A paged listing**, as a function of the page size and the offset. Every call succeeds; its
total is the number of matching rows, but zero for an offset behind the last row; and the pages at
the multiples of a page size, as soon as they reach behind the last row, are every matching row once
and in descending order. -/
def Paged {A : Type} (list : Nat → Nat → Except String (List A × Int × Option Err))
    (key : A → Timestamp) (matching : List A) : Prop :=
  ∃ pages : Nat → Nat → List A,
    (∀ limit offset, 0 < limit → list limit offset
      = .ok (pages limit offset,
        if offset < matching.length then (matching.length : Int) else 0, none)) ∧
    ∀ limit n, 0 < limit → matching.length ≤ n * limit →
      ((List.range n).flatMap fun i => pages limit (i * limit)).Perm matching ∧
        ((List.range n).flatMap fun i => pages limit (i * limit)).Pairwise
          fun a b => key b < key a

theorem Paged.of_listingPage {A : Type}
    {list : Nat → Nat → Except String (List A × Int × Option Err)} {key : A → Timestamp}
    {matching : List A} (hdistinct : (matching.map key).Nodup)
    (h : ∀ limit offset, 0 < limit → list limit offset
      = .ok (listingPage key matching limit offset,
        if offset < matching.length then (matching.length : Int) else 0, none)) :
    Paged list key matching := by
  refine ⟨listingPage key matching, h, fun limit n _ hn => ?_⟩
  rw [flatMap_listingPage key matching hn]
  exact ⟨ordered_perm key matching, ordered_pairwise hdistinct⟩

theorem nodup_map_filter {A : Type} {key : A → Timestamp} {p : A → Bool} {rows : List A}
    (h : (rows.map key).Nodup) : ((rows.filter p).map key).Nodup :=
  h.sublist (List.filter_sublist.map key)

/-- **Both listings are paged**, over any tables whose ordering timestamps are pairwise distinct
and for every filter. -/
theorem listings_paged (entries : List AuditEntry) (runs : List WorkflowRun)
    (hentries : (entries.map AuditEntry.createdAt).Nodup)
    (hruns : (runs.map WorkflowRun.updatedAt).Nodup) (af : AuditFilter) (wf : WorkflowListFilter) :
    Paged (fun limit offset =>
        .ok (queryAudit (.ok (auditAnswer { af with limit, offset } entries))))
        AuditEntry.createdAt (entries.filter af.matches) ∧
      Paged (fun limit offset => listRuns (.ok (runAnswer { wf with limit, offset } runs)))
        WorkflowRun.updatedAt (runs.filter wf.matches) := by
  refine ⟨Paged.of_listingPage (nodup_map_filter hentries) fun limit offset hlimit => ?_,
    Paged.of_listingPage (nodup_map_filter hruns) fun limit offset hlimit => ?_⟩
  · rw [queryAudit_page af entries hlimit offset]
  · exact listRuns_page wf runs hlimit offset

/-- The first two pages of a listing that fills no third one, by their keys. -/
theorem Paged.two_pages {A : Type} {list : Nat → Nat → Except String (List A × Int × Option Err)}
    {key : A → Timestamp} {matching : List A} (h : Paged list key matching) {keys : List Timestamp}
    (hperm : (matching.map key).Perm keys) (hkeys : keys.Pairwise fun a b => b < a) {limit : Nat}
    (hmore : limit < matching.length) (hlast : matching.length ≤ 2 * limit) :
    ∃ first second, list limit 0 = .ok (first, (matching.length : Int), none) ∧
      list limit limit = .ok (second, (matching.length : Int), none) ∧
      (first ++ second).map key = keys := by
  obtain ⟨pages, hpages, hwhole⟩ := h
  have hlimit : 0 < limit := by omega
  obtain ⟨hrows, hsorted⟩ := hwhole limit 2 hlimit hlast
  have htwo : ((List.range 2).flatMap fun i => pages limit (i * limit))
      = pages limit 0 ++ pages limit limit := by
    simp [List.range_succ]
  rw [htwo] at hrows hsorted
  refine ⟨pages limit 0, pages limit limit, ?_, ?_, ?_⟩
  · rw [hpages limit 0 hlimit, if_pos (by omega)]
  · rw [hpages limit limit hlimit, if_pos hmore]
  · exact map_key_of_descending hsorted hkeys ((hrows.map key).trans hperm)

/-- An audit table and a table of runs, with one row each. -/
def oneEntry : List AuditEntry :=
  [⟨⟨"a-1"⟩, none, none, ⟨"system"⟩, "task_submitted", "success", [], 1⟩]

def oneRun : List WorkflowRun := [newWorkflowRun ⟨"wf-1"⟩ ⟨"t-1"⟩ 1]

/-- The filters without a condition. -/
def anyEntry : AuditFilter := ⟨none, none, none, none, none, none, 0, 0⟩

def anyRun : WorkflowListFilter := ⟨none, none, 0, 0⟩

/-- Four entries, not in the order of their times. -/
def unsortedEntries : List AuditEntry :=
  [⟨⟨"a-1"⟩, some ⟨"t-1"⟩, none, ⟨"system"⟩, "task_submitted", "success", [], 20⟩,
    ⟨⟨"a-2"⟩, some ⟨"t-1"⟩, none, ⟨"system"⟩, "task_routed", "direct", [], 40⟩,
    ⟨⟨"a-3"⟩, some ⟨"t-2"⟩, none, ⟨"system"⟩, "task_submitted", "success", [], 30⟩,
    ⟨⟨"a-4"⟩, some ⟨"t-3"⟩, none, ⟨"system"⟩, "task_submitted", "success", [], 10⟩]

/-- Four runs, one of which has left its first status. -/
def unsortedRuns : List WorkflowRun :=
  [newWorkflowRun ⟨"wf-1"⟩ ⟨"t-1"⟩ 20, newWorkflowRun ⟨"wf-2"⟩ ⟨"t-2"⟩ 30,
    { newWorkflowRun ⟨"wf-3"⟩ ⟨"t-3"⟩ 15 with status := .failed, updatedAt := 40 },
    newWorkflowRun ⟨"wf-4"⟩ ⟨"t-4"⟩ 10]

/-- The submissions, and the runs that nothing has happened to. -/
def submissions : AuditFilter := { anyEntry with action := some "task_submitted" }

def untouchedRuns : WorkflowListFilter := { anyRun with status := some .created }

/-- In pages of two, the three rows of four that match come latest first. -/
theorem listings_paged_unsorted :
    unsortedEntries.map AuditEntry.createdAt = [20, 40, 30, 10] ∧
      unsortedRuns.map WorkflowRun.updatedAt = [20, 30, 40, 10] ∧
      (∃ first second,
        queryAudit (.ok (auditAnswer { submissions with limit := 2, offset := 0 } unsortedEntries))
          = (first, 3, none) ∧
        queryAudit (.ok (auditAnswer { submissions with limit := 2, offset := 2 } unsortedEntries))
          = (second, 3, none) ∧
        (first ++ second).map AuditEntry.createdAt = [30, 20, 10]) ∧
      ∃ first second,
        listRuns (.ok (runAnswer { untouchedRuns with limit := 2, offset := 0 } unsortedRuns))
          = .ok (first, 3, none) ∧
        listRuns (.ok (runAnswer { untouchedRuns with limit := 2, offset := 2 } unsortedRuns))
          = .ok (second, 3, none) ∧
        (first ++ second).map WorkflowRun.updatedAt = [30, 20, 10] := by
  obtain ⟨haudit, hlisted⟩ := listings_paged unsortedEntries unsortedRuns (by decide) (by decide)
    submissions untouchedRuns
  have hkeys : ((unsortedEntries.filter submissions.matches).map AuditEntry.createdAt).Perm
      [30, 20, 10] := by decide
  have hmore : 2 < (unsortedEntries.filter submissions.matches).length := by decide
  obtain ⟨first, second, hfirst, hsecond, hpages⟩ :=
    haudit.two_pages hkeys (by decide) hmore (by decide)
  refine ⟨rfl, rfl, ⟨first, second, Except.ok.inj hfirst, Except.ok.inj hsecond, hpages⟩, ?_⟩
  exact hlisted.two_pages (by decide) (by decide) (by decide) (by decide)

/-- **The page behind the last row.** One row matches, and the page of size one at offset one
reports a total of zero, in both listings. -/
theorem pastEnd_reports_zero :
    (oneEntry.filter anyEntry.matches).length = 1 ∧ (oneRun.filter anyRun.matches).length = 1 ∧
      queryAudit (.ok (auditAnswer { anyEntry with limit := 1, offset := 1 } oneEntry))
        = ([], 0, none) ∧
      listRuns (.ok (runAnswer { anyRun with limit := 1, offset := 1 } oneRun))
        = .ok ([], 0, none) := by
  refine ⟨rfl, rfl, ?_, ?_⟩
  · refine (queryAudit_page anyEntry oneEntry Nat.one_pos 1).trans ?_
    rw [listingPage_of_length_le _ _ Nat.one_pos (by decide)]
    rfl
  · refine (listRuns_page anyRun oneRun Nat.one_pos 1).trans ?_
    rw [listingPage_of_length_le _ _ Nat.one_pos (by decide)]
    rfl

end Governance

import GovernanceCore.Framework.Tally
import GovernanceCore.Services.WorkflowRun
import GovernanceCore.Store.Listing

/-!
# The collector of failure statistics

`FailureStatsCollector.refresh` reads the recorded attempts of a time window back from the audit
trail and counts them in one pass, at three granularities: by strategy; by strategy and failure
category; by strategy, role and category. An entry that lacks what a granularity asks for is left
out there.

Each of the three maps is a tally (`Framework/Tally.lean`), with the key of the granularity.
-/

namespace Governance

open Framework

/-- A type assertion to a string, with its flag dropped: what is missing or no string reads as the
empty text. -/
def AuditContext.textAt (c : AuditContext) (key : String) : String :=
  match c.lookup key with
  | some (.text s) => s
  | _ => ""

namespace AuditEntry

/-- The strategy that an entry was recorded under. -/
def strategyUsed (e : AuditEntry) : String := e.context.textAt "strategy_used"

def agentRole (e : AuditEntry) : String := e.context.textAt "agent_role"

/-- `ExtractCategory` of package `routing` has the body of `extractCategory`. -/
def category (e : AuditEntry) : String := extractCategory (e.context.textAt "failure_code")

def isFailure (e : AuditEntry) : Bool := e.outcome = "failure" || e.outcome = "retry"

end AuditEntry

/-! ### The loop -/

def FailureRate.zero : FailureRate := ⟨0, 0, 0⟩

/-- `fr.Total++`, and `fr.Failures++` for a failure. -/
def FailureRate.note (fr : FailureRate) (e : AuditEntry) : FailureRate :=
  { fr with
    total := fr.total + 1
    failures := if e.isFailure then fr.failures + 1 else fr.failures }

/-- The maps that the loop of `refresh` fills. -/
structure Buckets where
  byStratRoleCat : List (StatsKey × FailureRate)
  byStratCat : List (StatsKey × FailureRate)
  byStrat : List (String × FailureRate)

/-- `m[k]` is read, counted up and written back. -/
def bump {K : Type} [DecidableEq K] (m : List (K × FailureRate)) (k : K) (e : AuditEntry) :
    List (K × FailureRate) :=
  put m k (((m.lookup k).getD .zero).note e)

/-- One round of the loop. -/
def Buckets.note (b : Buckets) (e : AuditEntry) : Buckets :=
  if e.strategyUsed = "" then b
  else
    { byStrat := bump b.byStrat e.strategyUsed e
      -- the two finer maps only get entries that have a category
      byStratCat := if e.category ≠ "" then bump b.byStratCat ⟨e.strategyUsed, "", e.category⟩ e
        else b.byStratCat
      byStratRoleCat := if e.agentRole ≠ "" ∧ e.category ≠ "" then
          bump b.byStratRoleCat ⟨e.strategyUsed, e.agentRole, e.category⟩ e
        else b.byStratRoleCat }

/-- The loops that compute the rates. -/
def computeRates {K : Type} (m : List (K × FailureRate)) : List (K × FailureRate) :=
  m.map fun kv => (kv.1, if 0 < kv.2.total then
    { kv.2 with rate := (kv.2.failures : ℚ) / kv.2.total } else kv.2)

/-- The snapshot of `refresh` for the entries that the query returns. -/
def snapshot (window : Duration) (entries : List AuditEntry) : FailureStats :=
  let b := entries.foldl Buckets.note ⟨[], [], []⟩
  ⟨computeRates b.byStratRoleCat, computeRates b.byStratCat, computeRates b.byStrat, window⟩

/-- The query of `refresh`: the entries for attempts after the cutoff, newest first, without a
limit. -/
def queryAttempts (cutoff : Timestamp) (s : Store) : List AuditEntry :=
  (s.auditEntries.rows.filter fun e => e.action = "attempt_registered" && cutoff < e.createdAt)
    |>.mergeSort fun a b => b.createdAt ≤ a.createdAt

/-- The filter of `refresh`. -/
def attemptsAfter (cutoff : Timestamp) : AuditFilter :=
  { taskID := none, workflowRunID := none, actor := none, action := some "attempt_registered",
    createdAfter := some cutoff, createdBefore := none, limit := 0, offset := 0 }

/-- These are the entries that `Query` returns for it. -/
theorem queryAudit_attemptsAfter (cutoff : Timestamp) (s : Store) :
    queryAudit (.ok (auditAnswer (attemptsAfter cutoff) s.auditEntries.rows))
      = (queryAttempts cutoff s, ((queryAttempts cutoff s).length : Int), none) := by
  have hmatches : (attemptsAfter cutoff).matches
      = fun e => decide (e.action = "attempt_registered") && decide (cutoff < e.createdAt) := by
    ext e
    simp [AuditFilter.matches, attemptsAfter]
  have hattempts : queryAttempts cutoff s = ordered AuditEntry.createdAt
      (s.auditEntries.rows.filter (attemptsAfter cutoff).matches) := by
    rw [hmatches]
    rfl
  rw [queryAudit_unlimited _ le_rfl, hattempts, length_ordered]

/-- `refresh` at `now`, when its query does not fail. -/
def refresh (now : Timestamp) (window : Duration) (s : Store) : FailureStats :=
  snapshot window (queryAttempts (now - window) s)

/-! ### The maps are tallies -/

namespace AuditEntry

/-- The keys of the three granularities. -/
def coarseKey (e : AuditEntry) : Option String :=
  if e.strategyUsed = "" then none else some e.strategyUsed

def middleKey (e : AuditEntry) : Option StatsKey :=
  if e.strategyUsed = "" then none
  else if e.category ≠ "" then some ⟨e.strategyUsed, "", e.category⟩ else none

def fineKey (e : AuditEntry) : Option StatsKey :=
  if e.strategyUsed = "" then none
  else if e.agentRole ≠ "" ∧ e.category ≠ "" then some ⟨e.strategyUsed, e.agentRole, e.category⟩
  else none

end AuditEntry

/-- The map of a granularity. -/
abbrev counts {K : Type} [DecidableEq K] (key : AuditEntry → Option K)
    (entries : List AuditEntry) : List (K × FailureRate) :=
  tally .zero FailureRate.note key entries

theorem foldl_note_byStrat (entries : List AuditEntry) :
    (entries.foldl Buckets.note ⟨[], [], []⟩).byStrat = counts AuditEntry.coarseKey entries := by
  refine (List.foldl_hom Buckets.byStrat fun b e => ?_).symm
  unfold Buckets.note tallyStep AuditEntry.coarseKey
  by_cases h : e.strategyUsed = ""
  · rw [if_pos h, if_pos h]
  · rw [if_neg h, if_neg h]
    rfl

theorem foldl_note_byStratCat (entries : List AuditEntry) :
    (entries.foldl Buckets.note ⟨[], [], []⟩).byStratCat = counts AuditEntry.middleKey entries := by
  refine (List.foldl_hom Buckets.byStratCat fun b e => ?_).symm
  unfold Buckets.note tallyStep AuditEntry.middleKey
  by_cases h : e.strategyUsed = ""
  · rw [if_pos h, if_pos h]
  rw [if_neg h, if_neg h]
  by_cases hc : e.category ≠ ""
  · simp only [if_pos hc]
    rfl
  · simp only [if_neg hc]

theorem foldl_note_byStratRoleCat (entries : List AuditEntry) :
    (entries.foldl Buckets.note ⟨[], [], []⟩).byStratRoleCat
      = counts AuditEntry.fineKey entries := by
  refine (List.foldl_hom Buckets.byStratRoleCat fun b e => ?_).symm
  unfold Buckets.note tallyStep AuditEntry.fineKey
  by_cases h : e.strategyUsed = ""
  · rw [if_pos h, if_pos h]
  rw [if_neg h, if_neg h]
  by_cases hc : e.agentRole ≠ "" ∧ e.category ≠ ""
  · simp only [if_pos hc]
    rfl
  · simp only [if_neg hc]

end Governance

import GovernanceCore.Concurrency.Contract
import GovernanceCore.Framework.Discipline
import GovernanceCore.Services.Footprint

/-!
# Does resume only resume paused runs?

`ResumeWorkflow` asks two things: that the run may move to `running`, and that its lease has
attempts left. The transition table also allows `running` from `policy_checked`, so for such a run
the lease is the only obstacle; and `StartWorkflow` stores the lease before it stores the run as
running. A `ResumeWorkflow` that comes in between starts the run (`resume_starts_run`), and so does
any later one when the second write of `StartWorkflow` fails.

`resume_reads_paused` is what holds when no `ResumeWorkflow` call finds a lease with attempts left
for a run that it has read as `policy_checked` (`NoEarlyLease`). The third source of `running`,
`approved`, is never stored: `ResolveApproval` passes through it on its copy.
-/

namespace Governance

open Framework

/-- When `ResumeWorkflow` looks for the lease of a run that it has read as `policy_checked`, no
lease with attempts left is stored for it. -/
def noEarlyLease (p : Pool Call Store Op Res Err Reply) (t : Thread Call Op Res Err Reply) :
    (o : Op) → Res o → Bool
  | .leaseFindByWorkflowRunID id, _ =>
    match t.call with
    | .resumeWorkflow _ _ _ =>
      !((lastSeen seenWorkflow t.log).any fun w => w.status = .policyChecked) ||
        !((p.store.executionLeases.lookup id).any ExecutionLease.hasRetryBudget)
    | _ => true
  | _, _ => true

/-- The runs in which no `ResumeWorkflow` finds a lease too early. -/
def NoEarlyLease : Discipline Call Store Op Res Err Reply :=
  fun p t o r => noEarlyLease p t o r = true

/-! ### Approved is never stored -/

variable {s s' : Store} {h : History}

theorem Advance.not_approved {w₀ w : WorkflowRun} (hadv : Advance h w₀ w)
    (hw₀ : w₀.status ≠ .approved) : w.status ≠ .approved := by
  cases hadv with
  | routed d reason actor now hd htask hs => nofun
  | policyChecked d actor now hd htask hs => nofun
  | plain target reason actor now hs hv ht =>
    rw [WorkflowRun.moved_status]
    rcases ht with rfl | rfl | rfl | rfl <;> nofun
  | leased target reason actor now hs hv ht hl =>
    rw [WorkflowRun.moved_status]
    rcases ht with rfl | rfl | rfl <;> nofun
  | approved actor now hs hl => nofun
  | same hs => exact hw₀

/-- No run is stored as approved. -/
def NoneApproved (s : Store) : Prop := ∀ w ∈ s.workflowRuns, w.status ≠ .approved

/-- No run that the event has shown was approved. -/
def SawUnapproved (e : Event Op Res) : Prop := ∀ w, seenWorkflow e = some w → w.status ≠ .approved

theorem NoneApproved.step {o : Op} (hI : NoneApproved s) (hsaw : ∀ e ∈ h, SawUnapproved e)
    (hperm : Permitted h o) (he : Effect s o s') : NoneApproved s' := by
  intro w hw
  cases he with
  | workflowSave hT =>
    rcases (Table.mem_insert hT).mp hw with hw | rfl
    · exact hI w hw
    · obtain ⟨id, taskID, now, rfl⟩ := hperm
      nofun
  | workflowUpdate v =>
    rcases Store.mem_updateWorkflow.mp hw with ⟨row, -, -, rfl⟩ | ⟨hw, -⟩
    · -- the status written is the one of the copy that the call has advanced
      obtain ⟨w₀, hlast, hadv⟩ := hperm
      obtain ⟨e, he, hsee⟩ := exists_of_lastSeen hlast
      exact hadv.not_approved (hsaw e he w₀ hsee)
    · exact hI w hw
  | _ => exact hI w hw

/-- **No call ever reads an approved run**, under every interleaving and every failure. -/
theorem reach_sawUnapproved {metrics : Bool} {p : Pool Call Store Op Res Err Reply}
    (hp : governance.Reach unguarded (Pool.start (Store.empty metrics)) p) :
    ∀ t ∈ p.threads, ∀ e ∈ t.log, SawUnapproved e := by
  refine (System.Reach.sound (I := NoneApproved) (V := fun e _ => SawUnapproved e) governance_keeps
    (fun w hw => absurd hw (Table.notMem_empty w)) ?_ hp).2
  intro h s o ch r s' hI hsaw hperm hex _
  have hI' := hI.step hsaw hperm (exec_effect hex)
  exact ⟨hI', fun w hw => hI' w (seenWorkflow_mem hex hw), fun e he => he⟩

/-! ### What a successful call has read -/

/-- The two reads with which a successful `ResumeWorkflow` call begins. -/
def Call.Resumed : Call → Except Err Reply → History → Prop
  | .resumeWorkflow id _ _, res, h => ∀ reply, res = .ok reply → ∃ w l rest,
      h = ⟨.workflowFindByID id, .ok w⟩ :: ⟨.leaseFindByWorkflowRunID id, .ok l⟩ :: rest ∧
        l.hasRetryBudget = true ∧ w.status ∈ WorkflowStatus.running.sources
  | _, _, _ => True

/-- Nothing is asked of single operations. -/
def anyOperation : Contract Op Res := ⟨fun _ _ => True, fun _ _ => True⟩

theorem Call.resumed_error (c : Call) (e : Err) (h : History) : c.Resumed (.error e) h := by
  cases c with
  | resumeWorkflow id reason actor =>
    intro reply hreply
    cases hreply
  | _ => trivial

theorem resumeWorkflow_reads (id : WorkflowRunID) (reason : String) (actor : ActorID) :
    (Call.resumeWorkflow id reason actor).body.Follows anyOperation
      (Call.resumeWorkflow id reason actor).Resumed [] := by
  refine ⟨trivial, fun r _ => ?_⟩
  cases r with
  | error e => exact Call.resumed_error _ _ _
  | ok w =>
    refine ⟨trivial, fun r _ => ?_⟩
    cases r with
    | error e => exact Call.resumed_error _ _ _
    | ok l =>
      change ((if l.hasRetryBudget = true then _ else _ : UseCase Unit) >>= _).Follows _ _ _
      by_cases hbudget : l.hasRetryBudget = true
      · rw [if_pos hbudget]
        refine ⟨trivial, fun (now : Timestamp) _ => ?_⟩
        change ((orWrap "resuming workflow" (w.resume reason actor now) >>= _) >>= _).Follows _ _ _
        cases hmove : w.resume reason actor now with
        | error e => exact Call.resumed_error _ _ _
        | ok w' =>
          -- `Resume` is a transition to `running` and nothing more: the table has three sources.
          obtain ⟨-, hvalid, -⟩ := WorkflowRun.transitionTo_eq_ok_iff.mp hmove
          refine ⟨trivial, fun r _ => ?_⟩
          cases r with
          | error e => exact Call.resumed_error _ _ _
          | ok u =>
            refine ⟨trivial, fun _ _ => ⟨trivial, fun _ _ => ?_⟩⟩
            intro reply _
            exact ⟨w, l, _, rfl, hbudget, WorkflowStatus.mem_sources nofun hvalid⟩
      · rw [if_neg hbudget]
        exact Call.resumed_error _ _ _

theorem governance_resumed : governance.Keeps anyOperation Call.Resumed where
  answers := fun _ => trivial
  follows := by
    intro c
    have hany : c.body.Follows anyOperation (fun _ _ => True) [] :=
      c.body_footprint.follows (fun _ _ _ => trivial) []
    cases c with
    | resumeWorkflow id reason actor => exact resumeWorkflow_reads id reason actor
    | _ => exact hany

/-! ### The lease comes too late -/

/-- A `ResumeWorkflow` call that has read its run as `policy_checked` has not found a lease with
attempts left. -/
def FoundNoLease (t : Thread Call Op Res Err Reply) : Prop :=
  ∀ id reason actor w l rest, t.call = .resumeWorkflow id reason actor →
    t.log = ⟨.workflowFindByID id, .ok w⟩ :: ⟨.leaseFindByWorkflowRunID id, .ok l⟩ :: rest →
    w.status = .policyChecked → l.hasRetryBudget = false

/-- **A step keeps it**: the lookup of the lease is the one that matters. -/
theorem FoundNoLease.advance {p : Pool Call Store Op Res Err Reply}
    {t : Thread Call Op Res Err Reply} {o : Op} {prog : UseCase Reply} {ch : Choice} {r : Res o}
    (ht : FoundNoLease t) (hex : exec ch p.store o = (r, s')) (hD : NoEarlyLease p t o r) :
    FoundNoLease ⟨t.call, prog, t.log ++ [⟨o, r⟩]⟩ := by
  intro id reason actor w l rest hcall hlog hchecked
  change t.call = _ at hcall
  change t.log ++ [⟨o, r⟩] = _ at hlog
  cases hbefore : t.log with
  | nil =>
    rw [hbefore] at hlog
    cases hlog
  | cons e₁ tail =>
    rw [hbefore] at hlog
    cases tail with
    | nil =>
      -- the run has been read, and this is the lookup of its lease
      cases hlog
      obtain ⟨-, hfound⟩ := query_eq hex
      simpa [NoEarlyLease, noEarlyLease, hcall, hbefore, lastSeen, seenWorkflow, hchecked,
        hfound l rfl] using hD
    | cons e₂ tail =>
      have hsame : t.log
          = ⟨.workflowFindByID id, .ok w⟩ :: ⟨.leaseFindByWorkflowRunID id, .ok l⟩ :: tail := by
        rw [hbefore]
        injection hlog with h₁ hrest
        injection hrest with h₂
        rw [h₁, h₂]
      exact ht id reason actor w l tail hcall hsame hchecked

/-- The call is a `ResumeWorkflow` that has returned without an error. -/
def hasResumed (t : Thread Call Op Res Err Reply) : Bool :=
  match t.call, t.prog with
  | .resumeWorkflow _ _ _, .ret _ => true
  | _, _ => false

/-- The status of the run with whose lookup a call has begun. -/
def readStatus : History → Option WorkflowStatus
  | ⟨.workflowFindByID _, .ok w⟩ :: _ => some w.status
  | _ => none

/-- A call that has resumed a run has read a status from which a run may start, and a lease with
attempts left. -/
theorem reads_of_hasResumed {t : Thread Call Op Res Err Reply}
    (ht : t.prog.Follows anyOperation t.call.Resumed t.log) (hres : hasResumed t = true) :
    ∃ id reason actor w l rest, t.call = .resumeWorkflow id reason actor ∧
      t.log = ⟨.workflowFindByID id, .ok w⟩ :: ⟨.leaseFindByWorkflowRunID id, .ok l⟩ :: rest ∧
      l.hasRetryBudget = true ∧ w.status ∈ WorkflowStatus.running.sources := by
  unfold hasResumed at hres
  split at hres
  · next id reason actor reply hcall hprog =>
    rw [hprog, hcall] at ht
    obtain ⟨w, l, rest, hlog, hbudget, hstatus⟩ := ht reply rfl
    exact ⟨id, reason, actor, w, l, rest, hcall, hlog, hbudget, hstatus⟩
  · cases hres

/-- **Resume only resumes paused runs, as long as no lease comes too early.** In every pool that any
interleaving of any calls reaches from the empty store, in which no `ResumeWorkflow` call that has
read its run as `policy_checked` finds a lease with attempts left, whatever fails, a
`ResumeWorkflow` call that has returned without an error has read the status `paused`. -/
theorem resume_reads_paused {metrics : Bool} {p : Pool Call Store Op Res Err Reply}
    (hp : governance.ReachUnder NoEarlyLease (Pool.start (Store.empty metrics)) p)
    {t : Thread Call Op Res Err Reply} (ht : t ∈ p.threads) (hres : hasResumed t = true) :
    readStatus t.log = some .paused := by
  have hfound : ∀ t ∈ p.threads, FoundNoLease t := by
    refine System.ReachUnder.invariant (J := fun p => ∀ t ∈ p.threads, FoundNoLease t)
      governance_resumed System.inContract_start (fun t ht => absurd ht List.not_mem_nil) ?_ ?_ hp
    · intro p c hJ t ht
      rcases Pool.mem_spawn.mp ht with ht | rfl
      · exact hJ t ht
      · intro id reason actor w l rest _ hlog
        cases hlog
    · intro p i t o k ch r s' _ hJ hi _ _ hex hD t' ht'
      rcases Pool.mem_advance ht' with ht' | rfl
      · exact hJ t' ht'
      · exact (hJ t (List.mem_of_getElem? hi)).advance hex hD
  have hfollows := System.Reach.inContract governance_resumed System.inContract_start hp.reach t ht
  obtain ⟨id, reason, actor, w, l, rest, hcall, hlog, hbudget, hsource⟩ :=
    reads_of_hasResumed hfollows hres
  have hunapproved : w.status ≠ .approved := by
    refine reach_sawUnapproved hp.reach t ht ⟨.workflowFindByID id, .ok w⟩ ?_ w rfl
    rw [hlog]
    exact List.mem_cons_self
  -- of the three sources of `running` one is left
  have hpaused : w.status = .paused := by
    simp only [WorkflowStatus.sources, List.mem_cons, List.not_mem_nil, or_false] at hsource
    rcases hsource with hchecked | happroved | hpaused
    · have hnone := hfound t ht id reason actor w l rest hcall hlog hchecked
      rw [hbudget] at hnone
      cases hnone
    · exact absurd happroved hunapproved
    · exact hpaused
  rw [hlog]
  exact congrArg some hpaused

/-- A run that was paused and resumed. -/
theorem resume_reads_paused_run : ∃ p : Pool Call Store Op Res Err Reply,
    governance.ReachUnder NoEarlyLease (Pool.start (Store.empty true)) p ∧
    ∃ t ∈ p.threads, hasResumed t = true ∧ readStatus t.log = some .paused := by
  have hrun : (governance.playUnder noEarlyLease (Pool.start (Store.empty true)) (runningSchedule ++
      whole 'e' 4 (.pauseWorkflow firstRun "wait" systemActor) 4 ++
      whole 'f' 5 (.resumeWorkflow firstRun "go on" systemActor) 6)).map (fun p =>
        p.threads.any hasResumed) = some true := by
    decide +kernel
  obtain ⟨p, hplay, hany⟩ := Option.map_eq_some_iff.mp hrun
  obtain ⟨t, ht, hres⟩ := List.any_eq_true.mp hany
  have hp : governance.ReachUnder NoEarlyLease (Pool.start (Store.empty true)) p :=
    System.playUnder_reachUnder (fun _ _ _ _ hd => hd) hplay .start
  exact ⟨p, hp, t, ht, hres, resume_reads_paused hp ht hres⟩

/-! ### The race -/

/-- `StartWorkflow` has stored the lease of a run and not yet the run itself when `ResumeWorkflow`
comes. -/
def resumedMeanwhile : List (System.Action Call Choice) :=
  checkedSchedule "edit" ++ .spawn (.startWorkflow firstTask) :: advances 'd' 3 0 7 ++
    whole 'e' 4 (.resumeWorkflow firstRun "go on" systemActor) 6

/-- **A run is started by a resume**: it was read as `policy_checked`. -/
theorem resume_starts_run : ¬ ∀ p : Pool Call Store Op Res Err Reply,
    governance.Reach unguarded (Pool.start (Store.empty true)) p → ∀ t ∈ p.threads,
      hasResumed t = true → readStatus t.log = some .paused := by
  have hrun : (carryOut resumedMeanwhile).map (fun p => p.threads.any fun t =>
      hasResumed t && readStatus t.log = some .policyChecked) = some true := by
    decide +kernel
  obtain ⟨p, hplay, hany⟩ := Option.map_eq_some_iff.mp hrun
  obtain ⟨t, ht, hres⟩ := List.any_eq_true.mp hany
  obtain ⟨hres, hread⟩ := Bool.and_eq_true_iff.mp hres
  intro hpaused
  have hstatus := hpaused p (carryOut_reach hplay) t ht hres
  rw [of_decide_eq_true hread] at hstatus
  cases hstatus

end Governance

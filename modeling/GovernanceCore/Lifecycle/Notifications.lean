import GovernanceCore.Lifecycle.Simulation

/-!
# Consumers are notified exactly once

Notifications and terminal metrics are issued by hand at the end of five services. They nevertheless
follow the transition log of the run: every transition into a status brings the notifications of
that status (`notesOf`) and nothing else does.

That is one lemma about the machine (`Announced.moved`), which every rule that moves the run is a
case of; the counts of the main theorem are readings of it.
-/

namespace Governance

open Framework

/-- The notifications that a transition into a status brings. -/
def notesOf : WorkflowStatus → List Note
  | .running => [.executionReady]
  | .awaitingApproval => [.approvalRequired]
  | .completed | .failed | .killed | .quarantined => [.workflowTerminated]
  | _ => []

/-- The number of transitions into a status in a transition log. -/
def entries (log : List WorkflowTransition) (target : WorkflowStatus) : Nat :=
  log.countP fun t => t.target = target

/-- The terminal emissions for a run in a status, when instruments are configured. -/
def endingsFor (metrics : Bool) (status : WorkflowStatus) : Option Nat :=
  if metrics then some (if status.isTerminal then 1 else 0) else none

variable {strict metrics : Bool} {id : WorkflowRunID} {c : Call} {ok : Bool} {v v' : View}

/-- What has been issued for a run agrees with its status and its transition log. -/
structure Announced (metrics : Bool) (notes : List Note) (endings : Option Nat)
    (status : WorkflowStatus) (log : List WorkflowTransition) : Prop where
  ready : notes.count .executionReady = entries log .running
  required : notes.count .approvalRequired = entries log .awaitingApproval
  /-- A run that has not ended has not been announced as ended. -/
  going : status.isTerminal = false → .workflowTerminated ∉ notes
  /-- The end of a run is announced once, and nothing is announced after it. -/
  ended : status.isTerminal = true →
    ∃ before, notes = before ++ [.workflowTerminated] ∧ .workflowTerminated ∉ before
  endings : endings = endingsFor metrics status

/-! ### One transition -/

theorem entries_concat (log : List WorkflowTransition) (t : WorkflowTransition)
    (status : WorkflowStatus) :
    entries (log ++ [t]) status = entries log status + if t.target = status then 1 else 0 := by
  unfold entries
  rw [List.countP_append, List.countP_singleton]
  simp only [decide_eq_true_eq]

theorem count_ready_notesOf (target : WorkflowStatus) :
    (notesOf target).count .executionReady = if target = .running then 1 else 0 := by
  cases target <;> rfl

theorem count_required_notesOf (target : WorkflowStatus) :
    (notesOf target).count .approvalRequired = if target = .awaitingApproval then 1 else 0 := by
  cases target <;> rfl

theorem notesOf_of_terminal {target : WorkflowStatus} (h : target.isTerminal = true) :
    notesOf target = [.workflowTerminated] := by
  cases target <;> first | rfl | cases h

theorem terminated_notMem_notesOf {target : WorkflowStatus} (h : target.isTerminal = false) :
    .workflowTerminated ∉ notesOf target := by
  cases target <;> simp [notesOf, WorkflowStatus.isTerminal] at h ⊢

/-- **A transition of a run that has not ended keeps the account**, when exactly the notifications
of its target are issued and the end is counted with a terminal target. -/
theorem Announced.moved {notes notes' : List Note} {endings endings' : Option Nat}
    {status status' : WorkflowStatus} {log log' : List WorkflowTransition} {t : WorkflowTransition}
    (h : Announced metrics notes endings status log) (hs : status.isTerminal = false)
    (hlog : log' = log ++ [t]) (hstatus : status' = t.target)
    (hnotes : notes' = notes ++ notesOf t.target)
    (hendings : endings' = if t.target.isTerminal then endings.map (· + 1) else endings) :
    Announced metrics notes' endings' status' log' where
  ready := by
    rw [hnotes, hlog, List.count_append, h.ready, count_ready_notesOf, entries_concat]
  required := by
    rw [hnotes, hlog, List.count_append, h.required, count_required_notesOf, entries_concat]
  going ht hmem := by
    rw [hstatus] at ht
    rw [hnotes] at hmem
    rcases List.mem_append.mp hmem with hmem | hmem
    · exact h.going hs hmem
    · exact terminated_notMem_notesOf ht hmem
  ended ht := by
    -- the run had not ended, so this is the first announcement of an end
    rw [hstatus] at ht
    rw [notesOf_of_terminal ht] at hnotes
    exact ⟨notes, hnotes, h.going hs⟩
  endings := by
    rw [hendings, h.endings, hstatus]
    -- the count was zero before, when there is one
    unfold endingsFor
    rw [hs]
    cases metrics <;> cases t.target.isTerminal <;> rfl

/-! ### One step -/

/-- What has been issued for the run that a view shows. -/
structure Notified (metrics : Bool) (v : View) : Prop where
  missing : v.run = none → v.notes = [] ∧ v.endings = endingsFor metrics .created
  announced : ∀ w, v.run = some w → Announced metrics v.notes v.endings w.status w.transitions

/-- A run that has just been created has nothing to announce. -/
theorem announced_created : Announced metrics [] (endingsFor metrics .created) .created [] where
  ready := rfl
  required := rfl
  going _ h := by cases h
  ended h := by cases h
  endings := rfl

/-- It is enough to look at the run that a rule has written. -/
theorem Notified.of_run {u : View} {w : WorkflowRun} (hw : u.run = some w)
    (h : Announced metrics u.notes u.endings w.status w.transitions) : Notified metrics u where
  missing hnone := absurd hnone (View.run_ne_none hw)
  announced := View.forall_run hw h

theorem Notified.step (hI : Notified metrics v) (hstep : LifeStep strict id c ok v v') :
    Notified metrics v' := by
  have hsilent : v.notes = v.notes ++ [] := (List.append_nil _).symm
  cases hstep with
  | quiet hc hd ht => exact ⟨hI.missing, hI.announced⟩
  | @routed _ _ w _ _ _ _ _ _ hc hs hid hrun ht =>
    -- a run that the call has just created starts with an empty account
    have hbefore : Announced metrics v.notes v.endings w.status w.transitions := by
      rcases hrun with hrun | ⟨hnone, t, now, rfl⟩
      · exact hI.announced w hrun
      · obtain ⟨hnotes, hendings⟩ := hI.missing hnone
        rw [hnotes, hendings]
        exact announced_created
    exact .of_run rfl (hbefore.moved (by rw [hs]; rfl) rfl rfl hsilent rfl)
  | checked hc hrun hs hd hnew ht =>
    exact .of_run rfl ((hI.announced _ hrun).moved (by rw [hs]; rfl) rfl rfl hsilent rfl)
  | denied hc hrun hs hv ht => exact .of_run rfl ((hI.announced _ hrun).moved hs rfl rfl rfl rfl)
  | awaiting hc hrun hs hv hd ha ht =>
    exact .of_run rfl ((hI.announced _ hrun).moved hs rfl rfl rfl rfl)
  | started hc hrun hl hs hv hd ht =>
    exact .of_run rfl ((hI.announced _ hrun).moved hs rfl rfl rfl rfl)
  | completed hc hrun hl hactive hs hv ht =>
    exact .of_run rfl ((hI.announced _ hrun).moved hs rfl rfl rfl rfl)
  | retried hc hrun hl hactive hs hstatus ht => exact ⟨hI.missing, hI.announced⟩
  | quarantined hc hrun hl hactive hs hbudget hv ht =>
    exact .of_run rfl ((hI.announced _ hrun).moved hs rfl rfl rfl rfl)
  | paused hc hrun hs hv ht =>
    exact .of_run rfl ((hI.announced _ hrun).moved hs rfl rfl hsilent rfl)
  | resumed hc hrun hl hbudget hs hv ht =>
    exact .of_run rfl ((hI.announced _ hrun).moved hs rfl rfl rfl rfl)
  | killed hc hrun hs ht => exact .of_run rfl ((hI.announced _ hrun).moved hs rfl rfl rfl rfl)
  | @approved _ _ w _ _ actor now _ hc hrun hl hs ha ht =>
    -- two transitions in one call; only the second one is announced
    have hgranted : Announced metrics v.notes v.endings .approved
        (w.moved .approved "approval granted" actor now).transitions :=
      (hI.announced _ hrun).moved (by rw [hs]; rfl) rfl rfl hsilent rfl
    exact .of_run rfl (hgranted.moved rfl rfl rfl rfl rfl)
  | rejected hc hrun hs hv ha ht =>
    exact .of_run rfl ((hI.announced _ hrun).moved hs rfl rfl rfl rfl)
  | orphaned hc ha hstatus hrun ht => exact ⟨hI.missing, hI.announced⟩

/-! ### Whole sessions -/

/-- Nothing follows the one announcement of the end. -/
theorem Announced.nothing_after {notes before after : List Note} {endings : Option Nat}
    {status : WorkflowStatus} {log : List WorkflowTransition}
    (h : Announced metrics notes endings status log)
    (hnotes : notes = before ++ .workflowTerminated :: after) : after = [] := by
  have hmem : Note.workflowTerminated ∈ notes := by
    rw [hnotes]
    exact List.mem_append_right _ List.mem_cons_self
  cases hs : status.isTerminal with
  | false => exact absurd hmem (h.going hs)
  | true =>
    obtain ⟨first, hfirst, hnot⟩ := h.ended hs
    rcases List.eq_nil_or_concat after with hnil | ⟨init, last, rfl⟩
    · exact hnil
    · -- the announcement would stand before the last notification
      have hsplit : before ++ .workflowTerminated :: init ++ [last]
          = first ++ [Note.workflowTerminated] := by
        rw [← hfirst, hnotes]
        simp
      have hinit := (List.append_inj' hsplit rfl).1
      refine absurd ?_ hnot
      rw [← hinit]
      exact List.mem_append_right _ List.mem_cons_self

theorem Announced.count_terminated {notes : List Note} {endings : Option Nat}
    {status : WorkflowStatus} {log : List WorkflowTransition}
    (h : Announced metrics notes endings status log) :
    notes.count .workflowTerminated = if status.isTerminal then 1 else 0 := by
  cases hs : status.isTerminal with
  | false => exact List.count_eq_zero.mpr (h.going hs)
  | true =>
    obtain ⟨first, hfirst, hnot⟩ := h.ended hs
    rw [hfirst, List.count_append, List.count_eq_zero.mpr hnot]
    rfl

/-- **Consumers are notified exactly once per lifecycle event.** After any calls made one after the
other without a repository failure: the end of a stored run was notified once if its status is
terminal and not at all otherwise, and so was its terminal metric when instruments are configured;
there is one notification of readiness for each transition into running and one request for an
approval for each transition into awaiting approval; and nothing was notified after the end. -/
theorem notified_exactly_once {tr : List (Call × Except Err Reply)} {s : Store}
    (hs : governance.Session (accepts false) System.anyCall (Store.empty metrics) tr s)
    (w : WorkflowRun) (hw : w ∈ s.workflowRuns) :
    (notesFor w.id s).count .workflowTerminated = (if w.status.isTerminal then 1 else 0) ∧
    endingsOf w.id s
      = (if metrics then some (if w.status.isTerminal then 1 else 0) else none) ∧
    (notesFor w.id s).count .executionReady
      = w.transitions.countP (fun t => t.target = .running) ∧
    (notesFor w.id s).count .approvalRequired
      = w.transitions.countP (fun t => t.target = .awaitingApproval) ∧
    ∀ before after, notesFor w.id s = before ++ .workflowTerminated :: after → after = [] := by
  have hlife : Life false metrics w.id (fun _ _ => True) tr (view w.id s) :=
    session_life w.id (fun _ _ _ => trivial) hs
  have hnotified : Notified metrics (view w.id s) := by
    refine hlife.invariant ⟨fun _ => ⟨rfl, rfl⟩, fun w hw => ?_⟩ fun hI _ hstep => hI.step hstep
    cases hw
  have ha := hnotified.announced w (view_run hw)
  exact ⟨ha.count_terminated, ha.endings, ha.ready, ha.required, fun _ _ h => ha.nothing_after h⟩

/-- A run that was approved, paused, resumed and completed. -/
theorem notified_exactly_once_completed : ∃ tr s,
    governance.Session (accepts false) System.anyCall (Store.empty true) tr s ∧
    ∃ w ∈ s.workflowRuns, w.status = .completed ∧
      (notesFor w.id s).count .workflowTerminated = (if w.status.isTerminal then 1 else 0) ∧
      endingsOf w.id s
        = (if true then some (if w.status.isTerminal then 1 else 0) else none) ∧
      (notesFor w.id s).count .executionReady
        = w.transitions.countP (fun t => t.target = .running) ∧
      (notesFor w.id s).count .approvalRequired
        = w.transitions.countP (fun t => t.target = .awaitingApproval) ∧
      ∀ before after, notesFor w.id s = before ++ .workflowTerminated :: after → after = [] := by
  have hmade : (makeCalls false (fun _ _ => true) (approvedCalls ++
      [(.pauseWorkflow firstRun "wait" systemActor, choices 'f'),
        (.resumeWorkflow firstRun "go" systemActor, choices 'g'),
        (.registerAttempt firstRun { status := .success }, choices 'h')])).map
      (fun st => st.2.statuses) = some [.completed] := by decide +kernel
  obtain ⟨st, hst, hstatuses⟩ := Option.map_eq_some_iff.mp hmade
  have hs : governance.Session (accepts false) System.anyCall (Store.empty true) st.1 st.2 :=
    makeCalls_session (fun _ _ _ => trivial) hst
  obtain ⟨w, hw, hcompleted⟩ := Store.exists_of_statuses hstatuses
  exact ⟨st.1, st.2, hs, w, hw, hcompleted, notified_exactly_once hs w hw⟩

end Governance

import GovernanceCore.Lifecycle.Simulation

/-!
# The audit trail determines the status

Every service writes its audit entries by hand, after the row of the workflow run. When neither a
repository nor the recorder fails, the entries that carry the id of a run are nevertheless a
complete log of its status: replaying them from the first to the last gives the stored one.

The proof is the simulation of the log by the machine. Each rule of `LifeStep` says which entries it
adds, and the status after them does not depend on the status before, except for the entry of an
attempt that does not end the run.
-/

namespace Governance

open Framework

/-- The status that an entry, given by its action and its outcome, stands for. -/
def statusAfter (status : WorkflowStatus) : String × String → WorkflowStatus
  | ("task_routed", _) => .routed
  | ("policy_evaluated", _) => .policyChecked
  | ("workflow_started", "denied") => .failed
  | ("workflow_started", "awaiting_approval") => .awaitingApproval
  | ("workflow_started", "running") => .running
  | ("approval_resolved", "approved") => .running
  | ("approval_resolved", "denied") => .failed
  | ("workflow_paused", _) => .paused
  | ("workflow_resumed", _) => .running
  | ("workflow_killed", _) => .killed
  | ("attempt_registered", "success") => .completed
  | ("workflow_quarantined", _) => .quarantined
  -- an attempt that is not a success, and every action that is not about a run
  | _ => status

/-- The status at the end of a trail, which starts at created. -/
def statusOf (trail : List (String × String)) : WorkflowStatus := trail.foldl statusAfter .created

variable {metrics : Bool} {id : WorkflowRunID} {c : Call} {ok : Bool} {v v' : View}

/-- The trail of a run ends in its status; before there is a run there is no trail. -/
structure Traced (v : View) : Prop where
  missing : v.run = none → v.trail = []
  status : ∀ w, v.run = some w → statusOf v.trail = w.status

/-- New entries continue the status of the trail before them. -/
theorem Logged.statusOf {entries trail : List (String × String)}
    (ht : Logged true v entries trail) :
    statusOf trail = entries.foldl statusAfter (statusOf v.trail) := by
  unfold Governance.statusOf
  rw [ht rfl, List.foldl_append]

/-- A rule that writes the run and entries which stand for its new status. -/
theorem Traced.moved {w : WorkflowRun} {u : View} {entries : List (String × String)}
    (ht : Logged true v entries u.trail) (hrun : u.run = some w)
    (hlast : ∀ status, entries.foldl statusAfter status = w.status) : Traced u where
  missing hnone := absurd hnone (View.run_ne_none hrun)
  status := by
    refine View.forall_run hrun ?_
    rw [ht.statusOf]
    exact hlast _

/-- A rule that leaves the run and writes entries which stand for no change. -/
theorem Traced.kept {u : View} {entries : List (String × String)} (hI : Traced v)
    (ht : Logged true v entries u.trail) (hrun : u.run = v.run)
    (hnone : v.run = none → entries = [])
    (hlast : ∀ status, entries.foldl statusAfter status = status) : Traced u where
  missing hu := by
    rw [hrun] at hu
    rw [ht rfl, hI.missing hu, hnone hu, List.nil_append]
  status w hw := by
    rw [hrun] at hw
    rw [ht.statusOf, hlast, hI.status w hw]

/-- A registered attempt that is not a success stands for no change. -/
theorem statusAfter_attempt {outcome : String} (h : outcome ≠ "success") (status : WorkflowStatus) :
    statusAfter status ("attempt_registered", outcome) = status := by
  unfold statusAfter
  split <;> simp_all

theorem Traced.step (hI : Traced v) (hstep : LifeStep true id c ok v v') : Traced v' := by
  -- every entry but that of an attempt fixes the status, so replaying it is a computation
  cases hstep with
  | quiet hc hd ht => exact hI.kept ht rfl (fun _ => rfl) fun _ => rfl
  | routed hc hs hid hrun ht => exact Traced.moved ht rfl fun _ => rfl
  | checked hc hrun hs hd hnew ht => exact Traced.moved ht rfl fun _ => rfl
  | denied hc hrun hs hv ht => exact Traced.moved ht rfl fun _ => rfl
  | awaiting hc hrun hs hv hd ha ht => exact Traced.moved ht rfl fun _ => rfl
  | started hc hrun hl hs hv hd ht => exact Traced.moved ht rfl fun _ => rfl
  | completed hc hrun hl hactive hs hv ht => exact Traced.moved ht rfl fun _ => rfl
  | retried hc hrun hl hactive hs hstatus ht =>
    refine hI.kept ht rfl (fun hnone => absurd hnone (View.run_ne_none hrun)) fun status =>
      statusAfter_attempt ?_ status
    rcases hstatus with ⟨rfl, -⟩ | rfl
    · decide
    · decide
  | quarantined hc hrun hl hactive hs hbudget hv ht => exact Traced.moved ht rfl fun _ => rfl
  | paused hc hrun hs hv ht => exact Traced.moved ht rfl fun _ => rfl
  | resumed hc hrun hl hbudget hs hv ht => exact Traced.moved ht rfl fun _ => rfl
  | killed hc hrun hs ht => exact Traced.moved ht rfl fun _ => rfl
  | approved hc hrun hl hs ha ht => exact Traced.moved ht rfl fun _ => rfl
  | rejected hc hrun hs hv ha ht => exact Traced.moved ht rfl fun _ => rfl
  | orphaned hc ha hstatus hrun ht => exact hI.kept ht rfl (fun _ => rfl) fun _ => rfl

/-- **The audit trail determines the workflow status.** After any calls made one after the other
without a repository or audit failure, replaying the entries that carry the id of a stored run, in
the order in which they were appended, gives its stored status. -/
theorem audit_trail_determines_status {tr : List (Call × Except Err Reply)} {s : Store}
    (hs : governance.Session (accepts true) System.anyCall (Store.empty metrics) tr s)
    (w : WorkflowRun) (hw : w ∈ s.workflowRuns) :
    (auditTrail w.id s).foldl statusAfter .created = w.status := by
  have hlife : Life true metrics w.id (fun _ _ => True) tr (view w.id s) :=
    session_life w.id (fun _ _ _ => trivial) hs
  have htraced : Traced (view w.id s) := by
    refine hlife.invariant ⟨fun _ => rfl, fun w hw => ?_⟩ fun hI _ hstep => hI.step hstep
    cases hw
  exact htraced.status w (view_run hw)

/-- A run that was paused, resumed and has failed three times. -/
theorem audit_trail_determines_status_quarantined : ∃ tr s,
    governance.Session (accepts true) System.anyCall (Store.empty true) tr s ∧
    ∃ w ∈ s.workflowRuns, w.status = .quarantined ∧
      (auditTrail w.id s).foldl statusAfter .created = w.status := by
  have hmade : (makeCalls true (fun _ _ => true) (runningCalls ++
      [(.pauseWorkflow firstRun "wait" systemActor, choices 'e'),
        (.resumeWorkflow firstRun "go" systemActor, choices 'f'),
        (.registerAttempt firstRun toolFailure, choices 'g'),
        (.registerAttempt firstRun toolFailure, choices 'h'),
        (.registerAttempt firstRun toolFailure, choices 'i')])).map
      (fun st => st.2.statuses) = some [.quarantined] := by decide +kernel
  obtain ⟨st, hst, hstatuses⟩ := Option.map_eq_some_iff.mp hmade
  have hs : governance.Session (accepts true) System.anyCall (Store.empty true) st.1 st.2 :=
    makeCalls_session (fun _ _ _ => trivial) hst
  obtain ⟨w, hw, hq⟩ := Store.exists_of_statuses hstatuses
  exact ⟨st.1, st.2, hs, w, hw, hq, audit_trail_determines_status hs w hw⟩

end Governance

import GovernanceCore.Lifecycle.Rules

/-!
# Every call is a step of the machine

For each of the nine services this module walks through its program with the rules for views and
arrives at a `LifeStep`. The two cases at the end of each walk are whether the call was about this
run or about another one.

`session_life` puts it together: along every session, each workflow run goes through a `Life`.
-/

namespace Governance

open Framework

variable {α β : Type} {strict : Bool} {id : WorkflowRunID}

/-! ### Submitting, routing and policy evaluation -/

theorem submitTask_step (input : SubmitTaskInput) (v : View) :
    Sees strict id (StepOf strict id (.submitTask input) v) (submitTask input) v := by
  refine Sees.skip (fun _ _ h => h) fun (tID : TaskID) => ?_
  refine Sees.skip (fun _ _ h => h) fun (now : Timestamp) => Sees.skip (fun _ _ h => h) fun _ => ?_
  refine Sees.orWrap (fun _ _ => StepOf.refused) fun t _ => ?_
  refine Sees.skip (fun _ _ h => h) fun _ => Sees.orFail (fun _ _ => StepOf.refused) fun _ _ => ?_
  refine Sees.recordOther fun _ trail ht => ?_
  exact Sees.orFail (fun _ _ _ => StepOf.elsewhere rfl ht) fun _ _ => StepOf.elsewhere rfl ht

/-- The subtasks come with audit entries of their own, about no run. -/
theorem createSubtasks_sees (parent : Task) (now : Timestamp) (suffixes : List String) (v : View) :
    Sees strict id (fun _ v' => ∃ trail, v' = { v with trail } ∧ (strict = true → trail = v.trail))
      (createSubtasks parent now suffixes) v := by
  -- the view before each round is the one before it with another trail
  induction suffixes generalizing v with
  | nil => exact ⟨v.trail, rfl, fun _ => rfl⟩
  | cons suffix rest ih =>
    refine Sees.skip (fun _ _ h => h) fun (tID : TaskID) => ?_
    refine Sees.orWrap (fun _ _ _ => ⟨v.trail, rfl, fun _ => rfl⟩) fun t _ => ?_
    refine Sees.skip (fun _ _ h => h) fun _ => ?_
    refine Sees.orFail (fun _ _ _ => ⟨v.trail, rfl, fun _ => rfl⟩) fun _ _ => ?_
    refine Sees.recordOther fun _ trail ht => ?_
    refine Sees.orFail (fun _ _ _ => ⟨trail, rfl, ht⟩) fun _ _ => ?_
    refine Program.wp_mono ?_ (ih { v with trail })
    rintro res _ ⟨trail', rfl, ht'⟩
    exact ⟨trail', rfl, fun h => (ht' h).trans (ht h)⟩

/-- `run` is the row of the view when `RouteTask` goes on with `w`: it was there, or is new. -/
structure Provided (id : WorkflowRunID) (v : View) (w : WorkflowRun) (run : Option WorkflowRun) :
    Prop where
  own : w.id = id → run = some w
  other : w.id ≠ id → run = v.run
  source : w.id = id → v.run = some w ∨ v.run = none ∧ ∃ t now, w = newWorkflowRun id t now
  /-- A run that `RouteTask` has just created can be routed. -/
  fresh : run = v.run ∨ w.status = .created

theorem loadOrCreateWorkflow_sees (taskID : TaskID) (now : Timestamp) (v : View) :
    Sees strict id (fun res v₁ => ∃ w run, res = .ok w ∧ v₁ = { v with run } ∧ Provided id v w run)
      (loadOrCreateWorkflow taskID now) v := by
  refine Sees.act fun r v₁ hr => ?_
  cases r with
  | ok w =>
    obtain ⟨rfl, -, hrun⟩ := hr
    exact ⟨w, v₁.run, rfl, rfl, hrun, fun _ => rfl, fun hi => Or.inl (hrun hi), Or.inl rfl⟩
  | error e =>
    obtain rfl : v₁ = v := hr
    refine Sees.skip (fun _ _ h => h) fun (wfID : WorkflowRunID) => ?_
    refine Sees.act fun r v₂ hr => ?_
    cases r with
    | error e => cases hr
    | ok u =>
      have hr : if wfID = id then
          v₁.run = none ∧ v₂ = { v₁ with run := some (newWorkflowRun wfID taskID now) }
        else v₂ = v₁ := hr
      -- a generated id may be the one this view is about, and then the run starts here
      by_cases hi : wfID = id
      · rw [if_pos hi] at hr
        obtain ⟨hnone, rfl⟩ := hr
        subst hi
        exact ⟨_, _, rfl, rfl, fun _ => rfl, fun h => absurd rfl h,
          fun _ => Or.inr ⟨hnone, taskID, now, rfl⟩, Or.inr rfl⟩
      · rw [if_neg hi] at hr
        subst hr
        exact ⟨_, v₂.run, rfl, rfl, fun h => absurd h hi, fun _ => rfl, fun h => absurd h hi,
          Or.inr rfl⟩

theorem StepOf.routed {taskID : TaskID} {v : View} {w : WorkflowRun} {run : Option WorkflowRun}
    {res : Except Err α} {rd : RoutingDecisionID} {reason outcome : String} {actor : ActorID}
    {now : Timestamp} {trail : List (String × String)} (hp : Provided id v w run)
    (hs : w.status = .created) (ht : strict = true → trail
      = if w.id = id then v.trail ++ [("task_routed", outcome)] else v.trail) :
    StepOf strict id (.routeTask taskID) v res { v with
      run := if w.id = id then some { w.moved .routed reason actor now with
        routingDecisionID := some rd } else run
      trail } := by
  by_cases hi : w.id = id
  · simp only [if_pos hi] at ht ⊢
    exact LifeStep.routed rfl hs hi (hp.source hi) ht
  · simp only [if_neg hi, hp.other hi] at ht ⊢
    exact StepOf.elsewhere rfl ht

theorem routeTask_step (taskID : TaskID) (v : View) :
    Sees strict id (StepOf strict id (.routeTask taskID) v) (routeTask taskID) v := by
  refine Sees.skip (fun _ _ h => h) fun _ => Sees.orFail (fun _ _ => StepOf.refused) fun t _ => ?_
  refine Sees.skip (fun _ _ h => h) fun _ => Sees.skip (fun _ _ h => h) fun _ => ?_
  refine Sees.skip (fun _ _ h => h) fun (now : Timestamp) => ?_
  refine Sees.skip (fun _ _ h => h) fun (rdID : RoutingDecisionID) => ?_
  refine Sees.orWrap (fun _ _ => StepOf.refused) fun rd _ => ?_
  refine Sees.skip (fun _ _ h => h) fun _ => Sees.orFail (fun _ _ => StepOf.refused) fun _ _ => ?_
  refine Sees.seq (loadOrCreateWorkflow_sees taskID now v) (fun e v₁ h => ?_) fun w v₁ h => ?_
  · obtain ⟨w, run, hw, -⟩ := h
    cases hw
  obtain ⟨_, run, hw, rfl, hp⟩ := h
  obtain rfl := Except.ok.inj hw
  refine Sees.orWrap (fun e he e' => ?_) fun w' hw' => ?_
  · -- only a run that was there before can refuse to be routed
    rcases hp.fresh with rfl | hs
    · exact StepOf.refused e'
    · rw [(WorkflowRun.markRouted_eq_ok_iff).mpr ⟨hs, rfl⟩] at he
      cases he
  obtain ⟨hs, rfl⟩ := WorkflowRun.markRouted_eq_ok_iff.mp hw'
  refine Sees.moveRun (w := w) rfl rfl hp.own (Sees.record (i := w.id) rfl fun _ trail ht => ?_)
  -- from here on the run is routed, also when the audit or a subtask fails
  refine Sees.orFail (fun _ _ _ => StepOf.routed hp hs ht) fun _ _ => ?_
  split
  · refine Sees.seq (M := StepOf strict id (.routeTask taskID) v) (Sees.wrapError ?_ ?_) ?_ ?_
    · exact fun e e' v' h => h
    · refine Program.wp_mono ?_ (createSubtasks_sees _ _ _ _)
      rintro res _ ⟨trail', rfl, ht'⟩
      exact StepOf.routed hp hs fun h => (ht' h).trans (ht h)
    · exact fun e v' h => h
    · exact fun u v' h => h
  · exact StepOf.routed hp hs ht

/-- A decision that is stored, whatever becomes of the run. -/
theorem StepOf.decided {c : Call} {v : View} {res : Except Err α} {d : PolicyDecisionRow}
    {trail : List (String × String)} (hc : c.attemptOn id = none)
    (ht : strict = true → trail = v.trail) :
    StepOf strict id c v res { v with decisions := v.decisions ++ [d], trail } :=
  LifeStep.quiet (fun _ => hc) (fun _ hd => List.mem_append_left _ hd) fun h =>
    (ht h).trans (List.append_nil _).symm

theorem evaluatePolicy_step (taskID : TaskID) (action : String) (v : View) :
    Sees strict id (StepOf strict id (.evaluatePolicy taskID action) v)
      (evaluatePolicy taskID action) v := by
  refine Sees.skip (fun _ _ h => h) fun _ => Sees.orFail (fun _ _ => StepOf.refused) fun t _ => ?_
  refine Sees.skip (fun _ _ h => h) fun _ => Sees.orFail (fun _ _ => StepOf.refused) fun _ _ => ?_
  refine Sees.skip (fun _ _ h => h) fun (now : Timestamp) => ?_
  refine Sees.skip (fun _ _ h => h) fun (pdID : PolicyDecisionID) => ?_
  refine Sees.orWrap (fun _ _ => StepOf.refused) fun pd hpd => ?_
  have hpd : pd.toRow.id = pdID := by rw [newPolicyDecision_eq_ok hpd]; rfl
  refine Sees.act fun r v₁ hr => ?_
  cases r with
  | error e => cases hr
  | ok u =>
  -- from here on the decision is stored, also when the run refuses to move
  obtain rfl : v₁ = { v with decisions := v.decisions ++ [pd.toRow] } := hr
  refine Sees.act fun r v₁ hr => ?_
  cases r with
  | error e =>
    rw [show v₁ = _ from hr]
    exact StepOf.decided rfl fun _ => rfl
  | ok w =>
  obtain ⟨rfl, -, hrun⟩ := hr
  refine Sees.orWrap (fun _ _ _ => StepOf.decided rfl fun _ => rfl) fun w' hw' => ?_
  obtain ⟨hs, rfl⟩ := WorkflowRun.markPolicyChecked_eq_ok_iff.mp hw'
  refine Sees.moveRun (w := w) rfl rfl hrun (Sees.record (i := w.id) rfl fun _ trail ht => ?_)
  by_cases hi : w.id = id
  · simp only [if_pos hi, ← hpd] at ht ⊢
    have hnew : pd.toRow ∈ v.decisions ++ [pd.toRow] :=
      List.mem_append_right _ (List.mem_singleton.mpr rfl)
    have hkeep : ∀ d ∈ v.decisions, d ∈ v.decisions ++ [pd.toRow] :=
      fun d hd => List.mem_append_left _ hd
    exact Sees.orFail (fun _ _ _ => LifeStep.checked rfl (hrun hi) hs hkeep hnew ht)
      fun _ _ => LifeStep.checked rfl (hrun hi) hs hkeep hnew ht
  · simp only [if_neg hi] at ht ⊢
    exact Sees.orFail (fun _ _ _ => StepOf.decided rfl ht) fun _ _ => StepOf.decided rfl ht

/-! ### Pause, resume, kill -/

theorem pauseWorkflow_step (i : WorkflowRunID) (reason : String) (actor : ActorID) (v : View) :
    Sees strict id (StepOf strict id (.pauseWorkflow i reason actor) v)
      (pauseWorkflow i reason actor) v := by
  refine Sees.loadRun (fun _ => StepOf.refused) fun w _ hrun => ?_
  refine Sees.skip (fun _ _ h => h) fun (now : Timestamp) => ?_
  refine Sees.orWrap (fun _ _ => StepOf.refused) fun w' hw' => ?_
  obtain ⟨hs, hv, rfl⟩ := WorkflowRun.transitionTo_eq_ok_iff.mp hw'
  refine Sees.moveRun (w := w) rfl rfl hrun (Sees.record (i := w.id) rfl fun _ trail ht => ?_)
  by_cases hi : w.id = id
  · simp only [if_pos hi] at ht ⊢
    exact LifeStep.paused rfl (hrun hi) hs hv ht
  · simp only [if_neg hi] at ht ⊢
    exact StepOf.elsewhere rfl ht

theorem resumeWorkflow_step (i : WorkflowRunID) (reason : String) (actor : ActorID) (v : View) :
    Sees strict id (StepOf strict id (.resumeWorkflow i reason actor) v)
      (resumeWorkflow i reason actor) v := by
  refine Sees.loadRun (fun _ => StepOf.refused) fun w hwi hrun => ?_
  refine Sees.loadLease StepOf.refused fun l hlease _ => ?_
  split
  · next hbudget =>
    refine Sees.skip (fun _ _ h => h) fun (now : Timestamp) => ?_
    refine Sees.orWrap (fun _ _ => StepOf.refused) fun w' hw' => ?_
    obtain ⟨hs, hv, rfl⟩ := WorkflowRun.transitionTo_eq_ok_iff.mp hw'
    refine Sees.moveRun (w := w) rfl rfl hrun (Sees.record (i := w.id) rfl fun _ trail ht => ?_)
    refine Sees.last (Sees.notify (i := w.id) rfl ?_)
    by_cases hi : w.id = id
    · simp only [if_pos hi] at ht ⊢
      exact LifeStep.resumed rfl (hrun hi) (hlease (hwi.symm.trans hi)) hbudget hs hv ht
    · simp only [if_neg hi] at ht ⊢
      exact StepOf.elsewhere rfl ht
  · exact StepOf.refused _

theorem revokeLease_sees (i : WorkflowRunID) (v : View) :
    Sees strict id (fun res v' => res = .ok () ∧
        v' = { v with lease := if i = id then v.lease.map ExecutionLease.killed else v.lease })
      (revokeLease i) v := by
  refine Sees.act fun r v₁ hr => ?_
  cases r with
  | error e =>
    obtain ⟨rfl, hnone⟩ := hr
    refine ⟨rfl, ?_⟩
    by_cases hi : i = id
    · rw [if_pos hi, hnone hi, Option.map_none, ← hnone hi]
    · rw [if_neg hi]
  | ok l =>
    obtain ⟨rfl, hthis, hother⟩ := hr
    by_cases hactive : l.status = .active
    · have hrev : l.revoke = .ok { l with status := .revoked } :=
        ExecutionLease.revoke_eq_ok_iff.mpr ⟨hactive, rfl⟩
      simp only [hrev]
      refine Sees.act fun r v₂ hr => ?_
      cases r with
      | error e => cases hr
      | ok u =>
        refine ⟨rfl, ?_⟩
        have hlease := lease_overwrite hthis hother
          (rfl : ({ l with status := .revoked } : ExecutionLease).id = l.id)
        rw [show v₂ = _ from hr, hlease]
        by_cases hi : i = id
        · simp [hi, hthis hi, ExecutionLease.killed, hactive]
        · simp [hi]
    · -- a lease that is not active is left as it is
      simp only [ExecutionLease.revoke_eq_error hactive]
      refine ⟨rfl, ?_⟩
      by_cases hi : i = id
      · rw [if_pos hi, hthis hi, Option.map_some, ExecutionLease.killed, if_neg hactive, ← hthis hi]
      · rw [if_neg hi]

theorem killWorkflow_step (i : WorkflowRunID) (reason : String) (actor : ActorID) (v : View) :
    Sees strict id (StepOf strict id (.killWorkflow i reason actor) v)
      (killWorkflow i reason actor) v := by
  refine Sees.loadRun (fun _ => StepOf.refused) fun w hwi hrun => ?_
  refine Sees.skip (fun _ _ h => h) fun (now : Timestamp) => ?_
  refine Sees.orWrap (fun _ _ => StepOf.refused) fun w' hw' => ?_
  obtain ⟨hs, rfl⟩ := WorkflowRun.kill_eq_ok_iff.mp hw'
  refine Sees.seq (revokeLease_sees i v) (fun e v' h => by cases h.1) ?_
  rintro _ _ ⟨-, rfl⟩
  refine Sees.moveRun (w := w) rfl rfl hrun (Sees.record (i := w.id) rfl fun _ trail ht => ?_)
  refine Sees.notify (i := w.id) rfl (Sees.last (Sees.emitTerminal (i := w.id) rfl ?_))
  subst hwi
  by_cases hi : w.id = id
  · simp only [if_pos hi] at ht ⊢
    exact LifeStep.killed rfl (hrun hi) hs ht
  · simp only [if_neg hi] at ht ⊢
    exact StepOf.elsewhere rfl ht

/-! ### Attempts -/

/-- What `RegisterAttempt` makes of the run. -/
inductive AttemptMove (w : WorkflowRun) (l : ExecutionLease) :
    AttemptStatus → WorkflowRun → Prop where
  | completed {reason : String} {actor : ActorID} {now : Timestamp}
      (hv : w.status.isValidTransition .completed = true) :
      AttemptMove w l .success (w.moved .completed reason actor now)
  | kept {status : AttemptStatus}
      (hstatus : status = .failure ∧ l.counted.hasRetryBudget = true ∨ status = .retry) :
      AttemptMove w l status w
  | quarantined {reason : String} {actor : ActorID} {now : Timestamp}
      (hbudget : l.counted.hasRetryBudget = false)
      (hv : w.status.isValidTransition .quarantined = true) :
      AttemptMove w l .failure (w.moved .quarantined reason actor now)

theorem attemptTransition_sees {w : WorkflowRun} {l : ExecutionLease} {status : AttemptStatus}
    {now : Timestamp} {v : View}
    (hstatus : status = .success ∨ status = .failure ∨ status = .retry) :
    Sees strict id (fun res v' => v' = v ∧ ∀ w', res = .ok w' → AttemptMove w l status w')
      (attemptTransition w l.counted status now) v := by
  -- `hmove` is the branch that moves the run, `hkept` the one that leaves it
  have hmove : ∀ {msg reason : String} {target : WorkflowStatus},
      (w.status.isValidTransition target = true →
        AttemptMove w l status (w.moved target reason systemActor now)) →
      Sees strict id (fun res v' => v' = v ∧ ∀ w', res = .ok w' → AttemptMove w l status w')
        (orWrap msg (w.transitionTo target reason systemActor now)) v := by
    intro msg reason target hmoved
    cases hw : w.transitionTo target reason systemActor now with
    | error e => exact ⟨rfl, fun _ h => by cases h⟩
    | ok w' =>
      obtain ⟨-, hv, rfl⟩ := WorkflowRun.transitionTo_eq_ok_iff.mp hw
      refine ⟨rfl, fun _ h => ?_⟩
      obtain rfl := Except.ok.inj h
      exact hmoved hv
  have hkept : ∀ {status : AttemptStatus},
      status = .failure ∧ l.counted.hasRetryBudget = true ∨ status = .retry →
      Sees strict id (fun res v' => v' = v ∧ ∀ w', res = .ok w' → AttemptMove w l status w')
        (.ret w) v := by
    intro status h
    refine ⟨rfl, fun _ hw => ?_⟩
    obtain rfl := Except.ok.inj hw
    exact .kept h
  rcases hstatus with rfl | rfl | rfl
  · exact hmove fun hv => .completed hv
  · show Sees strict id _ (if l.counted.hasRetryBudget then _ else _) v
    split
    · next hbudget => exact hkept (Or.inl ⟨rfl, hbudget⟩)
    · next hbudget => exact hmove fun hv => .quarantined (by simpa using hbudget) hv
  · exact hkept (Or.inr rfl)

theorem recordQuarantine_sees {w : WorkflowRun} {ctx : AuditContext} {v : View} :
    Sees strict id (fun res v' => res.isOk = true ∧ ∃ trail, v' = { v with trail } ∧
        (strict = true → trail = if w.id = id ∧ w.status = .quarantined
          then v.trail ++ [("workflow_quarantined", "budget_exhausted")] else v.trail))
      (recordQuarantine w ctx) v := by
  unfold recordQuarantine
  by_cases hq : w.status = .quarantined
  · rw [if_pos hq]
    refine Sees.record (i := w.id) rfl fun _ trail ht => ?_
    exact ⟨rfl, trail, rfl, fun h => by simpa [hq] using ht h⟩
  · rw [if_neg hq]
    exact ⟨rfl, v.trail, rfl, fun _ => by simp [hq]⟩

theorem announceTermination_sees {w : WorkflowRun} {v : View} :
    Sees strict id (fun res v' => res.isOk = true ∧ v' = { v with
        notes := if w.id = id ∧ w.status.isTerminal = true then v.notes ++ [.workflowTerminated]
          else v.notes
        endings := if w.id = id ∧ w.status.isTerminal = true then v.endings.map (· + 1)
          else v.endings })
      (announceTermination w) v := by
  unfold announceTermination
  by_cases ht : w.status.isTerminal = true
  · rw [if_pos ht]
    refine Sees.notify (i := w.id) rfl (Sees.last (Sees.emitTerminal (i := w.id) rfl ?_))
    exact ⟨rfl, by simp [ht, Notification.note]⟩
  · rw [if_neg ht]
    exact ⟨rfl, by simp [ht]⟩

theorem reportFailure_sees {result : AttemptResult} {v : View} :
    Sees strict id (fun res v' => res.isOk = true ∧ v' = v) (reportFailure result) v := by
  unfold reportFailure
  split
  · exact fun r v₁ h => ⟨rfl, h⟩
  · exact ⟨rfl, rfl⟩

theorem observeBreaker_sees {result : AttemptResult} {now : Timestamp} {v : View} :
    Sees strict id (fun res v' => res.isOk = true ∧
        ∃ trail, v' = { v with trail } ∧ (strict = true → trail = v.trail))
      (observeBreaker result now) v := by
  unfold observeBreaker
  split
  · -- the listener's entry is about no workflow run
    intro t v₁ hv₁
    obtain rfl : v₁ = v := hv₁
    cases t with
    | none => exact ⟨rfl, v₁.trail, rfl, fun _ => rfl⟩
    | some t =>
      rintro r v₂ ⟨trail, rfl, ht⟩
      exact ⟨rfl, trail, rfl, fun h => by simpa using (ht h).2⟩
  · exact ⟨rfl, v.trail, rfl, fun _ => rfl⟩

theorem AttemptMove.id_eq {w w' : WorkflowRun} {l : ExecutionLease} {status : AttemptStatus}
    (h : AttemptMove w l status w') : w'.id = w.id := by
  cases h <;> rfl

theorem AttemptMove.overwrite_eq {w w' : WorkflowRun} {l : ExecutionLease} {status : AttemptStatus}
    (h : AttemptMove w l status w') : w'.overwrite w = w' := by
  cases h <;> rfl

theorem registerAttempt_step (i : WorkflowRunID) (result : AttemptResult) (v : View) :
    Sees strict id (StepOf strict id (.registerAttempt i result) v)
      (registerAttempt i result) v := by
  refine Sees.loadRun (fun _ => StepOf.refused) fun w hwi hrun => ?_
  split
  · exact StepOf.refused _
  next hs =>
  refine Sees.orWrap (fun _ _ => StepOf.refused) fun _ hvalid => ?_
  refine Sees.loadLease StepOf.refused fun l hthis hother => ?_
  refine Sees.orWrap (fun _ _ => StepOf.refused) fun l' hl' => ?_
  obtain ⟨hactive, rfl⟩ := ExecutionLease.recordAttempt_eq_ok_iff.mp hl'
  refine Sees.skip (fun _ _ h => h) fun (now : Timestamp) => ?_
  refine Sees.seq (attemptTransition_sees (AttemptResult.status_of_validate hvalid)) ?_ ?_
  · rintro e _ ⟨rfl, -⟩
    exact StepOf.refused e
  rintro w' _ ⟨rfl, hmove⟩
  have hmove := hmove w' rfl
  -- both rows are written before anything is reported; `t₁`, `t₂`, `t₃` are the trails after the
  -- entries of the attempt, of the quarantine and of the breaker's listener
  refine Sees.updateLease hthis hother rfl (Sees.moveRun (w := w) hmove.id_eq hmove.overwrite_eq
    hrun (Sees.record (i := w.id) hmove.id_eq fun _ t₁ ht₁ => ?_))
  refine Sees.always recordQuarantine_sees ?_
  rintro _ _ ⟨t₂, rfl, ht₂⟩
  refine Sees.always announceTermination_sees ?_
  rintro _ _ rfl
  refine Sees.always reportFailure_sees ?_
  rintro _ _ rfl
  refine Sees.always observeBreaker_sees ?_
  rintro _ _ ⟨t₃, rfl, ht₃⟩
  subst hwi
  rw [hmove.id_eq] at ht₂ ⊢
  by_cases hi : w.id = id
  · subst hi
    have hs : w.status.isTerminal = false := by simpa using hs
    have hcall : (Call.registerAttempt w.id result).attemptOn w.id = some result.status :=
      if_pos rfl
    simp only [if_true, true_and] at ht₁ ht₂ ⊢
    -- the status of the result is an index of `hmove`
    generalize result.status = status at hmove ht₁ hcall
    cases hmove with
    | completed hv =>
      refine LifeStep.completed hcall (hrun rfl) (hthis rfl) hactive hs hv fun h => ?_
      simpa [ht₁ h, ht₂ h, AttemptStatus.text] using ht₃ h
    | kept hstatus =>
      -- a run that is not moved is neither quarantined nor announced
      have hq : w.status ≠ .quarantined := fun hq => by rw [hq] at hs; cases hs
      simp only [hs, Bool.false_eq_true, if_false, ← hrun rfl]
      refine LifeStep.retried hcall (hrun rfl) (hthis rfl) hactive hs hstatus (fun h => ?_) hvalid
      simpa [ht₁ h, ht₂ h, hq] using ht₃ h
    | quarantined hbudget hv =>
      refine LifeStep.quarantined hcall (hrun rfl) (hthis rfl) hactive hs hbudget hv fun h => ?_
      simpa [ht₁ h, ht₂ h, AttemptStatus.text] using ht₃ h
  · simp only [hi, if_false, false_and] at ht₁ ht₂ ht₃ ⊢
    refine StepOf.elsewhere (by simp [Call.attemptOn, hi]) fun h => ?_
    rw [ht₃ h, ht₂ h, ht₁ h]

/-! ### Starting -/

section Starting

variable {v : View} {w : WorkflowRun} {now : Timestamp} {pd : PolicyDecision}

theorem startDenied_step (tID : TaskID) (hrun : w.id = id → v.run = some w) :
    Sees strict id (StepOf strict id (.startWorkflow w.taskID) v) (startDenied tID w pd now) v := by
  refine Sees.orWrap (fun _ _ => StepOf.refused) fun w' hw' => ?_
  obtain ⟨hs, hv, rfl⟩ := WorkflowRun.transitionTo_eq_ok_iff.mp hw'
  refine Sees.moveRun (w := w) rfl rfl hrun (Sees.record (i := w.id) rfl fun _ trail ht => ?_)
  refine Sees.notify (i := w.id) rfl (Sees.emitTerminal (i := w.id) rfl ?_)
  by_cases hi : w.id = id
  · simp only [if_pos hi] at ht ⊢
    exact LifeStep.denied rfl (hrun hi) hs hv ht
  · simp only [if_neg hi] at ht ⊢
    exact StepOf.elsewhere rfl ht

theorem startAwaiting_step (tID : TaskID) (hrun : w.id = id → v.run = some w)
    (hd : v.decides w.taskID .requireApproval) :
    Sees strict id (StepOf strict id (.startWorkflow w.taskID) v)
      (startAwaiting tID w pd now) v := by
  refine Sees.orWrap (fun _ _ => StepOf.refused) fun w' hw' => ?_
  obtain ⟨hs, hv, rfl⟩ := WorkflowRun.transitionTo_eq_ok_iff.mp hw'
  refine Sees.skip (fun _ _ h => h) fun (reqID : ApprovalRequestID) => ?_
  refine Sees.orWrap (fun _ _ => StepOf.refused) fun a ha => ?_
  have ha := newApprovalRequest_eq_ok ha
  refine Sees.saveRequest (i := w.id) (by rw [ha]; rfl) ?_
  refine Sees.moveRun (w := w) rfl rfl hrun (Sees.record (i := w.id) rfl fun _ trail ht => ?_)
  refine Sees.notify (i := w.id) rfl ?_
  by_cases hi : w.id = id
  · simp only [if_pos hi] at ht ⊢
    exact LifeStep.awaiting rfl (hrun hi) hs hv hd (by rw [ha]) ht
  · simp only [if_neg hi] at ht ⊢
    exact StepOf.elsewhere rfl ht

theorem startRunning_step (tID : TaskID) (hrun : w.id = id → v.run = some w)
    (hd : v.decides w.taskID .allow ∨ v.decides w.taskID .allowWithConstraints) :
    Sees strict id (StepOf strict id (.startWorkflow w.taskID) v) (startRunning tID w now) v := by
  refine Sees.orWrap (fun _ _ => StepOf.refused) fun w' hw' => ?_
  obtain ⟨hs, hv, rfl⟩ := WorkflowRun.transitionTo_eq_ok_iff.mp hw'
  refine Sees.newLease fun lid => ?_
  -- a run that has a lease already is refused here, before its row is written
  refine Sees.saveLease (i := w.id) rfl (fun _ => StepOf.refused) fun hnone => ?_
  refine Sees.moveRun (w := w) rfl rfl hrun (Sees.record (i := w.id) rfl fun _ trail ht => ?_)
  refine Sees.notify (i := w.id) rfl ?_
  by_cases hi : w.id = id
  · subst hi
    simp only [if_true] at ht ⊢
    exact LifeStep.started rfl (hrun rfl) (hnone rfl) hs hv hd ht
  · simp only [if_neg hi] at ht ⊢
    exact StepOf.elsewhere rfl ht

end Starting

theorem startWorkflow_step (taskID : TaskID) (v : View) :
    Sees strict id (StepOf strict id (.startWorkflow taskID) v) (startWorkflow taskID) v := by
  refine Sees.skip (fun _ _ h => h) fun _ => Sees.orFail (fun _ _ => StepOf.refused) fun tk _ => ?_
  refine Sees.skip (fun _ _ h => h) fun _ => Sees.orCause (fun _ _ => StepOf.refused) fun _ _ => ?_
  refine Sees.act fun r v₁ hr => ?_
  cases r with
  | error e =>
    obtain rfl : v₁ = v := hr
    exact StepOf.refused _
  | ok pd =>
  obtain ⟨rfl, row, hrow, htask, rfl⟩ := hr
  refine Sees.act fun r v₂ hr => ?_
  cases r with
  | error e =>
    obtain rfl : v₂ = v₁ := hr
    exact StepOf.refused _
  | ok w =>
  obtain ⟨rfl, hw, hrun⟩ := hr
  -- the decision and the run were found by the same task, but not by each other
  have hd : ∀ outcome, row.scan.outcome = outcome → v₂.decides w.taskID outcome :=
    fun outcome h => ⟨row, hrow, htask.trans hw.symm, h⟩
  refine Sees.skip (fun _ _ h => h) fun (now : Timestamp) => ?_
  subst hw
  unfold startAs
  split
  · next => exact startDenied_step tk.id hrun
  · next h => exact startAwaiting_step tk.id hrun (hd _ h)
  · next h => exact startRunning_step tk.id hrun (Or.inl (hd _ h))
  · next h => exact startRunning_step tk.id hrun (Or.inr (hd _ h))
  · exact StepOf.refused _

/-! ### Approvals -/

section Approvals

variable {v : View} {w : WorkflowRun} {now : Timestamp} {by' : ActorID}

/-- The status that a resolution gives to its request. -/
def ResolveApprovalInput.verdict (input : ResolveApprovalInput) : ApprovalStatus :=
  if input.approved then .approved else .denied

theorem resolveRequest_sees {a : ApprovalRequest} {input : ResolveApprovalInput} :
    Sees strict id (fun res v' => v' = v ∧ ∀ a', res = .ok a' → a.status = .pending ∧
        a'.id = a.id ∧ a'.workflowRunID = a.workflowRunID ∧ a'.status = input.verdict)
      (resolveRequest a input now) v := by
  have hres : ∀ {msg : String}, Sees strict id
      (fun res v' => v' = v ∧ ∀ a', res = .ok a' → a.status = .pending ∧
        a'.id = a.id ∧ a'.workflowRunID = a.workflowRunID ∧ a'.status = input.verdict)
      (orWrap msg (a.resolve input.resolvedBy input.reason input.verdict now)) v := by
    intro msg
    cases ha : a.resolve input.resolvedBy input.reason input.verdict now with
    | error e => exact ⟨rfl, fun _ h => by cases h⟩
    | ok a' =>
      obtain ⟨hp, rfl⟩ := ApprovalRequest.resolve_eq_ok_iff.mp ha
      refine ⟨rfl, fun _ h => ?_⟩
      obtain rfl := Except.ok.inj h
      exact ⟨hp, rfl, rfl, rfl⟩
  unfold ResolveApprovalInput.verdict at hres ⊢
  unfold resolveRequest
  by_cases happ : input.approved = true
  · simp only [if_pos happ] at hres ⊢
    exact hres
  · simp only [if_neg happ] at hres ⊢
    exact hres

/-- The approve branch moves a run that awaits the approval and has no lease yet. -/
theorem resumeApproved_sees (hrun : w.id = id → v.run = some w) :
    Sees strict id (fun res v' =>
        (∀ e, res = .error e →
          v' = v ∧ (w.id = id → w.status ≠ .awaitingApproval ∨ v.lease ≠ none)) ∧
        (∀ u, res = .ok u → w.status = .awaitingApproval ∧ (w.id = id → v.lease = none) ∧
          ∃ lid, v' = { v with
            run := if w.id = id then some ((w.moved .approved "approval granted" by' now).moved
              .running "starting execution" by' now) else v.run
            lease := if w.id = id then some (defaultLease lid w.id now).toRow else v.lease
            notes := if w.id = id then v.notes ++ [.executionReady] else v.notes }))
      (resumeApproved w by' now) v := by
  refine Sees.orWrap (fun e he e' => ⟨fun _ _ => ⟨rfl, fun _ => Or.inl fun hs => ?_⟩, ?_⟩) ?_
  · rw [WorkflowRun.transitionTo, hs] at he
    cases he
  · intro u hu
    cases hu
  intro w₁ hw₁
  obtain ⟨-, hv₁, rfl⟩ := WorkflowRun.transitionTo_eq_ok_iff.mp hw₁
  have hs : w.status = .awaitingApproval :=
    List.mem_singleton.mp (WorkflowStatus.mem_sources (by decide) hv₁)
  -- from approved to running is always valid
  refine Sees.orWrap (fun e he => by cases he) fun w₂ hw₂ => ?_
  obtain ⟨-, -, rfl⟩ := WorkflowRun.transitionTo_eq_ok_iff.mp hw₂
  refine Sees.newLease fun lid => Sees.saveLease (i := w.id) rfl ?_ fun hnone => ?_
  · -- a lease is in the way: the request stays approved and the run awaits it
    intro hsome e
    exact ⟨fun _ _ => ⟨rfl, fun hi => Or.inr (hsome hi)⟩, fun u hu => by cases hu⟩
  refine Sees.moveRun (w := w) rfl rfl hrun (Sees.last (Sees.notify (i := w.id) rfl ?_))
  exact ⟨fun e he => (by cases he), fun _ _ => ⟨hs, hnone, lid, rfl⟩⟩

/-- The deny branch moves a run that may fail. -/
theorem failDenied_sees {reason : String} (hrun : w.id = id → v.run = some w) :
    Sees strict id (fun res v' =>
        (∀ e, res = .error e → v' = v ∧ w.status ≠ .awaitingApproval) ∧
        (∀ u, res = .ok u → w.status.isTerminal = false ∧
          w.status.isValidTransition .failed = true ∧ v' = { v with
            run := if w.id = id then some (w.moved .failed ("approval denied: " ++ reason) by' now)
              else v.run
            notes := if w.id = id then v.notes ++ [.workflowTerminated] else v.notes }))
      (failDenied w by' reason now) v := by
  refine Sees.orWrap (fun e he e' => ⟨fun _ _ => ⟨rfl, fun hs => ?_⟩, fun u hu => by cases hu⟩) ?_
  · rw [WorkflowRun.fail, WorkflowRun.transitionTo, hs] at he
    cases he
  intro w' hw'
  obtain ⟨hs, hv, rfl⟩ := WorkflowRun.transitionTo_eq_ok_iff.mp hw'
  refine Sees.moveRun (w := w) rfl rfl hrun (Sees.last (Sees.notify (i := w.id) rfl ?_))
  exact ⟨fun e he => (by cases he), fun _ _ => ⟨hs, hv, rfl⟩⟩

/-- The requests of the view after the update of a request that the call has read. -/
theorem requests_overwrite {a a' : ApprovalRequest} (hid : a'.id = a.id)
    (huniq : ∀ b ∈ v.requests, b.id = a.id → b = a ∧ a.workflowRunID = id) :
    overwrite ApprovalRequest.id a'.id a'.overwrite v.requests
      = if a.workflowRunID = id then v.settled a' else v.requests := by
  by_cases hi : a.workflowRunID = id
  · rw [if_pos hi]
    rfl
  · rw [if_neg hi]
    exact overwrite_of_forall_ne fun b hb hbid => hi (huniq b hb (hbid.trans hid)).2

theorem Settles.of_read {a a' : ApprovalRequest} {status : ApprovalStatus} (hmem : a ∈ v.requests)
    (huniq : ∀ b ∈ v.requests, b.id = a.id → b = a ∧ a.workflowRunID = id)
    (hpending : a.status = .pending) (hid : a'.id = a.id) (hstatus : a'.status = status) :
    Settles v a' status where
  status_eq := hstatus
  mem := ⟨a, hmem, hid.symm⟩
  pending b hb hbid := by
    rw [(huniq b hb (hbid.trans hid)).1]
    exact hpending

theorem ResolveApprovalInput.verdict_ne_pending (input : ResolveApprovalInput) :
    input.verdict ≠ .pending := by
  unfold ResolveApprovalInput.verdict
  split <;> decide

/-- The request is resolved although its run cannot follow. -/
theorem StepOf.orphaned {input : ResolveApprovalInput} {i : WorkflowRunID} {a : ApprovalRequest}
    (ha : i = id → Settles v a input.verdict)
    (hrun : i = id → (∀ w, v.run = some w → w.status ≠ .awaitingApproval) ∨ v.lease ≠ none)
    (e : Err) : StepOf strict id (.resolveApproval input) v (.error e : Except Err α)
      { v with requests := if i = id then v.settled a else v.requests } := by
  by_cases hi : i = id
  · rw [if_pos hi]
    exact LifeStep.orphaned rfl (ha hi) input.verdict_ne_pending (hrun hi)
      fun _ => (List.append_nil _).symm
  · rw [if_neg hi]
    exact StepOf.refused e

/-- The rest of an approval, once its request is stored and its run is loaded. -/
theorem approve_step {input : ResolveApprovalInput} {a : ApprovalRequest}
    (happ : input.approved = true) (ha : w.id = id → Settles v a input.verdict)
    (hrun : w.id = id → v.run = some w) :
    Sees strict id (StepOf strict id (.resolveApproval input) v)
      (do
        resumeApproved w by' now
        let _ ← Audit.record by' "approval_resolved" "approved" [] none (some w.id)
        LifecycleMetrics.emitApprovalWait "approved"
        return a)
      { v with requests := if w.id = id then v.settled a else v.requests } := by
  have hverdict : input.verdict = .approved := if_pos happ
  refine Sees.seq (resumeApproved_sees hrun) (fun e v₂ hM => ?_) fun _ v₂ hM => ?_
  · -- the run has not followed; only the request has changed
    obtain ⟨rfl, hstuck⟩ := hM.1 e rfl
    refine StepOf.orphaned ha (fun hi => (hstuck hi).imp_left fun hs => ?_) e
    exact View.forall_run (hrun hi) hs
  obtain ⟨hs, hnone, lid, rfl⟩ := hM.2 _ rfl
  refine Sees.record (i := w.id) rfl fun _ trail ht => Sees.skip (fun _ _ h => h) fun _ => ?_
  by_cases hi : w.id = id
  · subst hi
    simp only [if_true] at ht ⊢
    exact LifeStep.approved rfl (hrun rfl) (hnone rfl) hs (hverdict ▸ ha rfl) ht
  · simp only [if_neg hi] at ht ⊢
    exact StepOf.elsewhere rfl ht

/-- The rest of a denial. -/
theorem deny_step {input : ResolveApprovalInput} {a : ApprovalRequest} {reason : String}
    (happ : ¬ input.approved = true) (ha : w.id = id → Settles v a input.verdict)
    (hrun : w.id = id → v.run = some w) :
    Sees strict id (StepOf strict id (.resolveApproval input) v)
      (do
        failDenied w by' reason now
        let _ ← Audit.record by' "approval_resolved" "denied" [] none (some w.id)
        LifecycleMetrics.emitApprovalWait "denied"
        LifecycleMetrics.emitTerminal w "failed"
        return a)
      { v with requests := if w.id = id then v.settled a else v.requests } := by
  have hverdict : input.verdict = .denied := if_neg happ
  refine Sees.seq (failDenied_sees hrun) (fun e v₂ hM => ?_) fun _ v₂ hM => ?_
  · obtain ⟨rfl, hs⟩ := hM.1 e rfl
    refine StepOf.orphaned ha (fun hi => Or.inl ?_) e
    exact View.forall_run (hrun hi) hs
  obtain ⟨hs, hv, rfl⟩ := hM.2 _ rfl
  refine Sees.record (i := w.id) rfl fun _ trail ht => Sees.skip (fun _ _ h => h) fun _ => ?_
  refine Sees.emitTerminal (i := w.id) rfl ?_
  by_cases hi : w.id = id
  · simp only [if_pos hi] at ht ⊢
    exact LifeStep.rejected rfl (hrun hi) hs hv (hverdict ▸ ha hi) ht
  · simp only [if_neg hi] at ht ⊢
    exact StepOf.elsewhere rfl ht

theorem resolveApproval_step (input : ResolveApprovalInput) (v : View) :
    Sees strict id (StepOf strict id (.resolveApproval input) v) (resolveApproval input) v := by
  refine Sees.act fun r v₁ hr => ?_
  cases r with
  | error e =>
    obtain rfl : v₁ = v := hr
    exact StepOf.refused _
  | ok a =>
  obtain ⟨rfl, haid, hmem, huniq⟩ := hr
  rw [← haid] at huniq
  refine Sees.skip (fun _ _ h => h) fun (now : Timestamp) => ?_
  refine Sees.seq resolveRequest_sees ?_ ?_
  · rintro e _ ⟨rfl, -⟩
    exact StepOf.refused e
  rintro a' v ⟨rfl, ha'⟩
  obtain ⟨hpending, hid, hwf, hstatus⟩ := ha' a' rfl
  refine Sees.act fun r v₁ hr => ?_
  cases r with
  | error e => cases hr
  | ok u =>
  -- the request is stored before the run is asked whether it may move
  rw [show v₁ = _ from hr, requests_overwrite hid huniq, ← hwf]
  have hsettles : a'.workflowRunID = id → Settles v a' input.verdict := fun hi =>
    Settles.of_read (hmem (hwf ▸ hi)) huniq hpending hid hstatus
  refine Sees.loadRun (fun hnone => ?_) fun w hw hrun => ?_
  · -- the run of the request does not exist
    exact StepOf.orphaned hsettles fun hi => Or.inl fun w hw => by rw [hnone hi] at hw; cases hw
  rw [← hw] at hsettles ⊢
  unfold moveResolved reportResolution
  by_cases happ : input.approved = true
  · simp only [if_pos happ]
    exact approve_step happ hsettles hrun
  · simp only [if_neg happ]
    exact deny_step happ hsettles hrun

end Approvals

/-! ### Calls and sessions -/

/-- The reply of a call does not matter for the step. -/
theorem StepOf.reply {c : Call} {v : View} {p : UseCase α} {f : α → Reply}
    (hp : Sees strict id (StepOf strict id c v) p v) :
    Sees strict id (StepOf strict id c v) (p >>= fun a => .ret (f a)) v :=
  Sees.seq hp (fun _ _ h => h) fun _ _ h => h

/-- **Every call is a step of the machine**, seen from any run. -/
theorem call_step (c : Call) (v : View) : Sees strict id (StepOf strict id c v) c.body v := by
  cases c with
  | submitTask input => exact StepOf.reply (submitTask_step input v)
  | routeTask taskID => exact StepOf.reply (routeTask_step taskID v)
  | evaluatePolicy taskID action => exact StepOf.reply (evaluatePolicy_step taskID action v)
  | startWorkflow taskID => exact StepOf.reply (startWorkflow_step taskID v)
  | resolveApproval input => exact StepOf.reply (resolveApproval_step input v)
  | registerAttempt i result => exact StepOf.reply (registerAttempt_step i result v)
  | pauseWorkflow i reason actor => exact StepOf.reply (pauseWorkflow_step i reason actor v)
  | resumeWorkflow i reason actor => exact StepOf.reply (resumeWorkflow_step i reason actor v)
  | killWorkflow i reason actor => exact StepOf.reply (killWorkflow_step i reason actor v)

/-- **Along every session each workflow run goes through a life of the machine.** The condition on
calls may be stated on the view. -/
theorem session_life {metrics : Bool} {cond : Store → Call → Prop} {G : View → Call → Prop}
    {tr : List (Call × Except Err Reply)} {s : Store} (id : WorkflowRunID)
    (hG : ∀ s c, cond s c → G (view id s) c)
    (hs : governance.Session (accepts strict) cond (Store.empty metrics) tr s) :
    Life strict metrics id G tr (view id s) := by
  induction hs with
  | start =>
    have hview : view id (Store.empty metrics) = View.initial metrics := by
      cases metrics <;> rfl
    rw [hview]
    exact .start
  | call _ hcond hrun ih =>
    refine .step ih (hG _ _ hcond) ?_
    -- the run over the store is a run over the view
    have hview := hrun.map (f := view id) fun h => view_step id h.choose_spec.1 h.choose_spec.2
    exact hview.of_wp (call_step _ _)

/-! ### Carrying out a session -/

/-- What the environment decides about the operations of a call, under its own tag. -/
def choices (tag : Char) : List Choice := (List.range 16).map (scheduleChoice tag)

/-- Make the calls one after the other on the empty store, with instruments configured. -/
def makeCalls (strict : Bool) (check : Store → Call → Bool) (calls : List (Call × List Choice)) :
    Option (List (Call × Except Err Reply) × Store) :=
  governance.playSession (accepts strict) check ([], Store.empty true) calls

theorem makeCalls_session {check : Store → Call → Bool} {cond : Store → Call → Prop}
    {calls : List (Call × List Choice)} {st : List (Call × Except Err Reply) × Store}
    (hcheck : ∀ s c, check s c = true → cond s c) (h : makeCalls strict check calls = some st) :
    governance.Session (accepts strict) cond (Store.empty true) st.1 st.2 :=
  System.playSession_session hcheck h .start

/-- A task is submitted, routed and checked against the policy for `action`. -/
def checkedCalls (input : SubmitTaskInput) (action : String) : List (Call × List Choice) :=
  [(.submitTask input, choices 'a'), (.routeTask firstTask, choices 'b'),
    (.evaluatePolicy firstTask action, choices 'c')]

/-- The same, and started. -/
def startedCalls (input : SubmitTaskInput) (action : String) : List (Call × List Choice) :=
  checkedCalls input action ++ [(.startWorkflow firstTask, choices 'd')]

/-- A fix that is running. -/
def runningCalls : List (Call × List Choice) := startedCalls bugfixInput "edit"

/-- A release that was approved. -/
def approvedCalls : List (Call × List Choice) :=
  startedCalls releaseInput "edit" ++
    [(.resolveApproval ⟨firstRequest, true, systemActor, "agreed"⟩, choices 'e')]

end Governance

import GovernanceCore.Concurrency.Contract
import GovernanceCore.Framework.Discipline
import GovernanceCore.Services.Footprint

/-!
# Does a task have one workflow run?

`RouteTask` looks for the run of its task and inserts a new one when the lookup returns an error. No
lock is held in between, every error counts as "not found", and `workflow_runs.task_id` is not
unique: two calls that both look before either inserts leave two runs (`two_runs_of_one_task`).

`one_run_per_task` is what holds when the lookups of `RouteTask` do not fail for another reason, and
no call looks while another one for the same task is about to insert (`RoutesExclusively`). The
invariant counts the stored runs of a task together with the calls that are about to insert one.
-/

namespace Governance

open Framework

/-! ### The section between the lookup and the insertion -/

/-- Whether a call is about to insert a run of the task, after one more event. -/
def creatingStep (taskID : TaskID) (creating : Bool) : Event Op Res → Bool
  | ⟨.workflowFindByTaskID id, .error _⟩ => id = taskID
  | ⟨.newID .workflowRun, _⟩ => creating
  | _ => false

/-- The call has not found a run of the task and has done nothing since but generate an id. -/
def creating (taskID : TaskID) (h : History) : Bool := h.foldl (creatingStep taskID) false

theorem creating_concat (taskID : TaskID) (h : History) (e : Event Op Res) :
    creating taskID (h ++ [e]) = creatingStep taskID (creating taskID h) e := by
  rw [creating, List.foldl_append]
  rfl

/-- A `RouteTask` call that is about to insert a run of its task. -/
def creates (taskID : TaskID) (t : Thread Call Op Res Err Reply) : Bool :=
  t.call = .routeTask taskID && creating taskID t.log

/-- The lookup has failed for another reason than that there is no such row. -/
def failsTransiently {α : Type} : Except RepoError α → Bool
  | .error (.notFound _) | .ok _ => false
  | .error _ => true

/-- `RouteTask` looks for the run of its task only while no other call is about to insert one, and
the lookup does not fail transiently. -/
def routesExclusively (p : Pool Call Store Op Res Err Reply) (t : Thread Call Op Res Err Reply) :
    (o : Op) → Res o → Bool
  | .workflowFindByTaskID id, r =>
    t.call ≠ .routeTask id || (p.threads.all fun t' => !creates id t') && !failsTransiently r
  | _, _ => true

/-- The runs in which `RouteTask` looks for runs exclusively and successfully. -/
def RoutesExclusively : Discipline Call Store Op Res Err Reply :=
  fun p t o r => routesExclusively p t o r = true

/-! ### An insertion follows a failed lookup -/

/-- A run is inserted right after the lookup that has not found it. -/
def InsertsAfterLookup (h : History) : Op → Prop
  | .workflowSave w => creating w.taskID h = true
  | _ => True

/-- What is known of every call about insertions. -/
def creation : Contract Op Res := ⟨fun _ _ => True, InsertsAfterLookup⟩

def Op.insertsRun : Op → Bool
  | .workflowSave _ => true
  | _ => false

/-- The operation inserts no run. -/
abbrev InsertsNoRun (o : Op) : Prop := o.insertsRun = false

theorem follows_of_insertsNoRun {α : Type} {p : UseCase α} (hp : p.Only InsertsNoRun)
    (h : History) : p.Follows creation (fun _ _ => True) h := by
  refine hp.follows (fun h o ho => ?_) h
  cases o with
  | workflowSave w => cases ho
  | _ => trivial

/-- Only `RouteTask` inserts runs. -/
theorem Footprint.insertsNoRun {c : Call} (hc : ∀ taskID, c ≠ .routeTask taskID) {o : Op}
    (ho : Footprint c o) : InsertsNoRun o := by
  cases o with
  | workflowSave w =>
    obtain ⟨taskID, -, -, hcall, -⟩ := ho
    exact absurd hcall (hc taskID)
  | _ => rfl

/-- The insertion follows the failed lookup, whatever the call has performed before. -/
theorem loadOrCreateWorkflow_follows {α : Type} (taskID : TaskID) (now : Timestamp)
    {f : WorkflowRun → UseCase α} (hf : ∀ w, (f w).Only InsertsNoRun) (h : History) :
    (loadOrCreateWorkflow taskID now >>= f).Follows creation (fun _ _ => True) h := by
  refine ⟨trivial, fun r _ => ?_⟩
  cases r with
  | ok w => exact follows_of_insertsNoRun (hf w) _
  | error e =>
    refine ⟨trivial, fun id _ => ⟨?_, fun r _ => ?_⟩⟩
    · change creating taskID _ = true
      rw [creating_concat, creating_concat]
      exact decide_eq_true rfl
    · cases r with
      | ok u => exact follows_of_insertsNoRun (hf _) _
      | error e => trivial

theorem routeTask_follows (taskID : TaskID) :
    (routeTask taskID).Follows creation (fun _ _ => True) [] := by
  refine ⟨trivial, fun r _ => follows_orFail (fun _ => trivial) fun t _ => ?_⟩
  refine ⟨trivial, fun memCtx _ => ⟨trivial, fun stats _ => ⟨trivial, fun now _ => ?_⟩⟩⟩
  refine ⟨trivial, fun rdID _ => follows_orWrap (fun _ => trivial) fun rd _ => ?_⟩
  refine ⟨trivial, fun r _ => follows_orFail (fun _ => trivial) fun _ _ => ?_⟩
  -- what comes after the run is there inserts none
  refine loadOrCreateWorkflow_follows taskID now (fun w => ?_) _
  refine Only.orWrap fun w' _ => ?_
  refine Only.op rfl fun r => ?_
  refine Only.orFail fun _ => ?_
  refine Only.op rfl fun r => ?_
  refine Only.orFail fun _ => ?_
  dsimp only
  split
  · refine Program.Only.bind (fun _ => ?_) (Only.wrapError ?_)
    · trivial
    · have honly : (createSubtasks t now (subtaskSuffixes t.scope)).Only
          (Footprint (.startWorkflow taskID)) := createSubtasks_only t now _
      exact honly.mono fun o => Footprint.insertsNoRun (c := .startWorkflow taskID) nofun
  · trivial

theorem creation_keeps : governance.Keeps creation fun _ _ _ => True where
  answers := fun _ => trivial
  follows := by
    intro c
    have hother : (∀ taskID, c ≠ .routeTask taskID) →
        c.body.Follows creation (fun _ _ => True) [] := fun hc =>
      follows_of_insertsNoRun (c.body_footprint.mono fun o ho => ho.insertsNoRun hc) []
    cases c with
    | routeTask taskID =>
      refine Program.Follows.bind ((routeTask_follows taskID).mono fun res h _ => ?_)
      cases res <;> trivial
    | _ => exact hother nofun

/-! ### Runs and creations of a task -/

/-- The stored runs of a task. -/
def runsOf (taskID : TaskID) (s : Store) : Nat :=
  s.workflowRuns.rows.countP fun w => w.taskID = taskID

theorem runsOf_workflowUpdate (taskID : TaskID) (s : Store) (w : WorkflowRun) :
    runsOf taskID (s.updateWorkflow w) = runsOf taskID s := by
  have hcount : ∀ l : List WorkflowRun, l.countP (fun w => w.taskID = taskID)
      = (l.map WorkflowRun.taskID).countP (· = taskID) := by
    intro l
    rw [List.countP_map]
    rfl
  have htasks : (s.updateWorkflow w).workflowRuns.rows.map WorkflowRun.taskID
      = s.workflowRuns.rows.map WorkflowRun.taskID :=
    map_overwrite (f := w.overwrite) (fun _ => rfl) w.id s.workflowRuns.rows
  rw [runsOf, runsOf, hcount, hcount, htasks]

/-- Only an insertion changes the number of runs of a task. -/
theorem Effect.runsOf_eq {s s' : Store} {o : Op} (he : Effect s o s') (ho : InsertsNoRun o)
    (taskID : TaskID) : runsOf taskID s' = runsOf taskID s := by
  cases he with
  | workflowSave hT => cases ho
  | workflowUpdate w => exact runsOf_workflowUpdate taskID s w
  | _ => rfl

theorem runsOf_workflowSave {s s' : Store} {w : WorkflowRun} (he : Effect s (.workflowSave w) s')
    (taskID : TaskID) :
    runsOf taskID s' ≤ runsOf taskID s + if w.taskID = taskID then 1 else 0 := by
  cases he with
  | none => exact Nat.le_add_right _ _
  | workflowSave hT =>
    rw [runsOf, (Table.insert_eq_some_iff.mp hT).2, List.countP_append, List.countP_singleton]
    simp [runsOf]

/-- A lookup that has found nothing, and not because it failed. -/
theorem runsOf_eq_zero {ch : Choice} {s s' : Store} {taskID : TaskID} {e : RepoError}
    (hex : exec ch s (.workflowFindByTaskID taskID) = (.error e, s'))
    (he : failsTransiently (.error e : Except RepoError WorkflowRun) = false) :
    runsOf taskID s = 0 := by
  simp only [exec, query] at hex
  split at hex
  · obtain ⟨hr, -⟩ := Prod.mk.inj hex
    cases hr
  · next hnone =>
    rw [pick, List.getElem?_eq_none_iff] at hnone
    rw [runsOf, List.countP_eq_length_filter]
    by_contra hpos
    exact absurd (Nat.mod_lt _ (Nat.pos_of_ne_zero hpos)) (Nat.not_lt.mpr hnone)
  · obtain ⟨hr, -⟩ := Prod.mk.inj hex
    rw [← Except.error.inj hr] at he
    cases he

/-- The invariant: the stored runs of a task and the calls that are about to insert one are at most
one together. -/
def OneRun (p : Pool Call Store Op Res Err Reply) : Prop :=
  ∀ taskID, runsOf taskID p.store + p.threads.countP (creates taskID) ≤ 1

/-- A call is about to insert a run after its own failed lookup, or when it was before. -/
theorem creates_advance {taskID : TaskID} {t : Thread Call Op Res Err Reply} {o : Op} {r : Res o}
    {prog : UseCase Reply}
    (h : creates taskID ⟨t.call, prog, t.log ++ [⟨o, r⟩]⟩ = true) :
    (t.call = .routeTask taskID ∧ ∃ e : RepoError,
        (⟨o, r⟩ : Event Op Res) = ⟨.workflowFindByTaskID taskID, .error e⟩) ∨
      (creates taskID t = true ∧ InsertsNoRun o) := by
  simp only [creates, Bool.and_eq_true, decide_eq_true_eq, creating_concat] at h ⊢
  obtain ⟨hcall, hstep⟩ := h
  unfold creatingStep at hstep
  split at hstep
  · next id e heq =>
    rw [← of_decide_eq_true hstep] at hcall ⊢
    exact Or.inl ⟨hcall, e, heq⟩
  · next id heq =>
    cases heq
    exact Or.inr ⟨⟨hcall, hstep⟩, rfl⟩
  · cases hstep

/-- What the discipline says about a lookup of `RouteTask` that has failed. -/
theorem RoutesExclusively.lookup {p : Pool Call Store Op Res Err Reply}
    {t : Thread Call Op Res Err Reply} {taskID : TaskID} {e : RepoError}
    (hD : RoutesExclusively p t (.workflowFindByTaskID taskID) (.error e))
    (hcall : t.call = .routeTask taskID) :
    p.threads.countP (creates taskID) = 0 ∧
      failsTransiently (.error e : Except RepoError WorkflowRun) = false := by
  simp only [RoutesExclusively, routesExclusively, hcall, ne_eq, not_true_eq_false, decide_false,
    Bool.false_or, Bool.and_eq_true, List.all_eq_true, Bool.not_eq_true'] at hD
  refine ⟨List.countP_eq_zero.mpr fun t' ht' => ?_, hD.2⟩
  rw [hD.1 t' ht']
  exact Bool.false_ne_true

section Step

variable {p : Pool Call Store Op Res Err Reply} {i : Nat} {t : Thread Call Op Res Err Reply}
  {ch : Choice} {s' : Store}

/-- An insertion turns a call that was about to make it into a stored run. -/
theorem OneRun.insert {w : WorkflowRun} {k : Res (.workflowSave w) → UseCase Reply}
    {r : Res (.workflowSave w)} (hp : OneRun p) (hi : p.threads[i]? = some t)
    (hfoot : Footprint t.call (.workflowSave w))
    (hperm : InsertsAfterLookup t.log (.workflowSave w))
    (hex : exec ch p.store (.workflowSave w) = (r, s')) :
    OneRun (p.advance i t (.workflowSave w) k r s') := by
  obtain ⟨taskID', id, now, hcall, rfl⟩ := hfoot
  have hcreates : creates taskID' t = true := by
    rw [creates, hcall, decide_eq_true rfl]
    exact hperm
  intro taskID
  have hruns : runsOf taskID s' ≤ runsOf taskID p.store + if taskID' = taskID then 1 else 0 :=
    runsOf_workflowSave (exec_effect hex) taskID
  have hcount := Pool.countP_advance_add (creates taskID) hi k r s'
  -- The call has made its insertion and is not about to make another.
  have hafter : creates taskID ⟨t.call, k r,
      t.log ++ [⟨.workflowSave (newWorkflowRun id taskID' now), r⟩]⟩ ≠ true := by
    intro hafter
    rcases creates_advance hafter with ⟨-, e, heq⟩ | ⟨-, hno⟩
    · cases heq
    · cases hno
  have hbefore := hp taskID
  change runsOf taskID s' + _ ≤ 1
  rw [if_neg hafter] at hcount
  by_cases htask : taskID' = taskID
  · subst htask
    rw [if_pos hcreates] at hcount
    rw [if_pos rfl] at hruns
    omega
  · rw [if_neg htask] at hruns
    omega

/-- A failed lookup makes one call that is about to insert, where there was neither a run nor such a
call. -/
theorem OneRun.lookup {taskID : TaskID} {k : Res (.workflowFindByTaskID taskID) → UseCase Reply}
    {e : RepoError} (hi : p.threads[i]? = some t) (hcall : t.call = .routeTask taskID)
    (hex : exec ch p.store (.workflowFindByTaskID taskID) = (.error e, s'))
    (hD : RoutesExclusively p t (.workflowFindByTaskID taskID) (.error e)) :
    runsOf taskID s' + (p.advance i t (.workflowFindByTaskID taskID) k (.error e) s').threads.countP
      (creates taskID) ≤ 1 := by
  obtain ⟨hnone, htransient⟩ := hD.lookup hcall
  have hruns : runsOf taskID s' = 0 := by
    rw [(exec_effect hex).runsOf_eq rfl taskID]
    exact runsOf_eq_zero hex htransient
  have hcount := Pool.countP_advance_add (creates taskID) hi k (.error e) s'
  rw [hnone] at hcount
  have hle : (if creates taskID ⟨t.call, k (.error e),
      t.log ++ [⟨.workflowFindByTaskID taskID, .error e⟩]⟩ then 1 else 0) ≤ 1 := by
    split <;> omega
  omega

/-- **A step keeps the invariant.** -/
theorem OneRun.advance {o : Op} {k : Res o → UseCase Reply} {r : Res o} (hp : OneRun p)
    (hi : p.threads[i]? = some t) (hfoot : Footprint t.call o)
    (hperm : InsertsAfterLookup t.log o) (hex : exec ch p.store o = (r, s'))
    (hD : RoutesExclusively p t o r) : OneRun (p.advance i t o k r s') := by
  by_cases hno : InsertsNoRun o
  · intro taskID
    have hcount := Pool.countP_advance_add (creates taskID) hi k r s'
    have hbefore := hp taskID
    by_cases hafter : creates taskID ⟨t.call, k r, t.log ++ [⟨o, r⟩]⟩ = true
    · rcases creates_advance hafter with ⟨hcall, e, heq⟩ | ⟨hcreates, -⟩
      · -- A lookup has just failed: only here is the condition on the environment used.
        cases heq
        exact OneRun.lookup hi hcall hex hD
      · change runsOf taskID s' + _ ≤ 1
        rw [(exec_effect hex).runsOf_eq hno taskID]
        rw [if_pos hafter, if_pos hcreates] at hcount
        omega
    · change runsOf taskID s' + _ ≤ 1
      rw [(exec_effect hex).runsOf_eq hno taskID]
      rw [if_neg hafter] at hcount
      omega
  · cases o with
    | workflowSave w => exact hp.insert hi hfoot hperm hex
    | _ => exact absurd rfl hno

end Step

/-! ### Every interleaving -/

theorem oneRun_start (metrics : Bool) : OneRun (Pool.start (Store.empty metrics)) :=
  fun _ => Nat.zero_le 1

theorem OneRun.spawn {p : Pool Call Store Op Res Err Reply} (hp : OneRun p) (c : Call) :
    OneRun (p.spawn governance c) := by
  intro taskID
  have hnew : creates taskID ⟨c, c.body, []⟩ = false := Bool.and_false _
  change runsOf taskID p.store + (p.threads ++ [_]).countP _ ≤ 1
  rw [List.countP_append, List.countP_singleton]
  change runsOf taskID p.store + (_ + if creates taskID ⟨c, c.body, []⟩ then 1 else 0) ≤ 1
  rw [hnew]
  exact hp taskID

/-- **One run per task**, when `RouteTask` looks for runs exclusively: in every interleaving of any
calls in which every lookup by `RouteTask` meets the discipline, whatever else fails, a task never
has two stored runs. -/
theorem one_run_per_task {metrics : Bool} {p : Pool Call Store Op Res Err Reply}
    (hp : governance.ReachUnder RoutesExclusively (Pool.start (Store.empty metrics)) p)
    (taskID : TaskID) :
    (p.store.workflowRuns.rows.filter fun w => w.taskID = taskID).length ≤ 1 := by
  have hone : OneRun p := by
    refine System.ReachUnder.invariant creation_keeps System.inContract_start
      (oneRun_start metrics) (fun p c hp => hp.spawn c) ?_ hp
    intro p i t o k ch r s' hreach hp hi ht hperm hex hD
    have honly := hreach.reach.only Call.body_footprint t (List.mem_of_getElem? hi)
    rw [ht] at honly
    exact hp.advance hi honly.1 hperm hex hD
  rw [← List.countP_eq_length_filter]
  exact (Nat.le_add_right _ _).trans (hone taskID)

/-- A task that is routed twice, one call after the other. -/
theorem one_run_per_task_twice : ∃ p : Pool Call Store Op Res Err Reply,
    governance.ReachUnder RoutesExclusively (Pool.start (Store.empty true)) p ∧
    p.threads.countP (fun t => t.call = .routeTask firstTask) = 2 ∧
    (p.store.workflowRuns.rows.filter fun w => w.taskID = firstTask).length ≤ 1 := by
  have hrun : (governance.playUnder routesExclusively (Pool.start (Store.empty true))
      (whole 'a' 0 (.submitTask bugfixInput) 5 ++ whole 'b' 1 (.routeTask firstTask) 11 ++
        whole 'c' 2 (.routeTask firstTask) 7)).map (fun p =>
          p.threads.countP fun t => t.call = .routeTask firstTask) = some 2 := by
    decide +kernel
  obtain ⟨p, hplay, hcalls⟩ := Option.map_eq_some_iff.mp hrun
  have hp : governance.ReachUnder RoutesExclusively (Pool.start (Store.empty true)) p :=
    System.playUnder_reachUnder (fun _ _ _ _ hd => hd) hplay .start
  exact ⟨p, hp, hcalls, one_run_per_task hp firstTask⟩

/-! ### The race -/

/-- Two calls look for the run of a task before either of them inserts one. -/
def bothLook : List (System.Action Call Choice) :=
  whole 'a' 0 (.submitTask bugfixInput) 5 ++
    [.spawn (.routeTask firstTask), .spawn (.routeTask firstTask)] ++
    advances 'b' 1 0 7 ++ advances 'c' 2 0 7 ++ advances 'b' 1 7 2 ++ advances 'c' 2 7 2

/-- **Two runs of one task**: both calls have found none, and both insert one. -/
theorem two_runs_of_one_task : ¬ ∀ p : Pool Call Store Op Res Err Reply,
    governance.Reach unguarded (Pool.start (Store.empty true)) p → ∀ taskID : TaskID,
      (p.store.workflowRuns.rows.filter fun w => w.taskID = taskID).length ≤ 1 := by
  have hrun : (carryOut bothLook).map (fun p =>
      (p.store.workflowRuns.rows.filter fun w => w.taskID = firstTask).length) = some 2 := by
    decide +kernel
  obtain ⟨p, hplay, htwo⟩ := Option.map_eq_some_iff.mp hrun
  intro hone
  have hle := hone p (carryOut_reach hplay) firstTask
  rw [htwo] at hle
  exact absurd hle (by decide)

end Governance

import GovernanceCore.Sequential.Pipeline
import GovernanceCore.Store.Effects

/-!
# Does decomposition come to an end?

A decomposed task hands its type, its priority and its risk level down to its subtasks; its metadata
stay behind, and its scope is lowered: system, repo, module, file. Below `file` there is no scope,
and `childScope` answers `file` again. So the tree of subtasks is finite exactly when routing
selects another strategy before it gets to the bottom, or there.

Without a memory context and without failure statistics the selection is a function of five values
(`selects`). What it selects at the scope `file` decides: a task of high risk is decomposed there
when its type and priority are in `bottomless` (`selects_file`), and then every subtask below the
scope `system` is decomposed as well (`selects_below`). The rest is the tree itself. `Subtask` is
its edge, taken from the runs of `RouteTask`, and `decomposition_finite_iff` says which submissions
have a finite tree.
-/

namespace Governance

open Framework

/-! ### What routing selects without advice -/

/-- The strategy with the best score. -/
def scored (taskType : TaskType) (scope : TaskScope) (priority : Priority) (risk : RiskLevel) :
    RoutingStrategy :=
  let t : Task := ⟨⟨""⟩, none, taskType, "", scope, priority, risk, .created, [], 0, 0⟩
  let eval strategy := applyAdaptiveAdjustment none (scoreStrategy t none strategy)
  (tiebreak (eval .direct) [eval .decompose, eval .escalate]).strategy

/-- The strategy that is selected: overrides first, then scores. -/
def selects (taskType : TaskType) (scope : TaskScope) (priority : Priority) (risk : RiskLevel)
    (forced : Option RoutingStrategy) : RoutingStrategy :=
  if risk = .critical then .escalate
  else if scope = .system ∧ taskType = .deployment then .escalate
  else forced.getD (scored taskType scope priority risk)

/-- The strategy of a task without advice. -/
abbrev Task.selected (t : Task) : RoutingStrategy :=
  selects t.taskType t.scope t.priority t.riskLevel (forcedStrategy t.metadata)

theorem evaluate_selected (t : Task) :
    (Routing.evaluate t none none).selectedStrategy = t.selected := by
  unfold Routing.evaluate Task.selected selects
  rw [checkOverrides_eq]
  by_cases hrisk : t.riskLevel = .critical
  · rw [if_pos hrisk, if_pos hrisk]
    rfl
  by_cases hdeploy : t.scope = .system ∧ t.taskType = .deployment
  · rw [if_neg hrisk, if_neg hrisk, if_pos hdeploy, if_pos hdeploy]
    rfl
  rw [if_neg hrisk, if_neg hrisk, if_neg hdeploy, if_neg hdeploy]
  cases forcedStrategy t.metadata with
  | none => rfl
  | some strategy => rfl

/-! ### The table

The scores do not look into an undeclared text, so one representative stands for all of them and
what is selected is a finite table. -/

/-- The types and priorities that are decomposed at the scope `file` when the risk is high. -/
def bottomless : TaskType → Priority → Bool
  | .refactor, _ => true
  | .research, _ => true
  | .deployment, priority => priority ≠ .urgent
  | .other _, priority => priority = .high || priority = .urgent
  | _, _ => false

def TaskType.plain : TaskType → TaskType
  | .other _ => .other ""
  | t => t

def TaskScope.plain : TaskScope → TaskScope
  | .other _ => .other ""
  | s => s

def Priority.plain : Priority → Priority
  | .other _ => .other ""
  | p => p

def RiskLevel.plain : RiskLevel → RiskLevel
  | .other _ => .other ""
  | r => r

theorem selects_plain (taskType : TaskType) (scope : TaskScope) (priority : Priority)
    (risk : RiskLevel) (forced : Option RoutingStrategy) :
    selects taskType.plain scope.plain priority.plain risk.plain forced =
      selects taskType scope priority risk forced := by
  have hrisk : selects taskType scope priority risk.plain forced =
      selects taskType scope priority risk forced := by cases risk <;> rfl
  have hpriority : selects taskType scope priority.plain risk.plain forced =
      selects taskType scope priority risk.plain forced := by cases priority <;> rfl
  have hscope : selects taskType scope.plain priority.plain risk.plain forced =
      selects taskType scope priority.plain risk.plain forced := by cases scope <;> rfl
  rw [← hrisk, ← hpriority, ← hscope]
  -- the override asks for the scope before it asks for the type
  cases taskType <;> cases scope <;> rfl

theorem bottomless_plain (taskType : TaskType) (priority : Priority) :
    bottomless taskType.plain priority.plain = bottomless taskType priority := by
  cases taskType <;> cases priority <;> rfl

def plainTypes : List TaskType :=
  [.development, .review, .research, .refactor, .bugfix, .deployment, .other ""]

def plainScopes : List TaskScope := [.file, .module, .repo, .system, .other ""]

def plainPriorities : List Priority := [.low, .normal, .high, .urgent, .other ""]

def plainRisks : List RiskLevel := [.low, .medium, .high, .critical, .other ""]

theorem TaskType.plain_mem (t : TaskType) : t.plain ∈ plainTypes := by
  cases t <;> simp [TaskType.plain, plainTypes]

theorem TaskScope.plain_mem (s : TaskScope) : s.plain ∈ plainScopes := by
  cases s <;> simp [TaskScope.plain, plainScopes]

theorem Priority.plain_mem (p : Priority) : p.plain ∈ plainPriorities := by
  cases p <;> simp [Priority.plain, plainPriorities]

theorem RiskLevel.plain_mem (r : RiskLevel) : r.plain ∈ plainRisks := by
  cases r <;> simp [RiskLevel.plain, plainRisks]

theorem RiskLevel.plain_eq_high_iff (r : RiskLevel) : r.plain = .high ↔ r = .high := by
  cases r <;> simp [RiskLevel.plain]

/-- At the bottom: what is decomposed at the scope `file`. -/
theorem selects_file (taskType : TaskType) (priority : Priority) (risk : RiskLevel) :
    selects taskType .file priority risk none = .decompose ↔
      risk = .high ∧ bottomless taskType priority = true := by
  have htable : ∀ taskType ∈ plainTypes, ∀ priority ∈ plainPriorities, ∀ risk ∈ plainRisks,
      selects taskType .file priority risk none = .decompose ↔
        risk = .high ∧ bottomless taskType priority = true := by decide +kernel
  rw [← selects_plain, ← bottomless_plain, ← risk.plain_eq_high_iff]
  exact htable _ taskType.plain_mem _ priority.plain_mem _ risk.plain_mem

/-- On the way down: below the scope `system` nothing else is selected either. -/
theorem selects_below {taskType : TaskType} {scope : TaskScope} {priority : Priority}
    (hscope : scope = .repo ∨ scope = .module ∨ scope = .file)
    (hbottomless : bottomless taskType priority = true) :
    selects taskType scope priority .high none = .decompose := by
  have htable : ∀ taskType ∈ plainTypes, ∀ priority ∈ plainPriorities,
      bottomless taskType priority = true →
        selects taskType .repo priority .high none = .decompose ∧
        selects taskType .module priority .high none = .decompose := by decide +kernel
  obtain ⟨hrepo, hmodule⟩ := htable _ taskType.plain_mem _ priority.plain_mem
    (by rw [bottomless_plain]; exact hbottomless)
  rcases hscope with rfl | rfl | rfl
  · rw [← selects_plain]
    exact hrepo
  · rw [← selects_plain]
    exact hmodule
  · exact (selects_file taskType priority .high).mpr ⟨rfl, hbottomless⟩

/-- The submissions whose decomposition has no end: what is of high risk and bottomless, unless the
metadata force another strategy on it. An undeclared type of urgent priority is escalated at the
scope `system`, so there the decomposition must have been forced. -/
def endless (taskType : TaskType) (scope : TaskScope) (priority : Priority)
    (forced : Option RoutingStrategy) : Bool :=
  (forced = none || forced = some .decompose) &&
    match scope, taskType with
    | .system, .refactor => true
    | .system, .research => true
    | .system, .other _ => priority = .high || priority = .urgent && forced = some .decompose
    | .repo, .deployment => priority ≠ .urgent
    | _, _ => false

theorem endless_iff (taskType : TaskType) (scope : TaskScope) (priority : Priority)
    (forced : Option RoutingStrategy) :
    endless taskType scope priority forced = true ↔
      classifyRisk taskType scope = .high ∧ bottomless taskType priority = true ∧
        selects taskType scope priority (classifyRisk taskType scope) forced = .decompose := by
  have htable : ∀ taskType ∈ plainTypes, ∀ scope ∈ plainScopes, ∀ priority ∈ plainPriorities,
      ∀ forced ∈ [none, some .direct, some .decompose, some .collaborate, some .escalate],
        endless taskType scope priority forced = true ↔
          classifyRisk taskType scope = .high ∧ bottomless taskType priority = true ∧
            selects taskType scope priority (classifyRisk taskType scope) forced = .decompose := by
    decide +kernel
  -- Undeclared texts are all treated alike, so the finite table decides for every input.
  have hendless : endless taskType.plain scope.plain priority.plain forced =
      endless taskType scope priority forced := by
    cases taskType <;> cases scope <;> cases priority <;> rfl
  have hrisk : classifyRisk taskType.plain scope.plain = classifyRisk taskType scope := by
    cases taskType <;> cases scope <;> rfl
  have hselects := selects_plain taskType scope priority (classifyRisk taskType scope) forced
  have hplain : (classifyRisk taskType scope).plain = classifyRisk taskType scope := by
    cases taskType <;> cases scope <;> rfl
  rw [hplain] at hselects
  rw [← hendless, ← hselects, ← bottomless_plain, ← hrisk]
  refine htable _ taskType.plain_mem _ scope.plain_mem _ priority.plain_mem _ ?_
  cases forced with
  | none => decide
  | some strategy => cases strategy <;> decide

/-! ### The tree of subtasks -/

/-- No memory context and no failure statistics. -/
def unadvised : Environment := fun _ ch => ch.memory = none ∧ ch.stats = none

/-- A call on `RouteTask` without advice, whatever fails in it. -/
def Routes (taskID : TaskID) (s s' : Store) : Prop :=
  ∃ res, (routeTask taskID).Runs (fun s o r s' => ∃ ch, unadvised o ch ∧ exec ch s o = (r, s'))
    s res s'

/-- The edge of the tree. A node is a stored task together with the store in which it is looked at.
Routing the task of the parent creates the task of the child, and other tasks may have been routed
when the child is looked at. -/
def Subtask (child parent : Store × Task) : Prop :=
  parent.2 ∈ parent.1.tasks ∧ ∃ s', Routes parent.2.id parent.1 s' ∧
    child.2 ∈ s'.tasks ∧ child.2 ∉ parent.1.tasks ∧
    Relation.ReflTransGen (fun s s' => ∃ taskID, Routes taskID s s') s' child.1

/-! #### What a routing adds to the tasks -/

/-- A step without advice, seen through the table of tasks. -/
def TaskStep : Table Task.id → (o : Op) → Res o → Table Task.id → Prop :=
  fun T o r T' => ∃ s s' ch, s.tasks = T ∧ s'.tasks = T' ∧ unadvised o ch ∧ exec ch s o = (r, s')

section TaskStep

variable {β : Type} {Q : Except Err β → Table Task.id → Prop} {T : Table Task.id}

/-- Only `TaskRepo.save` touches the table. -/
theorem taskStep_quiet {o : Op} {f : Res o → UseCase β} (ho : ∀ t, o ≠ .taskSave t)
    (h : ∀ r, (f r).wp TaskStep Q T) : (Program.act o f).wp TaskStep Q T := by
  rintro r T' ⟨s, s', ch, rfl, rfl, -, hex⟩
  have heffect := exec_effect hex
  have htasks : s'.tasks = s.tasks := by
    cases heffect with
    | taskSave hT => exact absurd rfl (ho _)
    | _ => rfl
  rw [htasks]
  exact h r

theorem taskStep_loadOrCreateWorkflow {taskID : TaskID} {now : Timestamp}
    {f : WorkflowRun → UseCase β} (herror : ∀ e, Q (.error e) T)
    (h : ∀ w, (f w).wp TaskStep Q T) :
    (loadOrCreateWorkflow taskID now >>= f).wp TaskStep Q T := by
  refine taskStep_quiet (fun _ h => by cases h) fun r => ?_
  cases r with
  | ok w => exact h w
  | error e =>
    refine taskStep_quiet (fun _ h => by cases h) fun id => ?_
    refine taskStep_quiet (fun _ h => by cases h) fun r => ?_
    cases r with
    | error e => exact herror _
    | ok u => exact h _

end TaskStep

/-- The subtasks of `parent` that have been added. -/
def AddedSubtasks (parent : Task) (T T' : Table Task.id) : Prop :=
  ∃ subs, T'.rows = T.rows ++ subs ∧ ∀ sub ∈ subs, SubtaskOf parent sub

theorem AddedSubtasks.refl (parent : Task) (T : Table Task.id) : AddedSubtasks parent T T :=
  ⟨[], (List.append_nil _).symm, fun _ h => absurd h List.not_mem_nil⟩

theorem AddedSubtasks.cons {parent sub : Task} {T T₁ T' : Table Task.id}
    (hT : T₁.rows = T.rows ++ [sub]) (hsub : SubtaskOf parent sub)
    (h : AddedSubtasks parent T₁ T') : AddedSubtasks parent T T' := by
  obtain ⟨subs, hrows, hsubs⟩ := h
  refine ⟨sub :: subs, ?_, List.forall_mem_cons.mpr ⟨hsub, hsubs⟩⟩
  rw [hrows, hT, List.append_assoc]
  rfl

theorem createSubtasks_adds (parent : Task) (now : Timestamp) (suffixes : List String)
    (T : Table Task.id) :
    (createSubtasks parent now suffixes).wp TaskStep (fun _ T' => AddedSubtasks parent T T') T := by
  induction suffixes generalizing T with
  | nil => exact .refl parent T
  | cons suffix rest ih =>
    refine taskStep_quiet (fun _ h => by cases h) fun id => ?_
    refine wp_orWrap (fun _ => .refl parent T) fun sub hsub => ?_
    have hof : SubtaskOf parent sub := by
      obtain rfl := Except.ok.inj (hsub.symm.trans (newTask_eq_ok (isBlank_decompose _ _)))
      exact ⟨rfl, rfl, rfl, rfl, rfl⟩
    -- the insertion may fail before or after its effect
    rintro r T' ⟨s, s', ch, rfl, rfl, -, hex⟩
    have hrows : s'.tasks = s.tasks ∨ s'.tasks.rows = s.tasks.rows ++ [sub] := by
      have heffect := exec_effect hex
      cases heffect with
      | none => exact Or.inl rfl
      | taskSave hT => exact Or.inr (Table.insert_eq_some_iff.mp hT).2
    have hrest : ∀ T', AddedSubtasks parent s'.tasks T' → AddedSubtasks parent s.tasks T' := by
      intro T' h
      rcases hrows with hrows | hrows
      · rwa [hrows] at h
      · exact .cons hrows hof h
    refine wp_orFail (fun _ => hrest _ (.refl _ _)) fun _ _ => ?_
    refine taskStep_quiet (fun _ h => by cases h) fun r => ?_
    refine wp_orFail (fun _ => hrest _ (.refl _ _)) fun _ _ => ?_
    exact Program.wp_mono (fun _ T' h => hrest T' h) (ih _)

/-- Routing adds subtasks of the task, and only if it is to be decomposed. -/
theorem routeTask_adds {T : Table Task.id} {t : Task} (ht : t ∈ T) :
    (routeTask t.id).wp TaskStep (fun _ T' => T' = T ∨
      t.selected = .decompose ∧ AddedSubtasks t T T') T := by
  -- the task that is loaded is `t`
  rintro r T' ⟨s, s', ch, rfl, rfl, -, hex⟩
  obtain ⟨rfl, hfound⟩ := query_eq hex
  cases r with
  | error e => exact Or.inl rfl
  | ok t' =>
  obtain ⟨hmem, hid⟩ := Table.find_eq_some_iff.mp (hfound t' rfl)
  obtain rfl : t' = t := Table.eq_of_key_eq hmem ht hid
  -- both sources of advice are silent
  rintro memCtx T' ⟨s₁, s₁', ch₁, htasks, rfl, hch₁, hex₁⟩
  obtain ⟨rfl, rfl⟩ := Prod.mk.inj hex₁
  rintro stats T' ⟨s₂, s₂', ch₂, htasks₂, rfl, hch₂, hex₂⟩
  obtain ⟨rfl, rfl⟩ := Prod.mk.inj hex₂
  have hselected : (Routing.evaluate t' ch₁.memory ch₂.stats).selectedStrategy = t'.selected := by
    rw [hch₁.1, hch₂.2]
    exact evaluate_selected t'
  rw [htasks₂, htasks]
  generalize s'.tasks = T
  have hsame : ∀ e : Err, T = T ∨ t'.selected = .decompose ∧ AddedSubtasks t' T T :=
    fun _ => Or.inl rfl
  refine taskStep_quiet (fun _ h => by cases h) fun (now : Timestamp) => ?_
  refine taskStep_quiet (fun _ h => by cases h) fun (rdID : RoutingDecisionID) => ?_
  refine wp_orWrap hsame fun rd _ => ?_
  refine taskStep_quiet (fun _ h => by cases h) fun r => ?_
  refine wp_orFail hsame fun _ _ => ?_
  refine taskStep_loadOrCreateWorkflow hsame fun w => ?_
  refine wp_orWrap hsame fun w' _ => ?_
  refine taskStep_quiet (fun _ h => by cases h) fun r => ?_
  refine wp_orFail hsame fun _ _ => ?_
  refine taskStep_quiet (fun _ h => by cases h) fun r => ?_
  refine wp_orFail hsame fun _ _ => ?_
  by_cases hdec : (Routing.evaluate t' ch₁.memory ch₂.stats).selectedStrategy = .decompose
  · simp only [if_pos hdec]
    have hadds := createSubtasks_adds t' now (subtaskSuffixes t'.scope) T
    refine Program.wp_bind.mpr (Program.wp_mono ?_ (wp_wrapError (fun _ _ _ h => h) hadds))
    intro res T' h
    cases res with
    | error e => exact Or.inr ⟨hselected.symm.trans hdec, h⟩
    | ok u => exact Or.inr ⟨hselected.symm.trans hdec, h⟩
  · simp only [if_neg hdec]
    exact Or.inl rfl

/-- A task that has subtasks was decomposed. -/
theorem Subtask.spec {child parent : Store × Task} (h : Subtask child parent) :
    parent.2.selected = .decompose ∧ SubtaskOf parent.2 child.2 := by
  obtain ⟨ht, s', ⟨res, hrun⟩, hmem, hnot, -⟩ := h
  have hrun' : (routeTask parent.2.id).Runs TaskStep parent.1.tasks res s'.tasks :=
    hrun.map fun ⟨ch, hch, hex⟩ => ⟨_, _, ch, rfl, rfl, hch, hex⟩
  rcases hrun'.of_wp (routeTask_adds ht) with hsame | ⟨hdec, subs, hrows, hsubs⟩
  · rw [hsame] at hmem
    exact absurd hmem hnot
  · rw [Table.mem_def, hrows] at hmem
    rcases List.mem_append.mp hmem with hold | hnew
    · exact absurd hold hnot
    · exact ⟨hdec, hsubs child.2 hnew⟩

/-! #### Finite trees -/

/-- What a task hands down to its subtasks, as far as it decides about the bottom. -/
def Task.isBottomless (t : Task) : Prop :=
  t.riskLevel = .high ∧ bottomless t.taskType t.priority = true

theorem SubtaskOf.isBottomless_iff {parent sub : Task} (h : SubtaskOf parent sub) :
    sub.isBottomless ↔ parent.isBottomless := by
  unfold Task.isBottomless
  rw [h.riskLevel, h.taskType, h.priority]

/-- The number of scopes below a scope. -/
def TaskScope.depth : TaskScope → Nat
  | .system => 3
  | .repo => 2
  | .module => 1
  | .file => 0
  | .other _ => 1

theorem depth_childScope {scope : TaskScope} (h : scope ≠ .file) :
    (childScope scope).depth < scope.depth := by
  cases scope with
  | file => exact absurd rfl h
  | _ => exact Nat.lt_succ_self _

/-- Without metadata the scope is lowered until `file`, and there the task is not decomposed. -/
theorem acc_of_plain {node : Store × Task} (hmeta : node.2.metadata = [])
    (hbottom : ¬ node.2.isBottomless) : Acc Subtask node := by
  induction hdepth : node.2.scope.depth using Nat.strong_induction_on generalizing node with
  | _ n ih =>
    refine Acc.intro _ fun child hchild => ?_
    obtain ⟨hdec, hsub⟩ := hchild.spec
    have hfile : node.2.scope ≠ .file := by
      intro hfile
      rw [Task.selected, hfile, hmeta] at hdec
      exact hbottom ((selects_file _ _ _).mp hdec)
    refine ih _ ?_ hsub.metadata (fun h => hbottom (hsub.isBottomless_iff.mp h)) rfl
    rw [hsub.scope, ← hdepth]
    exact depth_childScope hfile

theorem acc_of_not_isBottomless {node : Store × Task} (h : ¬ node.2.isBottomless) :
    Acc Subtask node := by
  refine Acc.intro _ fun child hchild => ?_
  have hsub := hchild.spec.2
  exact acc_of_plain hsub.metadata fun hb => h (hsub.isBottomless_iff.mp hb)

theorem acc_of_not_decomposed {node : Store × Task} (h : node.2.selected ≠ .decompose) :
    Acc Subtask node :=
  Acc.intro _ fun _ hchild => absurd hchild.spec.1 h

/-! #### Infinite trees -/

theorem unadvised_open : unadvised.Open := fun _ text =>
  ⟨{ id := text }, rfl, rfl, rfl, rfl⟩

/-- A task that has not been routed and is to be decomposed has a subtask, which has not been routed
either. -/
theorem exists_subtask {s : Store} {t : Task} (htext : t.id.text ≠ "")
    (hfile : TaskFile s.core t [] [] []) (hdec : t.selected = .decompose) :
    ∃ child : Store × Task, Subtask child (s, t) ∧ SubtaskOf t child.2 ∧
      child.2.id.text ≠ "" ∧ TaskFile child.1.core child.2 [] [] [] := by
  obtain ⟨⟨res, s', hrun⟩, hall⟩ := (routeTask_gives htext hfile).total unadvised_open
  obtain ⟨rd, -, hrouted⟩ := hall res s' hrun
  obtain ⟨ch, ch', hch, hch', hstrategy⟩ := hrouted.strategy
  rw [hch.1, hch'.2, evaluate_selected, hdec] at hstrategy
  obtain ⟨subs, hrows, hsubs, hlen⟩ := hrouted.subtasks
  rw [if_pos hstrategy] at hlen
  obtain ⟨sub, hsub⟩ := List.exists_mem_of_length_pos (Nat.lt_of_lt_of_eq Nat.two_pos hlen.symm)
  obtain ⟨hof, hid, hfile'⟩ := hsubs sub hsub
  refine ⟨(s', sub), ⟨(Table.find_eq_some_iff.mp hfile.task).1, s', ⟨res, ?_⟩, ?_, ?_, .refl⟩,
    hof, hid, hfile'⟩
  · refine Program.Runs.map (f := id) (fun hstep => ?_) hrun
    obtain ⟨ch, -, -, hch, hex⟩ := hstep
    exact ⟨ch, hch, hex⟩
  · exact (Table.find_eq_some_iff.mp hfile'.task).1
  · -- the table has no two rows with one id
    intro hold
    change s'.tasks.rows = s.tasks.rows ++ subs at hrows
    have hnodup : (s.tasks.rows ++ subs).Nodup := by
      rw [← hrows]
      exact List.Nodup.of_map _ s'.tasks.key_nodup
    exact List.disjoint_of_nodup_append hnodup hold hsub

/-- A property that is passed on to a further node keeps the tree infinite. -/
theorem not_acc_of_forall_exists {α : Type} {r : α → α → Prop} {P : α → Prop}
    (hP : ∀ a, P a → ∃ b, r b a ∧ P b) {a : α} (ha : P a) : ¬ Acc r a := by
  intro hacc
  induction hacc with
  | intro a _ ih =>
    obtain ⟨b, hr, hb⟩ := hP a ha
    exact ih b hr hb

/-- A bottomless task that has not been routed and is to be decomposed has an infinite tree. -/
theorem not_acc_of_isBottomless {s : Store} {t : Task} (htext : t.id.text ≠ "")
    (hfile : TaskFile s.core t [] [] []) (hdec : t.selected = .decompose)
    (hbottom : t.isBottomless) : ¬ Acc Subtask (s, t) := by
  refine not_acc_of_forall_exists (P := fun node : Store × Task => node.2.id.text ≠ "" ∧
    TaskFile node.1.core node.2 [] [] [] ∧ node.2.selected = .decompose ∧ node.2.isBottomless)
    ?_ ⟨htext, hfile, hdec, hbottom⟩
  rintro ⟨s, t⟩ ⟨htext, hfile, hdec, hbottom⟩
  obtain ⟨child, hchild, hof, hid, hfile'⟩ := exists_subtask htext hfile hdec
  have hbottom' : child.2.isBottomless := hof.isBottomless_iff.mpr hbottom
  refine ⟨child, hchild, hid, hfile', ?_, hbottom'⟩
  have hscope : child.2.scope = .repo ∨ child.2.scope = .module ∨ child.2.scope = .file := by
    rw [hof.scope]
    cases t.scope <;> simp [childScope]
  rw [Task.selected, hof.metadata, hbottom'.1]
  exact selects_below hscope hbottom'.2

/-! ### The submissions with a finite tree -/

/-- A submission that is accepted has created its task. -/
theorem submitted_of_runs {env : Environment} {input : SubmitTaskInput} {t : Task} {s s' : Store}
    (hrun : (submitTask input).Runs (Steady env) s (.ok t) s') :
    Submitted input t ∧ TaskFile s'.core t [] [] [] := by
  have hcore : (submitTask input).Runs (CoreStep env) s.core (.ok t) s'.core :=
    hrun.map fun hstep => ⟨_, _, rfl, rfl, hstep⟩
  cases htitle : isBlank input.title with
  | false =>
    obtain ⟨t', ht', hsubmitted, hfile⟩ := hcore.of_wp (submitTask_gives htitle)
    obtain rfl := Except.ok.inj ht'
    exact ⟨hsubmitted, hfile⟩
  | true =>
    -- a blank title is refused
    have hrefused : Gives env (fun res _ => ∃ e, res = .error e) (submitTask input) s.core := by
      refine Gives.newID fun id _ => ?_
      refine Gives.now fun now => ?_
      refine Gives.context fun ch _ => ?_
      rw [newTask, if_pos htitle]
      exact ⟨_, rfl⟩
    obtain ⟨e, he⟩ := hcore.of_wp hrefused
    cases he

/-- **Decomposition comes to an end** exactly for the submissions that are not `endless`: for those,
and for no others, the tree of subtasks that routing creates has no infinite branch, in whatever
order the tasks are routed and whatever fails meanwhile. -/
theorem decomposition_finite_iff {input : SubmitTaskInput} {t : Task} {s s' : Store}
    (hrun : (submitTask input).Runs (Steady unadvised) s (.ok t) s') :
    Acc Subtask (s', t) ↔
      endless input.type input.scope input.priority (forcedStrategy input.metadata) = false := by
  obtain ⟨ht, hfile⟩ := submitted_of_runs hrun
  have hselected : t.selected = selects input.type input.scope input.priority
      (classifyRisk input.type input.scope) (forcedStrategy input.metadata) := by
    rw [Task.selected, ht.taskType, ht.scope, ht.priority, ht.riskLevel, ht.metadata]
  have hbottomless : t.isBottomless ↔ classifyRisk input.type input.scope = .high ∧
      bottomless input.type input.priority = true := by
    rw [Task.isBottomless, ht.riskLevel, ht.taskType, ht.priority]
  have hendless := endless_iff input.type input.scope input.priority
    (forcedStrategy input.metadata)
  rw [← hselected, ← and_assoc, ← hbottomless] at hendless
  rw [← Bool.not_eq_true, hendless]
  refine ⟨fun hacc h => ?_, fun h => ?_⟩
  · exact not_acc_of_isBottomless ht.id_ne hfile h.2 h.1 hacc
  · -- A task that is not decomposed has no subtasks, whatever they would be like.
    by_cases hb : t.isBottomless
    · exact acc_of_not_decomposed fun hdec => h ⟨hb, hdec⟩
    · exact acc_of_not_isBottomless hb

/-- A development that touches the whole system. -/
def developmentInput : SubmitTaskInput :=
  { type := .development, title := "add", scope := .system, priority := .normal, metadata := [] }

/-- The development is decomposed, and its tree is finite. -/
theorem decomposition_finite_development : ∃ t s', (submitTask developmentInput).Runs
    (Steady unadvised) (Store.empty true) (.ok t) s' ∧ (∃ child, Subtask child (s', t)) ∧
      Acc Subtask (s', t) := by
  have htitle : isBlank developmentInput.title = false := by decide
  obtain ⟨⟨res, s', hrun⟩, hall⟩ := (submitTask_gives htitle).total unadvised_open
  obtain ⟨t, rfl, ht, hfile⟩ := hall res s' hrun
  have hdec : t.selected = .decompose := by
    rw [Task.selected, ht.taskType, ht.scope, ht.priority, ht.riskLevel, ht.metadata]
    decide +kernel
  obtain ⟨child, hchild, -⟩ := exists_subtask ht.id_ne hfile hdec
  exact ⟨t, s', hrun, ⟨child, hchild⟩, (decomposition_finite_iff hrun).mpr (by decide)⟩

/-- A refactoring of the whole system. -/
def refactoringInput : SubmitTaskInput :=
  { type := .refactor, title := "rename", scope := .system, priority := .normal, metadata := [] }

/-- **A refactoring of the system is decomposed without end**: at the scope `file` the two subtasks
of each subtask are as their parent was. -/
theorem refactoring_decomposed_forever :
    ¬ ∀ (input : SubmitTaskInput) (t : Task) (s s' : Store),
      (submitTask input).Runs (Steady unadvised) s (.ok t) s' → Acc Subtask (s', t) := by
  intro hfinite
  have htitle : isBlank refactoringInput.title = false := by decide
  obtain ⟨⟨res, s', hrun⟩, hall⟩ :=
    (submitTask_gives (c := (Store.empty true).core) htitle).total unadvised_open
  obtain ⟨t, rfl, ht, hfile⟩ := hall res s' hrun
  refine not_acc_of_isBottomless ht.id_ne hfile ?_ ?_ (hfinite _ t _ s' hrun)
  · rw [Task.selected, ht.taskType, ht.scope, ht.priority, ht.riskLevel, ht.metadata]
    decide +kernel
  · rw [Task.isBottomless, ht.riskLevel, ht.taskType, ht.priority]
    decide

end Governance

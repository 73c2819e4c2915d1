import GovernanceCore.Sequential.Pipeline

/-!
# Tasks and their subtasks

A task that is routed to be decomposed gets two subtasks. `RouteTask` stores its decision before it
asks the workflow run, so a task can have any number of stored decisions, of all strategies; the one
that has taken effect is the one that the run refers to.

`Family` is what this is about: the tasks, the routing decisions, and for each run its task and its
decision. `FamilyStep` says what a completed call can do to it. There is one rule for `RouteTask`
when the task has a run, which leaves a decision that nobody refers to, and one for the first time,
when the run, its reference and the subtasks appear together. `Family.Sound` is what these steps
preserve. `Lifecycle/Subtasks.lean` proves that every call is such a step.
-/

namespace Governance

open Framework

/-! ### Families -/

/-- The tasks, the routing decisions, and the links of the runs. -/
structure Family where
  tasks : Table Task.id
  decisions : Table RoutingDecision.id
  links : List (TaskID × Option RoutingDecisionID)

namespace Family

/-- The subtasks of a task. -/
def children (f : Family) (id : TaskID) : List Task :=
  f.tasks.rows.filter fun sub => sub.parentTaskID = some id

/-- A run of the task refers to a decision that has selected decompose. -/
def Decomposed (f : Family) (id : TaskID) : Prop :=
  ∃ d ∈ f.decisions, (id, some d.id) ∈ f.links ∧ d.selectedStrategy = .decompose

/-- What holds of the family between two calls. -/
structure Sound (f : Family) : Prop where
  parents : ∀ sub ∈ f.tasks, ∀ id, sub.parentTaskID = some id →
    ∃ t ∈ f.tasks, t.id = id ∧ SubtaskOf t sub
  /-- Every run belongs to a stored task. -/
  owned : ∀ l ∈ f.links, ∃ t ∈ f.tasks, t.id = l.1
  /-- No task has two runs. -/
  single : (f.links.map Prod.fst).Nodup
  /-- No run refers to a decision that is not stored. -/
  referred : ∀ l ∈ f.links, ∀ id, l.2 = some id → ∃ d ∈ f.decisions, d.id = id
  two : ∀ t ∈ f.tasks, f.Decomposed t.id → (f.children t.id).length = 2
  childless : ∀ t ∈ f.tasks, ¬ f.Decomposed t.id → f.children t.id = []

variable {f : Family} {id : TaskID}

/-- Nobody names a task as its parent that is not stored. -/
theorem Sound.children_eq_nil (hf : f.Sound) (hid : ∀ t ∈ f.tasks, t.id ≠ id) :
    f.children id = [] := by
  refine List.filter_eq_nil_iff.mpr fun sub hsub hparent => ?_
  obtain ⟨t, ht, htid, -⟩ := hf.parents sub hsub id (of_decide_eq_true hparent)
  exact hid t ht htid

/-- No decision has been taken for a task that is not stored. -/
theorem Sound.not_decomposed (hf : f.Sound) (hid : ∀ t ∈ f.tasks, t.id ≠ id) :
    ¬ f.Decomposed id := by
  rintro ⟨d, -, hlink, -⟩
  obtain ⟨t, ht, htid⟩ := hf.owned _ hlink
  exact hid t ht htid

/-- New tasks with one parent are subtasks of that one and of no other task. -/
theorem children_append {T : Table Task.id} {D : Table RoutingDecision.id}
    {links : List (TaskID × Option RoutingDecisionID)} {subs : List Task} {parent : Option TaskID}
    (hT : T.rows = f.tasks.rows ++ subs) (hsubs : ∀ sub ∈ subs, sub.parentTaskID = parent) :
    (⟨T, D, links⟩ : Family).children id
      = f.children id ++ if parent = some id then subs else [] := by
  have hnew : subs.filter (fun sub => sub.parentTaskID = some id)
      = if parent = some id then subs else [] := by
    split
    · next hp =>
      refine List.filter_eq_self.mpr fun sub hsub => decide_eq_true ?_
      rw [hsubs sub hsub, hp]
    · next hp =>
      refine List.filter_eq_nil_iff.mpr fun sub hsub hparent => hp ?_
      rw [← hsubs sub hsub]
      exact of_decide_eq_true hparent
  show T.rows.filter _ = _
  rw [hT, List.filter_append, hnew]
  rfl

/-- A new decision, to which no run refers, decides nothing. -/
theorem Sound.decomposed_insert (hf : f.Sound) {T : Table Task.id} {d : RoutingDecision}
    {D : Table RoutingDecision.id} (hD : f.decisions.insert d = some D) :
    (⟨T, D, f.links⟩ : Family).Decomposed id ↔ f.Decomposed id := by
  refine ⟨?_, ?_⟩
  · rintro ⟨d', hd', hlink, hstrategy⟩
    -- the decision that is referred to was there before, and ids are unique
    obtain ⟨d₀, hd₀, hid⟩ := hf.referred _ hlink d'.id rfl
    have hsame : d₀ = d' := Table.eq_of_key_eq ((Table.mem_insert hD).mpr (Or.inl hd₀)) hd' hid
    rw [hsame] at hd₀
    exact ⟨d', hd₀, hlink, hstrategy⟩
  · rintro ⟨d', hd', hlink, hstrategy⟩
    exact ⟨d', (Table.mem_insert hD).mpr (Or.inl hd'), hlink, hstrategy⟩

/-- A new link decides for its task. -/
theorem decomposed_concat {T : Table Task.id} {D : Table RoutingDecision.id}
    {links : List (TaskID × Option RoutingDecisionID)} {taskID : TaskID} {d : RoutingDecision}
    (hd : d ∈ D) :
    (⟨T, D, links ++ [(taskID, some d.id)]⟩ : Family).Decomposed id ↔
      (⟨T, D, links⟩ : Family).Decomposed id ∨ id = taskID ∧ d.selectedStrategy = .decompose := by
  refine ⟨?_, ?_⟩
  · rintro ⟨d', hd', hlink, hstrategy⟩
    rcases List.mem_append.mp hlink with hlink | hlink
    · exact Or.inl ⟨d', hd', hlink, hstrategy⟩
    · -- ids are unique, so the decision of the new link is `d`
      obtain ⟨hid, hdid⟩ := Prod.mk.inj (List.mem_singleton.mp hlink)
      have hsame : d' = d := Table.eq_of_key_eq hd' hd (Option.some.inj hdid)
      rw [hsame] at hstrategy
      exact Or.inr ⟨hid, hstrategy⟩
  · rintro (⟨d', hd', hlink, hstrategy⟩ | ⟨rfl, hstrategy⟩)
    · exact ⟨d', hd', List.mem_append_left _ hlink, hstrategy⟩
    · exact ⟨d, hd, List.mem_append_right _ (List.mem_singleton.mpr rfl), hstrategy⟩

end Family

/-! ### Steps -/

/-- What a completed call does to the family. -/
inductive FamilyStep (f : Family) : Family → Prop where
  /-- The call was refused, or was about a run. -/
  | quiet : FamilyStep f f
  /-- `SubmitTask`. -/
  | submitted {t : Task} {T : Table Task.id} (hparent : t.parentTaskID = none)
      (hT : f.tasks.insert t = some T) : FamilyStep f { f with tasks := T }
  /-- `RouteTask` of a task that has a run. -/
  | refused {d : RoutingDecision} {D : Table RoutingDecision.id}
      (hD : f.decisions.insert d = some D) : FamilyStep f { f with decisions := D }
  /-- `RouteTask` of a task that has none: the run is created, and so are the subtasks. -/
  | routed {t : Task} {d : RoutingDecision} {D : Table RoutingDecision.id} {T : Table Task.id}
      {subs : List Task} (ht : t ∈ f.tasks) (hlinks : ∀ l ∈ f.links, l.1 ≠ t.id)
      (hD : f.decisions.insert d = some D) (hT : T.rows = f.tasks.rows ++ subs)
      (hsubs : ∀ sub ∈ subs, sub.parentTaskID = some t.id ∧ SubtaskOf t sub)
      (hlength : subs.length = if d.selectedStrategy = .decompose then 2 else 0) :
      FamilyStep f ⟨T, D, f.links ++ [(t.id, some d.id)]⟩

section Steps

variable {f f' : Family}

/-- The ids of appended rows are new. -/
theorem id_ne_of_append {T T' : Table Task.id} {subs : List Task}
    (hT : T'.rows = T.rows ++ subs) {t sub : Task} (ht : t ∈ T) (hsub : sub ∈ subs) :
    t.id ≠ sub.id := by
  have hnodup := T'.key_nodup
  rw [hT, List.map_append, List.nodup_append] at hnodup
  exact hnodup.2.2 _ (List.mem_map_of_mem ht) _ (List.mem_map_of_mem hsub)

theorem Family.Sound.submitted (hf : f.Sound) {t : Task} {T : Table Task.id}
    (hparent : t.parentTaskID = none) (hT : f.tasks.insert t = some T) :
    ({ f with tasks := T } : Family).Sound := by
  obtain ⟨hnew, hrows⟩ := Table.insert_eq_some_iff.mp hT
  have hold : ∀ t' ∈ f.tasks, t' ∈ T := fun t' ht' => (Table.mem_insert hT).mpr (Or.inl ht')
  have hfresh : ∀ t' ∈ f.tasks, t'.id ≠ t.id := Table.find_eq_none_iff.mp hnew
  -- a submitted task is nobody's subtask
  have hchildren : ∀ id, ({ f with tasks := T } : Family).children id = f.children id := by
    intro id
    have happend : ({ f with tasks := T } : Family).children id
        = f.children id ++ if (none : Option TaskID) = some id then [t] else [] := by
      refine Family.children_append hrows fun sub hsub => ?_
      rw [List.mem_singleton.mp hsub, hparent]
    rw [if_neg (Option.some_ne_none id).symm, List.append_nil] at happend
    exact happend
  refine { hf with parents := ?_, owned := ?_, two := ?_, childless := ?_ }
  · intro sub hsub id hid
    rcases (Table.mem_insert hT).mp hsub with hsub | rfl
    · obtain ⟨t', ht', htid, hof⟩ := hf.parents sub hsub id hid
      exact ⟨t', hold t' ht', htid, hof⟩
    · rw [hparent] at hid
      cases hid
  · intro l hl
    obtain ⟨t', ht', htid⟩ := hf.owned l hl
    exact ⟨t', hold t' ht', htid⟩
  · intro t' ht' hdec
    rw [hchildren]
    rcases (Table.mem_insert hT).mp ht' with ht' | rfl
    · exact hf.two t' ht' hdec
    · exact absurd hdec (hf.not_decomposed hfresh)
  · intro t' ht' hdec
    rw [hchildren]
    rcases (Table.mem_insert hT).mp ht' with ht' | rfl
    · exact hf.childless t' ht' hdec
    · exact hf.children_eq_nil hfresh

theorem Family.Sound.refused (hf : f.Sound) {d : RoutingDecision} {D : Table RoutingDecision.id}
    (hD : f.decisions.insert d = some D) : ({ f with decisions := D } : Family).Sound := by
  have hdec : ∀ id, ({ f with decisions := D } : Family).Decomposed id ↔ f.Decomposed id :=
    fun id => hf.decomposed_insert hD
  refine { hf with referred := ?_, two := ?_, childless := ?_ }
  · intro l hl id hid
    obtain ⟨d', hd', hdid⟩ := hf.referred l hl id hid
    exact ⟨d', (Table.mem_insert hD).mpr (Or.inl hd'), hdid⟩
  · exact fun t ht h => hf.two t ht ((hdec t.id).mp h)
  · exact fun t ht h => hf.childless t ht fun h' => h ((hdec t.id).mpr h')

theorem Family.Sound.routed (hf : f.Sound) {t : Task} {d : RoutingDecision}
    {D : Table RoutingDecision.id} {T : Table Task.id} {subs : List Task} (ht : t ∈ f.tasks)
    (hlinks : ∀ l ∈ f.links, l.1 ≠ t.id) (hD : f.decisions.insert d = some D)
    (hT : T.rows = f.tasks.rows ++ subs)
    (hsubs : ∀ sub ∈ subs, sub.parentTaskID = some t.id ∧ SubtaskOf t sub)
    (hlength : subs.length = if d.selectedStrategy = .decompose then 2 else 0) :
    (⟨T, D, f.links ++ [(t.id, some d.id)]⟩ : Family).Sound := by
  have hmem : ∀ t', t' ∈ T ↔ t' ∈ f.tasks ∨ t' ∈ subs := by
    intro t'
    rw [Table.mem_def, hT, List.mem_append]
    rfl
  have hd : d ∈ D := (Table.mem_insert hD).mpr (Or.inr rfl)
  have hdec : ∀ id, (⟨T, D, f.links ++ [(t.id, some d.id)]⟩ : Family).Decomposed id ↔
      f.Decomposed id ∨ id = t.id ∧ d.selectedStrategy = .decompose := by
    intro id
    rw [Family.decomposed_concat hd, hf.decomposed_insert hD]
  have hchildren : ∀ id, (⟨T, D, f.links ++ [(t.id, some d.id)]⟩ : Family).children id
      = f.children id ++ if some t.id = some id then subs else [] :=
    fun id => Family.children_append hT fun sub hsub => (hsubs sub hsub).1
  -- before the call the task had no run, so it had no subtasks
  have hbefore : ¬ f.Decomposed t.id := fun ⟨_, _, hlink, _⟩ => hlinks _ hlink rfl
  have hnone : f.children t.id = [] := hf.childless t ht hbefore
  refine ⟨?_, ?_, ?_, ?_, ?_, ?_⟩
  · intro sub hsub id hid
    rcases (hmem sub).mp hsub with hsub | hsub
    · obtain ⟨t', ht', htid, hof⟩ := hf.parents sub hsub id hid
      exact ⟨t', (hmem t').mpr (Or.inl ht'), htid, hof⟩
    · have hparent : t.id = id := Option.some.inj ((hsubs sub hsub).1.symm.trans hid)
      exact ⟨t, (hmem t).mpr (Or.inl ht), hparent, (hsubs sub hsub).2⟩
  · intro l hl
    rcases List.mem_append.mp hl with hl | hl
    · obtain ⟨t', ht', htid⟩ := hf.owned l hl
      exact ⟨t', (hmem t').mpr (Or.inl ht'), htid⟩
    · rw [List.mem_singleton.mp hl]
      exact ⟨t, (hmem t).mpr (Or.inl ht), rfl⟩
  · refine nodup_map_concat hf.single fun h => ?_
    obtain ⟨l, hl, hlid⟩ := List.mem_map.mp h
    exact hlinks l hl hlid
  · intro l hl id hid
    rcases List.mem_append.mp hl with hl | hl
    · obtain ⟨d', hd', hdid⟩ := hf.referred l hl id hid
      exact ⟨d', (Table.mem_insert hD).mpr (Or.inl hd'), hdid⟩
    · rw [List.mem_singleton.mp hl] at hid
      exact ⟨d, hd, Option.some.inj hid⟩
  · intro t' ht' h
    rw [hchildren]
    rcases (hdec t'.id).mp h with h | ⟨hid, hstrategy⟩
    · -- another task that was decomposed before
      have hne : ¬ some t.id = some t'.id := fun heq => hbefore (Option.some.inj heq ▸ h)
      rw [if_neg hne, List.append_nil]
      rcases (hmem t').mp ht' with ht' | hsub
      · exact hf.two t' ht' h
      · exact absurd h (hf.not_decomposed fun t₀ ht₀ => id_ne_of_append hT ht₀ hsub)
    · rw [hid, hnone, if_pos rfl, List.nil_append, hlength, if_pos hstrategy]
  · intro t' ht' h
    rw [hchildren]
    have hstrategy : t'.id = t.id → d.selectedStrategy ≠ .decompose :=
      fun hid hd => h ((hdec t'.id).mpr (Or.inr ⟨hid, hd⟩))
    have hold : f.children t'.id = [] := by
      rcases (hmem t').mp ht' with ht' | hsub
      · exact hf.childless t' ht' fun h' => h ((hdec t'.id).mpr (Or.inl h'))
      · exact hf.children_eq_nil fun t₀ ht₀ => id_ne_of_append hT ht₀ hsub
    rw [hold, List.nil_append]
    split
    · next heq =>
      have hzero := hlength
      rw [if_neg (hstrategy (Option.some.inj heq).symm)] at hzero
      exact List.length_eq_zero_iff.mp hzero
    · rfl

/-- **A step keeps the family sound.** -/
theorem FamilyStep.sound (hstep : FamilyStep f f') (hf : f.Sound) : f'.Sound := by
  cases hstep with
  | quiet => exact hf
  | submitted hparent hT => exact hf.submitted hparent hT
  | refused hD => exact hf.refused hD
  | routed ht hlinks hD hT hsubs hlength => exact hf.routed ht hlinks hD hT hsubs hlength

end Steps

end Governance

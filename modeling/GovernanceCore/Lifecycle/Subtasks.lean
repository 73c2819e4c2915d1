import GovernanceCore.Concurrency.Contract
import GovernanceCore.Lifecycle.Family
import GovernanceCore.Lifecycle.Simulation
import GovernanceCore.Services.Footprint

/-!
# Are subtasks lost or duplicated?

When calls are made one after the other and nothing fails, they are not: between two calls every
task has two subtasks if its run refers to a decision to decompose it, and none otherwise
(`subtasks_of_session`).

That every call is a step of the family (`call_proceeds`) is proved in two ways. The programs of
`SubmitTask` and `RouteTask` are walked through, operation by operation. The seven other calls
insert nothing, and what they update is known from the contract of `Concurrency/Contract.lean`: only
`Advance.routed` changes the decision of a run, and it needs a run in status created, which no
session leaves behind.
-/

namespace Governance

open Framework

/-! ### The family of a store -/

/-- The task of a run and the decision it refers to. -/
def WorkflowRun.link (w : WorkflowRun) : TaskID × Option RoutingDecisionID :=
  (w.taskID, w.routingDecisionID)

/-- The family in the governed tables. -/
def Core.family (c : Core) : Family :=
  ⟨c.tasks, c.routingDecisions, c.workflowRuns.rows.map WorkflowRun.link⟩

/-! ### Operations without a failure -/

/-- One operation without a failure of a repository or of the audit trail, seen through the governed
tables. -/
def AcceptedStep : Core → (o : Op) → Res o → Core → Prop :=
  fun c o r c' => ∃ s s', s.core = c ∧ s'.core = c' ∧ governance.Alone (accepts true) s o r s'

namespace AcceptedStep

variable {c c' : Core}

theorem findTask {id : TaskID} {t : Task}
    (h : AcceptedStep c (.taskFindByID id) (.ok t) c') : t ∈ c.tasks ∧ t.id = id := by
  obtain ⟨s, s', rfl, rfl, ch, hex, -⟩ := h
  exact Table.find_eq_some_iff.mp ((query_eq hex).2 t rfl)

theorem findRun {id : TaskID} {w : WorkflowRun}
    (h : AcceptedStep c (.workflowFindByTaskID id) (.ok w) c') : w ∈ c.workflowRuns := by
  obtain ⟨s, s', rfl, rfl, ch, hex, -⟩ := h
  exact (pick_eq_some ((query_eq hex).2 w rfl)).1

theorem findNoRun {id : TaskID} {e : RepoError}
    (h : AcceptedStep c (.workflowFindByTaskID id) (.error e) c') :
    ∀ w ∈ c.workflowRuns, w.taskID ≠ id := by
  obtain ⟨s, s', rfl, rfl, ch, hex, hok⟩ := h
  rcases query_expected hex (fun e he => by
    obtain rfl := Except.error.inj he
    exact hok) with ⟨-, ⟨w, -, hw⟩ | ⟨hnone, -⟩⟩
  · cases hw
  · intro w hw
    exact of_decide_eq_false (eq_false_of_pick_eq_none hnone w hw)

section Writes

variable {r : Except RepoError Unit}

theorem saveTask {t : Task} (h : AcceptedStep c (.taskSave t) r c') :
    r = .ok () ∧ ∃ T, c.tasks.insert t = some T ∧ c' = { c with tasks := T } := by
  obtain ⟨s, s', rfl, rfl, ch, hex, hok⟩ := h
  obtain ⟨T, hT, rfl, rfl⟩ := inserted_expected hex fun e he => by subst he; exact hok
  exact ⟨rfl, T, hT, rfl⟩

theorem saveRouting {d : RoutingDecision} (h : AcceptedStep c (.routingSave d) r c') :
    r = .ok () ∧ ∃ D, c.routingDecisions.insert d = some D ∧
      c' = { c with routingDecisions := D } := by
  obtain ⟨s, s', rfl, rfl, ch, hex, hok⟩ := h
  obtain ⟨D, hD, rfl, rfl⟩ := inserted_expected hex fun e he => by subst he; exact hok
  exact ⟨rfl, D, hD, rfl⟩

theorem saveRun {w : WorkflowRun} (h : AcceptedStep c (.workflowSave w) r c') :
    r = .ok () ∧ ∃ W, c.workflowRuns.insert w = some W ∧ c' = { c with workflowRuns := W } := by
  obtain ⟨s, s', rfl, rfl, ch, hex, hok⟩ := h
  obtain ⟨W, hW, rfl, rfl⟩ := inserted_expected hex fun e he => by subst he; exact hok
  exact ⟨rfl, W, hW, rfl⟩

theorem updateRun {w : WorkflowRun} (h : AcceptedStep c (.workflowUpdate w) r c') :
    r = .ok () ∧ c' = c.updateWorkflow w := by
  obtain ⟨s, s', rfl, rfl, ch, hex, hok⟩ := h
  obtain ⟨rfl, rfl⟩ := update_expected hex fun e he => by subst he; exact hok
  exact ⟨rfl, rfl⟩

end Writes

section Rules

variable {β : Type} {Q : Except Err β → Core → Prop}

theorem skip {o : Op} {k : Res o → UseCase β} (ho : o.isWrite = false)
    (h : ∀ r, AcceptedStep c o r c → (k r).wp AcceptedStep Q c) :
    (Program.act o k).wp AcceptedStep Q c := by
  intro r c₁ hr
  have hsame : c₁ = c := by
    obtain ⟨s, s', rfl, rfl, ch, hex, -⟩ := hr
    exact core_eq ho hex
  rw [hsame] at hr ⊢
  exact h r hr

/-- An audit entry is recorded. -/
theorem record {actor : ActorID} {action outcome : String} {ctx : AuditContext}
    {taskID : Option TaskID} {wfID : Option WorkflowRunID} {msg : String} {f : Unit → UseCase β}
    (h : (f ()).wp AcceptedStep Q c) :
    (Audit.record actor action outcome ctx taskID wfID >>= fun r => orFail msg r >>= f).wp
      AcceptedStep Q c := by
  refine skip rfl fun (r : Except RepoError Unit) hr => ?_
  cases r with
  | ok u => exact h
  | error e =>
    -- a failed entry is not accepted
    obtain ⟨s, s', -, -, ch, -, hok⟩ := hr
    cases hok

end Rules

end AcceptedStep

/-! ### The calls that submit and route -/

/-- No run waits to be routed. -/
def Core.NoneCreated (c : Core) : Prop := ∀ w ∈ c.workflowRuns, w.status ≠ .created

/-- What a completed call leaves behind. -/
structure Proceeds (c c' : Core) : Prop where
  noneCreated : c'.NoneCreated
  step : FamilyStep c.family c'.family

theorem Proceeds.refl {c : Core} (hc : c.NoneCreated) : Proceeds c c := ⟨hc, .quiet⟩

theorem parent_of_newTask {id : TaskID} {parent : Option TaskID} {taskType : TaskType}
    {title : String} {scope : TaskScope} {priority : Priority} {risk : RiskLevel}
    {metadata : TaskMetadata} {now : Timestamp} {t : Task}
    (h : newTask id parent taskType title scope priority risk metadata now = .ok t) :
    t.parentTaskID = parent := by
  unfold newTask at h
  split at h
  · cases h
  · rw [← Except.ok.inj h]

theorem submitTask_proceeds {c : Core} (hc : c.NoneCreated) (input : SubmitTaskInput) :
    (submitTask input).wp AcceptedStep (fun _ c' => Proceeds c c') c := by
  refine AcceptedStep.skip rfl fun id _ => ?_
  refine AcceptedStep.skip rfl fun (now : Timestamp) _ => ?_
  refine AcceptedStep.skip rfl fun _ _ => ?_
  refine wp_orWrap (fun _ => .refl hc) fun t ht => ?_
  intro r c₁ hr
  obtain ⟨rfl, T, hT, rfl⟩ := hr.saveTask
  refine AcceptedStep.record ?_
  exact ⟨hc, .submitted (parent_of_newTask ht) hT⟩

/-- `n` subtasks of `parent` have been stored, and nothing else has changed. -/
structure GainsSubtasks (parent : Task) (n : Nat) (c c' : Core) : Prop where
  rest : c' = { c with tasks := c'.tasks }
  tasks : ∃ subs, c'.tasks.rows = c.tasks.rows ++ subs ∧ subs.length = n ∧
    ∀ sub ∈ subs, sub.parentTaskID = some parent.id ∧ SubtaskOf parent sub

theorem GainsSubtasks.cons {parent sub : Task} {n : Nat} {c c' : Core} {T : Table Task.id}
    (hT : c.tasks.insert sub = some T)
    (hsub : sub.parentTaskID = some parent.id ∧ SubtaskOf parent sub)
    (h : GainsSubtasks parent n { c with tasks := T } c') : GainsSubtasks parent (n + 1) c c' := by
  obtain ⟨subs, hrows, hlength, hsubs⟩ := h.tasks
  refine ⟨h.rest, sub :: subs, ?_, congrArg (· + 1) hlength, List.forall_mem_cons.mpr ⟨hsub, hsubs⟩⟩
  calc c'.tasks.rows = T.rows ++ subs := hrows
    _ = c.tasks.rows ++ [sub] ++ subs := by rw [(Table.insert_eq_some_iff.mp hT).2]
    _ = c.tasks.rows ++ sub :: subs := List.append_assoc _ _ _

/-- The loop over the suffixes runs to its end: one subtask for each. -/
theorem createSubtasks_gains (parent : Task) (now : Timestamp) (suffixes : List String) (c : Core) :
    (createSubtasks parent now suffixes).wp AcceptedStep
      (fun res c' => (∃ u, res = .ok u) ∧ GainsSubtasks parent suffixes.length c c') c := by
  induction suffixes generalizing c with
  | nil => exact ⟨⟨(), rfl⟩, rfl, [], (List.append_nil _).symm, rfl, List.forall_mem_nil _⟩
  | cons suffix rest ih =>
    refine AcceptedStep.skip rfl fun id _ => ?_
    refine wp_orWrap_of_eq_ok (newTask_eq_ok (isBlank_decompose _ _)) ?_
    intro r c₁ hr
    obtain ⟨rfl, T, hT, rfl⟩ := hr.saveTask
    refine AcceptedStep.record ?_
    refine Program.wp_mono ?_ (ih _)
    rintro res c' ⟨hok, hgains⟩
    exact ⟨hok, hgains.cons hT ⟨rfl, rfl, rfl, rfl, rfl, rfl⟩⟩

theorem GainsSubtasks.refl (parent : Task) (c : Core) : GainsSubtasks parent 0 c c :=
  ⟨rfl, [], (List.append_nil _).symm, rfl, List.forall_mem_nil _⟩

/-- The decision `d` has been stored for the task `t`, and after it a run that refers to it. -/
structure FirstRouted (t : Task) (d : RoutingDecision) (c c' : Core) : Prop where
  tasks : c'.tasks = c.tasks
  decisions : c.routingDecisions.insert d = some c'.routingDecisions
  runs : ∃ w, c'.workflowRuns.rows = c.workflowRuns.rows ++ [w] ∧ w.status ≠ .created ∧
    w.link = (t.id, some d.id)

/-- The run is inserted in status created and overwritten by its routed version. -/
theorem FirstRouted.of_update {t : Task} {d : RoutingDecision} {c c' : Core} {w w' : WorkflowRun}
    {D : Table RoutingDecision.id} {W : Table WorkflowRun.id}
    (hD : c.routingDecisions.insert d = some D) (hW : c.workflowRuns.insert w = some W)
    (hc' : c' = Core.updateWorkflow { c with routingDecisions := D, workflowRuns := W } w')
    (hid : w'.id = w.id) (hstatus : w'.status ≠ .created)
    (hlink : (w.taskID, w'.routingDecisionID) = (t.id, some d.id)) : FirstRouted t d c c' := by
  have hrows : c'.workflowRuns.rows = c.workflowRuns.rows ++ [w'.overwrite w] := by
    rw [hc']
    show (W.modify w'.id w'.overwrite w'.overwrite_id).rows = _
    rw [hid]
    exact Table.rows_modify_insert _ hW
  refine ⟨?_, ?_, w'.overwrite w, hrows, hstatus, hlink⟩
  · rw [hc']
    rfl
  · rw [hc', hD]
    rfl

/-- With its subtasks the first routing is a step of the family. -/
theorem FirstRouted.proceeds {t : Task} {d : RoutingDecision} {c c₁ c' : Core}
    (h : FirstRouted t d c c₁) (hc : c.NoneCreated) (ht : t ∈ c.tasks)
    (hnone : ∀ w ∈ c.workflowRuns, w.taskID ≠ t.id)
    (hgains : GainsSubtasks t (if d.selectedStrategy = .decompose then 2 else 0) c₁ c') :
    Proceeds c c' := by
  obtain ⟨subs, hsubrows, hlength, hsubs⟩ := hgains.tasks
  obtain ⟨w, hrows, hstatus, hlink⟩ := h.runs
  have hruns : c'.workflowRuns = c₁.workflowRuns := by rw [hgains.rest]
  have hdecisions : c'.routingDecisions = c₁.routingDecisions := by rw [hgains.rest]
  refine ⟨fun w' hw' => ?_, ?_⟩
  · rw [Table.mem_def, hruns, hrows] at hw'
    rcases List.mem_append.mp hw' with hw' | hw'
    · exact hc w' hw'
    · rw [List.mem_singleton.mp hw']
      exact hstatus
  · -- the subtasks leave the decisions and the runs as the first routing has left them
    have hfamily : c'.family
        = ⟨c'.tasks, c₁.routingDecisions, c.family.links ++ [(t.id, some d.id)]⟩ := by
      rw [Core.family, hruns, hdecisions, hrows, List.map_append, List.map_singleton, hlink]
      rfl
    rw [hfamily]
    refine .routed ht (fun l hl => ?_) h.decisions ?_ hsubs hlength
    · obtain ⟨w', hw', rfl⟩ := List.mem_map.mp hl
      exact hnone w' hw'
    · rw [hsubrows, h.tasks]
      rfl

theorem routeTask_proceeds {c : Core} (hc : c.NoneCreated) (taskID : TaskID) :
    (routeTask taskID).wp AcceptedStep (fun _ c' => Proceeds c c') c := by
  have hquiet : ∀ e : Err, Proceeds c c := fun _ => .refl hc
  refine AcceptedStep.skip rfl fun r hr => wp_orFail hquiet fun t ht => ?_
  obtain ⟨htask, rfl⟩ := (ht ▸ hr : AcceptedStep c (.taskFindByID taskID) (.ok t) c).findTask
  refine AcceptedStep.skip rfl fun memCtx _ => ?_
  refine AcceptedStep.skip rfl fun stats _ => ?_
  refine AcceptedStep.skip rfl fun (now : Timestamp) _ => ?_
  refine AcceptedStep.skip rfl fun (rdID : RoutingDecisionID) _ => ?_
  refine wp_orWrap hquiet fun rd hrd => ?_
  have hrd := newRoutingDecision_eq_ok hrd
  intro r c₁ hr
  obtain ⟨rfl, D, hD, rfl⟩ := hr.saveRouting
  refine AcceptedStep.skip rfl fun (r : Except RepoError WorkflowRun) hr => ?_
  cases r with
  | ok w =>
    -- a run that is there has been routed before, and refuses
    refine wp_orWrap (fun _ => ⟨hc, .refused hD⟩) fun w' hw' => ?_
    exact absurd (WorkflowRun.markRouted_eq_ok_iff.mp hw').1 (hc w hr.findRun)
  | error e =>
    refine AcceptedStep.skip rfl fun wfID _ => ?_
    intro r c₂ hr₂
    obtain ⟨rfl, W, hW, rfl⟩ := hr₂.saveRun
    refine wp_orWrap_of_eq_ok (WorkflowRun.markRouted_eq_ok_iff.mpr ⟨rfl, rfl⟩) ?_
    intro r c₃ hr₃
    obtain ⟨rfl, hc₃⟩ := hr₃.updateRun
    have hfirst : FirstRouted t rd c c₃ := by
      refine .of_update hD hW hc₃ rfl ?_ ?_
      · show WorkflowStatus.routed ≠ .created
        decide
      · rw [hrd]
        rfl
    refine AcceptedStep.record ?_
    -- the run refers to the decision; what is left are the subtasks
    by_cases hdec : (Routing.evaluate t memCtx stats).selectedStrategy = .decompose
    · simp only [if_pos hdec]
      have hgains := createSubtasks_gains t now (subtaskSuffixes t.scope) c₃
      refine Program.wp_bind.mpr (Program.wp_mono ?_ (wp_wrapError ?_ hgains))
      · rintro res c' ⟨⟨u, rfl⟩, hgains⟩
        refine hfirst.proceeds hc htask hr.findNoRun ?_
        rw [hrd, if_pos hdec, ← (subtaskSuffixes_two t.scope).1]
        exact hgains
      · rintro e e' c' ⟨⟨u, hu⟩, -⟩
        cases hu
    · simp only [if_neg hdec]
      refine hfirst.proceeds hc htask hr.findNoRun ?_
      rw [hrd, if_neg hdec]
      exact .refl t c₃

/-! ### The other calls -/

/-- Only a run in status created changes its decision. -/
theorem Advance.link_eq {h : History} {w₀ w : WorkflowRun} (hadv : Advance h w₀ w)
    (hw₀ : w₀.status ≠ .created) : w.id = w₀.id ∧ w.link = w₀.link ∧ w.status ≠ .created := by
  cases hadv with
  | routed d reason actor now hd htask hs => exact absurd hs hw₀
  | policyChecked d actor now hd htask hs =>
    refine ⟨rfl, rfl, ?_⟩
    show WorkflowStatus.policyChecked ≠ .created
    decide
  | plain target reason actor now hs hv ht =>
    refine ⟨rfl, rfl, ?_⟩
    show target ≠ .created
    rcases ht with rfl | rfl | rfl | rfl <;> decide
  | leased target reason actor now hs hv ht hl =>
    refine ⟨rfl, rfl, ?_⟩
    show target ≠ .created
    rcases ht with rfl | rfl | rfl <;> decide
  | approved actor now hs hl =>
    refine ⟨rfl, rfl, ?_⟩
    show WorkflowStatus.running ≠ .created
    decide
  | same hs => exact ⟨rfl, rfl, hw₀⟩

/-- A row that is overwritten by a copy with the same link keeps it. -/
theorem WorkflowRun.link_overwrite {w row : WorkflowRun} (h : row.link = w.link) :
    (w.overwrite row).link = row.link := by
  show (row.taskID, w.routingDecisionID) = row.link
  rw [← (Prod.mk.inj h).2]
  rfl

/-- No run is lost, no link changes, and no run gets back to status created. -/
structure KeepsLinks (s s' : Store) : Prop where
  noneCreated : s.core.NoneCreated → s'.core.NoneCreated
  family : s'.core.family = s.core.family
  rows : ∀ row ∈ s.workflowRuns, ∃ row' ∈ s'.workflowRuns, row'.id = row.id ∧ row'.link = row.link

/-- The update of a row by a copy with its link. -/
theorem KeepsLinks.updateWorkflow {s : Store} {w row : WorkflowRun} (hrow : row ∈ s.workflowRuns)
    (hid : row.id = w.id) (hlink : row.link = w.link) (hstatus : w.status ≠ .created) :
    KeepsLinks s (s.updateWorkflow w) := by
  -- ids are unique, so the row of the copy is the only one that is written
  have honly : ∀ v ∈ s.workflowRuns, v.id = w.id → (w.overwrite v).link = v.link := by
    intro v hv hvid
    obtain rfl : row = v := Table.eq_of_key_eq hrow hv (hid.trans hvid.symm)
    exact WorkflowRun.link_overwrite hlink
  refine ⟨fun hnone v hv => ?_, ?_, fun v hv => ?_⟩
  · rcases Store.mem_updateWorkflow.mp hv with ⟨v₀, -, -, rfl⟩ | ⟨hv, -⟩
    · exact hstatus
    · exact hnone v hv
  · have hlinks : (overwrite WorkflowRun.id w.id w.overwrite s.workflowRuns.rows).map
        WorkflowRun.link = s.workflowRuns.rows.map WorkflowRun.link :=
      map_overwrite_of_forall_mem honly
    exact congrArg (Family.mk s.tasks s.routingDecisions) hlinks
  · by_cases hvid : v.id = w.id
    · have hmem : w.overwrite v ∈ (s.updateWorkflow w).workflowRuns :=
        Store.mem_updateWorkflow.mpr (Or.inl ⟨v, hv, hvid, rfl⟩)
      exact ⟨w.overwrite v, hmem, rfl, honly v hv hvid⟩
    · exact ⟨v, Store.mem_updateWorkflow.mpr (Or.inr ⟨hv, hvid⟩), rfl, rfl⟩

/-- A run that an event has shown was not created, and its row has kept its link. -/
def ShownLinked (e : Event Op Res) (s : Store) : Prop :=
  ∀ w, seenWorkflow e = some w → w.status ≠ .created ∧
    ∃ row ∈ s.workflowRuns, row.id = w.id ∧ row.link = w.link

theorem ShownLinked.mono {e : Event Op Res} {s s' : Store} (he : ShownLinked e s)
    (hs : KeepsLinks s s') : ShownLinked e s' := by
  intro w hw
  obtain ⟨hstatus, row, hrow, hid, hlink⟩ := he w hw
  obtain ⟨row', hrow', hid', hlink'⟩ := hs.rows row hrow
  exact ⟨hstatus, row', hrow', hid'.trans hid, hlink'.trans hlink⟩

theorem ShownLinked.new {ch : Choice} {s s' : Store} {o : Op} {r : Res o}
    (hnone : s'.core.NoneCreated) (hex : exec ch s o = (r, s')) : ShownLinked ⟨o, r⟩ s' := by
  intro w hw
  have hmem : w ∈ s'.workflowRuns := seenWorkflow_mem hex hw
  exact ⟨hnone w hmem, w, hmem, rfl, rfl⟩

/-- One operation of a call that inserts nothing. -/
theorem Effect.keepsLinks {s s' : Store} {h : History} {o : Op} (he : Effect s o s')
    (hV : ∀ e ∈ h, ShownLinked e s) (hperm : Permitted h o) (ho : o.establishes = false) :
    KeepsLinks s s' := by
  cases he with
  | taskSave | routingSave | workflowSave => cases ho
  | workflowUpdate w =>
    -- the copy was computed from a run that the call has seen
    obtain ⟨w₀, hlast, hadv⟩ := hperm
    obtain ⟨e, he, hsee⟩ := exists_of_lastSeen hlast
    obtain ⟨hstatus, row, hrow, hid, hlink⟩ := hV e he w₀ hsee
    obtain ⟨hsameID, hsame, hmoved⟩ := hadv.link_eq hstatus
    exact .updateWorkflow hrow (hid.trans hsameID.symm) (hlink.trans hsame.symm) hmoved
  | _ => exact ⟨id, rfl, fun row hrow => ⟨row, hrow, rfl, rfl⟩⟩

theorem followUp_proceeds {c : Call} (hsubmit : ∀ input, c ≠ .submitTask input)
    (hroute : ∀ taskID, c ≠ .routeTask taskID) {s s' : Store} {res : Except Err Reply}
    (hs : s.core.NoneCreated) (hrun : c.body.Runs (governance.Alone (accepts true)) s res s') :
    Proceeds s.core s'.core := by
  have hfollows := c.follows.and_only (c.body_followsUp hsubmit hroute)
  -- by induction on the run: the family stays, and what the call was shown is still stored
  have hend : s'.core.NoneCreated ∧ s'.core.family = s.core.family := by
    refine hrun.sound (I := fun s₁ => s₁.core.NoneCreated ∧ s₁.core.family = s.core.family)
      (V := ShownLinked) ?_ ?_ hfollows ⟨hs, rfl⟩ fun e he => absurd he List.not_mem_nil
    · rintro s₁ o r s₂ ⟨ch, hex, -⟩
      exact exec_answered hex
    · rintro h s₁ o r s₂ hI hV ⟨hperm, -, ho⟩ ⟨ch, hex, -⟩
      have hkeeps := (exec_effect hex).keepsLinks hV hperm ho
      have hnone := hkeeps.noneCreated hI.1
      exact ⟨⟨hnone, hkeeps.family.trans hI.2⟩, .new hnone hex, fun e he => he.mono hkeeps⟩
  refine ⟨hend.1, ?_⟩
  rw [hend.2]
  exact .quiet

/-! ### Whole sessions -/

/-- **Every call is a step of the family.** -/
theorem call_proceeds {c : Call} {s s' : Store} {res : Except Err Reply}
    (hs : s.core.NoneCreated) (hrun : c.body.Runs (governance.Alone (accepts true)) s res s') :
    Proceeds s.core s'.core := by
  have hcore : c.body.Runs AcceptedStep s.core res s'.core :=
    hrun.map fun hstep => ⟨_, _, rfl, rfl, hstep⟩
  -- the reply of a call does not matter
  have hreply : ∀ {α : Type} {p : UseCase α} {f : α → Reply},
      p.wp AcceptedStep (fun _ c' => Proceeds s.core c') s.core →
      (p >>= fun a => .ret (f a)).wp AcceptedStep (fun _ c' => Proceeds s.core c') s.core := by
    intro α p f hp
    refine Program.wp_bind.mpr (Program.wp_mono ?_ hp)
    intro res c' h
    cases res with
    | ok a => exact h
    | error e => exact h
  cases c with
  | submitTask input => exact hcore.of_wp (hreply (submitTask_proceeds hs input))
  | routeTask taskID => exact hcore.of_wp (hreply (routeTask_proceeds hs taskID))
  | _ => exact followUp_proceeds (fun _ h => by cases h) (fun _ h => by cases h) hs hrun

theorem family_empty_sound (metrics : Bool) : (Store.empty metrics).core.family.Sound where
  parents := fun t ht => absurd ht (Table.notMem_empty t)
  owned := fun _ hl => absurd hl List.not_mem_nil
  single := List.nodup_nil
  referred := fun _ hl => absurd hl List.not_mem_nil
  two := fun t ht => absurd ht (Table.notMem_empty t)
  childless := fun t ht => absurd ht (Table.notMem_empty t)

/-- Along every session the family is sound, and no run waits to be routed. -/
theorem session_family {metrics : Bool} {tr : List (Call × Except Err Reply)} {s : Store}
    (hs : governance.Session (accepts true) System.anyCall (Store.empty metrics) tr s) :
    s.core.NoneCreated ∧ s.core.family.Sound := by
  induction hs with
  | start => exact ⟨fun w hw => absurd hw (Table.notMem_empty w), family_empty_sound metrics⟩
  | call _ _ hrun ih =>
    have hproceeds := call_proceeds ih.1 hrun
    exact ⟨hproceeds.noneCreated, hproceeds.step.sound ih.2⟩

/-! ### In terms of the store -/

/-- The subtasks of a task, as `FindByParentID` selects them. -/
def Store.subtasksOf (s : Store) (id : TaskID) : List Task :=
  s.tasks.rows.filter fun sub => sub.parentTaskID = some id

/-- The task has a workflow run, and the decision that the run refers to has selected decompose. -/
def Store.Decomposes (s : Store) (id : TaskID) : Prop :=
  ∃ w ∈ s.workflowRuns, w.taskID = id ∧
    ∃ d ∈ s.routingDecisions, w.routingDecisionID = some d.id ∧ d.selectedStrategy = .decompose

theorem decomposed_family_iff {s : Store} {id : TaskID} :
    s.core.family.Decomposed id ↔ s.Decomposes id := by
  refine ⟨?_, ?_⟩
  · rintro ⟨d, hd, hlink, hstrategy⟩
    obtain ⟨w, hw, hwlink⟩ := List.mem_map.mp hlink
    obtain ⟨htask, hrouting⟩ := Prod.mk.inj hwlink
    exact ⟨w, hw, htask, d, hd, hrouting, hstrategy⟩
  · rintro ⟨w, hw, htask, d, hd, hrouting, hstrategy⟩
    refine ⟨d, hd, List.mem_map.mpr ⟨w, hw, ?_⟩, hstrategy⟩
    rw [WorkflowRun.link, htask, hrouting]

/-- One step down the order of the scopes: system, repo, module, file. Below `file` there is no
scope, and a text that is none of the four is taken for the lowest. -/
inductive OneStepDown : TaskScope → TaskScope → Prop where
  | system : OneStepDown .system .repo
  | repo : OneStepDown .repo .module
  | module : OneStepDown .module .file
  | file : OneStepDown .file .file
  | undeclared (text : String) : OneStepDown (.other text) .file

theorem oneStepDown_childScope (scope : TaskScope) : OneStepDown scope (childScope scope) := by
  cases scope with
  | system => exact .system
  | repo => exact .repo
  | module => exact .module
  | file => exact .file
  | other text => exact .undeclared text

/-- What a subtask has from its parent. -/
structure HandedDown (parent sub : Task) : Prop where
  taskType : sub.taskType = parent.taskType
  priority : sub.priority = parent.priority
  riskLevel : sub.riskLevel = parent.riskLevel
  metadata : sub.metadata = []
  scope : OneStepDown parent.scope sub.scope

theorem SubtaskOf.handedDown {parent sub : Task} (h : SubtaskOf parent sub) :
    HandedDown parent sub where
  taskType := h.taskType
  priority := h.priority
  riskLevel := h.riskLevel
  metadata := h.metadata
  scope := by
    rw [h.scope]
    exact oneStepDown_childScope parent.scope

/-- **Decomposition neither loses nor duplicates subtasks.** After any session without a failure of
a repository or of the audit trail, a stored task has at most one workflow run; it has two subtasks
if the run is there and refers to a decision that has selected decompose, and none otherwise. Every
subtask has a stored parent, from which it has its type, its priority, its risk level and, one step
down, its scope. -/
theorem subtasks_of_session {metrics : Bool} {tr : List (Call × Except Err Reply)} {s : Store}
    (hs : governance.Session (accepts true) System.anyCall (Store.empty metrics) tr s) :
    (∀ t ∈ s.tasks,
      (∀ w ∈ s.workflowRuns, ∀ w' ∈ s.workflowRuns, w.taskID = t.id → w'.taskID = t.id → w = w') ∧
      (s.Decomposes t.id → (s.subtasksOf t.id).length = 2) ∧
      (¬ s.Decomposes t.id → s.subtasksOf t.id = [])) ∧
    ∀ sub ∈ s.tasks, ∀ id, sub.parentTaskID = some id →
      ∃ t ∈ s.tasks, t.id = id ∧ HandedDown t sub := by
  obtain ⟨-, hsound⟩ := session_family hs
  refine ⟨fun t ht => ⟨fun w hw w' hw' htask htask' => ?_, fun hdec => ?_, fun hdec => ?_⟩,
    fun sub hsub id hid => ?_⟩
  · -- the runs are told apart by their tasks
    have hnodup : (s.workflowRuns.rows.map WorkflowRun.taskID).Nodup := by
      have hsingle := hsound.single
      rw [Core.family, List.map_map] at hsingle
      exact hsingle
    exact List.inj_on_of_nodup_map hnodup hw hw' (htask.trans htask'.symm)
  · exact hsound.two t ht (decomposed_family_iff.mpr hdec)
  · exact hsound.childless t ht fun h => hdec (decomposed_family_iff.mp h)
  · obtain ⟨t, ht, htid, hof⟩ := hsound.parents sub hsub id hid
    exact ⟨t, ht, htid, hof.handedDown⟩

/-- A refactoring of the system is submitted, routed, and routed again. -/
def decomposedCalls : List (Call × List Choice) :=
  [(.submitTask { bugfixInput with type := .refactor, scope := .system }, choices 'a'),
    (.routeTask firstTask, (List.range 17).map (scheduleChoice 'b')),
    (.routeTask firstTask, choices 'c')]

/-- Two decisions are stored for the task, its run refers to the first, and it has two subtasks. -/
theorem subtasks_of_session_twice : ∃ tr s,
    governance.Session (accepts true) System.anyCall (Store.empty true) tr s ∧
    s.routingDecisions.rows.length = 2 ∧ ∃ t ∈ s.tasks, s.Decomposes t.id ∧
      (s.subtasksOf t.id).length = 2 := by
  have hmade : (makeCalls true (fun _ _ => true) decomposedCalls).map (fun st =>
      (st.2.tasks.rows.map Task.id, st.2.workflowRuns.rows.map WorkflowRun.link,
        st.2.routingDecisions.rows.map fun d => (d.id, d.selectedStrategy)))
      = some ([firstTask, ⟨scheduleID 'b' 11⟩, ⟨scheduleID 'b' 14⟩],
        [(firstTask, some ⟨scheduleID 'b' 4⟩)],
        [(⟨scheduleID 'b' 4⟩, .decompose), (⟨scheduleID 'c' 4⟩, .decompose)]) := by
    decide +kernel
  obtain ⟨st, hst, hrows⟩ := Option.map_eq_some_iff.mp hmade
  obtain ⟨htasks, hrows⟩ := Prod.mk.inj hrows
  obtain ⟨hruns, hdecisions⟩ := Prod.mk.inj hrows
  have hs : governance.Session (accepts true) System.anyCall (Store.empty true) st.1 st.2 :=
    makeCalls_session (fun _ _ _ => trivial) hst
  obtain ⟨t, ht, htid⟩ := exists_row_of_map htasks
  obtain ⟨w, hw, hlink⟩ := exists_row_of_map hruns
  obtain ⟨d, hd, hchosen⟩ := exists_row_of_map hdecisions
  obtain ⟨htask, hrouting⟩ := Prod.mk.inj hlink
  obtain ⟨hdid, hstrategy⟩ := Prod.mk.inj hchosen
  have hdec : st.2.Decomposes t.id := by
    refine ⟨w, hw, htask.trans htid.symm, d, hd, ?_, hstrategy⟩
    rw [hrouting, hdid]
  have htwo : st.2.routingDecisions.rows.length = 2 := by
    rw [← List.length_map (f := fun d : RoutingDecision => (d.id, d.selectedStrategy)), hdecisions]
    rfl
  exact ⟨st.1, st.2, hs, htwo, t, ht, hdec, ((subtasks_of_session hs).1 t ht).2.1 hdec⟩

end Governance

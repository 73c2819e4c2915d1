import GovernanceCore.Services.Governance
import GovernanceCore.Store.Effects
import Mathlib.Data.List.Induction

/-!
# What a call may write

Between its reads and its writes a call works on copies, and other calls move the store. What can be
said about a write without the store is how it follows from what the call has read and written
itself. `Permitted` says that, once for all services: which row an update is computed from, by which
transition, and what the call has stored before it.

`Call.follows` is the only place where the programs of the services are taken apart for the results
about interleavings. Each of those results is then a case analysis on `Permitted`.
-/

namespace Governance

open Framework

/-- What a call has performed. -/
abbrev History := Log Op Res

/-! ### What a call has seen -/

/-- The workflow run that an event has shown to its call. -/
def seenWorkflow : Event Op Res → Option WorkflowRun
  | ⟨.workflowFindByID _, .ok w⟩ => some w
  | ⟨.workflowFindByTaskID _, .ok w⟩ => some w
  | ⟨.workflowSave w, .ok _⟩ => some w
  | _ => none

/-- The lease that an event has shown to its call. -/
def seenLease : Event Op Res → Option ExecutionLease
  | ⟨.leaseFindByWorkflowRunID _, .ok l⟩ => some l
  | _ => none

/-- The approval request that an event has shown to its call. -/
def seenApproval : Event Op Res → Option ApprovalRequest
  | ⟨.approvalFindByID _, .ok a⟩ => some a
  | _ => none

/-- The last thing of its kind that a call has seen. -/
def lastSeen {α : Type} (see : Event Op Res → Option α) (h : History) : Option α :=
  h.foldl (fun last e => (see e).or last) none

section LastSeen

variable {α : Type} {see : Event Op Res → Option α} {h : History} {e : Event Op Res} {a : α}

@[simp] theorem lastSeen_concat : lastSeen see (h ++ [e]) = (see e).or (lastSeen see h) := by
  simp [lastSeen]

/-- What was seen last was seen in some event. -/
theorem exists_of_lastSeen (ha : lastSeen see h = some a) : ∃ e ∈ h, see e = some a := by
  -- from the end of the history: the fold keeps the latest sighting
  induction h using List.reverseRecOn with
  | nil => cases ha
  | append_singleton h e ih =>
    rw [lastSeen_concat, Option.or_eq_some_iff] at ha
    rcases ha with hnew | ⟨-, hold⟩
    · exact ⟨e, by simp, hnew⟩
    · obtain ⟨e', he', hsee⟩ := ih hold
      exact ⟨e', List.mem_append_left _ he', hsee⟩

end LastSeen

/-! ### What a call has made sure of -/

/-- The routing decision that an event has stored. -/
def storedRouting : Event Op Res → Option RoutingDecision
  | ⟨.routingSave d, .ok _⟩ => some d
  | _ => none

/-- The policy decision that an event has stored. -/
def storedPolicy : Event Op Res → Option PolicyDecision
  | ⟨.policySave d, .ok _⟩ => some d
  | _ => none

/-- The workflow run for which an event has found or stored a lease. -/
def leaseOf : Event Op Res → Option WorkflowRunID
  | ⟨.leaseSave l, .ok _⟩ => some l.workflowRunID
  | ⟨.leaseFindByWorkflowRunID _, .ok l⟩ => some l.workflowRunID
  | _ => none

/-- The lease that an event has overwritten. -/
def storedLease : Event Op Res → Option ExecutionLease
  | ⟨.leaseUpdate l, .ok _⟩ => some l
  | _ => none

/-- The approval request that an event has overwritten. -/
def storedApproval : Event Op Res → Option ApprovalRequest
  | ⟨.approvalUpdate a, .ok _⟩ => some a
  | _ => none

/-- Some event of the history shows `a`. -/
def Shows {α : Type} (h : History) (see : Event Op Res → Option α) (a : α) : Prop :=
  ∃ e ∈ h, see e = some a

section Shows

variable {α : Type} {see : Event Op Res → Option α} {h : History} {e : Event Op Res} {a : α}

@[simp] theorem shows_concat : Shows (h ++ [e]) see a ↔ Shows h see a ∨ see e = some a := by
  simp [Shows, or_and_right, exists_or]

end Shows

/-! ### The writes a call may make -/

/-- How the row of a workflow update follows from the row `w₀` that its call has seen last. -/
inductive Advance (h : History) (w₀ : WorkflowRun) : WorkflowRun → Prop where
  | routed (d : RoutingDecision) (reason : String) (actor : ActorID) (now : Timestamp)
      (hd : Shows h storedRouting d) (htask : d.taskID = w₀.taskID) (hs : w₀.status = .created) :
      Advance h w₀ { w₀.moved .routed reason actor now with routingDecisionID := some d.id }
  | policyChecked (d : PolicyDecision) (actor : ActorID) (now : Timestamp)
      (hd : Shows h storedPolicy d) (htask : d.taskID = w₀.taskID) (hs : w₀.status = .routed) :
      Advance h w₀ { w₀.moved .policyChecked "" actor now with policyDecisionID := some d.id }
  /-- A step of the transition table that needs no new row beside the run. -/
  | plain (target : WorkflowStatus) (reason : String) (actor : ActorID) (now : Timestamp)
      (hs : w₀.status.isTerminal = false) (hv : w₀.status.isValidTransition target = true)
      (ht : target = .failed ∨ target = .awaitingApproval ∨ target = .paused ∨ target = .killed) :
      Advance h w₀ (w₀.moved target reason actor now)
  /-- A step of the transition table by a call that has found or stored the run's lease. -/
  | leased (target : WorkflowStatus) (reason : String) (actor : ActorID) (now : Timestamp)
      (hs : w₀.status.isTerminal = false) (hv : w₀.status.isValidTransition target = true)
      (ht : target = .running ∨ target = .completed ∨ target = .quarantined)
      (hl : Shows h leaseOf w₀.id) : Advance h w₀ (w₀.moved target reason actor now)
  /-- The two steps of a granted approval, stored at once. -/
  | approved (actor : ActorID) (now : Timestamp) (hs : w₀.status = .awaitingApproval)
      (hl : Shows h leaseOf w₀.id) :
      Advance h w₀ ((w₀.moved .approved "approval granted" actor now).moved .running
        "starting execution" actor now)
  /-- An attempt that leaves the run as it was read. -/
  | same (hs : w₀.status.isTerminal = false) : Advance h w₀ w₀

theorem Advance.concat {h : History} {w₀ w : WorkflowRun} (hw : Advance h w₀ w)
    (e : Event Op Res) : Advance (h ++ [e]) w₀ w := by
  cases hw with
  | routed d reason actor now hd htask hs =>
    exact .routed d reason actor now (shows_concat.mpr (Or.inl hd)) htask hs
  | policyChecked d actor now hd htask hs =>
    exact .policyChecked d actor now (shows_concat.mpr (Or.inl hd)) htask hs
  | plain target reason actor now hs hv ht => exact .plain target reason actor now hs hv ht
  | leased target reason actor now hs hv ht hl =>
    exact .leased target reason actor now hs hv ht (shows_concat.mpr (Or.inl hl))
  | approved actor now hs hl => exact .approved actor now hs (shows_concat.mpr (Or.inl hl))
  | same hs => exact .same hs

/-- What a call may perform after the history `h`. -/
def Permitted (h : History) : Op → Prop
  | .workflowSave w => ∃ id taskID now, w = newWorkflowRun id taskID now
  | .workflowUpdate w => ∃ w₀, lastSeen seenWorkflow h = some w₀ ∧ Advance h w₀ w
  | .leaseSave l => ∃ id w now, l = defaultLease id w now
  | .leaseUpdate l => ∃ l₀, lastSeen seenLease h = some l₀ ∧ l₀.status = .active ∧
      (l = l₀.counted ∨ l = { l₀ with status := .revoked })
  | .approvalSave a => a.status = .pending ∧ a.resolution = none
  | .approvalUpdate a => ∃ a₀, lastSeen seenApproval h = some a₀ ∧ a₀.status = .pending ∧
      ∃ by' reason status now, status ≠ .pending ∧
        a = { a₀ with status, resolution := some ⟨by', now, reason, status⟩ }
  | _ => True

/-- What an answer says in every store: a query by some column answers with a row that has it. -/
def Answered : (o : Op) → Res o → Prop
  | .taskFindByID id, .ok t => t.id = id
  | .workflowFindByID id, .ok w => w.id = id
  | .workflowFindByTaskID id, .ok w => w.taskID = id
  | .leaseFindByWorkflowRunID id, .ok l => l.workflowRunID = id
  | .approvalFindByID id, .ok a => a.id = id
  | _, _ => True

/-- The contract of the governance service. -/
def contract : Contract Op Res := ⟨Answered, Permitted⟩

/-! ### Stepping through a use case -/

section Follows

variable {α β : Type} {C : Contract Op Res} {E : Except Err β → History → Prop} {h : History}
  {f : α → UseCase β}

theorem follows_orFail {msg : String} {r : Except RepoError α} (herr : ∀ e, E (.error e) h)
    (hf : ∀ a, r = .ok a → (f a).Follows C E h) : (orFail msg r >>= f).Follows C E h := by
  cases r with
  | ok a => exact hf a rfl
  | error e => exact herr _

theorem follows_orCause {cause : Err} {r : Except RepoError α} (herr : ∀ e, E (.error e) h)
    (hf : ∀ a, r = .ok a → (f a).Follows C E h) : (orCause cause r >>= f).Follows C E h := by
  cases r with
  | ok a => exact hf a rfl
  | error e => exact herr _

theorem follows_orWrap {msg : String} {r : Except Err α} (herr : ∀ e, E (.error e) h)
    (hf : ∀ a, r = .ok a → (f a).Follows C E h) : (orWrap msg r >>= f).Follows C E h := by
  cases r with
  | ok a => exact hf a rfl
  | error e => exact herr _

end Follows

/-- From the history `h` on, `p` performs permitted operations only, and when it succeeds its result
and its whole history satisfy `P`. -/
def Keeps {α : Type} (P : α → History → Prop) (p : UseCase α) (h : History) : Prop :=
  p.Follows contract (fun res h' => ∀ a, res = .ok a → P a h') h

namespace Keeps

variable {α β : Type} {P : β → History → Prop} {h : History} {f : α → UseCase β}

theorem ret {b : β} (hb : P b h) : Keeps P (.ret b) h := by
  rintro _ ⟨⟩
  exact hb

theorem fail {e : Err} : Keeps P (.fail e) h := by
  rintro _ ⟨⟩

/-- One operation, and the rest for every answer. -/
theorem act {o : Op} {f : Res o → UseCase β} (ho : Permitted h o)
    (hf : ∀ r, Answered o r → Keeps P (f r) (h ++ [⟨o, r⟩])) : Keeps P (.act o .ret >>= f) h :=
  ⟨ho, hf⟩

theorem orFail {msg : String} {r : Except RepoError α}
    (hf : ∀ a, r = .ok a → Keeps P (f a) h) : Keeps P (orFail msg r >>= f) h :=
  follows_orFail (fun _ _ ha => by cases ha) hf

theorem orCause {cause : Err} {r : Except RepoError α}
    (hf : ∀ a, r = .ok a → Keeps P (f a) h) : Keeps P (orCause cause r >>= f) h :=
  follows_orCause (fun _ _ ha => by cases ha) hf

theorem orWrap {msg : String} {r : Except Err α}
    (hf : ∀ a, r = .ok a → Keeps P (f a) h) : Keeps P (orWrap msg r >>= f) h :=
  follows_orWrap (fun _ _ ha => by cases ha) hf

/-- A use case followed by another: `Q` is what is known in between. -/
theorem seq {Q : α → History → Prop} {p : UseCase α} (hp : Keeps Q p h)
    (hf : ∀ a h', Q a h' → Keeps P (f a) h') : Keeps P (p >>= f) h := by
  refine Program.Follows.bind (hp.mono ?_)
  intro res h' hres
  cases res with
  | ok a => exact hf a h' (hres a rfl)
  | error e => rintro _ ⟨⟩

/-- What a longer history keeps holds at the end as well. -/
theorem frame {M : History → Prop} (hM : ∀ h e, M h → M (h ++ [e])) {p : UseCase β} :
    ∀ {h : History}, Keeps P p h → M h → Keeps (fun b h' => P b h' ∧ M h') p h := by
  induction p with
  | ret b => exact fun hp hm => Keeps.ret ⟨hp b rfl, hm⟩
  | fail e => exact fun _ _ => Keeps.fail
  | act o k ih => exact fun hp hm => ⟨hp.1, fun r hr => ih r (hp.2 r hr) (hM _ _ hm)⟩

theorem imp {P' : β → History → Prop} {p : UseCase β} (hp : Keeps P p h)
    (himp : ∀ b h', P b h' → P' b h') : Keeps P' p h :=
  hp.mono fun _ _ hres b hb => himp b _ (hres b hb)

end Keeps

/-! ### The services keep to it -/

/-- Nothing to say about the result. -/
abbrev Any {α : Type} : α → History → Prop := fun _ _ => True

theorem observe_keeps (tool role : String) (success : Bool) (at' : Timestamp) (h : History) :
    Keeps Any (BreakerRegistry.observe tool role success at') h := by
  refine ⟨trivial, fun t _ => ?_⟩
  cases t with
  | none => exact Keeps.ret trivial
  | some t => exact Keeps.act trivial fun _ _ => Keeps.ret trivial

theorem submitTask_keeps (input : SubmitTaskInput) : Keeps Any (submitTask input) [] := by
  refine Keeps.act trivial fun id _ => Keeps.act trivial fun now _ => ?_
  refine Keeps.act trivial fun _ _ => Keeps.orWrap fun t _ => ?_
  refine Keeps.act trivial fun _ _ => Keeps.orFail fun _ _ => ?_
  exact Keeps.act trivial fun _ _ => Keeps.orFail fun _ _ => Keeps.ret trivial

theorem createSubtasks_keeps (parent : Task) (now : Timestamp) (suffixes : List String) :
    ∀ h, Keeps Any (createSubtasks parent now suffixes) h := by
  induction suffixes with
  | nil => exact fun h => Keeps.ret trivial
  | cons suffix rest ih =>
    intro h
    refine Keeps.act trivial fun id _ => Keeps.orWrap fun t _ => Keeps.act trivial fun _ _ => ?_
    refine Keeps.orFail fun _ _ => Keeps.act trivial fun _ _ => Keeps.orFail fun _ _ => ?_
    exact ih _

theorem wrapError_keeps {α : Type} {msg : String} {p : UseCase α} :
    ∀ {h : History}, Keeps Any p h → Keeps Any (wrapError msg p) h := by
  induction p with
  | ret a => exact fun _ => Keeps.ret trivial
  | fail e => exact fun _ => Keeps.fail
  | act o k ih => exact fun hp => ⟨hp.1, fun r hr => ih r (hp.2 r hr)⟩

/-- The run that `RouteTask` goes on with is the last one it has seen, and the decision it has
stored is still in its history. -/
theorem loadOrCreateWorkflow_keeps (taskID : TaskID) (now : Timestamp) (d : RoutingDecision)
    {h : History} (hd : Shows h storedRouting d) :
    Keeps (fun w h' => (w.taskID = taskID ∧ lastSeen seenWorkflow h' = some w) ∧
      Shows h' storedRouting d) (loadOrCreateWorkflow taskID now) h := by
  -- that the decision stays in the history is a frame; the rest is about the run
  refine Keeps.frame (M := fun h => Shows h storedRouting d)
    (fun _ _ hm => shows_concat.mpr (Or.inl hm)) ?_ hd
  refine Keeps.act trivial fun r hr => ?_
  cases r with
  | ok w => exact Keeps.ret ⟨hr, by rw [lastSeen_concat]; rfl⟩
  | error e =>
    refine Keeps.act trivial fun id _ => Keeps.act ⟨id, taskID, now, rfl⟩ fun r _ => ?_
    refine Keeps.orFail fun _ hr => Keeps.ret ⟨rfl, ?_⟩
    rw [lastSeen_concat, hr]
    rfl

theorem routeTask_keeps (taskID : TaskID) : Keeps Any (routeTask taskID) [] := by
  refine Keeps.act trivial fun r _ => Keeps.orFail fun t _ => Keeps.act trivial fun mem _ => ?_
  refine Keeps.act trivial fun stats _ => Keeps.act trivial fun now _ => ?_
  refine Keeps.act trivial fun rdID _ => Keeps.orWrap fun d hd => Keeps.act trivial fun r _ => ?_
  refine Keeps.orFail fun _ hr => ?_
  subst hr
  -- from here on the history shows the stored decision
  refine Keeps.seq (loadOrCreateWorkflow_keeps taskID now d (shows_concat.mpr (Or.inr rfl)))
    fun w h' hw => ?_
  obtain ⟨⟨htask, hlast⟩, hshow⟩ := hw
  obtain rfl := newRoutingDecision_eq_ok hd
  refine Keeps.orWrap fun w' hw' => ?_
  obtain ⟨hs, rfl⟩ := WorkflowRun.markRouted_eq_ok_iff.mp hw'
  refine Keeps.act ⟨w, hlast, .routed _ _ _ _ hshow htask.symm hs⟩ fun _ _ => ?_
  refine Keeps.orFail fun _ _ => Keeps.act trivial fun _ _ => Keeps.orFail fun _ _ => ?_
  split
  · exact Keeps.seq (wrapError_keeps (createSubtasks_keeps _ _ _ _)) fun _ _ _ => Keeps.ret trivial
  · exact Keeps.ret trivial

theorem evaluatePolicy_keeps (taskID : TaskID) (action : String) :
    Keeps Any (evaluatePolicy taskID action) [] := by
  refine Keeps.act trivial fun _ _ => Keeps.orFail fun t _ => Keeps.act trivial fun _ _ => ?_
  refine Keeps.orFail fun _ _ => Keeps.act trivial fun now _ => Keeps.act trivial fun pdID _ => ?_
  refine Keeps.orWrap fun d hd => Keeps.act trivial fun r _ => Keeps.orFail fun _ hr => ?_
  refine Keeps.act trivial fun r' htask => Keeps.orFail fun w hw => Keeps.orWrap fun w' hw' => ?_
  subst hr hw
  have htask : w.taskID = taskID := htask
  obtain ⟨hs, rfl⟩ := WorkflowRun.markPolicyChecked_eq_ok_iff.mp hw'
  -- the id that the run is marked with is the one of the decision stored two operations ago
  have hdec := newPolicyDecision_eq_ok hd
  have hid : pdID = d.id := by rw [hdec]
  have hdtask : d.taskID = w.taskID := by rw [hdec, htask]
  subst hid
  refine Keeps.act ⟨w, rfl, .policyChecked d _ _ ?_ hdtask hs⟩ fun _ _ => ?_
  · exact shows_concat.mpr (Or.inl (shows_concat.mpr (Or.inr rfl)))
  refine Keeps.orFail fun _ _ => Keeps.act trivial fun _ _ => Keeps.orFail fun _ _ => ?_
  exact Keeps.ret trivial

/-! The branches of `StartWorkflow`, after any history that ends with the run. -/

section Start

variable {tID : TaskID} {wf : WorkflowRun} {pd : PolicyDecision} {now : Timestamp} {h : History}

theorem startDenied_keeps (hw : lastSeen seenWorkflow h = some wf) :
    Keeps Any (startDenied tID wf pd now) h := by
  refine Keeps.orWrap fun w' hw' => ?_
  obtain ⟨hs, hv, rfl⟩ := WorkflowRun.transitionTo_eq_ok_iff.mp hw'
  refine Keeps.act ⟨wf, hw, .plain _ _ _ _ hs hv (Or.inl rfl)⟩ fun _ _ => ?_
  refine Keeps.orFail fun _ _ => Keeps.act trivial fun _ _ => Keeps.act trivial fun _ _ => ?_
  exact Keeps.act trivial fun _ _ => Keeps.ret trivial

theorem startAwaiting_keeps (hw : lastSeen seenWorkflow h = some wf) :
    Keeps Any (startAwaiting tID wf pd now) h := by
  refine Keeps.orWrap fun w' hw' => ?_
  obtain ⟨hs, hv, rfl⟩ := WorkflowRun.transitionTo_eq_ok_iff.mp hw'
  refine Keeps.act trivial fun reqID _ => Keeps.orWrap fun req hreq => ?_
  have hpending : req.status = .pending ∧ req.resolution = none := by
    rw [newApprovalRequest_eq_ok hreq]
    exact ⟨rfl, rfl⟩
  refine Keeps.act hpending fun _ _ => Keeps.orFail fun _ _ => ?_
  refine Keeps.act ⟨wf, ?_, .plain _ _ _ _ hs hv (Or.inr (Or.inl rfl))⟩ fun _ _ => ?_
  · rw [lastSeen_concat, lastSeen_concat]
    exact hw
  refine Keeps.orFail fun _ _ => Keeps.act trivial fun _ _ => Keeps.act trivial fun _ _ => ?_
  exact Keeps.ret trivial

theorem startRunning_keeps (hw : lastSeen seenWorkflow h = some wf) :
    Keeps Any (startRunning tID wf now) h := by
  refine Keeps.orWrap fun w' hw' => ?_
  obtain ⟨hs, hv, rfl⟩ := WorkflowRun.transitionTo_eq_ok_iff.mp hw'
  rw [createLease_eq]
  refine ⟨trivial, fun leaseID _ => ?_⟩
  refine Keeps.act ⟨leaseID, _, now, rfl⟩ fun r _ => Keeps.orFail fun _ hr => ?_
  subst hr
  -- the run was seen before the lease was stored, and the lease is the last event
  refine Keeps.act ⟨wf, ?_, .leased _ _ _ _ hs hv (Or.inl rfl) ?_⟩ fun _ _ => ?_
  · rw [lastSeen_concat, lastSeen_concat]
    exact hw
  · exact shows_concat.mpr (Or.inr rfl)
  refine Keeps.orFail fun _ _ => Keeps.act trivial fun _ _ => Keeps.act trivial fun _ _ => ?_
  exact Keeps.ret trivial

end Start

theorem startWorkflow_keeps (taskID : TaskID) : Keeps Any (startWorkflow taskID) [] := by
  refine Keeps.act trivial fun _ _ => Keeps.orFail fun tk _ => Keeps.act trivial fun _ _ => ?_
  refine Keeps.orCause fun _ _ => Keeps.act trivial fun _ _ => Keeps.orCause fun pd _ => ?_
  refine Keeps.act trivial fun r _ => Keeps.orCause fun wf hwf => Keeps.act trivial fun now _ => ?_
  subst hwf
  unfold startAs
  split
  · exact startDenied_keeps rfl
  · exact startAwaiting_keeps rfl
  · exact startRunning_keeps rfl
  · exact startRunning_keeps rfl
  · exact Keeps.fail

/-! The calls on a running workflow. -/

theorem pauseWorkflow_keeps (id : WorkflowRunID) (reason : String) (actor : ActorID) :
    Keeps Any (pauseWorkflow id reason actor) [] := by
  refine Keeps.act trivial fun r _ => Keeps.orFail fun w hw => Keeps.act trivial fun now _ => ?_
  subst hw
  refine Keeps.orWrap fun w' hw' => ?_
  obtain ⟨hs, hv, rfl⟩ := WorkflowRun.transitionTo_eq_ok_iff.mp hw'
  refine Keeps.act ⟨w, rfl, .plain _ _ _ _ hs hv (by simp)⟩ fun _ _ => Keeps.orFail fun _ _ => ?_
  exact Keeps.act trivial fun _ _ => Keeps.ret trivial

theorem resumeWorkflow_keeps (id : WorkflowRunID) (reason : String) (actor : ActorID) :
    Keeps Any (resumeWorkflow id reason actor) [] := by
  refine Keeps.act trivial fun r hid => Keeps.orFail fun w hw => ?_
  subst hw
  refine Keeps.act trivial fun r hlid => Keeps.orFail fun l hl => ?_
  subst hl
  have hid : w.id = id := hid
  have hlid : l.workflowRunID = id := hlid
  split
  · refine Keeps.act trivial fun now _ => Keeps.orWrap fun w' hw' => ?_
    obtain ⟨hs, hv, rfl⟩ := WorkflowRun.transitionTo_eq_ok_iff.mp hw'
    -- the lease was found by the run's id, and both rows were asked for under the same one
    refine Keeps.act ⟨w, rfl, .leased _ _ _ _ hs hv (Or.inl rfl) ?_⟩ fun _ _ => ?_
    · refine shows_concat.mpr (Or.inl (shows_concat.mpr (Or.inr ?_)))
      rw [hid, ← hlid]
      rfl
    refine Keeps.orFail fun _ _ => Keeps.act trivial fun _ _ => ?_
    exact ⟨trivial, fun _ _ => Keeps.ret trivial⟩
  · exact Keeps.fail

/-- The revocation leaves the run its call has seen. -/
theorem revokeLease_keeps (id : WorkflowRunID) {w : WorkflowRun} {h : History}
    (hw : lastSeen seenWorkflow h = some w) :
    Keeps (fun _ h' => lastSeen seenWorkflow h' = some w) (revokeLease id) h := by
  refine Keeps.act trivial fun r _ => ?_
  cases r with
  | error e => exact Keeps.ret (by rw [lastSeen_concat]; exact hw)
  | ok l =>
    have hlast : lastSeen seenLease (h ++ [⟨.leaseFindByWorkflowRunID id, .ok l⟩]) = some l := by
      rw [lastSeen_concat]
      rfl
    cases hrev : l.revoke with
    | error e =>
      simp only [hrev]
      exact Keeps.ret (by rw [lastSeen_concat]; exact hw)
    | ok l' =>
      obtain ⟨hactive, rfl⟩ := ExecutionLease.revoke_eq_ok_iff.mp hrev
      simp only [hrev]
      refine Keeps.act ⟨l, hlast, hactive, Or.inr rfl⟩ fun _ _ => Keeps.ret ?_
      rw [lastSeen_concat, lastSeen_concat]
      exact hw

theorem killWorkflow_keeps (id : WorkflowRunID) (reason : String) (actor : ActorID) :
    Keeps Any (killWorkflow id reason actor) [] := by
  refine Keeps.act trivial fun r _ => Keeps.orFail fun w hw => Keeps.act trivial fun now _ => ?_
  subst hw
  refine Keeps.orWrap fun w' hw' => ?_
  obtain ⟨hs, rfl⟩ := WorkflowRun.kill_eq_ok_iff.mp hw'
  have hv : w.status.isValidTransition .killed = true := by
    simp [WorkflowStatus.isValidTransition, hs]
  -- the revocation may or may not write; either way the run is still the last one seen
  refine Keeps.seq (revokeLease_keeps id (w := w) rfl) fun _ h' hlast => ?_
  refine Keeps.act ⟨w, hlast, .plain _ _ _ _ hs hv (by simp)⟩ fun _ _ => Keeps.orFail fun _ _ => ?_
  refine Keeps.act trivial fun _ _ => Keeps.act trivial fun _ _ => ?_
  exact ⟨trivial, fun _ _ => Keeps.ret trivial⟩

/-! Attempts and approvals, with what a successful call has written. -/

/-- The call has stored something that satisfies `q`. -/
def hasStored {α : Type} (see : Event Op Res → Option α) (q : α → Bool) (h : History) : Bool :=
  h.any fun e => (see e).any q

section HasStored

variable {α : Type} {see : Event Op Res → Option α} {q : α → Bool} {h : History} {e : Event Op Res}

@[simp] theorem hasStored_concat :
    hasStored see q (h ++ [e]) = (hasStored see q h || (see e).any q) := by
  simp [hasStored]

theorem hasStored_mono (h : History) (e : Event Op Res) (hh : hasStored see q h = true) :
    hasStored see q (h ++ [e]) = true := by
  rw [hasStored_concat, hh, Bool.true_or]

end HasStored

/-- The call has counted an attempt on a lease of `id`: it has stored one that is not revoked. -/
def countsAttempt (id : WorkflowRunID) : History → Bool :=
  hasStored storedLease fun l => l.workflowRunID = id ∧ l.status ≠ .revoked

/-- The call has overwritten the request `id`. -/
def resolvesRequest (id : ApprovalRequestID) : History → Bool :=
  hasStored storedApproval fun a => a.id = id

theorem recordQuarantine_keeps (w : WorkflowRun) (ctx : AuditContext) (h : History) :
    Keeps Any (recordQuarantine w ctx) h := by
  unfold recordQuarantine
  split
  · exact Keeps.act trivial fun _ _ => Keeps.ret trivial
  · exact Keeps.ret trivial

theorem announceTermination_keeps (w : WorkflowRun) (h : History) :
    Keeps Any (announceTermination w) h := by
  unfold announceTermination
  split
  · exact Keeps.act trivial fun _ _ => ⟨trivial, fun _ _ => Keeps.ret trivial⟩
  · exact Keeps.ret trivial

theorem reportFailure_keeps (result : AttemptResult) (h : History) :
    Keeps Any (reportFailure result) h := by
  unfold reportFailure
  split
  · exact ⟨trivial, fun _ _ => Keeps.ret trivial⟩
  · exact Keeps.ret trivial

theorem observeBreaker_keeps (result : AttemptResult) (now : Timestamp) (h : History) :
    Keeps Any (observeBreaker result now) h := by
  unfold observeBreaker
  split
  · exact observe_keeps _ _ _ _ _
  · exact Keeps.ret trivial

/-- Step 5 of `RegisterAttempt` performs nothing; the run it goes on with follows from the one it
was given. -/
theorem attemptTransition_keeps {w : WorkflowRun} {l : ExecutionLease} {status : AttemptStatus}
    {now : Timestamp} {h : History} (hs : w.status.isTerminal = false)
    (hl : Shows h leaseOf w.id) :
    Keeps (fun w' h' => h' = h ∧ Advance h w w' ∧ w'.id = w.id)
      (attemptTransition w l status now) h := by
  -- completing and quarantining are one case
  have hmove : ∀ {msg : String} {target : WorkflowStatus} {reason : String},
      target = .running ∨ target = .completed ∨ target = .quarantined →
      Keeps (fun w' h' => h' = h ∧ Advance h w w' ∧ w'.id = w.id)
        (orWrap msg (w.transitionTo target reason systemActor now)) h := by
    intro msg target reason ht
    cases hw : w.transitionTo target reason systemActor now with
    | error e => exact Keeps.fail
    | ok w' =>
      obtain ⟨-, hv, rfl⟩ := WorkflowRun.transitionTo_eq_ok_iff.mp hw
      exact Keeps.ret ⟨rfl, .leased _ _ _ _ hs hv ht hl, rfl⟩
  unfold attemptTransition
  split
  · exact hmove (Or.inr (Or.inl rfl))
  · split
    · exact Keeps.ret ⟨rfl, .same hs, rfl⟩
    · exact hmove (Or.inr (Or.inr rfl))
  · exact Keeps.ret ⟨rfl, .same hs, rfl⟩
  · exact Keeps.ret ⟨rfl, .same hs, rfl⟩

theorem registerAttempt_keeps (id : WorkflowRunID) (result : AttemptResult) :
    Keeps (fun _ h => countsAttempt id h = true) (registerAttempt id result) [] := by
  refine Keeps.act trivial fun r hid => Keeps.orFail fun w hw => ?_
  subst hw
  have hid : w.id = id := hid
  split
  · exact Keeps.fail
  next hterm =>
  have hs : w.status.isTerminal = false := by simpa using hterm
  refine Keeps.orWrap fun _ _ => Keeps.act trivial fun r hlid => Keeps.orFail fun l hl => ?_
  subst hl
  have hlid : l.workflowRunID = id := hlid
  refine Keeps.orWrap fun l' hl' => Keeps.act trivial fun now _ => ?_
  obtain ⟨hactive, rfl⟩ := ExecutionLease.recordAttempt_eq_ok_iff.mp hl'
  have hlease : ∀ e, Shows ([⟨.workflowFindByID id, .ok w⟩,
      ⟨.leaseFindByWorkflowRunID id, .ok l⟩] ++ [e]) leaseOf w.id := by
    intro e
    refine shows_concat.mpr (Or.inl ⟨⟨.leaseFindByWorkflowRunID id, .ok l⟩, by simp, ?_⟩)
    rw [hid, ← hlid]
    rfl
  refine Keeps.seq (attemptTransition_keeps hs (hlease _)) fun w' h' hw' => ?_
  obtain ⟨rfl, hadv, hwid⟩ := hw'
  refine Keeps.act ⟨l, rfl, hactive, Or.inl rfl⟩ fun r _ => Keeps.orFail fun _ hr => ?_
  subst hr
  -- the attempt is counted; the rest only makes the history longer
  have hcount : ∀ h, countsAttempt id (h ++ [⟨.leaseUpdate l.counted, .ok ()⟩]) = true := by
    intro h
    have hlid : l.counted.workflowRunID = id := hlid
    simp [countsAttempt, storedLease, hlid, ExecutionLease.counted_ne_revoked hactive]
  refine (Keeps.frame (P := Any) hasStored_mono ?_ (hcount _)).imp fun _ _ hp => hp.2
  refine Keeps.act ⟨w, rfl, ?_⟩ fun _ _ => Keeps.orFail fun _ _ => Keeps.act trivial fun _ _ => ?_
  · exact hadv.concat _
  refine Keeps.seq (recordQuarantine_keeps w' _ _) fun _ h₁ _ => ?_
  refine Keeps.seq (announceTermination_keeps w' h₁) fun _ h₂ _ => ?_
  refine Keeps.seq (reportFailure_keeps result h₂) fun _ h₃ _ => ?_
  exact Keeps.seq (observeBreaker_keeps result now h₃) fun _ _ _ => Keeps.ret trivial

theorem resolveRequest_keeps {a : ApprovalRequest} {input : ResolveApprovalInput}
    {now : Timestamp} {h : History} :
    Keeps (fun a' h' => h' = h ∧ a.status = .pending ∧ ∃ by' reason status now, status ≠ .pending ∧
      a' = { a with status, resolution := some ⟨by', now, reason, status⟩ })
      (resolveRequest a input now) h := by
  -- approving and denying are one case
  have hres : ∀ {msg : String} {status : ApprovalStatus}, status ≠ .pending →
      Keeps (fun a' h' => h' = h ∧ a.status = .pending ∧ ∃ by' reason status now,
        status ≠ .pending ∧ a' = { a with status, resolution := some ⟨by', now, reason, status⟩ })
        (orWrap msg (a.resolve input.resolvedBy input.reason status now)) h := by
    intro msg status hstatus
    cases ha : a.resolve input.resolvedBy input.reason status now with
    | error e => exact Keeps.fail
    | ok a' =>
      obtain ⟨hp, rfl⟩ := ApprovalRequest.resolve_eq_ok_iff.mp ha
      exact Keeps.ret ⟨rfl, hp, _, _, status, _, hstatus, rfl⟩
  unfold resolveRequest
  split
  · exact hres (by decide)
  · exact hres (by decide)

theorem moveResolved_keeps {w : WorkflowRun} {input : ResolveApprovalInput} {now : Timestamp}
    {h : History} (hw : lastSeen seenWorkflow h = some w) :
    Keeps Any (moveResolved w input now) h := by
  unfold moveResolved
  split
  · refine Keeps.orWrap fun w₁ hw₁ => Keeps.orWrap fun w₂ hw₂ => ?_
    obtain ⟨-, hv₁, rfl⟩ := WorkflowRun.transitionTo_eq_ok_iff.mp hw₁
    obtain ⟨-, -, rfl⟩ := WorkflowRun.transitionTo_eq_ok_iff.mp hw₂
    -- only a waiting run can be approved
    have hs : w.status = .awaitingApproval :=
      List.mem_singleton.mp (WorkflowStatus.mem_sources (by decide) hv₁)
    rw [createLease_eq]
    refine ⟨trivial, fun leaseID _ => Keeps.act ⟨leaseID, _, now, rfl⟩ fun r _ => ?_⟩
    refine Keeps.orFail fun _ hr => ?_
    subst hr
    refine Keeps.act ⟨w, ?_, .approved _ _ hs (shows_concat.mpr (Or.inr rfl))⟩ fun _ _ => ?_
    · rw [lastSeen_concat, lastSeen_concat]
      exact hw
    exact Keeps.orFail fun _ _ => ⟨trivial, fun _ _ => Keeps.ret trivial⟩
  · refine Keeps.orWrap fun w' hw' => ?_
    obtain ⟨hs, hv, rfl⟩ := WorkflowRun.transitionTo_eq_ok_iff.mp hw'
    refine Keeps.act ⟨w, hw, .plain _ _ _ _ hs hv (Or.inl rfl)⟩ fun _ _ => ?_
    exact Keeps.orFail fun _ _ => ⟨trivial, fun _ _ => Keeps.ret trivial⟩

theorem reportResolution_keeps (w : WorkflowRun) (approved : Bool) (h : History) :
    Keeps Any (reportResolution w approved) h := by
  unfold reportResolution
  split
  · exact ⟨trivial, fun _ _ => Keeps.ret trivial⟩
  · exact Keeps.act trivial fun _ _ => ⟨trivial, fun _ _ => Keeps.ret trivial⟩

theorem resolveApproval_keeps (input : ResolveApprovalInput) :
    Keeps (fun _ h => resolvesRequest input.approvalRequestID h = true)
      (resolveApproval input) [] := by
  refine Keeps.act trivial fun r hid => Keeps.orFail fun a ha => Keeps.act trivial fun now _ => ?_
  subst ha
  have hid : a.id = input.approvalRequestID := hid
  refine Keeps.seq resolveRequest_keeps fun a' h' ha' => ?_
  obtain ⟨rfl, hpending, by', reason, status, now', hstatus, hval⟩ := ha'
  have hid' : a'.id = input.approvalRequestID := by rw [hval]; exact hid
  refine Keeps.act ⟨a, rfl, hpending, by', reason, status, now', hstatus, hval⟩ fun r _ => ?_
  refine Keeps.orFail fun _ hr => ?_
  subst hr
  -- the request is overwritten; the rest only makes the history longer
  have hresolved : ∀ h, resolvesRequest input.approvalRequestID
      (h ++ [⟨.approvalUpdate a', .ok ()⟩]) = true := by
    intro h
    simp [resolvesRequest, storedApproval, hid']
  refine (Keeps.frame (P := Any) hasStored_mono ?_ (hresolved _)).imp fun _ _ hp => hp.2
  refine Keeps.act trivial fun r _ => Keeps.orFail fun w hw => ?_
  subst hw
  refine Keeps.seq (moveResolved_keeps (w := w) rfl) fun _ h₁ _ => Keeps.act trivial fun _ _ => ?_
  exact Keeps.seq (reportResolution_keeps _ _ _) fun _ _ _ => Keeps.ret trivial

/-! ### The system keeps the contract -/

/-- What the history of a successful call shows. -/
def Call.Ends : Call → Except Err Reply → History → Prop
  | .registerAttempt id _, res, h => ∀ w, res = .ok w → countsAttempt id h = true
  | .resolveApproval input, res, h =>
    ∀ a, res = .ok a → resolvesRequest input.approvalRequestID h = true
  | _, _, _ => True

theorem Keeps.reply {α : Type} {P : α → History → Prop} {Q : Reply → History → Prop}
    {p : UseCase α} {f : α → Reply} {h : History} (hp : Keeps P p h)
    (hQ : ∀ a h', P a h' → Q (f a) h') : Keeps Q (p >>= fun a => .ret (f a)) h :=
  Keeps.seq hp fun a h' ha => Keeps.ret (hQ a h' ha)

theorem Keeps.any {α : Type} {P : α → History → Prop} {p : UseCase α} {f : α → Reply}
    {h : History} (hp : Keeps P p h) :
    (p >>= fun a => .ret (f a)).Follows contract (fun _ _ => True) h :=
  (Keeps.reply (Q := Any) hp fun _ _ _ => trivial).mono fun _ _ _ => trivial

/-- **Every call keeps to the contract.** -/
theorem Call.follows (c : Call) : c.body.Follows contract c.Ends [] := by
  cases c with
  | submitTask input => exact (submitTask_keeps input).any
  | routeTask taskID => exact (routeTask_keeps taskID).any
  | evaluatePolicy taskID action => exact (evaluatePolicy_keeps taskID action).any
  | startWorkflow taskID => exact (startWorkflow_keeps taskID).any
  | resolveApproval input => exact (resolveApproval_keeps input).reply fun _ _ h => h
  | registerAttempt id result => exact (registerAttempt_keeps id result).reply fun _ _ h => h
  | pauseWorkflow id reason actor => exact (pauseWorkflow_keeps id reason actor).any
  | resumeWorkflow id reason actor => exact (resumeWorkflow_keeps id reason actor).any
  | killWorkflow id reason actor => exact (killWorkflow_keeps id reason actor).any

/-- The answers of the interpreter are those of the contract. -/
theorem exec_answered {ch : Choice} {s s' : Store} {o : Op} {r : Res o}
    (hex : exec ch s o = (r, s')) : Answered o r := by
  cases o with
  | taskFindByID id =>
    cases r with
    | error e => trivial
    | ok t => exact (Table.find_eq_some_iff.mp ((query_eq hex).2 t rfl)).2
  | workflowFindByID id =>
    cases r with
    | error e => trivial
    | ok w => exact (Table.find_eq_some_iff.mp ((query_eq hex).2 w rfl)).2
  | workflowFindByTaskID id =>
    cases r with
    | error e => trivial
    | ok w =>
      have htask : w.taskID = id := by
        simpa using (pick_eq_some ((query_eq hex).2 w rfl)).2
      exact htask
  | leaseFindByWorkflowRunID id =>
    cases r with
    | error e => trivial
    | ok l => exact (IndexedTable.lookup_eq_some_iff.mp ((query_eq hex).2 l rfl)).2
  | approvalFindByID id =>
    cases r with
    | error e => trivial
    | ok a => exact (Table.find_eq_some_iff.mp ((query_eq hex).2 a rfl)).2
  | _ => trivial

/-- A run that an operation shows is stored after it. -/
theorem seenWorkflow_mem {ch : Choice} {s s' : Store} {o : Op} {r : Res o} {w : WorkflowRun}
    (hex : exec ch s o = (r, s')) (hw : seenWorkflow ⟨o, r⟩ = some w) : w ∈ s'.workflowRuns := by
  -- it is shown by one of two queries or by its own insertion
  unfold seenWorkflow at hw
  split at hw
  · next id w' heq =>
    cases heq
    cases hw
    obtain ⟨rfl, hfound⟩ := query_eq hex
    exact (Table.find_eq_some_iff.mp (hfound _ rfl)).1
  · next id w' heq =>
    cases heq
    cases hw
    obtain ⟨rfl, hfound⟩ := query_eq hex
    exact (pick_eq_some (hfound _ rfl)).1
  · next w' u heq =>
    cases heq
    cases hw
    exact workflowSave_ok hex
  · cases hw

theorem seenLease_mem {ch : Choice} {s s' : Store} {o : Op} {r : Res o} {l : ExecutionLease}
    (hex : exec ch s o = (r, s')) (hl : seenLease ⟨o, r⟩ = some l) : l ∈ s'.executionLeases := by
  unfold seenLease at hl
  split at hl
  · next id l' heq =>
    cases heq
    cases hl
    obtain ⟨rfl, hfound⟩ := query_eq hex
    exact (IndexedTable.lookup_eq_some_iff.mp (hfound _ rfl)).1
  · cases hl

theorem seenApproval_mem {ch : Choice} {s s' : Store} {o : Op} {r : Res o} {a : ApprovalRequest}
    (hex : exec ch s o = (r, s')) (ha : seenApproval ⟨o, r⟩ = some a) :
    a ∈ s'.approvalRequests := by
  unfold seenApproval at ha
  split at ha
  · next id a' heq =>
    cases heq
    cases ha
    obtain ⟨rfl, hfound⟩ := query_eq hex
    exact (Table.find_eq_some_iff.mp (hfound _ rfl)).1
  · cases ha

theorem governance_keeps : governance.Keeps contract Call.Ends where
  answers := exec_answered
  follows := Call.follows

end Governance

import GovernanceCore.Lifecycle.Machine

/-!
# Rules for programs over a view

What a program of the services does to the view of one workflow run, computed operation by operation
(`Sees`). There is a rule for every way in which the services go on, fail, read a row and write one.
A row that is read is the one the view shows when it belongs to this run, and a write to another
run leaves the view: the rules keep both cases in one postcondition, so that a walk through a
service splits them only at its end.
-/

namespace Governance

open Framework

variable {α β : Type} {strict : Bool} {id : WorkflowRunID}

/-- Left alone, `p` ends with a result and a view of `id` that satisfy `Q`. -/
abbrev Sees (strict : Bool) (id : WorkflowRunID) (Q : Except Err α → View → Prop) (p : UseCase α)
    (v : View) : Prop :=
  p.wp (ViewStep strict id) Q v

/-! ### Rules -/

/-- The lease of the view after the update of a lease that the call has read. -/
theorem lease_overwrite {i : WorkflowRunID} {v : View} {l l' : ExecutionLease}
    (hthis : i = id → v.lease = some l)
    (hother : i ≠ id → ∀ r, v.lease = some r → r.id ≠ l.id) (hid : l'.id = l.id) :
    (v.lease.map fun r => if r.id = l'.id then l'.overwrite r else r)
      = if i = id then some (l'.overwrite l) else v.lease := by
  by_cases hi : i = id
  · simp [hthis hi, hi, hid]
  · -- the lease of another run has another id than the one the view shows
    rw [if_neg hi]
    cases hl : v.lease with
    | none => rfl
    | some r => simp [hid, hother hi r hl]

namespace Sees

variable {Q : Except Err β → View → Prop} {v : View} {f : α → UseCase β}

theorem act {o : Op} {f : Res o → UseCase β}
    (h : ∀ r v₁, ViewStep strict id v o r v₁ → Sees strict id Q (f r) v₁) :
    Sees strict id Q (.act o .ret >>= f) v := h

/-- An operation that leaves the view. -/
theorem skip {o : Op} {f : Res o → UseCase β} (ho : ∀ r v₁, ViewStep strict id v o r v₁ → v₁ = v)
    (h : ∀ r, Sees strict id Q (f r) v) : Sees strict id Q (.act o .ret >>= f) v := by
  intro r v₁ hr
  rw [ho r v₁ hr]
  exact h r

theorem orFail {msg : String} {r : Except RepoError α}
    (herr : ∀ e, r = .error e → ∀ e', Q (.error e') v)
    (hok : ∀ a, r = .ok a → Sees strict id Q (f a) v) :
    Sees strict id Q (orFail msg r >>= f) v := by
  cases r with
  | ok a => exact hok a rfl
  | error e => exact herr e rfl _

theorem orCause {cause : Err} {r : Except RepoError α}
    (herr : ∀ e, r = .error e → ∀ e', Q (.error e') v)
    (hok : ∀ a, r = .ok a → Sees strict id Q (f a) v) :
    Sees strict id Q (orCause cause r >>= f) v := by
  cases r with
  | ok a => exact hok a rfl
  | error e => exact herr e rfl _

theorem orWrap {msg : String} {r : Except Err α}
    (herr : ∀ e, r = .error e → ∀ e', Q (.error e') v)
    (hok : ∀ a, r = .ok a → Sees strict id Q (f a) v) :
    Sees strict id Q (orWrap msg r >>= f) v := by
  cases r with
  | ok a => exact hok a rfl
  | error e => exact herr e rfl _

/-- A use case followed by another: `M` is what is known in between. -/
theorem seq {M : Except Err α → View → Prop} {p : UseCase α} (hp : Sees strict id M p v)
    (herr : ∀ e v', M (.error e) v' → Q (.error e) v')
    (hok : ∀ a v', M (.ok a) v' → Sees strict id Q (f a) v') : Sees strict id Q (p >>= f) v := by
  refine Program.wp_bind.mpr (Program.wp_mono ?_ hp)
  intro res v' hM
  cases res with
  | ok a => exact hok a v' hM
  | error e => exact herr e v' hM

/-- A use case that cannot fail, followed by another: `P` is what it does to the view. -/
theorem always {P : View → Prop} {p : UseCase α}
    (hp : Sees strict id (fun res v' => res.isOk = true ∧ P v') p v)
    (hok : ∀ a v', P v' → Sees strict id Q (f a) v') : Sees strict id Q (p >>= f) v :=
  seq hp (fun _ _ h => by cases h.1) fun a v' h => hok a v' h.2

/-- An update of the row that the call has read. -/
theorem moveRun {w w' : WorkflowRun} {msg : String} {f : Unit → UseCase β} (hid : w'.id = w.id)
    (hrow : w'.overwrite w = w') (hrun : w.id = id → v.run = some w)
    (h : Sees strict id Q (f ())
      { v with run := if w.id = id then some w' else v.run }) :
    Sees strict id Q (WfRepo.update w' >>= fun r => Governance.orFail msg r >>= f) v := by
  intro r v₁ hr
  cases r with
  | error e => cases hr
  | ok u =>
    have hv₁ : v₁ = { v with run := if w'.id = id then v.run.map w'.overwrite else v.run } := hr
    -- the columns that an update skips are those in which the copy has not changed
    have hsame : (if w'.id = id then v.run.map w'.overwrite else v.run)
        = if w.id = id then some w' else v.run := by
      rw [hid]
      by_cases hi : w.id = id
      · rw [if_pos hi, if_pos hi, hrun hi, Option.map_some, hrow]
      · rw [if_neg hi, if_neg hi]
    rw [hv₁, hsame]
    exact h

/-- An audit entry about the run `i`, whose error is dropped. -/
theorem record {actor : ActorID} {action outcome : String} {ctx : AuditContext}
    {taskID : Option TaskID} {i j : WorkflowRunID} {f : Except RepoError Unit → UseCase β}
    (hj : j = i) (h : ∀ r trail, (strict = true → trail
        = if i = id then v.trail ++ [(action, outcome)] else v.trail) →
      Sees strict id Q (f r) { v with trail }) :
    Sees strict id Q (Audit.record actor action outcome ctx taskID (some j) >>= f) v := by
  subst hj
  rintro r v₁ ⟨trail, rfl, ht⟩
  exact h r trail fun hstrict => by simpa using (ht hstrict).2

/-- An audit entry about no run. -/
theorem recordOther {actor : ActorID} {action outcome : String} {ctx : AuditContext}
    {taskID : Option TaskID} {f : Except RepoError Unit → UseCase β}
    (h : ∀ r trail, (strict = true → trail = v.trail) → Sees strict id Q (f r) { v with trail }) :
    Sees strict id Q (Audit.record actor action outcome ctx taskID none >>= f) v := by
  rintro r v₁ ⟨trail, rfl, ht⟩
  exact h r trail fun hstrict => by simpa using (ht hstrict).2

/-- A workflow run that is loaded is the one the view shows, when it is this run. -/
theorem loadRun {i : WorkflowRunID} {msg : String} {f : WorkflowRun → UseCase β}
    (herr : (i = id → v.run = none) → ∀ e, Q (.error e) v)
    (hok : ∀ w, w.id = i → (w.id = id → v.run = some w) → Sees strict id Q (f w) v) :
    Sees strict id Q (WfRepo.findByID i >>= fun r => Governance.orFail msg r >>= f) v := by
  intro r v₁ hr
  cases r with
  | error e =>
    obtain ⟨rfl, hnone⟩ := hr
    exact herr hnone _
  | ok w =>
    obtain ⟨rfl, hid, hrun⟩ := hr
    exact hok w hid fun hi => hrun (hid.symm.trans hi)

theorem loadLease {i : WorkflowRunID} {msg : String} {f : ExecutionLease → UseCase β}
    (herr : ∀ e, Q (.error e) v)
    (hok : ∀ l, (i = id → v.lease = some l) → (i ≠ id → ∀ r, v.lease = some r → r.id ≠ l.id) →
      Sees strict id Q (f l) v) :
    Sees strict id Q (LeaseRepo.findByWorkflowRunID i >>= fun r => Governance.orFail msg r >>= f)
      v := by
  intro r v₁ hr
  cases r with
  | error e =>
    obtain ⟨rfl, -⟩ := hr
    exact herr _
  | ok l =>
    obtain ⟨rfl, hthis, hother⟩ := hr
    exact hok l hthis hother

theorem updateLease {i : WorkflowRunID} {l l' : ExecutionLease} {msg : String}
    {f : Unit → UseCase β} (hthis : i = id → v.lease = some l)
    (hother : i ≠ id → ∀ r, v.lease = some r → r.id ≠ l.id) (hid : l'.id = l.id)
    (h : Sees strict id Q (f ())
      { v with lease := if i = id then some (l'.overwrite l) else v.lease }) :
    Sees strict id Q (LeaseRepo.update l' >>= fun r => Governance.orFail msg r >>= f) v := by
  intro r v₁ hr
  cases r with
  | error e => cases hr
  | ok u =>
    rw [show v₁ = _ from hr, lease_overwrite hthis hother hid]
    exact h

/-- A new lease for the run `i`; the index on runs refuses a second one. -/
theorem saveLease {i : WorkflowRunID} {l : ExecutionLease} {msg : String} {f : Unit → UseCase β}
    (hl : l.workflowRunID = i) (herr : (i = id → v.lease ≠ none) → ∀ e, Q (.error e) v)
    (hok : (i = id → v.lease = none) →
      Sees strict id Q (f ()) { v with lease := if i = id then some l.toRow else v.lease }) :
    Sees strict id Q (LeaseRepo.save l >>= fun r => Governance.orFail msg r >>= f) v := by
  subst hl
  intro r v₁ hr
  cases r with
  | error e =>
    obtain ⟨rfl, hsome⟩ := hr
    exact herr hsome _
  | ok u =>
    have hr : if l.workflowRunID = id then v.lease = none ∧ v₁ = { v with lease := some l.toRow }
      else v₁ = v := hr
    -- the premise of `hok` is about this run only, so it is vacuous for another one
    by_cases hi : l.workflowRunID = id
    · rw [if_pos hi] at hr
      obtain ⟨hnone, rfl⟩ := hr
      have hok := hok fun _ => hnone
      rw [if_pos hi] at hok
      exact hok
    · rw [if_neg hi] at hr
      subst hr
      have hok := hok fun h => absurd h hi
      rw [if_neg hi] at hok
      exact hok

/-- Both services make the same lease for a run that is about to start. -/
theorem newLease {i : WorkflowRunID} {now : Timestamp} {f : ExecutionLease → UseCase β}
    (h : ∀ lid, Sees strict id Q (f (defaultLease lid i now)) v) :
    Sees strict id Q (createLease i now >>= f) v := by
  rw [createLease_eq]
  intro lid v₁ hv₁
  rw [show v₁ = v from hv₁]
  exact h lid

/-- A new approval request for the run `i`. -/
theorem saveRequest {i : WorkflowRunID} {a : ApprovalRequest} {msg : String} {f : Unit → UseCase β}
    (ha : a.workflowRunID = i) (h : Sees strict id Q (f ())
      { v with requests := if i = id then v.requests ++ [a] else v.requests }) :
    Sees strict id Q (ApprovalRepo.save a >>= fun r => Governance.orFail msg r >>= f) v := by
  subst ha
  intro r v₁ hr
  cases r with
  | error e => cases hr
  | ok u =>
    rw [show v₁ = _ from hr]
    exact h

/-- A notification about the run `i`. -/
theorem notify {n : Notification} {i : WorkflowRunID} {f : Unit → UseCase β}
    (hn : n.workflowRunID = i) (h : Sees strict id Q (f ())
      { v with notes := if i = id then v.notes ++ [n.note] else v.notes }) :
    Sees strict id Q (.act (.notify n) .ret >>= f) v := by
  subst hn
  rintro ⟨⟩ v₁ rfl
  exact h

theorem emitTerminal {i j : WorkflowRunID} {status : String} {f : Unit → UseCase β}
    (hj : j = i) (h : Sees strict id Q (f ())
      { v with endings := if i = id then v.endings.map (· + 1) else v.endings }) :
    Sees strict id Q (.act (.emit (.terminal j status)) .ret >>= f) v := by
  subst hj
  rintro ⟨⟩ v₁ rfl
  exact h

/-- A use case whose errors are returned in another form. -/
theorem wrapError {msg : String} {p : UseCase β}
    (hQ : ∀ e e' v', Q (.error e) v' → Q (.error e') v') (hp : Sees strict id Q p v) :
    Sees strict id Q (Governance.wrapError msg p) v :=
  wp_wrapError hQ hp

/-- A use case whose last step is an operation. -/
theorem last {o : Op} {Q : Except Err (Res o) → View → Prop}
    (h : Sees strict id Q (.act o .ret >>= fun r => .ret r) v) : Sees strict id Q (.act o .ret) v :=
  h

end Sees

/-- The result of a call as a step of the machine. -/
def StepOf (strict : Bool) (id : WorkflowRunID) (c : Call) (v : View) (res : Except Err α)
    (v' : View) : Prop :=
  LifeStep strict id c res.isOk v v'

/-- A refused call that has changed nothing. -/
theorem StepOf.refused {c : Call} {v : View} (e : Err) :
    StepOf strict id c v (.error e : Except Err α) v :=
  LifeStep.quiet (fun h => by cases h) (fun _ hd => hd) fun _ => (List.append_nil _).symm

/-- A call about another run, which has at most made audit entries about that one. -/
theorem StepOf.elsewhere {c : Call} {v : View} {res : Except Err α} {trail : List (String × String)}
    (hc : c.attemptOn id = none) (ht : strict = true → trail = v.trail) :
    StepOf strict id c v res { v with trail } :=
  LifeStep.quiet (fun _ => hc) (fun _ hd => hd) fun h => (ht h).trans (List.append_nil _).symm

end Governance

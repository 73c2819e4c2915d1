import GovernanceCore.Framework.Program

/-!
# Deciding before writing

A program is **clean** when an error of it leaves the store as it found it. The way to be clean is
to decide first and to write afterwards: up to its first effect a program may still fail, and from
then on it has to succeed.

* `Program.Clean.act` — the rule for an operation: without an effect the rest is to be clean, and
  with one the rest is to succeed;
* `Program.Succeeds.bind`, `Program.Clean.map` — the rules for sequencing;
* `Program.Clean.runs` — what a clean program guarantees.
-/

namespace Framework

variable {Store Op : Type} {Res : Op → Type} {ε α β : Type}
  {step : Store → (o : Op) → Res o → Store → Prop} {p : Program Op Res ε α} {s s' : Store}

/-- Every run of the program ends without an error. -/
def Program.Succeeds (step : Store → (o : Op) → Res o → Store → Prop) (p : Program Op Res ε α)
    (s : Store) : Prop :=
  p.wp step (fun res _ => ∃ a, res = .ok a) s

/-- Every run of the program that ends with an error leaves the store as it was. -/
def Program.Clean (step : Store → (o : Op) → Res o → Store → Prop) (p : Program Op Res ε α)
    (s : Store) : Prop :=
  p.wp step (fun res s' => (∃ e, res = .error e) → s' = s) s

namespace Program

theorem Succeeds.ret (a : α) (s : Store) : (Program.ret a : Program Op Res ε α).Succeeds step s :=
  ⟨a, rfl⟩

theorem Succeeds.act {o : Op} {k : Res o → Program Op Res ε α}
    (h : ∀ r s', step s o r s' → (k r).Succeeds step s') : (Program.act o k).Succeeds step s :=
  h

/-- The rest may rely on what is known of the value. -/
theorem Succeeds.bind_wp {P : α → Prop} {f : α → Program Op Res ε β}
    (hp : p.wp step (fun res _ => ∃ a, res = .ok a ∧ P a) s)
    (hf : ∀ a s', P a → (f a).Succeeds step s') : (p >>= f).Succeeds step s := by
  unfold Succeeds
  rw [wp_bind]
  refine wp_mono (fun res s' hres => ?_) hp
  obtain ⟨a, rfl, ha⟩ := hres
  exact hf a s' ha

theorem Succeeds.bind {f : α → Program Op Res ε β} (hp : p.Succeeds step s)
    (hf : ∀ a s', (f a).Succeeds step s') : (p >>= f).Succeeds step s := by
  refine bind_wp (P := fun _ => True) (wp_mono (fun res _ hres => ?_) hp) fun a s' _ => hf a s'
  obtain ⟨a, ha⟩ := hres
  exact ⟨a, ha, trivial⟩

/-- What is asked of errors only holds of a program that succeeds. -/
theorem Succeeds.wp {Q : Except ε α → Store → Prop} (hp : p.Succeeds step s)
    (hQ : ∀ a s', Q (.ok a) s') : p.wp step Q s := by
  refine wp_mono (fun res s' hres => ?_) hp
  obtain ⟨a, rfl⟩ := hres
  exact hQ a s'

theorem Succeeds.clean (hp : p.Succeeds step s) : p.Clean step s := by
  refine hp.wp fun a s' herr => ?_
  obtain ⟨e, he⟩ := herr
  cases he

theorem Clean.fail (e : ε) (s : Store) : (Program.fail e : Program Op Res ε α).Clean step s :=
  fun _ => rfl

theorem Clean.act {o : Op} {k : Res o → Program Op Res ε α}
    (h : ∀ r s', step s o r s' → s' = s ∧ (k r).Clean step s ∨ (k r).Succeeds step s') :
    (Program.act o k).Clean step s := by
  intro r s' hstep
  rcases h r s' hstep with ⟨rfl, hclean⟩ | hsucceeds
  · exact hclean
  · -- there is no error to answer for any more
    refine hsucceeds.wp fun a s'' herr => ?_
    obtain ⟨e, he⟩ := herr
    cases he

/-- What is done with the value at the end does not matter. -/
theorem Clean.map {g : α → β} (hp : p.Clean step s) :
    (p >>= fun a => Program.ret (g a)).Clean step s := by
  unfold Clean
  rw [wp_bind]
  refine wp_mono (fun res s' hres => ?_) hp
  cases res with
  | ok a =>
    rintro ⟨e, he⟩
    cases he
  | error e =>
    intro _
    exact hres ⟨e, rfl⟩

theorem Clean.runs {e : ε} (hp : p.Clean step s) (hrun : p.Runs step s (.error e) s') : s' = s :=
  hrun.of_wp hp ⟨e, rfl⟩

end Program

end Framework

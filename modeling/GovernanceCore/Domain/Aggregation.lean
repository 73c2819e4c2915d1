import GovernanceCore.Domain.Policy
import Mathlib.Data.List.Induction
import Mathlib.Order.Bounds.Basic

/-!
# Aggregation of arbitrary rules

`EvaluatePolicy` takes any list of rules. Whatever they are, its loop ends with the most restrictive
outcome that a rule names and with the reason of the first rule that names it; the floor then turns
a bare allow into allow_with_constraints.

The result is stated as a greatest element: the restrictiveness of the outcome is the greatest one
of a set (`restrictions`) that contains the floor and what the rules name. The set does not know
about order or repetition, and it grows with the rules. So nothing about permutations, duplicates
and added rules has to be proved by another induction.
-/

namespace Governance

namespace PolicyOutcome

/-- One of the four named outcomes. -/
def Declared : PolicyOutcome → Prop
  | undeclared _ _ => False
  | _ => True

/-- What is declared and not a bare allow is at or above the floor. -/
theorem Declared.floor_le {o : PolicyOutcome} (h : o.Declared) (hne : o ≠ allow) :
    allowWithConstraints.restrictiveness ≤ o.restrictiveness := by
  cases o with
  | allow => exact absurd rfl hne
  | undeclared => cases h
  | _ => decide

/-- Different outcomes differ in their restrictiveness. -/
theorem restrictiveness_injective : Function.Injective restrictiveness := by
  intro o o' h
  cases o <;> cases o' <;> simp only [restrictiveness] at h <;> first | rfl | omega | skip
  subst h
  rfl

end PolicyOutcome

/-- The rule names no outcome or a declared one, and it gives a reason. -/
structure PolicyRule.Proper (rule : PolicyRule) (ctx : PolicyContext) : Prop where
  declared : ∀ o, (rule.evaluate ctx).outcome = some o → o.Declared
  reason_ne : (rule.evaluate ctx).reason ≠ ""

/-- The floor, and how restrictive the outcomes are that the rules name. -/
def restrictions (rules : List PolicyRule) (ctx : PolicyContext) : Set Int :=
  {n | n = PolicyOutcome.allowWithConstraints.restrictiveness ∨
    ∃ rule ∈ rules, ∃ o, (rule.evaluate ctx).outcome = some o ∧ o.restrictiveness = n}

theorem restrictions_mono {rules rules' : List PolicyRule} (h : rules ⊆ rules')
    (ctx : PolicyContext) : restrictions rules ctx ⊆ restrictions rules' ctx := by
  rintro n (hn | ⟨rule, hrule, hnames⟩)
  · exact .inl hn
  · exact .inr ⟨rule, h hrule, hnames⟩

/-! ### The loop -/

section Loop

variable {ctx : PolicyContext}

theorem evals_foldl (rules : List PolicyRule) (acc : PolicyScan) :
    (rules.foldl (PolicyScan.step ctx) acc).evals
      = acc.evals ++ rules.map fun rule => rule.evaluate ctx := by
  induction rules generalizing acc with
  | nil => exact (List.append_nil _).symm
  | cons rule rules ih =>
    have hstep : (acc.step ctx rule).evals = acc.evals ++ [rule.evaluate ctx] := by
      cases ho : (rule.evaluate ctx).outcome with
      | none => rw [PolicyScan.step_of_none ho]
      | some o =>
        rw [PolicyScan.step_of_some ho]
        split <;> rfl
    rw [List.foldl_cons, ih, hstep, List.append_assoc, List.map_cons]
    rfl

/-- The scan holds what the first of the most restrictive rules says. -/
def FirstOfMost (ctx : PolicyContext) (rules : List PolicyRule) (scan : PolicyScan) : Prop :=
  ∃ before rule after, rules = before ++ rule :: after ∧
    (rule.evaluate ctx).outcome = some scan.mostRestrictive ∧
    scan.reason = (rule.evaluate ctx).reason ∧
    ∀ rule' ∈ before, ∀ o, (rule'.evaluate ctx).outcome = some o →
      o.restrictiveness < scan.mostRestrictive.restrictiveness

theorem FirstOfMost.concat {rules : List PolicyRule} {scan : PolicyScan}
    (h : FirstOfMost ctx rules scan) (rule : PolicyRule) (evals : List RuleEvaluation) :
    FirstOfMost ctx (rules ++ [rule]) { scan with evals := evals } := by
  obtain ⟨before, r, after, rfl, hnames, hreason, hbefore⟩ := h
  refine ⟨before, r, after ++ [rule], ?_, hnames, hreason, hbefore⟩
  rw [List.append_assoc, List.cons_append]

/-- From the right: the last rule is taken only if it is more restrictive than all before it. -/
theorem firstOfMost_foldl (rules : List PolicyRule) (acc : PolicyScan)
    (hmoved : (rules.foldl (PolicyScan.step ctx) acc).mostRestrictive ≠ acc.mostRestrictive) :
    FirstOfMost ctx rules (rules.foldl (PolicyScan.step ctx) acc) := by
  induction rules using List.reverseRecOn with
  | nil => exact absurd rfl hmoved
  | append_singleton rules rule ih =>
    rw [List.foldl_append, List.foldl_cons, List.foldl_nil] at hmoved ⊢
    cases ho : (rule.evaluate ctx).outcome with
    | none =>
      rw [PolicyScan.step_of_none ho] at hmoved ⊢
      exact (ih hmoved).concat rule _
    | some o =>
      rw [PolicyScan.step_of_some ho] at hmoved ⊢
      by_cases hlt : (rules.foldl (PolicyScan.step ctx) acc).mostRestrictive.restrictiveness
          < o.restrictiveness
      · -- strictly: a later rule that is as restrictive does not take the reason over
        rw [if_pos hlt]
        refine ⟨rules, rule, [], rfl, ho, rfl, fun rule' hrule' o' ho' => ?_⟩
        exact lt_of_le_of_lt
          ((PolicyScan.selects_foldl ctx rules acc).bound rule' hrule' o' ho') hlt
      · rw [if_neg hlt] at hmoved ⊢
        exact (ih hmoved).concat rule _

end Loop

/-! ### The result -/

section Result

variable {rules : List PolicyRule} {ctx : PolicyContext}

/-- The outcome is the most restrictive of the floor and what the rules name. -/
theorem isGreatest_outcome (hproper : ∀ rule ∈ rules, rule.Proper ctx) :
    IsGreatest (restrictions rules ctx)
      (Policy.evaluatePolicy rules ctx).outcome.restrictiveness := by
  have hscan := selects_policyScan rules ctx
  rw [evaluatePolicy_floor]
  by_cases hallow : (policyScan rules ctx).mostRestrictive = .allow
  · -- no rule names more than allow, and the floor is above that
    rw [if_pos hallow]
    refine ⟨.inl rfl, ?_⟩
    rintro n (hn | ⟨rule, hrule, o, ho, hn⟩)
    · exact hn.le
    · have hle := hscan.bound rule hrule o ho
      rw [hallow, hn] at hle
      exact hle.trans (by decide)
  · rw [if_neg hallow]
    obtain ⟨hmost, -⟩ | ⟨rule, hrule, hnames, -⟩ := hscan.source
    · exact absurd hmost hallow
    have hpos := ((hproper rule hrule).declared _ hnames).floor_le hallow
    refine ⟨.inr ⟨rule, hrule, _, hnames, rfl⟩, ?_⟩
    rintro n (rfl | ⟨rule', hrule', o, ho, rfl⟩)
    · exact hpos
    · exact hscan.bound rule' hrule' o ho

/-- The reason is that of the first of the most restrictive rules. -/
theorem reason_eq {rule : PolicyRule} (hrule : rule ∈ rules) {o : PolicyOutcome}
    (ho : (rule.evaluate ctx).outcome = some o)
    (hfloor : PolicyOutcome.allowWithConstraints.restrictiveness ≤ o.restrictiveness) :
    ∃ before rule after, rules = before ++ rule :: after ∧
      (rule.evaluate ctx).outcome = some (Policy.evaluatePolicy rules ctx).outcome ∧
      (Policy.evaluatePolicy rules ctx).reason = (rule.evaluate ctx).reason ∧
      ∀ rule' ∈ before, ∀ o, (rule'.evaluate ctx).outcome = some o →
        o.restrictiveness < (Policy.evaluatePolicy rules ctx).outcome.restrictiveness := by
  have hmoved : (policyScan rules ctx).mostRestrictive ≠ .allow := by
    intro hallow
    have hle := (selects_policyScan rules ctx).bound rule hrule o ho
    rw [hallow] at hle
    exact absurd (hfloor.trans hle) (by decide)
  have hfirst := firstOfMost_foldl rules ⟨.allow, [], ""⟩ hmoved
  rw [evaluatePolicy_floor, evaluatePolicy_reason, if_neg hmoved, if_neg hmoved]
  exact hfirst

theorem constraints_ne_nil_iff :
    (Policy.evaluatePolicy rules ctx).constraints ≠ [] ↔
      (Policy.evaluatePolicy rules ctx).outcome = .allowWithConstraints := by
  rw [evaluatePolicy_constraints]
  split
  · next h => exact iff_of_true (List.cons_ne_nil _ _) h
  · next h => exact iff_of_false (fun hne => hne rfl) h

theorem approvalRequirement_isSome_iff :
    (Policy.evaluatePolicy rules ctx).approvalRequirement.isSome ↔
      (Policy.evaluatePolicy rules ctx).outcome = .requireApproval := by
  rw [evaluatePolicy_approvalRequirement]
  split
  · next h => exact iff_of_true rfl h
  · next h => exact iff_of_false Bool.false_ne_true h

/-- A result of proper rules makes a decision. -/
theorem newPolicyDecision_evaluatePolicy (hproper : ∀ rule ∈ rules, rule.Proper ctx)
    (id : PolicyDecisionID) (taskID : TaskID) {action : String} (haction : action ≠ "")
    (now : Timestamp) :
    ∃ pd, newPolicyDecision id taskID action (Policy.evaluatePolicy rules ctx).outcome
      (Policy.evaluatePolicy rules ctx).constraints
      (Policy.evaluatePolicy rules ctx).approvalRequirement
      (Policy.evaluatePolicy rules ctx).rulesEvaluated
      (Policy.evaluatePolicy rules ctx).reason now = .ok pd := by
  have hreason : (Policy.evaluatePolicy rules ctx).reason ≠ "" := by
    rw [evaluatePolicy_reason]
    split
    · decide
    · next hmoved =>
      obtain ⟨before, rule, after, hsplit, -, hreason, -⟩ :=
        firstOfMost_foldl rules ⟨.allow, [], ""⟩ hmoved
      have hmem : rule ∈ rules := by
        rw [hsplit]
        exact List.mem_append_cons_self
      change (rules.foldl (PolicyScan.step ctx) _).reason ≠ ""
      rw [hreason]
      exact (hproper rule hmem).reason_ne
  have hconstraints : ¬((Policy.evaluatePolicy rules ctx).outcome = .allowWithConstraints ∧
      (Policy.evaluatePolicy rules ctx).constraints.length = 0) := by
    rintro ⟨houtcome, hlength⟩
    exact constraints_ne_nil_iff.mpr houtcome (List.length_eq_zero_iff.mp hlength)
  have happroval : ¬((Policy.evaluatePolicy rules ctx).outcome = .requireApproval ∧
      (Policy.evaluatePolicy rules ctx).approvalRequirement = none) := by
    rintro ⟨houtcome, hnone⟩
    have hsome := approvalRequirement_isSome_iff.mpr houtcome
    rw [hnone] at hsome
    cases hsome
  rw [newPolicyDecision, if_neg haction, if_neg hreason, if_neg hconstraints, if_neg happroval]
  exact ⟨_, rfl⟩

end Result

/-- **The most restrictive rule wins**, for every list of rules that name declared outcomes and give
reasons. The restrictiveness of the outcome is the greatest of the floor and the rules; the outcome
does not depend on the order of the rules or on repetitions, and more rules do not make it less
restrictive; every rule is reported, in order; a rule at or above the floor explains the outcome,
the first one that attains it; constraints and approval come with their outcomes only; and a
decision can be made for every action that is not empty. -/
theorem policy_most_restrictive_wins (rules : List PolicyRule) (ctx : PolicyContext)
    (hproper : ∀ rule ∈ rules, rule.Proper ctx) :
    IsGreatest (restrictions rules ctx)
      (Policy.evaluatePolicy rules ctx).outcome.restrictiveness ∧
    (∀ rules' : List PolicyRule, (∀ rule, rule ∈ rules' ↔ rule ∈ rules) →
      (Policy.evaluatePolicy rules' ctx).outcome = (Policy.evaluatePolicy rules ctx).outcome) ∧
    (∀ rules' : List PolicyRule, (∀ rule ∈ rules', rule.Proper ctx) → rules ⊆ rules' →
      (Policy.evaluatePolicy rules ctx).outcome.restrictiveness
        ≤ (Policy.evaluatePolicy rules' ctx).outcome.restrictiveness) ∧
    (Policy.evaluatePolicy rules ctx).rulesEvaluated = rules.map (fun rule => rule.evaluate ctx) ∧
    ((∃ rule ∈ rules, ∃ o, (rule.evaluate ctx).outcome = some o ∧
        PolicyOutcome.allowWithConstraints.restrictiveness ≤ o.restrictiveness) →
      ∃ before rule after, rules = before ++ rule :: after ∧
        (rule.evaluate ctx).outcome = some (Policy.evaluatePolicy rules ctx).outcome ∧
        (Policy.evaluatePolicy rules ctx).reason = (rule.evaluate ctx).reason ∧
        ∀ rule' ∈ before, ∀ o, (rule'.evaluate ctx).outcome = some o →
          o.restrictiveness < (Policy.evaluatePolicy rules ctx).outcome.restrictiveness) ∧
    ((Policy.evaluatePolicy rules ctx).constraints ≠ [] ↔
      (Policy.evaluatePolicy rules ctx).outcome = .allowWithConstraints) ∧
    ((Policy.evaluatePolicy rules ctx).approvalRequirement.isSome ↔
      (Policy.evaluatePolicy rules ctx).outcome = .requireApproval) ∧
    ∀ id taskID action now, action ≠ "" →
      ∃ pd, newPolicyDecision id taskID action (Policy.evaluatePolicy rules ctx).outcome
        (Policy.evaluatePolicy rules ctx).constraints
        (Policy.evaluatePolicy rules ctx).approvalRequirement
        (Policy.evaluatePolicy rules ctx).rulesEvaluated
        (Policy.evaluatePolicy rules ctx).reason now = .ok pd := by
  have hgreatest := isGreatest_outcome hproper
  refine ⟨hgreatest, fun rules' hsame => ?_, fun rules' hproper' hsub => ?_, ?_,
    fun ⟨rule, hrule, o, ho, hfloor⟩ => reason_eq hrule ho hfloor, constraints_ne_nil_iff,
    approvalRequirement_isSome_iff, fun id taskID action now haction =>
      newPolicyDecision_evaluatePolicy hproper id taskID haction now⟩
  · -- the greatest element depends on the set of rules only
    have hgreatest' := isGreatest_outcome fun rule hrule => hproper rule ((hsame rule).mp hrule)
    have hset : restrictions rules' ctx = restrictions rules ctx := by
      apply Set.Subset.antisymm
      · exact restrictions_mono (fun rule => (hsame rule).mp) ctx
      · exact restrictions_mono (fun rule => (hsame rule).mpr) ctx
    rw [hset] at hgreatest'
    exact PolicyOutcome.restrictiveness_injective (hgreatest'.unique hgreatest)
  · exact (isGreatest_outcome hproper').2 (restrictions_mono hsub ctx hgreatest.1)
  · exact evals_foldl rules ⟨.allow, [], ""⟩

/-- The default rules are proper in every context. -/
theorem defaultRules_proper {rule : PolicyRule} (hrule : rule ∈ defaultRules)
    (ctx : PolicyContext) : rule.Proper ctx := by
  refine ⟨fun o ho => ?_, fun hempty => ?_⟩
  · rcases defaultRules_outcome hrule ho with ⟨rfl, -⟩ | ⟨rfl, -⟩ | rfl
    · trivial
    · trivial
    · trivial
  · have hblank := defaultRules_reason hrule ctx
    rw [hempty] at hblank
    exact absurd hblank (by decide)

/-- A deployment that deletes data: one default rule asks for an approval, and one denies. -/
def deletingRelease : PolicyContext :=
  ⟨⟨⟨"t"⟩, none, .deployment, "release", .file, .normal, .low, .created, [], 0, 0⟩, "data_deletion"⟩

theorem deletingRelease_denied :
    (∀ rule ∈ defaultRules, rule.Proper deletingRelease) ∧
      (Policy.evaluatePolicy defaultRules deletingRelease).outcome = .deny ∧
      IsGreatest (restrictions defaultRules deletingRelease)
        (Policy.evaluatePolicy defaultRules deletingRelease).outcome.restrictiveness :=
  ⟨fun _ hrule => defaultRules_proper hrule _, by decide,
    (policy_most_restrictive_wins defaultRules deletingRelease
      fun _ hrule => defaultRules_proper hrule _).1⟩

end Governance

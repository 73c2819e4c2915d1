import GovernanceCore.Domain.Task

/-!
# Policy rules, their aggregation, and policy decisions

`internal/domain/policy`: a rule reads a task and an action and may name an outcome; the evaluator
takes the most restrictive one; a decision is the validated result.
-/

namespace Governance

/-- `PolicyOutcome`, an `int` whose declared values are `0` to `3`. An undeclared value carries the
proof that it is none of these, so no outcome has two representations. -/
inductive PolicyOutcome where
  | allow | allowWithConstraints | requireApproval | deny
  | undeclared (code : Int) (h : code < 0 ∨ 3 < code)
  deriving DecidableEq

namespace PolicyOutcome

/-- `PolicyOutcome.String`. -/
def text : PolicyOutcome → String
  | allow => "allow"
  | allowWithConstraints => "allow_with_constraints"
  | requireApproval => "require_approval"
  | deny => "deny"
  | undeclared _ _ => "unknown"

/-- `Restrictiveness`. -/
def restrictiveness : PolicyOutcome → Int
  | allow => 0
  | allowWithConstraints => 1
  | requireApproval => 2
  | deny => 3
  | undeclared code _ => code

end PolicyOutcome

/-- `PolicyConstraint`. -/
structure PolicyConstraint where
  type : String
  value : String
  reason : String
  deriving DecidableEq, Repr

/-- `ApprovalRequirement`. -/
structure ApprovalRequirement where
  approverRole : String
  reason : String
  timeoutSecs : Option Int := none
  deriving DecidableEq, Repr

/-- `RuleEvaluation`. -/
structure RuleEvaluation where
  ruleID : String
  passed : Bool
  outcome : Option PolicyOutcome
  reason : String
  deriving DecidableEq

/-- `PolicyContext`. -/
structure PolicyContext where
  task : Task
  action : String

/-- `PolicyRule`: its id and its evaluation. -/
structure PolicyRule where
  id : String
  evaluate : PolicyContext → RuleEvaluation

/-- A rule that names `outcome` with `hit` when `cond` holds, and no outcome with `miss` else.
`passed` is the flag it reports on a hit. -/
def conditionRule (id : String) (cond : PolicyContext → Bool) (passed : Bool)
    (outcome : PolicyOutcome) (hit miss : String) : PolicyRule where
  id := id
  evaluate ctx :=
    if cond ctx then ⟨id, passed, some outcome, hit⟩ else ⟨id, true, none, miss⟩

def riskCriticalRequiresApproval : PolicyRule :=
  conditionRule "risk_critical_requires_approval" (fun ctx => ctx.task.riskLevel = .critical) false
    .requireApproval "critical risk level requires approval" "risk level is not critical"

def deploymentRequiresApproval : PolicyRule :=
  conditionRule "deployment_requires_approval" (fun ctx => ctx.task.taskType = .deployment) false
    .requireApproval "deployment tasks require approval" "task is not a deployment"

def systemScopeRequiresApproval : PolicyRule :=
  conditionRule "system_scope_requires_approval" (fun ctx => ctx.task.scope = .system) false
    .requireApproval "system scope requires approval" "task scope is not system"

def destructiveActionDeny : PolicyRule :=
  conditionRule "destructive_action_deny" (fun ctx => ctx.action = "data_deletion") false
    .deny "data deletion is denied" "action is not destructive"

/-- The one rule that passes while it names an outcome. -/
def fileScopeLowRiskAllow : PolicyRule :=
  conditionRule "file_scope_low_risk_allow"
    (fun ctx => ctx.task.scope = .file && ctx.task.riskLevel = .low) true
    .allow "file scope with low risk is allowed" "not file scope with low risk"

/-- The one rule with three ends: it does not apply, it is satisfied, it denies. -/
def il2NoApplyWithoutTasksDone : PolicyRule where
  id := "il2_no_apply_without_tasks_done"
  evaluate ctx :=
    if ctx.action ≠ "sdd_apply" then
      ⟨"il2_no_apply_without_tasks_done", true, none, "action is not sdd_apply; IL2 does not apply"⟩
    else if TaskMetadata.stringAt ctx.task.metadata "tasks_phase_status" = "done" then
      ⟨"il2_no_apply_without_tasks_done", true, none, "tasks phase is done; IL2 satisfied"⟩
    else
      ⟨"il2_no_apply_without_tasks_done", false, some .deny,
        "tasks phase not DONE; IL2 blocks sdd_apply until tasks phase status is done"⟩

/-- `DefaultRules`. -/
def defaultRules : List PolicyRule :=
  [riskCriticalRequiresApproval, deploymentRequiresApproval, systemScopeRequiresApproval,
    destructiveActionDeny, fileScopeLowRiskAllow, il2NoApplyWithoutTasksDone]

/-! ### Aggregation -/

/-- `EvaluatorResult` of package `policy`. -/
structure Policy.EvaluatorResult where
  outcome : PolicyOutcome
  constraints : List PolicyConstraint
  approvalRequirement : Option ApprovalRequirement
  rulesEvaluated : List RuleEvaluation
  reason : String
  deriving DecidableEq

/-- The loop variables of `EvaluatePolicy`. -/
structure PolicyScan where
  mostRestrictive : PolicyOutcome
  evals : List RuleEvaluation
  reason : String

/-- One round of the loop: a strictly more restrictive outcome takes over, with its reason. -/
def PolicyScan.step (ctx : PolicyContext) (acc : PolicyScan) (rule : PolicyRule) : PolicyScan :=
  let eval := rule.evaluate ctx
  match eval.outcome with
  | some o =>
    -- a tie keeps the earlier rule's reason
    if acc.mostRestrictive.restrictiveness < o.restrictiveness then
      ⟨o, acc.evals ++ [eval], eval.reason⟩
    else { acc with evals := acc.evals ++ [eval] }
  | none => { acc with evals := acc.evals ++ [eval] }

/-- `EvaluatePolicy` of package `policy`. -/
def Policy.evaluatePolicy (rules : List PolicyRule) (ctx : PolicyContext) :
    Policy.EvaluatorResult :=
  let scan := rules.foldl (PolicyScan.step ctx) ⟨.allow, [], ""⟩
  -- the floor: a bare allow becomes allow_with_constraints
  let (outcome, reason) :=
    if scan.mostRestrictive = .allow then
      (.allowWithConstraints,
        "no rule explicitly allowed; defaulting to allow with timeout constraint")
    else (scan.mostRestrictive, scan.reason)
  { outcome
    constraints := if outcome = .allowWithConstraints then
        [⟨"timeout", "300s", "default timeout constraint"⟩] else []
    approvalRequirement := if outcome = .requireApproval then
        some { approverRole := "human", reason } else none
    rulesEvaluated := scan.evals
    reason }

/-- What the loop may hold after `rules`: the most restrictive outcome that a rule names, with the
reason of a rule that names it, or what it began with. -/
structure PolicyScan.Selects (ctx : PolicyContext) (rules : List PolicyRule)
    (acc scan : PolicyScan) : Prop where
  source : scan.mostRestrictive = acc.mostRestrictive ∧ scan.reason = acc.reason ∨
    ∃ rule ∈ rules, (rule.evaluate ctx).outcome = some scan.mostRestrictive ∧
      scan.reason = (rule.evaluate ctx).reason
  ge : acc.mostRestrictive.restrictiveness ≤ scan.mostRestrictive.restrictiveness
  bound : ∀ rule ∈ rules, ∀ o, (rule.evaluate ctx).outcome = some o →
    o.restrictiveness ≤ scan.mostRestrictive.restrictiveness

namespace PolicyScan

variable {ctx : PolicyContext} {rule : PolicyRule} {rest : List PolicyRule} {acc : PolicyScan}

theorem step_of_none (h : (rule.evaluate ctx).outcome = none) :
    acc.step ctx rule = { acc with evals := acc.evals ++ [rule.evaluate ctx] } := by
  simp only [step, h]

theorem step_of_some {o : PolicyOutcome} (h : (rule.evaluate ctx).outcome = some o) :
    acc.step ctx rule =
      if acc.mostRestrictive.restrictiveness < o.restrictiveness then
        ⟨o, acc.evals ++ [rule.evaluate ctx], (rule.evaluate ctx).reason⟩
      else { acc with evals := acc.evals ++ [rule.evaluate ctx] } := by
  simp only [step, h]

/-- One round keeps what it has, or takes what the rule names. -/
theorem selects_step (ctx : PolicyContext) (rule : PolicyRule) (acc : PolicyScan) :
    Selects ctx [rule] acc (acc.step ctx rule) := by
  cases ho : (rule.evaluate ctx).outcome with
  | none =>
    rw [step_of_none ho]
    refine ⟨Or.inl ⟨rfl, rfl⟩, le_rfl, fun r hr o h => ?_⟩
    obtain rfl := List.mem_singleton.mp hr
    rw [ho] at h
    cases h
  | some o =>
    rw [step_of_some ho]
    by_cases hlt : acc.mostRestrictive.restrictiveness < o.restrictiveness
    · rw [if_pos hlt]
      refine ⟨Or.inr ⟨rule, List.mem_singleton_self _, ho, rfl⟩, hlt.le, fun r hr o' h => ?_⟩
      obtain rfl := List.mem_singleton.mp hr
      obtain rfl := Option.some.inj (ho.symm.trans h)
      exact le_rfl
    · rw [if_neg hlt]
      refine ⟨Or.inl ⟨rfl, rfl⟩, le_rfl, fun r hr o' h => ?_⟩
      obtain rfl := List.mem_singleton.mp hr
      obtain rfl := Option.some.inj (ho.symm.trans h)
      exact not_lt.mp hlt

theorem Selects.cons {mid scan : PolicyScan} (h : Selects ctx [rule] acc mid)
    (h' : Selects ctx rest mid scan) : Selects ctx (rule :: rest) acc scan where
  source := by
    rcases h'.source with ⟨hmost, hreason⟩ | ⟨r, hr, hnames⟩
    · rcases h.source with ⟨hmost₁, hreason₁⟩ | ⟨r, hr, hnames, hreason₁⟩
      · exact Or.inl ⟨hmost.trans hmost₁, hreason.trans hreason₁⟩
      · obtain rfl := List.mem_singleton.mp hr
        refine Or.inr ⟨r, List.mem_cons_self, ?_, hreason.trans hreason₁⟩
        rw [hnames, hmost]
    · exact Or.inr ⟨r, List.mem_cons_of_mem _ hr, hnames⟩
  ge := h.ge.trans h'.ge
  bound := by
    intro r hr o ho
    rcases List.mem_cons.mp hr with rfl | hr
    · exact (h.bound r (List.mem_singleton_self _) o ho).trans h'.ge
    · exact h'.bound r hr o ho

theorem selects_foldl (ctx : PolicyContext) (rules : List PolicyRule) (acc : PolicyScan) :
    Selects ctx rules acc (rules.foldl (step ctx) acc) := by
  induction rules generalizing acc with
  | nil => exact ⟨Or.inl ⟨rfl, rfl⟩, le_rfl, fun _ h => absurd h List.not_mem_nil⟩
  | cons rule rest ih => exact (selects_step ctx rule acc).cons (ih _)

end PolicyScan

section Evaluate

variable (rules : List PolicyRule) (ctx : PolicyContext)

/-- The loop over all rules. -/
def policyScan : PolicyScan := rules.foldl (PolicyScan.step ctx) ⟨.allow, [], ""⟩

theorem selects_policyScan :
    PolicyScan.Selects ctx rules ⟨.allow, [], ""⟩ (policyScan rules ctx) :=
  PolicyScan.selects_foldl ctx rules _

theorem evaluatePolicy_floor :
    (Policy.evaluatePolicy rules ctx).outcome =
      if (policyScan rules ctx).mostRestrictive = .allow then .allowWithConstraints
      else (policyScan rules ctx).mostRestrictive := by
  unfold Policy.evaluatePolicy policyScan
  dsimp only
  split <;> rfl

theorem evaluatePolicy_reason :
    (Policy.evaluatePolicy rules ctx).reason =
      if (policyScan rules ctx).mostRestrictive = .allow then
        "no rule explicitly allowed; defaulting to allow with timeout constraint"
      else (policyScan rules ctx).reason := by
  unfold Policy.evaluatePolicy policyScan
  dsimp only
  split <;> rfl

theorem evaluatePolicy_constraints :
    (Policy.evaluatePolicy rules ctx).constraints =
      if (Policy.evaluatePolicy rules ctx).outcome = .allowWithConstraints then
        [⟨"timeout", "300s", "default timeout constraint"⟩]
      else [] := rfl

theorem evaluatePolicy_approvalRequirement :
    (Policy.evaluatePolicy rules ctx).approvalRequirement =
      if (Policy.evaluatePolicy rules ctx).outcome = .requireApproval then
        some ⟨"human", (Policy.evaluatePolicy rules ctx).reason, none⟩
      else none := rfl

end Evaluate

/-! ### What the default rules decide -/

/-- The action is denied whatever the task is. -/
def Denied (metadata : TaskMetadata) (action : String) : Prop :=
  action = "data_deletion" ∨
    action = "sdd_apply" ∧ metadata.lookup "tasks_phase_status" ≠ some (.string "done")

instance (metadata : TaskMetadata) (action : String) : Decidable (Denied metadata action) :=
  inferInstanceAs (Decidable (_ ∨ _))

/-- The task needs an approval. -/
def NeedsApproval (t : Task) : Prop :=
  t.riskLevel = .critical ∨ t.taskType = .deployment ∨ t.scope = .system

instance (t : Task) : Decidable (NeedsApproval t) := inferInstanceAs (Decidable (_ ∨ _))

/-- The outcome of the default rules. -/
def verdict (t : Task) (action : String) : PolicyOutcome :=
  if Denied t.metadata action then .deny
  else if NeedsApproval t then .requireApproval
  else .allowWithConstraints

section DefaultRules

variable {t : Task} {action : String}

theorem stringAt_eq_done_iff (m : TaskMetadata) :
    m.stringAt "tasks_phase_status" = "done" ↔
      m.lookup "tasks_phase_status" = some (.string "done") := by
  unfold TaskMetadata.stringAt
  split
  · next s h => simp [h]
  · next h =>
    refine ⟨fun hd => absurd hd (by decide), fun hd => absurd hd (h _)⟩

theorem conditionRule_outcome {id : String} {cond : PolicyContext → Bool} {passed : Bool}
    {outcome o : PolicyOutcome} {hit miss : String} {ctx : PolicyContext} :
    ((conditionRule id cond passed outcome hit miss).evaluate ctx).outcome = some o ↔
      cond ctx = true ∧ outcome = o := by
  cases h : cond ctx <;> simp [conditionRule, h]

theorem conditionRule_reason {id : String} {cond : PolicyContext → Bool} {passed : Bool}
    {outcome : PolicyOutcome} {hit miss : String} {ctx : PolicyContext}
    (hhit : isBlank hit = false) (hmiss : isBlank miss = false) :
    isBlank ((conditionRule id cond passed outcome hit miss).evaluate ctx).reason = false := by
  cases h : cond ctx <;> simp [conditionRule, h, hhit, hmiss]

theorem il2NoApplyWithoutTasksDone_outcome {o : PolicyOutcome} :
    (il2NoApplyWithoutTasksDone.evaluate ⟨t, action⟩).outcome = some o ↔
      .deny = o ∧ action = "sdd_apply" ∧
        t.metadata.lookup "tasks_phase_status" ≠ some (.string "done") := by
  rw [ne_eq, ← stringAt_eq_done_iff]
  by_cases haction : action = "sdd_apply"
  · by_cases hdone : t.metadata.stringAt "tasks_phase_status" = "done"
    · simp [il2NoApplyWithoutTasksDone, haction, hdone]
    · simp [il2NoApplyWithoutTasksDone, haction, hdone]
  · simp [il2NoApplyWithoutTasksDone, haction]

theorem il2NoApplyWithoutTasksDone_reason (ctx : PolicyContext) :
    isBlank (il2NoApplyWithoutTasksDone.evaluate ctx).reason = false := by
  unfold il2NoApplyWithoutTasksDone
  dsimp only
  split
  · decide
  · split <;> decide

/-- What a default rule can name, and when. -/
theorem defaultRules_outcome {rule : PolicyRule} (hrule : rule ∈ defaultRules) {o : PolicyOutcome}
    (ho : (rule.evaluate ⟨t, action⟩).outcome = some o) :
    o = .deny ∧ Denied t.metadata action ∨ o = .requireApproval ∧ NeedsApproval t ∨ o = .allow := by
  simp only [defaultRules, List.mem_cons, List.not_mem_nil, or_false] at hrule
  rcases hrule with rfl | rfl | rfl | rfl | rfl | rfl
  · obtain ⟨hcond, rfl⟩ := conditionRule_outcome.mp ho
    exact Or.inr (Or.inl ⟨rfl, Or.inl (of_decide_eq_true hcond)⟩)
  · obtain ⟨hcond, rfl⟩ := conditionRule_outcome.mp ho
    exact Or.inr (Or.inl ⟨rfl, Or.inr (Or.inl (of_decide_eq_true hcond))⟩)
  · obtain ⟨hcond, rfl⟩ := conditionRule_outcome.mp ho
    exact Or.inr (Or.inl ⟨rfl, Or.inr (Or.inr (of_decide_eq_true hcond))⟩)
  · obtain ⟨hcond, rfl⟩ := conditionRule_outcome.mp ho
    exact Or.inl ⟨rfl, Or.inl (of_decide_eq_true hcond)⟩
  · exact Or.inr (Or.inr (conditionRule_outcome.mp ho).2.symm)
  · obtain ⟨rfl, hil2⟩ := il2NoApplyWithoutTasksDone_outcome.mp ho
    exact Or.inl ⟨rfl, Or.inr hil2⟩

/-- Every default rule says why. -/
theorem defaultRules_reason {rule : PolicyRule} (hrule : rule ∈ defaultRules)
    (ctx : PolicyContext) : isBlank (rule.evaluate ctx).reason = false := by
  simp only [defaultRules, List.mem_cons, List.not_mem_nil, or_false] at hrule
  rcases hrule with rfl | rfl | rfl | rfl | rfl | rfl
  · exact conditionRule_reason (by decide) (by decide)
  · exact conditionRule_reason (by decide) (by decide)
  · exact conditionRule_reason (by decide) (by decide)
  · exact conditionRule_reason (by decide) (by decide)
  · exact conditionRule_reason (by decide) (by decide)
  · exact il2NoApplyWithoutTasksDone_reason ctx

theorem exists_rule_deny (h : Denied t.metadata action) :
    ∃ rule ∈ defaultRules, (rule.evaluate ⟨t, action⟩).outcome = some .deny := by
  rcases h with h | h
  · refine ⟨destructiveActionDeny, by simp [defaultRules], ?_⟩
    exact conditionRule_outcome.mpr ⟨decide_eq_true h, rfl⟩
  · refine ⟨il2NoApplyWithoutTasksDone, by simp [defaultRules], ?_⟩
    exact il2NoApplyWithoutTasksDone_outcome.mpr ⟨rfl, h⟩

theorem exists_rule_requireApproval (action : String) (h : NeedsApproval t) :
    ∃ rule ∈ defaultRules, (rule.evaluate ⟨t, action⟩).outcome = some .requireApproval := by
  rcases h with h | h | h
  · refine ⟨riskCriticalRequiresApproval, by simp [defaultRules], ?_⟩
    exact conditionRule_outcome.mpr ⟨decide_eq_true h, rfl⟩
  · refine ⟨deploymentRequiresApproval, by simp [defaultRules], ?_⟩
    exact conditionRule_outcome.mpr ⟨decide_eq_true h, rfl⟩
  · refine ⟨systemScopeRequiresApproval, by simp [defaultRules], ?_⟩
    exact conditionRule_outcome.mpr ⟨decide_eq_true h, rfl⟩

/-- The loop over the default rules. -/
def defaultScan (t : Task) (action : String) : PolicyScan :=
  policyScan defaultRules ⟨t, action⟩

/-- The scan has found an outcome with its reason, or nothing but allowances. -/
theorem defaultScan_source (t : Task) (action : String) :
    (defaultScan t action).mostRestrictive = .deny ∧ Denied t.metadata action ∧
        isBlank (defaultScan t action).reason = false ∨
      (defaultScan t action).mostRestrictive = .requireApproval ∧ NeedsApproval t ∧
        isBlank (defaultScan t action).reason = false ∨
      (defaultScan t action).mostRestrictive = .allow := by
  rcases (selects_policyScan defaultRules ⟨t, action⟩).source with
    ⟨hmost, -⟩ | ⟨rule, hrule, hnames, hreason⟩
  · exact Or.inr (Or.inr hmost)
  · have hblank : isBlank (defaultScan t action).reason = false :=
      (congrArg isBlank hreason).trans (defaultRules_reason hrule _)
    rcases defaultRules_outcome hrule hnames with ⟨hmost, h⟩ | ⟨hmost, h⟩ | hmost
    · exact Or.inl ⟨hmost, h, hblank⟩
    · exact Or.inr (Or.inl ⟨hmost, h, hblank⟩)
    · exact Or.inr (Or.inr hmost)

theorem defaultScan_bound {o : PolicyOutcome}
    (h : ∃ rule ∈ defaultRules, (rule.evaluate ⟨t, action⟩).outcome = some o) :
    o.restrictiveness ≤ (defaultScan t action).mostRestrictive.restrictiveness := by
  obtain ⟨rule, hrule, ho⟩ := h
  exact (selects_policyScan defaultRules ⟨t, action⟩).bound rule hrule o ho

/-- **The verdict of the default rules**, in closed form. -/
theorem evaluatePolicy_outcome (t : Task) (action : String) :
    (Policy.evaluatePolicy defaultRules ⟨t, action⟩).outcome = verdict t action := by
  rw [evaluatePolicy_floor]
  change (if (defaultScan t action).mostRestrictive = .allow then _
    else (defaultScan t action).mostRestrictive) = _
  unfold verdict
  by_cases hdeny : Denied t.metadata action
  · have hge := defaultScan_bound (exists_rule_deny hdeny)
    rw [if_pos hdeny]
    rcases defaultScan_source t action with ⟨h, -⟩ | ⟨h, -⟩ | h
    · rw [h]
      rfl
    · rw [h] at hge
      exact absurd hge (by decide)
    · rw [h] at hge
      exact absurd hge (by decide)
  rw [if_neg hdeny]
  by_cases hneeds : NeedsApproval t
  · have hge := defaultScan_bound (exists_rule_requireApproval action hneeds)
    rw [if_pos hneeds]
    rcases defaultScan_source t action with ⟨-, h, -⟩ | ⟨h, -⟩ | h
    · exact absurd h hdeny
    · rw [h]
      rfl
    · rw [h] at hge
      exact absurd hge (by decide)
  · rw [if_neg hneeds]
    rcases defaultScan_source t action with ⟨-, h, -⟩ | ⟨-, h, -⟩ | h
    · exact absurd h hdeny
    · exact absurd h hneeds
    · rw [h]
      rfl

/-- The result is complete: it has a reason, and what its outcome asks for. -/
theorem evaluatePolicy_complete (t : Task) (action : String) :
    isBlank (Policy.evaluatePolicy defaultRules ⟨t, action⟩).reason = false ∧
      ((Policy.evaluatePolicy defaultRules ⟨t, action⟩).outcome = .allowWithConstraints →
        (Policy.evaluatePolicy defaultRules ⟨t, action⟩).constraints.length ≠ 0) ∧
      ((Policy.evaluatePolicy defaultRules ⟨t, action⟩).outcome = .requireApproval →
        (Policy.evaluatePolicy defaultRules ⟨t, action⟩).approvalRequirement ≠ none) := by
  refine ⟨?_, ?_, ?_⟩
  · have hsource := defaultScan_source t action
    unfold defaultScan at hsource
    rw [evaluatePolicy_reason]
    split
    · decide
    · next hne =>
      rcases hsource with ⟨-, -, h⟩ | ⟨-, -, h⟩ | h
      · exact h
      · exact h
      · exact absurd h hne
  · intro ho
    rw [evaluatePolicy_constraints, if_pos ho]
    exact Nat.succ_ne_zero _
  · intro ho
    rw [evaluatePolicy_approvalRequirement, if_pos ho]
    exact Option.some_ne_none _

end DefaultRules

/-! ### Decisions -/

/-- The `PolicyDecision` aggregate. -/
structure PolicyDecision where
  id : PolicyDecisionID
  taskID : TaskID
  evaluatedAction : String
  outcome : PolicyOutcome
  constraints : List PolicyConstraint
  approvalRequirement : Option ApprovalRequirement
  rulesEvaluated : List RuleEvaluation
  reason : String
  createdAt : Timestamp
  deriving DecidableEq

def errEmptyAction : Err := .new "evaluated action must not be empty"
def errMissingConstraints : Err :=
  .new "allow_with_constraints outcome requires at least one constraint"
def errMissingApproval : Err := .new "require_approval outcome requires an approval requirement"
def errEmptyPolicyReason : Err := .new "reason must not be empty"

/-- `NewPolicyDecision`. -/
def newPolicyDecision (id : PolicyDecisionID) (taskID : TaskID) (evaluatedAction : String)
    (outcome : PolicyOutcome) (constraints : List PolicyConstraint)
    (approvalRequirement : Option ApprovalRequirement) (rulesEvaluated : List RuleEvaluation)
    (reason : String) (createdAt : Timestamp) : Except Err PolicyDecision :=
  if evaluatedAction = "" then .error errEmptyAction
  else if reason = "" then .error errEmptyPolicyReason
  else if outcome = .allowWithConstraints ∧ constraints.length = 0 then .error errMissingConstraints
  else if outcome = .requireApproval ∧ approvalRequirement = none then .error errMissingApproval
  else .ok
    { id, taskID, evaluatedAction, outcome, constraints, approvalRequirement, rulesEvaluated,
      reason, createdAt }

theorem action_ne_of_newPolicyDecision {id : PolicyDecisionID} {taskID : TaskID} {action : String}
    {outcome : PolicyOutcome} {constraints : List PolicyConstraint}
    {req : Option ApprovalRequirement} {evals : List RuleEvaluation} {reason : String}
    {now : Timestamp} {pd : PolicyDecision}
    (h : newPolicyDecision id taskID action outcome constraints req evals reason now = .ok pd) :
    action ≠ "" := by
  intro hempty
  rw [newPolicyDecision, if_pos hempty] at h
  cases h

/-- An accepted decision is the one asked for. -/
theorem newPolicyDecision_eq_ok {id : PolicyDecisionID} {taskID : TaskID} {action : String}
    {outcome : PolicyOutcome} {constraints : List PolicyConstraint}
    {req : Option ApprovalRequirement} {evals : List RuleEvaluation} {reason : String}
    {now : Timestamp} {pd : PolicyDecision}
    (h : newPolicyDecision id taskID action outcome constraints req evals reason now = .ok pd) :
    pd = ⟨id, taskID, action, outcome, constraints, req, evals, reason, now⟩ := by
  unfold newPolicyDecision at h
  split at h
  · cases h
  split at h
  · cases h
  split at h
  · cases h
  split at h
  · cases h
  · exact (Except.ok.inj h).symm

end Governance

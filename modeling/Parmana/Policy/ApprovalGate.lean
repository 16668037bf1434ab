import Parmana.Policy.WellFormed

/-! # Approve rules and signed approvals

`validateEveryApprovalNeedsSignedApproval` means to let a policy through only if
every approve rule requires one of the policy's approval signals, as its whole
condition or directly inside its top-level `all`; then a request whose approval
signals are all false can never be approved.

The check looks at the members `fact` and `all` of a condition, whatever else
the condition has.  The engine reads `fact` first and `always` second, so a
condition that has one of these *beside* its `all` passes the check by its `all`
and is evaluated without it.  **The gate holds on every request except those
that such a rule approves** (`approvalSignalled_iff`).
-/
namespace Parmana.Policy
open Js

/-- Some declared approval signal is `true`. -/
def ApprovalSignalled (policy : Json) (signals : Fields) : Prop :=
  ∃ key ∈ approvalKeys policy, JsValue.getFields signals key = .json (.bool true)

/-- The condition of a rule is `c`. -/
def HasCondition (rule c : Json) : Prop := (JsValue.json rule).get "condition" = .json c

/-- `rule` is the first rule of the policy whose condition the signals satisfy. -/
def FirstToHold (re : RegExp) (signals : Fields) (policy rule : Json) : Prop :=
  ∃ before after,
    (JsValue.json policy).get "rules" = .json (.arr (before ++ rule :: after)) ∧
    (∀ r ∈ before, ∃ c, HasCondition r c ∧
      PolicyEngine.evaluateCondition re signals c = .ok false) ∧
    ∃ c, HasCondition rule c ∧ PolicyEngine.evaluateCondition re signals c = .ok true

/-- `rule.outcome.action === "approve"`. -/
def IsApproveRule (rule : Json) : Prop :=
  ((JsValue.json rule).get "outcome").get "action" = .json (.str "approve")

/-- The rule's condition has a `fact` or an `always` beside its `all`. -/
def ReadsPastAll (rule : Json) : Prop :=
  ∃ fs, HasCondition rule (.obj fs) ∧ Fields.has fs "all" = true ∧
    (Fields.has fs "fact" = true ∨ Fields.has fs "always" = true)

/-! ## What the gate checks -/

/-- A leaf that holds exactly when an approval signal is true. -/
def ApprovalLeaf (approvalFacts : List JsString) (c : Json) : Prop :=
  ∃ fs key, c = .obj fs ∧ Fields.own? fs "fact" = some (.str key) ∧ key ∈ approvalFacts ∧
    Fields.own? fs "operator" = some (.str "is_true")

theorem isApprovalLeaf_true {facts : List JsString} {c : Json}
    (h : isApprovalLeaf facts c = .ok true) : ApprovalLeaf facts c := by
  cases c with
  | obj fs =>
    simp only [isApprovalLeaf, Except.ok.injEq, Bool.and_eq_true, List.any_eq_true] at h
    obtain ⟨⟨-, hop⟩, key, hkey, hfact⟩ := h
    exact ⟨fs, key, rfl, JsValue.getFields_eq_json.mp (JsValue.eq_of_strictEq (by simp) hfact), hkey,
      JsValue.getFields_eq_json.mp (JsValue.eq_of_strictEq (by simp) hop)⟩
  | _ => cases h

theorem someApprovalLeaf_true {facts : List JsString} {xs : List Json}
    (h : someApprovalLeaf facts xs = .ok true) : ∃ x ∈ xs, ApprovalLeaf facts x := by
  induction xs with
  | nil => cases h
  | cons x xs ih =>
    rw [someApprovalLeaf] at h
    obtain ⟨b, hx, h⟩ := bind_eq_ok.mp h
    cases b with
    | true => exact ⟨x, List.mem_cons_self .., isApprovalLeaf_true hx⟩
    | false =>
      obtain ⟨y, hy, hleaf⟩ := ih h
      exact ⟨y, List.mem_cons_of_mem _ hy, hleaf⟩

/-- What the gate establishes of a condition: it is an approval leaf, or its
`all` has one. -/
theorem isGated_true {facts : List JsString} {c : Json} (h : isGated facts c = .ok true) :
    ApprovalLeaf facts c ∨
      ∃ fs xs, c = .obj fs ∧ Fields.own? fs "all" = some (.arr xs) ∧
        ∃ x ∈ xs, ApprovalLeaf facts x := by
  unfold isGated at h
  obtain ⟨b, hb, h⟩ := bind_eq_ok.mp h
  cases b with
  | true => exact .inl (isApprovalLeaf_true hb)
  | false =>
    refine .inr ?_
    cases c with
    | obj fs =>
      rw [if_neg Bool.false_ne_true] at h
      dsimp only at h
      split at h
      · split at h
        · rename_i xs hxs
          exact ⟨fs, xs, rfl, JsValue.getFields_eq_json.mp hxs, someApprovalLeaf_true h⟩
        · cases h
      · cases h
    | _ => cases h

theorem validateApproveRules_ok {facts : List JsString} {rules : List Json}
    (h : validateApproveRules facts rules = .ok ()) :
    ∀ rule ∈ rules, validateApproveRule facts rule = .ok () := by
  induction rules with
  | nil => exact fun _ hr => absurd hr List.not_mem_nil
  | cons rule rules ih =>
    rw [validateApproveRules] at h
    obtain ⟨⟨⟩, hrule, hrules⟩ := bind_eq_ok.mp h
    exact List.forall_mem_cons.mpr ⟨hrule, ih hrules⟩

theorem AcceptedRule.gated {re : RegExp} {facts : List JsString} {r : AcceptedRule re}
    (h : validateApproveRule facts r.document = .ok ())
    (ha : r.action = .json (.str "approve")) : isGated facts r.condition = .ok true := by
  unfold validateApproveRule AcceptedRule.document at h
  simp only [JsValue.member_own r.own_outcome, ok_bind] at h
  obtain ⟨action, haction, h⟩ := bind_eq_ok.mp h
  have heq : action = .json (.str "approve") := (JsValue.member_ok haction).symm.trans ha
  rw [if_pos (by rw [heq]; rfl)] at h
  simp only [JsValue.jsonMember_own r.own_condition, ok_bind] at h
  obtain ⟨b, hb, h⟩ := bind_eq_ok.mp h
  cases b with
  | true => exact hb
  | false =>
    rw [if_neg Bool.false_ne_true] at h
    simp only [bind_eq_ok] at h
    obtain ⟨_, -, _, -, h⟩ := h
    cases h

/-! ## What the gate gives -/

/-- An approval leaf that the signals satisfy reads a true approval signal. -/
theorem ApprovalLeaf.signalled {re : RegExp} {signals : Fields} {facts : List JsString} {c : Json}
    (hleaf : ApprovalLeaf facts c)
    (h : PolicyEngine.evaluateCondition re signals c = .ok true) :
    ∃ key ∈ facts, JsValue.getFields signals key = .json (.bool true) := by
  obtain ⟨fs, key, rfl, hfact, hkey, hop⟩ := hleaf
  refine ⟨key, hkey, ?_⟩
  rw [PolicyEngine.evaluateCondition_fact signals (by rw [Fields.has, hfact]; rfl),
    PolicyEngine.evaluateLeaf_eq signals hfact] at h
  split at h
  · cases h
  · rw [OperatorEvaluator.evaluate, JsValue.getFields_own hop] at h
    exact (OperatorEvaluator.evaluateSupported_isTrue re _ _).mp h

/-- Every child of an `every` that holds, holds. -/
theorem everyChild_true {re : RegExp} {signals : Fields} {xs : List Json}
    (h : PolicyEngine.everyChild re signals xs = .ok true) :
    ∀ x ∈ xs, PolicyEngine.evaluateCondition re signals x = .ok true := by
  induction xs with
  | nil => exact fun _ hx => absurd hx List.not_mem_nil
  | cons x xs ih =>
    rw [PolicyEngine.everyChild] at h
    obtain ⟨b, hx, h⟩ := bind_eq_ok.mp h
    cases b with
    | true => exact List.forall_mem_cons.mpr ⟨hx, ih h⟩
    | false => cases h

/-- A gated condition that is read by its `all`, and that the signals satisfy,
needs a true approval signal. -/
theorem signalled_of_gated {re : RegExp} {signals : Fields} {facts : List JsString} {c : Json}
    (hgated : isGated facts c = .ok true)
    (hread : ∀ fs, c = .obj fs → Fields.has fs "all" = true →
      Fields.has fs "fact" = false ∧ Fields.has fs "always" = false)
    (h : PolicyEngine.evaluateCondition re signals c = .ok true) :
    ∃ key ∈ facts, JsValue.getFields signals key = .json (.bool true) := by
  rcases isGated_true hgated with hleaf | ⟨fs, xs, rfl, hall, x, hx, hleaf⟩
  · exact hleaf.signalled h
  · obtain ⟨hfact, halways⟩ := hread fs rfl (by rw [Fields.has, hall]; rfl)
    rw [PolicyEngine.evaluateCondition_all signals hfact halways hall] at h
    exact hleaf.signalled (everyChild_true h x hx)

section Accepted
variable {re : RegExp} {signals : Fields}

theorem AcceptedRule.hasCondition_iff (r : AcceptedRule re) {c : Json} :
    HasCondition r.document c ↔ c = r.condition := by
  have hget : (JsValue.json r.document).get "condition" = .json r.condition :=
    JsValue.getFields_own r.own_condition
  rw [HasCondition, hget, JsValue.json.injEq]
  exact eq_comm

theorem AcceptedRule.isApproveRule_iff (r : AcceptedRule re) :
    IsApproveRule r.document ↔ r.action = .json (.str "approve") := by
  have hget : (JsValue.json r.document).get "outcome" = .json (.obj r.outcome) :=
    JsValue.getFields_own r.own_outcome
  rw [IsApproveRule, hget]
  exact Iff.rfl

theorem AcceptedRule.holds_iff (r : AcceptedRule re) {b : Bool} :
    (∃ c, HasCondition r.document c ∧
      PolicyEngine.evaluateCondition re signals c = .ok b) ↔ r.holds signals = b := by
  constructor
  · rintro ⟨c, hc, hb⟩
    rw [r.hasCondition_iff.mp hc, r.evaluate_eq] at hb
    exact Except.ok.inj hb
  · intro h
    exact ⟨r.condition, r.hasCondition_iff.mpr rfl, by rw [r.evaluate_eq, h]⟩

/-- The first rule the engine finds is the first to hold in the document. -/
theorem AcceptedPolicy.firstToHold_iff (p : AcceptedPolicy re) {rule : Json} :
    FirstToHold re signals p.document rule ↔
      ∃ r, p.rules.find? (·.holds signals) = some r ∧ r.document = rule := by
  have hrules : (JsValue.json p.document).get "rules" =
      .json (.arr (p.rules.map AcceptedRule.document)) := JsValue.getFields_own p.own_rules
  simp only [FirstToHold, hrules, JsValue.json.injEq, Json.arr.injEq, List.find?_eq_some_iff_append]
  constructor
  · rintro ⟨before, after, hsplit, hbefore, hrule⟩
    obtain ⟨rs, rest, hrs, rfl, hrest⟩ := List.map_eq_append_iff.mp hsplit
    obtain ⟨r, after', rfl, rfl, rfl⟩ := List.map_eq_cons_iff.mp hrest
    refine ⟨r, ⟨r.holds_iff.mp hrule, rs, after', hrs, fun a ha => ?_⟩, rfl⟩
    simpa using a.holds_iff.mp (hbefore _ (List.mem_map_of_mem ha))
  · rintro ⟨r, ⟨hr, rs, rest, hrs, hbefore⟩, rfl⟩
    refine ⟨rs.map AcceptedRule.document, rest.map AcceptedRule.document, by simp [hrs],
      List.forall_mem_map.mpr (fun a ha => ?_), r.holds_iff.mpr hr⟩
    exact a.holds_iff.mpr (by simpa using hbefore a ha)

/-- An approval is the outcome of an approve rule that is the first to hold. -/
theorem AcceptedPolicy.approves_iff (p : AcceptedPolicy re) :
    (p.decision signals).outcome = .approve ↔
      ∃ rule, FirstToHold re signals p.document rule ∧ IsApproveRule rule := by
  simp only [p.firstToHold_iff]
  cases hfind : p.rules.find? (·.holds signals) with
  | none =>
    simp [AcceptedPolicy.decision, hfind]
  | some r =>
    have hout : (p.decision signals).outcome = .approve ↔ IsApproveRule r.document := by
      rw [r.isApproveRule_iff]
      simp only [AcceptedPolicy.decision, hfind, Option.elim_some, PolicyEngine.toOutcome]
      split
      · rename_i heq
        simp [JsValue.eq_of_strictEq (by simp) heq]
      · rename_i hne
        refine iff_of_false (by simp) (fun heq => hne ?_)
        rw [heq]
        rfl
    rw [hout]
    refine ⟨fun h => ⟨_, ⟨r, rfl, rfl⟩, h⟩, ?_⟩
    rintro ⟨_, ⟨_, hr, hd⟩, h⟩
    cases hr
    exact hd ▸ h

end Accepted

/-- **An accepted policy approves without a true approval signal exactly when the
first rule to hold is an approve rule whose condition has a `fact` or an `always`
beside its `all`.** -/
theorem approvalSignalled_iff (re : RegExp) (policy : Json) (signals : Fields)
    (h : Accepted re policy) :
    (∀ d, PolicyEngine.evaluate re signals policy = .ok d → d.outcome = .approve →
      ApprovalSignalled policy signals) ↔
    ¬ (¬ ApprovalSignalled policy signals ∧
      ∃ rule, FirstToHold re signals policy rule ∧ IsApproveRule rule ∧ ReadsPastAll rule) := by
  obtain ⟨p, rfl⟩ := h.policy
  constructor
  · rintro hclaim ⟨hnone, rule, hfirst, happrove, -⟩
    exact hnone (hclaim _ (p.evaluate_eq signals) (p.approves_iff.mpr ⟨rule, hfirst, happrove⟩))
  · intro hpast d hd hout
    rw [p.evaluate_eq signals] at hd
    cases hd
    by_contra hnone
    obtain ⟨rule, hfirst, happrove⟩ := p.approves_iff.mp hout
    obtain ⟨r, hfind, rfl⟩ := p.firstToHold_iff.mp hfirst
    have hrule := validateApproveRules_ok p.gated r.document
      (List.mem_map_of_mem (List.mem_of_find?_eq_some hfind))
    refine hnone (signalled_of_gated (AcceptedRule.gated hrule (r.isApproveRule_iff.mp happrove))
      (fun fs hfs hall => ?_) ((r.evaluate_eq signals).trans (congrArg _ (List.find?_some hfind))))
    -- Otherwise the rule is one the claim excludes.
    by_contra hread
    refine hpast ⟨hnone, _, hfirst, happrove, fs, r.hasCondition_iff.mpr hfs.symm, hall, ?_⟩
    cases hf : Fields.has fs "fact" with
    | true => exact .inl rfl
    | false =>
      cases ha : Fields.has fs "always" with
      | true => exact .inr rfl
      | false => exact absurd ⟨hf, ha⟩ hread

/-! ## A policy the gate does not hold of -/

/-- A policy with one approve rule that requires the signal `approved`. -/
def singleRulePolicy (condition : Json) : Json :=
  .obj [("policyId", "refunds"), ("policyVersion", "1"), ("schemaVersion", "1"),
    ("approvalSignals", .obj [("approved", .obj [("resourceId", "target")])]),
    ("rules", .arr [.obj [("id", "approve-refund"), ("condition", condition),
      ("outcome", .obj [("action", "approve"), ("reason", "approved")])]])]

/-- `approved is_true`. -/
def approvedLeaf : Json := .obj [("fact", "approved"), ("operator", "is_true")]

/-- An `all` with the approval leaf, and an `always` beside it. -/
def alwaysBesideAll : Json :=
  singleRulePolicy (.obj [("all", .arr [approvedLeaf]), ("always", .bool true)])

/-- A regular expression engine that accepts no pattern; none of these policies
has one. -/
def noPatterns : RegExp := ⟨fun _ => false, fun _ _ => false⟩

theorem alwaysBesideAll_approves_unsigned :
    Accepted noPatterns alwaysBesideAll ∧
      (∃ d, PolicyEngine.evaluate noPatterns [] alwaysBesideAll = .ok d ∧ d.outcome = .approve) ∧
      ∀ key ∈ approvalKeys alwaysBesideAll, JsValue.getFields [] key ≠ .json (.bool true) :=
  ⟨by decide, ⟨_, rfl, rfl⟩, by decide⟩

theorem approvalSignalled_single :
    ApprovalSignalled (singleRulePolicy approvedLeaf) [("approved", .bool true)] :=
  (approvalSignalled_iff noPatterns (singleRulePolicy approvedLeaf) [("approved", .bool true)]
    (by decide)).mpr (fun h => h.1 ⟨"approved", by decide, by decide⟩) _ rfl rfl

end Parmana.Policy

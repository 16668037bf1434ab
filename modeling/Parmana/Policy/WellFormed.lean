import Parmana.Policy.Engine

/-! # What an accepted policy looks like

`validate` is a sequence of tests that throws at the first failure.  Here it is
turned around: a condition it accepts is `WellFormed`, an inductive predicate
that says which member of the condition counts and that everything below it is
well formed again, and a policy it accepts is a `WellFormedPolicy`.  What is
proved later of accepted policies is proved by induction on `WellFormed` and
never unfolds the validator.

The first such result is that the engine never throws on an accepted policy,
whatever the signals are.
-/
namespace Parmana.Policy
open Js

/-! ## Groups -/

theorem validateGroup_eq (re : RegExp) {name : JsString} {fs : Fields} {v : Json}
    (h : Fields.own? fs name = some v) :
    validateGroup re name fs = validateChildren re name v :=
  Fields.search_eq (fun _ _ _ => by rw [validateGroup]) h

theorem walkGroup_eq {name : JsString} {fs : Fields} {v : Json}
    (h : Fields.own? fs name = some v) : walkGroup name fs = walkChildren v :=
  Fields.search_eq (fun _ _ _ => by rw [walkGroup]) h

theorem PolicyEngine.evaluateAll_eq (re : RegExp) (signals : Fields) {fs : Fields} {v : Json}
    (h : Fields.own? fs "all" = some v) :
    evaluateAll re signals fs = evaluateEvery re signals v :=
  Fields.search_eq (fun _ _ _ => by rw [evaluateAll]) h

theorem PolicyEngine.evaluateAny_eq (re : RegExp) (signals : Fields) {fs : Fields} {v : Json}
    (h : Fields.own? fs "any" = some v) :
    evaluateAny re signals fs = evaluateSome re signals v :=
  Fields.search_eq (fun _ _ _ => by rw [evaluateAny]) h

/-! ## Conditions -/

/-- A condition the validator accepts, by the member it reads the condition as. -/
inductive WellFormed (re : RegExp) : Json → Prop where
  | leaf {fs fact op} (hfact : Fields.own? fs "fact" = some (.str fact))
      (hop : PolicyOperator.ofValue? (JsValue.getFields fs "operator") = some op)
      (hpattern : OperatorEvaluator.PatternValid re op (JsValue.getFields fs "value")) :
      WellFormed re (.obj fs)
  | all {fs xs} (hfact : Fields.has fs "fact" = false)
      (hall : Fields.own? fs "all" = some (.arr xs)) (hxs : ∀ x ∈ xs, WellFormed re x) :
      WellFormed re (.obj fs)
  | any {fs xs} (hfact : Fields.has fs "fact" = false) (hall : Fields.has fs "all" = false)
      (hany : Fields.own? fs "any" = some (.arr xs)) (hxs : ∀ x ∈ xs, WellFormed re x) :
      WellFormed re (.obj fs)
  | always {fs} (hfact : Fields.has fs "fact" = false) (hall : Fields.has fs "all" = false)
      (hany : Fields.has fs "any" = false)
      (halways : Fields.own? fs "always" = some (.bool true)) : WellFormed re (.obj fs)

theorem validateRegex_valid {re : RegExp} {pattern : JsString}
    (h : validateRegex re pattern = .ok ()) : re.valid pattern = true := by
  unfold validateRegex at h
  split at h
  · cases h
  · split at h
    · cases h
    · split at h
      · cases h
      · rename_i hv
        simpa using hv

theorem validateLeaf_wellFormed {re : RegExp} {fs : Fields} (h : validateLeaf re fs = .ok ()) :
    WellFormed re (.obj fs) := by
  unfold validateLeaf at h
  split at h
  · rename_i fact hfact
    split at h
    · cases h
    · dsimp only at h
      split at h
      · obtain ⟨_, _, h⟩ := bind_eq_ok.mp h
        cases h
      · rename_i hop
        refine .leaf (JsValue.getFields_eq_json.mp hfact) hop (fun _ => ?_)
        split at h
        · rename_i pattern hvalue
          exact ⟨pattern, hvalue, validateRegex_valid h⟩
        · cases h
      · rename_i op hne hop
        exact .leaf (JsValue.getFields_eq_json.mp hfact) hop (fun he => (hne he).elim)
  · cases h

theorem validateEach_ok {re : RegExp} {xs : List Json} (h : validateEach re xs = .ok ()) :
    ∀ x ∈ xs, validateCondition re x = .ok () := by
  induction xs with
  | nil => exact fun _ hx => absurd hx List.not_mem_nil
  | cons x xs ih =>
    rw [validateEach] at h
    obtain ⟨⟨⟩, hx, hxs⟩ := bind_eq_ok.mp h
    exact List.forall_mem_cons.mpr ⟨hx, ih hxs⟩

theorem validateChildren_ok {re : RegExp} {name : JsString} {v : Json}
    (h : validateChildren re name v = .ok ()) :
    ∃ xs, v = .arr xs ∧ ∀ x ∈ xs, validateCondition re x = .ok () := by
  unfold validateChildren at h
  split at h
  · rename_i x xs
    obtain ⟨⟨⟩, hx, hxs⟩ := bind_eq_ok.mp h
    exact ⟨x :: xs, rfl, List.forall_mem_cons.mpr ⟨hx, validateEach_ok hxs⟩⟩
  · cases h

/-- The group branch of `validateCondition`, turned around. -/
theorem validateGroup_ok {re : RegExp} {name : JsString} {fs : Fields}
    (hhas : Fields.has fs name = true) (h : validateGroup re name fs = .ok ()) :
    ∃ xs, Fields.own? fs name = some (.arr xs) ∧ ∀ x ∈ xs, validateCondition re x = .ok () := by
  obtain ⟨v, hv⟩ := Option.isSome_iff_exists.mp hhas
  rw [validateGroup_eq re hv] at h
  obtain ⟨xs, rfl, hxs⟩ := validateChildren_ok h
  exact ⟨xs, hv, hxs⟩

/-- **A condition the validator accepts is well formed.** -/
theorem validateCondition_wellFormed {re : RegExp} :
    ∀ c : Json, validateCondition re c = .ok () → WellFormed re c := by
  refine Json.descend (fun c ih h => ?_)
  cases c with
  | obj fs =>
    rw [validateCondition] at h
    split at h
    · exact validateLeaf_wellFormed h
    rename_i hfact
    split at h
    · rename_i hall
      obtain ⟨xs, hown, hxs⟩ := validateGroup_ok hall h
      exact .all (by simpa using hfact) hown (fun x hx => ih x (.member hown hx) (hxs x hx))
    rename_i hall
    split at h
    · rename_i hany
      obtain ⟨xs, hown, hxs⟩ := validateGroup_ok hany h
      exact .any (by simpa using hfact) (by simpa using hall) hown
        (fun x hx => ih x (.member hown hx) (hxs x hx))
    rename_i hany
    split at h
    · split at h
      · rename_i heq
        exact .always (by simpa using hfact) (by simpa using hall) (by simpa using hany)
          (JsValue.getFields_eq_json.mp (JsValue.eq_of_strictEq (by simp) heq))
      · cases h
    · cases h
  | _ => cases h

/-! ## Rules and policies -/

/-- A rule the validator accepts, with what it read of it. -/
structure AcceptedRule (re : RegExp) where
  fields : Fields
  id : JsString
  condition : Json
  outcome : Fields
  reason : JsString
  own_id : Fields.own? fields "id" = some (.str id)
  own_condition : Fields.own? fields "condition" = some condition
  wellFormed : WellFormed re condition
  own_outcome : Fields.own? fields "outcome" = some (.obj outcome)
  own_reason : Fields.own? outcome "reason" = some (.str reason)

/-- The `action` its outcome names. -/
def AcceptedRule.action {re : RegExp} (r : AcceptedRule re) : JsValue :=
  JsValue.getFields r.outcome "action"

/-- The rule as the policy document has it. -/
def AcceptedRule.document {re : RegExp} (r : AcceptedRule re) : Json := .obj r.fields

theorem requireText_ok {v : JsValue} {message : JsString} (h : requireText v message = .ok ()) :
    ∃ s, v = .json (.str s) := by
  unfold requireText at h
  split at h
  · cases h
  · cases h
  · exact ⟨_, rfl⟩
  · cases h

theorem validateRule_ok {re : RegExp} {ruleIds : List JsString} {rule : Json} {id : JsString}
    (h : validateRule re ruleIds rule = .ok id) :
    ∃ r : AcceptedRule re, r.document = rule := by
  simp only [validateRule, bind_eq_ok] at h
  obtain ⟨idValue, hid, ⟨⟩, hidText, _, -, ⟨⟩, -, condition, hcondition, ⟨⟩, hvalid, outcome,
    houtcome, ⟨⟩, -, _, -, ⟨⟩, -, reason, hreason, ⟨⟩, hreasonText, -⟩ := h
  obtain ⟨ident, rfl⟩ := requireText_ok hidText
  obtain ⟨text, rfl⟩ := requireText_ok hreasonText
  obtain ⟨fs, hfs, hown⟩ := JsValue.get_eq_json (by decide) (JsValue.member_ok hid)
  cases hfs
  obtain ⟨ofs, rfl, hownReason⟩ := JsValue.get_eq_json (by decide) (JsValue.member_ok hreason)
  exact ⟨⟨fs, ident, condition, ofs, text, hown,
    JsValue.getFields_eq_json.mp (JsValue.jsonMember_ok hcondition),
    validateCondition_wellFormed _ hvalid,
    JsValue.getFields_eq_json.mp (JsValue.member_ok houtcome), hownReason⟩, rfl⟩

theorem validateRules_ok {re : RegExp} {ruleIds : List JsString} {rules : List Json}
    (h : validateRules re ruleIds rules = .ok ()) :
    ∃ rs : List (AcceptedRule re), rs.map AcceptedRule.document = rules := by
  induction rules generalizing ruleIds with
  | nil => exact ⟨[], rfl⟩
  | cons rule rules ih =>
    rw [validateRules] at h
    obtain ⟨id, hrule, hrules⟩ := bind_eq_ok.mp h
    obtain ⟨r, rfl⟩ := validateRule_ok hrule
    obtain ⟨rs, rfl⟩ := ih hrules
    exact ⟨r :: rs, rfl⟩

/-- A policy the validator accepts, with what it read of it. -/
structure AcceptedPolicy (re : RegExp) where
  fields : Fields
  rules : List (AcceptedRule re)
  own_rules : Fields.own? fields "rules" = some (.arr (rules.map AcceptedRule.document))
  gated : validateApproveRules (keysOrEmpty (JsValue.getFields fields "approvalSignals"))
    (rules.map AcceptedRule.document) = .ok ()
  covered : findUncoveredFacts (.json (.obj fields)) (rules.map AcceptedRule.document) = .ok []

/-- The policy as its document. -/
def AcceptedPolicy.document {re : RegExp} (p : AcceptedPolicy re) : Json := .obj p.fields

theorem requireRules_ok {v : JsValue} {rules : List Json} (h : requireRules v = .ok rules) :
    v = .json (.arr rules) := by
  unfold requireRules at h
  split at h
  · cases h
  · cases h
    rfl
  · cases h

theorem rejectIf_ok {refused : Bool} {message : JsString} (h : rejectIf refused message = .ok ()) :
    refused = false := by
  cases refused with
  | false => rfl
  | true => cases h

/-- **Every accepted document is an accepted policy.** -/
theorem Accepted.policy {re : RegExp} {policy : Json} (h : Accepted re policy) :
    ∃ p : AcceptedPolicy re, p.document = policy := by
  simp only [Accepted, validate, bind_eq_ok] at h
  obtain ⟨⟨⟩, -, id, hid, ⟨⟩, hidText, _, -, ⟨⟩, -, _, -, ⟨⟩, -, rulesValue, hrules, rules, hlist,
    _, -, ⟨⟩, -, _, -, ⟨⟩, -, ⟨⟩, hvalid, ⟨⟩, -, ⟨⟩, hgated, uncovered, hcovered, huncovered⟩ := h
  obtain ⟨ident, rfl⟩ := requireText_ok hidText
  obtain ⟨fs, hfs, -⟩ := JsValue.get_eq_json (by decide) (JsValue.member_ok hid)
  cases hfs
  cases requireRules_ok hlist
  obtain ⟨rs, rfl⟩ := validateRules_ok hvalid
  cases List.isEmpty_iff.mp (by simpa using rejectIf_ok huncovered)
  exact ⟨⟨fs, rs, JsValue.getFields_eq_json.mp (JsValue.member_ok hrules), hgated, hcovered⟩, rfl⟩

/-- The facts a policy acknowledges as its caller's own word. -/
def unboundKeys (policy : Json) : List JsString :=
  keysOrEmpty ((JsValue.json policy).get "unboundSignalReasons")

/-- The facts a policy binds to the Intent. -/
def boundKeys (policy : Json) : List JsString :=
  keysOrEmpty ((JsValue.json policy).get "boundSignals")

/-- The approval signals a policy declares: `Object.keys(policy.approvalSignals ?? {})`. -/
def approvalKeys (policy : Json) : List JsString :=
  keysOrEmpty ((JsValue.json policy).get "approvalSignals")

/-! ## The engine on accepted policies -/

namespace PolicyEngine
variable {re : RegExp} (signals : Fields)

theorem evaluateLeaf_eq {fs : Fields} {fact : JsString}
    (hfact : Fields.own? fs "fact" = some (.str fact)) :
    evaluateLeaf re signals fs =
      if JsValue.getFields signals fact = .undefined then .ok false
      else OperatorEvaluator.evaluate re (JsValue.getFields signals fact)
        (JsValue.getFields fs "operator") (JsValue.getFields fs "value") := by
  rw [evaluateLeaf, JsValue.getFields_own hfact]
  rfl

theorem everyChild_ok {xs : List Json} (h : ∀ x ∈ xs, ∃ b, evaluateCondition re signals x = .ok b) :
    ∃ b, everyChild re signals xs = .ok b := by
  induction xs with
  | nil => exact ⟨true, rfl⟩
  | cons x xs ih =>
    obtain ⟨⟨b, hb⟩, hxs⟩ := List.forall_mem_cons.mp h
    rw [everyChild, hb]
    cases b with
    | false => exact ⟨false, rfl⟩
    | true => exact ih hxs

theorem someChild_ok {xs : List Json} (h : ∀ x ∈ xs, ∃ b, evaluateCondition re signals x = .ok b) :
    ∃ b, someChild re signals xs = .ok b := by
  induction xs with
  | nil => exact ⟨false, rfl⟩
  | cons x xs ih =>
    obtain ⟨⟨b, hb⟩, hxs⟩ := List.forall_mem_cons.mp h
    rw [someChild, hb]
    cases b with
    | true => exact ⟨true, rfl⟩
    | false => exact ih hxs

/-- The engine's reading of a condition that has no `fact` and no `always`. -/
theorem evaluateCondition_all {fs : Fields} {xs : List Json}
    (hfact : Fields.has fs "fact" = false) (halways : Fields.has fs "always" = false)
    (hall : Fields.own? fs "all" = some (.arr xs)) :
    evaluateCondition re signals (.obj fs) = everyChild re signals xs := by
  have hhas : Fields.has fs "all" = true := by rw [Fields.has, hall]; rfl
  rw [evaluateCondition, if_neg (by simp [hfact]), if_neg (by simp [halways]), if_pos hhas,
    evaluateAll_eq re signals hall, evaluateEvery]

theorem evaluateCondition_any {fs : Fields} {xs : List Json}
    (hfact : Fields.has fs "fact" = false) (halways : Fields.has fs "always" = false)
    (hall : Fields.has fs "all" = false) (hany : Fields.own? fs "any" = some (.arr xs)) :
    evaluateCondition re signals (.obj fs) = someChild re signals xs := by
  have hhas : Fields.has fs "any" = true := by rw [Fields.has, hany]; rfl
  rw [evaluateCondition, if_neg (by simp [hfact]), if_neg (by simp [halways]),
    if_neg (by simp [hall]), if_pos hhas, evaluateAny_eq re signals hany, evaluateSome]

theorem evaluateCondition_fact {fs : Fields} (hfact : Fields.has fs "fact" = true) :
    evaluateCondition re signals (.obj fs) = evaluateLeaf re signals fs := by
  rw [evaluateCondition, if_pos hfact]

theorem evaluateCondition_always {fs : Fields} (hfact : Fields.has fs "fact" = false)
    (halways : Fields.has fs "always" = true) :
    evaluateCondition re signals (.obj fs) = .ok true := by
  rw [evaluateCondition, if_neg (by simp [hfact]), if_pos halways]

/-- **A well-formed condition evaluates without a throw.** -/
theorem evaluateCondition_ok {c : Json} (h : WellFormed re c) :
    ∃ b, evaluateCondition re signals c = .ok b := by
  induction h with
  | @leaf fs fact op hfact hop hpattern =>
    rw [evaluateCondition_fact signals (by rw [Fields.has, hfact]; rfl), evaluateLeaf_eq signals hfact]
    split
    · exact ⟨false, rfl⟩
    · rw [OperatorEvaluator.evaluate, hop]
      exact OperatorEvaluator.evaluateSupported_ok re _ _ hpattern
  | @all fs xs hfact hall hxs ih =>
    cases halways : Fields.has fs "always" with
    | true => exact ⟨true, evaluateCondition_always signals hfact halways⟩
    | false =>
      rw [evaluateCondition_all signals hfact halways hall]
      exact everyChild_ok signals ih
  | @any fs xs hfact hall hany hxs ih =>
    cases halways : Fields.has fs "always" with
    | true => exact ⟨true, evaluateCondition_always signals hfact halways⟩
    | false =>
      rw [evaluateCondition_any signals hfact halways hall hany]
      exact someChild_ok signals ih
  | @always fs hfact hall hany halways =>
    exact ⟨true, evaluateCondition_always signals hfact (by rw [Fields.has, halways]; rfl)⟩

end PolicyEngine

/-! ## Decisions -/

section Decision
variable {re : RegExp}

/-- Whether the rule's condition holds of the signals. -/
def AcceptedRule.holds (signals : Fields) (r : AcceptedRule re) : Bool :=
  PolicyEngine.evaluateCondition re signals r.condition = .ok true

theorem AcceptedRule.evaluate_eq (signals : Fields) (r : AcceptedRule re) :
    PolicyEngine.evaluateCondition re signals r.condition = .ok (r.holds signals) := by
  obtain ⟨b, hb⟩ := PolicyEngine.evaluateCondition_ok signals r.wellFormed
  cases b <;> simp [AcceptedRule.holds, hb]

/-- The ids the trace lists: every rule up to the first that holds, and it. -/
def traceIds (signals : Fields) : List (AcceptedRule re) → List JsValue
  | [] => []
  | r :: rs => .json (.str r.id) :: if r.holds signals then [] else traceIds signals rs

theorem findFirstMatch_eq (signals : Fields) (rs : List (AcceptedRule re)) :
    PolicyEngine.findFirstMatch re signals (rs.map AcceptedRule.document) =
      .ok ((rs.find? (·.holds signals)).map AcceptedRule.document, traceIds signals rs) := by
  induction rs with
  | nil => rfl
  | cons r rs ih =>
    rw [List.map_cons, PolicyEngine.findFirstMatch, AcceptedRule.document,
      JsValue.member_own r.own_id, JsValue.jsonMember_own r.own_condition]
    simp only [ok_bind, r.evaluate_eq, ih, traceIds, List.find?_cons]
    cases r.holds signals <;> rfl

/-- What the engine decides on an accepted policy: the first rule that holds has
the say. -/
def AcceptedPolicy.decision (p : AcceptedPolicy re) (signals : Fields) : PolicyDecision :=
  let found := p.rules.find? (·.holds signals)
  { policyId := JsValue.getFields p.fields "policyId"
    policyVersion := JsValue.getFields p.fields "policyVersion"
    outcome := found.elim .reject (fun r => PolicyEngine.toOutcome r.action)
    reason := .json (.str (found.elim "no_rule_matched" AcceptedRule.reason))
    matchedRuleId := .json (.str (found.elim "none" AcceptedRule.id))
    evaluatedRules := (traceIds signals p.rules).length
    matchedPath := traceIds signals p.rules }

/-- **The engine computes the decision**, and never throws, on an accepted
policy. -/
theorem AcceptedPolicy.evaluate_eq (p : AcceptedPolicy re) (signals : Fields) :
    PolicyEngine.evaluate re signals p.document = .ok (p.decision signals) := by
  rw [PolicyEngine.evaluate, AcceptedPolicy.document, JsValue.member_own p.own_rules]
  simp only [ok_bind, PolicyEngine.iterate, findFirstMatch_eq, AcceptedPolicy.decision]
  cases p.rules.find? (·.holds signals) with
  | none => rfl
  | some r =>
    simp only [Option.map_some, AcceptedRule.document, JsValue.member_own r.own_outcome,
      JsValue.member_own r.own_reason, JsValue.member_own r.own_id, ok_bind]
    rfl

end Decision

end Parmana.Policy

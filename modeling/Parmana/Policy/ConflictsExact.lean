import Parmana.Policy.ApprovalGate
import Parmana.Policy.Conflicts

/-! # When a reported conflict is one

What `findRuleConflicts` reports of two rules that are not `always` is right when a
warning means that some signals satisfy both, and signals that satisfy both mean that
something is reported, two bare facts of different names apart.

Two operators with scalar values are compared exactly but for one case: two ranges are
compared by their bounds, as if there were always a number between two numbers, and
there is none between a double and the next one (`OperatorsApart`).  A conjunct that
cannot hold with one of the other side keeps the two rules apart (`NeverBoth`).  The
loops reach every pair of positions once, so the comparison of a pair decides its entry
(`compareRules_ok`), and what is reported is right exactly when the two rules are not
open ranges of one fact with nothing between their bounds (`conflicts_exact_iff`).
-/
namespace Parmana.Policy
open Js

/-! ## Policies as they are typed -/

/-- A condition of the policy language, by the member it is read as. -/
inductive IsCondition : Json → Prop where
  | leaf {fs fact} (hfact : Fields.own? fs "fact" = some (.str fact)) : IsCondition (.obj fs)
  | all {fs xs} (hfact : Fields.has fs "fact" = false)
      (hall : Fields.own? fs "all" = some (.arr xs)) (hxs : ∀ x ∈ xs, IsCondition x) :
      IsCondition (.obj fs)
  | any {fs xs} (hfact : Fields.has fs "fact" = false) (hall : Fields.has fs "all" = false)
      (hany : Fields.own? fs "any" = some (.arr xs)) (hxs : ∀ x ∈ xs, IsCondition x) :
      IsCondition (.obj fs)
  | always {fs} (hfact : Fields.has fs "fact" = false) (hall : Fields.has fs "all" = false)
      (halways : Fields.has fs "always" = true) : IsCondition (.obj fs)

/-- `PolicyRule`. -/
structure PolicyRule where
  fields : Fields
  id : JsString
  condition : Fields
  own_id : Fields.own? fields "id" = some (.str id)
  own_condition : Fields.own? fields "condition" = some (.obj condition)
  isCondition : IsCondition (.obj condition)

/-- The rule as the policy document has it. -/
def PolicyRule.document (r : PolicyRule) : Json := .obj r.fields

/-- `Policy`, as far as its rules go. -/
structure PolicyDocument where
  fields : Fields
  rules : List PolicyRule
  own_rules : Fields.own? fields "rules" = some (.arr (rules.map PolicyRule.document))

def PolicyDocument.document (p : PolicyDocument) : Json := .obj p.fields

theorem WellFormed.isCondition {re : RegExp} {c : Json} (h : WellFormed re c) : IsCondition c := by
  induction h with
  | leaf hfact _ _ => exact .leaf hfact
  | all hfact hall _ ih => exact .all hfact hall ih
  | any hfact hall hany _ ih => exact .any hfact hall hany ih
  | always hfact hall _ halways => exact .always hfact hall (by rw [Fields.has, halways]; rfl)

theorem IsCondition.fields {c : Json} (h : IsCondition c) : ∃ fs, c = .obj fs := by
  cases h <;> exact ⟨_, rfl⟩

/-- A rule the validator accepts is a rule. -/
theorem AcceptedRule.policyRule {re : RegExp} (r : AcceptedRule re) :
    ∃ p : PolicyRule, p.document = r.document ∧ r.condition = .obj p.condition := by
  have hcondition := r.wellFormed.isCondition
  obtain ⟨fs, hfs⟩ := hcondition.fields
  exact ⟨⟨r.fields, r.id, fs, r.own_id, hfs ▸ r.own_condition, hfs ▸ hcondition⟩, rfl, hfs⟩

/-- **Every policy the validator accepts is one the comparison is about.** -/
theorem AcceptedPolicy.policyDocument {re : RegExp} (p : AcceptedPolicy re) :
    ∃ d : PolicyDocument, d.document = p.document := by
  choose f hf using fun r : AcceptedRule re => r.policyRule
  have hrules : p.rules.map AcceptedRule.document = (p.rules.map f).map PolicyRule.document := by
    rw [List.map_map]
    exact List.map_congr_left fun r _ => (hf r).1.symm
  exact ⟨⟨p.fields, p.rules.map f, hrules ▸ p.own_rules⟩, rfl⟩

/-! ## What the signals satisfy -/

section Satisfies
variable (re : RegExp)

/-- The signals satisfy the condition: `evaluateCondition` returns `true`. -/
def Satisfies (signals : Fields) (condition : Fields) : Prop :=
  PolicyEngine.evaluateCondition re signals (.obj condition) = .ok true

/-- An operator and its value hold of a signal. -/
def OpHolds (operator : Option PolicyOperator) (value signal : JsValue) : Prop :=
  ∃ op, operator = some op ∧ OperatorEvaluator.evaluateSupported re signal op value = .ok true

/-- A leaf holds of a signal. -/
def LeafHolds (leaf : Fields) (signal : JsValue) : Prop :=
  OpHolds re (operatorOf leaf) (JsValue.getFields leaf "value") signal

variable {re}

theorem evaluate_true_iff {operator value signal : JsValue} :
    OperatorEvaluator.evaluate re signal operator value = .ok true ↔
      OpHolds re (PolicyOperator.ofValue? operator) value signal := by
  unfold OperatorEvaluator.evaluate OpHolds
  cases PolicyOperator.ofValue? operator with
  | none => simp
  | some op => simp

theorem satisfies_leaf_iff {signals leaf : Fields} {fact : JsString}
    (hfact : Fields.own? leaf "fact" = some (.str fact)) :
    Satisfies re signals leaf ↔ JsValue.getFields signals fact ≠ .undefined ∧
      LeafHolds re leaf (JsValue.getFields signals fact) := by
  unfold Satisfies
  rw [PolicyEngine.evaluateCondition_fact signals (by rw [Fields.has, hfact]; rfl),
    PolicyEngine.evaluateLeaf_eq signals hfact]
  by_cases hundefined : JsValue.getFields signals fact = .undefined
  · simp [hundefined]
  · rw [if_neg hundefined, evaluate_true_iff]
    exact ⟨fun h => ⟨hundefined, h⟩, fun h => h.2⟩

/-- What a leaf holds of, signals can have under its fact. -/
theorem satisfies_single {leaf : Fields} {fact : JsString} {signal : Json}
    (hfact : Fields.own? leaf "fact" = some (.str fact)) (h : LeafHolds re leaf (.json signal)) :
    Satisfies re [(fact, signal)] leaf := by
  have hget : JsValue.getFields [(fact, signal)] fact = .json signal :=
    JsValue.getFields_own (Fields.own?_cons_self _ _ _)
  rw [satisfies_leaf_iff hfact, hget]
  exact ⟨by simp, h⟩

/-- What satisfies the one satisfies every condition of the list. -/
def Requires (condition : Fields) (conjuncts : List Json) : Prop :=
  ∀ re signals, Satisfies re signals condition →
    ∀ fs, Json.obj fs ∈ conjuncts → Satisfies re signals fs

/-- No signals satisfy both conditions. -/
def NeverBoth (a b : Fields) : Prop :=
  ∀ re signals, ¬ (Satisfies re signals a ∧ Satisfies re signals b)

theorem requires_all {condition : Fields} {xs : List Json}
    (hfact : Fields.has condition "fact" = false) (halways : isAlways condition = false)
    (hall : Fields.own? condition "all" = some (.arr xs)) : Requires condition xs := by
  intro re signals h
  unfold Satisfies at h
  rw [PolicyEngine.evaluateCondition_all signals hfact halways hall] at h
  exact fun fs hfs => everyChild_true h _ hfs

theorem opHolds_normalize {operator : Option PolicyOperator} {value signal : JsValue} :
    OpHolds re operator value signal ↔ OpHolds re (normalizeBooleanOperator operator value).1
      (normalizeBooleanOperator operator value).2 signal := by
  unfold normalizeBooleanOperator OpHolds
  split_ifs with htrue hfalse
  · subst htrue
    simp [OperatorEvaluator.evaluateSupported]
  · subst hfalse
    simp [OperatorEvaluator.evaluateSupported]
  · exact Iff.rfl

theorem opHolds_eq {value signal : JsValue} :
    OpHolds re (some .eq) value signal ↔ JsValue.strictEq signal value = true := by
  simp [OpHolds, OperatorEvaluator.evaluateSupported]

theorem opHolds_neq {value signal : JsValue} :
    OpHolds re (some .neq) value signal ↔ JsValue.strictEq signal value = false := by
  simp [OpHolds, OperatorEvaluator.evaluateSupported]

theorem onNumbers_true {f : JsNumber → JsNumber → Bool} {signal : JsValue} {bound : JsNumber} :
    OperatorEvaluator.onNumbers f signal (.json (.num bound)) = true ↔
      ∃ n, signal = .json (.num n) ∧ f n bound = true := by
  unfold OperatorEvaluator.onNumbers
  split
  · rename_i a b heq
    cases heq
    simp
  · rename_i hne
    simp only [Bool.false_eq_true, false_iff, not_exists, not_and]
    exact fun n hn _ => hne n bound hn rfl

/-- A range holds of the numbers on its ray. -/
theorem opHolds_ray {operator : Option PolicyOperator} {value signal : JsValue}
    {r : JsNumber.Ray} (h : toRay operator value = some r) :
    OpHolds re operator value signal ↔ ∃ n, signal = .json (.num n) ∧ r.contains n = true := by
  unfold toRay at h
  split at h
  · rename_i bound
    unfold rayFrom at h
    split_ifs at h with hop hop hop hop
    all_goals
      cases h
      subst hop
      simp only [OpHolds, Option.some.injEq, exists_eq_left', OperatorEvaluator.evaluateSupported,
        Except.ok.injEq, onNumbers_true]
      rfl
  · cases h

/-- A range of a number has a ray. -/
theorem toRay_range {operator : Option PolicyOperator} (bound : JsNumber)
    (h : isRangeOp operator = true) : ∃ r, toRay operator (.json (.num bound)) = some r ∧
      r.bound = bound ∧ ∀ n, satisfies n operator bound = r.contains n := by
  unfold isRangeOp at h
  simp only [Bool.or_eq_true, decide_eq_true_eq] at h
  rcases h with ((rfl | rfl) | rfl) | rfl
  all_goals exact ⟨_, rfl, rfl, fun n => by simp [satisfies, JsNumber.Ray.contains]⟩

end Satisfies

theorem strictEq_congr {s a : JsValue} (h : JsValue.strictEq s a = true) (b : JsValue) :
    JsValue.strictEq a b = JsValue.strictEq s b := by
  have hmerge (v : JsValue) : JsValue.strictEq v.merge b = JsValue.strictEq v b := by
    refine JsValue.apply_merge (JsValue.strictEq · b) (fun n => ?_) v
    rcases b with _ | j | _ | _
    · rfl
    · cases j <;> simp [JsValue.strictEq]
    · rfl
    · rfl
  rw [← hmerge a, ← JsValue.merge_eq_of_strictEq h, hmerge]

/-! ## Operators that overlap -/

theorem definite_eq_noOverlap {overlap : Bool} :
    definite overlap = .noOverlap ↔ overlap = false := by
  cases overlap <;> simp [definite]

theorem definite_eq_definiteOverlap {overlap : Bool} :
    definite overlap = .definiteOverlap ↔ overlap = true := by
  cases overlap <;> simp [definite]

theorem isPointOp_iff {operator : Option PolicyOperator} :
    isPointOp operator = true ↔ operator = some .eq ∨ operator = some .neq := by
  simp [isPointOp]

theorem toRay_eq_some {operator : Option PolicyOperator} {value : JsValue} {r : JsNumber.Ray}
    (h : toRay operator value = some r) : value = .json (.num r.bound) ∧
      isRangeOp operator = true := by
  unfold toRay at h
  split at h
  · unfold rayFrom at h
    split_ifs at h with hop hop hop hop
    all_goals
      cases h
      subst hop
      exact ⟨rfl, rfl⟩
  · cases h

theorem contains_congr {r : JsNumber.Ray} {n m : JsNumber} (h : JsNumber.eq n m = true) :
    r.contains n = r.contains m := by
  have hmerge (n : JsNumber) : r.contains n.merge = r.contains n := by
    unfold JsNumber.Ray.contains
    split <;> simp
  have heq : n.merge = m.merge := by
    unfold JsNumber.eq at h
    simp only [Bool.and_eq_true, beq_iff_eq] at h
    exact h.2
  rw [← hmerge n, heq, hmerge]

/-- Rays that point different ways are an upper and a lower one. -/
theorem facing {a b : JsNumber.Ray} (h : a.direction ≠ b.direction) :
    (a.direction = .upper ∧ b.direction = .lower ∧ raysOverlap a b = facingOverlap a b) ∨
      (b.direction = .upper ∧ a.direction = .lower ∧ raysOverlap a b = facingOverlap b a) := by
  unfold raysOverlap
  rw [if_neg h]
  cases ha : a.direction <;> cases hb : b.direction
  · exact absurd (ha.trans hb.symm) h
  · exact .inl ⟨rfl, rfl, if_pos rfl⟩
  · exact .inr ⟨rfl, rfl, if_neg (by simp)⟩
  · exact absurd (ha.trans hb.symm) h

theorem facingOverlap_of_meet {upper lower : JsNumber.Ray} {n : JsNumber}
    (hupper : upper.direction = .upper) (hlower : lower.direction = .lower)
    (hu : upper.contains n = true) (hl : lower.contains n = true) :
    facingOverlap upper lower = true := by
  unfold facingOverlap
  rcases JsNumber.Ray.bounds_of_meet hupper hlower hu hl with h | ⟨h, hui, hli⟩
  · rw [if_pos h]
  · rw [h, hui, hli]
    split <;> rfl

/-- Rays that meet overlap. -/
theorem raysOverlap_of_meet {a b : JsNumber.Ray} {n : JsNumber} (ha : a.contains n = true)
    (hb : b.contains n = true) : raysOverlap a b = true := by
  by_cases hsame : a.direction = b.direction
  · exact if_pos hsame
  rcases facing hsame with ⟨hda, hdb, h⟩ | ⟨hdb, hda, h⟩
  · rw [h]
    exact facingOverlap_of_meet hda hdb ha hb
  · rw [h]
    exact facingOverlap_of_meet hdb hda hb ha

/-- Rays with nothing between their bounds, whichever comes first. -/
def RaysApart (a b : JsNumber.Ray) : Prop := a.Apart b ∨ b.Apart a

theorem RaysApart.overlap {a b : JsNumber.Ray} (h : RaysApart a b) : raysOverlap a b = true := by
  rcases h with ⟨hu, hl, -, -, hlt, -⟩ | ⟨hu, hl, -, -, hlt, -⟩
  · simp [raysOverlap, facingOverlap, hu, hl, hlt]
  · simp [raysOverlap, facingOverlap, hu, hl, hlt]

theorem RaysApart.no_meet {a b : JsNumber.Ray} (h : RaysApart a b) (n : JsNumber) :
    ¬ (a.contains n = true ∧ b.contains n = true) := by
  rcases h with h | h
  · exact h.no_meet h.1 h.2.1 n
  · exact fun hn => h.no_meet h.1 h.2.1 n hn.symm

theorem meet_of_facingOverlap {upper lower : JsNumber.Ray} (hupper : upper.direction = .upper)
    (hlower : lower.direction = .lower) (hu : upper.bound.isFinite = true)
    (hl : lower.bound.isFinite = true) (h : facingOverlap upper lower = true)
    (hapart : ¬ upper.Apart lower) : ∃ n, upper.contains n = true ∧ lower.contains n = true := by
  unfold facingOverlap at h
  by_cases hlt : JsNumber.lt lower.bound upper.bound = true
  · exact JsNumber.Ray.meet_of_lt hupper hlower hlt hapart
  rw [if_neg hlt] at h
  by_cases hgt : JsNumber.lt upper.bound lower.bound = true
  · rw [if_pos hgt] at h
    cases h
  rw [if_neg hgt, Bool.and_eq_true] at h
  exact JsNumber.Ray.meet_of_inclusive hupper hlower (JsNumber.finite_rank hu).1
    (JsNumber.finite_rank hl).1 h.1 h.2 hgt

/-- **Rays that overlap meet, unless they are apart.** -/
theorem meet_of_raysOverlap {a b : JsNumber.Ray} (ha : a.bound.isFinite = true)
    (hb : b.bound.isFinite = true) (h : raysOverlap a b = true) (hapart : ¬ RaysApart a b) :
    ∃ n, a.contains n = true ∧ b.contains n = true := by
  by_cases hsame : a.direction = b.direction
  · exact JsNumber.Ray.meet_of_direction ha hb hsame
  rcases facing hsame with ⟨hda, hdb, heq⟩ | ⟨hdb, hda, heq⟩
  · rw [heq] at h
    exact meet_of_facingOverlap hda hdb ha hb h fun h => hapart (.inl h)
  · rw [heq] at h
    obtain ⟨n, hnb, hna⟩ := meet_of_facingOverlap hdb hda hb ha h fun h => hapart (.inr h)
    exact ⟨n, hna, hnb⟩

/-- A value a comparison is made with: a text, a number, a truth value or `null`. -/
def IsScalar : JsValue → Prop
  | .json (.num n) => n.isFinite = true
  | .json .null | .json (.bool _) | .json (.str _) => True
  | _ => False

theorem IsScalar.strictEq_self {v : JsValue} (h : IsScalar v) :
    ∃ j, v = .json j ∧ JsValue.strictEq v v = true := by
  unfold IsScalar at h
  split at h
  · exact ⟨_, rfl, JsNumber.eq_iff.mpr
      ⟨(JsNumber.finite_rank h).1, (JsNumber.finite_rank h).1, rfl⟩⟩
  · exact ⟨_, rfl, rfl⟩
  · exact ⟨_, rfl, by simp [JsValue.strictEq]⟩
  · exact ⟨_, rfl, by simp [JsValue.strictEq]⟩
  · cases h

section Operators
variable {re : RegExp} {opA opB : Option PolicyOperator} {valA valB : JsValue}

theorem no_signal_of_point {operator : Option PolicyOperator} {value bound signal : JsValue}
    (hrange : isRangeOp operator = true) (h : pointOverlap value operator bound = .noOverlap)
    (hs : JsValue.strictEq signal value = true) (hr : OpHolds re operator bound signal) :
    False := by
  unfold pointOverlap at h
  split at h
  · rename_i n b
    obtain ⟨r, hray, -, hsat⟩ := toRay_range b hrange
    rw [definite_eq_noOverlap, hsat] at h
    obtain ⟨m, rfl, hm⟩ := (opHolds_ray hray).mp hr
    rw [contains_congr hs] at hm
    exact Bool.false_ne_true (h.symm.trans hm)
  · cases h

theorem no_signal_of_eqOverlap (hA : isPointOp opA = true) (hB : isPointOp opB = true)
    (h : eqOverlap opA valA opB valB = .noOverlap) {signal : JsValue}
    (ha : OpHolds re opA valA signal) (hb : OpHolds re opB valB signal) : False := by
  rcases isPointOp_iff.mp hA with rfl | rfl
  · rw [opHolds_eq] at ha
    rcases isPointOp_iff.mp hB with rfl | rfl
    · rw [opHolds_eq] at hb
      simp [eqOverlap, definite_eq_noOverlap, strictEq_congr ha, hb] at h
    · rw [opHolds_neq] at hb
      simp [eqOverlap, definite_eq_noOverlap, strictEq_congr ha, hb] at h
  · rw [opHolds_neq] at ha
    rcases isPointOp_iff.mp hB with rfl | rfl
    · rw [opHolds_eq] at hb
      simp [eqOverlap, definite_eq_noOverlap, strictEq_congr hb, ha] at h
    · simp [eqOverlap] at h

theorem no_signal_of_rayOverlap (h : rayOverlap (toRay opA valA) (toRay opB valB) = .noOverlap)
    {signal : JsValue} (ha : OpHolds re opA valA signal) (hb : OpHolds re opB valB signal) :
    False := by
  unfold rayOverlap at h
  split at h
  · rename_i ra rb hra hrb
    obtain ⟨n, rfl, hna⟩ := (opHolds_ray hra).mp ha
    obtain ⟨m, hm, hmb⟩ := (opHolds_ray hrb).mp hb
    cases hm
    rw [definite_eq_noOverlap, raysOverlap_of_meet hna hmb] at h
    cases h
  · cases h

/-- **Nothing satisfies two operators that are said not to overlap.** -/
theorem no_signal_of_noOverlap (h : normOverlap opA valA opB valB = .noOverlap) {signal : JsValue}
    (ha : OpHolds re opA valA signal) (hb : OpHolds re opB valB signal) : False := by
  unfold normOverlap at h
  split at h
  · rename_i hpoints
    rw [Bool.and_eq_true] at hpoints
    exact no_signal_of_eqOverlap hpoints.1 hpoints.2 h ha hb
  split at h
  · exact no_signal_of_rayOverlap h ha hb
  split at h
  · rename_i hleft
    rw [Bool.and_eq_true, decide_eq_true_eq] at hleft
    rw [hleft.1, opHolds_eq] at ha
    exact no_signal_of_point hleft.2 h ha hb
  split at h
  · rename_i hright
    rw [Bool.and_eq_true, decide_eq_true_eq] at hright
    rw [hright.1, opHolds_eq] at hb
    exact no_signal_of_point hright.2 h hb ha
  · cases h


/-- Two operators are ranges with nothing between their bounds. -/
def OperatorsApart (opA : Option PolicyOperator) (valA : JsValue) (opB : Option PolicyOperator)
    (valB : JsValue) : Prop :=
  ∃ a b, toRay opA valA = some a ∧ toRay opB valB = some b ∧ RaysApart a b

theorem signal_of_eqOverlap (hA : isPointOp opA = true) (hB : isPointOp opB = true)
    (h : eqOverlap opA valA opB valB = .definiteOverlap) (ha : opA = some .eq → IsScalar valA)
    (hb : opB = some .eq → IsScalar valB) :
    ∃ signal : Json, OpHolds re opA valA (.json signal) ∧ OpHolds re opB valB (.json signal) := by
  rcases isPointOp_iff.mp hA with rfl | rfl
  · obtain ⟨j, rfl, hself⟩ := (ha rfl).strictEq_self
    rcases isPointOp_iff.mp hB with rfl | rfl
    · simp only [eqOverlap, and_self, if_true, definite_eq_definiteOverlap] at h
      exact ⟨j, opHolds_eq.mpr hself, opHolds_eq.mpr h⟩
    · refine ⟨j, opHolds_eq.mpr hself, opHolds_neq.mpr ?_⟩
      simpa [eqOverlap, definite_eq_definiteOverlap] using h
  · rcases isPointOp_iff.mp hB with rfl | rfl
    · obtain ⟨j, rfl, hself⟩ := (hb rfl).strictEq_self
      refine ⟨j, opHolds_neq.mpr ?_, opHolds_eq.mpr hself⟩
      simpa [eqOverlap, definite_eq_definiteOverlap] using h
    · -- an array is `===` to nothing that a policy names
      have harray (v : JsValue) : JsValue.strictEq (.json (.arr [])) v = false := by
        cases v <;> rfl
      exact ⟨.arr [], opHolds_neq.mpr (harray _), opHolds_neq.mpr (harray _)⟩

theorem signal_of_rayOverlap (h : rayOverlap (toRay opA valA) (toRay opB valB) = .definiteOverlap)
    (ha : IsScalar valA) (hb : IsScalar valB) (hapart : ¬ OperatorsApart opA valA opB valB) :
    ∃ signal : Json, OpHolds re opA valA (.json signal) ∧ OpHolds re opB valB (.json signal) := by
  unfold rayOverlap at h
  split at h
  · rename_i a b hra hrb
    rw [(toRay_eq_some hra).1] at ha
    rw [(toRay_eq_some hrb).1] at hb
    obtain ⟨n, hna, hnb⟩ := meet_of_raysOverlap ha hb (definite_eq_definiteOverlap.mp h)
      (fun h => hapart ⟨a, b, hra, hrb, h⟩)
    exact ⟨.num n, (opHolds_ray hra).mpr ⟨n, rfl, hna⟩, (opHolds_ray hrb).mpr ⟨n, rfl, hnb⟩⟩
  · cases h

theorem holds_of_point {operator : Option PolicyOperator} {value bound : JsValue}
    (hrange : isRangeOp operator = true)
    (h : pointOverlap value operator bound = .definiteOverlap) :
    OpHolds re operator bound value := by
  unfold pointOverlap at h
  split at h
  · rename_i n b
    obtain ⟨r, hray, -, hsat⟩ := toRay_range b hrange
    rw [definite_eq_definiteOverlap, hsat] at h
    exact (opHolds_ray hray).mpr ⟨n, rfl, h⟩
  · cases h

/-- **What is said to overlap is satisfied together, unless it is two ranges with nothing
between their bounds.** -/
theorem signal_of_definite (re : RegExp) (h : normOverlap opA valA opB valB = .definiteOverlap)
    (ha : opA = some .eq ∨ isRangeOp opA = true → IsScalar valA)
    (hb : opB = some .eq ∨ isRangeOp opB = true → IsScalar valB)
    (hapart : ¬ OperatorsApart opA valA opB valB) :
    ∃ signal : Json, OpHolds re opA valA (.json signal) ∧ OpHolds re opB valB (.json signal) := by
  unfold normOverlap at h
  split at h
  · rename_i hpoints
    rw [Bool.and_eq_true] at hpoints
    exact signal_of_eqOverlap hpoints.1 hpoints.2 h (fun h => ha (.inl h)) (fun h => hb (.inl h))
  split at h
  · rename_i hranges
    rw [Bool.and_eq_true] at hranges
    exact signal_of_rayOverlap h (ha (.inr hranges.1)) (hb (.inr hranges.2)) hapart
  split at h
  · rename_i hleft
    rw [Bool.and_eq_true, decide_eq_true_eq] at hleft
    obtain ⟨j, rfl, hself⟩ := (ha (.inl hleft.1)).strictEq_self
    exact ⟨j, hleft.1 ▸ opHolds_eq.mpr hself, holds_of_point hleft.2 h⟩
  split at h
  · rename_i hright
    rw [Bool.and_eq_true, decide_eq_true_eq] at hright
    obtain ⟨j, rfl, hself⟩ := (hb (.inl hright.1)).strictEq_self
    exact ⟨j, holds_of_point hright.2 h, hright.1 ▸ opHolds_eq.mpr hself⟩
  · cases h

theorem OperatorsApart.no_signal (h : OperatorsApart opA valA opB valB) (signal : JsValue) :
    ¬ (OpHolds re opA valA signal ∧ OpHolds re opB valB signal) := by
  rintro ⟨ha, hb⟩
  obtain ⟨a, b, hra, hrb, hapart⟩ := h
  obtain ⟨n, rfl, hna⟩ := (opHolds_ray hra).mp ha
  obtain ⟨m, hm, hmb⟩ := (opHolds_ray hrb).mp hb
  cases hm
  exact hapart.no_meet n ⟨hna, hmb⟩

theorem OperatorsApart.overlap (h : OperatorsApart opA valA opB valB) :
    normOverlap opA valA opB valB = .definiteOverlap := by
  obtain ⟨a, b, hra, hrb, hapart⟩ := h
  have hA := (toRay_eq_some hra).2
  have hB := (toRay_eq_some hrb).2
  have hpoint : isPointOp opA = false := by
    unfold isRangeOp at hA
    simp only [Bool.or_eq_true, decide_eq_true_eq] at hA
    rcases hA with ((rfl | rfl) | rfl) | rfl <;> rfl
  unfold normOverlap
  rw [hpoint, hA, hB, hra, hrb]
  simp [rayOverlap, definite, hapart.overlap]

end Operators

/-! ## Leaves that overlap -/

/-- The operators that read no value. -/
def ReadsNoValue (operator : Option PolicyOperator) : Prop :=
  operator ∈ [some .exists, some .notExists, some .isTrue, some .isFalse, some .isNull,
    some .isNotNull]

/-- The operators whose value may be a list. -/
def TakesList (operator : Option PolicyOperator) : Prop :=
  operator ∈ [some .between, some .in, some .notIn]

/-- The value a leaf gives its operator: a scalar, or a list of them for the operators
that take one. -/
def ValueGiven (leaf : Fields) : Prop :=
  ReadsNoValue (operatorOf leaf) ∨ IsScalar (JsValue.getFields leaf "value") ∨
    (TakesList (operatorOf leaf) ∧ ∃ xs, JsValue.getFields leaf "value" = .json (.arr xs) ∧
      ∀ x ∈ xs, IsScalar (.json x))

/-- Two bare facts of one name. -/
def OneFact (a b : Fields) : Prop :=
  Fields.has a "fact" = true ∧ Fields.has b "fact" = true ∧ sameFact a b = true

/-- Two bare facts of one name, asked for by open ranges with no number between their
bounds. -/
def NothingBetween (a b : Fields) : Prop :=
  OneFact a b ∧ OperatorsApart (operatorOf a) (JsValue.getFields a "value") (operatorOf b)
    (JsValue.getFields b "value")

theorem toRay_normalize (operator : Option PolicyOperator) (value : JsValue) :
    toRay (normalizeBooleanOperator operator value).1 (normalizeBooleanOperator operator value).2 =
      toRay operator value := by
  unfold normalizeBooleanOperator
  split_ifs with htrue hfalse
  · subst htrue
    cases value with
    | json j => cases j <;> rfl
    | _ => rfl
  · subst hfalse
    cases value with
    | json j => cases j <;> rfl
    | _ => rfl
  · rfl

theorem operatorsApart_normalize {opA opB : Option PolicyOperator} {valA valB : JsValue} :
    OperatorsApart (normalizeBooleanOperator opA valA).1 (normalizeBooleanOperator opA valA).2
      (normalizeBooleanOperator opB valB).1 (normalizeBooleanOperator opB valB).2 ↔
      OperatorsApart opA valA opB valB := by
  unfold OperatorsApart
  rw [toRay_normalize, toRay_normalize]

/-- A value that is compared is a scalar. -/
theorem ValueGiven.scalar {leaf : Fields} (h : ValueGiven leaf) :
    let norm := normalizeBooleanOperator (operatorOf leaf) (JsValue.getFields leaf "value")
    norm.1 = some .eq ∨ isRangeOp norm.1 = true → IsScalar norm.2 := by
  dsimp only
  unfold normalizeBooleanOperator
  split_ifs with htrue hfalse
  · exact fun _ => trivial
  · exact fun _ => trivial
  · intro hop
    have hcompared : operatorOf leaf ∈ [some PolicyOperator.eq, some .gt, some .gte, some .lt,
        some .lte] := by
      rcases hop with hop | hop
      · rw [show operatorOf leaf = some .eq from hop]
        exact List.mem_cons_self
      · unfold isRangeOp at hop
        simp only [Bool.or_eq_true, decide_eq_true_eq] at hop
        rcases hop with ((hop | hop) | hop) | hop <;> simp [hop]
    rcases h with h | h | ⟨h, -⟩
    · simp only [ReadsNoValue, List.mem_cons, List.not_mem_nil, or_false] at h hcompared
      rcases hcompared with hop | hop | hop | hop | hop <;> simp [hop] at h
    · exact h
    · simp only [TakesList, List.mem_cons, List.not_mem_nil, or_false] at h hcompared
      rcases hcompared with hop | hop | hop | hop | hop <;> simp [hop] at h

section Leaves
variable {re : RegExp} {a b : Fields}

theorem no_leaf_signal (h : leafOverlap a b = .noOverlap) {signal : JsValue}
    (ha : LeafHolds re a signal) (hb : LeafHolds re b signal) : False :=
  no_signal_of_noOverlap h (opHolds_normalize.mp ha) (opHolds_normalize.mp hb)

theorem leaf_signal (re : RegExp) (h : leafOverlap a b = .definiteOverlap) (ha : ValueGiven a)
    (hb : ValueGiven b)
    (hapart : ¬ OperatorsApart (operatorOf a) (JsValue.getFields a "value") (operatorOf b)
      (JsValue.getFields b "value")) :
    ∃ signal : Json, LeafHolds re a (.json signal) ∧ LeafHolds re b (.json signal) := by
  obtain ⟨signal, hsa, hsb⟩ := signal_of_definite re h ha.scalar hb.scalar
    (fun h => hapart (operatorsApart_normalize.mp h))
  exact ⟨signal, opHolds_normalize.mpr hsa, opHolds_normalize.mpr hsb⟩

end Leaves

/-! ## Conditions that overlap -/

theorem anyDisjoint_true {leaf : Fields} {overlap : Fields → Overlap} {xs : List Json}
    (h : anyDisjoint leaf overlap xs = .ok true) :
    ∃ fs, Json.obj fs ∈ xs ∧ Fields.has fs "fact" = true ∧ sameFact fs leaf = true ∧
      overlap fs = .noOverlap := by
  induction xs with
  | nil => cases h
  | cons x xs ih =>
    rw [anyDisjoint] at h
    obtain ⟨fs, hfs, h⟩ := bind_eq_ok.mp h
    split at h
    · rename_i hdisjoint
      simp only [Bool.and_eq_true, decide_eq_true_eq] at hdisjoint
      cases x with
      | obj fs' =>
        cases hfs
        exact ⟨fs, List.mem_cons_self, hdisjoint.1.1, hdisjoint.1.2, hdisjoint.2⟩
      | arr _ =>
        cases hfs
        exact absurd hdisjoint.1.1 (by simp [Fields.has, Fields.own?])
      | _ => cases hfs
    · obtain ⟨fs', hmem, hrest⟩ := ih h
      exact ⟨fs', List.mem_cons_of_mem _ hmem, hrest⟩

theorem anyDisjoint_ok (leaf : Fields) (overlap : Fields → Overlap) {xs : List Json}
    (h : ∀ x ∈ xs, IsCondition x) : ∃ b, anyDisjoint leaf overlap xs = .ok b := by
  induction xs with
  | nil => exact ⟨false, rfl⟩
  | cons x xs ih =>
    obtain ⟨hx, hxs⟩ := List.forall_mem_cons.mp h
    obtain ⟨fs, rfl⟩ := hx.fields
    rw [anyDisjoint, conditionFields]
    dsimp only [ok_bind]
    split
    · exact ⟨true, rfl⟩
    · exact ih hxs

/-- A leaf of a condition has a text for its fact. -/
theorem IsCondition.fact {fs : Fields} (h : IsCondition (.obj fs))
    (hfact : Fields.has fs "fact" = true) :
    ∃ fact, Fields.own? fs "fact" = some (.str fact) := by
  cases h with
  | leaf h => exact ⟨_, h⟩
  | all h _ _ => exact absurd (h.symm.trans hfact) (by simp)
  | any h _ _ _ => exact absurd (h.symm.trans hfact) (by simp)
  | always h _ _ => exact absurd (h.symm.trans hfact) (by simp)

/-- An `all` of a condition has conditions in it. -/
theorem IsCondition.conjuncts {fs : Fields} (h : IsCondition (.obj fs))
    (hfact : Fields.has fs "fact" = false) (hall : Fields.has fs "all" = true) :
    ∃ xs, Fields.own? fs "all" = some (.arr xs) ∧ conjunctsOf fs = .ok xs ∧
      ∀ x ∈ xs, IsCondition x := by
  cases h with
  | leaf h => exact absurd hfact (by simp [Fields.has, h])
  | all _ h hxs =>
    refine ⟨_, h, ?_, hxs⟩
    rw [conjunctsOf, JsValue.getFields_own h]
  | any _ h _ _ => exact absurd (h.symm.trans hall) (by simp)
  | always _ h _ => exact absurd (h.symm.trans hall) (by simp)

/-- Two leaves on the same fact. -/
theorem IsCondition.common_fact {a b : Fields} (ha : IsCondition (.obj a))
    (hb : IsCondition (.obj b)) (hfa : Fields.has a "fact" = true)
    (hfb : Fields.has b "fact" = true) (hsame : sameFact a b = true) :
    ∃ fact, Fields.own? a "fact" = some (.str fact) ∧ Fields.own? b "fact" = some (.str fact) := by
  obtain ⟨fact, hfact⟩ := ha.fact hfa
  obtain ⟨fact', hfact'⟩ := hb.fact hfb
  unfold sameFact at hsame
  rw [JsValue.getFields_own hfact, JsValue.getFields_own hfact'] at hsame
  have heq : fact = fact' := beq_iff_eq.mp hsame
  exact ⟨fact, hfact, heq ▸ hfact'⟩

section Conditions
variable {a b : Fields}

/-- Two leaves on one fact that overlap in nothing are not both satisfied. -/
theorem neverBoth_leaves {fact : JsString} (ha : Fields.own? a "fact" = some (.str fact))
    (hb : Fields.own? b "fact" = some (.str fact)) (h : leafOverlap a b = .noOverlap) :
    NeverBoth a b := by
  rintro re signals ⟨hsa, hsb⟩
  exact no_leaf_signal h ((satisfies_leaf_iff ha).mp hsa).2 ((satisfies_leaf_iff hb).mp hsb).2

/-- The comparison of a leaf with an `all`: never sure of an overlap, and right when it
says there is none. -/
theorem leafVersusAllOverlap_ok {leaf condition : Fields} (hleaf : IsCondition (.obj leaf))
    (hfact : Fields.has leaf "fact" = true) {xs : List Json} (hxs : ∀ x ∈ xs, IsCondition x)
    (hrequires : Requires condition xs) :
    ∃ o, leafVersusAllOverlap leaf xs = .ok o ∧ o ≠ .definiteOverlap ∧
      (o = .noOverlap → NeverBoth leaf condition) := by
  obtain ⟨disjoint, h⟩ := anyDisjoint_ok leaf
    (fun conjunct => leafOverlap conjunct leaf) hxs
  rw [leafVersusAllOverlap, h]
  cases disjoint with
  | false => exact ⟨.needsReview, rfl, by simp, fun h => by cases h⟩
  | true =>
    refine ⟨.noOverlap, rfl, by simp, fun _ re signals hboth => ?_⟩
    obtain ⟨fs, hmem, hfs, hsame, hnone⟩ := anyDisjoint_true h
    obtain ⟨fact, hown, hown'⟩ := (hxs _ hmem).common_fact hleaf hfs hfact hsame
    exact neverBoth_leaves hown hown' hnone re signals
      ⟨hrequires re signals hboth.2 fs hmem, hboth.1⟩

theorem conjunctDisjoint_ok (conjunct : Fields) {ys : List Json}
    (hconjuncts : conjunctsOf b = .ok ys) (hys : ∀ y ∈ ys, IsCondition y) :
    ∃ d, conjunctDisjoint conjunct b = .ok d := by
  unfold conjunctDisjoint
  rw [hconjuncts]
  split
  · exact anyDisjoint_ok _ _ hys
  · exact ⟨false, rfl⟩

/-- A conjunct that is disjoint from one of the other side is not satisfied with it. -/
theorem neverBoth_of_conjunctDisjoint {conjunct : Fields} {ys : List Json}
    (hconjuncts : conjunctsOf b = .ok ys) (hys : ∀ y ∈ ys, IsCondition y)
    (hconjunct : IsCondition (.obj conjunct)) (hrequires : Requires b ys)
    (h : conjunctDisjoint conjunct b = .ok true) : NeverBoth conjunct b := by
  unfold conjunctDisjoint at h
  rw [hconjuncts] at h
  split at h
  · rename_i hfact
    obtain ⟨fs, hmem, hfs, hsame, hnone⟩ := anyDisjoint_true h
    obtain ⟨fact, hown, hown'⟩ := (hys _ hmem).common_fact hconjunct hfs hfact hsame
    rintro re signals ⟨hsa, hsb⟩
    exact neverBoth_leaves hown' hown hnone re signals ⟨hsa, hrequires re signals hsb fs hmem⟩
  · cases h

/-- The comparison of two `all`. -/
theorem allVersusAllOverlap_ok {xs ys : List Json} (hxs : ∀ x ∈ xs, IsCondition x)
    (hys : ∀ y ∈ ys, IsCondition y) (hconjuncts : conjunctsOf b = .ok ys)
    (ha : Requires a xs) (hb : Requires b ys) :
    ∃ o, allVersusAllOverlap b xs = .ok o ∧ o ≠ .definiteOverlap ∧
      (o = .noOverlap → NeverBoth a b) := by
  induction xs with
  | nil => exact ⟨.needsReview, rfl, by simp, fun h => by cases h⟩
  | cons x xs ih =>
    obtain ⟨hx, hrest⟩ := List.forall_mem_cons.mp hxs
    obtain ⟨conjunct, rfl⟩ := hx.fields
    obtain ⟨disjoint, h⟩ := conjunctDisjoint_ok conjunct hconjuncts hys
    rw [allVersusAllOverlap, conditionFields]
    dsimp only [ok_bind]
    rw [h]
    cases disjoint with
    | false =>
      exact ih hrest fun re signals hsa fs hfs => ha re signals hsa fs (List.mem_cons_of_mem _ hfs)
    | true =>
      refine ⟨.noOverlap, rfl, by simp, fun _ re signals hboth => ?_⟩
      exact neverBoth_of_conjunctDisjoint hconjuncts hys hx hb h re signals
        ⟨ha re signals hboth.1 conjunct List.mem_cons_self, hboth.2⟩

/-- Two bare facts of different names. -/
def DifferentFacts (a b : Fields) : Prop :=
  Fields.has a "fact" = true ∧ Fields.has b "fact" = true ∧ sameFact a b = false

/-- **What the comparison of two conditions comes to**: it returns; it is sure of an
overlap of two bare facts of one name only, by their operators; and conditions that are
said not to overlap are bare facts of different names or are never satisfied together. -/
theorem conditionsOverlap_ok (ha : IsCondition (.obj a)) (hb : IsCondition (.obj b))
    (halwaysA : isAlways a = false) (halwaysB : isAlways b = false) :
    ∃ o, conditionsOverlap a b = .ok o ∧
      (o = .definiteOverlap → OneFact a b ∧ leafOverlap a b = .definiteOverlap) ∧
      (o = .noOverlap → DifferentFacts a b ∨ NeverBoth a b) := by
  unfold conditionsOverlap
  split
  · rename_i hfacts
    rw [Bool.and_eq_true] at hfacts
    split
    · rename_i hsame
      refine ⟨_, rfl, fun h => ⟨⟨hfacts.1, hfacts.2, hsame⟩, h⟩, fun h => .inr ?_⟩
      obtain ⟨fact, hown, hown'⟩ := ha.common_fact hb hfacts.1 hfacts.2 hsame
      exact neverBoth_leaves hown hown' h
    · rename_i hsame
      refine ⟨.noOverlap, rfl, ?_, ?_⟩
      · intro h
        cases h
      · exact fun _ => .inl ⟨hfacts.1, hfacts.2, by simpa using hsame⟩
  rename_i hfacts
  split
  · rename_i hleft
    rw [Bool.and_eq_true] at hleft
    have hfb : Fields.has b "fact" = false := by simpa [hleft.1] using hfacts
    obtain ⟨xs, hown, hconjuncts, hxs⟩ := hb.conjuncts hfb hleft.2
    obtain ⟨o, ho, hdefinite, hnone⟩ :=
      leafVersusAllOverlap_ok ha hleft.1 hxs (requires_all hfb halwaysB hown)
    rw [hconjuncts]
    exact ⟨o, ho, fun h => absurd h hdefinite, fun h => .inr (hnone h)⟩
  split
  · rename_i hright
    rw [Bool.and_eq_true] at hright
    have hfa : Fields.has a "fact" = false := by simpa [hright.1] using hfacts
    obtain ⟨xs, hown, hconjuncts, hxs⟩ := ha.conjuncts hfa hright.2
    obtain ⟨o, ho, hdefinite, hnone⟩ :=
      leafVersusAllOverlap_ok hb hright.1 hxs (requires_all hfa halwaysA hown)
    rw [hconjuncts]
    exact ⟨o, ho, fun h => absurd h hdefinite,
      fun h => .inr fun re signals hboth => hnone h re signals hboth.symm⟩
  rename_i hleft hright
  split
  · rename_i halls
    rw [Bool.and_eq_true] at halls
    have hfa : Fields.has a "fact" = false := by simpa [halls.2] using hleft
    have hfb : Fields.has b "fact" = false := by simpa [halls.1] using hright
    obtain ⟨xs, hown, hconjuncts, hxs⟩ := ha.conjuncts hfa halls.1
    obtain ⟨ys, hown', hconjuncts', hys⟩ := hb.conjuncts hfb halls.2
    obtain ⟨o, ho, hdefinite, hnone⟩ := allVersusAllOverlap_ok hxs hys hconjuncts'
      (requires_all hfa halwaysA hown) (requires_all hfb halwaysB hown')
    rw [hconjuncts]
    exact ⟨o, ho, fun h => absurd h hdefinite, fun h => .inr (hnone h)⟩
  · refine ⟨.needsReview, rfl, ?_, ?_⟩
    · intro h
      cases h
    · intro h
      cases h

/-- Two bare facts of one name are compared by their operators. -/
theorem OneFact.conditionsOverlap (h : OneFact a b) :
    conditionsOverlap a b = .ok (leafOverlap a b) := by
  obtain ⟨ha, hb, hsame⟩ := h
  unfold Policy.conditionsOverlap
  rw [ha, hb, hsame]
  rfl

end Conditions

/-! ## The loops -/

theorem PolicyRule.ruleCondition (r : PolicyRule) : ruleCondition r.document = .ok r.condition := by
  unfold Policy.ruleCondition PolicyRule.document
  rw [JsValue.jsonMember_own r.own_condition]
  rfl

/-- The entry about two rules, by their ids. -/
def entryFor (a b : PolicyRule) : Overlap → Option RuleConflictWarning
  | .noOverlap => none
  | .definiteOverlap =>
    some ⟨.warning, .json (.str a.id), .json (.str b.id), overlapMessage a.id b.id⟩
  | .needsReview => some ⟨.info, .json (.str a.id), .json (.str b.id), reviewMessage a.id b.id⟩

theorem conflict_eq (level : ConflictLevel) (message : JsString → JsString → JsString)
    (a b : PolicyRule) : conflict level message a.document b.document =
      .ok ⟨level, .json (.str a.id), .json (.str b.id), message a.id b.id⟩ := by
  unfold conflict PolicyRule.document
  rw [JsValue.member_own a.own_id, JsValue.member_own b.own_id]
  rfl

theorem report_eq (a b : PolicyRule) (o : Overlap) :
    report a.document b.document o = .ok (entryFor a b o) := by
  cases o with
  | noOverlap => rfl
  | definiteOverlap => exact congrArg (some <$> ·) (conflict_eq .warning overlapMessage a b)
  | needsReview => exact congrArg (some <$> ·) (conflict_eq .info reviewMessage a b)

/-- The comparison of two rules that are not `always` is that of their conditions. -/
theorem comparePair_eq {a b : PolicyRule} {o : Overlap} (hb : isAlways b.condition = false)
    (h : conditionsOverlap a.condition b.condition = .ok o) :
    comparePair a.document a.condition b.document = .ok (entryFor a b o) := by
  unfold comparePair
  rw [b.ruleCondition]
  dsimp only [ok_bind]
  rw [hb, h]
  exact report_eq a b o

theorem comparePair_ok {a : PolicyRule} (ha : isAlways a.condition = false) (b : PolicyRule) :
    ∃ entry, comparePair a.document a.condition b.document = .ok entry := by
  cases hb : isAlways b.condition with
  | true =>
    refine ⟨none, ?_⟩
    unfold comparePair
    rw [b.ruleCondition]
    dsimp only [ok_bind]
    rw [hb]
    rfl
  | false =>
    obtain ⟨o, ho, -⟩ := conditionsOverlap_ok a.isCondition b.isCondition ha hb
    exact ⟨_, comparePair_eq hb ho⟩

/-- **The inner loop** makes an entry for each later rule that its comparison makes one
for. -/
theorem compareRest_ok {a : PolicyRule} (ha : isAlways a.condition = false) (i : Nat)
    (rules : List PolicyRule) (j : Nat) :
    ∃ entries,
      compareRest i a.document a.condition j (rules.map PolicyRule.document) = .ok entries ∧
      ∀ i' j' w, (i', j', w) ∈ entries ↔ i' = i ∧ ∃ n b, rules[n]? = some b ∧ j' = j + n ∧
        comparePair a.document a.condition b.document = .ok (some w) := by
  induction rules generalizing j with
  | nil => exact ⟨[], rfl, by simp⟩
  | cons b rules ih =>
    obtain ⟨entry, hentry⟩ := comparePair_ok ha b
    obtain ⟨later, hlater, hmem⟩ := ih (j + 1)
    refine ⟨(entry.map (fun w => (i, j, w))).toList ++ later, ?_, fun i' j' w => ?_⟩
    · rw [List.map_cons, compareRest, hentry]
      dsimp only [ok_bind]
      rw [hlater]
      rfl
    rw [List.mem_append, hmem]
    constructor
    · rintro (h | ⟨rfl, n, b', hb', rfl, hpair⟩)
      · cases entry with
        | none => cases h
        | some w' =>
          cases List.mem_singleton.mp h
          exact ⟨rfl, 0, b, rfl, rfl, hentry⟩
      · exact ⟨rfl, n + 1, b', hb', by omega, hpair⟩
    · rintro ⟨rfl, n, b', hb', rfl, hpair⟩
      cases n with
      | zero =>
        cases hb'
        cases hentry.symm.trans hpair
        exact .inl List.mem_cons_self
      | succ n => exact .inr ⟨rfl, n, b', hb', by omega, hpair⟩

/-- One turn of the outer loop makes entries of its own rule only. -/
theorem compareRule_ok (i : Nat) (a : PolicyRule) (rules : List PolicyRule) :
    ∃ entries, compareRule i a.document (rules.map PolicyRule.document) = .ok entries ∧
      (∀ i' j' w, (i', j', w) ∈ entries → i' = i) ∧
      (isAlways a.condition = false → ∀ n b w, rules[n]? = some b →
        ((i, i + 1 + n, w) ∈ entries ↔
          comparePair a.document a.condition b.document = .ok (some w))) := by
  unfold compareRule
  rw [a.ruleCondition]
  dsimp only [ok_bind]
  cases ha : isAlways a.condition with
  | true =>
    rw [if_pos rfl]
    cases rules with
    | nil =>
      refine ⟨[], rfl, fun i' j' w h => ?_, fun h => ?_⟩
      · cases h
      · cases h
    | cons b rules =>
      rw [List.map_cons, shadowing, conflict_eq]
      refine ⟨_, rfl, fun i' j' w h => ?_, fun h => ?_⟩
      · cases List.mem_singleton.mp h
        rfl
      · cases h
  | false =>
    obtain ⟨entries, hentries, hmem⟩ := compareRest_ok ha i rules (i + 1)
    rw [if_neg Bool.false_ne_true]
    refine ⟨entries, hentries, fun i' j' w h => ((hmem i' j' w).mp h).1, fun _ n b w hb => ?_⟩
    rw [hmem]
    constructor
    · rintro ⟨-, m, b', hb', heq, hpair⟩
      cases (by omega : n = m)
      cases hb.symm.trans hb'
      exact hpair
    · exact fun hpair => ⟨rfl, n, b, hb, rfl, hpair⟩

/-- **The outer loop** makes an entry for a pair of rules when their comparison makes
one. -/
theorem compareRules_ok (rules : List PolicyRule) (k : Nat) :
    ∃ entries, compareRules k (rules.map PolicyRule.document) = .ok entries ∧
      (∀ i j w, (i, j, w) ∈ entries → k ≤ i) ∧
      ∀ m n a b w, rules[m]? = some a → rules[n]? = some b → m < n →
        isAlways a.condition = false → ((k + m, k + n, w) ∈ entries ↔
          comparePair a.document a.condition b.document = .ok (some w)) := by
  induction rules generalizing k with
  | nil => exact ⟨[], rfl, by simp, by simp⟩
  | cons r rules ih =>
    obtain ⟨own, hown, hownAt, hownMem⟩ := compareRule_ok k r rules
    obtain ⟨later, hlater, hlaterAt, hlaterMem⟩ := ih (k + 1)
    refine ⟨own ++ later, ?_, fun i j w h => ?_, fun m n a b w ha hb hlt halways => ?_⟩
    · rw [List.map_cons, compareRules, hown]
      dsimp only [ok_bind]
      rw [hlater]
      rfl
    · rcases List.mem_append.mp h with h | h
      · exact (hownAt i j w h).ge
      · exact (Nat.le_succ k).trans (hlaterAt i j w h)
    rw [List.mem_append]
    obtain ⟨n, rfl⟩ : ∃ n', n = n' + 1 := ⟨n - 1, by omega⟩
    cases m with
    | zero =>
      cases ha
      rw [← hownMem halways n b w hb, show k + (n + 1) = k + 1 + n by omega]
      refine or_iff_left fun h => ?_
      have := hlaterAt _ _ _ h
      omega
    | succ m =>
      rw [← hlaterMem m n a b w ha hb (by omega) halways, show k + (m + 1) = k + 1 + m by omega,
        show k + (n + 1) = k + 1 + n by omega]
      refine or_iff_right fun h => ?_
      have := hownAt _ _ _ h
      omega

/-! ## Conflicts -/

/-- Some signals satisfy both rules. -/
def BothSatisfied (re : RegExp) (a b : PolicyRule) : Prop :=
  ∃ signals, Satisfies re signals a.condition ∧ Satisfies re signals b.condition

/-- **A conflict is reported for what it is, unless nothing is between the bounds.**  For
every two rules of a policy that are not `always`, at positions `i < j`, with values a
policy may give: an entry of the pair is a warning only when some signals satisfy both
rules, and there is an entry whenever some do, unless the rules are two bare facts of
different names; this is so exactly when the two are not bare facts of one name asked
for by open ranges with no number between their bounds. -/
theorem conflicts_exact_iff (re : RegExp) (p : PolicyDocument) {i j : Nat} {a b : PolicyRule}
    (hi : p.rules[i]? = some a) (hj : p.rules[j]? = some b) (hij : i < j)
    (ha : isAlways a.condition = false) (hb : isAlways b.condition = false)
    (hvalueA : Fields.has a.condition "fact" = true → ValueGiven a.condition)
    (hvalueB : Fields.has b.condition "fact" = true → ValueGiven b.condition) :
    ∃ entries, findRuleConflictsAt p.document = .ok entries ∧
      (((∀ w, (i, j, w) ∈ entries → w.level = .warning → BothSatisfied re a b) ∧
        (BothSatisfied re a b → ¬ DifferentFacts a.condition b.condition →
          ∃ w, (i, j, w) ∈ entries)) ↔ ¬ NothingBetween a.condition b.condition) := by
  obtain ⟨entries, hentries, -, hmem⟩ := compareRules_ok p.rules 0
  refine ⟨entries, ?_, ?_⟩
  · unfold findRuleConflictsAt PolicyDocument.document
    rw [JsValue.jsonMember_own p.own_rules]
    exact hentries
  obtain ⟨o, ho, hdefinite, hnone⟩ := conditionsOverlap_ok a.isCondition b.isCondition ha hb
  have hentry (w : RuleConflictWarning) : (i, j, w) ∈ entries ↔ entryFor a b o = some w := by
    have := hmem i j a b w hi hj hij ha
    rw [Nat.zero_add, Nat.zero_add, comparePair_eq hb ho] at this
    rw [this, Except.ok.injEq]
  constructor
  · rintro ⟨hsound, -⟩ ⟨hone, hapart⟩
    have hover : o = .definiteOverlap := by
      rw [hone.conditionsOverlap] at ho
      cases ho
      exact (operatorsApart_normalize.mpr hapart).overlap
    subst hover
    obtain ⟨signals, hsa, hsb⟩ := hsound _ ((hentry _).mpr rfl) rfl
    obtain ⟨fact, hfa, hfb⟩ := a.isCondition.common_fact b.isCondition hone.1 hone.2.1 hone.2.2
    exact hapart.no_signal _
      ⟨((satisfies_leaf_iff hfa).mp hsa).2, ((satisfies_leaf_iff hfb).mp hsb).2⟩
  · intro hbetween
    refine ⟨fun w hw hlevel => ?_, fun hboth hdifferent => ?_⟩
    · have hover : o = .definiteOverlap := by
        cases o with
        | definiteOverlap => rfl
        | noOverlap => cases (hentry w).mp hw
        | needsReview =>
          cases (hentry w).mp hw
          cases hlevel
      obtain ⟨hone, hleaf⟩ := hdefinite hover
      obtain ⟨fact, hfa, hfb⟩ := a.isCondition.common_fact b.isCondition hone.1 hone.2.1 hone.2.2
      obtain ⟨signal, hsa, hsb⟩ := leaf_signal re hleaf (hvalueA hone.1) (hvalueB hone.2.1)
        fun h => hbetween ⟨hone, h⟩
      exact ⟨[(fact, signal)], satisfies_single hfa hsa, satisfies_single hfb hsb⟩
    · cases o with
      | noOverlap =>
        obtain ⟨signals, hboth⟩ := hboth
        rcases hnone rfl with h | h
        · exact absurd h hdifferent
        · exact absurd hboth (h re signals)
      | definiteOverlap => exact ⟨_, (hentry _).mpr rfl⟩
      | needsReview => exact ⟨_, (hentry _).mpr rfl⟩

/-! ## Two thresholds -/

namespace Threshold

/-- A bare fact: the risk score, compared with a number. -/
def leaf (operator : PolicyOperator) (bound : JsNumber) : Fields :=
  [("fact", "riskScore"), ("operator", .str operator.text), ("value", .num bound)]

theorem operatorOf_leaf (operator : PolicyOperator) (bound : JsNumber) :
    operatorOf (leaf operator bound) = some operator :=
  PolicyOperator.ofValue?_text operator

def rule (id : JsString) (operator : PolicyOperator) (bound : JsNumber) : PolicyRule where
  fields := [("id", .str id), ("condition", .obj (leaf operator bound))]
  id := id
  condition := leaf operator bound
  own_id := rfl
  own_condition := rfl
  isCondition := .leaf rfl

def policy (a b : PolicyRule) : PolicyDocument where
  fields := [("rules", .arr [a.document, b.document])]
  rules := [a, b]
  own_rules := rfl

/-- The double after `1`, as `JSON.parse` reads `1.0000000000000002`. -/
def afterOne : JsNumber := .finite ⟨Dyadic.ofIntWithPrec (2 ^ 52 + 1) 52, by decide⟩

example : JsNumber.ofText "1.0000000000000002" = afterOne := by decide

/-- A double above `1` is at least `2⁻⁵²` above it. -/
theorem afterOne_le {d : Double} (h : 1 < d.val.toRat) :
    (1 + 2 ^ (-52 : Int) : ℚ) ≤ d.val.toRat := by
  obtain ⟨x, hx⟩ := d
  cases x with
  | zero =>
    have h : (1 : ℚ) < (0 : Dyadic).toRat := h
    rw [Dyadic.toRat_zero] at h
    norm_num at h
  | ofOdd n k hn =>
    rw [Dyadic.toRat_ofOdd_eq_mul_two_pow] at h ⊢
    by_cases hk : k ≤ 52
    · -- in units of `2⁻⁵²` the double is a whole number
      have hscale : (n : ℚ) * 2 ^ (-k) =
          ((n * 2 ^ (52 - k).toNat : Int) : ℚ) * 2 ^ (-52 : Int) := by
        push_cast
        rw [mul_assoc, ← zpow_natCast, Int.toNat_of_nonneg (by omega), ← zpow_add₀ two_ne_zero]
        congr 2
        omega
      have hunit : (2 ^ 52 : ℚ) * 2 ^ (-52 : Int) = 1 := by norm_num
      rw [hscale] at h ⊢
      generalize n * 2 ^ (52 - k).toNat = m at h ⊢
      have hpos : (0 : ℚ) < 2 ^ (-52 : Int) := by positivity
      have hm : (2 ^ 52 : ℚ) < m := by
        by_contra hle
        have := mul_le_mul_of_nonneg_right (not_lt.mp hle) hpos.le
        rw [hunit] at this
        linarith
      have hm' : (2 ^ 52 + 1 : Int) ≤ m := by
        have : ((2 ^ 52 : Int) : ℚ) < m := by exact_mod_cast hm
        exact Int.add_one_le_of_lt (Int.cast_lt.mp this)
      have hle : ((2 ^ 52 + 1 : Int) : ℚ) ≤ m := Int.cast_le.mpr hm'
      push_cast at hle
      calc (1 + 2 ^ (-52 : Int) : ℚ)
          = (2 ^ 52 + 1) * 2 ^ (-52 : Int) := by rw [add_mul, hunit, one_mul]
        _ ≤ m * 2 ^ (-52 : Int) := mul_le_mul_of_nonneg_right (by linarith) hpos.le
    · -- a finer double above `1` has more than 53 digits
      exfalso
      have hdigits : n.natAbs < 2 ^ 53 := hx.1
      have hsmall : (2 : ℚ) ^ (-k) ≤ 2 ^ (-53 : Int) :=
        zpow_le_zpow_right₀ one_le_two (by omega)
      have hn' : (n : ℚ) ≤ 2 ^ 53 := by
        have : n ≤ 2 ^ 53 := by omega
        exact_mod_cast this
      have hprod : (n : ℚ) * 2 ^ (-k) ≤ 2 ^ 53 * 2 ^ (-53 : Int) :=
        mul_le_mul hn' hsmall (by positivity) (by positivity)
      have hunit : (2 ^ 53 : ℚ) * 2 ^ (-53 : Int) = 1 := by norm_num
      rw [hunit] at hprod
      linarith

theorem toRat_afterOne : (Dyadic.ofIntWithPrec (2 ^ 52 + 1) 52).toRat = 1 + 2 ^ (-52 : Int) := by
  rw [Dyadic.toRat_ofIntWithPrec_eq_mul_two_pow]
  push_cast
  norm_num

/-- No double is between `1` and the next. -/
theorem neighbours_one : JsNumber.Neighbours (.ofNat 1) afterOne := by
  refine ⟨by decide, fun n hn => ?_⟩
  obtain ⟨habove, hbelow⟩ := hn
  have hone : JsNumber.ofNat 1 = .finite ⟨1, by decide⟩ := by decide
  rw [hone, JsNumber.lt_iff] at habove
  rw [JsNumber.lt_iff] at hbelow
  cases n with
  | finite d =>
    have habove : 1 < d.val.toRat := by
      have := WithBot.coe_lt_coe.mp habove.2.2
      rwa [WithTop.coe_lt_coe] at this
    have hbelow : d.val.toRat < 1 + 2 ^ (-52 : Int) := by
      have := WithBot.coe_lt_coe.mp hbelow.2.2
      rwa [WithTop.coe_lt_coe, toRat_afterOne] at this
    exact absurd (afterOne_le habove) (not_le.mpr hbelow)
  | nan => exact hbelow.1 rfl
  | negZero =>
    have habove : (1 : ℚ) < 0 := by
      have := WithBot.coe_lt_coe.mp habove.2.2
      rwa [WithTop.coe_lt_coe] at this
    exact absurd habove (by norm_num)
  | posInf => exact absurd hbelow.2.2 (by simp [JsNumber.rank])
  | negInf => exact absurd habove.2.2 (by simp [JsNumber.rank])

end Threshold

open Threshold in
/-- A policy that asks for a score above `1` and for one below the next double is warned
of, and no signals satisfy both. -/
theorem warned_in_vain :
    ∃ entries w, findRuleConflictsAt
        (policy (rule "above" .gt (.ofNat 1)) (rule "below" .lt afterOne)).document = .ok entries ∧
      (0, 1, w) ∈ entries ∧ w.level = .warning ∧
      ∀ re, ¬ BothSatisfied re (rule "above" .gt (.ofNat 1)) (rule "below" .lt afterOne) := by
  obtain ⟨entries, hentries, -, hmem⟩ :=
    compareRules_ok [rule "above" .gt (.ofNat 1), rule "below" .lt afterOne] 0
  have hone : OneFact (leaf .gt (.ofNat 1)) (leaf .lt afterOne) := ⟨rfl, rfl, rfl⟩
  have hapart : OperatorsApart (some .gt) (.json (.num (.ofNat 1))) (some .lt)
      (.json (.num afterOne)) :=
    ⟨_, _, rfl, rfl, .inr ⟨rfl, rfl, rfl, rfl, neighbours_one⟩⟩
  have hover : leafOverlap (leaf .gt (.ofNat 1)) (leaf .lt afterOne) = .definiteOverlap := by
    unfold leafOverlap
    rw [operatorOf_leaf, operatorOf_leaf]
    exact (operatorsApart_normalize.mpr hapart).overlap
  have hpair := comparePair_eq (a := rule "above" .gt (.ofNat 1)) (b := rule "below" .lt afterOne)
    rfl (hone.conditionsOverlap.trans (congrArg Except.ok hover))
  refine ⟨entries, _, hentries, (hmem 0 1 _ _ _ rfl rfl Nat.one_pos rfl).mpr hpair, rfl, ?_⟩
  rintro re ⟨signals, ha, hb⟩
  have hholds (op bound) (h : Satisfies re signals (leaf op bound)) :
      OpHolds re (some op) (.json (.num bound)) (JsValue.getFields signals "riskScore") := by
    rw [← operatorOf_leaf op bound]
    exact ((satisfies_leaf_iff rfl).mp h).2
  exact hapart.no_signal _ ⟨hholds _ _ ha, hholds _ _ hb⟩

/-- A closed range has its bound. -/
theorem Threshold.satisfies_bound {operator : PolicyOperator}
    (h : operator = .gte ∨ operator = .lte) :
    Satisfies noPatterns [("riskScore", .num (.ofNat 20))] (leaf operator (.ofNat 20)) := by
  refine (satisfies_leaf_iff rfl).mpr ⟨by decide, ?_⟩
  unfold LeafHolds
  rw [operatorOf_leaf]
  rcases h with rfl | rfl
  · exact ⟨_, rfl, by decide⟩
  · exact ⟨_, rfl, by decide⟩

open Threshold in
/-- Two closed ranges that share a bound only are reported, and a score of `20` satisfies
both. -/
theorem threshold_reported :
    ∃ entries, findRuleConflictsAt
        (policy (rule "high" .gte (.ofNat 20)) (rule "low" .lte (.ofNat 20))).document =
          .ok entries ∧
      BothSatisfied noPatterns (rule "high" .gte (.ofNat 20)) (rule "low" .lte (.ofNat 20)) ∧
      ∃ w, (0, 1, w) ∈ entries := by
  have hscalar (op) : ValueGiven (leaf op (.ofNat 20)) := .inr (.inl (by rfl))
  have hbetween : ¬ NothingBetween (leaf .gte (.ofNat 20)) (leaf .lte (.ofNat 20)) := by
    rintro ⟨-, high, low, hhigh, hlow, hapart⟩
    rw [operatorOf_leaf] at hhigh hlow
    cases hhigh
    cases hlow
    rcases hapart with ⟨h, -⟩ | ⟨-, -, h, -⟩
    · cases h
    · cases h
  obtain ⟨entries, hentries, h⟩ := conflicts_exact_iff noPatterns
    (policy (rule "high" .gte (.ofNat 20)) (rule "low" .lte (.ofNat 20))) rfl rfl Nat.one_pos rfl
    rfl (fun _ => hscalar .gte) (fun _ => hscalar .lte)
  have hboth : BothSatisfied noPatterns (rule "high" .gte (.ofNat 20))
      (rule "low" .lte (.ofNat 20)) :=
    ⟨_, satisfies_bound (.inl rfl), satisfies_bound (.inr rfl)⟩
  have hone : ¬ DifferentFacts (leaf .gte (.ofNat 20)) (leaf .lte (.ofNat 20)) :=
    fun hdifferent => absurd hdifferent.2.2 (by decide)
  exact ⟨entries, hentries, hboth, (h.mpr hbetween).2 hboth hone⟩

end Parmana.Policy

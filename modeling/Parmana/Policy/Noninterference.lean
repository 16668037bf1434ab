import Mathlib.Data.List.Dedup
import Parmana.Policy.SignalIntentBinder
import Parmana.Policy.WellFormed

/-! # What a caller can influence

A caller declares signals; the policy decides on them.  `SignalIntentBinder`
compares the signals a policy binds with the values of the Intent that will be
executed, and the validator refuses a policy that reads a fact which is neither
bound nor acknowledged.  Together they leave the caller no hidden lever: two
requests with the same Intent that pass the binder and agree on the acknowledged
facts get the same decision (`evaluate_noninterference`).

Three readers of the policy have to agree for this.  The collector of referenced
facts and the engine read a condition by different orders of its members, and
the binder compares by `===`, which takes the two zeros together; neither gap is
open, because the engine reads no fact the collector misses (`walk_covers`) and
no operator tells the zeros apart (`OperatorEvaluator.evaluate_merge`).
-/
namespace Parmana.Policy
open Js

/-! ## Facts and conditions -/

/-- Two signal maps have interchangeable values for a fact: the same, up to the
sign of a zero. -/
def AgreeOn (signals signals' : Fields) (fact : JsString) : Prop :=
  (JsValue.getFields signals fact).merge = (JsValue.getFields signals' fact).merge

section Conditions
variable {re : RegExp} {signals signals' : Fields}

theorem walkEach_covers {xs : List Json}
    (h : ∀ x ∈ xs, ∃ facts, walk x = .ok facts ∧
      ((∀ f ∈ facts, AgreeOn signals signals' f) →
        PolicyEngine.evaluateCondition re signals x =
          PolicyEngine.evaluateCondition re signals' x)) :
    ∃ facts, walkEach xs = .ok facts ∧
      ((∀ f ∈ facts, AgreeOn signals signals' f) → ∀ x ∈ xs,
        PolicyEngine.evaluateCondition re signals x =
          PolicyEngine.evaluateCondition re signals' x) := by
  induction xs with
  | nil => exact ⟨[], rfl, fun _ _ hx => absurd hx List.not_mem_nil⟩
  | cons x xs ih =>
    obtain ⟨⟨facts, hwalk, heval⟩, hxs⟩ := List.forall_mem_cons.mp h
    obtain ⟨rest, hrest, hevals⟩ := ih hxs
    refine ⟨facts ++ rest, by simp only [walkEach, hwalk, hrest, ok_bind]; rfl, fun hagree => ?_⟩
    rw [List.forall_mem_append] at hagree
    exact List.forall_mem_cons.mpr ⟨heval hagree.1, hevals hagree.2⟩

theorem everyChild_congr {xs : List Json}
    (h : ∀ x ∈ xs, PolicyEngine.evaluateCondition re signals x =
      PolicyEngine.evaluateCondition re signals' x) :
    PolicyEngine.everyChild re signals xs = PolicyEngine.everyChild re signals' xs := by
  induction xs with
  | nil => rfl
  | cons x xs ih =>
    obtain ⟨hx, hxs⟩ := List.forall_mem_cons.mp h
    rw [PolicyEngine.everyChild, PolicyEngine.everyChild, hx, ih hxs]

theorem someChild_congr {xs : List Json}
    (h : ∀ x ∈ xs, PolicyEngine.evaluateCondition re signals x =
      PolicyEngine.evaluateCondition re signals' x) :
    PolicyEngine.someChild re signals xs = PolicyEngine.someChild re signals' xs := by
  induction xs with
  | nil => rfl
  | cons x xs ih =>
    obtain ⟨hx, hxs⟩ := List.forall_mem_cons.mp h
    rw [PolicyEngine.someChild, PolicyEngine.someChild, hx, ih hxs]

theorem evaluateLeaf_congr {fs : Fields} {fact : JsString}
    (hfact : Fields.own? fs "fact" = some (.str fact)) (hagree : AgreeOn signals signals' fact) :
    PolicyEngine.evaluateLeaf re signals fs = PolicyEngine.evaluateLeaf re signals' fs := by
  rw [PolicyEngine.evaluateLeaf_eq signals hfact, PolicyEngine.evaluateLeaf_eq signals' hfact,
    ← OperatorEvaluator.evaluate_merge re (JsValue.getFields signals fact),
    ← OperatorEvaluator.evaluate_merge re (JsValue.getFields signals' fact), hagree]
  have hundefined : JsValue.getFields signals fact = .undefined ↔
      JsValue.getFields signals' fact = .undefined := by
    rw [← JsValue.merge_eq_undefined, hagree, JsValue.merge_eq_undefined]
  simp only [hundefined]

variable (signals signals') in
/-- **The engine reads no fact of a well-formed condition that the collector
misses.** -/
theorem walk_covers {c : Json} (h : WellFormed re c) :
    ∃ facts, walk c = .ok facts ∧
      ((∀ f ∈ facts, AgreeOn signals signals' f) →
        PolicyEngine.evaluateCondition re signals c =
          PolicyEngine.evaluateCondition re signals' c) := by
  induction h with
  | @leaf fs fact op hfact hop hpattern =>
    have hhas : Fields.has fs "fact" = true := by rw [Fields.has, hfact]; rfl
    refine ⟨[fact], ?_, fun hagree => ?_⟩
    · rw [walk, if_pos hhas, JsValue.getFields_own hfact]
    · rw [PolicyEngine.evaluateCondition_fact signals hhas,
        PolicyEngine.evaluateCondition_fact signals' hhas]
      exact evaluateLeaf_congr hfact (hagree fact (List.mem_singleton_self _))
  | @all fs xs hfact hall hxs ih =>
    have hhas : Fields.has fs "all" = true := by rw [Fields.has, hall]; rfl
    obtain ⟨facts, hwalk, heval⟩ := walkEach_covers ih
    refine ⟨facts, ?_, fun hagree => ?_⟩
    · rw [walk, if_neg (by simp [hfact]), if_pos hhas, walkGroup_eq hall, walkChildren, hwalk]
    · cases halways : Fields.has fs "always" with
      | true => rw [PolicyEngine.evaluateCondition_always signals hfact halways,
          PolicyEngine.evaluateCondition_always signals' hfact halways]
      | false =>
        rw [PolicyEngine.evaluateCondition_all signals hfact halways hall,
          PolicyEngine.evaluateCondition_all signals' hfact halways hall]
        exact everyChild_congr (heval hagree)
  | @any fs xs hfact hall hany hxs ih =>
    have hhas : Fields.has fs "any" = true := by rw [Fields.has, hany]; rfl
    obtain ⟨facts, hwalk, heval⟩ := walkEach_covers ih
    refine ⟨facts, ?_, fun hagree => ?_⟩
    · rw [walk, if_neg (by simp [hfact]), if_neg (by simp [hall]), if_pos hhas,
        walkGroup_eq hany, walkChildren, hwalk]
    · cases halways : Fields.has fs "always" with
      | true => rw [PolicyEngine.evaluateCondition_always signals hfact halways,
          PolicyEngine.evaluateCondition_always signals' hfact halways]
      | false =>
        rw [PolicyEngine.evaluateCondition_any signals hfact halways hall hany,
          PolicyEngine.evaluateCondition_any signals' hfact halways hall hany]
        exact someChild_congr (heval hagree)
  | @always fs hfact hall hany halways =>
    refine ⟨[], ?_, fun _ => ?_⟩
    · rw [walk, if_neg (by simp [hfact]), if_neg (by simp [hall]), if_neg (by simp [hany])]
    · have hhas : Fields.has fs "always" = true := by rw [Fields.has, halways]; rfl
      rw [PolicyEngine.evaluateCondition_always signals hfact hhas,
        PolicyEngine.evaluateCondition_always signals' hfact hhas]

end Conditions

/-! ## Policies -/

section Policies
variable {re : RegExp} {signals signals' : Fields}

variable (signals signals') in
/-- The collector covers what every rule reads. -/
theorem walkRules_covers (rs : List (AcceptedRule re)) :
    ∃ facts, walkRules (rs.map AcceptedRule.document) = .ok facts ∧
      ((∀ f ∈ facts, AgreeOn signals signals' f) → ∀ r ∈ rs,
        r.holds signals = r.holds signals') := by
  induction rs with
  | nil => exact ⟨[], rfl, fun _ _ hr => absurd hr List.not_mem_nil⟩
  | cons r rs ih =>
    obtain ⟨facts, hwalk, heval⟩ := walk_covers signals signals' r.wellFormed
    obtain ⟨rest, hrest, hholds⟩ := ih
    refine ⟨facts ++ rest, ?_, fun hagree => ?_⟩
    · rw [List.map_cons, walkRules, AcceptedRule.document, JsValue.member_own r.own_condition]
      simp only [ok_bind, hwalk, hrest]
      rfl
    · rw [List.forall_mem_append] at hagree
      refine List.forall_mem_cons.mpr ⟨?_, hholds hagree.2⟩
      rw [AcceptedRule.holds, AcceptedRule.holds, heval hagree.1]

variable (signals signals') in
/-- What the coverage check establishes: agreement on the bound, the unbound and
the approval signals is agreement on every rule. -/
theorem AcceptedPolicy.holds_congr (p : AcceptedPolicy re)
    (hagree : ∀ f, f ∈ boundKeys p.document ∨ f ∈ unboundKeys p.document ∨
      f ∈ approvalKeys p.document → AgreeOn signals signals' f) :
    ∀ r ∈ p.rules, r.holds signals = r.holds signals' := by
  obtain ⟨facts, hwalk, hholds⟩ := walkRules_covers signals signals' p.rules
  refine hholds fun f hf => hagree f ?_
  obtain ⟨_, hbound, _, hunbound, _, happroval, referenced, hreferenced, hfilter⟩ := by
    simpa only [findUncoveredFacts, bind_eq_ok] using p.covered
  cases JsValue.member_ok hbound
  cases JsValue.member_ok hunbound
  cases JsValue.member_ok happroval
  rw [collectReferencedFacts, hwalk] at hreferenced
  cases hreferenced
  have hnone := List.filter_eq_nil_iff.mp (Except.ok.inj hfilter) f
    (by rw [List.mem_insertionSort]; exact List.mem_dedup.mpr hf)
  simp only [Bool.and_eq_true, decide_eq_true_eq, List.mem_append, not_and, not_not] at hnone
  by_cases hb : f ∈ boundKeys p.document
  · exact .inl hb
  · exact .inr (hnone hb)

theorem traceIds_congr {rs : List (AcceptedRule re)}
    (h : ∀ r ∈ rs, r.holds signals = r.holds signals') :
    traceIds signals rs = traceIds signals' rs := by
  induction rs with
  | nil => rfl
  | cons r rs ih =>
    obtain ⟨hr, hrs⟩ := List.forall_mem_cons.mp h
    rw [traceIds, traceIds, hr, ih hrs]

theorem find?_congr {rs : List (AcceptedRule re)}
    (h : ∀ r ∈ rs, r.holds signals = r.holds signals') :
    rs.find? (·.holds signals) = rs.find? (·.holds signals') := by
  induction rs with
  | nil => rfl
  | cons r rs ih =>
    obtain ⟨hr, hrs⟩ := List.forall_mem_cons.mp h
    rw [List.find?_cons, List.find?_cons, hr, ih hrs]

theorem AcceptedPolicy.decision_congr {p : AcceptedPolicy re}
    (h : ∀ r ∈ p.rules, r.holds signals = r.holds signals') :
    p.decision signals = p.decision signals' := by
  simp only [AcceptedPolicy.decision, find?_congr h, traceIds_congr h]

end Policies

/-! ## Bound signals -/

/-- A binder that finds nothing has compared every bound signal with the value
at its path. -/
theorem checkBindings_nil {signals : Fields} {intent : IntentSnapshot} {bindings : Fields}
    (h : SignalIntentBinder.checkBindings signals intent bindings = .ok []) :
    ∀ k v, (k, v) ∈ bindings → ∃ path, v = .str path ∧
      (JsValue.getFields signals k).merge = (resolveIntentPath intent path).merge := by
  induction bindings with
  | nil => exact fun _ _ hmem => absurd hmem List.not_mem_nil
  | cons b rest ih =>
    obtain ⟨key, v⟩ := b
    cases v with
    | str path =>
      simp only [SignalIntentBinder.checkBindings] at h
      obtain ⟨violations, hrest, h⟩ := bind_eq_ok.mp h
      split at h
      · rename_i heq
        cases h
        intro k w hmem
        rcases List.mem_cons.mp hmem with hhead | htail
        · cases hhead
          exact ⟨path, rfl, JsValue.merge_eq_of_strictEq heq⟩
        · exact ih hrest k w htail
      · cases h
    | _ => cases h

/-- Two requests that pass the binder against one Intent agree on every bound
signal. -/
theorem agreeOn_of_bound {policy : Json} {intent : IntentSnapshot} {signals signals' : Fields}
    (h : SignalIntentBinder.findViolations policy signals intent = .ok [])
    (h' : SignalIntentBinder.findViolations policy signals' intent = .ok []) {f : JsString}
    (hf : f ∈ boundKeys policy) : AgreeOn signals signals' f := by
  simp only [SignalIntentBinder.findViolations, bind_eq_ok] at h h'
  obtain ⟨bindings, hbindings, h⟩ := h
  obtain ⟨bindings', hbindings', h'⟩ := h'
  cases JsValue.member_ok hbindings
  cases JsValue.member_ok hbindings'
  unfold boundKeys keysOrEmpty at hf
  split at hf
  · rename_i fs hfs
    rw [hfs, if_pos (by rfl)] at h h'
    obtain ⟨v, hv⟩ := Fields.mem_keys_iff_own.mp hf
    obtain ⟨path, rfl, hs⟩ := checkBindings_nil h f v (Fields.mem_entries.mpr hv)
    obtain ⟨_, hpath, hs'⟩ := checkBindings_nil h' f _ (Fields.mem_entries.mpr hv)
    cases hpath
    exact hs.trans hs'.symm
  · exact absurd hf List.not_mem_nil

/-- **Signal noninterference.**  Two signal maps that pass the binder against the
same Intent and agree on the unbound and the approval signals get the same
decision: outcome, reason, matched rule and path. -/
theorem evaluate_noninterference (re : RegExp) (policy : Json) (intent : IntentSnapshot)
    (signals signals' : Fields) (haccepted : Accepted re policy)
    (hbound : SignalIntentBinder.findViolations policy signals intent = .ok [])
    (hbound' : SignalIntentBinder.findViolations policy signals' intent = .ok [])
    (hagree : ∀ f, f ∈ unboundKeys policy ∨ f ∈ approvalKeys policy →
      AgreeOn signals signals' f) :
    ∃ d, PolicyEngine.evaluate re signals policy = .ok d ∧
      PolicyEngine.evaluate re signals' policy = .ok d := by
  obtain ⟨p, rfl⟩ := haccepted.policy
  have hholds := p.holds_congr signals signals' fun f hf =>
    hf.elim (agreeOn_of_bound hbound hbound') (hagree f)
  exact ⟨p.decision signals, p.evaluate_eq signals,
    (p.evaluate_eq signals').trans (congrArg _ (AcceptedPolicy.decision_congr hholds).symm)⟩

/-- A policy that approves zero amounts with an approval. -/
def zeroAmountPolicy : Json :=
  .obj [("policyId", "refunds"), ("policyVersion", "1"), ("schemaVersion", "1"),
    ("boundSignals", .obj [("amount", "parameters.amount")]),
    ("approvalSignals", .obj [("approved", .obj [("resourceId", "target")])]),
    ("rules", .arr [.obj [("id", "approve-zero"),
      ("condition", .obj [("all", .arr [
        .obj [("fact", "approved"), ("operator", "is_true")],
        .obj [("fact", "amount"), ("operator", "eq"), ("value", .num .zero)]])]),
      ("outcome", .obj [("action", "approve"), ("reason", "approved")])]])]

/-- Two callers of `zeroAmountPolicy` that differ in the sign of the zero they
declare and in a signal the policy does not know. -/
theorem zeroAmountPolicy_noninterference :
    ∃ d, PolicyEngine.evaluate ⟨fun _ => false, fun _ _ => false⟩
        [("approved", .bool true), ("amount", .num .zero)] zeroAmountPolicy = .ok d ∧
      PolicyEngine.evaluate ⟨fun _ => false, fun _ _ => false⟩
        [("approved", .bool true), ("amount", .num .negZero), ("admin", .bool true)]
        zeroAmountPolicy = .ok d :=
  evaluate_noninterference _ zeroAmountPolicy ⟨none, some [("amount", .num .zero)]⟩ _ _
    (by decide) (by decide) (by decide)
    (by
      have hkeys : unboundKeys zeroAmountPolicy = [] ∧
          approvalKeys zeroAmountPolicy = [("approved" : JsString)] := by decide
      intro f hf
      rw [hkeys.1, hkeys.2] at hf
      simp only [List.not_mem_nil, List.mem_singleton, false_or] at hf
      subst hf
      rfl)

end Parmana.Policy

import Parmana.Js.Comparison
import Parmana.Policy.Validator

/-! # Rules that overlap

`findRuleConflicts` compares every two rules of a policy that are not `always`, and
reports a pair whose conditions can hold at the same time: with a `WARNING` when it is
sure of it, with an `INFO` when it cannot tell.  It is sure of two bare facts only, by
their operators (`operatorOverlap`); of a bare fact and an `all`, or of two of them, it
can say that they never hold together, when some two of their conjuncts do not.

The entries are the output of two nested loops over `rules`, and an entry names its two
rules by their ids.  `findRuleConflictsAt` keeps the two positions beside each entry;
`findRuleConflicts` is what is left without them.
-/
namespace Parmana.Policy
open Js

/-! ## Operators -/

/-- What a comparison of two conditions comes to. -/
inductive Overlap where
  | noOverlap
  | definiteOverlap
  | needsReview
  deriving DecidableEq, Repr

/-- `normalizeBooleanOperator`. -/
def normalizeBooleanOperator (operator : Option PolicyOperator) (value : JsValue) :
    Option PolicyOperator × JsValue :=
  if operator = some .isTrue then (some .eq, .json (.bool true))
  else if operator = some .isFalse then (some .eq, .json (.bool false))
  else (operator, value)

/-- `POINT_OPS.has(operator)`. -/
def isPointOp (operator : Option PolicyOperator) : Bool :=
  operator = some .eq || operator = some .neq

/-- `RANGE_OPS.has(operator)`. -/
def isRangeOp (operator : Option PolicyOperator) : Bool :=
  operator = some .gt || operator = some .gte || operator = some .lt || operator = some .lte

/-- The `switch` of `toRay`. -/
def rayFrom (operator : Option PolicyOperator) (bound : JsNumber) : Option JsNumber.Ray :=
  if operator = some .lt then some ⟨.upper, bound, false⟩
  else if operator = some .lte then some ⟨.upper, bound, true⟩
  else if operator = some .gt then some ⟨.lower, bound, false⟩
  else if operator = some .gte then some ⟨.lower, bound, true⟩
  else none

/-- `toRay`. -/
def toRay (operator : Option PolicyOperator) : JsValue → Option JsNumber.Ray
  | .json (.num bound) => rayFrom operator bound
  | _ => none

/-- `raysOverlap` of two rays that point towards each other. -/
def facingOverlap (upper lower : JsNumber.Ray) : Bool :=
  if JsNumber.lt lower.bound upper.bound then true
  else if JsNumber.lt upper.bound lower.bound then false
  else upper.inclusive && lower.inclusive

/-- `raysOverlap`. -/
def raysOverlap (a b : JsNumber.Ray) : Bool :=
  if a.direction = b.direction then true
  else if a.direction = .upper then facingOverlap a b
  else facingOverlap b a

/-- `satisfies`: the value of an `eq` against the bound of a range. -/
def satisfies (eqValue : JsNumber) (rangeOp : Option PolicyOperator) (rangeValue : JsNumber) :
    Bool :=
  (rangeOp = some .gt && JsNumber.lt rangeValue eqValue) ||
  (rangeOp = some .gte && JsNumber.le rangeValue eqValue) ||
  (rangeOp = some .lt && JsNumber.lt eqValue rangeValue) ||
  (rangeOp = some .lte && JsNumber.le eqValue rangeValue)

/-- `x ? "DEFINITE_OVERLAP" : "NO_OVERLAP"`. -/
def definite (overlap : Bool) : Overlap := if overlap then .definiteOverlap else .noOverlap

/-- The comparison of two rays, when both are. -/
def rayOverlap : Option JsNumber.Ray → Option JsNumber.Ray → Overlap
  | some rayA, some rayB => definite (raysOverlap rayA rayB)
  | _, _ => .needsReview

/-- The comparison of an `eq` with a range, when both have numbers. -/
def pointOverlap (eqValue : JsValue) (rangeOp : Option PolicyOperator) (rangeValue : JsValue) :
    Overlap :=
  match eqValue, rangeValue with
  | .json (.num n), .json (.num bound) => definite (satisfies n rangeOp bound)
  | _, _ => .needsReview

/-- The comparison of two operators that are `eq` or `neq`. -/
def eqOverlap (opA : Option PolicyOperator) (valA : JsValue) (opB : Option PolicyOperator)
    (valB : JsValue) : Overlap :=
  if opA = some .eq ∧ opB = some .eq then definite (JsValue.strictEq valA valB)
  else if opA = some .neq ∧ opB = some .neq then .definiteOverlap
  else
    definite (!JsValue.strictEq (if opA = some .eq then valA else valB)
      (if opA = some .neq then valA else valB))

/-- `operatorOverlap`, once `is_true` and `is_false` are `eq`. -/
def normOverlap (opA : Option PolicyOperator) (valA : JsValue) (opB : Option PolicyOperator)
    (valB : JsValue) : Overlap :=
  if isPointOp opA && isPointOp opB then eqOverlap opA valA opB valB
  else if isRangeOp opA && isRangeOp opB then rayOverlap (toRay opA valA) (toRay opB valB)
  else if opA = some .eq && isRangeOp opB then pointOverlap valA opB valB
  else if opB = some .eq && isRangeOp opA then pointOverlap valB opA valA
  else .needsReview

/-- `operatorOverlap`. -/
def operatorOverlap (opA : Option PolicyOperator) (valA : JsValue) (opB : Option PolicyOperator)
    (valB : JsValue) : Overlap :=
  let normA := normalizeBooleanOperator opA valA
  let normB := normalizeBooleanOperator opB valB
  normOverlap normA.1 normA.2 normB.1 normB.2

/-! ## Conditions -/

/-- The operator of a leaf; `none` for one that is not supported. -/
def operatorOf (leaf : Fields) : Option PolicyOperator :=
  PolicyOperator.ofValue? (JsValue.getFields leaf "operator")

/-- `operatorOverlap` of two leaves. -/
def leafOverlap (a b : Fields) : Overlap :=
  operatorOverlap (operatorOf a) (JsValue.getFields a "value") (operatorOf b)
    (JsValue.getFields b "value")

/-- `a.fact === b.fact`. -/
def sameFact (a b : Fields) : Bool :=
  JsValue.strictEq (JsValue.getFields a "fact") (JsValue.getFields b "fact")

/-- The members that `in` finds in a condition; an array has none of the names asked for,
and `in` throws on anything that is not an object. -/
def conditionFields : Json → Except JsError Fields
  | .obj fs => .ok fs
  | .arr _ => .ok []
  | _ => typeError

/-- `conjuncts` as a `for … of` reads them; the characters of a string throw in the loop. -/
def conjunctsOf (condition : Fields) : Except JsError (List Json) :=
  match JsValue.getFields condition "all" with
  | .json (.arr xs) => .ok xs
  | .json (.str s) => if s.isEmpty then .ok [] else typeError
  | _ => typeError

/-- The loop over conjuncts: whether some leaf on the same fact overlaps in nothing. -/
def anyDisjoint (leaf : Fields) (overlap : Fields → Overlap) : List Json → Except JsError Bool
  | [] => .ok false
  | conjunct :: conjuncts => do
    let fs ← conditionFields conjunct
    if Fields.has fs "fact" && sameFact fs leaf && overlap fs = .noOverlap then return true
    else anyDisjoint leaf overlap conjuncts

/-- `leafVersusAllOverlap`. -/
def leafVersusAllOverlap (leaf : Fields) (conjuncts : List Json) : Except JsError Overlap := do
  if ← anyDisjoint leaf (fun conjunct => leafOverlap conjunct leaf) conjuncts then return .noOverlap
  else return .needsReview

/-- The inner loop of the comparison of two `all`: one conjunct of the first with every
conjunct of the second. -/
def conjunctDisjoint (conjunctA condB : Fields) : Except JsError Bool :=
  if Fields.has conjunctA "fact" then do
    anyDisjoint conjunctA (fun conjunctB => leafOverlap conjunctA conjunctB) (← conjunctsOf condB)
  else .ok false

/-- The comparison of two `all`. -/
def allVersusAllOverlap (condB : Fields) : List Json → Except JsError Overlap
  | [] => .ok .needsReview
  | conjunct :: conjuncts => do
    if ← conjunctDisjoint (← conditionFields conjunct) condB then return .noOverlap
    else allVersusAllOverlap condB conjuncts

/-- `conditionsOverlap`. -/
def conditionsOverlap (condA condB : Fields) : Except JsError Overlap :=
  if Fields.has condA "fact" && Fields.has condB "fact" then
    if sameFact condA condB then .ok (leafOverlap condA condB) else .ok .noOverlap
  else if Fields.has condA "fact" && Fields.has condB "all" then do
    leafVersusAllOverlap condA (← conjunctsOf condB)
  else if Fields.has condB "fact" && Fields.has condA "all" then do
    leafVersusAllOverlap condB (← conjunctsOf condA)
  else if Fields.has condA "all" && Fields.has condB "all" then do
    allVersusAllOverlap condB (← conjunctsOf condA)
  else .ok .needsReview

/-! ## Rules -/

inductive ConflictLevel where
  | warning
  | info
  deriving DecidableEq, Repr

/-- `RuleConflictWarning`. -/
structure RuleConflictWarning where
  level : ConflictLevel
  ruleId : JsValue
  conflictingRuleId : JsValue
  message : JsString

/-- The message for an `always` rule that is not the last. -/
def shadowedMessage (rule shadowed : JsString) : JsString :=
  "Rule " ++ quoted rule ++ (" has an 'always: true' condition but is not " ++
    "the last rule -- every rule after it, starting with " : String) ++ quoted shadowed ++
    ", can never be reached."

/-- The message for a pair that overlaps. -/
def overlapMessage (a b : JsString) : JsString :=
  "Rule " ++ quoted a ++ " and rule " ++ quoted b ++ (" have overlapping " ++
    "conditions on the same fact. First-match-wins means " : String) ++ quoted a ++
    (" takes precedence for any input that satisfies both; if that is " ++
    "not intended, reorder or refine the conditions." : String)

/-- The message for a pair that is left to a reviewer. -/
def reviewMessage (a b : JsString) : JsString :=
  "Rule " ++ quoted a ++ " and rule " ++ quoted b ++ (" both reference " ++
    "conditions this checker does not fully analyze (a nested " ++
    "'all'/'any', or an operator pairing it does not model) -- " ++
    "manual review recommended to confirm no unintended overlap." : String)

/-- An entry about two rules, with their ids in it. -/
def conflict (level : ConflictLevel) (message : JsString → JsString → JsString)
    (ruleA ruleB : Json) : Except JsError RuleConflictWarning := do
  let ruleId ← JsValue.member (.json ruleA) "id"
  let conflictingRuleId ← JsValue.member (.json ruleB) "id"
  let text := message (← ruleId.toText) (← conflictingRuleId.toText)
  return ⟨level, ruleId, conflictingRuleId, text⟩

/-- The entry an overlap is reported by. -/
def report (ruleA ruleB : Json) : Overlap → Except JsError (Option RuleConflictWarning)
  | .noOverlap => .ok none
  | .definiteOverlap => some <$> conflict .warning overlapMessage ruleA ruleB
  | .needsReview => some <$> conflict .info reviewMessage ruleA ruleB

/-- `rule.condition`, as the members `in` finds in it. -/
def ruleCondition (rule : Json) : Except JsError Fields := do
  conditionFields (← JsValue.jsonMember (.json rule) "condition")

/-- `isAlways`. -/
def isAlways (condition : Fields) : Bool := Fields.has condition "always"

/-- The body of the inner loop. -/
def comparePair (ruleA : Json) (condA : Fields) (ruleB : Json) :
    Except JsError (Option RuleConflictWarning) := do
  let condB ← ruleCondition ruleB
  if isAlways condB then return none
  else report ruleA ruleB (← conditionsOverlap condA condB)

/-- The inner loop, from position `j` on. -/
def compareRest (i : Nat) (ruleA : Json) (condA : Fields) :
    Nat → List Json → Except JsError (List (Nat × Nat × RuleConflictWarning))
  | _, [] => .ok []
  | j, ruleB :: rules => do
    let entry ← comparePair ruleA condA ruleB
    let later ← compareRest i ruleA condA (j + 1) rules
    return (entry.map (fun w => (i, j, w))).toList ++ later

/-- The entry for an `always` rule, unless it is the last. -/
def shadowing (i : Nat) (ruleA : Json) :
    List Json → Except JsError (List (Nat × Nat × RuleConflictWarning))
  | [] => .ok []
  | shadowed :: _ => do
    return [(i, i + 1, ← conflict .warning shadowedMessage ruleA shadowed)]

/-- One turn of the outer loop. -/
def compareRule (i : Nat) (ruleA : Json) (rules : List Json) :
    Except JsError (List (Nat × Nat × RuleConflictWarning)) := do
  let condA ← ruleCondition ruleA
  if isAlways condA then shadowing i ruleA rules else compareRest i ruleA condA (i + 1) rules

/-- The outer loop, from position `i` on. -/
def compareRules : Nat → List Json → Except JsError (List (Nat × Nat × RuleConflictWarning))
  | _, [] => .ok []
  | i, ruleA :: rules => do
    let entries ← compareRule i ruleA rules
    let later ← compareRules (i + 1) rules
    return entries ++ later

/-- The entries of `findRuleConflicts`, each with the positions of its two rules. -/
def findRuleConflictsAt (policy : Json) :
    Except JsError (List (Nat × Nat × RuleConflictWarning)) := do
  match ← JsValue.jsonMember (.json policy) "rules" with
  | .arr rules => compareRules 0 rules
  | _ => typeError

/-- `PolicyValidator.findRuleConflicts`. -/
def findRuleConflicts (policy : Json) : Except JsError (List RuleConflictWarning) := do
  return (← findRuleConflictsAt policy).map (fun entry => entry.2.2)

end Parmana.Policy

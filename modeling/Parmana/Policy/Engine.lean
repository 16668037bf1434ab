import Parmana.Policy.Validator

/-! # The policy engine

`PolicyEngine.evaluate` runs the rules of one policy in order against the
declared signals: the first rule whose condition holds decides, and when none
does the outcome is `REJECT`.

The engine reads a condition by its members `fact`, `always`, `all`, `any`, in
that order, where the validator asks for `always` last.  On a condition that has
one of the four the two orders agree; `Policy.ApprovalGate` is about the
conditions that have more.
-/
namespace Parmana.Policy
open Js

/-- What a policy decides. -/
inductive PolicyOutcome where
  | approve
  | reject
  deriving DecidableEq, Repr

/-- `PolicyDecision`. -/
structure PolicyDecision where
  policyId : JsValue
  policyVersion : JsValue
  outcome : PolicyOutcome
  reason : JsValue
  matchedRuleId : JsValue
  evaluatedRules : Nat
  matchedPath : List JsValue
  deriving DecidableEq

namespace PolicyEngine
variable (re : RegExp) (signals : Fields)

/-- The leaf branch of `evaluateCondition`: a missing fact satisfies nothing. -/
def evaluateLeaf (fs : Fields) : Except EvaluationError Bool := do
  let fact ← (JsValue.getFields fs "fact").toText
  let signal := JsValue.getFields signals fact
  if signal = .undefined then return false
  OperatorEvaluator.evaluate re signal (JsValue.getFields fs "operator")
    (JsValue.getFields fs "value")

mutual

/-- `evaluateCondition`: leaf, then `always`, then `all`, then `any`. -/
def evaluateCondition : Json → Except EvaluationError Bool
  | .obj fs =>
    if Fields.has fs "fact" then evaluateLeaf re signals fs
    else if Fields.has fs "always" then .ok true
    else if Fields.has fs "all" then evaluateAll fs
    else if Fields.has fs "any" then evaluateAny fs
    else .ok false
  | .arr _ => .ok false
  | _ => typeError

/-- The `all` branch, on the member of that name. -/
def evaluateAll : List (JsString × Json) → Except EvaluationError Bool
  | [] => typeError
  | (k, v) :: fs => if "all" = k then evaluateEvery v else evaluateAll fs

/-- The `any` branch, on the member of that name. -/
def evaluateAny : List (JsString × Json) → Except EvaluationError Bool
  | [] => typeError
  | (k, v) :: fs => if "any" = k then evaluateSome v else evaluateAny fs

/-- `condition.all.every(…)`. -/
def evaluateEvery : Json → Except EvaluationError Bool
  | .arr xs => everyChild xs
  | _ => typeError

/-- `condition.any.some(…)`. -/
def evaluateSome : Json → Except EvaluationError Bool
  | .arr xs => someChild xs
  | _ => typeError

/-- Every child holds; none after the first that does not is evaluated. -/
def everyChild : List Json → Except EvaluationError Bool
  | [] => .ok true
  | x :: xs => do
    if ← evaluateCondition x then everyChild xs else return false

/-- Some child holds; none after it is evaluated. -/
def someChild : List Json → Except EvaluationError Bool
  | [] => .ok false
  | x :: xs => do
    if ← evaluateCondition x then return true else someChild xs

end

/-- `rules` as a `for … of` reads them; the characters of a string have no
condition to test. -/
def iterate : JsValue → Except EvaluationError (List Json)
  | .json (.arr xs) => .ok xs
  | .json (.str s) => if s.isEmpty then .ok [] else typeError
  | _ => typeError

/-- `findFirstMatch`: the rule and the trace of ids up to it. -/
def findFirstMatch : List Json → Except EvaluationError (Option Json × List JsValue)
  | [] => .ok (none, [])
  | rule :: rules => do
    let id ← JsValue.member (.json rule) "id"
    if ← evaluateCondition re signals (← JsValue.jsonMember (.json rule) "condition") then
      return (rule, [id])
    let (found, trace) ← findFirstMatch rules
    return (found, id :: trace)

/-- `toOutcome`. -/
def toOutcome (action : JsValue) : PolicyOutcome :=
  if JsValue.strictEq action (.json (.str "approve")) then .approve else .reject

/-- `PolicyEngine.evaluate`. -/
def evaluate (policy : Json) : Except EvaluationError PolicyDecision := do
  let rules ← iterate (← JsValue.member (.json policy) "rules")
  let (found, trace) ← findFirstMatch re signals rules
  let (outcome, reason, id) ← match found with
    | none => pure (.reject, .json (.str "no_rule_matched"), .json (.str "none"))
    | some rule => do
      let outcome ← JsValue.member (.json rule) "outcome"
      let action ← outcome.member "action"
      let reason ← outcome.member "reason"
      let id ← JsValue.member (.json rule) "id"
      pure (toOutcome action, orDefault reason "no_rule_matched", orDefault id "none")
  return {
    policyId := (JsValue.json policy).get "policyId"
    policyVersion := (JsValue.json policy).get "policyVersion"
    outcome := outcome
    reason := reason
    matchedRuleId := id
    evaluatedRules := trace.length
    matchedPath := trace }

end PolicyEngine
end Parmana.Policy

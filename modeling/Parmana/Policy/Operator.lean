import Parmana.Js.Value

/-! # Policy operators

The leaf of a policy condition compares one runtime signal with a value the
policy gives, by one of twenty-eight operators.  `OperatorEvaluator.evaluate` is
that comparison.  It is total on the operators the validator knows and throws on
any other; `matches` also throws when the policy's pattern is not a regular
expression.

The regular expression engine is the language's own and is taken as a parameter:
which patterns it accepts and which inputs each accepts.
-/
namespace Parmana.Policy
open Js

/-- The regular expression engine: `new RegExp(p)` and `new RegExp(p).test(s)`. -/
structure RegExp where
  valid : JsString → Bool
  test : JsString → JsString → Bool

/-- The supported policy operators. -/
inductive PolicyOperator where
  | eq | neq
  | gt | gte | lt | lte | between
  | «in» | notIn | contains | notContains | containsAll | containsAny
  | startsWith | endsWith | «matches»
  | exists | notExists
  | isTrue | isFalse
  | isNull | isNotNull
  | lengthEq | lengthGt | lengthGte | lengthLt | lengthLte
  | typeIs
  deriving DecidableEq, Repr

namespace PolicyOperator

/-- The name a policy document writes an operator by. -/
def text : PolicyOperator → JsString
  | eq => "eq" | neq => "neq"
  | gt => "gt" | gte => "gte" | lt => "lt" | lte => "lte" | between => "between"
  | «in» => "in" | notIn => "not_in"
  | contains => "contains" | notContains => "not_contains"
  | containsAll => "contains_all" | containsAny => "contains_any"
  | startsWith => "starts_with" | endsWith => "ends_with" | «matches» => "matches"
  | «exists» => "exists" | notExists => "not_exists"
  | isTrue => "is_true" | isFalse => "is_false"
  | isNull => "is_null" | isNotNull => "is_not_null"
  | lengthEq => "length_eq" | lengthGt => "length_gt" | lengthGte => "length_gte"
  | lengthLt => "length_lt" | lengthLte => "length_lte"
  | typeIs => "type_is"

/-- The operators, in the order `PolicyValidator.OPERATORS` lists them. -/
def all : List PolicyOperator :=
  [eq, neq, gt, gte, lt, lte, between, «in», notIn, contains, notContains, containsAll,
    containsAny, startsWith, endsWith, «matches», «exists», notExists, isTrue, isFalse, isNull,
    isNotNull, lengthEq, lengthGt, lengthGte, lengthLt, lengthLte, typeIs]

/-- The operator a document's `operator` member names, if it is a supported one. -/
def ofValue? (v : JsValue) : Option PolicyOperator :=
  all.find? (fun op => JsValue.strictEq v (.json (.str op.text)))

@[simp] theorem ofValue?_text (op : PolicyOperator) :
    ofValue? (.json (.str op.text)) = some op := by
  cases op <;> decide

end PolicyOperator

/-- Why evaluating a policy throws. -/
inductive EvaluationError where
  | typeError
  | unsupportedOperator
  | invalidRegExp
  deriving DecidableEq, Repr

instance : HasTypeError EvaluationError := ⟨.typeError⟩

namespace OperatorEvaluator

/-- The private `length`: of a string, an array or an object, and zero of
anything else. -/
def length : JsValue → JsNumber
  | .json (.str s) => .ofNat s.length
  | .json (.arr xs) => .ofNat xs.length
  | .json (.obj fs) => .ofNat (Fields.keys fs).length
  | _ => .ofNat 0

/-- The private `typeOf`. -/
def typeOf : JsValue → JsString
  | .json .null => "null"
  | .json (.arr _) | .prototype .array => "array"
  | .json (.str _) => "string"
  | .json (.num _) => "number"
  | .json (.bool _) => "boolean"
  | .json (.obj _) | .prototype .object => "object"
  | .undefined | .function .. => "unknown"

/-- A comparison of two numbers; false when either side is not one. -/
def onNumbers (f : JsNumber → JsNumber → Bool) : JsValue → JsValue → Bool
  | .json (.num a), .json (.num b) => f a b
  | _, _ => false

/-- A comparison of two strings; false when either side is not one. -/
def onStrings (f : JsString → JsString → Bool) : JsValue → JsValue → Bool
  | .json (.str a), .json (.str b) => f a b
  | _, _ => false

/-- `xs.includes(v)`. -/
def includes (xs : List Json) (v : JsValue) : Bool :=
  xs.any (fun x => JsValue.sameValueZero (.json x) v)

/-- The elements of an array; `Array.prototype` is itself an empty one. -/
def array? : JsValue → Option (List Json)
  | .json (.arr xs) => some xs
  | .prototype .array => some []
  | _ => none

/-- `this.length(actual)` compared with a numeric bound. -/
def onLength (f : JsNumber → JsNumber → Bool) (actual expected : JsValue) : Bool :=
  match expected with
  | .json (.num n) => f (length actual) n
  | _ => false

/-- `between`: the policy gives the two bounds as an array of length two. -/
def between (actual : JsValue) : JsValue → Bool
  | .json (.arr [lo, hi]) =>
    onNumbers (fun a b => JsNumber.le b a) actual (.json lo) &&
      onNumbers JsNumber.le actual (.json hi)
  | _ => false

/-- `matches`: `new RegExp(pattern)` throws on an invalid pattern. -/
def evaluateMatches (re : RegExp) : JsValue → JsValue → Except EvaluationError Bool
  | .json (.str s), .json (.str p) =>
    if re.valid p then .ok (re.test p s) else .error .invalidRegExp
  | _, _ => .ok false

/-- Evaluates a supported operator. -/
def evaluateSupported (re : RegExp) (actual : JsValue) (operator : PolicyOperator)
    (expected : JsValue) : Except EvaluationError Bool :=
  match operator with
  | .eq => .ok (JsValue.strictEq actual expected)
  | .neq => .ok (!JsValue.strictEq actual expected)
  | .gt => .ok (onNumbers (fun a b => JsNumber.lt b a) actual expected)
  | .gte => .ok (onNumbers (fun a b => JsNumber.le b a) actual expected)
  | .lt => .ok (onNumbers JsNumber.lt actual expected)
  | .lte => .ok (onNumbers JsNumber.le actual expected)
  | .between => .ok (between actual expected)
  | .in => .ok ((array? expected).any (fun xs => includes xs actual))
  | .notIn => .ok ((array? expected).any (fun xs => !includes xs actual))
  | .contains =>
    .ok ((array? actual).any (fun xs => expected ≠ .undefined && includes xs expected))
  | .notContains =>
    .ok ((array? actual).any (fun xs => expected ≠ .undefined && !includes xs expected))
  | .containsAll =>
    .ok ((array? actual).any (fun xs => (array? expected).any (fun ys =>
      ys.all (fun y => includes xs (.json y)))))
  | .containsAny =>
    .ok ((array? actual).any (fun xs => (array? expected).any (fun ys =>
      ys.any (fun y => includes xs (.json y)))))
  | .startsWith => .ok (onStrings JsString.startsWith actual expected)
  | .endsWith => .ok (onStrings JsString.endsWith actual expected)
  | .matches => evaluateMatches re actual expected
  | .exists => .ok (actual ≠ .undefined && actual ≠ .json .null)
  | .notExists => .ok (actual = .undefined || actual = .json .null)
  | .isTrue => .ok (JsValue.strictEq actual (.json (.bool true)))
  | .isFalse => .ok (JsValue.strictEq actual (.json (.bool false)))
  | .isNull => .ok (JsValue.strictEq actual (.json .null))
  | .isNotNull => .ok (!JsValue.strictEq actual (.json .null))
  | .lengthEq => .ok (onLength JsNumber.eq actual expected)
  | .lengthGt => .ok (onLength (fun a b => JsNumber.lt b a) actual expected)
  | .lengthGte => .ok (onLength (fun a b => JsNumber.le b a) actual expected)
  | .lengthLt => .ok (onLength JsNumber.lt actual expected)
  | .lengthLte => .ok (onLength JsNumber.le actual expected)
  | .typeIs => .ok (onStrings (· == ·) (.json (.str (typeOf actual))) expected)

/-- `OperatorEvaluator.evaluate`: an operator the switch does not name throws. -/
def evaluate (re : RegExp) (actual operator expected : JsValue) :
    Except EvaluationError Bool :=
  match PolicyOperator.ofValue? operator with
  | some op => evaluateSupported re actual op expected
  | none => .error .unsupportedOperator

/-- The pattern of a `matches` condition the validator lets through. -/
def PatternValid (re : RegExp) (op : PolicyOperator) (expected : JsValue) : Prop :=
  op = .matches → ∃ p, expected = .json (.str p) ∧ re.valid p = true

/-- A supported operator with a valid pattern always answers. -/
theorem evaluateSupported_ok (re : RegExp) (actual expected : JsValue) {op : PolicyOperator}
    (h : PatternValid re op expected) : ∃ b, evaluateSupported re actual op expected = .ok b := by
  cases op with
  | «matches» =>
    obtain ⟨p, rfl, hp⟩ := h rfl
    rw [evaluateSupported, evaluateMatches.eq_def]
    split
    · rename_i heq
      cases heq
      exact ⟨_, if_pos hp⟩
    · exact ⟨_, rfl⟩
  | _ => exact ⟨_, rfl⟩

/-- `is_true` holds of `true` and of nothing else. -/
theorem evaluateSupported_isTrue (re : RegExp) (actual expected : JsValue) :
    evaluateSupported re actual .isTrue expected = .ok true ↔ actual = .json (.bool true) := by
  unfold evaluateSupported
  rw [Except.ok.injEq, JsValue.strictEq_true_iff]

theorem includes_merge (xs : List Json) (a : JsValue) : includes xs a.merge = includes xs a := by
  refine JsValue.apply_merge (includes xs) (fun n => List.any_congr rfl fun x => ?_) a
  unfold JsValue.sameValueZero
  cases x <;> simp [JsValue.strictEq]

/-- **No operator tells the two zeros apart** in the signal it reads. -/
theorem evaluate_merge (re : RegExp) (actual operator expected : JsValue) :
    evaluate re actual.merge operator expected = evaluate re actual operator expected := by
  refine JsValue.apply_merge (fun a => evaluate re a operator expected) (fun n => ?_) actual
  have hincludes (xs : List Json) := includes_merge xs (.json (.num n))
  have heq (v : JsValue) : JsValue.strictEq (.json (.num n.merge)) v =
      JsValue.strictEq (.json (.num n)) v := by
    rcases v with _ | j | _ | _
    · rfl
    · cases j <;> simp [JsValue.strictEq]
    · rfl
    · rfl
  have hcompare {f : JsNumber → JsNumber → Bool} (hf : ∀ b, f n.merge b = f n b) (v : JsValue) :
      onNumbers f (.json (.num n.merge)) v = onNumbers f (.json (.num n)) v := by
    rcases v with _ | j | _ | _
    · rfl
    · cases j <;> simp [onNumbers, hf]
    · rfl
    · rfl
  have hbetween : between (.json (.num n.merge)) expected = between (.json (.num n)) expected := by
    unfold between
    split
    · rw [hcompare (by simp), hcompare (by simp)]
    · rfl
  unfold evaluate
  cases PolicyOperator.ofValue? operator with
  | none => rfl
  | some op =>
    cases op with
    | eq | neq | isTrue | isFalse | isNull | isNotNull => simp only [evaluateSupported, heq]
    | gt | gte | lt | lte => exact congrArg Except.ok (hcompare (by simp) expected)
    | between => exact congrArg Except.ok hbetween
    | «in» | notIn =>
      refine congrArg Except.ok ?_
      cases array? expected with
      | none => rfl
      | some xs => simp only [Option.any_some, show JsValue.json (.num n.merge) =
          (JsValue.json (.num n)).merge from rfl, hincludes]
    | _ => rfl

end OperatorEvaluator
end Parmana.Policy

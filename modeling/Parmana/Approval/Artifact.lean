import Parmana.Js.Value

/-! # Approval artifacts

An approval artifact arrives as one of the caller's signals, an arbitrary JSON
value.  `isSignedApprovalShape` is the guard that looks at every member the
verification reads; `SignedApproval` is a value together with the proof that it
passed, so the members can be read without a further test.

`evaluateApprovalScope` says whether an approval's scope covers a value.  It is
specified by `Covers`, which lists the six comparators and the one kind of bound
each takes.
-/
namespace Parmana.Approval
open Js

/-- `typeof value === "string"`. -/
def isString : JsValue → Bool
  | .json (.str _) => true
  | _ => false

/-- `typeof value === "number"`. -/
def isNumber : JsValue → Bool
  | .json (.num _) => true
  | _ => false

/-- `isApprovalScopeShape`. -/
def isApprovalScopeShape (scope : JsValue) : Bool :=
  let bound := scope.get "value"
  scope.isObject && isString (scope.get "field") && isString (scope.get "comparator") &&
    (isNumber bound || isString bound ||
      (bound.isObject && isNumber (bound.get "min") && isNumber (bound.get "max")))

/-- `SUPPORTED_PAYLOAD_VERSION`. -/
def supportedPayloadVersion : JsValue := .json (.num (.ofNat 1))

/-- `isSignedApprovalShape`. -/
def isSignedApprovalShape (artifact : JsValue) : Bool :=
  let payload := artifact.get "payload"
  let signature := artifact.get "signature"
  let issuer := payload.get "issuer"
  artifact.isObject && payload.isObject && signature.isObject && issuer.isObject &&
    JsValue.strictEq (payload.get "version") supportedPayloadVersion &&
    isString (payload.get "approvalId") && isString (payload.get "issuedAt") &&
    isString (payload.get "expiresAt") && isString (payload.get "capability") &&
    isString (payload.get "resourceId") && isString (payload.get "nonce") &&
    isString (issuer.get "approverId") && isString (issuer.get "keyId") &&
    isApprovalScopeShape (payload.get "scope") && isString (signature.get "value") &&
    isString (signature.get "algorithm") && isString (signature.get "keyId")

/-- A value that passed the guard. -/
structure SignedApproval where
  value : JsValue
  shape : isSignedApprovalShape value = true

/-- The text of a member that holds a string. -/
def textOf : JsValue → JsString
  | .json (.str s) => s
  | _ => ""

theorem eq_textOf {v : JsValue} (h : isString v = true) : v = .json (.str (textOf v)) := by
  unfold isString at h
  split at h
  · rfl
  · cases h

namespace SignedApproval
variable (a : SignedApproval)

def payload : JsValue := a.value.get "payload"

def issuer : JsValue := a.payload.get "issuer"

def scope : JsValue := a.payload.get "scope"

def approverId : JsString := textOf (a.issuer.get "approverId")

def keyId : JsString := textOf (a.issuer.get "keyId")

def expiresAt : JsString := textOf (a.payload.get "expiresAt")

def capability : JsString := textOf (a.payload.get "capability")

def resourceId : JsString := textOf (a.payload.get "resourceId")

def nonce : JsString := textOf (a.payload.get "nonce")

def signatureValue : JsString := textOf ((a.value.get "signature").get "value")

/-- The guard has tested the version, so the verifier's own test never fails. -/
theorem version_supported :
    JsValue.strictEq (a.payload.get "version") supportedPayloadVersion = true := by
  have h := a.shape
  simp only [isSignedApprovalShape, Bool.and_eq_true] at h
  exact h.1.1.1.1.1.1.1.1.1.1.1.1.2

/-- An artifact is a document: the members it is read by are its own. -/
theorem value_eq_json : ∃ j, a.value = .json j := by
  have hcapability : isString (a.payload.get "capability") = true := by
    have h := a.shape
    simp only [isSignedApprovalShape, Bool.and_eq_true] at h
    exact h.1.1.1.1.1.1.1.1.2
  obtain ⟨fs, hpayload, -⟩ := JsValue.get_eq_json (by decide) (eq_textOf hcapability)
  obtain ⟨fs', hvalue, -⟩ := JsValue.get_eq_json (by decide) hpayload
  exact ⟨_, hvalue⟩

end SignedApproval

/-! ## Scopes -/

/-- A numeric bound. -/
def onNumberBound (value : JsValue) (test : JsNumber → Bool) : Bool :=
  match value with
  | .json (.num n) => test n
  | _ => false

/-- `comparator === name`. -/
def comparatorIs (scope : JsValue) (name : JsString) : Bool :=
  JsValue.strictEq (scope.get "comparator") (.json (.str name))

theorem comparatorIs_iff {scope : JsValue} {name : JsString} :
    comparatorIs scope name = true ↔ scope.get "comparator" = .json (.str name) :=
  ⟨JsValue.eq_of_strictEq (by simp), fun h => by simp [comparatorIs, h, JsValue.strictEq]⟩

/-- `evaluateApprovalScope`. -/
def evaluateApprovalScope (actual scope : JsValue) : Bool :=
  let value := scope.get "value"
  if comparatorIs scope "eq" then JsValue.strictEq actual value
  else match actual with
    | .json (.num n) =>
      if comparatorIs scope "between" then
        onNumberBound (value.get "min") fun min =>
          onNumberBound (value.get "max") fun max => JsNumber.le min n && JsNumber.le n max
      else onNumberBound value fun bound =>
        if comparatorIs scope "lte" then JsNumber.le n bound
        else if comparatorIs scope "gte" then JsNumber.le bound n
        else if comparatorIs scope "lt" then JsNumber.lt n bound
        else if comparatorIs scope "gt" then JsNumber.lt bound n
        else false
    | _ => false

/-- A scope covers a value: the comparator holds of the value and the bound.
`between` takes a range, the other orders a number, and `eq` takes anything. -/
inductive Covers (scope actual : JsValue) : Prop where
  | eq (comparator : scope.get "comparator" = .json "eq")
      (holds : JsValue.strictEq actual (scope.get "value") = true)
  | lte {n bound} (comparator : scope.get "comparator" = .json "lte")
      (number : actual = .json (.num n)) (value : scope.get "value" = .json (.num bound))
      (holds : JsNumber.le n bound = true)
  | gte {n bound} (comparator : scope.get "comparator" = .json "gte")
      (number : actual = .json (.num n)) (value : scope.get "value" = .json (.num bound))
      (holds : JsNumber.le bound n = true)
  | lt {n bound} (comparator : scope.get "comparator" = .json "lt")
      (number : actual = .json (.num n)) (value : scope.get "value" = .json (.num bound))
      (holds : JsNumber.lt n bound = true)
  | gt {n bound} (comparator : scope.get "comparator" = .json "gt")
      (number : actual = .json (.num n)) (value : scope.get "value" = .json (.num bound))
      (holds : JsNumber.lt bound n = true)
  | between {n lo hi} (comparator : scope.get "comparator" = .json "between")
      (number : actual = .json (.num n))
      (min : (scope.get "value").get "min" = .json (.num lo))
      (max : (scope.get "value").get "max" = .json (.num hi))
      (above : JsNumber.le lo n = true) (below : JsNumber.le n hi = true)

theorem onNumberBound_iff {value : JsValue} {test : JsNumber → Bool} :
    onNumberBound value test = true ↔ ∃ n, value = .json (.num n) ∧ test n = true := by
  unfold onNumberBound
  split
  · simp
  · rename_i hne
    exact ⟨fun h => (nomatch h), fun ⟨n, hn, _⟩ => absurd hn (hne n)⟩

theorem covers_of_evaluate {actual scope : JsValue}
    (h : evaluateApprovalScope actual scope = true) : Covers scope actual := by
  unfold evaluateApprovalScope at h
  dsimp only at h
  split at h
  · rename_i heq
    exact .eq (comparatorIs_iff.mp heq) h
  split at h
  · rename_i n
    split at h
    · rename_i hbetween
      obtain ⟨lo, hlo, h⟩ := onNumberBound_iff.mp h
      obtain ⟨hi, hhi, h⟩ := onNumberBound_iff.mp h
      rw [Bool.and_eq_true] at h
      exact .between (comparatorIs_iff.mp hbetween) rfl hlo hhi h.1 h.2
    · obtain ⟨bound, hbound, h⟩ := onNumberBound_iff.mp h
      split at h
      · rename_i hc
        exact .lte (comparatorIs_iff.mp hc) rfl hbound h
      split at h
      · rename_i hc
        exact .gte (comparatorIs_iff.mp hc) rfl hbound h
      split at h
      · rename_i hc
        exact .lt (comparatorIs_iff.mp hc) rfl hbound h
      split at h
      · rename_i hc
        exact .gt (comparatorIs_iff.mp hc) rfl hbound h
      · cases h
  · cases h

/-- **The evaluator decides coverage.** -/
theorem evaluateApprovalScope_iff (actual scope : JsValue) :
    evaluateApprovalScope actual scope = true ↔ Covers scope actual := by
  refine ⟨covers_of_evaluate, fun h => ?_⟩
  have hname (name other : JsString) (hc : scope.get "comparator" = .json (.str name)) :
      comparatorIs scope other = (name == other) := by
    rw [comparatorIs, hc]
    rfl
  cases h with
  | eq hc holds =>
    simp only [evaluateApprovalScope.eq_def, comparatorIs_iff.mpr hc, if_true]
    exact holds
  | lte hc hn hv holds =>
    subst hn
    simp only [evaluateApprovalScope, hname _ _ hc, hv, onNumberBound]
    exact holds
  | gte hc hn hv holds =>
    subst hn
    simp only [evaluateApprovalScope, hname _ _ hc, hv, onNumberBound]
    exact holds
  | lt hc hn hv holds =>
    subst hn
    simp only [evaluateApprovalScope, hname _ _ hc, hv, onNumberBound]
    exact holds
  | gt hc hn hv holds =>
    subst hn
    simp only [evaluateApprovalScope, hname _ _ hc, hv, onNumberBound]
    exact holds
  | between hc hn hlo hhi habove hbelow =>
    subst hn
    simp only [evaluateApprovalScope, hname _ _ hc, hlo, hhi, onNumberBound, habove, hbelow]
    rfl

end Parmana.Approval

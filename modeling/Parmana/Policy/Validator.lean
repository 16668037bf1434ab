import Parmana.Policy.Operator

/-! # The policy validator

`PolicyValidator.validate` decides which parsed documents are policies.  It is
modelled on every `Json` value, with the errors it throws: a
`PolicyValidationError` and its text, or the `TypeError` of an expression that
reads a member of `null` or calls something that is not a function.

A condition is an object with one of the members `fact`, `all`, `any`, `always`,
but nothing stops a document from giving several of them; the validator looks
for them in exactly that order, and so do the readers defined here.
-/
namespace Parmana.Policy
open Js

/-- What `validate` throws. -/
inductive ValidationError where
  | policy (message : JsString)
  | typeError
  deriving DecidableEq, Repr

instance : HasTypeError ValidationError := ⟨.typeError⟩

/-- A step of the validation. -/
abbrev Check (α : Type) := Except ValidationError α

/-- `throw new PolicyValidationError(message)`. -/
def invalid {α : Type} (message : JsString) : Check α := .error (.policy message)

/-- `if (refused) throw new PolicyValidationError(message)`. -/
def rejectIf (refused : Bool) (message : JsString) : Check Unit :=
  if refused then invalid message else .ok ()

/-- The name between quotes. -/
def quoted (s : JsString) : JsString := "'" ++ s ++ "'"

/-- `if (!value?.trim()) throw …`. -/
def requireText (v : JsValue) (message : JsString) : Check Unit :=
  match v with
  | .undefined | .json .null => invalid message
  | .json (.str s) => if s.trim.isEmpty then invalid message else .ok ()
  | _ => typeError

/-- An optional member of the policy that must be an object. -/
def objectMember (policy : JsValue) (name : JsString) : Check (Option Fields) := do
  match ← policy.member name with
  | .undefined => return none
  | .json (.obj fs) => return some fs
  | _ => invalid ("Policy " ++ name ++ " must be an object.")

/-- `Object.keys(value ?? {})` of a member that is absent or an object. -/
def keysOrEmpty : JsValue → List JsString
  | .json (.obj fs) => Fields.keys fs
  | _ => []

/-! ## Regular expressions -/

/-- A decimal digit. -/
def isDigit (u : UInt16) : Bool := 0x30 ≤ u && u ≤ 0x39

/-- Whether a quantifier starts here: `[*+]|\{\d+,?\d*\}`. -/
def quantifierAt : List UInt16 → Bool
  | [] => false
  | u :: us =>
    let digits := us.dropWhile isDigit
    let upper := if digits.head? = some 0x2C then digits.tail.dropWhile isDigit else digits
    u == 0x2A || u == 0x2B ||
      (u == 0x7B && us.head?.any isDigit && upper.head? == some 0x7D)

/-- `CONTAINS_QUANTIFIER.test(group)`. -/
def containsQuantifier (us : List UInt16) : Bool := us.tails.any quantifierAt

/-- A parenthesis. -/
def isParen (u : UInt16) : Bool := u == 0x28 || u == 0x29

/-- Whether a quantified group whose contents are quantified starts here: a match
of `GROUP_THEN_QUANTIFIER` that `CONTAINS_QUANTIFIER` finds something in. -/
def nestedQuantifierAt : List UInt16 → Bool
  | [] => false
  | u :: us =>
    let group := us.takeWhile (fun u => !isParen u)
    let rest := us.dropWhile (fun u => !isParen u)
    u == 0x28 && rest.head? == some 0x29 && quantifierAt rest.tail && containsQuantifier group

/-- `PolicyValidator.MAX_PATTERN_LENGTH`. -/
def maxPatternLength : Nat := 200

/-- `validateRegex`. -/
def validateRegex (re : RegExp) (pattern : JsString) : Check Unit :=
  if pattern.length > maxPatternLength then
    invalid ("'matches' pattern exceeds the maximum length of 200 characters." : String)
  else if pattern.units.tails.any nestedQuantifierAt then
    invalid ("'matches' pattern " ++ quoted pattern ++ (" contains a nested quantifier " ++
      "(a quantified group whose own contents are themselves " ++
      "quantified, e.g. '(a+)+') -- a common source of catastrophic " ++
      "backtracking (ReDoS) once evaluated against live signal values. " ++
      "Rewrite the pattern to avoid quantifying a group that already " ++
      "contains a quantifier." : String))
  else if !re.valid pattern then
    invalid ("Invalid regular expression " ++ quoted pattern ++ ".")
  else .ok ()

/-! ## Conditions -/

/-- The leaf branch of `validateCondition`. -/
def validateLeaf (re : RegExp) (fs : Fields) : Check Unit := do
  match JsValue.getFields fs "fact" with
  | .json (.str fact) =>
    if fact.trim.isEmpty then invalid ("Policy condition fact is required." : String)
    else
      let operator := JsValue.getFields fs "operator"
      match PolicyOperator.ofValue? operator with
      | none => invalid ("Unsupported operator " ++ quoted (← operator.toText) ++ ".")
      | some .matches =>
        match JsValue.getFields fs "value" with
        | .json (.str pattern) => validateRegex re pattern
        | _ => invalid ("'matches' requires a regex string." : String)
      | some _ => .ok ()
  | _ => typeError

mutual

/-- `validateCondition`: leaf, then `all`, then `any`, then `always`. -/
def validateCondition (re : RegExp) : Json → Check Unit
  | .obj fs =>
    if Fields.has fs "fact" then validateLeaf re fs
    else if Fields.has fs "all" then validateGroup re "all" fs
    else if Fields.has fs "any" then validateGroup re "any" fs
    else if Fields.has fs "always" then
      if JsValue.strictEq (JsValue.getFields fs "always") (.json (.bool true)) then .ok ()
      else invalid ("'always' must be true." : String)
    else invalid ("Invalid policy condition." : String)
  | .arr _ => invalid ("Invalid policy condition." : String)
  | _ => typeError

/-- The group branch, on the member of that name. -/
def validateGroup (re : RegExp) (name : JsString) : List (JsString × Json) → Check Unit
  | [] => typeError
  | (k, v) :: fs => if name = k then validateChildren re name v else validateGroup re name fs

/-- A group must be an array with at least one condition. -/
def validateChildren (re : RegExp) (name : JsString) : Json → Check Unit
  | .arr (x :: xs) => do
    validateCondition re x
    validateEach re xs
  | _ => invalid (quoted name ++ " must contain at least one condition.")

/-- Every condition of a group, in order. -/
def validateEach (re : RegExp) : List Json → Check Unit
  | [] => .ok ()
  | x :: xs => do
    validateCondition re x
    validateEach re xs

end

mutual

/-- The `walk` of `collectReferencedFacts`: leaf, then `all`, then `any`. -/
def walk : Json → Check (List JsString)
  | .obj fs =>
    if Fields.has fs "fact" then
      match JsValue.getFields fs "fact" with
      | .json (.str fact) => .ok [fact]
      | _ => typeError
    else if Fields.has fs "all" then walkGroup "all" fs
    else if Fields.has fs "any" then walkGroup "any" fs
    else .ok []
  | .arr _ => .ok []
  | _ => typeError

def walkGroup (name : JsString) : List (JsString × Json) → Check (List JsString)
  | [] => typeError
  | (k, v) :: fs => if name = k then walkChildren v else walkGroup name fs

def walkChildren : Json → Check (List JsString)
  | .arr xs => walkEach xs
  | _ => typeError

def walkEach : List Json → Check (List JsString)
  | [] => .ok []
  | x :: xs => do
    let facts ← walk x
    let rest ← walkEach xs
    return facts ++ rest

end

/-- The facts every rule reads, before they are put in a set and sorted. -/
def walkRules : List Json → Check (List JsString)
  | [] => .ok []
  | rule :: rules => do
    match ← JsValue.member (.json rule) "condition" with
    | .json condition =>
      let facts ← walk condition
      let rest ← walkRules rules
      return facts ++ rest
    | _ => typeError

/-- `collectReferencedFacts`. -/
def collectReferencedFacts (rules : List Json) : Check (List JsString) := do
  let facts ← walkRules rules
  return facts.dedup.insertionSort (fun k l => JsString.le k l)

/-- `PolicyValidator.findUncoveredFacts`. -/
def findUncoveredFacts (policy : JsValue) (rules : List Json) : Check (List JsString) := do
  let boundKeys := keysOrEmpty (← policy.member "boundSignals")
  let acknowledgedKeys := keysOrEmpty (← policy.member "unboundSignalReasons") ++
    keysOrEmpty (← policy.member "approvalSignals")
  let referenced ← collectReferencedFacts rules
  return referenced.filter (fun fact => fact ∉ boundKeys && fact ∉ acknowledgedKeys)

/-! ## Signal maps -/

/-- One entry of `boundSignals`. -/
def validateBoundSignal (key : JsString) (intentPath : Json) : Check Unit :=
  if key.trim.isEmpty then invalid ("Policy boundSignals keys cannot be empty." : String)
  else match intentPath with
    | .str path =>
      if path.trim.isEmpty then
        invalid ("Policy boundSignals[" ++ quoted key ++ "] must be a non-empty string dot-path.")
      else .ok ()
    | _ => invalid ("Policy boundSignals[" ++ quoted key ++ "] must be a non-empty string dot-path.")

/-- One entry of `unboundSignalReasons`. -/
def validateUnboundSignalReason (bound : Option Fields) (fact : JsString) (reason : Json) :
    Check Unit :=
  let label := "Policy unboundSignalReasons[" ++ quoted fact ++ "]"
  if fact.trim.isEmpty then
    invalid ("Policy unboundSignalReasons keys cannot be empty." : String)
  else match reason with
    | .str text =>
      if text.trim.isEmpty then invalid (label ++ " must be a non-empty reason string.")
      else if bound.any (fun fs => Fields.has fs fact) then
        invalid (label ++ " is contradictory: " ++ quoted fact ++ (" " ++
          "already has a boundSignals entry -- a bound fact needs no " ++
          "reason for being unbound." : String))
      else .ok ()
    | _ => invalid (label ++ " must be a non-empty reason string.")

/-- Every entry of a signal map, in `Object.entries` order. -/
def validateEntries (check : JsString → Json → Check Unit) : Fields → Check Unit
  | [] => .ok ()
  | (k, v) :: rest => do
    check k v
    validateEntries check rest

/-! ## Approval signals -/

/-- The signal that carries an approval when its declaration names none. -/
def defaultApprovalArtifactSignal : JsString := "approvalArtifact"

/-- `PARAMETER_PATH.test(path)`. -/
def isParameterPath (path : JsString) : Bool :=
  match path.splitDots with
  | root :: keys => root == "parameters" && !keys.isEmpty && keys.all JsString.isWord
  | [] => false

/-- `value ?? fallback`. -/
def orDefault (v : JsValue) (fallback : JsString) : JsValue :=
  match v with
  | .undefined | .json .null => .json (.str fallback)
  | v => v

/-- `if (!PARAMETER_PATH.test(String(path))) throw …`. -/
def requireParameterPath (path : JsValue) (message : JsString) : Check Unit := do
  rejectIf (!isParameterPath (← path.toText)) message

/-- The `resourceId` of a declaration: the target or a parameter. -/
def validateResourceId (label : JsString) (resourceId : JsValue) : Check Unit :=
  if JsValue.strictEq resourceId (.json (.str "target")) then .ok ()
  else requireParameterPath resourceId
    (label ++ (".resourceId must be \"target\" or a dot-path into the Intent's " ++
      "parameters, such as \"parameters.orderId\"." : String))

/-- The `value` of a declaration: absent or a parameter. -/
def validateValuePath (label : JsString) (value : JsValue) : Check Unit :=
  if value = .undefined then .ok ()
  else requireParameterPath value
    (label ++ (".value must be a dot-path into the Intent's parameters, such as " ++
      "\"parameters.amount\"." : String))

/-- Whether a list of names has this value. -/
def hasName (names : List JsString) (v : JsValue) : Bool :=
  names.any (fun k => JsValue.sameValueZero v (.json (.str k)))

/-- One entry of `approvalSignals`; `artifacts` are the ones already declared and
the result is the one this entry adds. -/
def validateApprovalSignal (bound : Option Fields) (referenced keys : List JsString)
    (artifacts : List JsValue) (key : JsString) (declaration : Json) : Check JsValue := do
  let label := "Policy approvalSignals[" ++ quoted key ++ "]"
  rejectIf key.trim.isEmpty ("Policy approvalSignals keys cannot be empty." : String)
  match declaration with
  | .obj fs =>
    rejectIf (key ∉ referenced)
      (label ++ " names a fact no rule references, so its approval would never matter.")
    rejectIf (bound.any (fun bs => Fields.has bs key))
      (label ++ " is contradictory: " ++ quoted key ++ " already has a boundSignals entry.")
    validateResourceId label (JsValue.getFields fs "resourceId")
    validateValuePath label (JsValue.getFields fs "value")
    let artifact := orDefault (JsValue.getFields fs "artifact") defaultApprovalArtifactSignal
    let artifactText ← artifact.toText
    rejectIf (!artifactText.isWord)
      (label ++ ".artifact must be a signal name of letters, digits and underscores.")
    rejectIf (artifacts.any (JsValue.sameValueZero artifact) || hasName keys artifact)
      (label ++ ".artifact " ++ quoted artifactText ++ (" is used by another approval " ++
        "signal. Give each approval signal its own artifact signal." : String))
    rejectIf (hasName referenced artifact)
      (label ++ ".artifact " ++ quoted artifactText ++
        " is read by a rule; it must only carry the approval.")
    return artifact
  | _ => invalid (label ++ " must be an object.")

/-- Every entry of `approvalSignals`. -/
def validateApprovalEntries (bound : Option Fields) (referenced keys : List JsString) :
    List JsValue → Fields → Check Unit
  | _, [] => .ok ()
  | artifacts, (k, d) :: rest => do
    let artifact ← validateApprovalSignal bound referenced keys artifacts k d
    validateApprovalEntries bound referenced keys (artifact :: artifacts) rest

/-- `validateApprovalSignals`. -/
def validateApprovalSignals (policy : JsValue) (bound : Option Fields) (rules : List Json) :
    Check Unit := do
  match ← objectMember policy "approvalSignals" with
  | none => return ()
  | some declarations =>
    let referenced ← collectReferencedFacts rules
    validateApprovalEntries bound referenced (Fields.keys declarations) []
      (Fields.entries declarations)

/-! ## Approve rules -/

/-- `isApprovalLeaf`. -/
def isApprovalLeaf (approvalFacts : List JsString) : Json → Check Bool
  | .obj fs =>
    .ok (Fields.has fs "fact" &&
      JsValue.strictEq (JsValue.getFields fs "operator") (.json (.str "is_true")) &&
      approvalFacts.any (fun f => JsValue.strictEq (JsValue.getFields fs "fact") (.json (.str f))))
  | .arr _ => .ok false
  | _ => typeError

/-- `children.some(isApprovalLeaf)`. -/
def someApprovalLeaf (approvalFacts : List JsString) : List Json → Check Bool
  | [] => .ok false
  | x :: xs => do
    if ← isApprovalLeaf approvalFacts x then return true
    someApprovalLeaf approvalFacts xs

/-- `gated`: the condition is an approval leaf, or its top level `all` has one.
The second test does not ask whether the condition also has a `fact` or an
`always`. -/
def isGated (approvalFacts : List JsString) (condition : Json) : Check Bool := do
  if ← isApprovalLeaf approvalFacts condition then return true
  match condition with
  | .obj fs =>
    if Fields.has fs "all" then
      match JsValue.getFields fs "all" with
      | .json (.arr xs) => someApprovalLeaf approvalFacts xs
      | _ => typeError
    else return false
  | _ => return false

/-- The message for an approve rule that needs no approval. -/
def ungatedMessage (id : JsString) : JsString :=
  "Policy rule " ++ quoted id ++ (" approves without a signed human approval. " ++
    "Every approve rule must require an approvalSignals fact with " ++
    "is_true, as its whole condition or directly inside its top " ++
    "level 'all'." : String)

/-- The check `validateEveryApprovalNeedsSignedApproval` makes of one rule. -/
def validateApproveRule (approvalFacts : List JsString) (rule : Json) : Check Unit := do
  let outcome ← JsValue.member (.json rule) "outcome"
  let action ← outcome.member "action"
  if JsValue.strictEq action (.json (.str "approve")) then
    let condition ← JsValue.jsonMember (.json rule) "condition"
    if ← isGated approvalFacts condition then return ()
    else
      let id ← JsValue.member (.json rule) "id"
      invalid (ungatedMessage (← id.toText))
  else return ()

/-- Every rule, in order. -/
def validateApproveRules (approvalFacts : List JsString) : List Json → Check Unit
  | [] => .ok ()
  | rule :: rules => do
    validateApproveRule approvalFacts rule
    validateApproveRules approvalFacts rules

/-! ## The whole policy -/

/-- The structural checks of one rule; `ruleIds` are the ids seen before it and
the result is its own. -/
def validateRule (re : RegExp) (ruleIds : List JsString) (rule : Json) : Check JsString := do
  let idValue ← JsValue.member (.json rule) "id"
  requireText idValue ("Policy rule id is required." : String)
  let id ← idValue.toText
  rejectIf (id ∈ ruleIds) ("Duplicate policy rule id " ++ quoted id ++ ".")
  validateCondition re (← JsValue.jsonMember (.json rule) "condition")
  let outcome ← JsValue.member (.json rule) "outcome"
  rejectIf (!outcome.truthy) ("Policy rule " ++ quoted id ++ " is missing an outcome.")
  let action ← outcome.member "action"
  rejectIf (!action.truthy) ("Policy rule " ++ quoted id ++ " is missing an outcome action.")
  requireText (← outcome.member "reason")
    ("Policy rule " ++ quoted id ++ " is missing an outcome reason.")
  return id

/-- Every rule, in order, with pairwise different ids. -/
def validateRules (re : RegExp) : List JsString → List Json → Check Unit
  | _, [] => .ok ()
  | ruleIds, rule :: rules => do
    let id ← validateRule re ruleIds rule
    validateRules re (id :: ruleIds) rules

/-- The message for facts that are neither bound nor acknowledged. -/
def uncoveredMessage (facts : List JsString) : JsString :=
  "Policy references fact(s) " ++ JsString.join ", " (facts.map quoted) ++
    (" with no boundSignals entry and no unboundSignalReasons entry. Add one of:\n" ++
      "  1. A boundSignals entry, if the fact has a genuine Intent-side " ++
      "equivalent (e.g. an amount or target identifier).\n" ++
      "  2. An unboundSignalReasons entry with a documented reason, if " ++
      "leaving it unbound is a deliberate decision." : String)

/-- `policy.rules`, an array with at least one rule. -/
def requireRules (v : JsValue) : Check (List Json) :=
  match v with
  | .json (.arr []) => invalid ("Policy must contain at least one rule." : String)
  | .json (.arr rules) => .ok rules
  | _ => invalid ("Policy rules must be an array." : String)

/-- `PolicyValidator.validate`. -/
def validate (re : RegExp) (policy : Json) : Check Unit := do
  let p : JsValue := .json policy
  rejectIf (!p.truthy) ("Policy is required." : String)
  requireText (← p.member "policyId") ("policyId is required." : String)
  requireText (← p.member "policyVersion") ("policyVersion is required." : String)
  requireText (← p.member "schemaVersion") ("schemaVersion is required." : String)
  let rules ← requireRules (← p.member "rules")
  let bound ← objectMember p "boundSignals"
  validateEntries validateBoundSignal (Fields.entries (bound.getD []))
  let reasons ← objectMember p "unboundSignalReasons"
  validateEntries (validateUnboundSignalReason bound) (Fields.entries (reasons.getD []))
  validateRules re [] rules
  validateApprovalSignals p bound rules
  validateApproveRules (keysOrEmpty (p.get "approvalSignals")) rules
  let uncovered ← findUncoveredFacts p rules
  rejectIf (!uncovered.isEmpty) (uncoveredMessage uncovered)

/-- `validate` does not throw. -/
def Accepted (re : RegExp) (policy : Json) : Prop := validate re policy = .ok ()

instance (re : RegExp) (policy : Json) : Decidable (Accepted re policy) := by
  unfold Accepted; infer_instance

end Parmana.Policy

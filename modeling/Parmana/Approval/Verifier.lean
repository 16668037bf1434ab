import Parmana.Approval.Artifact
import Parmana.Interaction.Program
import Mathlib.Data.List.Sort

/-! # The approval verifier

`ApprovalVerifier.verify` checks one artifact against one request, and
`ApprovalSignalVerifier.findViolations` checks every approval signal a policy
declares.  Both are asynchronous: they read the clock, ask the issuer registry
and the signature check, and record nonces in a store that other processes share.
Each of those is a `Call`, so a verification is a `Program` over `Call` and says
nothing about the answers.

An `Environment` fixes the answers: what each check of an artifact sees of the
clock, the registry and the store is given by its own `Moment`, so nothing
relates one check to the next but the set of recorded nonces.  The parsing of
dates is the language's own and is a parameter.
-/
namespace Parmana.Approval
open Js Interaction Interaction.Program

/-- What a collaborator or an expression throws, with its text.  That of a `TypeError` of the
expressions modelled here is read nowhere, and is left empty. -/
inductive Thrown where
  | typeError (message : JsString)
  | error (message : JsString)
  /-- A value that has no text: `String` throws on it. -/
  | unprintable (thrown : Thrown)
  deriving DecidableEq, Repr

instance : HasTypeError Thrown := ⟨.typeError ""⟩

/-- `ResolvedApprovalIssuer`. -/
structure ResolvedApprovalIssuer (Key : Type) where
  publicKey : Key
  revoked : Bool

/-- The deal properties the HubSpot verifier reads. -/
structure HubSpotDeal where
  dealstage : Option JsString
  amount : Option JsString
  deriving DecidableEq

/-- The calls signal verifiers make. -/
inductive Call (Key : Type) where
  /-- `new Date()`. -/
  | now
  /-- `issuerRegistry.resolve`. -/
  | resolveIssuer (approverId keyId : JsString)
  /-- `signatureVerifier.verify`: over the canonical bytes of the whole payload. -/
  | verifySignature (payload : JsValue) (signature : JsString) (publicKey : Key)
  /-- `nonceStore.checkAndRecord`. -/
  | checkAndRecord (nonce expiresAt : JsString)
  /-- The signed fetch of a deal through the gateway; no answer when the
  response has no deal. -/
  | fetchDeal (businessTransactionId dealId : JsString)

/-- What a call answers. -/
abbrev Call.Answer {Key : Type} : Call Key → Type
  | .now => Int
  | .resolveIssuer .. => Option (ResolvedApprovalIssuer Key)
  | .verifySignature .. => Bool
  | .checkAndRecord .. => Bool
  | .fetchDeal .. => Option HubSpotDeal

/-- A verification, seen from outside. -/
abbrev Verification (Key α : Type) := Program (Call Key) Call.Answer Thrown α

section Calls
variable {Key : Type}

/-- `new Date()`. -/
def now : Verification Key Int := perform Call.now

def resolveIssuer (approverId keyId : JsString) :
    Verification Key (Option (ResolvedApprovalIssuer Key)) :=
  perform (Call.resolveIssuer approverId keyId)

def verifySignature (payload : JsValue) (signature : JsString) (publicKey : Key) :
    Verification Key Bool :=
  perform (Call.verifySignature payload signature publicKey)

def checkAndRecord (nonce expiresAt : JsString) : Verification Key Bool :=
  perform (Call.checkAndRecord nonce expiresAt)

def fetchDeal (businessTransactionId dealId : JsString) :
    Verification Key (Option HubSpotDeal) :=
  perform (Call.fetchDeal businessTransactionId dealId)

end Calls

variable {Key : Type} (dateParse : JsString → Option Int)

/-! ## One artifact -/

/-- `ApprovalVerificationRequest`. -/
structure ApprovalVerificationRequest where
  action : JsString
  resourceId : JsString
  requestedValue : JsValue
  consumeNonce : Option Bool
  deriving DecidableEq

/-- The `checks` of an `ApprovalVerificationResult`. -/
structure ApprovalChecks where
  versionSupported : Bool
  issuerKnown : Bool
  signatureVerified : Bool
  notExpired : Bool
  notRevoked : Bool
  capabilityMatches : Bool
  resourceMatches : Bool
  scopeSatisfied : Bool
  nonceUnseen : Bool
  deriving DecidableEq, Repr

/-- `ApprovalVerificationResult`. -/
structure ApprovalVerificationResult where
  valid : Bool
  checks : ApprovalChecks
  deriving DecidableEq, Repr

/-- `FAILED_BEFORE_SIGNATURE`. -/
def failedBeforeSignature : ApprovalVerificationResult :=
  ⟨false, ⟨false, false, false, false, false, false, false, false, false⟩⟩

/-- `now.getTime() < Date.parse(expiresAt)`; an unreadable date is `NaN`. -/
def notExpired (now : Int) (expiresAt : JsString) : Bool :=
  (dateParse expiresAt).any (fun t => decide (now < t))

/-- `priorChecksPassed`: every check but the nonce. -/
def ApprovalChecks.priorPassed (c : ApprovalChecks) : Bool :=
  c.issuerKnown && c.signatureVerified && c.notExpired && c.notRevoked &&
    c.capabilityMatches && c.resourceMatches && c.scopeSatisfied

/-- The checks of a supported version, before the nonce is looked at. -/
def priorChecks (now : Int) (resolvedIssuer : Option (ResolvedApprovalIssuer Key))
    (signatureVerified : Bool) (artifact : SignedApproval)
    (request : ApprovalVerificationRequest) : ApprovalChecks where
  versionSupported := true
  issuerKnown := resolvedIssuer.isSome
  signatureVerified := signatureVerified
  notExpired := notExpired dateParse now artifact.expiresAt
  notRevoked := resolvedIssuer.any (fun issuer => !issuer.revoked)
  capabilityMatches := artifact.capability == request.action
  resourceMatches := artifact.resourceId == request.resourceId
  scopeSatisfied := evaluateApprovalScope request.requestedValue artifact.scope
  nonceUnseen := false

/-- The nonce is attempted last, and only when every other check has passed. -/
def attemptNonce (artifact : SignedApproval) (request : ApprovalVerificationRequest)
    (checks : ApprovalChecks) : Verification Key ApprovalVerificationResult := do
  let nonceUnseen ←
    if !checks.priorPassed then pure false
    else if request.consumeNonce ≠ some false then
      checkAndRecord artifact.nonce artifact.expiresAt
    else pure true
  return ⟨checks.priorPassed && nonceUnseen, { checks with nonceUnseen := nonceUnseen }⟩

/-- `ApprovalVerifier.verify`. -/
def verify (artifact : SignedApproval) (request : ApprovalVerificationRequest) :
    Verification Key ApprovalVerificationResult := do
  let now ← now
  if JsValue.strictEq (artifact.payload.get "version") supportedPayloadVersion then
    let resolvedIssuer ← resolveIssuer artifact.approverId artifact.keyId
    let signatureVerified ← match resolvedIssuer with
      | some issuer =>
        verifySignature artifact.payload artifact.signatureValue issuer.publicKey
      | none => pure false
    attemptNonce artifact request
      (priorChecks dateParse now resolvedIssuer signatureVerified artifact request)
  else return failedBeforeSignature

/-! ## Every approval signal -/

/-- Where a check runs. -/
inductive Stage where
  | authorize
  | release
  deriving DecidableEq, Repr

/-- `SignalStateVerificationRequest`. -/
structure SignalStateVerificationRequest where
  action : JsString
  businessTransactionId : JsString
  intentParameters : Option Fields
  intentTarget : Option JsString
  stage : Option Stage
  policy : Option Json
  deriving DecidableEq

/-- `SignalStateViolation`. -/
structure SignalStateViolation where
  signalKey : JsString
  declaredValue : JsValue
  actualValue : JsValue
  deriving DecidableEq

/-- `refused`. -/
def refused (signalKey : JsString) : SignalStateViolation :=
  ⟨signalKey, .json (.bool true), .json (.bool false)⟩

/-- `missing`. -/
def missing (signalKey reason : JsString) : SignalStateViolation :=
  ⟨signalKey, .json (.bool true), .json (.str ("<" ++ reason ++ ">"))⟩

/-- The Intent's target as a member reads it. -/
def targetValue (request : SignalStateVerificationRequest) : JsValue :=
  request.intentTarget.elim .undefined (fun t => .json (.str t))

/-- The Intent's parameters as a member reads them. -/
def parametersValue (request : SignalStateVerificationRequest) : JsValue :=
  request.intentParameters.elim .undefined (fun ps => .json (.obj ps))

/-- `resolveParameter`. -/
def resolveParameter (request : SignalStateVerificationRequest) (path : JsString) : JsValue :=
  if path = "target" then targetValue request
  else match path.splitDots with
    | root :: keys =>
      if root ≠ "parameters" || keys.isEmpty then .undefined
      else keys.foldl JsValue.get (parametersValue request)
    | [] => .undefined

/-- A path of a declaration: `path.split` throws unless it is a string. -/
def pathText : JsValue → Except Thrown JsString
  | .json (.str path) => .ok path
  | _ => typeError

/-- `resolveResourceId`: the resource, or the reason there is none. -/
def resolveResourceId (request : SignalStateVerificationRequest) (path : JsString) :
    Except JsString JsString :=
  match resolveParameter request path with
  | .json (.str s) => if s.length > 0 then .ok s else .error (reason path)
  | .json (.num n) => if n.isFinite then .ok n.toText else .error (reason path)
  | _ => .error (reason path)
where
  reason (path : JsString) : JsString :=
    "missing: " ++ path ++ " is required to verify an approval"

/-- `resolveNumber`: the number, or the reason there is none. -/
def resolveNumber (request : SignalStateVerificationRequest) (path : JsString) :
    Except JsString JsNumber :=
  match resolveParameter request path with
  | .json (.num n) => if n.isFinite then .ok n else .error (reason path)
  | _ => .error (reason path)
where
  reason (path : JsString) : JsString :=
    "missing: " ++ path ++ " must be a number to verify an approval"

/-- `PendingApproval`. -/
structure PendingApproval where
  signalKey : JsString
  artifact : SignedApproval
  request : ApprovalVerificationRequest

/-- `DEFAULT_APPROVAL_ARTIFACT_SIGNAL`. -/
def defaultApprovalArtifactSignal : JsString := "approvalArtifact"

/-- The value a declaration's approval must cover: the number at its `value`, or
the resource itself when it has none. -/
def requestedValue (request : SignalStateVerificationRequest) (resourceId : JsString)
    (value : JsValue) : Except Thrown (Except JsString JsValue) :=
  if value = .undefined then .ok (.ok (.json (.str resourceId)))
  else do
    let path ← pathText value
    return (resolveNumber request path).map (fun n => .json (.num n))

/-- The signal that carries a declaration's artifact. -/
def artifactSignal (declaration : JsValue) : Except Thrown JsString :=
  match declaration.get "artifact" with
  | .undefined | .json .null => .ok defaultApprovalArtifactSignal
  | v => v.toText

/-- `prepare`: the approval to check, or the violation that stands for it. -/
def prepare (request : SignalStateVerificationRequest) (signals : Fields) (signalKey : JsString)
    (declaration : Json) : Except Thrown (Except SignalStateViolation PendingApproval) := do
  let path ← pathText (← (JsValue.json declaration).member "resourceId")
  match resolveResourceId request path with
  | .error reason => return .error (missing signalKey reason)
  | .ok resourceId =>
    match ← requestedValue request resourceId ((JsValue.json declaration).get "value") with
    | .error reason => return .error (missing signalKey reason)
    | .ok requestedValue =>
      let artifact := JsValue.getFields signals (← artifactSignal (.json declaration))
      if h : isSignedApprovalShape artifact then
        return .ok ⟨signalKey, ⟨artifact, h⟩, ⟨request.action, resourceId, requestedValue, none⟩⟩
      else return .error (refused signalKey)

/-- The declared approval signals, in key order. -/
def sortedEntries (declarations : JsValue) : Fields :=
  declarations.entries.insertionSort (fun a b => JsString.le a.1 b.1)

/-- The entries whose signal the caller sets to true. -/
def trueEntries (signals : Fields) (entries : Fields) : Fields :=
  entries.filter (fun e => JsValue.strictEq (JsValue.getFields signals e.1) (.json (.bool true)))

/-- The loop over the declarations whose signal is true. -/
def prepareAll (request : SignalStateVerificationRequest) (signals : Fields) :
    Fields → Except Thrown (List SignalStateViolation × List PendingApproval)
  | [] => .ok ([], [])
  | (signalKey, declaration) :: rest => do
    let prepared ← prepare request signals signalKey declaration
    let (violations, pending) ← prepareAll request signals rest
    match prepared with
    | .error violation => return (violation :: violations, pending)
    | .ok approval => return (violations, approval :: pending)

/-- One pass over the approvals: a violation for each that is not valid. -/
def verifyAll (consumeNonce : Bool) :
    List PendingApproval → Verification Key (List SignalStateViolation)
  | [] => return []
  | approval :: rest => do
    let result ← verify dateParse approval.artifact
      { approval.request with consumeNonce := some consumeNonce }
    let violations ← verifyAll consumeNonce rest
    if result.valid then return violations
    else return refused approval.signalKey :: violations

/-- Everything up to the end of the first pass: the approvals to use, and the
violations found without using one. -/
def checkApprovals (request : SignalStateVerificationRequest) (signals : Fields)
    (declarations : JsValue) :
    Verification Key (List SignalStateViolation × List PendingApproval) := do
  if declarations = .json .null then throw (.typeError "")
  let (violations, pending) ← .done (prepareAll request signals
    (trueEntries signals (sortedEntries declarations)))
  let refusals ← verifyAll dateParse false pending
  return (violations ++ refusals, pending)

/-- The violation for an approval that no policy asks for. -/
def unverifiableApproval : SignalStateViolation :=
  ⟨defaultApprovalArtifactSignal, .json (.str "<approval attached>"),
    .json (.str ("<unverifiable: the policy is not available to say which signals need an " ++
      "approval>" : String))⟩

/-- `ApprovalSignalVerifier.findViolations`. -/
def findViolations (request : SignalStateVerificationRequest) (signals : Fields) :
    Verification Key (List SignalStateViolation) := do
  match request.policy with
  | none =>
    if (Fields.entries signals).any (fun e => isSignedApprovalShape (.json e.2)) then
      return [unverifiableApproval]
    else return []
  | some policy =>
    let declarations ← .done ((JsValue.json policy).member "approvalSignals")
    if declarations = .undefined then return []
    else
      let (violations, pending) ← checkApprovals dateParse request signals declarations
      if !violations.isEmpty || request.stage = some .release then return violations
      else verifyAll dateParse true pending

end Parmana.Approval

import Parmana.Gateway.EnvelopeVerifier

/-! # The execution gateway

`ExecutionGateway` adds to the envelope's checks that the content of the request
has the signed hash, that the policy of the authorization is still the one it was
signed under and the one a checker approved, and that the signals still hold.  A
gateway that requires policy binding cannot be built without the repository and
the verifier it needs, which its structure records.

`verify` makes all checks that change nothing first (`priorChecks`) and uses up the
nonce when they have passed; `execute` hands the checked content on.
-/
namespace Parmana.Gateway
open Js Interaction Interaction.Program

/-! ## Construction -/

/-- `ExecutionControlOptions`: the functions among them may throw. -/
structure ExecutionControlOptions where
  service : Bool
  gatewayAuthentication : JsValue
  mintGatewayAuthentication : Option (JsString → Except Failure JsValue)
  channel : Bool
  /-- What the identity provider presents. -/
  gatewayIdentity : Option (Except Failure JsValue)
  route : ExecutableContent → Except Failure JsString

/-- `ExecutionGatewayOptions`. -/
structure ExecutionGatewayOptions (Key : Type) where
  publicKey : Key
  keyProvider : Bool
  keyExpiryStore : Bool
  policyRepository : Bool
  policyApprovalVerifier : Bool
  allowUnverifiedPolicy : Option Bool
  signalStateVerifier : Bool
  connector : Bool
  executionControl : Option ExecutionControlOptions
  maxTtlSeconds : Option JsNumber

/-- `ExecutionGateway`; without `executionControl` it has a connector. -/
structure ExecutionGateway (Key : Type) where
  envelopeVerifier : EnvelopeVerifier Key
  policyRepository : Bool
  policyApprovalVerifier : Bool
  requirePolicyBinding : Bool
  signalStateVerifier : Bool
  executionControl : Option ExecutionControlOptions
  binding : requirePolicyBinding = true → policyRepository = true ∧ policyApprovalVerifier = true

variable {Key : Type}

/-- The constructor. -/
def ExecutionGateway.create (options : ExecutionGatewayOptions Key) :
    Except Failure (ExecutionGateway Key) :=
  let requirePolicyBinding := options.allowUnverifiedPolicy != some true
  if !options.connector && options.executionControl.isNone then
    .error (.error "ExecutionGateway requires a connector or executionControl.")
  else if options.connector && options.executionControl.isSome then
    .error (.error "ExecutionGateway accepts connector or executionControl, not both.")
  else if h : requirePolicyBinding = true →
      options.policyRepository = true ∧ options.policyApprovalVerifier = true then
    .ok {
      envelopeVerifier := {
        publicKey := options.publicKey
        keyProvider := options.keyProvider
        keyExpiryStore := options.keyExpiryStore
        maxTtlSeconds := options.maxTtlSeconds.getD DEFAULT_MAX_TTL_SECONDS }
      policyRepository := options.policyRepository
      policyApprovalVerifier := options.policyApprovalVerifier
      requirePolicyBinding := requirePolicyBinding
      signalStateVerifier := options.signalStateVerifier
      executionControl := options.executionControl
      binding := h }
  else
    .error (.error (JsString.ofString ("ExecutionGateway requires a policyRepository and a " ++
      "policyApprovalVerifier: it fails closed on policy binding. " ++
      "Set allowUnverifiedPolicy only for legacy fixtures, never in production.")))

/-! ## The checks that change nothing -/

/-- What the policy checks come to. -/
structure PolicyCheck where
  policyStillCurrent : Option Bool
  verifiedPolicy : Option Json
  policyContentMismatch : Option Mismatch
  policyGovernanceVerified : Option Bool
  policyGovernanceViolation : Option PolicyExecutionViolation

/-- The policy checks did not run. -/
def PolicyCheck.skipped : PolicyCheck := ⟨none, none, none, none, none⟩

/-- The policy is not the one that was signed. -/
def PolicyCheck.changed (expected actual : JsString) : PolicyCheck :=
  ⟨some false, none, some ⟨expected, actual⟩, none, none⟩

/-- What the signal check comes to. -/
structure SignalsCheck where
  signalsStillCurrent : Option Bool
  signalsHashMismatch : Option Mismatch
  signalDivergence : Option (List Approval.SignalStateViolation)

/-- The signal check did not run. -/
def SignalsCheck.skipped : SignalsCheck := ⟨none, none, none⟩

/-- Everything checked before the nonce. -/
structure PriorChecks where
  executableContent : ExecutableContent
  envelope : EnvelopeChecksResult
  businessTransactionHashMatches : Bool
  hashMismatch : Option Mismatch
  policy : PolicyCheck
  signals : SignalsCheck

namespace ExecutionGateway
variable (g : ExecutionGateway Key) (dateParse : JsString → Option Int)
  (sha256 : List UInt8 → JsString)

/-- The content hash against the signed one, when the envelope has passed. -/
def compareContent (passed : Bool) (content : ExecutableContent)
    (payload : ExecutionAuthorizationPayload) : GatewayProgram Key (Bool × Option Mismatch) :=
  if passed then do
    let actualHash ← .done (contentHash sha256 (contentJson content))
    if actualHash = payload.businessTransactionHash then return (true, none)
    else return (false, some ⟨payload.businessTransactionHash, actualHash⟩)
  else return (false, none)

/-- The approval of the live policy: an error is a failure, never a pass. -/
def verifyApproval (payload : ExecutionAuthorizationPayload) (currentHash : JsString) :
    GatewayProgram Key (Option PolicyExecutionViolation) :=
  tryCatch (ask (.verifyPolicyApproval payload.policyName payload.policyVersion currentHash))
    fun error => do
      let text ← .done error.text
      return some ⟨("policy approval verification errored: " : JsString) ++ text⟩

/-- The live policy against the signed hash, and its approval. -/
def comparePolicy (payload : ExecutionAuthorizationPayload) (policyContentHash : JsString) :
    GatewayProgram Key PolicyCheck := do
  let currentPolicy ← ask (.loadPolicy payload.policyName payload.policyVersion)
  let currentHash ← .done (contentHash sha256 currentPolicy)
  if currentHash = policyContentHash then
    if g.policyApprovalVerifier then
      let violation ← verifyApproval payload currentHash
      return ⟨some true, some currentPolicy, none, some violation.isNone, violation⟩
    else return ⟨some true, some currentPolicy, none, none, none⟩
  else return .changed policyContentHash currentHash

/-- The policy checks, when the content has passed. -/
def checkPolicy (passed : Bool) (payload : ExecutionAuthorizationPayload) :
    GatewayProgram Key PolicyCheck :=
  if passed then
    match payload.policyContentHash with
    | none =>
      if g.requirePolicyBinding then
        -- an authorization that names no policy content cannot prove what it was issued under
        return .changed "(absent: authorization carries no policyContentHash)" "n/a"
      else return .skipped
    | some policyContentHash =>
      if g.policyRepository then
        tryCatch (g.comparePolicy sha256 payload policyContentHash) fun _ =>
          return .changed policyContentHash "policy not found"
      else return .skipped
  else return .skipped

/-- What the signal verifier is asked at release. -/
def releaseRequest (content : ExecutableContent) (verifiedPolicy : Option Json) :
    Approval.SignalStateVerificationRequest where
  action := content.action
  businessTransactionId := content.businessTransactionId
  intentParameters := some content.parameters
  intentTarget := some content.target
  stage := some .release
  policy := verifiedPolicy

/-- The signals against their signed hash and against the world. -/
def compareSignals (content : ExecutableContent) (verifiedPolicy : Option Json)
    (signalsHash : JsString) (signals : Fields) : GatewayProgram Key SignalsCheck := do
  let currentSignalsHash ← .done (contentHash sha256 (.obj signals))
  if currentSignalsHash = signalsHash then
    let violations ← ask (.findViolations (releaseRequest content verifiedPolicy) signals)
    return ⟨some violations.isEmpty, none, if violations.isEmpty then none else some violations⟩
  else return ⟨some false, some ⟨signalsHash, currentSignalsHash⟩, none⟩

/-- The signal check, when nothing has failed so far. -/
def checkSignals (passed : Bool) (content : ExecutableContent) (policy : PolicyCheck)
    (request : ExecutionRequest) : GatewayProgram Key SignalsCheck :=
  match request.authorization.payload.signalsHash, request.signals with
  | some signalsHash, some signals =>
    if passed && policy.policyStillCurrent != some false &&
        policy.policyGovernanceVerified != some false && g.signalStateVerifier then
      compareSignals sha256 content policy.verifiedPolicy signalsHash signals
    else return .skipped
  | _, _ => return .skipped

/-- The part of `verify` before the nonce. -/
def priorChecks (request : ExecutionRequest) (now : Int) : GatewayProgram Key PriorChecks := do
  let executableContent ← .done (toExecutableContent request)
  let envelope ← g.envelopeVerifier.verifyChecks dateParse request.authorization now
  let (businessTransactionHashMatches, hashMismatch) ←
    compareContent sha256 envelope.passed executableContent request.authorization.payload
  let policy ← g.checkPolicy sha256 (envelope.passed && businessTransactionHashMatches)
    request.authorization.payload
  let signals ← g.checkSignals sha256 (envelope.passed && businessTransactionHashMatches)
    executableContent policy request
  return ⟨executableContent, envelope, businessTransactionHashMatches, hashMismatch, policy, signals⟩

/-- `policyBindingOk`: where binding is required, not run is never a pass. -/
def policyBindingOk (policy : PolicyCheck) : Bool :=
  if g.requirePolicyBinding then
    policy.policyStillCurrent == some true && policy.policyGovernanceVerified == some true
  else policy.policyStillCurrent != some false && policy.policyGovernanceVerified != some false

/-- `priorChecksPassed`. -/
def priorChecksPassed (prior : PriorChecks) : Bool :=
  prior.envelope.passed && prior.businessTransactionHashMatches &&
    g.policyBindingOk prior.policy && prior.signals.signalsStillCurrent != some false

/-- The result, given what became of the nonce. -/
def verificationResult (prior : PriorChecks) (nonceUnseen : Bool) : GatewayVerificationResult where
  valid := g.priorChecksPassed prior && nonceUnseen
  checks := {
    toEnvelopeChecks := prior.envelope.checks
    businessTransactionHashMatches := prior.businessTransactionHashMatches
    policyStillCurrent := prior.policy.policyStillCurrent
    policyGovernanceVerified := prior.policy.policyGovernanceVerified
    signalsStillCurrent := prior.signals.signalsStillCurrent
    nonceUnseen := nonceUnseen }
  hashMismatch := prior.hashMismatch
  policyContentMismatch := prior.policy.policyContentMismatch
  policyGovernanceViolation := prior.policy.policyGovernanceViolation
  signalsHashMismatch := prior.signals.signalsHashMismatch
  signalDivergence := prior.signals.signalDivergence

/-- `verify`. -/
def verify (request : ExecutionRequest) (now : Int) :
    GatewayProgram Key (GatewayVerificationResult × ExecutableContent) := do
  let prior ← g.priorChecks dateParse sha256 request now
  let nonceUnseen ← EnvelopeVerifier.consumeIf (g.priorChecksPassed prior) request.authorization
  return (g.verificationResult prior nonceUnseen, prior.executableContent)

end ExecutionGateway

/-! ## Failures -/

namespace GatewayVerificationResult
variable (result : GatewayVerificationResult)

/-- The checks by name, without the nonce; an absent one has no entry. -/
def otherChecks : List (JsString × Bool) :=
  let checks := result.checks
  ([("keyValid", checks.keyValid), ("versionSupported", some checks.versionSupported),
      ("signatureVerified", some checks.signatureVerified), ("notExpired", some checks.notExpired),
      ("ttlWithinPolicy", some checks.ttlWithinPolicy),
      ("businessTransactionHashMatches", some checks.businessTransactionHashMatches),
      ("policyStillCurrent", checks.policyStillCurrent),
      ("policyGovernanceVerified", checks.policyGovernanceVerified),
      ("signalsStillCurrent", checks.signalsStillCurrent)] :
    List (JsString × Option Bool)).filterMap fun p => p.2.map fun passed => (p.1, passed)

/-- `isSoleFailureNonceReplay`. -/
def isSoleFailureNonceReplay : Bool :=
  !result.checks.nonceUnseen && result.otherChecks.all fun p => p.2

/-- The names of the checks that failed. -/
def failedChecks : List JsString :=
  let checks := result.otherChecks ++ [(("nonceUnseen" : JsString), result.checks.nonceUnseen)]
  let failed := (checks.filter fun p => !p.2).map Prod.fst
  if failed.isEmpty && !result.valid then [("policyBindingNotVerified" : JsString)] else failed

/-- What one pair of hashes adds to the message. -/
def mismatchDetail (name : JsString) (mismatch : Option Mismatch) : JsString :=
  mismatch.elim "" fun m => (" " : JsString) ++ name ++ (" mismatch: expected " : JsString) ++
    m.expected ++ (", got " : JsString) ++ m.actual ++ ("." : JsString)

/-- One signal that has diverged. -/
def divergenceDetail (violation : Approval.SignalStateViolation) : JsString :=
  violation.signalKey ++ ("=" : JsString) ++ violation.declaredValue.stringify ++
    (" != verified " : JsString) ++ violation.signalKey ++ ("=" : JsString) ++
    violation.actualValue.stringify

/-- `describeFailure`. -/
def describeFailure : JsString :=
  let governanceDetail := result.policyGovernanceViolation.elim ("" : JsString) fun violation =>
    (" policy approval check failed: " : JsString) ++ violation.reason ++ ("." : JsString)
  let divergence := result.signalDivergence.getD []
  let divergenceDetails := if divergence.isEmpty then ("" : JsString) else
    (" Signal(s) diverged from verified state: " : JsString) ++
      JsString.join ", " (divergence.map divergenceDetail) ++ ("." : JsString)
  ("Execution Gateway rejected request: failed checks [" : JsString) ++
    JsString.join ", " result.failedChecks ++ ("]." : JsString) ++
    mismatchDetail "businessTransactionHash" result.hashMismatch ++
    mismatchDetail "policyContentHash" result.policyContentMismatch ++ governanceDetail ++
    mismatchDetail "signalsHash" result.signalsHashMismatch ++ divergenceDetails

end GatewayVerificationResult

/-- `NonceAlreadyConsumedError`. -/
def nonceAlreadyConsumedError (businessTransactionId : JsString) : Failure :=
  .parmanaError (("Execution Gateway rejected request for Business Transaction '" : JsString) ++
    businessTransactionId ++ JsString.ofString ("': authorization nonce has already been consumed " ++
      "(replay of an already-executed authorization)."))
    "NONCE_ALREADY_CONSUMED"

/-! ## Release -/

namespace ExecutionGateway
variable (g : ExecutionGateway Key)

/-- `gatewayAuthentication`: minted for the release where there is a minter. -/
def gatewayAuthenticationFor (control : ExecutionControlOptions) (authorizationId : JsString) :
    Except Failure JsValue :=
  match control.mintGatewayAuthentication with
  | some mint => mint authorizationId
  | none => .ok control.gatewayAuthentication

/-- What is handed over for a verified request, if the gateway is complete. -/
def releaseOf (request : ExecutionRequest) (result : GatewayVerificationResult)
    (content : ExecutableContent) : Except Failure Release :=
  let authorizationId := request.authorization.payload.authorizationId
  match g.executionControl with
  | none => return .connector content request.authorization result
  | some control =>
    if control.service then do
      let gatewayAuthentication ← gatewayAuthenticationFor control authorizationId
      let approvals := if result.checks.signalsStillCurrent == some true then
        releaseApprovals request.signals else []
      return .service request.authorization content approvals gatewayAuthentication
    else
      match control.channel, control.gatewayIdentity with
      | true, some present => do
        let connectorId ← control.route content
        let gatewayIdentity ← present
        return .channel authorizationId connectorId content request.authorization result
          gatewayIdentity
      | _, _ => throw (.error "Execution Gateway executionControl is incomplete.")

/-- `execute`. -/
def execute (dateParse : JsString → Option Int) (sha256 : List UInt8 → JsString)
    (request : ExecutionRequest) : GatewayProgram Key Json := do
  let now ← ask .now
  let (result, content) ← g.verify dateParse sha256 request now
  if result.valid then
    let released ← .done (g.releaseOf request result content)
    ask (.release released)
  else if result.isSoleFailureNonceReplay then
    throw (nonceAlreadyConsumedError content.businessTransactionId)
  else throw (.error result.describeFailure)

end ExecutionGateway

end Parmana.Gateway

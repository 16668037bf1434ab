import Parmana.Runtime.IntentService

/-! # The runtime engine

`RuntimeEngine.execute` takes one business transaction from its policy to its
trust record.  It is written here in the parts its comments name: the policy is
loaded and checked, the decision is made and enforced, the authorization is
signed, and the action is released between the storing of its intent and the
building of its record.  `Runtime.execute` runs the engine and stores the record.
-/
namespace Parmana
open Js Policy Interaction Interaction.Program RuntimeProgram

/-! ## Signals and Intent -/

/-- The Intent as the paths of a policy read it. -/
def Intent.snapshot (intent : Intent) : IntentSnapshot where
  target := some intent.target
  parameters := some intent.parameters

/-- `signalIntentBinder.findViolations`, in the runtime. -/
def findBindingViolations (policy : Json) (transaction : BusinessTransaction) :
    Except Failure (List SignalIntentBindingViolation) :=
  (SignalIntentBinder.findViolations policy transaction.presentedSignals
    transaction.intent.snapshot).mapError (fun _ => .typeError)

/-! ## Approvals that are needed -/

/-- The value of a path of a declaration. -/
def resolveDeclaredPath (intent : Intent) : JsValue → Except Failure JsValue
  | .json (.str path) => .ok (resolveIntentPath intent.snapshot path)
  | _ => typeError

/-- The approval one declaration asks for. -/
def neededApproval (intent : Intent) (signal : JsString) (declaration : Json) :
    Except Failure NeededApproval := do
  let resource ← resolveDeclaredPath intent (← (JsValue.json declaration).member "resourceId")
  let value ← match (JsValue.json declaration).get "value" with
    | .undefined => pure .undefined
    | path => resolveDeclaredPath intent path
  return {
    signal := signal
    resourceId := match resource with
      | .json (.str s) => some s
      | .json (.num n) => some n.toText
      | _ => none
    value := match value with
      | .json (.num n) => if n.isFinite then some n else none
      | _ => none }

def neededApprovals (intent : Intent) : Fields → Except Failure (List NeededApproval)
  | [] => .ok []
  | (signal, declaration) :: rest => do
    let needed ← neededApproval intent signal declaration
    return needed :: (← neededApprovals intent rest)

/-- The signals with every declared approval signal set to true.  Assigning to a
`__proto__` that is not a member yet adds none. -/
def approvedSignals (signals : Fields) (declarations : Fields) : Fields :=
  (declarations.filter (fun e => e.1 ≠ ("__proto__" : JsString) || Fields.has signals e.1)).map
    (fun e => (e.1, .bool true)) ++ signals

/-- `policyEngine.evaluate`, in the runtime. -/
def evaluatePolicy (re : RegExp) (policy : Json) (signals : Fields) :
    Except Failure PolicyDecision :=
  (PolicyEngine.evaluate re signals policy).mapError .evaluation

/-- `findNeededApprovals`: the approvals a refused request is waiting for, or
nothing when an approval would not help. -/
def findNeededApprovals (re : RegExp) (policy : Json) (signals : Fields) (intent : Intent) :
    Except Failure (Option (List NeededApproval)) := do
  let declarations := (JsValue.json policy).get "approvalSignals"
  if declarations = .undefined then return none
  else if declarations = .json .null then typeError
  else if declarations.entries.isEmpty then return none
  else do
    let entries := Approval.sortedEntries declarations
    let decision ← evaluatePolicy re policy (approvedSignals signals entries)
    if decision.outcome = .approve then return some (← neededApprovals intent entries)
    else return none

/-! ## Loading and checking the policy -/

/-- `PolicyRouter.load`. -/
def PolicyRouter.load (re : RegExp) (name version : JsString) : RuntimeProgram Json := do
  let policy ← ask (.loadPolicy name version)
  .done ((validate re policy).mapError .ofValidation)
  ask (.warnRuleConflicts policy)
  return policy

/-- `policy.policyId`. -/
def policyId (policy : Json) : JsValue := (JsValue.json policy).get "policyId"

/-- `policy.policyVersion`. -/
def policyVersion (policy : Json) : JsValue := (JsValue.json policy).get "policyVersion"

/-- What the checks before an evaluation found. -/
structure PolicyFindings where
  policyExecutionViolation : Option PolicyExecutionViolation
  capabilityBindingViolation : Option CapabilityPolicyBindingViolation
  bindingViolations : List SignalIntentBindingViolation
  deriving DecidableEq

/-- No check found anything. -/
def PolicyFindings.isClean (findings : PolicyFindings) : Bool :=
  findings.policyExecutionViolation.isNone && findings.capabilityBindingViolation.isNone &&
    findings.bindingViolations.isEmpty

namespace RuntimeEngine
variable (config : RuntimeConfig) (transaction : BusinessTransaction)

/-- Loads the policy and hashes its content. -/
def loadPolicy : RuntimeProgram (Json × JsString) := do
  hooks config (.beforePolicyLoad transaction)
  let policy ← PolicyRouter.load config.regExp transaction.policy.name transaction.policy.version
  hooks config (.afterPolicyLoad transaction policy)
  let policyContentHash ← ask (.hash policy)
  return (policy, policyContentHash)

/-- The governance anchor: evidence only, an error is logged. -/
def resolveAnchor (policy : Json) (policyContentHash : JsString) :
    RuntimeProgram (Option PolicyGovernanceAnchor) :=
  whenConfigured config.policyGovernanceAnchorResolver none
    (tryCatch
      (some <$> ask (.resolveGovernanceAnchor (policyId policy) (policyVersion policy)
        policyContentHash))
      (fun error => do
        .done error.logged
        return none))

/-- The three checks before an evaluation; each runs only when those before it
found nothing. -/
def checkPolicy (policy : Json) (policyContentHash : JsString) : RuntimeProgram PolicyFindings := do
  let execution ← whenConfigured config.policyExecutionVerifier none
    (ask (.verifyPolicyExecution (policyId policy) (policyVersion policy) policyContentHash))
  let capability ← whenConfigured (execution.isNone && config.capabilityPolicyBinder) none
    (ask (.findCapabilityViolation transaction.intent.action transaction.policy))
  let binding ← whenConfigured (execution.isNone && capability.isNone) []
    (.done (findBindingViolations policy transaction))
  return ⟨execution, capability, binding⟩

/-! ## The decision -/

/-- A rejection without a rule of the policy. -/
def rejection (policy : Json) (reason matchedRuleId : JsString) : PolicyDecision where
  policyId := policyId policy
  policyVersion := policyVersion policy
  outcome := .reject
  reason := .json (.str reason)
  matchedRuleId := .json (.str matchedRuleId)
  evaluatedRules := 0
  matchedPath := []

def executionReason (violation : PolicyExecutionViolation) : JsString :=
  "Rejected: " ++ violation.reason ++ "."

def capabilityReason (violation : CapabilityPolicyBindingViolation) : JsString :=
  match violation.reason with
  | some reason => "Rejected: " ++ reason ++ "."
  | none => "Rejected: capability \"" ++ violation.action ++ "\" requires policy \"" ++
      violation.expected.name ++ "\"@\"" ++ violation.expected.version ++ "\", but \"" ++
      violation.declared.name ++ "\"@\"" ++ violation.declared.version ++ "\" was declared."

def bindingText (violation : SignalIntentBindingViolation) : JsString :=
  violation.signalKey ++ "=" ++ violation.signalValue.stringify ++ " != intent." ++
    violation.intentPath ++ "=" ++ violation.intentValue.stringify

def bindingReason (violations : List SignalIntentBindingViolation) : JsString :=
  "Rejected: declared signal(s) do not match the executed intent (" ++
    JsString.join ", " (violations.map bindingText) ++ ")."

def stateText (violation : Approval.SignalStateViolation) : JsString :=
  violation.signalKey ++ "=" ++ violation.declaredValue.stringify ++ " != verified " ++
    violation.signalKey ++ "=" ++ violation.actualValue.stringify

def stateReason (violations : List Approval.SignalStateViolation) : JsString :=
  "Rejected: declared signal(s) do not match independently verified state (" ++
    JsString.join ", " (violations.map stateText) ++ ")."

/-- `provisionalDecision`. -/
def provisionalDecision (re : RegExp) (policy : Json) (signals : Fields)
    (findings : PolicyFindings) : Except Failure PolicyDecision :=
  match findings.policyExecutionViolation, findings.capabilityBindingViolation with
  | some violation, _ =>
    .ok (rejection policy (executionReason violation) "policy-execution-verification-violation")
  | none, some violation =>
    .ok (rejection policy (capabilityReason violation) "capability-policy-binding-violation")
  | none, none =>
    if findings.bindingViolations.isEmpty then evaluatePolicy re policy signals
    else .ok (rejection policy (bindingReason findings.bindingViolations)
      "signal-intent-binding-violation")

/-- What the signal state verifier is asked before the authorization. -/
def authorizeRequest (policy : Json) : Approval.SignalStateVerificationRequest where
  action := transaction.intent.action
  businessTransactionId := transaction.businessTransactionId
  intentParameters := some transaction.intent.parameters
  intentTarget := some transaction.intent.target
  stage := some .authorize
  policy := some policy

/-- `stateViolations`: the verifier is asked about a provisional approval only. -/
def verifySignalState (policy : Json) (provisional : PolicyDecision) :
    RuntimeProgram (List Approval.SignalStateViolation) :=
  whenConfigured (provisional.outcome = .approve && config.signalStateVerifier) []
    (ask (.findStateViolations (authorizeRequest transaction policy)
      transaction.presentedSignals))

/-- `policyDecision`: no approval without a verifier. -/
def finalDecision (policy : Json) (provisional : PolicyDecision)
    (stateViolations : List Approval.SignalStateViolation) : PolicyDecision :=
  if provisional.outcome = .approve && !config.signalStateVerifier then
    rejection policy ("Rejected: no approval verifier is configured, so the signed human approval " ++
      "this action needs cannot be checked." : String) "approval-verifier-not-configured"
  else if stateViolations.isEmpty then provisional
  else rejection policy (stateReason stateViolations) "signal-state-verification-violation"

/-- Evaluates the policy and verifies the state an approval rests on. -/
def decide (policy : Json) (findings : PolicyFindings) : RuntimeProgram PolicyDecision := do
  hooks config (.beforePolicyEvaluation transaction policy)
  let provisional ← .done (provisionalDecision config.regExp policy transaction.presentedSignals
    findings)
  let stateViolations ← verifySignalState config transaction policy provisional
  let policyDecision := finalDecision config policy provisional stateViolations
  hooks config (.afterPolicyEvaluation transaction policy policyDecision)
  hooks config (.beforeDecision transaction policyDecision)
  return policyDecision

/-! ## A refusal -/

/-- `writeRefusalRecord`. -/
def writeRefusalRecord (decision : Decision)
    (bindingViolations : List SignalIntentBindingViolation) : RuntimeProgram Unit :=
  whenConfigured config.refusalRecords () (bestEffort do
    let record ← RefusalRecordBuilder.build transaction decision bindingViolations
    ask (.createRefusalRecord record))

/-- `notifyApprovalNeeded`. -/
def notifyApprovalNeeded (decision : Decision) (policy : Json) : RuntimeProgram Unit :=
  whenConfigured config.approvalNeededNotifier () (bestEffort do
    match ← .done (findNeededApprovals config.regExp policy transaction.presentedSignals
        transaction.intent) with
    | none => return ()
    | some approvals => ask (.notify {
        businessTransactionId := transaction.businessTransactionId
        decisionId := decision.decisionId
        action := transaction.intent.action
        target := transaction.intent.target
        policyId := policyId policy
        policyVersion := policyVersion policy
        reason := decision.reason
        submittedBy := transaction.metadata.submittedBy
        approvals := approvals }))

/-- What a refusal leaves behind: its record, and a notice when an approval could
cure it. -/
def recordRefusal (decision : Decision) (policy : Json) (findings : PolicyFindings) :
    RuntimeProgram Unit :=
  if decision.outcome = .approved then return ()
  else do
    writeRefusalRecord config transaction decision findings.bindingViolations
    whenConfigured findings.isClean () (notifyApprovalNeeded config transaction decision policy)

end RuntimeEngine

/-! ## The gate -/

namespace ExecutionGate

/-- `canExecute`. -/
def canExecute (decision : Decision) : Bool := decision.outcome = .approved

/-- `enforce`. -/
def enforce (decision : Decision) : Except Failure Unit :=
  if canExecute decision then .ok ()
  else match decision.reason with
    | .undefined | .json .null => .error (.policyDenied ("Policy rejected execution." : String))
    | reason => do .error (.policyDenied (← reason.toText))

end ExecutionGate

/-! ## The authorization -/

namespace RuntimeEngine
variable (config : RuntimeConfig) (transaction : BusinessTransaction)

/-- What the signer is given. -/
def authorizationInput (decision : Decision) (policyContentHash signalsHash : JsString)
    (executableContent : ExecutableContent) : AuthorizationInput where
  decisionId := decision.decisionId
  businessTransactionId := transaction.businessTransactionId
  policyName := transaction.policy.name
  policyVersion := transaction.policy.version
  policyContentHash := policyContentHash
  signalsHash := signalsHash
  submittedBy := transaction.metadata.submittedBy
  grantedCapability := transaction.metadata.grantedCapability
  tenantId := transaction.metadata.tenantId
  executableContent := executableContent

/-- Enforces the decision and signs the authorization. -/
def authorize (policyDecision : PolicyDecision) (decision : Decision)
    (policyContentHash : JsString) : RuntimeProgram SignedExecutionAuthorization := do
  .done (ExecutionGate.enforce decision)
  let executableContent ← .done (toExecutableContent transaction)
  hooks config (.beforeAuthorization transaction policyDecision)
  let signalsHash ← ask (.hash (.obj transaction.presentedSignals))
  let authorization ← ask (.signAuthorization
    (authorizationInput transaction decision policyContentHash signalsHash executableContent)
    config.authorizationTtlSeconds)
  hooks config (.afterAuthorization transaction policyDecision authorization)
  return authorization

/-- The transaction as the record keeps it: with the hash of the policy that was
loaded, and its governance anchor. -/
def recordedTransaction (policyContentHash : JsString) (anchor : Option PolicyGovernanceAnchor) :
    BusinessTransaction :=
  { transaction with
    status := some (transaction.status.getD "RECEIVED")
    policy := { transaction.policy with
      contentHash := some policyContentHash
      governanceAnchor := anchor.or transaction.policy.governanceAnchor } }

/-- Everything before the release: the context the action is released with. -/
def prepareExecution : RuntimeProgram RuntimeContext := do
  let (policy, policyContentHash) ← loadPolicy config transaction
  let anchor ← resolveAnchor config policy policyContentHash
  let findings ← checkPolicy config transaction policy policyContentHash
  let policyDecision ← decide config transaction policy findings
  let decision ← DecisionBuilder.build transaction policyDecision
  recordRefusal config transaction decision policy findings
  let authorization ← authorize config transaction policyDecision decision policyContentHash
  let execution ← ExecutionBuilder.build transaction decision
  let context : RuntimeContext := {
    transaction := recordedTransaction transaction policyContentHash anchor
    decision := decision
    authorization := some authorization
    execution := some execution
    overriding := none
    verification := none
    receipt := none }
  hooks config (.afterDecision context)
  hooks config (.beforeExecution context)
  return context

/-! ## The release -/

/-- `outcomeUnknown`. -/
def outcomeUnknown (context : RuntimeContext) (cause : Failure) : Except Failure Failure := do
  if cause.hasOwnResponse then return cause
  else
    cause.logged
    return .executionOutcomeUnknown context.businessTransactionId context.authorizationId

/-- `recordIncomplete`. -/
def recordIncomplete (context : RuntimeContext) (cause : Failure) : Except Failure Failure := do
  cause.logged
  return .executionRecordIncomplete context.businessTransactionId context.authorizationId
    cause.message

/-- Hands the action to the pipeline; the intent of a failed call is marked
`ERRORED`. -/
def releaseAction (context : RuntimeContext) : RuntimeProgram RuntimeContext :=
  tryCatch (ask (.executePipeline context))
    (fun error => do
      whenConfigured config.executionIntents ()
        (ExecutionIntentService.markErrored context.businessTransactionId error)
      throw (← .done (outcomeUnknown context error)))

/-- Builds the record of a released action. -/
def recordExecution (context : RuntimeContext) : RuntimeProgram ExecutionTrustRecord :=
  tryCatch (do
      hooks config (.afterExecution context)
      hooks config (.beforeTrustRecord context)
      let trustRecord ← BusinessTrustPipeline.execute context
      hooks config (.afterTrustRecord context trustRecord)
      return trustRecord)
    (fun error => do throw (← .done (recordIncomplete context error)))

/-- The release stage: the intent is stored before the action is released. -/
def release (context : RuntimeContext) : RuntimeProgram (RuntimeContext × ExecutionTrustRecord) := do
  whenConfigured config.signingReadiness () (ask .assertReady)
  whenConfigured config.executionIntents () (ExecutionIntentService.prepare context)
  let processedContext ← releaseAction config context
  whenConfigured config.executionIntents () (ExecutionIntentService.markReleased processedContext)
  let trustRecord ← recordExecution config processedContext
  return (processedContext, trustRecord)

/-- `execute`. -/
def execute : RuntimeProgram (RuntimeContext × ExecutionTrustRecord) := do
  let context ← prepareExecution config transaction
  tryCatch (release config context)
    (fun error => do
      hooks config (.onRuntimeError context error)
      throw error)

end RuntimeEngine

namespace Runtime

/-- Stores the record of an executed transaction. -/
def storeRecord (trustRecord : ExecutionTrustRecord) : RuntimeProgram Unit :=
  tryCatch (ask (.createTrustRecord trustRecord))
    (fun error => do
      .done error.logged
      throw (.executionRecordIncomplete trustRecord.businessTransactionId
        (trustRecord.authorization.map (·.payload.authorizationId)) error.message))

/-- What the runtime does with the record of the engine. -/
def finish (executionIntents : Bool) (context : RuntimeContext)
    (trustRecord : ExecutionTrustRecord) :
    RuntimeProgram (RuntimeContext × ExecutionTrustRecord) := do
  storeRecord trustRecord
  whenConfigured executionIntents () (ExecutionIntentService.markFinalized
    trustRecord.businessTransactionId trustRecord.trustRecordId .inline)
  return (context, trustRecord)

/-- `Runtime.execute`.  The engine's own service of intents and the runtime's are
configured apart. -/
def execute (config : RuntimeConfig) (executionIntents : Bool) (transaction : BusinessTransaction) :
    RuntimeProgram (RuntimeContext × ExecutionTrustRecord) := do
  let (context, trustRecord) ← RuntimeEngine.execute config transaction
  finish executionIntents context trustRecord

end Runtime
end Parmana

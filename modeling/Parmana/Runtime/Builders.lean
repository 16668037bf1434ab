import Parmana.Runtime.Call

/-! # The builders of the runtime's records

Each builder puts together one record from what the engine has at that point.  A
signed record is a draft to which hashing and signing add a seal.
-/
namespace Parmana
open Js Policy Interaction Interaction.Program RuntimeProgram

/-! ## The decision and the execution -/

/-- The signals a transaction presents. -/
def BusinessTransaction.presentedSignals (transaction : BusinessTransaction) : Fields :=
  transaction.signals.getD []

/-- `toDecisionOutcome`. -/
def toDecisionOutcome : PolicyOutcome → DecisionOutcome
  | .approve => .approved
  | .reject => .rejected

/-- `DecisionBuilder.build`. -/
def DecisionBuilder.build (transaction : BusinessTransaction) (policyDecision : PolicyDecision) :
    RuntimeProgram Decision := do
  let decisionId ← ask (.randomUUID .decision)
  return {
    decisionId := decisionId
    intentId := transaction.intent.intentId
    policy := transaction.policy
    signals := transaction.presentedSignals
    outcome := toDecisionOutcome policyDecision.outcome
    reason := policyDecision.reason
    matchedRuleId := policyDecision.matchedRuleId
    evaluatedRules := policyDecision.evaluatedRules
    matchedPath := policyDecision.matchedPath }

/-- `ExecutionBuilder.build`. -/
def ExecutionBuilder.build (transaction : BusinessTransaction) (decision : Decision) :
    RuntimeProgram Execution := do
  let executionId ← ask (.randomUUID .execution)
  return {
    executionId := executionId
    businessTransactionId := transaction.businessTransactionId
    decision := decision
    status := .processing
    evidence := none }

/-- `toExecutableContent`. -/
def toExecutableContent (transaction : BusinessTransaction) : Except Failure ExecutableContent :=
  if transaction.intent.target.trim.isEmpty then
    .error (.error ("ExecutableContent.target must be a non-empty string." : String))
  else .ok {
    businessTransactionId := transaction.businessTransactionId
    action := transaction.intent.action
    target := transaction.intent.target
    parameters := transaction.intent.parameters }

/-! ## Signed records -/

/-- `RefusalRecordBuilder.build`. -/
def RefusalRecordBuilder.build (transaction : BusinessTransaction) (decision : Decision)
    (bindingViolations : List SignalIntentBindingViolation) : RuntimeProgram RefusalRecord := do
  let refusalRecordId ← ask (.randomUUID .refusalRecord)
  let draft : RefusalRecordDraft := {
    refusalRecordId := refusalRecordId
    businessTransactionId := transaction.businessTransactionId
    decision := decision
    target := transaction.intent.target
    parameters := transaction.intent.parameters
    bindingViolations := if bindingViolations.isEmpty then none else some bindingViolations
    submittedBy := transaction.metadata.submittedBy }
  let sealing ← ask (.seal (.refusal draft))
  return { draft with sealing := sealing }

/-- `ExecutionIntentBuilder.build`. -/
def ExecutionIntentBuilder.build (context : RuntimeContext) : RuntimeProgram ExecutionIntent :=
  match context.authorization with
  | none => throw (.error
      ("A signed execution authorization is required to build an Execution Intent." : String))
  | some authorization => do
    let createdAt ← ask .now
    let intentId ← ask (.randomUUID .executionIntent)
    let draft : ExecutionIntentDraft := {
      intentId := intentId
      businessTransactionId := context.businessTransactionId
      decisionId := context.decision.decisionId
      authorizationId := authorization.payload.authorizationId
      policyName := authorization.payload.policyName
      policyVersion := authorization.payload.policyVersion
      policyContentHash := authorization.payload.policyContentHash
      signalsHash := authorization.payload.signalsHash
      businessTransactionHash := authorization.payload.businessTransactionHash
      action := context.transaction.intent.action
      target := context.transaction.intent.target
      submittedBy := authorization.payload.submittedBy
      grantedCapability := authorization.payload.grantedCapability
      createdAt := createdAt }
    let sealing ← ask (.seal (.intent draft))
    return { draft with sealing := sealing }

/-- `readConnectorEvidenceHash`. -/
def readConnectorEvidenceHash (execution : Execution) : Option JsString :=
  let evidence : JsValue := execution.evidence.elim .undefined .json
  match ((evidence.get "attributes").get "connector").get "connectorEvidenceHash" with
  | .json (.str hash) => some hash
  | _ => none

/-- A member that is left out when it is `undefined`. -/
def optionalMember (name : JsString) (value : Option JsString) : Fields :=
  value.toList.map (fun text => (name, Json.str text))

/-- The members of an evidence anchor that are hashed. -/
def anchorContent (policyContentHash governanceAnchorStatus connectorEvidenceHash : Option JsString) :
    Fields :=
  optionalMember "policyContentHash" policyContentHash ++
    optionalMember "governanceAnchorStatus" governanceAnchorStatus ++
    optionalMember "connectorEvidenceHash" connectorEvidenceHash

/-- `buildEvidenceAnchor`. -/
def buildEvidenceAnchor (context : RuntimeContext) (execution : Execution) :
    RuntimeProgram (Option EvidenceAnchor) := do
  let policyContentHash := context.transaction.policy.contentHash
  let governanceAnchorStatus := context.transaction.policy.governanceAnchor.map (·.status)
  let connectorEvidenceHash := readConnectorEvidenceHash execution
  let content := anchorContent policyContentHash governanceAnchorStatus connectorEvidenceHash
  if content.isEmpty then return none
  else do
    let anchorHash ← ask (.hash (.obj content))
    return some {
      policyContentHash := policyContentHash
      governanceAnchorStatus := governanceAnchorStatus
      connectorEvidenceHash := connectorEvidenceHash
      anchorHash := anchorHash }

/-- `BusinessTrustRecordBuilder.build`. -/
def BusinessTrustRecordBuilder.build (context : RuntimeContext) (execution : Execution) :
    RuntimeProgram ExecutionTrustRecord := do
  let evidenceAnchor ← buildEvidenceAnchor context execution
  let trustRecordId ← ask (.randomUUID .trustRecord)
  let draft : TrustRecordDraft := {
    trustRecordId := trustRecordId
    businessTransactionId := context.businessTransactionId
    transaction := context.transaction
    authorization := context.authorization
    overrides := context.overriding.toList
    executions := [execution]
    verifications := context.verification.toList
    receipts := context.receipt.toList
    evidenceAnchor := evidenceAnchor }
  let sealing ← ask (.seal (.trustRecord draft))
  return { draft with sealing := sealing }

/-- `BusinessTrustPipeline.execute`. -/
def BusinessTrustPipeline.execute (context : RuntimeContext) :
    RuntimeProgram ExecutionTrustRecord :=
  match context.execution with
  | none => throw (.error ("Execution artifact is required." : String))
  | some execution => BusinessTrustRecordBuilder.build context execution

end Parmana

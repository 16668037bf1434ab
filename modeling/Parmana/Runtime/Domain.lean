import Parmana.Js.Stringify
import Parmana.Policy.Engine

/-! # What the runtime passes around

The records of a business transaction, from the request to the trust record, with
the members the runtime reads or writes; and the errors it throws.  Timestamps
that are only stored are left out, and what hashing and signing add to a record is
one value, its seal.
-/
namespace Parmana
open Js Policy

/-! ## The transaction and its decision -/

/-- `PolicyGovernanceAnchor`. -/
structure PolicyGovernanceAnchor where
  status : JsString
  approvalRecordId : Option JsString
  deriving DecidableEq

/-- `PolicyReference`. -/
structure PolicyReference where
  name : JsString
  version : JsString
  schemaVersion : JsString
  contentHash : Option JsString
  governanceAnchor : Option PolicyGovernanceAnchor
  deriving DecidableEq

/-- `Intent`. -/
structure Intent where
  intentId : JsString
  action : JsString
  target : JsString
  parameters : Fields
  deriving DecidableEq

/-- `TransactionMetadata`. -/
structure TransactionMetadata where
  submittedBy : Option JsString
  grantedCapability : Option JsString
  tenantId : Option JsString
  deriving DecidableEq

/-- `BusinessTransaction`. -/
structure BusinessTransaction where
  businessTransactionId : JsString
  metadata : TransactionMetadata
  intent : Intent
  policy : PolicyReference
  signals : Option Fields
  status : Option JsString
  deriving DecidableEq

/-- `DecisionOutcome`. -/
inductive DecisionOutcome where
  | approved
  | rejected
  deriving DecidableEq, Repr

/-- `Decision`. -/
structure Decision where
  decisionId : JsString
  intentId : JsString
  policy : PolicyReference
  signals : Fields
  outcome : DecisionOutcome
  reason : JsValue
  matchedRuleId : JsValue
  evaluatedRules : Nat
  matchedPath : List JsValue
  deriving DecidableEq

/-! ## The authorization -/

/-- `ExecutableContent`. -/
structure ExecutableContent where
  businessTransactionId : JsString
  action : JsString
  target : JsString
  parameters : Fields
  deriving DecidableEq

/-- `ExecutionAuthorizationPayload`. -/
structure ExecutionAuthorizationPayload where
  version : JsValue
  authorizationId : JsString
  nonce : JsString
  decisionId : JsString
  businessTransactionId : JsString
  policyName : JsString
  policyVersion : JsString
  authorizedAt : JsString
  expiresAt : JsString
  businessTransactionHash : JsString
  policyContentHash : Option JsString
  signalsHash : Option JsString
  submittedBy : Option JsString
  grantedCapability : Option JsString
  deriving DecidableEq

/-- `SignedExecutionAuthorization`. -/
structure SignedExecutionAuthorization where
  payload : ExecutionAuthorizationPayload
  signature : JsString
  keyId : JsString
  algorithm : JsString
  deriving DecidableEq

/-- What `RuntimeAuthorizationSigner.sign` is given. -/
structure AuthorizationInput where
  decisionId : JsString
  businessTransactionId : JsString
  policyName : JsString
  policyVersion : JsString
  policyContentHash : JsString
  signalsHash : JsString
  submittedBy : Option JsString
  grantedCapability : Option JsString
  tenantId : Option JsString
  executableContent : ExecutableContent
  deriving DecidableEq

/-! ## The execution and its records -/

/-- `ExecutionStatus`. -/
inductive ExecutionStatus where
  | processing
  | completed
  | failed
  deriving DecidableEq, Repr

/-- `Execution`. -/
structure Execution where
  executionId : JsString
  businessTransactionId : JsString
  decision : Decision
  status : ExecutionStatus
  evidence : Option Json
  deriving DecidableEq

/-- `RuntimeContext`. -/
structure RuntimeContext where
  transaction : BusinessTransaction
  decision : Decision
  authorization : Option SignedExecutionAuthorization
  execution : Option Execution
  overriding : Option Json
  verification : Option Json
  receipt : Option Json
  deriving DecidableEq

def RuntimeContext.businessTransactionId (context : RuntimeContext) : JsString :=
  context.transaction.businessTransactionId

def RuntimeContext.authorizationId (context : RuntimeContext) : Option JsString :=
  context.authorization.map (fun a => a.payload.authorizationId)

/-- The hash and the signatures of a record. -/
structure Seal where
  hash : JsString
  signature : JsString
  deriving DecidableEq

/-- `EvidenceAnchor`. -/
structure EvidenceAnchor where
  policyContentHash : Option JsString
  governanceAnchorStatus : Option JsString
  connectorEvidenceHash : Option JsString
  anchorHash : JsString
  deriving DecidableEq

/-- `TrustRecordDraft`. -/
structure TrustRecordDraft where
  trustRecordId : JsString
  businessTransactionId : JsString
  transaction : BusinessTransaction
  authorization : Option SignedExecutionAuthorization
  overrides : List Json
  executions : List Execution
  verifications : List Json
  receipts : List Json
  evidenceAnchor : Option EvidenceAnchor
  deriving DecidableEq

/-- `ExecutionTrustRecord`. -/
structure ExecutionTrustRecord extends TrustRecordDraft where
  sealing : Seal
  deriving DecidableEq

/-- `ExecutionIntentDraft`. -/
structure ExecutionIntentDraft where
  intentId : JsString
  businessTransactionId : JsString
  decisionId : JsString
  authorizationId : JsString
  policyName : JsString
  policyVersion : JsString
  policyContentHash : Option JsString
  signalsHash : Option JsString
  businessTransactionHash : JsString
  action : JsString
  target : JsString
  submittedBy : Option JsString
  grantedCapability : Option JsString
  createdAt : Int
  deriving DecidableEq

/-- `ExecutionIntent`. -/
structure ExecutionIntent extends ExecutionIntentDraft where
  sealing : Seal
  deriving DecidableEq

/-! ## Errors -/

/-- `ExecutionIntentState`. -/
inductive ExecutionIntentState where
  | prepared
  | released
  | finalized
  | errored
  | resolved
  deriving DecidableEq, Repr

/-- The name of a state. -/
def ExecutionIntentState.name : ExecutionIntentState → JsString
  | .prepared => "PREPARED"
  | .released => "RELEASED"
  | .finalized => "FINALIZED"
  | .errored => "ERRORED"
  | .resolved => "RESOLVED"

/-- What the runtime or a collaborator throws.  The texts of the language's own
`TypeError` and of the errors of an evaluation are not modelled. -/
inductive Failure where
  /-- `ExecutionGate.enforce`. -/
  | policyDenied (reason : JsString)
  | executionIntentUnavailable (businessTransactionId : JsString) (cause : Option JsString)
  | executionOutcomeUnknown (businessTransactionId : JsString) (authorizationId : Option JsString)
  | executionRecordIncomplete (businessTransactionId : JsString)
      (authorizationId : Option JsString) (cause : Option JsString)
  | executionIntentNotFound (businessTransactionId : JsString)
  | executionIntentNotFinalizable (businessTransactionId : JsString)
      (state : ExecutionIntentState)
  | executionIntentNotResolvable (businessTransactionId : JsString)
      (state : ExecutionIntentState) (hint : JsString)
  | executionIntentResolutionInvalid (reason : JsString)
  /-- Any other `RuntimeError`. -/
  | runtimeError (message code : JsString) (status : Nat)
  /-- A `ParmanaError`. -/
  | parmanaError (message code : JsString)
  /-- A `PolicyError`. -/
  | policyError (message : JsString)
  | typeError
  /-- What evaluating a policy throws. -/
  | evaluation (error : EvaluationError)
  /-- Any other `Error`. -/
  | error (message : JsString)
  /-- A value that is not an `Error`, with its text. -/
  | value (text : JsString)
  /-- A value that is not an `Error` and has no text: `String` throws on it. -/
  | unprintable (thrown : Failure)
  deriving DecidableEq

instance : HasTypeError Failure := ⟨.typeError⟩

namespace Failure

/-- What `validate` throws, in the runtime. -/
def ofValidation : ValidationError → Failure
  | .policy message => .policyError message
  | .typeError => .typeError

/-- `error instanceof RuntimeError || ParmanaError || PolicyError`. -/
def hasOwnResponse : Failure → Bool
  | .typeError | .evaluation _ | .error _ | .value _ | .unprintable _ => false
  | _ => true

/-- ` Cause: …`, when there is one. -/
def causeText (cause : Option JsString) : JsString := cause.elim "" (fun text => " Cause: " ++ text)

/-- ` authorizationId: ….`, when there is one. -/
def authorizationText (authorizationId : Option JsString) : JsString :=
  authorizationId.elim "" (fun id => " authorizationId: " ++ id ++ ".")

/-- `error.message`, of an `Error`; what the language's own errors say is left out. -/
def message : Failure → Option JsString
  | .policyDenied reason => some ("Execution rejected: " ++ reason)
  | .executionIntentUnavailable id cause =>
    some ("The signed Execution Intent for business transaction '" ++ id ++
      "' could not be created and stored; refusing to release the action. Nothing was executed." ++
      causeText cause)
  | .executionOutcomeUnknown id authorizationId =>
    some ("The action for business transaction '" ++ id ++
      ("' was released to the execution system, but the call failed, so whether it was performed " ++
        "is unknown. Do not retry as a new transaction: check the target system, then close the " ++
        "Execution Intent with POST /execution-intents/" : String) ++ id ++ "/resolve." ++
      authorizationText authorizationId)
  | .executionRecordIncomplete id authorizationId cause =>
    some ("The action for business transaction '" ++ id ++
      ("' was released to the execution system, but its signed Execution Trust Record could not " ++
        "be produced. Do not retry as a new transaction: reconcile against the connector and the " ++
        "execution audit events for this businessTransactionId." : String) ++
      authorizationText authorizationId ++ causeText cause)
  | .executionIntentNotFound id =>
    some ("No Execution Intent exists for business transaction '" ++ id ++
      "'. Transactions created before Execution Intents were introduced have none.")
  | .executionIntentNotFinalizable id state =>
    some ("The Execution Intent for business transaction '" ++ id ++ "' is in state " ++
      state.name ++
      (" and has no saved execution result, so its signed Execution Trust Record cannot be " ++
        "rebuilt. The action may or may not have been released. Establish the outcome from the " ++
        "connector and reconcile it by hand. Nothing was called." : String))
  | .executionIntentNotResolvable id state hint =>
    some ("The Execution Intent for business transaction '" ++ id ++ "' is in state " ++
      state.name ++ " and cannot be resolved by hand. " ++ hint ++ " Nothing was changed.")
  | .executionIntentResolutionInvalid reason => some ("The resolution is invalid: " ++ reason)
  | .runtimeError message _ _ | .parmanaError message _ | .policyError message
  | .error message => some message
  | .typeError | .evaluation _ => some ""
  | .value _ | .unprintable _ => none

/-- `error instanceof Error ? error.message : String(error)`. -/
def text : Failure → Except Failure JsString
  | .value text => .ok text
  | .unprintable thrown => .error thrown
  | failure => .ok (failure.message.getD "")

/-- `console.error`, with the text of the error. -/
def logged (failure : Failure) : Except Failure Unit := failure.text.map fun _ => ()

end Failure
end Parmana

import Parmana.Approval.Verifier
import Parmana.Policy.SignalIntentBinder
import Parmana.Runtime.Repositories

/-! # The collaborators of the runtime

The calls `RuntimeEngine`, `Runtime`, the execution intent service and the
finalizer make, with what each one answers.  A hook is called by its position in
the list of registered hooks and the point it runs at; one that has no method for
the point is one that returns.

Which of the optional collaborators there are is the configuration.
-/
namespace Parmana
open Js Policy Interaction Interaction.Program

/-! ## What the collaborators are asked and answer -/

/-- `PolicyExecutionViolation`. -/
structure PolicyExecutionViolation where
  reason : JsString
  deriving DecidableEq

/-- `CapabilityPolicyBindingViolation`. -/
structure CapabilityPolicyBindingViolation where
  action : JsString
  expected : PolicyReference
  declared : PolicyReference
  reason : Option JsString
  deriving DecidableEq

/-- `NeededApproval`. -/
structure NeededApproval where
  signal : JsString
  resourceId : Option JsString
  value : Option JsNumber
  deriving DecidableEq

/-- `ApprovalNeededEvent`. -/
structure ApprovalNeededEvent where
  businessTransactionId : JsString
  decisionId : JsString
  action : JsString
  target : JsString
  policyId : JsValue
  policyVersion : JsValue
  reason : JsValue
  submittedBy : Option JsString
  approvals : List NeededApproval
  deriving DecidableEq

/-- `RefusalRecord`, before its hash and signature. -/
structure RefusalRecordDraft where
  refusalRecordId : JsString
  businessTransactionId : JsString
  decision : Decision
  target : JsString
  parameters : Fields
  bindingViolations : Option (List SignalIntentBindingViolation)
  submittedBy : Option JsString
  deriving DecidableEq

/-- `RefusalRecord`. -/
structure RefusalRecord extends RefusalRecordDraft where
  sealing : Seal
  deriving DecidableEq

/-- A signed record before its hash and signatures. -/
inductive Draft where
  | refusal (draft : RefusalRecordDraft)
  | intent (draft : ExecutionIntentDraft)
  | trustRecord (draft : TrustRecordDraft)
  deriving DecidableEq

/-- Where a hook runs, with what it is given. -/
inductive HookPoint where
  | beforePolicyLoad (transaction : BusinessTransaction)
  | afterPolicyLoad (transaction : BusinessTransaction) (policy : Json)
  | beforePolicyEvaluation (transaction : BusinessTransaction) (policy : Json)
  | afterPolicyEvaluation (transaction : BusinessTransaction) (policy : Json)
      (decision : PolicyDecision)
  | beforeDecision (transaction : BusinessTransaction) (decision : PolicyDecision)
  | beforeAuthorization (transaction : BusinessTransaction) (decision : PolicyDecision)
  | afterAuthorization (transaction : BusinessTransaction) (decision : PolicyDecision)
      (authorization : SignedExecutionAuthorization)
  | afterDecision (context : RuntimeContext)
  | beforeExecution (context : RuntimeContext)
  | afterExecution (context : RuntimeContext)
  | beforeTrustRecord (context : RuntimeContext)
  | afterTrustRecord (context : RuntimeContext) (trustRecord : ExecutionTrustRecord)
  | onRuntimeError (context : RuntimeContext) (error : Failure)
  deriving DecidableEq

/-- What a fresh identifier is for. -/
inductive Identified where
  | decision
  | execution
  | refusalRecord
  | executionIntent
  | trustRecord
  deriving DecidableEq, Repr

/-! ## The calls -/

/-- The calls of the runtime. -/
inductive RuntimeCall where
  /-- `crypto.randomUUID()`. -/
  | randomUUID (identified : Identified)
  /-- `new Date()`, where the time is kept. -/
  | now
  /-- The method of one registered hook. -/
  | hook (index : Nat) (point : HookPoint)
  /-- `PolicyRepository.load`. -/
  | loadPolicy (name version : JsString)
  /-- The advisory search of `PolicyRouter.load` for rules that conflict: each is logged. -/
  | warnRuleConflicts (policy : Json)
  /-- The hash of canonical content. -/
  | hash (content : Json)
  /-- `policyGovernanceAnchorResolver.resolve`. -/
  | resolveGovernanceAnchor (policyId policyVersion : JsValue) (contentHash : JsString)
  /-- `policyExecutionVerifier.verify`. -/
  | verifyPolicyExecution (policyId policyVersion : JsValue) (contentHash : JsString)
  /-- `capabilityPolicyBinder.findViolation`. -/
  | findCapabilityViolation (action : JsString) (declared : PolicyReference)
  /-- `signalStateVerifier.findViolations`. -/
  | findStateViolations (request : Approval.SignalStateVerificationRequest) (signals : Fields)
  /-- The hash and the signatures of a record. -/
  | seal (draft : Draft)
  /-- `refusalRecordRepository.create`. -/
  | createRefusalRecord (record : RefusalRecord)
  /-- `approvalNeededNotifier.notify`. -/
  | notify (event : ApprovalNeededEvent)
  /-- `authorizationSigner.sign`. -/
  | signAuthorization (input : AuthorizationInput) (ttlSeconds : JsNumber)
  /-- `signingReadiness.assertReady`. -/
  | assertReady
  /-- `pipeline.execute`: the action is released inside this call. -/
  | executePipeline (context : RuntimeContext)
  /-- `ExecutionIntentRepository`. -/
  | createIntent (intent : ExecutionIntent)
  | findIntent (businessTransactionId : JsString)
  | markReleased (businessTransactionId : JsString) (context : RuntimeContext) (releasedAt : Int)
  | markErrored (businessTransactionId reason : JsString)
  | markFinalized (businessTransactionId trustRecordId : JsString) (mode : FinalizationMode)
      (finalizedAt : Int)
  | markResolved (businessTransactionId : JsString) (input : ResolutionInput)
  /-- `ExecutionTrustRecordRepository`. -/
  | createTrustRecord (record : ExecutionTrustRecord)
  | findTrustRecord (businessTransactionId : JsString)
  deriving DecidableEq

/-- What a call answers. -/
abbrev RuntimeCall.Answer : RuntimeCall → Type
  | .randomUUID _ | .hash _ => JsString
  | .now => Int
  | .loadPolicy .. => Json
  | .resolveGovernanceAnchor .. => PolicyGovernanceAnchor
  | .verifyPolicyExecution .. => Option PolicyExecutionViolation
  | .findCapabilityViolation .. => Option CapabilityPolicyBindingViolation
  | .findStateViolations .. => List Approval.SignalStateViolation
  | .seal _ => Seal
  | .signAuthorization .. => SignedExecutionAuthorization
  | .executePipeline _ => RuntimeContext
  | .findIntent _ => Option StoredExecutionIntent
  | .markResolved .. => Bool
  | .findTrustRecord _ => Option ExecutionTrustRecord
  | .hook .. | .warnRuleConflicts _ | .createRefusalRecord _ | .notify _ | .assertReady
  | .createIntent _ | .markReleased .. | .markErrored .. | .markFinalized .. | .createTrustRecord _ => Unit

/-- A program of the runtime. -/
abbrev RuntimeProgram (α : Type) := Program RuntimeCall RuntimeCall.Answer Failure α

/-- A call of the runtime and its answer. -/
abbrev RuntimeEvent := Event RuntimeCall RuntimeCall.Answer Failure

/-- What a runtime is built with. -/
structure RuntimeConfig where
  regExp : RegExp
  authorizationTtlSeconds : JsNumber
  /-- The number of registered hooks. -/
  hooks : Nat
  refusalRecords : Bool
  signalStateVerifier : Bool
  capabilityPolicyBinder : Bool
  policyExecutionVerifier : Bool
  policyGovernanceAnchorResolver : Bool
  signingReadiness : Bool
  executionIntents : Bool
  approvalNeededNotifier : Bool

namespace RuntimeProgram

/-- Makes one call. -/
abbrev ask (call : RuntimeCall) : RuntimeProgram call.Answer := perform call

/-- `hookRunner`: the hooks one after the other, none after the first that
throws. -/
def runHooks (point : HookPoint) : List Nat → RuntimeProgram Unit
  | [] => return ()
  | index :: rest => do
    ask (.hook index point)
    runHooks point rest

/-- The registered hooks at one point. -/
def hooks (config : RuntimeConfig) (point : HookPoint) : RuntimeProgram Unit :=
  runHooks point (List.range config.hooks)

/-- Calls an optional collaborator, or goes on with `absent`. -/
def whenConfigured {α : Type} (configured : Bool) (absent : α) (p : RuntimeProgram α) :
    RuntimeProgram α :=
  if configured then p else return absent

/-- Runs `p`; an error is logged and not thrown again. -/
def bestEffort (p : RuntimeProgram Unit) : RuntimeProgram Unit :=
  tryCatch p (fun error => .done error.logged)

end RuntimeProgram
end Parmana

import Parmana.Crypto.CanonicalSerializer
import Parmana.Runtime.Call

/-! # What the execution gateway reads and asks

The gateway checks a request against the signed authorization that comes with it
and hands the checked content on.  Everything outside it is a `GatewayCall`: the
clock, the keys, the signature check, the policy repository, the approval records,
the signal verifier, the nonce store, and the system the content is released to.

Hashing is none of them: a hash is computed, from canonical bytes, by a function
of bytes.
-/
namespace Parmana.Gateway
open Js Interaction Interaction.Program

/-! ## Requests and results -/

/-- `ExecutionRequest`. -/
structure ExecutionRequest where
  businessTransactionId : JsString
  action : JsString
  target : JsString
  parameters : Fields
  signals : Option Fields
  authorization : SignedExecutionAuthorization
  deriving DecidableEq

/-- `toExecutableContent`. -/
def toExecutableContent (input : ExecutionRequest) : Except Failure ExecutableContent :=
  if input.target.trim.isEmpty then
    .error (.error "ExecutableContent.target must be a non-empty string.")
  else .ok ⟨input.businessTransactionId, input.action, input.target, input.parameters⟩

/-- The members of the content. -/
def contentFields (content : ExecutableContent) : Fields :=
  [("businessTransactionId", .str content.businessTransactionId),
    ("action", .str content.action), ("target", .str content.target),
    ("parameters", .obj content.parameters)]

/-- The content as a document. -/
def contentJson (content : ExecutableContent) : Json := .obj (contentFields content)

/-- `KeyExpiryEntry`. -/
structure KeyExpiryEntry where
  expiresAt : Option Int
  revoked : Option Bool
  deriving DecidableEq

/-- The checks of an `EnvelopeChecksResult`. -/
structure EnvelopeChecks where
  keyValid : Option Bool
  versionSupported : Bool
  signatureVerified : Bool
  notExpired : Bool
  ttlWithinPolicy : Bool
  deriving DecidableEq

/-- The checks of a `GatewayVerificationResult`. -/
structure GatewayChecks extends EnvelopeChecks where
  businessTransactionHashMatches : Bool
  policyStillCurrent : Option Bool
  policyGovernanceVerified : Option Bool
  signalsStillCurrent : Option Bool
  nonceUnseen : Bool
  deriving DecidableEq

/-- Two hashes that differ. -/
structure Mismatch where
  expected : JsString
  actual : JsString
  deriving DecidableEq

/-- `GatewayVerificationResult`. -/
structure GatewayVerificationResult where
  valid : Bool
  checks : GatewayChecks
  hashMismatch : Option Mismatch
  policyContentMismatch : Option Mismatch
  policyGovernanceViolation : Option PolicyExecutionViolation
  signalsHashMismatch : Option Mismatch
  signalDivergence : Option (List Approval.SignalStateViolation)
  deriving DecidableEq

/-! ## The release -/

/-- `ReleaseApproval`. -/
structure ReleaseApproval where
  approverId : JsString
  keyId : JsString
  approvalId : JsString
  deriving DecidableEq

/-- `asRecord`. -/
def asRecord : JsValue → Option Fields
  | .json (.obj fields) => some fields
  | _ => none

/-- The body of the loop of `releaseApprovals`. -/
def releaseApproval (value : Json) : Option ReleaseApproval := do
  let record ← asRecord value
  let payload ← asRecord (JsValue.getFields record "payload")
  let issuer ← asRecord (JsValue.getFields payload "issuer")
  match JsValue.getFields payload "approvalId", JsValue.getFields issuer "approverId",
    JsValue.getFields issuer "keyId" with
  | .json (.str approvalId), .json (.str approverId), .json (.str keyId) =>
    some ⟨approverId, keyId, approvalId⟩
  | _, _, _ => none

/-- `releaseApprovals`. -/
def releaseApprovals : Option Fields → List ReleaseApproval
  | none => []
  | some signals => (Fields.entries signals).filterMap fun p => releaseApproval p.2

/-- What the gateway hands to the system it releases to. -/
inductive Release where
  /-- `connector.execute`. -/
  | connector (transaction : ExecutableContent) (authorization : SignedExecutionAuthorization)
      (verification : GatewayVerificationResult)
  /-- `executionControl.service.execute`. -/
  | service (authorization : SignedExecutionAuthorization) (executableContent : ExecutableContent)
      (approvals : List ReleaseApproval) (gatewayAuthentication : JsValue)
  /-- `executionControl.channel.release`. -/
  | channel (executionId connectorId : JsString) (transaction : ExecutableContent)
      (authorization : SignedExecutionAuthorization) (verification : GatewayVerificationResult)
      (gatewayIdentity : JsValue)
  deriving DecidableEq

namespace Release

/-- The content that is carried out. -/
def content : Release → ExecutableContent
  | .connector transaction .. => transaction
  | .service _ executableContent .. => executableContent
  | .channel _ _ transaction .. => transaction

/-- The authorization it goes with. -/
def authorization : Release → SignedExecutionAuthorization
  | .connector _ authorization _ => authorization
  | .service authorization .. => authorization
  | .channel _ _ _ authorization .. => authorization

end Release

/-! ## The calls -/

/-- The calls of the gateway. -/
inductive GatewayCall (Key : Type) where
  /-- `new Date()`. -/
  | now
  /-- `keyExpiryStore.get`. -/
  | getKeyExpiry (keyId : JsString)
  /-- `keyProvider.getPublicKey`. -/
  | getPublicKey (keyId : JsString)
  /-- `SignatureVerifier.verify`: over the canonical bytes of the payload. -/
  | verifySignature (payload : ExecutionAuthorizationPayload) (signature : JsString)
      (publicKey : Key)
  /-- `policyRepository.load`. -/
  | loadPolicy (policyName policyVersion : JsString)
  /-- `policyApprovalVerifier.verify`. -/
  | verifyPolicyApproval (policyName policyVersion contentHash : JsString)
  /-- `signalStateVerifier.findViolations`. -/
  | findViolations (request : Approval.SignalStateVerificationRequest) (signals : Fields)
  /-- `nonceStore.checkAndRecord`. -/
  | checkAndRecord (nonce expiresAt : JsString)
  /-- The action is carried out inside this call. -/
  | release (release : Release)
  deriving DecidableEq

/-- What a call answers. -/
abbrev GatewayCall.Answer {Key : Type} : GatewayCall Key → Type
  | .now => Int
  | .getKeyExpiry _ => Option KeyExpiryEntry
  | .getPublicKey _ => Key
  | .verifySignature .. => Bool
  | .loadPolicy .. => Json
  | .verifyPolicyApproval .. => Option PolicyExecutionViolation
  | .findViolations .. => List Approval.SignalStateViolation
  | .checkAndRecord .. => Bool
  | .release _ => Json

/-- A program of the gateway. -/
abbrev GatewayProgram (Key α : Type) := Program (GatewayCall Key) GatewayCall.Answer Failure α

/-- A call of the gateway and its answer. -/
abbrev GatewayEvent (Key : Type) := Event (GatewayCall Key) GatewayCall.Answer Failure

/-- Makes one call. -/
abbrev ask {Key : Type} (call : GatewayCall Key) : GatewayProgram Key call.Answer := perform call

/-! ## Hashing -/

/-- `TrustRecordHasher.hash`, `sha256` giving the digest of bytes in hexadecimal. -/
def contentHash (sha256 : List UInt8 → JsString) (value : Json) : Except Failure JsString :=
  match Crypto.serialize (.ofJson value) with
  | .ok bytes => .ok (sha256 bytes)
  | .error message => .error (.error message)

end Parmana.Gateway

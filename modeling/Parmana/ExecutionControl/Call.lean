import Parmana.Gateway.EnvelopeVerifier

/-! # What execution control reads and asks

A release is carried out by a connector.  The service opens a gateway session for
it and hands the connector a request; the connector uses the session up, leases a
credential for the one execution, and calls its executor.  Both record what
became of it.

The sessions and the leases are kept in memory, so each method of their stores is
one call here, a `ConnectorCall`, made without a pause.  The clock, the
authenticator, the registry, the credentials themselves, the executor and the
audit sink are the other calls, and may answer anything.
-/
namespace Parmana.ExecutionControl
open Js Interaction Interaction.Program Parmana.Gateway

/-! ## Requests -/

/-- `GatewayIdentity`. -/
structure GatewayIdentity where
  gatewayId : JsString
  publicIdentity : JsString
  authenticationMetadata : List (JsString × JsString)
  deriving DecidableEq

/-- `ConnectorIdentity`. -/
structure ConnectorIdentity where
  connectorId : JsString
  publicIdentity : JsString
  authenticationMetadata : List (JsString × JsString)
  deriving DecidableEq

/-- `VerifiedTransaction`. -/
structure VerifiedTransaction where
  authorizationVerified : Bool
  executableContentVerified : Bool
  replayCheckPassed : Bool
  deriving DecidableEq

/-- `GatewaySession`. -/
structure GatewaySession where
  sessionId : JsString
  createdAt : JsString
  expiresAt : JsString
  authorizationId : JsString
  deriving DecidableEq

/-- `ExecutionRelease`. -/
structure ExecutionRelease where
  authorization : SignedExecutionAuthorization
  executableContent : ExecutableContent
  verifiedTransaction : VerifiedTransaction
  approvals : Option (List ReleaseApproval)
  deriving DecidableEq

/-- `GatewayExecutionRequest`, which is frozen before a connector sees it. -/
structure GatewayExecutionRequest where
  authorization : SignedExecutionAuthorization
  executableContent : ExecutableContent
  verifiedTransaction : VerifiedTransaction
  gatewayIdentity : GatewayIdentity
  gatewaySession : GatewaySession
  approvals : Option (List ReleaseApproval)
  deriving DecidableEq

/-- `SessionCredential`. -/
structure SessionCredential where
  sessionCredentialId : JsString
  connectorId : JsString
  authorizationId : JsString
  issuedAt : JsString
  expiresAt : JsString
  deriving DecidableEq

/-- An object that is compared with `===`, known by its place. -/
abbrev ObjectRef := Nat

/-- `InMemorySessionCredentialVault`: its place, for the records it holds, and the
lifetime its constructor lets through. -/
structure SessionCredentialVault where
  place : ObjectRef
  lifetimeMs : JsNumber
  positive : lifetimeMs.le .zero = false
  deriving DecidableEq

/-- `SessionCredentialSecureConnector`, with the gateway authentication its policy
is given. -/
structure SecureConnector where
  identity : ConnectorIdentity
  capabilities : List JsString
  gatewayAuthentication : JsValue
  sessionCredentials : SessionCredentialVault
  deriving DecidableEq

/-- `connectorId`. -/
def SecureConnector.connectorId (connector : SecureConnector) : JsString :=
  connector.identity.connectorId

/-! ## The audit trail -/

/-- The types of an `ExecutionAuditEvent` that this side records. -/
inductive ExecutionAuditEventType where
  | sessionCreated
  | executionRejected
  | executionCompleted
  deriving DecidableEq

/-- `ExecutionAuditEvent`. -/
structure ExecutionAuditEvent where
  type : ExecutionAuditEventType
  connectorId : JsString
  authorizationId : JsString
  sessionId : JsString
  reason : Option JsString
  businessTransactionId : Option JsString
  credentialId : Option JsString
  gatewayId : Option JsString
  action : Option JsString
  deriving DecidableEq

/-! ## The calls -/

/-- The calls of the service and its connectors. -/
inductive ConnectorCall where
  /-- `new Date()`. -/
  | now
  | authenticateGateway (identity : GatewayIdentity) (authentication : JsValue)
  | authenticateConnector (identity : ConnectorIdentity)
  | resolveCapability (capability : JsString)
  /-- `sessions.create`. -/
  | createSession (release : ExecutionRelease) (connectorId : JsString) (lifetimeMs : JsNumber)
      (issuanceAuthentication : ObjectRef) (now : Int)
  /-- `sessions.consume`. -/
  | consumeSession (request : GatewayExecutionRequest) (connectorId : JsString) (now : Int)
  /-- `credentials.getCredential`, of the vault under the sessions. -/
  | getCredential (vault : ObjectRef) (connectorId : JsString)
  /-- What `sessionCredentials.issue` does once the credential is known to exist. -/
  | issueSessionCredential (vault : SessionCredentialVault) (connectorId authorizationId : JsString)
      (issuedAt : Int)
  /-- What `sessionCredentials.consume` does before it resolves the credential: it
  answers the connector to resolve it for. -/
  | consumeSessionCredential (vault : ObjectRef) (sessionCredentialId : JsString) (now : Int)
  /-- `sessionCredentials.revoke`. -/
  | revoke (vault : ObjectRef) (sessionCredentialId : JsString)
  /-- `executor.execute`, given the content, the authorization and the approvals of
  the request. -/
  | execute (connector : SecureConnector) (request : GatewayExecutionRequest) (credential : Json)
  /-- `audit.record`. -/
  | record (event : ExecutionAuditEvent)
  deriving DecidableEq

/-- What a call answers. -/
abbrev ConnectorCall.Answer : ConnectorCall → Type
  | .now => Int
  | .authenticateGateway .. => Bool
  | .authenticateConnector _ => Bool
  | .resolveCapability _ => SecureConnector
  | .createSession .. => GatewaySession
  | .consumeSession .. => Bool
  | .getCredential .. => Json
  | .issueSessionCredential .. => SessionCredential
  | .consumeSessionCredential .. => JsString
  | .revoke .. => Unit
  | .execute .. => Json
  | .record _ => Unit

/-- A program of execution control. -/
abbrev ConnectorProgram (α : Type) := Program ConnectorCall ConnectorCall.Answer Failure α

/-- A call and its answer. -/
abbrev ConnectorEvent := Event ConnectorCall ConnectorCall.Answer Failure

/-- Makes one call. -/
abbrev ask (call : ConnectorCall) : ConnectorProgram call.Answer := perform call

/-- Throws unless a check passes. -/
def require (passed : Bool) (message : JsString) : ConnectorProgram Unit :=
  if passed then pure () else throw (.error message)

/-- `try … finally`: the cleanup is made on either way out, and its own error
takes the place of the other. -/
def finallyDo {α : Type} (body : ConnectorProgram α) (cleanup : ConnectorProgram Unit) :
    ConnectorProgram α := do
  let result ← tryCatch body fun error => do
    cleanup
    throw error
  cleanup
  return result

end Parmana.ExecutionControl

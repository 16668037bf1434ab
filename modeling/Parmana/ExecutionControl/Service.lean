import Parmana.ExecutionControl.Call

/-! # Execution control

The service, the connector and the policy between them, as the programs they are.

The connector's `try` covers the whole of an execution, the record of its success
included, and the service puts another such `try` around the connector.  What the
two `catch` blocks record differs only in the event, so both are `recording`.
-/
namespace Parmana.ExecutionControl
open Js Interaction Interaction.Program

/-- `try { … } catch (error) { await audit.record(…); throw error }`. -/
def recording {α : Type} (rejected : Failure → ExecutionAuditEvent) (body : ConnectorProgram α) :
    ConnectorProgram α :=
  tryCatch body fun error => do
    ask (.record (rejected error))
    throw error

/-- `error instanceof Error ? error.message : "Unknown rejection"`. -/
def rejectionReason (error : Failure) : JsString := error.message.getD "Unknown rejection"

/-! ## The vault of session credentials -/

namespace SessionCredentialVault
variable (vault : SessionCredentialVault)

/-- `issue`. -/
def issue (connectorId authorizationId : JsString) : ConnectorProgram SessionCredential := do
  let _ ← ask (.getCredential vault.place connectorId)
  let issuedAt ← ask .now
  ask (.issueSessionCredential vault connectorId authorizationId issuedAt)

/-- `consume`. -/
def consume (sessionCredentialId : JsString) : ConnectorProgram Json := do
  let now ← ask .now
  let connectorId ← ask (.consumeSessionCredential vault.place sessionCredentialId now)
  ask (.getCredential vault.place connectorId)

/-- `revoke`. -/
def revoke (sessionCredentialId : JsString) : ConnectorProgram Unit :=
  ask (.revoke vault.place sessionCredentialId)

end SessionCredentialVault

/-! ## The connector -/

namespace SecureConnector
variable (connector : SecureConnector) (request : GatewayExecutionRequest)

/-- `DefaultConnectorPolicy.assertAllowed`: the session is used up last. -/
def assertAllowed : ConnectorProgram Unit := do
  require (← ask (.authenticateGateway request.gatewayIdentity connector.gatewayAuthentication))
    "Connector rejected unauthenticated Gateway."
  require (← ask (.authenticateConnector connector.identity))
    "Connector identity is not trusted."
  require (request.verifiedTransaction.authorizationVerified &&
      request.verifiedTransaction.executableContentVerified &&
      request.verifiedTransaction.replayCheckPassed)
    "Connector requires a verified transaction."
  require (connector.capabilities.contains request.executableContent.action)
    "Connector capability does not allow this action."
  require (request.authorization.payload.grantedCapability.all
      (· == request.executableContent.action))
    "Connector requires the executed action to match the authorization's granted capability."
  let now ← ask .now
  require (← ask (.consumeSession request connector.connectorId now))
    "Connector rejected invalid, expired, modified, or reused Gateway session."

/-- The event of an execution that went through. -/
def completedEvent (sessionCredentialId : JsString) : ExecutionAuditEvent where
  type := .executionCompleted
  connectorId := connector.connectorId
  authorizationId := request.authorization.payload.authorizationId
  sessionId := request.gatewaySession.sessionId
  reason := none
  businessTransactionId := none
  credentialId := some sessionCredentialId
  gatewayId := some request.gatewayIdentity.gatewayId
  action := some request.executableContent.action

/-- The event of one that did not; the credential is named once there is one. -/
def rejectedEvent (sessionCredentialId : Option JsString) (error : Failure) :
    ExecutionAuditEvent where
  type := .executionRejected
  connectorId := connector.connectorId
  authorizationId := request.authorization.payload.authorizationId
  sessionId := request.gatewaySession.sessionId
  reason := some (rejectionReason error)
  businessTransactionId := none
  credentialId := sessionCredentialId
  gatewayId := some request.gatewayIdentity.gatewayId
  action := some request.executableContent.action

/-- What precedes the assignment of `sessionCredentialId`. -/
def leaseCredential : ConnectorProgram JsString := do
  connector.assertAllowed request
  let sessionCredential ← connector.sessionCredentials.issue connector.connectorId
    request.authorization.payload.authorizationId
  return sessionCredential.sessionCredentialId

/-- The inner `try`: the executor is called with the credential. -/
def callExecutor (sessionCredentialId : JsString) : ConnectorProgram Json := do
  let credential ← connector.sessionCredentials.consume sessionCredentialId
  ask (.execute connector request credential)

/-- The execution with its credential, which is destroyed on either way out. -/
def executeWith (sessionCredentialId : JsString) : ConnectorProgram Json :=
  finallyDo (connector.callExecutor request sessionCredentialId)
    (connector.sessionCredentials.revoke sessionCredentialId)

/-- What follows the assignment of `sessionCredentialId`. -/
def runAndRecord (sessionCredentialId : JsString) : ConnectorProgram Json := do
  let result ← connector.executeWith request sessionCredentialId
  ask (.record (connector.completedEvent request sessionCredentialId))
  return result

/-- `execute`.  Its one `try` is written as two, before and after
`sessionCredentialId` is assigned, which is all its `catch` block asks about. -/
def execute : ConnectorProgram Json := do
  let sessionCredentialId ← recording (connector.rejectedEvent request none)
    (connector.leaseCredential request)
  recording (connector.rejectedEvent request (some sessionCredentialId))
    (connector.runAndRecord request sessionCredentialId)

end SecureConnector

/-! ## The service -/

/-- `ExecutionControlService`: what its constructor keeps. -/
structure ExecutionControlService where
  gatewayIdentity : GatewayIdentity
  sessionIssuanceAuthentication : ObjectRef
  sessionLifetimeMs : JsNumber
  positive : sessionLifetimeMs.le .zero = false

namespace ExecutionControlService
variable (service : ExecutionControlService) (release : ExecutionRelease)

/-- The events of the service. -/
def auditEvent (type : ExecutionAuditEventType) (reason : Option JsString)
    (connector : SecureConnector) (session : GatewaySession) : ExecutionAuditEvent where
  type := type
  connectorId := connector.connectorId
  authorizationId := release.authorization.payload.authorizationId
  sessionId := session.sessionId
  reason := reason
  businessTransactionId := some release.executableContent.businessTransactionId
  credentialId := none
  gatewayId := none
  action := some release.executableContent.action

/-- The event of an execution that did not go through. -/
def rejectedEvent (connector : SecureConnector) (session : GatewaySession) (error : Failure) :
    ExecutionAuditEvent :=
  auditEvent release .executionRejected (some (rejectionReason error)) connector session

/-- The request the connector gets. -/
def request (session : GatewaySession) : GatewayExecutionRequest where
  authorization := release.authorization
  executableContent := release.executableContent
  verifiedTransaction := release.verifiedTransaction
  gatewayIdentity := service.gatewayIdentity
  gatewaySession := session
  approvals := release.approvals

/-- The connector and its session. -/
def createSession (gatewayAuthentication : JsValue) :
    ConnectorProgram (SecureConnector × GatewaySession) := do
  require (← ask (.authenticateGateway service.gatewayIdentity gatewayAuthentication))
    "Execution Control rejected unauthenticated Gateway."
  let connector ← ask (.resolveCapability release.executableContent.action)
  let now ← ask .now
  let session ← ask (.createSession release connector.connectorId service.sessionLifetimeMs
    service.sessionIssuanceAuthentication now)
  return (connector, session)

/-- What comes before the connector is called. -/
def openSession (gatewayAuthentication : JsValue) :
    ConnectorProgram (SecureConnector × GatewaySession) := do
  let opened ← service.createSession release gatewayAuthentication
  ask (.record (auditEvent release .sessionCreated none opened.1 opened.2))
  return opened

/-- The connector is called and its success recorded. -/
def executeAndRecord (connector : SecureConnector) (session : GatewaySession) :
    ConnectorProgram Json := do
  let result ← connector.execute (service.request release session)
  ask (.record (auditEvent release .executionCompleted none connector session))
  return result

/-- `execute`. -/
def execute (gatewayAuthentication : JsValue) : ConnectorProgram Json := do
  let opened ← service.openSession release gatewayAuthentication
  recording (rejectedEvent release opened.1 opened.2)
    (service.executeAndRecord release opened.1 opened.2)

end ExecutionControlService

end Parmana.ExecutionControl

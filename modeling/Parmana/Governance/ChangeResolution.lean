import Parmana.Approval.Artifact
import Parmana.Governance.ApprovalIssuers
import Parmana.Governance.ExternalConnectors
import Parmana.Governance.StepUpVerifier

/-! # Approving and rejecting changes

Policies, approver keys and external connectors are governed alike: somebody proposes a
change, and somebody else approves or rejects it with a signature made for that one
decision.  Six routes do this, over three repositories and one store of nonces.

The guards are shared.  `requireHumanCaller` lets verified humans through,
`requireStepUpAuthorization` asks for the signature, and a change is loaded, compared with
its proposer and handed on by `loadForResolution`, which the approver and the connector
routes call and the policy routes write out.

`Serves` says how the calls of a route are answered.  Any call may fail, and one whose
answer is lost may have been carried out.  A signature is found valid only where its key
has signed, and a nonce that was once recorded stays recorded.
-/
namespace Parmana.Governance
open Js Interaction Interaction.Program Gateway Parmana.Approval

/-! ## Changes of the three kinds -/

/-- The kinds of change. -/
inductive ChangeKind where
  | policy
  | approver
  | connector
  deriving DecidableEq

/-- `action`, of an approve or a reject request. -/
inductive ResolutionAction where
  | approve
  | reject
  deriving DecidableEq

namespace ResolutionAction

/-- The text of an action. -/
def text : ResolutionAction → JsString
  | .approve => "approve"
  | .reject => "reject"

/-- The status an action gives a change. -/
def outcome : ResolutionAction → PendingPolicyChangeStatus
  | .approve => .approved
  | .reject => .rejected

end ResolutionAction

/-- `ExternalConnectorChangeNotFoundError` and its like. -/
def ChangeKind.notFound : ChangeKind → JsString → Failure
  | .policy => pendingPolicyChangeNotFound
  | .approver => approvalIssuerChangeNotFound
  | .connector => externalConnectorChangeNotFound

/-- `subject`, of a `SameActorCannotApproveOwnChangeError`. -/
def ChangeKind.subject : ChangeKind → JsString
  | .policy => "Pending Policy Change"
  | .approver => "Approver change"
  | .connector => "External connector change"

/-- A change of a kind. -/
abbrev ChangeKind.Change : ChangeKind → Type
  | .policy => PendingPolicyChange
  | .approver => ApprovalIssuerChange
  | .connector => ExternalConnectorChange

namespace ChangeKind

/-- The id of a change. -/
def idOf : (kind : ChangeKind) → kind.Change → JsString
  | .policy => PendingPolicyChange.pendingPolicyChangeId
  | .approver => ApprovalIssuerChange.changeId
  | .connector => ExternalConnectorChange.changeId

/-- `proposedBy`. -/
def proposedBy : (kind : ChangeKind) → kind.Change → JsString
  | .policy => PendingPolicyChange.proposedBy
  | .approver => ApprovalIssuerChange.proposedBy
  | .connector => ExternalConnectorChange.proposedBy

/-- `status`. -/
def status : (kind : ChangeKind) → kind.Change → PendingPolicyChangeStatus
  | .policy => PendingPolicyChange.status
  | .approver => ApprovalIssuerChange.status
  | .connector => ExternalConnectorChange.status

/-- `resolvedBy`. -/
def resolvedBy : (kind : ChangeKind) → kind.Change → Option JsString
  | .policy => PendingPolicyChange.resolvedBy
  | .approver => ApprovalIssuerChange.resolvedBy
  | .connector => ExternalConnectorChange.resolvedBy

end ChangeKind

/-! ## Requests -/

/-- `AuthorityType`. -/
inductive AuthorityType where
  | user
  | role
  | service
  | organization
  deriving DecidableEq

/-- `isHumanCaller`. -/
def isHumanCaller (credentialHolderType : Option AuthorityType) : Bool :=
  credentialHolderType = some .user

/-- A request to approve or to reject: its route, what the authentication of the caller set
on it, and what it was sent with. -/
structure ResolutionRequest where
  kind : ChangeKind
  action : ResolutionAction
  callerId : Option JsString
  callerCredentialHolderType : Option AuthorityType
  callerStepUpPublicKey : Option JsString
  /-- `asString(req.params.id)` -/
  id : Option JsString
  /-- `req.body.stepUpAuthorization` -/
  stepUpAuthorization : JsValue
  /-- `req.body.rejectionReason` -/
  rejectionReason : JsValue

/-- The change a request is about. -/
def ResolutionRequest.changeId (request : ResolutionRequest) : JsString := request.id.getD ""

/-- What a request is answered. -/
inductive ResolutionResponse where
  /-- 401 -/
  | unauthenticated (error : JsString)
  /-- 400 -/
  | badRequest (error : JsString)
  /-- 200 -/
  | resolved (kind : ChangeKind) (change : kind.Change)
  /-- `next(new AuditUnavailableError())` -/
  | auditUnavailable

/-- `typeof value === text`. -/
def isText (value : JsValue) (text : JsString) : Bool := JsValue.strictEq value (.json (.str text))

/-- `isPolicyChangeStepUpAuthorizationShape`. -/
def isPolicyChangeStepUpAuthorizationShape (value : JsValue) : Bool :=
  let payload := value.get "payload"
  value.isObject && payload.isObject &&
    JsValue.strictEq (payload.get "version") SUPPORTED_PAYLOAD_VERSION &&
    isString (payload.get "nonce") && isString (payload.get "pendingPolicyChangeId") &&
    (isText (payload.get "action") "approve" || isText (payload.get "action") "reject") &&
    isString (payload.get "authorizedAt") && isString (payload.get "expiresAt") &&
    isString (value.get "signature") && isString (value.get "keyId") &&
    isString (value.get "algorithm")

/-- The authorization a value of that shape is. -/
def asStepUpAuthorization (value : JsValue) : PolicyChangeStepUpAuthorization :=
  let payload := value.get "payload"
  { payload := {
      version := payload.get "version"
      nonce := textOf (payload.get "nonce")
      pendingPolicyChangeId := textOf (payload.get "pendingPolicyChangeId")
      action := textOf (payload.get "action")
      authorizedAt := textOf (payload.get "authorizedAt")
      expiresAt := textOf (payload.get "expiresAt") }
    signature := textOf (value.get "signature")
    keyId := textOf (value.get "keyId")
    algorithm := textOf (value.get "algorithm") }

/-- The authorization of a request. -/
def ResolutionRequest.authorization (request : ResolutionRequest) :
    PolicyChangeStepUpAuthorization := asStepUpAuthorization request.stepUpAuthorization

/-! ## Errors -/

/-- `NonHumanCallerDeniedError`. -/
def nonHumanCallerDenied : Failure :=
  .parmanaError (JsString.ofString ("This action requires a caller credential provisioned as a " ++
    "verified human (credentialHolderType: USER).")) "NON_HUMAN_CALLER_DENIED"

/-- `SameActorCannotApproveOwnChangeError`. -/
def sameActorCannotApproveOwnChange (id subject : JsString) : Failure :=
  .parmanaError (subject ++ (" '" : JsString) ++ id ++
    JsString.ofString ("' was proposed by this same caller — the proposer (maker) may not also " ++
      "approve or reject it (checker).")) "SAME_ACTOR_CANNOT_APPROVE_OWN_CHANGE"

/-- `StepUpAuthorizationInvalidError`. -/
def stepUpAuthorizationInvalid : Failure :=
  .parmanaError (JsString.ofString ("The step-up authorization envelope is missing, invalid, " ++
    "expired, replayed, or does not match this request.")) "STEP_UP_AUTHORIZATION_INVALID"

/-- There is no `PolicyChangeApprovalService`. -/
def approveMisconfigured : Failure :=
  .error (JsString.ofString ("Policy Governance approve is misconfigured: no " ++
    "PolicyChangeApprovalService was provided. Refusing to mark this change APPROVED without " ++
    "applying its live effect and recording signed evidence of it."))

/-! ## Calls -/

/-- A call of the routes. -/
inductive ChangeCall (Key : Type) where
  /-- `auditSink.record`, of a `caller.non_human_denied` event -/
  | recordDenial (callerId : Option JsString)
  /-- `new Date()` -/
  | now
  /-- A call of the step-up verifier. -/
  | stepUp (call : StepUpCall Key)
  /-- `findById`, `findChange` -/
  | find (kind : ChangeKind) (id : JsString)
  /-- `policyChangeApprovalService.approve` -/
  | applyPolicyChange (change : PendingPolicyChange) (approvedBy : JsString)
  /-- `pendingPolicyChangeRepository.resolve` -/
  | resolvePolicyChange (id : JsString) (resolution : PendingPolicyChangeResolution)
  /-- `approveChange`, of approver changes -/
  | approveApproverChange (changeId approvedBy : JsString) (resolvedAt : Int)
  /-- `rejectChange`, of approver changes -/
  | rejectApproverChange (changeId rejectedBy rejectionReason : JsString) (resolvedAt : Int)
  /-- `resolvePublicEndpointAddresses` -/
  | assertPublic (endpointUrl : JsString)
  /-- A block of the connectors' repository in memory. -/
  | connectorBlock (block : MemoryExternalConnectorRepository.Block)
  /-- `approveChange`, of the connectors' repository in Postgres -/
  | approveConnectorChange (changeId approvedBy : JsString)

/-- What a call answers. -/
abbrev ChangeCall.Answer {Key : Type} : ChangeCall Key → Type
  | .recordDenial _ | .applyPolicyChange .. | .assertPublic _ => Unit
  | .now => Int
  | .stepUp _ => Bool
  | .find kind _ => Option kind.Change
  | .resolvePolicyChange .. => PendingPolicyChange
  | .approveApproverChange .. | .rejectApproverChange .. => ApprovalIssuerChange
  | .connectorBlock block => block.Answer
  | .approveConnectorChange .. => ExternalConnectorChange

/-- A program of the routes. -/
abbrev ChangeProgram (Key : Type) := Program (ChangeCall Key) ChangeCall.Answer Failure

/-- A call of them, answered. -/
abbrev ChangeEvent (Key : Type) := Event (ChangeCall Key) ChangeCall.Answer Failure

namespace ChangeCall

/-- Makes a call. -/
def ask {Key : Type} (call : ChangeCall Key) : ChangeProgram Key call.Answer := perform call

end ChangeCall

/-! ## The guards -/

/-- What the routers are created with: which texts are dates and keys, whether there is a
sink for denials, the verifier, whether there is a service for approvals, and whether
connectors are kept in Postgres. -/
structure ChangeRouter (Key : Type) where
  dateParse : JsString → Option Int
  createPublicKey : JsString → Except Failure Key
  auditSink : Bool
  stepUpVerifier : Option PolicyChangeStepUpVerifier
  policyChangeApprovalService : Bool
  connectorsInPostgres : Bool

/-- `MAX_REASON_LENGTH`. -/
def MAX_REASON_LENGTH : Nat := 2000

namespace ChangeRouter
variable {Key : Type} (router : ChangeRouter Key) (request : ResolutionRequest)

/-- `recordCallerAuditEvent`, of a denial: whether it was recorded. -/
def recordCallerAuditEvent : ChangeProgram Key Bool :=
  tryCatch (do
    ChangeCall.ask (.recordDenial request.callerId)
    return true)
    fun error => do
      .done error.logged
      return false

/-- `requireHumanCaller`: whether the caller may go on. -/
def requireHumanCaller : ChangeProgram Key Bool :=
  if isHumanCaller request.callerCredentialHolderType then return true
  else if router.auditSink then do
    if ← recordCallerAuditEvent request then throw nonHumanCallerDenied else return false
  else throw nonHumanCallerDenied

/-- `requireStepUpAuthorization`. -/
def requireStepUpAuthorization (expected : StepUpExpectation) : ChangeProgram Key Unit :=
  if isPolicyChangeStepUpAuthorizationShape request.stepUpAuthorization then
    match request.callerStepUpPublicKey, router.stepUpVerifier with
    | some callerStepUpPublicKey, some stepUpVerifier => do
      let publicKey ← .done (router.createPublicKey callerStepUpPublicKey)
      let now ← ChangeCall.ask .now
      let result ← (stepUpVerifier.verify router.dateParse request.authorization publicKey expected
        now).relabel ChangeCall.stepUp fun _ answer => answer
      if result.valid then return () else throw stepUpAuthorizationInvalid
    | _, _ => throw stepUpAuthorizationInvalid
  else throw stepUpAuthorizationInvalid

/-- `loadForResolution`: the change, which somebody else proposed, once the caller's
authorization for it is accepted. -/
def loadForResolution (kind : ChangeKind) (action : ResolutionAction) (callerId id : JsString) :
    ChangeProgram Key kind.Change := do
  match ← ChangeCall.ask (.find kind id) with
  | none => throw (kind.notFound id)
  | some existing =>
    if kind.proposedBy existing = callerId then
      throw (sameActorCannotApproveOwnChange id kind.subject)
    else do
      router.requireStepUpAuthorization request ⟨id, action.text⟩
      return existing

/-- What every route begins with: a caller that is authenticated, and human. -/
def humanOnly (error : JsString)
    (route : JsString → ChangeProgram Key ResolutionResponse) :
    ChangeProgram Key ResolutionResponse :=
  match request.callerId with
  | none => return .unauthenticated error
  | some callerId => do
    if ← router.requireHumanCaller request then route callerId else return .auditUnavailable

/-- `rejectionReason`, of an approver or a connector change. -/
def reasonOf : JsValue → Option JsString
  | .json (.str reason) =>
    if reason.trim.isEmpty || decide (MAX_REASON_LENGTH < reason.units.length) then none
    else some reason
  | _ => none

/-! ## The routes -/

/-- `POST /policies/pending-changes/:id/approve`. -/
def approvePolicyChange : ChangeProgram Key ResolutionResponse :=
  router.humanOnly request "Caller authentication is required to approve a policy change."
    fun callerId =>
      match request.id with
      | none => return .badRequest "id is required."
      | some id => do
        let existing ← router.loadForResolution request .policy .approve callerId id
        if router.policyChangeApprovalService then
          ChangeCall.ask (.applyPolicyChange existing callerId)
          return .resolved .policy (← ChangeCall.ask (.resolvePolicyChange id (.approved callerId)))
        else throw approveMisconfigured

/-- `POST /policies/pending-changes/:id/reject`. -/
def rejectPolicyChange : ChangeProgram Key ResolutionResponse :=
  router.humanOnly request "Caller authentication is required to reject a policy change."
    fun callerId =>
      match request.rejectionReason with
      | .json (.str rejectionReason) =>
        if rejectionReason.trim.isEmpty then return .badRequest "rejectionReason is required."
        else match request.id with
          | none => return .badRequest "id is required."
          | some id => do
            let _ ← router.loadForResolution request .policy .reject callerId id
            return .resolved .policy
              (← ChangeCall.ask (.resolvePolicyChange id (.rejected callerId rejectionReason)))
      | _ => return .badRequest "rejectionReason is required."

/-- `POST /approval-issuers/changes/:id/approve`. -/
def approveApproverChange : ChangeProgram Key ResolutionResponse :=
  router.humanOnly request "Caller authentication is required to approve an approver change."
    fun callerId => do
      let change ← router.loadForResolution request .approver .approve callerId request.changeId
      let now ← ChangeCall.ask .now
      return .resolved .approver
        (← ChangeCall.ask (.approveApproverChange change.changeId callerId now))

/-- `POST /approval-issuers/changes/:id/reject`. -/
def rejectApproverChange : ChangeProgram Key ResolutionResponse :=
  router.humanOnly request "Caller authentication is required to reject an approver change."
    fun callerId =>
      match reasonOf request.rejectionReason with
      | none => return .badRequest "rejectionReason is required, at most 2000 characters."
      | some rejectionReason => do
        let change ← router.loadForResolution request .approver .reject callerId request.changeId
        let now ← ChangeCall.ask .now
        return .resolved .approver
          (← ChangeCall.ask (.rejectApproverChange change.changeId callerId rejectionReason now))

/-- A call of the connectors' repository in memory. -/
def connectorCall (call : MemoryExternalConnectorRepository.Call) :
    ChangeProgram Key ExternalConnectorChange :=
  call.program.relabel ChangeCall.connectorBlock fun _ answer => answer

/-- For a registration, the endpoint's address is checked again. -/
def checkEndpoint (change : ExternalConnectorChange) : ChangeProgram Key Unit :=
  match change.action, change.endpointUrl with
  | .register, some endpointUrl => ChangeCall.ask (.assertPublic endpointUrl)
  | _, _ => return ()

/-- `approveChange`, of either repository. -/
def approveConnector (changeId approvedBy : JsString) : ChangeProgram Key ExternalConnectorChange :=
  if router.connectorsInPostgres then ChangeCall.ask (.approveConnectorChange changeId approvedBy)
  else connectorCall (.approveChange changeId approvedBy)

/-- `POST /external-connectors/changes/:id/approve`. -/
def approveConnectorChange : ChangeProgram Key ResolutionResponse :=
  router.humanOnly request
    "Caller authentication is required to approve an external connector change."
    fun callerId => do
      let change ← router.loadForResolution request .connector .approve callerId request.changeId
      checkEndpoint change
      return .resolved .connector (← router.approveConnector change.changeId callerId)

/-- `POST /external-connectors/changes/:id/reject`. -/
def rejectConnectorChange : ChangeProgram Key ResolutionResponse :=
  router.humanOnly request
    "Caller authentication is required to reject an external connector change."
    fun callerId =>
      match reasonOf request.rejectionReason with
      | none => return .badRequest "rejectionReason is required, at most 2000 characters."
      | some rejectionReason => do
        let change ← router.loadForResolution request .connector .reject callerId request.changeId
        return .resolved .connector
          (← connectorCall (.rejectChange change.changeId callerId rejectionReason))

/-- The route of a request. -/
def handle : ChangeProgram Key ResolutionResponse :=
  match request.kind, request.action with
  | .policy, .approve => router.approvePolicyChange request
  | .policy, .reject => router.rejectPolicyChange request
  | .approver, .approve => router.approveApproverChange request
  | .approver, .reject => router.rejectApproverChange request
  | .connector, .approve => router.approveConnectorChange request
  | .connector, .reject => router.rejectConnectorChange request

end ChangeRouter

/-! ## The stores -/

/-- The changes of the three kinds, and the nonces that were used. -/
structure GovernedChanges where
  policy : PendingPolicyChanges
  approver : MemoryApprovalIssuerRepository
  connector : ExternalConnectors
  nonces : List JsString

namespace GovernedChanges
variable (s : GovernedChanges)

/-- The change of a kind with an id. -/
def get : (kind : ChangeKind) → JsString → Option kind.Change
  | .policy => s.policy.get
  | .approver => s.approver.changes.get
  | .connector => s.connector.changes.get

/-- Who proposed a change. -/
def proposer (kind : ChangeKind) (id : JsString) : Option JsString :=
  (s.get kind id).map kind.proposedBy

/-- The status of a change. -/
def status (kind : ChangeKind) (id : JsString) : Option PendingPolicyChangeStatus :=
  (s.get kind id).map kind.status

/-- Who resolved a change. -/
def resolver (kind : ChangeKind) (id : JsString) : Option JsString :=
  (s.get kind id).bind kind.resolvedBy

/-- A change is found under its own id. -/
theorem idOf_get {kind : ChangeKind} {id : JsString} {change : kind.Change}
    (h : s.get kind id = some change) : kind.idOf change = id := by
  cases kind with
  | policy => exact Table.key_of_get h
  | approver => exact Table.key_of_get h
  | connector => exact Table.key_of_get h

/-- `checkAndRecord`: whether a nonce is new, which it is no longer. -/
def checkAndRecord (nonce : JsString) : Bool × GovernedChanges :=
  if nonce ∈ s.nonces then (false, s) else (true, { s with nonces := nonce :: s.nonces })

end GovernedChanges

open MemoryExternalConnectorRepository (settle) in
/-- How a call is answered.  The answer to a call that was carried out may be lost. -/
inductive Answers {Key : Type} (signed : Key → PolicyChangeStepUpAuthorizationPayload → Prop) :
    GovernedChanges → ChangeEvent Key → GovernedChanges → Prop where
  | recordDenial {s callerId} : Answers signed s ⟨.recordDenial callerId, .ok ()⟩ s
  | now {s time} : Answers signed s ⟨.now, .ok time⟩ s
  | verifySignature {s payload signature publicKey verified}
      (h : verified = true → signed publicKey payload) :
      Answers signed s ⟨.stepUp (.verifySignature payload signature publicKey), .ok verified⟩ s
  | checkAndRecord {s nonce expiresAt} :
      Answers signed s ⟨.stepUp (.checkAndRecord nonce expiresAt), .ok (s.checkAndRecord nonce).1⟩
        (s.checkAndRecord nonce).2
  | find {s kind id} : Answers signed s ⟨.find kind id, .ok (s.get kind id)⟩ s
  | applyPolicyChange {s change approvedBy} :
      Answers signed s ⟨.applyPolicyChange change approvedBy, .ok ()⟩ s
  | resolvePolicyChange {s id resolution answer policy}
      (h : MemoryPendingPolicyChangeRepository.run (.resolve id resolution) s.policy =
        (answer, policy)) :
      Answers signed s ⟨.resolvePolicyChange id resolution, answer⟩ { s with policy }
  | approveApproverChange {s changeId approvedBy resolvedAt answer approver}
      (h : s.approver.outcome (s.approver.approveChange changeId approvedBy resolvedAt) =
        (answer, approver)) :
      Answers signed s ⟨.approveApproverChange changeId approvedBy resolvedAt, answer⟩
        { s with approver }
  | rejectApproverChange {s changeId rejectedBy rejectionReason resolvedAt answer approver}
      (h : s.approver.outcome
        (s.approver.rejectChange changeId rejectedBy rejectionReason resolvedAt) =
        (answer, approver)) :
      Answers signed s
        ⟨.rejectApproverChange changeId rejectedBy rejectionReason resolvedAt, answer⟩
        { s with approver }
  | assertPublic {s endpointUrl} : Answers signed s ⟨.assertPublic endpointUrl, .ok ()⟩ s
  | connectorBlock {s block answer connector}
      (h : MemoryExternalConnectorRepository.run block s.connector = (answer, connector)) :
      Answers signed s ⟨.connectorBlock block, answer⟩ { s with connector }
  | approveConnectorChange {s changeId approvedBy answer connector}
      (h : settle s.connector (s.connector.approveTransaction changeId approvedBy) =
        (answer, connector)) :
      Answers signed s ⟨.approveConnectorChange changeId approvedBy, answer⟩ { s with connector }
  | failed {s call failure} : Answers signed s ⟨call, .error failure⟩ s
  | lost {s call answer s' failure} (h : Answers signed s ⟨call, answer⟩ s') :
      Answers signed s ⟨call, .error failure⟩ s'

/-- The stores where nothing fails and the time stands still. -/
def serveChanges {Key : Type}
    (verify : Key → PolicyChangeStepUpAuthorizationPayload → JsString → Bool) (time : Int) :
    (call : ChangeCall Key) → GovernedChanges → Except Failure call.Answer × GovernedChanges
  | .recordDenial _, s => (.ok (), s)
  | .now, s => (.ok time, s)
  | .stepUp (.verifySignature payload signature publicKey), s =>
    (.ok (verify publicKey payload signature), s)
  | .stepUp (.checkAndRecord nonce _), s =>
    (.ok (s.checkAndRecord nonce).1, (s.checkAndRecord nonce).2)
  | .find kind id, s => (.ok (s.get kind id), s)
  | .applyPolicyChange _ _, s => (.ok (), s)
  | .resolvePolicyChange id resolution, s =>
    let (answer, policy) :=
      MemoryPendingPolicyChangeRepository.run (.resolve id resolution) s.policy
    (answer, { s with policy })
  | .approveApproverChange changeId approvedBy resolvedAt, s =>
    let (answer, approver) :=
      s.approver.outcome (s.approver.approveChange changeId approvedBy resolvedAt)
    (answer, { s with approver })
  | .rejectApproverChange changeId rejectedBy rejectionReason resolvedAt, s =>
    let (answer, approver) :=
      s.approver.outcome (s.approver.rejectChange changeId rejectedBy rejectionReason resolvedAt)
    (answer, { s with approver })
  | .assertPublic _, s => (.ok (), s)
  | .connectorBlock block, s =>
    let (answer, connector) := MemoryExternalConnectorRepository.run block s.connector
    (answer, { s with connector })
  | .approveConnectorChange changeId approvedBy, s =>
    let (answer, connector) := MemoryExternalConnectorRepository.settle s.connector
      (s.connector.approveTransaction changeId approvedBy)
    (answer, { s with connector })

theorem answers_of_handled {Key : Type}
    {signed : Key → PolicyChangeStepUpAuthorizationPayload → Prop}
    {verify : Key → PolicyChangeStepUpAuthorizationPayload → JsString → Bool} {time : Int}
    {s s' : GovernedChanges} {e : ChangeEvent Key}
    (hverify : ∀ publicKey payload signature, verify publicKey payload signature = true →
      signed publicKey payload) (h : Handled (serveChanges verify time) s e s') :
    Answers signed s e s' := by
  obtain ⟨call, answer⟩ := e
  unfold Handled at h
  cases call with
  | recordDenial callerId =>
    cases h
    exact .recordDenial
  | now =>
    cases h
    exact .now
  | stepUp call =>
    cases call with
    | verifySignature payload signature publicKey =>
      cases h
      exact .verifySignature (hverify publicKey payload signature)
    | checkAndRecord nonce expiresAt =>
      cases h
      exact .checkAndRecord
  | find kind id =>
    cases h
    exact .find
  | applyPolicyChange change approvedBy =>
    cases h
    exact .applyPolicyChange
  | resolvePolicyChange id resolution =>
    cases h
    exact .resolvePolicyChange rfl
  | approveApproverChange changeId approvedBy resolvedAt =>
    cases h
    exact .approveApproverChange rfl
  | rejectApproverChange changeId rejectedBy rejectionReason resolvedAt =>
    cases h
    exact .rejectApproverChange rfl
  | assertPublic endpointUrl =>
    cases h
    exact .assertPublic
  | connectorBlock block =>
    cases h
    exact .connectorBlock rfl
  | approveConnectorChange changeId approvedBy =>
    cases h
    exact .approveConnectorChange rfl

/-- Requests to approve and to reject, side by side, over changes and nonces. -/
def startResolutions {Key ι : Type} (router : ChangeRouter Key) (requests : ι → ResolutionRequest)
    (s : GovernedChanges) :
    Pool (ChangeCall Key) ChangeCall.Answer Failure (fun _ : ι => ResolutionResponse)
      GovernedChanges where
  threads i := router.handle (requests i)
  state := s

end Parmana.Governance

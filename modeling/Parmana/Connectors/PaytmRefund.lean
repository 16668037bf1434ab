import Parmana.Connectors.Paytm
import Parmana.Connectors.VendorPaths
import Parmana.Gateway.ConnectorEvidence
import Parmana.Interaction.History
import Parmana.Js.Decimal

/-! # A refund through the Paytm connector service

`GatewayPaytmAdapter.execute` checks a request, signs the refund, posts it to the
connector service and checks what comes back.  What it sends is decided by the checks
alone (`GatewayPaytmAdapter.execute_traced`): the same order, transaction, amount and
`refId` are signed and posted.

The amount is rounded to two decimals, and **what is sent is not above the amount of the
parameters exactly when the rounding is not up** (`GatewayPaytmAdapter.amount_bounded_iff`).
Of the answer, the order and the transaction are compared with what was sent, and then its
`metadata` is spread over them: **the identifiers that are handed on are those of the refund
exactly when the metadata leaves them alone** (`GatewayPaytmAdapter.evidence_echoes_iff`).
-/
namespace Parmana.Connectors
open Js JsNumber Interaction Interaction.Program

/-! ## The request -/

/-- `PAYTM_REFUND_CAPABILITY`. -/
def PAYTM_REFUND_CAPABILITY : JsString := "paytm:refund"

/-- `PAYTM_REFUND_PATH`. -/
def PAYTM_REFUND_PATH : JsString := "/connector/paytm-refund"

/-- `PAYTM_CONNECTOR_TEST_MODE_PLACEHOLDER_SECRET`. -/
def PAYTM_CONNECTOR_TEST_MODE_PLACEHOLDER_SECRET : JsString :=
  "paytm-connector-test-mode-placeholder"

/-- `DEFAULT_KEY_ID`. -/
def DEFAULT_KEY_ID : JsString := "default"

/-- `deriveDeterministicPaytmRefId`'s `seed`. -/
def paytmRefIdSeed (orderId transactionId : JsString) (refundReference : Option JsString) :
    JsString :=
  match refundReference with
  | none => orderId ++ (":" : JsString) ++ transactionId
  | some refundReference =>
    Json.stringify (.arr [.str "paytm-refund-ref:v2", .str orderId, .str transactionId,
      .str refundReference])

/-- `deriveDeterministicPaytmRefId`; `sha256` gives the digest in hexadecimal digits. -/
def deriveDeterministicPaytmRefId (sha256 : List UInt8 → JsString)
    (orderId transactionId : JsString) (refundReference : Option JsString) : JsString :=
  let digest := sha256 (paytmRefIdSeed orderId transactionId refundReference).encode
  ("refid_" : JsString) ++ ⟨digest.units.take 24⟩

/-- `redactPaytmConnectorSecret`. -/
def redactPaytmConnectorSecret (sha256 : List UInt8 → JsString) (secret : JsString) : JsString :=
  ("fp_" : JsString) ++ ⟨(sha256 secret.encode).units.take 12⟩

/-- What the checks of the parameters make of them. -/
structure PaytmRefund where
  orderId : JsString
  txnId : JsString
  amount : JsNumber
  refundReason : Option JsString
  refId : JsString
  deriving DecidableEq

/-- `amountString`. -/
def PaytmRefund.amountString (refund : PaytmRefund) : JsString := refund.amount.toFixed 2

/-- What is signed. -/
def PaytmRefund.authorization (refund : PaytmRefund) (businessTransactionId : JsString)
    (expiresAt : JsNumber) : PaytmAuthorization where
  businessTransactionId := businessTransactionId
  action := PAYTM_AGENT_WIRE_ACTION
  orderId := refund.orderId
  txnId := refund.txnId
  amount := refund.amountString
  expiresAt := expiresAt

/-- The parameters that are forwarded. -/
def PaytmRefund.forwarded (refund : PaytmRefund) : Fields :=
  let required : Fields := [("orderId", .str refund.orderId), ("txnId", .str refund.txnId),
    ("refId", .str refund.refId), ("amount", .str refund.amountString)]
  match refund.refundReason with
  | none => required
  | some reason => required ++ [(("reason" : JsString), Json.str reason)]

/-- The body that is posted. -/
def PaytmRefund.body (refund : PaytmRefund) (request : ConnectorRequest) (expiresAt : JsNumber)
    (signature : JsString) : Json :=
  .obj [
    ("transaction", .obj [
      ("businessTransactionId", .str request.businessTransactionId),
      ("intent", .obj [
        ("action", .str PAYTM_AGENT_WIRE_ACTION),
        ("target", .str request.target),
        ("parameters", .obj refund.forwarded)])]),
    ("authorization", .obj [
      ("payload", .obj [
        ("businessTransactionId", .str request.businessTransactionId),
        ("grantedCapability", .str PAYTM_AGENT_WIRE_ACTION),
        ("expiresAt", .num expiresAt)]),
      ("signature", .str signature),
      ("keyId", .str DEFAULT_KEY_ID)])]

/-- `GatewayPaytmAdapter`, by its options. -/
structure GatewayPaytmAdapter where
  connectorId : JsString
  capabilities : List JsString
  baseUrl : JsString

/-- `ConnectorExecutionContext`, as this adapter reads it: `credential.value` and
`timeoutMs`. -/
structure PaytmExecutionContext where
  credential : Json
  timeoutMs : JsNumber

namespace GatewayPaytmAdapter

/-- An error of the adapter, by what follows its name. -/
def failure (connectorId text : JsString) : Failure :=
  .error (("PaytmConnector \"" : JsString) ++ connectorId ++ ("\" " : JsString) ++ text)

/-- The checks in front of the parameters: `sharedSecret`. -/
def sharedSecret (adapter : GatewayPaytmAdapter) (request : ConnectorRequest)
    (credential : Json) : Except Failure JsString := do
  refuseIf (request.capability ∉ adapter.capabilities) (failure adapter.connectorId
    (("does not declare capability \"" : JsString) ++ request.capability ++ ("\"." : JsString)))
  refuseIf (request.capability ≠ PAYTM_REFUND_CAPABILITY) (failure adapter.connectorId
    (("has no handler for capability \"" : JsString) ++ request.capability ++ ("\"." : JsString)))
  match credentialToken "sharedSecret" credential with
  | none =>
    .error (failure adapter.connectorId
      "received a credential that is not a resolved connector shared secret.")
  | some secret => do
    let isLocalTarget := adapter.baseUrl.startsWith "http://127.0.0.1" ||
      adapter.baseUrl.startsWith "http://localhost"
    refuseIf (isLocalTarget = false ∧ secret = PAYTM_CONNECTOR_TEST_MODE_PLACEHOLDER_SECRET)
      (failure adapter.connectorId
        (("refuses to send the built-in test-mode placeholder shared " : JsString) ++
          ("secret to a non-local endpoint (" : JsString) ++ adapter.baseUrl ++
          ("). Configure TEST_PAYTM_CONNECTOR_SHARED_SECRET " : JsString) ++
          ("(or PAYTM_CONNECTOR_SHARED_SECRET in production) with a real shared secret, or " :
            JsString) ++
          ("point PAYTM_CONNECTOR_URL at a local mock server." : JsString)))
    return secret

/-- The checks of the parameters. -/
def refund (sha256 : List UInt8 → JsString) (connectorId : JsString) (parameters : Fields) :
    Except Failure PaytmRefund := do
  let disallowedKeys := parameters.keys.filter fun key => key ∉ PAYTM_ALLOWED_REFUND_PARAMETERS
  refuseIf (disallowedKeys ≠ []) (unsupportedParameters connectorId disallowedKeys)
  let orderId ← requireString (parameters.own? "orderId") "parameters.orderId"
  let txnId ← requireString (parameters.own? "transactionId") "parameters.transactionId"
  let amount ← requireNumber (parameters.own? "amount") "parameters.amount"
  let refundReference ← optionalBoundedString (parameters.own? "refundReference")
    "parameters.refundReference" PAYTM_REFUND_REFERENCE_MAX_LENGTH
  let refundReason ← optionalBoundedString (parameters.own? "refundReason")
    "parameters.refundReason" PAYTM_REFUND_REASON_MAX_LENGTH
  return {
    orderId, txnId, amount, refundReason
    refId := deriveDeterministicPaytmRefId sha256 orderId txnId refundReference }

/-- What the checks make of a request: the shared secret and the refund. -/
def check (sha256 : List UInt8 → JsString) (adapter : GatewayPaytmAdapter)
    (request : ConnectorRequest) (credential : Json) : Except Failure (JsString × PaytmRefund) := do
  let secret ← adapter.sharedSecret request credential
  let refund ← refund sha256 adapter.connectorId request.parameters
  return (secret, refund)

end GatewayPaytmAdapter

/-! ## The answer -/

/-- `PaytmAgentRefundExecutionResult`. -/
structure PaytmAgentRefundExecutionResult where
  businessTransactionId : JsString
  action : JsString
  target : JsString
  orderId : JsString
  txnId : JsString
  refId : JsString
  amount : JsString
  success : Bool
  executedAt : JsString
  metadata : Option Json
  deriving DecidableEq

/-- A member that is a string. -/
def stringMember (fields : Fields) (name : JsString) : Option JsString :=
  match fields.own? name with
  | some (.str text) => some text
  | _ => none

/-- A member that is an object. -/
def objectMember (fields : Fields) (name : JsString) : Option Fields :=
  match fields.own? name with
  | some (.obj members) => some members
  | _ => none

/-- A member that is a boolean. -/
def boolMember (fields : Fields) (name : JsString) : Option Bool :=
  match fields.own? name with
  | some (.bool b) => some b
  | _ => none

/-- `isPaytmAgentRefundExecutionResult`, with what it has found. -/
def paytmAgentRefundExecutionResult? (body : Option Json) :
    Option PaytmAgentRefundExecutionResult :=
  match body with
  | some (.obj candidate) => do
    let businessTransactionId ← stringMember candidate "businessTransactionId"
    let action ← stringMember candidate "action"
    let target ← stringMember candidate "target"
    let parameters ← objectMember candidate "parameters"
    let orderId ← stringMember parameters "orderId"
    let txnId ← stringMember parameters "txnId"
    let refId ← stringMember parameters "refId"
    guard (0 < refId.length)
    let amount ← stringMember parameters "amount"
    let success ← boolMember candidate "success"
    let executedAt ← stringMember candidate "executedAt"
    return {
      businessTransactionId, action, target, orderId, txnId, refId, amount, success, executedAt
      metadata := Fields.own? candidate "metadata" }
  | _ => none

namespace GatewayPaytmAdapter

/-- One more mismatch, where the values differ. -/
def mismatch (received sent name : JsString) : List JsString :=
  if received ≠ sent then [name] else []

/-- `mismatches`. -/
def mismatches (request : ConnectorRequest) (refund : PaytmRefund)
    (body : PaytmAgentRefundExecutionResult) : List JsString :=
  mismatch body.businessTransactionId request.businessTransactionId "businessTransactionId" ++
    mismatch body.action PAYTM_AGENT_WIRE_ACTION "action" ++
    mismatch body.orderId refund.orderId "orderId" ++ mismatch body.txnId refund.txnId "txnId"

/-- The metadata that is handed on. -/
def metadata (sha256 : List UInt8 → JsString) (secret : JsString)
    (body : PaytmAgentRefundExecutionResult) : Fields :=
  let own : Fields := [("refId", .str body.refId), ("orderId", .str body.orderId),
    ("txnId", .str body.txnId), ("executedAt", .str body.executedAt)]
  let spread := Members.spread own (body.metadata.elim [] fun value => (JsValue.json value).entries)
  Members.define spread "sharedSecretRedacted" (.str (redactPaytmConnectorSecret sha256 secret))

/-- What `execute` makes of the body of an answer. -/
def accept (sha256 : List UInt8 → JsString) (connectorId : JsString) (request : ConnectorRequest)
    (refund : PaytmRefund) (secret : JsString) (body : Option Json) :
    Except Failure ConnectorResponse :=
  match paytmAgentRefundExecutionResult? body with
  | none =>
    .error (failure connectorId
      (("received a malformed response from the Paytm connector " : JsString) ++
        ("service -- missing or invalid required fields." : JsString)))
  | some body =>
    let mismatched := mismatches request refund body
    if mismatched ≠ [] then
      .error (failure connectorId (("refuses a connector-service response whose " : JsString) ++
        JsString.join ", " mismatched ++
        (" did not match the request that was sent -- binding validation failed." : JsString)))
    else .ok { success := body.success, metadata := some (metadata sha256 secret body) }

end GatewayPaytmAdapter

/-! ## The exchange -/

/-- What `fetch` resolves to. -/
structure FetchResponse where
  ok : Bool
  status : JsNumber

/-- What `execute` calls. -/
inductive PaytmCall where
  /-- `Date.now()`. -/
  | now
  /-- `SignerBootstrap.create()`. -/
  | createSigner
  | sign (keyId : JsString) (payload : List UInt8)
  /-- `fetch`, with the header `Authorization` and the body. -/
  | fetch (url authorization body : JsString)
  /-- `response.json()`. -/
  | json
  /-- `controller.signal.aborted`. -/
  | aborted

/-- What the calls are answered with. -/
def PaytmCall.Answer : PaytmCall → Type
  | .now => Int
  | .createSigner => Unit
  | .sign _ _ => JsString
  | .fetch _ _ _ => FetchResponse
  | .json => Json
  | .aborted => Bool

abbrev PaytmProgram := Program PaytmCall PaytmCall.Answer Failure

abbrev PaytmEvent := Event PaytmCall PaytmCall.Answer Failure

namespace PaytmCall

abbrev readClock : PaytmProgram Int := perform PaytmCall.now
abbrev loadSigner : PaytmProgram Unit := perform PaytmCall.createSigner
abbrev signPayload (keyId : JsString) (payload : List UInt8) : PaytmProgram JsString :=
  perform (PaytmCall.sign keyId payload)
abbrev post (url authorization body : JsString) : PaytmProgram FetchResponse :=
  perform (PaytmCall.fetch url authorization body)
abbrev readJson : PaytmProgram Json := perform PaytmCall.json
abbrev isAborted : PaytmProgram Bool := perform PaytmCall.aborted

end PaytmCall

namespace GatewayPaytmAdapter

/-- The body of the `try` block of `execute`. -/
def exchange (sha256 : List UInt8 → JsString) (adapter : GatewayPaytmAdapter)
    (request : ConnectorRequest) (refund : PaytmRefund) (secret : JsString) (body : Json) :
    PaytmProgram ConnectorResponse := do
  let response ← PaytmCall.post (adapter.baseUrl ++ PAYTM_REFUND_PATH)
    (("Bearer " : JsString) ++ secret) body.stringify
  Program.done (refuseIf (response.ok = false) (failure adapter.connectorId
    (("request to the Paytm connector service failed with HTTP " : JsString) ++
      response.status.toText ++ ("." : JsString))))
  let answer ← tryCatch (do return some (← PaytmCall.readJson)) fun _ => return none
  Program.done (accept sha256 adapter.connectorId request refund secret answer)

/-- The handler of its errors. -/
def timedOut (adapter : GatewayPaytmAdapter) (request : ConnectorRequest) (timeoutMs : JsNumber)
    (error : Failure) : PaytmProgram ConnectorResponse := do
  if ← PaytmCall.isAborted then
    throw (failure adapter.connectorId (("request to capability \"" : JsString) ++
      request.capability ++ ("\" timed out after " : JsString) ++ timeoutMs.toText ++
      ("ms." : JsString)))
  else throw error

/-- `execute`. -/
def execute (sha256 : List UInt8 → JsString) (adapter : GatewayPaytmAdapter)
    (request : ConnectorRequest) (context : PaytmExecutionContext) :
    PaytmProgram ConnectorResponse := do
  let (secret, refund) ← Program.done (adapter.check sha256 request context.credential)
  let now ← PaytmCall.readClock
  let expiresAt := JsNumber.ofInt (now + PAYTM_AUTHORIZATION_SIGNATURE_TTL_MS)
  let canonicalAuthorization := canonicalPaytmAuthorizationString
    (refund.authorization request.businessTransactionId expiresAt)
  PaytmCall.loadSigner
  let signature ← PaytmCall.signPayload DEFAULT_KEY_ID canonicalAuthorization.encode
  tryCatch
    (adapter.exchange sha256 request refund secret (refund.body request expiresAt signature))
    (adapter.timedOut request context.timeoutMs)

/-! ## What is sent -/

section
variable {sha256 : List UInt8 → JsString} {adapter : GatewayPaytmAdapter}
  {request : ConnectorRequest} {context : PaytmExecutionContext} {secret : JsString}
  {refund : PaytmRefund}

theorem check_eq_ok : adapter.check sha256 request context.credential = .ok (secret, refund) ↔
    adapter.sharedSecret request context.credential = .ok secret ∧
      GatewayPaytmAdapter.refund sha256 adapter.connectorId request.parameters = .ok refund := by
  unfold check
  constructor
  · intro h
    obtain ⟨found, hsecret, h⟩ := bind_eq_ok.mp h
    obtain ⟨checked, hrefund, h⟩ := bind_eq_ok.mp h
    cases h
    exact ⟨hsecret, hrefund⟩
  · rintro ⟨hsecret, hrefund⟩
    rw [hsecret, hrefund]
    rfl

/-- The amount of a refund is the number of the parameters. -/
theorem refund_amount {connectorId : JsString} {parameters : Fields}
    (h : GatewayPaytmAdapter.refund sha256 connectorId parameters = .ok refund) :
    parameters.own? "amount" = some (.num refund.amount) ∧ refund.amount.isFinite = true := by
  unfold GatewayPaytmAdapter.refund at h
  obtain ⟨-, -, h⟩ := bind_eq_ok.mp h
  obtain ⟨orderId, -, h⟩ := bind_eq_ok.mp h
  obtain ⟨txnId, -, h⟩ := bind_eq_ok.mp h
  obtain ⟨amount, hamount, h⟩ := bind_eq_ok.mp h
  obtain ⟨refundReference, -, h⟩ := bind_eq_ok.mp h
  obtain ⟨refundReason, -, h⟩ := bind_eq_ok.mp h
  cases h
  refine ⟨?_, requireNumber_ok hamount⟩
  unfold requireNumber at hamount
  split at hamount
  · rename_i n hown
    by_cases hfinite : n.isFinite = true
    · rw [if_pos hfinite] at hamount
      cases hamount
      exact hown
    · rw [if_neg hfinite] at hamount
      cases hamount
  · cases hamount

/-- The calls that carry a refund: its signing and its posting. -/
def Carries (refund : PaytmRefund) (request : ConnectorRequest) : PaytmCall → Prop
  | .sign _ payload => ∃ expiresAt, payload = (canonicalPaytmAuthorizationString
      (refund.authorization request.businessTransactionId expiresAt)).encode
  | .fetch _ _ body => ∃ expiresAt signature,
      body = (refund.body request expiresAt signature).stringify
  | _ => True

/-- A call that signs or posts. -/
def sends : PaytmCall → Bool
  | .sign _ _ | .fetch _ _ _ => true
  | _ => false

theorem exchange_only (expiresAt : JsNumber) (signature : JsString) :
    (adapter.exchange sha256 request refund secret
      (refund.body request expiresAt signature)).Only (Carries refund request) := by
  unfold exchange
  refine Only.bind (only_perform.mpr ⟨expiresAt, signature, rfl⟩) fun response => ?_
  refine Only.bind only_done fun _ => Only.bind ?_ fun answer => only_done
  exact Only.tryCatch (Only.bind (only_perform.mpr trivial) fun _ => only_done) fun _ => only_done

theorem timedOut_only (timeoutMs : JsNumber) (error : Failure) :
    (adapter.timedOut request timeoutMs error).Only (Carries refund request) := by
  unfold timedOut
  refine Only.bind (only_perform.mpr trivial) fun aborted => ?_
  split
  · exact only_done
  · exact only_done

/-- **What is signed and posted is the refund that the checks admitted.** -/
theorem execute_only : (adapter.execute sha256 request context).Only fun call =>
    ∃ secret refund, adapter.check sha256 request context.credential = .ok (secret, refund) ∧
      Carries refund request call := by
  unfold execute
  cases hcheck : adapter.check sha256 request context.credential with
  | error failure => exact only_done
  | ok admitted =>
    obtain ⟨secret, refund⟩ := admitted
    rw [done_ok_bind]
    have hcarries : ∀ {p : PaytmProgram ConnectorResponse}, p.Only (Carries refund request) →
        p.Only fun call => ∃ secret' refund', Except.ok (secret, refund) =
          (Except.ok (secret', refund') : Except Failure (JsString × PaytmRefund)) ∧
            Carries refund' request call :=
      fun h => h.mono fun call hcall => ⟨secret, refund, rfl, hcall⟩
    refine hcarries (Only.bind (only_perform.mpr trivial) fun now => ?_)
    refine Only.bind (only_perform.mpr trivial) fun _ => ?_
    refine Only.bind (only_perform.mpr ⟨_, rfl⟩) fun signature => ?_
    exact Only.tryCatch (exchange_only _ _) (timedOut_only _)

/-- The run in which every call up to the answer goes through. -/
def throughEvents (adapter : GatewayPaytmAdapter) (request : ConnectorRequest) (secret : JsString)
    (refund : PaytmRefund) (now : Int) (signature : JsString) (status : JsNumber)
    (body : Json) : List PaytmEvent :=
  let expiresAt := JsNumber.ofInt (now + PAYTM_AUTHORIZATION_SIGNATURE_TTL_MS)
  [⟨.now, .ok now⟩, ⟨.createSigner, .ok ()⟩,
    ⟨.sign DEFAULT_KEY_ID (canonicalPaytmAuthorizationString
      (refund.authorization request.businessTransactionId expiresAt)).encode, .ok signature⟩,
    ⟨.fetch (adapter.baseUrl ++ PAYTM_REFUND_PATH) (("Bearer " : JsString) ++ secret)
      (refund.body request expiresAt signature).stringify, .ok ⟨true, status⟩⟩,
    ⟨.json, .ok body⟩]

theorem runs_through {response : ConnectorResponse} {body : Json}
    (hcheck : adapter.check sha256 request context.credential = .ok (secret, refund))
    (haccept : accept sha256 adapter.connectorId request refund secret (some body) = .ok response)
    (now : Int) (signature : JsString) (status : JsNumber) :
    Runs (adapter.execute sha256 request context)
      (throughEvents adapter request secret refund now signature status body) (.ok response) := by
  unfold execute
  rw [hcheck, done_ok_bind]
  refine .call (.call (.call (.call (.call ?_))))
  show Runs (tryCatch (Program.done (accept sha256 adapter.connectorId request refund secret
    (some body))) _) [] (.ok response)
  rw [haccept]
  exact .refl _

theorem timedOut_fails {timeoutMs : JsNumber} {error : Failure} {t : List PaytmEvent}
    {response : ConnectorResponse} :
    ¬ Runs (adapter.timedOut request timeoutMs error) t (.ok response) := by
  intro h
  obtain ⟨e, -, herror⟩ | ⟨aborted, t', -, hthrow⟩ := runs_perform_bind.mp h
  · cases herror
  · cases aborted with
    | true => cases (runs_done.mp hthrow).2
    | false => cases (runs_done.mp hthrow).2

theorem exchange_ok {posted : Json} {response : ConnectorResponse} {t : List PaytmEvent}
    (h : Runs (adapter.exchange sha256 request refund secret posted) t (.ok response)) :
    ∃ status body, accept sha256 adapter.connectorId request refund secret (some body) =
        .ok response ∧
      t = [⟨.fetch (adapter.baseUrl ++ PAYTM_REFUND_PATH) (("Bearer " : JsString) ++ secret)
        posted.stringify, .ok ⟨true, status⟩⟩, ⟨.json, .ok body⟩] := by
  unfold exchange at h
  obtain ⟨e, -, herror⟩ | ⟨⟨ok, status⟩, t₁, ht, hrest⟩ := runs_perform_bind.mp h
  · cases herror
  cases ok with
  | false => cases (runs_done.mp hrest).2
  | true =>
    have hread : Runs (do
        let answer ← tryCatch (do return some (← PaytmCall.readJson)) fun _ => return none
        Program.done (accept sha256 adapter.connectorId request refund secret answer)) t₁
        (.ok response) := hrest
    obtain ⟨e, -, herror⟩ | ⟨answer, t₂, t₃, ht₁, hjson, haccept⟩ := runs_bind.mp hread
    · cases herror
    obtain ⟨rfl, hresult⟩ := runs_done.mp haccept
    obtain ⟨answer', hread, hanswer⟩ | ⟨e, t₄, t₅, -, -, hnone⟩ := runs_tryCatch.mp hjson
    · cases hanswer
      obtain ⟨e, -, herror⟩ | ⟨body, t₆, ht₂, hbody⟩ := runs_perform_bind.mp hread
      · cases herror
      · obtain ⟨rfl, hbody⟩ := runs_done.mp hbody
        cases hbody
        rw [ht₂, List.append_nil] at ht₁
        rw [ht₁] at ht
        exact ⟨status, body, hresult.symm, ht⟩
    · obtain ⟨-, hnone⟩ := runs_done.mp hnone
      cases hnone
      cases hresult

/-- A run that returns went through every call. -/
theorem runs_ok {response : ConnectorResponse} {t : List PaytmEvent}
    (h : Runs (adapter.execute sha256 request context) t (.ok response)) :
    ∃ secret refund now signature status body,
      adapter.check sha256 request context.credential = .ok (secret, refund) ∧
      accept sha256 adapter.connectorId request refund secret (some body) = .ok response ∧
      t = throughEvents adapter request secret refund now signature status body := by
  unfold execute at h
  cases hcheck : adapter.check sha256 request context.credential with
  | error failure =>
    rw [hcheck] at h
    cases (runs_done.mp h).2
  | ok admitted =>
    obtain ⟨secret, refund⟩ := admitted
    rw [hcheck, done_ok_bind] at h
    obtain ⟨e, -, herror⟩ | ⟨now, t₁, ht, hsigner⟩ := runs_perform_bind.mp h
    · cases herror
    obtain ⟨e, -, herror⟩ | ⟨_, t₂, ht₁, hsign⟩ := runs_perform_bind.mp hsigner
    · cases herror
    obtain ⟨e, -, herror⟩ | ⟨signature, t₃, ht₂, hpost⟩ := runs_perform_bind.mp hsign
    · cases herror
    obtain ⟨response', hexchange, hresponse⟩ | ⟨e, t₄, t₅, -, -, hthrow⟩ := runs_tryCatch.mp hpost
    · cases hresponse
      obtain ⟨status, body, haccept, ht₃⟩ := exchange_ok hexchange
      refine ⟨secret, refund, now, signature, status, body, rfl, haccept, ?_⟩
      rw [ht, ht₁, ht₂, ht₃]
      rfl
    · exact absurd hthrow timedOut_fails

/-- The run in which the refund is posted and `fetch` fails. -/
def postedEvents (adapter : GatewayPaytmAdapter) (request : ConnectorRequest) (secret : JsString)
    (refund : PaytmRefund) : List PaytmEvent :=
  let expiresAt := JsNumber.ofInt (0 + PAYTM_AUTHORIZATION_SIGNATURE_TTL_MS)
  [⟨.now, .ok (0 : Int)⟩, ⟨.createSigner, .ok ()⟩,
    ⟨.sign DEFAULT_KEY_ID (canonicalPaytmAuthorizationString
      (refund.authorization request.businessTransactionId expiresAt)).encode, .ok ("" : JsString)⟩,
    ⟨.fetch (adapter.baseUrl ++ PAYTM_REFUND_PATH) (("Bearer " : JsString) ++ secret)
      (refund.body request expiresAt "").stringify, .error .typeError⟩,
    ⟨.aborted, .ok false⟩]

theorem runs_posted
    (hcheck : adapter.check sha256 request context.credential = .ok (secret, refund)) :
    Runs (adapter.execute sha256 request context) (postedEvents adapter request secret refund)
      (.error .typeError) := by
  unfold execute
  rw [hcheck, done_ok_bind]
  exact .call (.call (.call (.call (.call (.refl _)))))

theorem posted_mem : ∃ event ∈ postedEvents adapter request secret refund,
    (∃ url authorization body, event.1 = .fetch url authorization body) ∧
      sends event.1 = true ∧ Carries refund request event.1 :=
  ⟨_, List.mem_cons_of_mem _ (List.mem_cons_of_mem _ (List.mem_cons_of_mem _ List.mem_cons_self)),
    ⟨_, _, _, rfl⟩, rfl, _, _, rfl⟩

end

/-! ## The amount -/

/-- In no run of a request is an amount signed or posted that is above the one of its
parameters. -/
def Bounded (sha256 : List UInt8 → JsString) (adapter : GatewayPaytmAdapter)
    (request : ConnectorRequest) (context : PaytmExecutionContext) : Prop :=
  ∀ t r, Runs (adapter.execute sha256 request context) t r → ∀ event ∈ t, sends event.1 = true →
    ∃ secret refund amount, adapter.check sha256 request context.credential = .ok (secret, refund) ∧
      Carries refund request event.1 ∧
      request.parameters.own? "amount" = some (.num refund.amount) ∧
      refund.amountString.decimal? = some amount ∧ amount ≤ refund.amount.toRat

section
variable {sha256 : List UInt8 → JsString} {adapter : GatewayPaytmAdapter}
  {request : ConnectorRequest} {context : PaytmExecutionContext}

/-- **When no amount is sent above the amount of the parameters**: when the checks refuse the
request, or the amount is not rounded up. -/
theorem amount_bounded_iff : Bounded sha256 adapter request context ↔
    ∀ secret refund, adapter.check sha256 request context.credential = .ok (secret, refund) →
      refund.amount.FixedBelow 2 := by
  constructor
  · intro h secret refund hcheck
    obtain ⟨-, hrefund⟩ := check_eq_ok.mp hcheck
    obtain ⟨event, hmem, -, hsends, -⟩ := @posted_mem adapter request secret refund
    obtain ⟨secret', refund', amount, hcheck', -, -, htext, hle⟩ :=
      h _ _ (runs_posted hcheck) event hmem hsends
    rw [hcheck] at hcheck'
    cases hcheck'
    obtain ⟨q, hq, hiff⟩ := toFixed_le_iff (refund_amount hrefund).2 Nat.two_pos
    have heq : some q = some amount := hq.symm.trans htext
    rw [← Option.some.inj heq] at hle
    exact hiff.mp hle
  · intro h t r hruns event hmem hsends
    obtain ⟨secret, refund, hcheck, hcarries⟩ := execute_only.of_runs hruns event hmem
    obtain ⟨hown, hfinite⟩ := refund_amount (check_eq_ok.mp hcheck).2
    obtain ⟨q, hq, hiff⟩ := toFixed_le_iff hfinite Nat.two_pos
    exact ⟨secret, refund, q, hcheck, hcarries, hown, hq, hiff.mpr (h secret refund hcheck)⟩

end

/-! ## The evidence -/

/-- The identifiers that are handed on are those of the refund. -/
structure Echoes (refund : PaytmRefund) (metadata : Fields) : Prop where
  orderId : metadata.own? "orderId" = some (.str refund.orderId)
  txnId : metadata.own? "txnId" = some (.str refund.txnId)
  refId : metadata.own? "refId" = some (.str refund.refId)

/-- A member of the `metadata` of an answer, where that is an object. -/
def metadataMember (body : PaytmAgentRefundExecutionResult) (name : JsString) : Option Json :=
  match body.metadata with
  | some (.obj fields) => Fields.own? fields name
  | _ => none

/-- The answer says the identifiers of the refund: its metadata has no other ones, and its
`refId`, which nothing compares, is the one that was sent where the metadata has none. -/
structure Confirms (refund : PaytmRefund) (body : PaytmAgentRefundExecutionResult) : Prop where
  orderId : ∀ value, metadataMember body "orderId" = some value → value = .str refund.orderId
  txnId : ∀ value, metadataMember body "txnId" = some value → value = .str refund.txnId
  refId : ∀ value, metadataMember body "refId" = some value → value = .str refund.refId
  sent : metadataMember body "refId" = none → body.refId = refund.refId

/-- No identifier is the name of an element. -/
theorem name_ne_index {us : List UInt16} (u : UInt16) (hu : 0x39 < u) (n : Nat) :
    (⟨u :: us⟩ : JsString) ≠ JsString.ofString (toString n) := by
  intro h
  have hlist : (toString n).toList = Nat.toDigits 10 n := Nat.toList_repr
  have hunits : (JsString.ofString (toString n)).units = codes (Nat.toDigits 10 n) := by
    rw [units_ofString, hlist]
    rw [hlist]
    exact fun c hc => digit_ascii (allDigits_toDigits n c hc)
  have hmem : u ∈ codes (Nat.toDigits 10 n) := by
    rw [← hunits, ← h]
    exact List.mem_cons_self
  obtain ⟨c, hc, rfl⟩ := List.mem_map.mp hmem
  exact absurd (code_bounds (allDigits_toDigits n c hc)).2.1 (UInt16.not_le.mpr hu)

theorem spread_own {own : Fields} {body : PaytmAgentRefundExecutionResult} {u : UInt16}
    {us : List UInt16} (hu : 0x39 < u) :
    Fields.own? (Members.spread own
        (body.metadata.elim [] fun value => (JsValue.json value).entries)) ⟨u :: us⟩ =
      (metadataMember body ⟨u :: us⟩).or (own.own? ⟨u :: us⟩) := by
  unfold metadataMember
  cases hmetadata : body.metadata with
  | none => rfl
  | some value =>
    have hindices : ∀ (values : List (Json × Nat)), Fields.own? (Members.spread own
        (values.map fun x => (JsString.ofString (toString x.2), x.1))) ⟨u :: us⟩ =
          own.own? ⟨u :: us⟩ := by
      intro values
      refine Members.lookup_spread_of_not_mem (fun hmem => ?_) own
      rw [List.map_map] at hmem
      obtain ⟨x, -, hx⟩ := List.mem_map.mp hmem
      exact name_ne_index u hu x.2 hx.symm
    cases value with
    | obj fields => exact Members.own?_spread_entries own fields _
    | arr xs => exact hindices xs.zipIdx
    | str s =>
      have hstr : (JsValue.json (.str s)).entries =
          (s.units.zipIdx.map fun u => (Json.str ⟨[u.1]⟩, u.2)).map
            fun x => (JsString.ofString (toString x.2), x.1) := by
        rw [List.map_map]
        rfl
      show Fields.own? (Members.spread own (JsValue.json (.str s)).entries) _ = _
      rw [hstr]
      exact hindices _
    | _ => rfl

theorem metadata_own (sha256 : List UInt8 → JsString) (secret : JsString)
    (body : PaytmAgentRefundExecutionResult) (name : JsString) (value : Json)
    (hname : ∃ u us, name = ⟨u :: us⟩ ∧ 0x39 < u) (hne : name ≠ "sharedSecretRedacted")
    (hown : Fields.own? [("refId", .str body.refId), ("orderId", .str body.orderId),
      ("txnId", .str body.txnId), ("executedAt", .str body.executedAt)] name = some value) :
    (metadata sha256 secret body).own? name = some ((metadataMember body name).getD value) := by
  obtain ⟨u, us, rfl, hu⟩ := hname
  unfold metadata Fields.own?
  dsimp only
  rw [Members.lookup_define, if_neg hne]
  refine (spread_own hu).trans ?_
  rw [hown]
  cases metadataMember body ⟨u :: us⟩ <;> rfl

theorem getD_eq_iff {α : Type} {found : Option α} {v w : α} :
    some (found.getD v) = some w ↔ (∀ value, found = some value → value = w) ∧
      (found = none → v = w) := by
  cases found <;> simp

theorem echoes_iff {sha256 : List UInt8 → JsString} {secret : JsString} {refund : PaytmRefund}
    {body : PaytmAgentRefundExecutionResult} (horder : body.orderId = refund.orderId)
    (htxn : body.txnId = refund.txnId) :
    Echoes refund (metadata sha256 secret body) ↔ Confirms refund body := by
  have horderId := metadata_own sha256 secret body "orderId" (.str body.orderId)
    ⟨_, _, rfl, by decide⟩ (by decide) rfl
  have htxnId := metadata_own sha256 secret body "txnId" (.str body.txnId)
    ⟨_, _, rfl, by decide⟩ (by decide) rfl
  have hrefId := metadata_own sha256 secret body "refId" (.str body.refId)
    ⟨_, _, rfl, by decide⟩ (by decide) rfl
  constructor
  · rintro ⟨h, h', h''⟩
    rw [horderId, getD_eq_iff] at h
    rw [htxnId, getD_eq_iff] at h'
    rw [hrefId, getD_eq_iff] at h''
    exact ⟨h.1, h'.1, h''.1, fun hnone => Json.str.inj (h''.2 hnone)⟩
  · rintro ⟨h, h', h'', hsent⟩
    refine ⟨?_, ?_, ?_⟩
    · rw [horderId, getD_eq_iff]
      exact ⟨h, fun _ => by rw [horder]⟩
    · rw [htxnId, getD_eq_iff]
      exact ⟨h', fun _ => by rw [htxn]⟩
    · rw [hrefId, getD_eq_iff]
      exact ⟨h'', fun hnone => by rw [hsent hnone]⟩

theorem mismatches_eq_nil {request : ConnectorRequest} {refund : PaytmRefund}
    {body : PaytmAgentRefundExecutionResult} : mismatches request refund body = [] ↔
      body.businessTransactionId = request.businessTransactionId ∧
        body.action = PAYTM_AGENT_WIRE_ACTION ∧ body.orderId = refund.orderId ∧
        body.txnId = refund.txnId := by
  have hpart : ∀ received sent name, mismatch received sent name = [] ↔ received = sent := by
    intro received sent name
    unfold mismatch
    by_cases h : received = sent
    · simp [h]
    · simp [h]
  unfold mismatches
  rw [List.append_eq_nil_iff, List.append_eq_nil_iff, List.append_eq_nil_iff, hpart, hpart, hpart,
    hpart, and_assoc, and_assoc]

section
variable {sha256 : List UInt8 → JsString} {adapter : GatewayPaytmAdapter}
  {request : ConnectorRequest} {context : PaytmExecutionContext} {secret : JsString}
  {refund : PaytmRefund}

/-- What is made of an answer that is accepted. -/
theorem accept_eq_ok {connectorId : JsString} {body : Option Json} {response : ConnectorResponse} :
    accept sha256 connectorId request refund secret body = .ok response ↔
      ∃ result, paytmAgentRefundExecutionResult? body = some result ∧
        mismatches request refund result = [] ∧
        response = {
          success := result.success
          metadata := some (metadata sha256 secret result) } := by
  unfold accept
  cases hresult : paytmAgentRefundExecutionResult? body with
  | none => simp
  | some result =>
    dsimp only
    by_cases hmismatch : mismatches request refund result = []
    · rw [if_neg (not_not.mpr hmismatch)]
      constructor
      · intro h
        exact ⟨result, rfl, hmismatch, (Except.ok.inj h).symm⟩
      · rintro ⟨_, ⟨⟩, -, rfl⟩
        rfl
    · rw [if_pos hmismatch]
      constructor
      · intro h
        cases h
      · rintro ⟨_, ⟨⟩, h, -⟩
        exact absurd h hmismatch

/-- Whenever `execute` returns on an answer, the refund that was posted is the one whose
identifiers are handed on. -/
def EchoesSent (sha256 : List UInt8 → JsString) (adapter : GatewayPaytmAdapter)
    (request : ConnectorRequest) (context : PaytmExecutionContext) (body : Json) : Prop :=
  ∀ t response, Runs (adapter.execute sha256 request context) t (.ok response) →
    (⟨.json, .ok body⟩ : PaytmEvent) ∈ t →
    ∃ secret refund, adapter.check sha256 request context.credential = .ok (secret, refund) ∧
      (∃ event ∈ t, (∃ url authorization posted, event.1 = .fetch url authorization posted) ∧
        Carries refund request event.1) ∧
      ∃ metadata, response.metadata = some metadata ∧ Echoes refund metadata

theorem json_mem_through {now : Int} {signature : JsString} {status : JsNumber}
    {body other : Json} :
    (⟨.json, .ok other⟩ : PaytmEvent) ∈
      throughEvents adapter request secret refund now signature status body ↔ other = body := by
  unfold throughEvents
  simp only [List.mem_cons, Sigma.mk.injEq, reduceCtorEq, false_and, heq_eq_eq, true_and,
    List.not_mem_nil, or_false, false_or]
  exact ⟨fun h => Except.ok.inj h, fun h => congrArg Except.ok h⟩

/-- **When what is handed on of an answer are the identifiers that were sent**: when the
checks refuse the request or the answer, or the answer confirms the refund. -/
theorem evidence_echoes_iff {body : Json} :
    EchoesSent sha256 adapter request context body ↔
      ∀ secret refund, adapter.check sha256 request context.credential = .ok (secret, refund) →
        ∀ result, paytmAgentRefundExecutionResult? (some body) = some result →
          mismatches request refund result = [] → Confirms refund result := by
  constructor
  · intro h secret refund hcheck result hresult hmatch
    obtain ⟨-, -, horder, htxn⟩ := mismatches_eq_nil.mp hmatch
    have haccept : accept sha256 adapter.connectorId request refund secret (some body) = _ :=
      accept_eq_ok.mpr ⟨result, hresult, hmatch, rfl⟩
    obtain ⟨secret', refund', hcheck', -, metadata, hmetadata, hechoes⟩ :=
      h _ _ (runs_through hcheck haccept 0 "" .zero) (json_mem_through.mpr rfl)
    rw [hcheck] at hcheck'
    cases hcheck'
    cases hmetadata
    exact (echoes_iff horder htxn).mp hechoes
  · intro h t response hruns hmem
    obtain ⟨secret, refund, now, signature, status, body', hcheck, haccept, rfl⟩ := runs_ok hruns
    cases json_mem_through.mp hmem
    obtain ⟨result, hresult, hmatch, rfl⟩ := accept_eq_ok.mp haccept
    obtain ⟨-, -, horder, htxn⟩ := mismatches_eq_nil.mp hmatch
    refine ⟨secret, refund, hcheck, ⟨_, List.mem_cons_of_mem _ (List.mem_cons_of_mem _
      (List.mem_cons_of_mem _ List.mem_cons_self)), ⟨_, _, _, rfl⟩, _, _, rfl⟩, _, rfl, ?_⟩
    exact (echoes_iff horder htxn).mpr (h secret refund hcheck result hresult hmatch)

end

/-! ## Two answers of the code -/

namespace Sample

/-- An adapter for a service that is not local. -/
def adapter : GatewayPaytmAdapter where
  connectorId := "paytm"
  capabilities := [PAYTM_REFUND_CAPABILITY]
  baseUrl := "https://paytm.example"

/-- A refund of an eighth of a rupee. -/
def request : ConnectorRequest where
  capability := PAYTM_REFUND_CAPABILITY
  businessTransactionId := "t1"
  action := PAYTM_REFUND_CAPABILITY
  target := "paytm"
  parameters := [("orderId", .str "O1"), ("transactionId", .str "T1"),
    ("amount", .num (.ofRatio false 1 8))]

def context : PaytmExecutionContext where
  credential := .obj [("sharedSecret", .str "s")]
  timeoutMs := .ofNat 30000

/-- The SHA-256 digest of `O1:T1`. -/
def digest : JsString := "638510efb63482dbdb5d17374e1344ef41f99acec1ea989555e6d8a73de02dec"

/-- What the checks make of the request. -/
def refund : PaytmRefund where
  orderId := "O1"
  txnId := "T1"
  amount := .ofRatio false 1 8
  refundReason := none
  refId := "refid_638510efb63482dbdb5d1737"

theorem admitted : adapter.check (fun _ => digest) request context.credential =
    .ok ("s", refund) := by decide

/-- The amount is half a unit above a number of two decimals. -/
theorem not_fixedBelow : ¬ FixedBelow 2 refund.amount := by
  have hamount : refund.amount = .finite ⟨.ofOdd 1 3 (by decide), by decide⟩ := by decide
  have heighth : (Dyadic.ofOdd 1 3 (by decide)).toRat = 1 / 8 := by
    rw [Dyadic.toRat_ofOdd_eq_mul_two_pow]
    norm_num
  rw [hamount]
  unfold FixedBelow
  dsimp only
  rw [heighth, if_pos (by norm_num [abs_of_pos]), if_neg (by norm_num)]
  norm_num [abs_of_pos, Int.fract]

/-- An answer to the refund that names another one in its metadata. -/
def answer : Json :=
  .obj [("businessTransactionId", .str "t1"), ("action", .str PAYTM_AGENT_WIRE_ACTION),
    ("target", .str "paytm"),
    ("parameters", .obj [("orderId", .str "O1"), ("txnId", .str "T1"),
      ("refId", .str refund.refId), ("amount", .str refund.amountString)]),
    ("success", .bool true), ("executedAt", .str "2026-01-01T00:00:00.000Z"),
    ("metadata", .obj [("refId", .str "refid_other")])]

def result : PaytmAgentRefundExecutionResult where
  businessTransactionId := "t1"
  action := PAYTM_AGENT_WIRE_ACTION
  target := "paytm"
  orderId := "O1"
  txnId := "T1"
  refId := refund.refId
  amount := refund.amountString
  success := true
  executedAt := "2026-01-01T00:00:00.000Z"
  metadata := some (.obj [("refId", .str "refid_other")])

theorem answered : paytmAgentRefundExecutionResult? (some answer) = some result := by
  decide

end Sample

/-- **An amount that is rounded up**: an eighth is signed and posted as `0.13`. -/
theorem amount_rounded_up :
    ¬ (∀ sha256 adapter request context, Bounded sha256 adapter request context) ∧
      Sample.request.parameters.own? "amount" = some (.num (.ofRatio false 1 8)) ∧
      Sample.refund.amountString = "0.13" := by
  refine ⟨fun hall => ?_, by decide, by decide⟩
  obtain ⟨event, hmem, -, hsends, -⟩ :=
    @posted_mem Sample.adapter Sample.request "s" Sample.refund
  obtain ⟨secret, refund, amount, hcheck, -, -, htext, hle⟩ :=
    hall _ _ _ Sample.context _ _ (runs_posted Sample.admitted) event hmem hsends
  rw [Sample.admitted] at hcheck
  cases hcheck
  obtain ⟨q, hq, hiff⟩ := toFixed_le_iff (n := Sample.refund.amount) (by decide) Nat.two_pos
  rw [Option.some.inj (hq.symm.trans htext)] at hiff
  exact Sample.not_fixedBelow (hiff.mp hle)

/-- **An identifier that the answer replaces**: the metadata of an answer that is accepted
names another `refId`. -/
theorem refId_overwritten :
    ¬ ∀ sha256 adapter request context body, EchoesSent sha256 adapter request context body := by
  intro hall
  have hmatch : mismatches Sample.request Sample.refund Sample.result = [] := by decide
  have haccept : accept (fun _ => Sample.digest) Sample.adapter.connectorId Sample.request
      Sample.refund "s" _ = _ := accept_eq_ok.mpr ⟨Sample.result, Sample.answered, hmatch, rfl⟩
  obtain ⟨secret, refund, hcheck, -, metadata, hmetadata, hechoes⟩ :=
    hall _ _ _ Sample.context _ _ _ (runs_through Sample.admitted haccept 0 "" .zero)
      (json_mem_through.mpr rfl)
  rw [Sample.admitted] at hcheck
  cases hcheck
  cases hmetadata
  have hconfirms := (echoes_iff rfl rfl).mp hechoes
  have hother := hconfirms.refId (.str "refid_other") (by decide)
  exact absurd hother (by decide)

end GatewayPaytmAdapter
end Parmana.Connectors

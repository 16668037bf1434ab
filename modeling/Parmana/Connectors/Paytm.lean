import Parmana.Collections.Cuts
import Parmana.Js.Fixed
import Parmana.Js.Pieces
import Parmana.Js.Time
import Parmana.Js.WellFormed
import Parmana.Runtime.Domain

/-! # What a Paytm signature authorizes

`GatewayPaytmAdapter.execute` signs a text that joins six fields of a refund with `|`, and
the connector service rebuilds that text from the request it receives.  The text has no
escapes, so it can be read as another refund wherever a field holds the separator: the
signature for the order `A|B` and the transaction `C` is one for the order `A` and the
transaction `B|C` (`split_elsewhere`).  And what is signed are its bytes in UTF-8, which do
not tell a lone surrogate from `U+FFFD`.

**What can be read only as it was meant is characterized exactly** (`authorizes_one_iff`),
once among the refunds that the adapter signs and once among those that the service takes
from a request, whose amount is any text.
-/
namespace Parmana.Connectors
open Js JsNumber

/-! ## The signed text -/

/-- The argument of `canonicalPaytmAuthorizationString`. -/
structure PaytmAuthorization where
  businessTransactionId : JsString
  action : JsString
  orderId : JsString
  txnId : JsString
  amount : JsString
  expiresAt : JsNumber
  deriving DecidableEq

/-- The fields as they are joined. -/
def PaytmAuthorization.fields (input : PaytmAuthorization) : List JsString :=
  [input.businessTransactionId, input.action, input.orderId, input.txnId, input.amount,
    input.expiresAt.toText]

/-- `canonicalPaytmAuthorizationString`. -/
def canonicalPaytmAuthorizationString (input : PaytmAuthorization) : JsString :=
  JsString.join "|" input.fields

/-- `Buffer.from(canonical, "utf8")`: what is signed, and what the signature is checked
against. -/
def PaytmAuthorization.signedBytes (input : PaytmAuthorization) : List UInt8 :=
  (canonicalPaytmAuthorizationString input).encode

/-- The same refund: the two zeros are one time. -/
def PaytmAuthorization.Same (a b : PaytmAuthorization) : Prop :=
  a.businessTransactionId = b.businessTransactionId ∧ a.action = b.action ∧
    a.orderId = b.orderId ∧ a.txnId = b.txnId ∧ a.amount = b.amount ∧
    JsNumber.eq a.expiresAt b.expiresAt = true

/-! ## The adapter -/

/-- `PAYTM_AGENT_WIRE_ACTION`. -/
def PAYTM_AGENT_WIRE_ACTION : JsString := "paytm-refund"

/-- `PAYTM_ALLOWED_REFUND_PARAMETERS`. -/
def PAYTM_ALLOWED_REFUND_PARAMETERS : List JsString :=
  ["orderId", "transactionId", "amount", "refundReason", "refundReference"]

/-- `PAYTM_REFUND_REFERENCE_MAX_LENGTH`. -/
def PAYTM_REFUND_REFERENCE_MAX_LENGTH : Nat := 128

/-- `PAYTM_REFUND_REASON_MAX_LENGTH`. -/
def PAYTM_REFUND_REASON_MAX_LENGTH : Nat := 256

/-- `PAYTM_AUTHORIZATION_SIGNATURE_TTL_MS`. -/
def PAYTM_AUTHORIZATION_SIGNATURE_TTL_MS : Int := 60000

/-- `requireString`. -/
def requireString (value : Option Json) (field : JsString) : Except Failure JsString :=
  let missing : Except Failure JsString :=
    .error (.error (("PaytmConnector request is missing required field \"" : JsString) ++ field ++
      ("\"." : JsString)))
  match value with
  | some (.str text) =>
    if text.length = 0 then missing else .ok text
  | _ => missing

/-- `requireNumber`. -/
def requireNumber (value : Option Json) (field : JsString) : Except Failure JsNumber :=
  let refused : Except Failure JsNumber :=
    .error (.error (("PaytmConnector request field \"" : JsString) ++ field ++
      ("\" must be a finite number." : JsString)))
  match value with
  | some (.num n) => if n.isFinite then .ok n else refused
  | _ => refused

/-- `optionalBoundedString`. -/
def optionalBoundedString (value : Option Json) (field : JsString) (maxLength : Nat) :
    Except Failure (Option JsString) :=
  let refused : Except Failure (Option JsString) :=
    .error (.error (("PaytmConnector request field \"" : JsString) ++ field ++
      ("\" must be a non empty string of at most " : JsString) ++ JsString.ofNat maxLength ++
      (" characters." : JsString)))
  match value with
  | none => .ok none
  | some (.str text) =>
    if text.trim.length = 0 ∨ maxLength < text.length then refused else .ok (some text)
  | some _ => refused

/-- What `execute` refuses parameters with that are not forwarded. -/
def unsupportedParameters (connectorId : JsString) (disallowedKeys : List JsString) : Failure :=
  .error (("PaytmConnector \"" : JsString) ++ connectorId ++
    ("\" refuses to forward unsupported refund parameter" : JsString) ++
    (if disallowedKeys.length = 1 then ("" : JsString) else "s") ++ (" " : JsString) ++
    JsString.join ", "
      (disallowedKeys.map fun key => ("\"" : JsString) ++ key ++ ("\"" : JsString)) ++
    (". Only " : JsString) ++ JsString.join ", " PAYTM_ALLOWED_REFUND_PARAMETERS ++
    (" are forwarded this milestone." : JsString))

/-- Throws where a condition holds. -/
def refuseIf (condition : Prop) [Decidable condition] (failure : Failure) : Except Failure Unit :=
  if condition then .error failure else .ok ()

@[simp] theorem refuseIf_ok {condition : Prop} [Decidable condition] {failure : Failure}
    {u : Unit} : refuseIf condition failure = .ok u ↔ ¬ condition := by
  unfold refuseIf
  by_cases h : condition
  · simp [h]
  · simp [h]

/-- What `execute` signs for a request, at a time. -/
def GatewayPaytmAdapter.authorization (connectorId businessTransactionId : JsString)
    (parameters : Fields) (now : Int) : Except Failure PaytmAuthorization := do
  let disallowedKeys := parameters.keys.filter fun key => key ∉ PAYTM_ALLOWED_REFUND_PARAMETERS
  refuseIf (disallowedKeys ≠ []) (unsupportedParameters connectorId disallowedKeys)
  let orderId ← requireString (parameters.own? "orderId") "parameters.orderId"
  let txnId ← requireString (parameters.own? "transactionId") "parameters.transactionId"
  let amount ← requireNumber (parameters.own? "amount") "parameters.amount"
  let _refundReference ← optionalBoundedString (parameters.own? "refundReference")
    "parameters.refundReference" PAYTM_REFUND_REFERENCE_MAX_LENGTH
  let _refundReason ← optionalBoundedString (parameters.own? "refundReason")
    "parameters.refundReason" PAYTM_REFUND_REASON_MAX_LENGTH
  return {
    businessTransactionId, action := PAYTM_AGENT_WIRE_ACTION, orderId, txnId
    amount := amount.toFixed 2
    expiresAt := .ofInt (now + PAYTM_AUTHORIZATION_SIGNATURE_TTL_MS) }

/-! ## The connector service -/

/-- `asRecord`. -/
def asRecord (value : Option Json) (field : JsString) : Except Failure Fields :=
  match value with
  | some (.obj fs) => .ok fs
  | _ => .error (.error (field ++ (" must be an object" : JsString)))

/-- `String(value ?? "")`. -/
def textOrEmpty (value : Option Json) : Except Failure JsString :=
  match value with
  | none | some .null => .ok ""
  | some value => value.toText

/-- `requireParameter`. -/
def requireParameter (parameters : Fields) (field : JsString) : Except Failure JsString :=
  let missing : Except Failure JsString := .error (.error (field ++ (" is required" : JsString)))
  match parameters.own? field with
  | none | some .null => missing
  | some value => do
    let text ← value.toText
    if text.trim = "" then missing else return text

/-- `Number(value)`. -/
def toNumber (value : Option Json) : Except Failure JsNumber :=
  match value with
  | none => .ok .nan
  | some .null => .ok .zero
  | some (.bool b) => .ok (if b then .ofNat 1 else .zero)
  | some (.num n) => .ok n
  | some value => value.toText.map JsNumber.ofText

/-- What the service takes from the body of a request before it checks the signature. -/
structure ConnectorServiceRequest where
  authorization : PaytmAuthorization
  target : JsString
  refId : JsString
  reason : Option JsString
  signature : JsString
  keyId : JsString

/-- The first part of `handle`: what a body says. -/
def ConnectorService.parse (body : Fields) : Except Failure ConnectorServiceRequest := do
  let transaction ← asRecord (body.own? "transaction") "transaction"
  let intent ← asRecord (transaction.own? "intent") "transaction.intent"
  let authorization ← asRecord (body.own? "authorization") "authorization"
  let payload ← asRecord (authorization.own? "payload") "authorization.payload"
  let parameters ← asRecord (intent.own? "parameters") "transaction.intent.parameters"
  let action ← textOrEmpty (intent.own? "action")
  refuseIf (action ≠ PAYTM_AGENT_WIRE_ACTION) (.error "unsupported connector action")
  let businessTransactionId ← textOrEmpty (transaction.own? "businessTransactionId")
  refuseIf (businessTransactionId = "" ∨
      payload.own? "businessTransactionId" ≠ some (.str businessTransactionId))
    (.error "authorization is not bound to the business transaction")
  refuseIf (payload.own? "grantedCapability" ≠ none ∧
      payload.own? "grantedCapability" ≠ some (.str action))
    (.error "authorization capability does not match connector action")
  let target ← textOrEmpty (intent.own? "target")
  let orderId ← requireParameter parameters "orderId"
  let txnId ← requireParameter parameters "txnId"
  let refId ← requireParameter parameters "refId"
  let amount ← requireParameter parameters "amount"
  let reason := match parameters.own? "reason" with
    | some (.str text) => some text
    | _ => none
  let expiresAt ← toNumber (payload.own? "expiresAt")
  refuseIf (expiresAt.isFinite = false) (.error "authorization.payload.expiresAt is required")
  let signature ← textOrEmpty (authorization.own? "signature")
  refuseIf (signature = "") (.error "authorization.signature is required")
  let keyId ← textOrEmpty (authorization.own? "keyId")
  refuseIf (keyId = "") (.error "authorization.keyId is required")
  return {
    authorization := { businessTransactionId, action, orderId, txnId, amount, expiresAt }
    target, refId, reason, signature, keyId }

/-! ## What is signed and what is rebuilt -/

/-- A refund that the adapter signs. -/
def Signed (input : PaytmAuthorization) : Prop :=
  ∃ connectorId parameters now, now.natAbs ≤ maxTime ∧
    GatewayPaytmAdapter.authorization connectorId input.businessTransactionId parameters now =
      .ok input

/-- A refund that the connector service takes from a request. -/
def Rebuilt (input : PaytmAuthorization) : Prop :=
  ∃ body request, ConnectorService.parse body = .ok request ∧ request.authorization = input

theorem requireString_ok {value : Option Json} {field text : JsString}
    (h : requireString value field = .ok text) : text.units ≠ [] := by
  unfold requireString at h
  split at h
  · rename_i written
    by_cases hlength : written.length = 0
    · rw [if_pos hlength] at h
      cases h
    · rw [if_neg hlength] at h
      cases h
      exact fun hnil => hlength (congrArg List.length hnil)
  · cases h

theorem requireNumber_ok {value : Option Json} {field : JsString} {n : JsNumber}
    (h : requireNumber value field = .ok n) : n.isFinite = true := by
  unfold requireNumber at h
  split at h
  · rename_i m
    by_cases hfinite : m.isFinite = true
    · rw [if_pos hfinite] at h
      cases h
      exact hfinite
    · rw [if_neg hfinite] at h
      cases h
  · cases h

theorem requireParameter_ok {parameters : Fields} {field text : JsString}
    (h : requireParameter parameters field = .ok text) : ¬ JsString.Blank text.units := by
  unfold requireParameter at h
  dsimp only at h
  split at h
  · cases h
  · cases h
  · obtain ⟨written, -, hwritten⟩ := bind_eq_ok.mp h
    by_cases hblank : written.trim = ""
    · rw [if_pos hblank] at hwritten
      cases hwritten
    · rw [if_neg hblank] at hwritten
      cases hwritten
      exact fun h => hblank (JsString.trim_eq_empty.mpr h)

/-- **What the adapter signs.** -/
theorem signed_iff {input : PaytmAuthorization} : Signed input ↔
    input.action = PAYTM_AGENT_WIRE_ACTION ∧ input.orderId.units ≠ [] ∧ input.txnId.units ≠ [] ∧
      (∃ amount : JsNumber, amount.isFinite = true ∧ input.amount = amount.toFixed 2) ∧
      ∃ now : Int, now.natAbs ≤ maxTime ∧
        input.expiresAt = .ofInt (now + PAYTM_AUTHORIZATION_SIGNATURE_TTL_MS) := by
  constructor
  · rintro ⟨connectorId, parameters, now, hnow, h⟩
    unfold GatewayPaytmAdapter.authorization at h
    obtain ⟨-, -, h⟩ := bind_eq_ok.mp h
    obtain ⟨orderId, horderId, h⟩ := bind_eq_ok.mp h
    obtain ⟨txnId, htxnId, h⟩ := bind_eq_ok.mp h
    obtain ⟨amount, hamount, h⟩ := bind_eq_ok.mp h
    obtain ⟨-, -, h⟩ := bind_eq_ok.mp h
    obtain ⟨-, -, h⟩ := bind_eq_ok.mp h
    have hinput := Except.ok.inj h
    rw [← hinput]
    exact ⟨rfl, requireString_ok horderId, requireString_ok htxnId,
      ⟨amount, requireNumber_ok hamount, rfl⟩, now, hnow, rfl⟩
  · rintro ⟨haction, horderId, htxnId, ⟨amount, hfinite, hamount⟩, now, hnow, hexpiresAt⟩
    obtain ⟨businessTransactionId, action, orderId, txnId, written, expiresAt⟩ := input
    dsimp only at haction horderId htxnId hamount hexpiresAt
    subst haction hamount hexpiresAt
    refine ⟨"", [("orderId", .str orderId), ("transactionId", .str txnId), ("amount", .num amount)],
      now, hnow, ?_⟩
    have hstring : ∀ text : JsString, text.units ≠ [] → ∀ field,
        requireString (some (.str text)) field = .ok text := by
      intro text htext field
      exact if_neg fun hlength => htext (List.eq_nil_of_length_eq_zero hlength)
    have hnumber : ∀ field, requireNumber (some (.num amount)) field = .ok amount :=
      fun field => if_pos hfinite
    show (do
      let orderId ← requireString (some (.str orderId)) "parameters.orderId"
      let txnId ← requireString (some (.str txnId)) "parameters.transactionId"
      let amount ← requireNumber (some (.num amount)) "parameters.amount"
      (.ok ⟨_, PAYTM_AGENT_WIRE_ACTION, orderId, txnId, amount.toFixed 2, _⟩ :
        Except Failure PaytmAuthorization)) = _
    rw [hstring orderId horderId, ok_bind, hstring txnId htxnId, ok_bind, hnumber, ok_bind]

/-- What a refund is that the connector service takes from a request. -/
theorem rebuilt_texts {input : PaytmAuthorization} (hrebuilt : Rebuilt input) :
    input.action = PAYTM_AGENT_WIRE_ACTION ∧ input.businessTransactionId.units ≠ [] ∧
      ¬ JsString.Blank input.orderId.units ∧ ¬ JsString.Blank input.txnId.units ∧
      ¬ JsString.Blank input.amount.units ∧ input.expiresAt.isFinite = true := by
  obtain ⟨body, request, h, rfl⟩ := hrebuilt
  unfold ConnectorService.parse at h
  obtain ⟨transaction, -, h⟩ := bind_eq_ok.mp h
  obtain ⟨intent, -, h⟩ := bind_eq_ok.mp h
  obtain ⟨authorization, -, h⟩ := bind_eq_ok.mp h
  obtain ⟨payload, -, h⟩ := bind_eq_ok.mp h
  obtain ⟨parameters, -, h⟩ := bind_eq_ok.mp h
  obtain ⟨action, -, h⟩ := bind_eq_ok.mp h
  obtain ⟨_, haction, h⟩ := bind_eq_ok.mp h
  obtain ⟨businessTransactionId, -, h⟩ := bind_eq_ok.mp h
  obtain ⟨_, hbound, h⟩ := bind_eq_ok.mp h
  obtain ⟨-, -, h⟩ := bind_eq_ok.mp h
  obtain ⟨target, -, h⟩ := bind_eq_ok.mp h
  obtain ⟨orderId, horderId, h⟩ := bind_eq_ok.mp h
  obtain ⟨txnId, htxnId, h⟩ := bind_eq_ok.mp h
  obtain ⟨refId, -, h⟩ := bind_eq_ok.mp h
  obtain ⟨amount, hamount, h⟩ := bind_eq_ok.mp h
  obtain ⟨expiresAt, -, h⟩ := bind_eq_ok.mp h
  obtain ⟨_, hfinite, h⟩ := bind_eq_ok.mp h
  obtain ⟨signature, -, h⟩ := bind_eq_ok.mp h
  obtain ⟨-, -, h⟩ := bind_eq_ok.mp h
  obtain ⟨keyId, -, h⟩ := bind_eq_ok.mp h
  obtain ⟨-, -, h⟩ := bind_eq_ok.mp h
  have hrequest := Except.ok.inj h
  rw [← hrequest]
  rw [refuseIf_ok, not_not] at haction
  rw [refuseIf_ok, not_or] at hbound
  rw [refuseIf_ok, Bool.not_eq_false] at hfinite
  refine ⟨haction, fun hnil => hbound.1 ?_, requireParameter_ok horderId,
    requireParameter_ok htxnId, requireParameter_ok hamount, hfinite⟩
  exact congrArg JsString.mk hnil

/-- A refund of such texts is taken from a request. -/
theorem rebuilt_of_texts {input : PaytmAuthorization}
    (haction : input.action = PAYTM_AGENT_WIRE_ACTION)
    (hid : input.businessTransactionId.units ≠ [])
    (horderId : ¬ JsString.Blank input.orderId.units)
    (htxnId : ¬ JsString.Blank input.txnId.units)
    (hamount : ¬ JsString.Blank input.amount.units)
    (hfinite : input.expiresAt.isFinite = true) : Rebuilt input := by
  obtain ⟨businessTransactionId, action, orderId, txnId, amount, expiresAt⟩ := input
  dsimp only at haction hid horderId htxnId hamount hfinite
  subst haction
  have hparameter : ∀ text : JsString, ¬ JsString.Blank text.units →
      ∀ (parameters : Fields) (field : JsString), parameters.own? field = some (.str text) →
        requireParameter parameters field = .ok text := by
    intro text htext parameters field hown
    unfold requireParameter
    rw [hown]
    exact if_neg fun htrim => htext (JsString.trim_eq_empty.mp htrim)
  refine ⟨[("transaction", .obj [("businessTransactionId", .str businessTransactionId),
      ("intent", .obj [("action", .str PAYTM_AGENT_WIRE_ACTION),
        ("parameters", .obj [("orderId", .str orderId), ("txnId", .str txnId),
          ("refId", .str "r"), ("amount", .str amount)])])]),
    ("authorization", .obj [
      ("payload", .obj [("businessTransactionId", .str businessTransactionId),
        ("expiresAt", .num expiresAt)]), ("signature", .str "s"), ("keyId", .str "k")])],
    ⟨⟨businessTransactionId, PAYTM_AGENT_WIRE_ACTION, orderId, txnId, amount, expiresAt⟩, "", "r",
      none, "s", "k"⟩, ?_, rfl⟩
  have hempty : ¬ businessTransactionId = "" := fun h => hid (by rw [h]; rfl)
  unfold ConnectorService.parse
  -- the five records
  refine bind_eq_ok.mpr ⟨_, rfl, bind_eq_ok.mpr ⟨_, rfl, bind_eq_ok.mpr ⟨_, rfl, ?_⟩⟩⟩
  refine bind_eq_ok.mpr ⟨_, rfl, bind_eq_ok.mpr ⟨_, rfl, ?_⟩⟩
  -- the action, and what the authorization is bound to
  refine bind_eq_ok.mpr ⟨_, rfl, bind_eq_ok.mpr ⟨(), refuseIf_ok.mpr (by simp), ?_⟩⟩
  refine bind_eq_ok.mpr ⟨businessTransactionId, rfl, bind_eq_ok.mpr ⟨(), refuseIf_ok.mpr ?_, ?_⟩⟩
  · exact not_or.mpr ⟨hempty, not_not.mpr rfl⟩
  refine bind_eq_ok.mpr ⟨(), refuseIf_ok.mpr fun h => h.1 rfl, bind_eq_ok.mpr ⟨"", rfl, ?_⟩⟩
  -- the parameters
  refine bind_eq_ok.mpr ⟨orderId, hparameter _ horderId _ _ rfl, ?_⟩
  refine bind_eq_ok.mpr ⟨txnId, hparameter _ htxnId _ _ rfl, ?_⟩
  refine bind_eq_ok.mpr ⟨"r", hparameter _ (by decide) _ _ rfl, ?_⟩
  refine bind_eq_ok.mpr ⟨amount, hparameter _ hamount _ _ rfl, ?_⟩
  -- the time and the signature
  refine bind_eq_ok.mpr ⟨expiresAt, rfl, ?_⟩
  refine bind_eq_ok.mpr ⟨(), refuseIf_ok.mpr (by simp [hfinite]), ?_⟩
  refine bind_eq_ok.mpr ⟨"s", rfl, bind_eq_ok.mpr ⟨(), refuseIf_ok.mpr (by decide), ?_⟩⟩
  exact bind_eq_ok.mpr ⟨"k", rfl, bind_eq_ok.mpr ⟨(), refuseIf_ok.mpr (by decide), rfl⟩⟩

/-- **What the connector service takes from requests.** -/
theorem rebuilt_iff {input : PaytmAuthorization} : Rebuilt input ↔
    input.action = PAYTM_AGENT_WIRE_ACTION ∧ input.businessTransactionId.units ≠ [] ∧
      ¬ JsString.Blank input.orderId.units ∧ ¬ JsString.Blank input.txnId.units ∧
      ¬ JsString.Blank input.amount.units ∧ input.expiresAt.isFinite = true :=
  ⟨rebuilt_texts, fun ⟨haction, hid, horderId, htxnId, hamount, hfinite⟩ =>
    rebuilt_of_texts haction hid horderId htxnId hamount hfinite⟩

/-! ## Reading the text another way -/

/-- `s.split("|")`. -/
def bars (s : JsString) : List (List UInt16) := JsString.splitUnits 0x7C s.units

theorem bars_injective {s t : JsString} (h : bars s = bars t) : s = t :=
  congrArg JsString.mk (JsString.splitUnits_injective h)

theorem bars_ne_nil (s : JsString) : bars s ≠ [] := JsString.splitUnits_ne_nil _ _

/-- A number is one piece. -/
theorem bars_number {s : JsString} (h : ∀ u ∈ s.units, isNumberUnit u = true) :
    bars s = [s.units] := by
  refine JsString.splitUnits_of_not_mem fun hbar => ?_
  exact absurd (h _ hbar) (by decide)

/-- The pieces of a signed text. -/
def PaytmAuthorization.pieces (input : PaytmAuthorization) : List (List UInt16) :=
  bars input.businessTransactionId ++ PAYTM_AGENT_WIRE_ACTION.units ::
    (bars input.orderId ++ (bars input.txnId ++ bars input.amount))

theorem bars_canonical {input : PaytmAuthorization}
    (haction : input.action = PAYTM_AGENT_WIRE_ACTION) (hfinite : input.expiresAt.isFinite = true) :
    bars (canonicalPaytmAuthorizationString input) =
      input.pieces ++ [input.expiresAt.toText.units] := by
  have hmark : bars PAYTM_AGENT_WIRE_ACTION = [PAYTM_AGENT_WIRE_ACTION.units] := by decide
  have htime := bars_number (toText_units hfinite).2
  have hjoin : bars (canonicalPaytmAuthorizationString input) = input.fields.flatMap bars :=
    JsString.splitUnits_join (List.cons_ne_nil _ _)
  rw [hjoin, PaytmAuthorization.pieces, PaytmAuthorization.fields, haction]
  simp [List.flatMap_cons, hmark, htime]

/-- No piece holds a bar. -/
theorem not_mem_pieces {input : PaytmAuthorization}
    (haction : input.action = PAYTM_AGENT_WIRE_ACTION)
    (hfinite : input.expiresAt.isFinite = true) {piece : List UInt16}
    (h : piece ∈ input.pieces) : 0x7C ∉ piece := by
  have hmem : piece ∈ bars (canonicalPaytmAuthorizationString input) := by
    rw [bars_canonical haction hfinite]
    exact List.mem_append_left _ h
  exact JsString.not_mem_of_mem_splitUnits hmem

/-- **Two refunds have one text when they have the same pieces and the same time.** -/
theorem canonical_eq_iff {a b : PaytmAuthorization} (ha : a.action = PAYTM_AGENT_WIRE_ACTION)
    (hb : b.action = PAYTM_AGENT_WIRE_ACTION) (hafinite : a.expiresAt.isFinite = true)
    (hbfinite : b.expiresAt.isFinite = true) :
    canonicalPaytmAuthorizationString a = canonicalPaytmAuthorizationString b ↔
      a.pieces = b.pieces ∧ JsNumber.eq a.expiresAt b.expiresAt = true := by
  rw [← JsNumber.toText_eq_iff hafinite hbfinite]
  constructor
  · intro h
    have hbars := congrArg bars h
    rw [bars_canonical ha hafinite, bars_canonical hb hbfinite] at hbars
    obtain ⟨hpieces, htime⟩ := List.append_inj' hbars rfl
    exact ⟨hpieces, congrArg JsString.mk (List.singleton_inj.mp htime)⟩
  · rintro ⟨hpieces, htime⟩
    refine bars_injective ?_
    rw [bars_canonical ha hafinite, bars_canonical hb hbfinite, hpieces, htime]

section Fields
variable {lone : List UInt16 → Prop} (hbar : ∀ us, 0x7C ∈ us → ¬ lone us)

include hbar in
/-- What may be a field, of the texts that may be one. -/
theorem field_bars {s : JsString} : Cuts.Field lone (bars s) ↔ ¬ lone s.units := by
  by_cases hmem : 0x7C ∈ s.units
  · obtain ⟨before, after, hunits⟩ := List.append_of_mem hmem
    have hsplit : bars s = JsString.splitUnits 0x7C before ++ JsString.splitUnits 0x7C after := by
      unfold bars
      rw [hunits, JsString.splitUnits_append]
    rw [hsplit]
    exact iff_of_true (Cuts.field_append (JsString.splitUnits_ne_nil _ _)
      (JsString.splitUnits_ne_nil _ _)) (hbar _ hmem)
  · have hone : bars s = [s.units] := JsString.splitUnits_of_not_mem hmem
    rw [hone, Cuts.field_singleton]

include hbar in
theorem field_glue {pieces : List (List UInt16)} (hfree : ∀ piece ∈ pieces, 0x7C ∉ piece)
    (h : Cuts.Field lone pieces) : ¬ lone (JsString.glue 0x7C pieces) := by
  have hpieces : bars ⟨JsString.glue 0x7C pieces⟩ = pieces := JsString.splitUnits_glue h.1 hfree
  rw [← hpieces] at h
  exact (field_bars hbar).mp h

end Fields

/-- What is signed has one reading among the texts that are signed: the order holds no bar
behind its first code unit, the transaction none before its last, and the marked action cannot
be found behind a beginning of the identifier. -/
def CutOnceSigned (input : PaytmAuthorization) : Prop :=
  (∀ a b, bars input.businessTransactionId = a ++ PAYTM_AGENT_WIRE_ACTION.units :: b → ¬ a ≠ []) ∧
    Cuts.Front (fun piece => piece = []) (bars input.orderId) ∧
    Cuts.Back (fun piece => piece = []) (bars input.txnId)

/-- It has one reading among the texts that are rebuilt: any bar of the order or the
transaction is alone there and next to white space only, on the left for the order and on
either side for the transaction, and the marked action cannot be found behind a beginning of
the identifier that is not empty. -/
def CutOnceRebuilt (input : PaytmAuthorization) : Prop :=
  (∀ a b, bars input.businessTransactionId = a ++ PAYTM_AGENT_WIRE_ACTION.units :: b →
      ¬ (a ≠ [] ∧ a ≠ [[]])) ∧
    Cuts.Front JsString.Blank (bars input.orderId) ∧
    Cuts.Between JsString.Blank (bars input.txnId)

theorem bar_not_empty (us : List UInt16) (h : (0x7C : UInt16) ∈ us) : ¬ us = [] :=
  List.ne_nil_of_mem h

theorem bar_not_blank (us : List UInt16) (h : (0x7C : UInt16) ∈ us) : ¬ JsString.Blank us :=
  fun hblank => absurd (hblank _ h) (by decide)

theorem signed_finite {input : PaytmAuthorization} (h : Signed input) :
    input.expiresAt.isFinite = true := by
  obtain ⟨-, -, -, -, now, hnow, hexpiresAt⟩ := signed_iff.mp h
  have hsmall : (now + PAYTM_AUTHORIZATION_SIGNATURE_TTL_MS).natAbs < 2 ^ 53 := by
    unfold maxTime at hnow
    unfold PAYTM_AUTHORIZATION_SIGNATURE_TTL_MS
    omega
  obtain ⟨d, hd, -⟩ := ofInt_finite hsmall
  rw [hexpiresAt, hd]
  rfl

theorem signed_amount {input : PaytmAuthorization} (h : Signed input) :
    bars input.amount = [input.amount.units] ∧ input.amount.units ≠ [] := by
  obtain ⟨-, -, -, ⟨amount, hfinite, hamount⟩, -⟩ := signed_iff.mp h
  obtain ⟨hne, hunits⟩ := toFixed_units hfinite 2
  rw [hamount]
  exact ⟨bars_number hunits, hne⟩

/-- The pieces of `bars` determine what they are pieces of. -/
theorem glue_eq {pieces : List (List UInt16)} {s : JsString}
    (hne : pieces ≠ []) (hfree : ∀ piece ∈ pieces, 0x7C ∉ piece)
    (h : (⟨JsString.glue 0x7C pieces⟩ : JsString) = s) : pieces = bars s := by
  rw [← h]
  exact (JsString.splitUnits_glue hne hfree).symm

/-- When no other refund that is signed has the text of this one. -/
theorem signs_one_text_iff {input : PaytmAuthorization} (hsigned : Signed input) :
    (∀ other, Signed other →
      canonicalPaytmAuthorizationString other = canonicalPaytmAuthorizationString input →
      other.Same input) ↔ CutOnceSigned input := by
  have hfinite := signed_finite hsigned
  obtain ⟨hamount, -⟩ := signed_amount hsigned
  obtain ⟨haction, horderId, htxnId, hwritten, htime⟩ := signed_iff.mp hsigned
  have hmark : ¬ PAYTM_AGENT_WIRE_ACTION.units = [] := by decide
  unfold CutOnceSigned
  rw [← @Cuts.onlyCut_iff _ (fun piece => piece = []) _ (fun pieces => pieces ≠ []) _ _ _ hmark
    ((field_bars bar_not_empty).mpr horderId) ((field_bars bar_not_empty).mpr htxnId)
    (bars_ne_nil _)]
  constructor
  · intro honly B O T hB hO hT h
    have hpieces : B ++ PAYTM_AGENT_WIRE_ACTION.units :: (O ++ (T ++ bars input.amount)) =
        input.pieces := by
      have hlonger := congrArg (fun xs => xs ++ bars input.amount) h
      simpa [PaytmAuthorization.pieces] using hlonger
    have hfree : ∀ piece ∈ B ++ PAYTM_AGENT_WIRE_ACTION.units ::
        (O ++ (T ++ bars input.amount)), 0x7C ∉ piece := by
      rw [hpieces]
      exact fun piece hmem => not_mem_pieces haction hfinite hmem
    have hBfree : ∀ piece ∈ B, 0x7C ∉ piece := fun piece hmem => hfree piece (by simp [hmem])
    have hOfree : ∀ piece ∈ O, 0x7C ∉ piece := fun piece hmem => hfree piece (by simp [hmem])
    have hTfree : ∀ piece ∈ T, 0x7C ∉ piece := fun piece hmem => hfree piece (by simp [hmem])
    let other : PaytmAuthorization := { input with
      businessTransactionId := ⟨JsString.glue 0x7C B⟩, orderId := ⟨JsString.glue 0x7C O⟩,
      txnId := ⟨JsString.glue 0x7C T⟩ }
    have hother : Signed other := signed_iff.mpr
      ⟨haction, field_glue bar_not_empty hOfree hO, field_glue bar_not_empty hTfree hT, hwritten,
        htime⟩
    have htext : other.pieces = input.pieces := by
      rw [← hpieces]
      unfold PaytmAuthorization.pieces other bars
      dsimp only
      rw [JsString.splitUnits_glue hB hBfree, JsString.splitUnits_glue hO.1 hOfree,
        JsString.splitUnits_glue hT.1 hTfree]
    obtain ⟨hid, -, horder, htxn, -⟩ := honly other hother
      ((@canonical_eq_iff other input haction haction hfinite hfinite).mpr
        ⟨htext, (JsNumber.toText_eq_iff hfinite hfinite).mp rfl⟩)
    exact ⟨glue_eq hB hBfree hid, glue_eq hO.1 hOfree horder, glue_eq hT.1 hTfree htxn⟩
  · intro honly other hother h
    obtain ⟨hotherAmount, -⟩ := signed_amount hother
    obtain ⟨hotherAction, hotherOrder, hotherTxn, -⟩ := signed_iff.mp hother
    obtain ⟨hpieces, hexpiresAt⟩ :=
      (canonical_eq_iff hotherAction haction (signed_finite hother) hfinite).mp h
    have hlast : (bars other.businessTransactionId ++ PAYTM_AGENT_WIRE_ACTION.units ::
        (bars other.orderId ++ bars other.txnId)) ++ [other.amount.units] =
        (bars input.businessTransactionId ++ PAYTM_AGENT_WIRE_ACTION.units ::
          (bars input.orderId ++ bars input.txnId)) ++ [input.amount.units] := by
      rw [← hotherAmount, ← hamount]
      simpa [PaytmAuthorization.pieces] using hpieces
    obtain ⟨hfields, hone⟩ := List.append_inj' hlast rfl
    obtain ⟨hid, horder, htxn⟩ := honly _ _ _ (bars_ne_nil _)
      ((field_bars bar_not_empty).mpr hotherOrder) ((field_bars bar_not_empty).mpr hotherTxn)
      hfields
    exact ⟨bars_injective hid, hotherAction.trans haction.symm, bars_injective horder,
      bars_injective htxn, congrArg JsString.mk (List.singleton_inj.mp hone), hexpiresAt⟩

/-- When the connector service takes no other refund with the text of this one. -/
theorem rebuilds_one_text_iff {input : PaytmAuthorization} (hsigned : Signed input)
    (hrebuilt : Rebuilt input) :
    (∀ other, Rebuilt other →
      canonicalPaytmAuthorizationString other = canonicalPaytmAuthorizationString input →
      other.Same input) ↔ CutOnceRebuilt input := by
  obtain ⟨hamount, -⟩ := signed_amount hsigned
  obtain ⟨haction, hid, horderId, htxnId, hwritten, hfinite⟩ := rebuilt_iff.mp hrebuilt
  have hmark : ¬ JsString.Blank PAYTM_AGENT_WIRE_ACTION.units := by decide
  have hopens : ∀ s : JsString, s.units ≠ [] → bars s ≠ [] ∧ bars s ≠ [[]] := by
    refine fun s hs => ⟨bars_ne_nil s, fun h => hs ?_⟩
    have hglue := congrArg (JsString.glue 0x7C) h
    unfold bars at hglue
    rw [JsString.glue_splitUnits] at hglue
    exact hglue
  unfold CutOnceRebuilt
  rw [← @Cuts.onlyCutBefore_iff _ JsString.Blank _ (fun pieces => pieces ≠ [] ∧ pieces ≠ [[]]) _ _ _
    _ hmark ((field_bars bar_not_blank).mpr horderId) ((field_bars bar_not_blank).mpr htxnId)
    (hopens _ hid) hwritten, ← hamount]
  constructor
  · intro honly B O T A hB hO hT hA h
    have hpieces : B ++ PAYTM_AGENT_WIRE_ACTION.units :: (O ++ (T ++ A)) = input.pieces := h
    have hfree : ∀ piece ∈ B ++ PAYTM_AGENT_WIRE_ACTION.units :: (O ++ (T ++ A)),
        0x7C ∉ piece := by
      rw [hpieces]
      exact fun piece hmem => not_mem_pieces haction hfinite hmem
    have hBfree : ∀ piece ∈ B, 0x7C ∉ piece := fun piece hmem => hfree piece (by simp [hmem])
    have hOfree : ∀ piece ∈ O, 0x7C ∉ piece := fun piece hmem => hfree piece (by simp [hmem])
    have hTfree : ∀ piece ∈ T, 0x7C ∉ piece := fun piece hmem => hfree piece (by simp [hmem])
    have hAfree : ∀ piece ∈ A, 0x7C ∉ piece := fun piece hmem => hfree piece (by simp [hmem])
    let other : PaytmAuthorization := { input with
      businessTransactionId := ⟨JsString.glue 0x7C B⟩, orderId := ⟨JsString.glue 0x7C O⟩,
      txnId := ⟨JsString.glue 0x7C T⟩, amount := ⟨JsString.glue 0x7C A⟩ }
    have hBunits : JsString.glue 0x7C B ≠ [] := by
      intro hnil
      have hsplit := JsString.splitUnits_glue hB.1 hBfree
      rw [hnil] at hsplit
      exact hB.2 hsplit.symm
    have hother : Rebuilt other := rebuilt_iff.mpr
      ⟨haction, hBunits, field_glue bar_not_blank hOfree hO, field_glue bar_not_blank hTfree hT,
        field_glue bar_not_blank hAfree hA, hfinite⟩
    have htext : other.pieces = input.pieces := by
      rw [← hpieces]
      unfold PaytmAuthorization.pieces other bars
      dsimp only
      rw [JsString.splitUnits_glue hB.1 hBfree, JsString.splitUnits_glue hO.1 hOfree,
        JsString.splitUnits_glue hT.1 hTfree, JsString.splitUnits_glue hA.1 hAfree]
    obtain ⟨hidEq, -, horder, htxn, hamountEq, -⟩ := honly other hother
      ((@canonical_eq_iff other input haction haction hfinite hfinite).mpr
        ⟨htext, (JsNumber.toText_eq_iff hfinite hfinite).mp rfl⟩)
    exact ⟨glue_eq hB.1 hBfree hidEq, glue_eq hO.1 hOfree horder, glue_eq hT.1 hTfree htxn,
      glue_eq hA.1 hAfree hamountEq⟩
  · intro honly other hother h
    obtain ⟨hotherAction, hotherId, hotherOrder, hotherTxn, hotherAmount, hotherFinite⟩ :=
      rebuilt_iff.mp hother
    obtain ⟨hpieces, hexpiresAt⟩ :=
      (canonical_eq_iff hotherAction haction hotherFinite hfinite).mp h
    obtain ⟨hidEq, horder, htxn, hamountEq⟩ := honly _ _ _ _ (hopens _ hotherId)
      ((field_bars bar_not_blank).mpr hotherOrder) ((field_bars bar_not_blank).mpr hotherTxn)
      ((field_bars bar_not_blank).mpr hotherAmount) hpieces
    exact ⟨bars_injective hidEq, hotherAction.trans haction.symm, bars_injective horder,
      bars_injective htxn, bars_injective hamountEq, hexpiresAt⟩

/-! ## The bytes that are signed -/

namespace PaytmAuthorization

/-- The refund that is read back of the bytes of its fields. -/
def toWellFormed (input : PaytmAuthorization) : PaytmAuthorization where
  businessTransactionId := input.businessTransactionId.toWellFormed
  action := input.action.toWellFormed
  orderId := input.orderId.toWellFormed
  txnId := input.txnId.toWellFormed
  amount := input.amount.toWellFormed
  expiresAt := input.expiresAt

/-- No other texts of the identifier, the order and the transaction have their bytes. -/
def EncodedOnce (input : PaytmAuthorization) : Prop :=
  input.businessTransactionId.EncodedOnce ∧ input.orderId.EncodedOnce ∧ input.txnId.EncodedOnce

end PaytmAuthorization

/-- No other refund that is signed has the bytes of this one. -/
def OneSigned (input : PaytmAuthorization) : Prop := input.EncodedOnce ∧ CutOnceSigned input

/-- No other refund that the service takes has the bytes of this one. -/
def OneRebuilt (input : PaytmAuthorization) : Prop := input.EncodedOnce ∧ CutOnceRebuilt input

theorem toWellFormed_number {s : JsString} (h : ∀ u ∈ s.units, isNumberUnit u = true) :
    s.toWellFormed = s := by
  refine JsString.toWellFormed_of_paired (JsString.paired_of_below fun u hu => ?_)
  have hunit := h u hu
  simp only [isNumberUnit, Bool.or_eq_true, Bool.and_eq_true, decide_eq_true_eq] at hunit
  rcases hunit with ((((⟨-, hdigit⟩ | rfl) | rfl) | rfl) | rfl) | rfl
  · exact UInt16.lt_of_le_of_lt hdigit (by decide)
  all_goals decide

theorem canonical_toWellFormed {input : PaytmAuthorization}
    (hfinite : input.expiresAt.isFinite = true) :
    (canonicalPaytmAuthorizationString input).toWellFormed =
      canonicalPaytmAuthorizationString input.toWellFormed := by
  have hjoin := JsString.toWellFormed_join (c := 0x7C) (by decide) (by decide) input.fields
  have hfields : input.fields.map JsString.toWellFormed = input.toWellFormed.fields := by
    unfold PaytmAuthorization.fields PaytmAuthorization.toWellFormed
    simp only [List.map_cons, List.map_nil, toWellFormed_number (toText_units hfinite).2]
  rw [hfields] at hjoin
  exact hjoin

theorem signedBytes_eq_iff {a b : PaytmAuthorization} (ha : a.expiresAt.isFinite = true)
    (hb : b.expiresAt.isFinite = true) : a.signedBytes = b.signedBytes ↔
      canonicalPaytmAuthorizationString a.toWellFormed =
        canonicalPaytmAuthorizationString b.toWellFormed := by
  unfold PaytmAuthorization.signedBytes
  rw [JsString.encode_eq_iff, canonical_toWellFormed ha, canonical_toWellFormed hb]

theorem encodedOnce_number {s : JsString} (h : ∀ u ∈ s.units, isNumberUnit u = true) :
    s.EncodedOnce :=
  ⟨JsString.toWellFormed_eq_self_iff.mp (toWellFormed_number h),
    fun hmem => absurd (h _ hmem) (by decide)⟩

/-- What is read back as a text that is encoded once is that text. -/
theorem eq_of_toWellFormed {s t : JsString} (hs : s.EncodedOnce)
    (h : t.toWellFormed = s.toWellFormed) : t = s :=
  JsString.encodedOnce_iff.mp hs t (JsString.encode_eq_iff.mpr h)

theorem signed_of_toWellFormed {a b : PaytmAuthorization} (h : Signed a)
    (hsame : b.toWellFormed = a.toWellFormed) : Signed b := by
  obtain ⟨haction, horderId, htxnId, ⟨amount, hfinite, hamount⟩, htime⟩ := signed_iff.mp h
  obtain ⟨id, action, orderId, txnId, written, expiresAt⟩ := b
  obtain ⟨-, hsameAction, hsameOrder, hsameTxn, hsameAmount, rfl⟩ :=
    PaytmAuthorization.mk.inj hsame
  have hne : ∀ {s t : JsString}, s.units ≠ [] → t.toWellFormed = s.toWellFormed → t.units ≠ [] := by
    intro s t hs heq ht
    rw [← JsString.toWellFormed_units_eq_nil, heq, JsString.toWellFormed_units_eq_nil] at ht
    exact hs ht
  refine signed_iff.mpr ⟨?_, hne horderId hsameOrder, hne htxnId hsameTxn,
    ⟨amount, hfinite, ?_⟩, htime⟩
  · rw [haction] at hsameAction
    exact eq_of_toWellFormed (by decide) hsameAction
  · rw [hamount] at hsameAmount
    exact eq_of_toWellFormed (encodedOnce_number (toFixed_units hfinite 2).2) hsameAmount

theorem rebuilt_of_toWellFormed {a b : PaytmAuthorization} (h : Rebuilt a)
    (hsame : b.toWellFormed = a.toWellFormed) : Rebuilt b := by
  obtain ⟨haction, hid, horderId, htxnId, hamount, hfinite⟩ := rebuilt_iff.mp h
  obtain ⟨id, action, orderId, txnId, written, expiresAt⟩ := b
  obtain ⟨hsameId, hsameAction, hsameOrder, hsameTxn, hsameAmount, rfl⟩ :=
    PaytmAuthorization.mk.inj hsame
  have hblank : ∀ {s t : JsString}, ¬ JsString.Blank s.units → t.toWellFormed = s.toWellFormed →
      ¬ JsString.Blank t.units := by
    intro s t hs heq ht
    rw [← JsString.blank_toWellFormed_iff, heq, JsString.blank_toWellFormed_iff] at ht
    exact hs ht
  refine rebuilt_iff.mpr ⟨?_, fun hnil => hid ?_, hblank horderId hsameOrder,
    hblank htxnId hsameTxn, hblank hamount hsameAmount, hfinite⟩
  · rw [haction] at hsameAction
    exact eq_of_toWellFormed (by decide) hsameAction
  · rw [← JsString.toWellFormed_units_eq_nil, ← hsameId]
    exact JsString.toWellFormed_units_eq_nil.mpr hnil

/-- **Bytes are read as one refund only when its texts have their bytes to themselves and the
joined text is read as one refund only**, for refunds of a kind that is known by what is read
back. -/
theorem bytes_one_iff {Kind CutOnce : PaytmAuthorization → Prop} {input : PaytmAuthorization}
    (hfinite : ∀ other, Kind other → other.expiresAt.isFinite = true)
    (haction : ∀ other, Kind other → other.action = PAYTM_AGENT_WIRE_ACTION)
    (hkept : ∀ a b, Kind a → b.toWellFormed = a.toWellFormed → Kind b)
    (hone : (∀ other, Kind other →
      canonicalPaytmAuthorizationString other = canonicalPaytmAuthorizationString input →
      other.Same input) ↔ CutOnce input)
    (hkind : Kind input) (hamount : input.amount.EncodedOnce) :
    (∀ other, Kind other → other.signedBytes = input.signedBytes → other.Same input) ↔
      input.EncodedOnce ∧ CutOnce input := by
  constructor
  · intro h
    -- a refund that is read back as this one has its bytes
    have hsame : ∀ other : PaytmAuthorization, other.toWellFormed = input.toWellFormed →
        other.Same input := fun other hback =>
      have hother := hkept input other hkind hback
      h other hother ((signedBytes_eq_iff (hfinite other hother) (hfinite input hkind)).mpr
        (congrArg canonicalPaytmAuthorizationString hback))
    refine ⟨⟨JsString.encodedOnce_iff.mpr fun t ht => ?_, JsString.encodedOnce_iff.mpr fun t ht => ?_,
      JsString.encodedOnce_iff.mpr fun t ht => ?_⟩, hone.mp fun other hother heq =>
        h other hother (congrArg JsString.encode heq)⟩
    · refine (hsame { input with businessTransactionId := t } ?_).1
      unfold PaytmAuthorization.toWellFormed
      rw [JsString.encode_eq_iff.mp ht]
    · refine (hsame { input with orderId := t } ?_).2.2.1
      unfold PaytmAuthorization.toWellFormed
      rw [JsString.encode_eq_iff.mp ht]
    · refine (hsame { input with txnId := t } ?_).2.2.2.1
      unfold PaytmAuthorization.toWellFormed
      rw [JsString.encode_eq_iff.mp ht]
  · rintro ⟨⟨hid, horder, htxn⟩, hcut⟩ other hother hbytes
    have hinput : input.toWellFormed = input := by
      have hmark := haction input hkind
      unfold PaytmAuthorization.toWellFormed
      rw [JsString.toWellFormed_of_paired hid.1, JsString.toWellFormed_of_paired horder.1,
        JsString.toWellFormed_of_paired htxn.1, JsString.toWellFormed_of_paired hamount.1, hmark,
        show PAYTM_AGENT_WIRE_ACTION.toWellFormed = PAYTM_AGENT_WIRE_ACTION by decide, ← hmark]
    rw [signedBytes_eq_iff (hfinite other hother) (hfinite input hkind), hinput] at hbytes
    have hback : Kind other.toWellFormed := by
      refine hkept other _ hother ?_
      unfold PaytmAuthorization.toWellFormed
      simp only [JsString.toWellFormed_toWellFormed]
    obtain ⟨hsameId, -, hsameOrder, hsameTxn, hsameAmount, htime⟩ :=
      hone.mpr hcut other.toWellFormed hback hbytes
    -- each text of the other refund is read back as one that has its bytes to itself
    have htext : ∀ {s t : JsString}, s.EncodedOnce → t.toWellFormed = s → t = s :=
      fun hs heq => eq_of_toWellFormed hs (heq.trans (JsString.toWellFormed_of_paired hs.1).symm)
    exact ⟨htext hid hsameId, (haction other hother).trans (haction input hkind).symm,
      htext horder hsameOrder, htext htxn hsameTxn, htext hamount hsameAmount, htime⟩

/-- **When a signature is for one refund only**: among the refunds that are signed, and, for
one that the connector service takes, among those that it takes. -/
theorem authorizes_one_iff {input : PaytmAuthorization} (hsigned : Signed input) :
    ((∀ other, Signed other → other.signedBytes = input.signedBytes → other.Same input) ↔
        OneSigned input) ∧
      (Rebuilt input →
        ((∀ other, Rebuilt other → other.signedBytes = input.signedBytes → other.Same input) ↔
          OneRebuilt input)) := by
  have hamount : input.amount.EncodedOnce := by
    obtain ⟨-, -, -, ⟨amount, hfinite, hwritten⟩, -⟩ := signed_iff.mp hsigned
    rw [hwritten]
    exact encodedOnce_number (toFixed_units hfinite 2).2
  refine ⟨?_, fun hrebuilt => ?_⟩
  · exact bytes_one_iff (fun _ h => signed_finite h) (fun _ h => (signed_iff.mp h).1)
      (fun _ _ h => signed_of_toWellFormed h) (signs_one_text_iff hsigned) hsigned hamount
  · exact bytes_one_iff (fun _ h => (rebuilt_iff.mp h).2.2.2.2.2) (fun _ h => (rebuilt_iff.mp h).1)
      (fun _ _ h => rebuilt_of_toWellFormed h) (rebuilds_one_text_iff hsigned hrebuilt) hrebuilt
      hamount

/-! ### Two refunds -/

/-- A refund of one rupee at the beginning of the epoch. -/
def refund (orderId txnId : JsString) : PaytmAuthorization where
  businessTransactionId := "t1"
  action := PAYTM_AGENT_WIRE_ACTION
  orderId := orderId
  txnId := txnId
  amount := (JsNumber.ofNat 1).toFixed 2
  expiresAt := .ofInt (0 + PAYTM_AUTHORIZATION_SIGNATURE_TTL_MS)

theorem refund_signed {orderId txnId : JsString} (horderId : orderId.units ≠ [])
    (htxnId : txnId.units ≠ []) : Signed (refund orderId txnId) :=
  signed_iff.mpr ⟨rfl, horderId, htxnId, ⟨.ofNat 1, by decide, rfl⟩, 0, by decide, rfl⟩

theorem refund_rebuilt {orderId txnId : JsString} (horderId : ¬ JsString.Blank orderId.units)
    (htxnId : ¬ JsString.Blank txnId.units) : Rebuilt (refund orderId txnId) :=
  rebuilt_iff.mpr ⟨rfl, (by decide : ("t1" : JsString).units ≠ []), horderId, htxnId,
    (by decide : ¬ JsString.Blank ((JsNumber.ofNat 1).toFixed 2).units),
    (by decide : (JsNumber.ofInt (0 + PAYTM_AUTHORIZATION_SIGNATURE_TTL_MS)).isFinite = true)⟩

/-- The signature for a refund without bars is for no other. -/
theorem authorizes_one_plain :
    (∀ other, Signed other → other.signedBytes = (refund "A" "C").signedBytes →
        other.Same (refund "A" "C")) ∧
      ∀ other, Rebuilt other → other.signedBytes = (refund "A" "C").signedBytes →
        other.Same (refund "A" "C") := by
  have hid : bars (refund "A" "C").businessTransactionId = [("t1" : JsString).units] := by decide
  have horder : bars (refund "A" "C").orderId = [("A" : JsString).units] := by decide
  have htxn : bars (refund "A" "C").txnId = [("C" : JsString).units] := by decide
  have hfirst : ∀ a b, bars (refund "A" "C").businessTransactionId =
      a ++ PAYTM_AGENT_WIRE_ACTION.units :: b → a = [] := by
    rw [hid]
    rintro (_ | ⟨first, rest⟩) b h
    · rfl
    · simp at h
  have honce : (refund "A" "C").EncodedOnce :=
    ⟨(by decide : ("t1" : JsString).EncodedOnce), (by decide : ("A" : JsString).EncodedOnce),
      (by decide : ("C" : JsString).EncodedOnce)⟩
  obtain ⟨hsigned, hrebuilt⟩ := authorizes_one_iff
    (refund_signed (by decide) (by decide) : Signed (refund "A" "C"))
  refine ⟨hsigned.mpr ⟨honce, fun a b h hne => hne (hfirst a b h), .inl ⟨_, horder⟩,
    .inl ⟨_, htxn⟩⟩, ?_⟩
  exact (hrebuilt (refund_rebuilt (by decide) (by decide))).mpr
    ⟨honce, fun a b h hne => hne.1 (hfirst a b h), .inl ⟨_, horder⟩, .inl ⟨_, htxn⟩⟩

/-- **One signature for two refunds**: the order `A|B` with the transaction `C`, and the
order `A` with the transaction `B|C`. -/
theorem split_elsewhere :
    ¬ (∀ a b, Signed a → Signed b → a.signedBytes = b.signedBytes → a.Same b) ∧
      Rebuilt (refund "A" "B|C") ∧
      (refund "A" "B|C").signedBytes = (refund "A|B" "C").signedBytes := by
  have htext : canonicalPaytmAuthorizationString (refund "A" "B|C") =
      canonicalPaytmAuthorizationString (refund "A|B" "C") := by decide
  have hbytes : (refund "A" "B|C").signedBytes = (refund "A|B" "C").signedBytes :=
    congrArg JsString.encode htext
  refine ⟨fun hall => ?_, refund_rebuilt (by decide) (by decide), hbytes⟩
  obtain ⟨-, -, horder, -⟩ := hall _ _ (refund_signed (by decide) (by decide))
    (refund_signed (by decide) (by decide)) hbytes
  exact absurd horder (by decide)

end Parmana.Connectors

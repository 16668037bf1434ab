import Parmana.Approval.Environment
import Parmana.Crypto.RecordVerification
import Parmana.Js.Order
import Parmana.Sdk.OfflineVerifier

/-! # Approvals signed with the SDK

`signApproval` runs on the approver's machine.  It checks what it is asked to approve,
and signs, for a limited time, one action on one resource: up to an amount when one is
given, and else this resource and nothing more.  The server never sees the request it
was made for; it reads the artifact (`isSignedApprovalShape`), and verifies it against
what is to be done (`ApprovalVerifier`).

The two sides build the bytes under the signature apart.  Where the server resolves the
issuer to the approver's key, the artifact passes the guard, and it is verified exactly
for its own action, its own resource and the values its scope covers, before it expires
(`signed_approval_exact`).

The key file, the two random identifiers and the clock are given.
-/
namespace Parmana.Sdk
open Js Crypto

/-! ## The artifact -/

structure ApprovalScope where
  field : JsString
  comparator : JsString
  value : Json

structure ApprovalPayload where
  approvalId : JsString
  approverId : JsString
  keyId : JsString
  issuedAt : JsString
  expiresAt : JsString
  capability : JsString
  resourceId : JsString
  scope : ApprovalScope
  nonce : JsString

structure ApprovalSignature where
  keyId : JsString
  value : JsString
  signedAt : JsString

structure SignedApproval where
  payload : ApprovalPayload
  signature : ApprovalSignature

def ApprovalScope.toJson (scope : ApprovalScope) : Json :=
  .obj [("field", .str scope.field), ("comparator", .str scope.comparator), ("value", scope.value)]

def ApprovalPayload.toJson (payload : ApprovalPayload) : Json :=
  .obj [("version", .num (.ofNat 1)), ("approvalId", .str payload.approvalId),
    ("issuer", .obj [("approverId", .str payload.approverId), ("keyId", .str payload.keyId)]),
    ("issuedAt", .str payload.issuedAt), ("expiresAt", .str payload.expiresAt),
    ("capability", .str payload.capability), ("resourceId", .str payload.resourceId),
    ("scope", payload.scope.toJson), ("nonce", .str payload.nonce)]

def SignedApproval.toJson (signed : SignedApproval) : Json :=
  .obj [("payload", signed.payload.toJson),
    ("signature", .obj [("algorithm", "ed25519"), ("keyId", .str signed.signature.keyId),
      ("value", .str signed.signature.value), ("signedAt", .str signed.signature.signedAt)])]

/-! ## Signing -/

structure SignApprovalInput where
  privateKeyPem : JsString
  approverId : JsString
  keyId : JsString
  capability : JsString
  resourceId : JsString
  maxAmount : Option JsNumber
  ttlSeconds : Option JsNumber

def DEFAULT_APPROVAL_TTL_SECONDS : JsNumber := .ofNat 900
def MAX_APPROVAL_TTL_SECONDS : JsNumber := .ofNat 86400

/-- `Number.isInteger(n)`. -/
def isInteger : JsNumber → Bool
  | .negZero => true
  | .finite d => d.val = ((truncate d.val : Int) : Dyadic)
  | _ => false

/-- `[A-Za-z0-9_-]`. -/
def isNameUnit (u : UInt16) : Bool :=
  (0x41 ≤ u && u ≤ 0x5A) || (0x61 ≤ u && u ≤ 0x7A) || (0x30 ≤ u && u ≤ 0x39) || u = 0x5F || u = 0x2D

/-- `CAPABILITY.test(capability)`: a name, a colon, and a name that may have dots. -/
def isCapability (capability : JsString) : Bool :=
  let connector := capability.units.takeWhile (· ≠ 0x3A)
  let action := (capability.units.dropWhile (· ≠ 0x3A)).drop 1
  connector ≠ [] && connector.all isNameUnit && action ≠ [] &&
    action.all (fun u => isNameUnit u || u = 0x2E)

example : isCapability "paytm:refund" = true := by decide
example : isCapability "paytm:" = false := by decide

/-- The time to live, when none is given and when one is. -/
def SignApprovalInput.ttl (input : SignApprovalInput) : JsNumber :=
  input.ttlSeconds.getD DEFAULT_APPROVAL_TTL_SECONDS

/-- The checks of the input, in order. -/
def SignApprovalInput.check (input : SignApprovalInput) : Except JsString Unit :=
  if !isInteger input.ttl || input.ttl.le .zero || MAX_APPROVAL_TTL_SECONDS.lt input.ttl then
    .error ("ttlSeconds must be a whole number from 1 to 86400." : JsString)
  else if !isCapability input.capability then
    .error (("capability must be an action such as paytm:refund or github:pr-merge: " : JsString) ++
      input.capability)
  else if input.resourceId.length = 0 then .error ("resourceId must not be empty." : JsString)
  else if input.maxAmount.any (fun amount => !amount.isFinite || amount.le .zero) then
    .error ("maxAmount must be a positive number." : JsString)
  else .ok ()

/-- `scope`. -/
def SignApprovalInput.scope (input : SignApprovalInput) : ApprovalScope :=
  match input.maxAmount with
  | some amount => ⟨"value", "lte", .num amount⟩
  | none => ⟨"resourceId", "eq", .str input.resourceId⟩

/-- `date.toISOString()`. -/
def approvalDate : Option Int → Except JsString JsString
  | none => .error ("Invalid time value" : JsString)
  | some time => .ok (toISOString time)

/-- `expiresAt`. -/
def approvalExpiry (input : SignApprovalInput) (issuedAt : Int) : Option Int :=
  timeClip ((JsNumber.ofInt issuedAt).add (input.ttl.mulNat 1000))

section Signing
variable (ed : Ed25519) (createPrivateKey : JsString → Except JsString (KeyObject ed.PrivateKey))
  (issuedAt : Int) (approvalId nonce : JsString)

/-- The private key of the input, when it is an Ed25519 key. -/
def SignApprovalInput.privateKey (input : SignApprovalInput) : Except JsString ed.PrivateKey := do
  let privateKey ← createPrivateKey input.privateKeyPem
  if privateKey.asymmetricKeyType ≠ NODE_KEY_TYPE then
    throw ("the approver private key must be an Ed25519 key." : JsString)
  else return privateKey.key

/-- `payload`. -/
def SignApprovalInput.payload (input : SignApprovalInput) : Except JsString ApprovalPayload := do
  return {
    approvalId := approvalId
    approverId := input.approverId
    keyId := input.keyId
    issuedAt := toISOString issuedAt
    expiresAt := ← approvalDate (approvalExpiry input issuedAt)
    capability := input.capability
    resourceId := input.resourceId
    scope := input.scope
    nonce := nonce }

/-- `signApproval`. -/
def signApproval (input : SignApprovalInput) : Except JsString SignedApproval := do
  input.check
  let privateKey ← input.privateKey ed createPrivateKey
  let payload ← input.payload issuedAt approvalId nonce
  let signature := ed.sign privateKey (Typescript.canonicalSerialize payload.toJson)
  return {
    payload := payload
    signature := {
      keyId := input.keyId
      value := ⟨(Base64.encode signature).flatMap utf16⟩
      signedAt := toISOString issuedAt } }

end Signing

/-! ## What is signed -/

section Signed
variable {ed : Ed25519} {createPrivateKey : JsString → Except JsString (KeyObject ed.PrivateKey)}
  {issuedAt : Int} {approvalId nonce : JsString} {input : SignApprovalInput}
  {signed : SignedApproval}

/-- What is asked for, until it expires. -/
structure SignApprovalInput.Asks (input : SignApprovalInput) (issuedAt : Int)
    (payload : ApprovalPayload) : Prop where
  approverId : payload.approverId = input.approverId
  keyId : payload.keyId = input.keyId
  capability : payload.capability = input.capability
  resourceId : payload.resourceId = input.resourceId
  scope : payload.scope = input.scope
  expiresAt : ∃ expiry, approvalExpiry input issuedAt = some expiry ∧
    payload.expiresAt = toISOString expiry

theorem privateKey_ok {key : ed.PrivateKey}
    (h : input.privateKey ed createPrivateKey = .ok key) :
    createPrivateKey input.privateKeyPem = .ok ⟨NODE_KEY_TYPE, key⟩ := by
  obtain ⟨file, hfile, h⟩ := bind_eq_ok.mp h
  split at h
  · cases h
  · rename_i htype
    cases h
    obtain ⟨type, key⟩ := file
    cases not_not.mp htype
    exact hfile

theorem approvalDate_ok {time : Option Int} {text : JsString} (h : approvalDate time = .ok text) :
    ∃ t, time = some t ∧ text = toISOString t := by
  cases time with
  | none => cases h
  | some t => exact ⟨t, rfl, (Except.ok.inj h).symm⟩

theorem asks_of_payload {payload : ApprovalPayload}
    (h : input.payload issuedAt approvalId nonce = .ok payload) : input.Asks issuedAt payload := by
  obtain ⟨text, htext, h⟩ := bind_eq_ok.mp h
  obtain ⟨expiry, hexpiry, htext⟩ := approvalDate_ok htext
  obtain rfl := Except.ok.inj h
  exact ⟨rfl, rfl, rfl, rfl, rfl, expiry, hexpiry, htext⟩

/-- `signApproval` answers with the approval that was asked for, and the signature of its
bytes. -/
theorem signed_of_signApproval
    (h : signApproval ed createPrivateKey issuedAt approvalId nonce input = .ok signed) :
    input.Asks issuedAt signed.payload ∧
      ∃ key, createPrivateKey input.privateKeyPem = .ok ⟨NODE_KEY_TYPE, key⟩ ∧
        signed.signature.value = ⟨(Base64.encode (ed.sign key
          (Typescript.canonicalSerialize signed.payload.toJson))).flatMap utf16⟩ := by
  obtain ⟨⟨⟩, -, h⟩ := bind_eq_ok.mp h
  obtain ⟨key, hkey, h⟩ := bind_eq_ok.mp h
  obtain ⟨payload, hpayload, h⟩ := bind_eq_ok.mp h
  cases h
  exact ⟨asks_of_payload hpayload, key, privateKey_ok hkey, rfl⟩

end Signed

/-! ## What the server reads -/

section Read
variable {input : SignApprovalInput} {issuedAt : Int} {signed : SignedApproval}

/-- **The artifact passes the guard.** -/
theorem isSignedApprovalShape_toJson (h : input.Asks issuedAt signed.payload) :
    Approval.isSignedApprovalShape (.json signed.toJson) = true := by
  have hscope : Approval.isApprovalScopeShape (.json signed.payload.scope.toJson) = true := by
    rw [h.scope]
    unfold SignApprovalInput.scope
    split <;> rfl
  have hversion :
      JsValue.strictEq (.json (.num (.ofNat 1))) Approval.supportedPayloadVersion = true := by
    decide
  unfold Approval.isSignedApprovalShape
  simp only [Bool.and_eq_true]
  exact ⟨⟨⟨⟨⟨⟨⟨⟨⟨⟨⟨⟨⟨⟨⟨⟨rfl, rfl⟩, rfl⟩, rfl⟩, hversion⟩, rfl⟩, rfl⟩, rfl⟩, rfl⟩, rfl⟩, rfl⟩, rfl⟩,
    rfl⟩, hscope⟩, rfl⟩, rfl⟩, rfl⟩

/-- The artifact as the server has it once the guard is passed. -/
def received (h : input.Asks issuedAt signed.payload) : Approval.SignedApproval :=
  ⟨.json signed.toJson, isSignedApprovalShape_toJson h⟩

/-- The values an approval covers: the numbers up to the amount it names, and without an
amount the resource itself. -/
def SignApprovalInput.Covers (input : SignApprovalInput) (value : JsValue) : Prop :=
  match input.maxAmount with
  | some amount => ∃ n, value = .json (.num n) ∧ n.le amount = true
  | none => value = .json (.str input.resourceId)

theorem covers_iff (h : input.Asks issuedAt signed.payload) (value : JsValue) :
    Approval.evaluateApprovalScope value (received h).scope = true ↔ input.Covers value := by
  have hscope : (received h).scope = .json input.scope.toJson := by
    rw [← h.scope]
    rfl
  rw [hscope]
  unfold SignApprovalInput.scope SignApprovalInput.Covers
  cases input.maxAmount with
  | some amount =>
    have heq : Approval.evaluateApprovalScope value
        (.json (ApprovalScope.toJson ⟨"value", "lte", .num amount⟩)) =
        Approval.onNumberBound value fun n => JsNumber.le n amount := by
      unfold Approval.evaluateApprovalScope Approval.onNumberBound
      rfl
    dsimp only
    rw [heq, Approval.onNumberBound_iff]
  | none =>
    have heq : Approval.evaluateApprovalScope value
        (.json (ApprovalScope.toJson ⟨"resourceId", "eq", .str input.resourceId⟩)) =
        JsValue.strictEq value (.json (.str input.resourceId)) := rfl
    dsimp only
    rw [heq]
    refine ⟨JsValue.eq_of_strictEq (by simp), fun hvalue => ?_⟩
    rw [hvalue]
    exact beq_self_eq_true _

theorem payload_distinct (h : input.Asks issuedAt signed.payload) :
    signed.payload.toJson.distinct = true := by
  have hscope : signed.payload.scope.toJson.distinct = true := by
    rw [h.scope]
    unfold SignApprovalInput.scope
    split <;> rfl
  unfold ApprovalPayload.toJson
  simp only [Json.distinct, Json.distinctMembers, hscope]
  rfl

end Read

/-! ## What the server accepts -/

section Accepts
variable {ed : Ed25519} (sha512 : List UInt8 → List UInt8)
  (env : Approval.Environment (KeyObject ed.PublicKey))

/-- The approver's key as the registry answers with it, not revoked. -/
def approverKey (ed : Ed25519) (key : ed.PrivateKey) :
    Approval.ResolvedApprovalIssuer (KeyObject ed.PublicKey) :=
  ⟨⟨NODE_KEY_TYPE, ed.publicKey key⟩, false⟩

/-- A server that knows the approver: it resolves the issuer the input names to the
approver's key, not revoked, whenever it is asked; it checks signatures with Ed25519; and
it reads the expiry back as it was written. -/
structure Registered (input : SignApprovalInput) (issuedAt : Int) (key : ed.PrivateKey) :
    Prop where
  dates : ∀ expiry, approvalExpiry input issuedAt = some expiry →
    env.dateParse (toISOString expiry) = some expiry
  issuer : ∀ n, (env.moment n).resolveIssuer input.approverId input.keyId =
    .ok (some (approverKey ed key))
  signatures : ∀ payload signature publicKey,
    env.verifySignature (.json payload) signature publicKey =
      (Crypto.SignatureVerifier.verify (ed25519Provider ed sha512) (.ofJson payload)
        (JsString.scalars signature.units) publicKey).mapError .error

variable {sha512 env} {input : SignApprovalInput} {issuedAt : Int} {signed : SignedApproval}
  {key : ed.PrivateKey}

/-- The server finds the approver's signature under the bytes it makes itself. -/
theorem signatureVerified (hsound : ∀ message, ed.verify (ed.publicKey key) message
      (ed.sign key message) = true)
    (hregistered : Registered sha512 env input issuedAt key)
    (h : input.Asks issuedAt signed.payload)
    (hvalue : signed.signature.value = ⟨(Base64.encode (ed.sign key
      (Typescript.canonicalSerialize signed.payload.toJson))).flatMap utf16⟩) :
    env.verifySignature (received h).payload (received h).signatureValue
      (approverKey ed key).publicKey = .ok true := by
  have hpayload : (received h).payload = .json signed.payload.toJson := rfl
  have hsignature : (received h).signatureValue = signed.signature.value := rfl
  rw [hpayload, hsignature, hregistered.signatures, hvalue]
  unfold Crypto.SignatureVerifier.verify
  rw [server_bytes (payload_distinct h), JsString.scalars_utf16]
  have hverified : (ed25519Provider ed sha512).verify
      (Typescript.canonicalSerialize signed.payload.toJson)
      (Base64.encode (ed.sign key (Typescript.canonicalSerialize signed.payload.toJson)))
      (approverKey ed key).publicKey = .ok true := by
    unfold ed25519Provider Ed25519SignatureProvider.verify assertKeyType approverKey
    simp only [ne_eq, not_true_eq_false, if_false, ok_bind, Base64.decode_encode, hsound, if_true]
    rfl
  rw [ok_bind, hverified]
  rfl

/-- While its nonce is not used, an artifact is valid when its other checks pass. -/
theorem run_verify_fresh {Key : Type} {env : Approval.Environment Key}
    {artifact : Approval.SignedApproval} {request : Approval.ApprovalVerificationRequest}
    {w : Approval.World} {checks : Approval.ApprovalChecks}
    (hchecks : env.checksAt (env.moment w.checks) artifact request = .ok checks)
    (hfresh : artifact.nonce ∉ w.consumed) (hstore : (env.moment w.checks).storeFails = none) :
    ∃ result w', env.run (Approval.verify env.dateParse artifact request) w = (.ok result, w') ∧
      result.valid = checks.priorPassed := by
  rw [env.run_verify, hchecks]
  dsimp only
  rw [Approval.attemptNonce]
  cases hpassed : checks.priorPassed with
  | false => exact ⟨_, _, rfl, rfl⟩
  | true =>
    by_cases hconsume : request.consumeNonce = some false
    · simp only [Bool.not_true, Bool.false_eq_true, if_false, hconsume, ne_eq, not_true_eq_false]
      exact ⟨_, _, rfl, rfl⟩
    · simp only [Bool.not_true, Bool.false_eq_true, if_false, ne_eq, hconsume, not_false_eq_true,
        if_true, Approval.Environment.run_bind, Approval.Environment.run_checkAndRecord,
        Nat.add_sub_cancel, hstore, hfresh, decide_true]
      exact ⟨_, _, rfl, rfl⟩

/-- What the approver is known to have signed passes exactly when it is asked for. -/
theorem priorPassed_iff (hregistered : Registered sha512 env input issuedAt key)
    (h : input.Asks issuedAt signed.payload) {expiry now : Int}
    (hexpiry : approvalExpiry input issuedAt = some expiry)
    (request : Approval.ApprovalVerificationRequest) :
    (Approval.priorChecks env.dateParse now (some (approverKey ed key)) true
      (received h) request).priorPassed = true ↔
      request.action = input.capability ∧ request.resourceId = input.resourceId ∧
        input.Covers request.requestedValue ∧ now < expiry := by
  obtain ⟨expiry', hexpiry', htext⟩ := h.expiresAt
  cases hexpiry.symm.trans hexpiry'
  have hdate : Approval.notExpired env.dateParse now (received h).expiresAt =
      decide (now < expiry) := by
    have hread : (received h).expiresAt = toISOString expiry := htext
    unfold Approval.notExpired
    rw [hread, hregistered.dates expiry hexpiry]
    rfl
  have hcapability : (received h).capability = input.capability := h.capability
  have hresource : (received h).resourceId = input.resourceId := h.resourceId
  unfold Approval.priorChecks Approval.ApprovalChecks.priorPassed
  simp only [Bool.and_eq_true, hdate, hcapability, hresource, covers_iff, beq_iff_eq,
    decide_eq_true_eq, Option.isSome_some, Option.any_some, approverKey, Bool.not_false, true_and,
    and_true]
  constructor
  · rintro ⟨⟨⟨hnow, haction⟩, hresource⟩, hcovers⟩
    exact ⟨haction.symm, hresource.symm, hcovers, hnow⟩
  · rintro ⟨haction, hresource, hcovers, hnow⟩
    exact ⟨⟨⟨hnow, haction.symm⟩, hresource.symm⟩, hcovers⟩

/-- **An approval is accepted for what it was signed for, and for nothing else.**  For every
input that `signApproval` accepts, on a server that knows the approver: the artifact passes
the guard; and where its nonce is not used yet, the verifier finds it valid exactly when the
action is its capability, the resource is its resource, the value is one its scope covers,
and the time is before it expires. -/
theorem signed_approval_exact
    {createPrivateKey : JsString → Except JsString (KeyObject ed.PrivateKey)}
    {approvalId nonce : JsString}
    (hsigned : signApproval ed createPrivateKey issuedAt approvalId nonce input = .ok signed)
    (hkey : createPrivateKey input.privateKeyPem = .ok ⟨NODE_KEY_TYPE, key⟩)
    (hsound : ∀ message, ed.verify (ed.publicKey key) message (ed.sign key message) = true)
    (hregistered : Registered sha512 env input issuedAt key) :
    ∃ (expiry : Int) (hshape : Approval.isSignedApprovalShape (.json signed.toJson) = true),
      approvalExpiry input issuedAt = some expiry ∧
      signed.payload.expiresAt = toISOString expiry ∧
      ∀ (request : Approval.ApprovalVerificationRequest) (w : Approval.World),
        signed.payload.nonce ∉ w.consumed → (env.moment w.checks).storeFails = none →
        ∃ result w',
          env.run (Approval.verify env.dateParse ⟨.json signed.toJson, hshape⟩ request) w =
            (.ok result, w') ∧
          (result.valid = true ↔ request.action = input.capability ∧
            request.resourceId = input.resourceId ∧ input.Covers request.requestedValue ∧
            (env.moment w.checks).now < expiry) := by
  obtain ⟨hasks, key', hkey', hvalue⟩ := signed_of_signApproval hsigned
  cases hkey.symm.trans hkey'
  obtain ⟨expiry, hexpiry, htext⟩ := hasks.expiresAt
  refine ⟨expiry, isSignedApprovalShape_toJson hasks, hexpiry, htext,
    fun request w hfresh hstore => ?_⟩
  have hchecks : env.checksAt (env.moment w.checks) (received hasks) request =
      .ok (Approval.priorChecks env.dateParse (env.moment w.checks).now
        (some (approverKey ed key)) true (received hasks) request) := by
    have happrover : (received hasks).approverId = input.approverId := hasks.approverId
    have hkeyId : (received hasks).keyId = input.keyId := hasks.keyId
    unfold Approval.Environment.checksAt
    rw [happrover, hkeyId, hregistered.issuer]
    dsimp only [ok_bind]
    rw [signatureVerified hsound hregistered hasks hvalue]
    rfl
  obtain ⟨result, w', hrun, hvalid⟩ := run_verify_fresh hchecks hfresh hstore
  refine ⟨result, w', hrun, ?_⟩
  rw [hvalid]
  exact priorPassed_iff hregistered hasks hexpiry request

end Accepts

/-! ## A refund approved up to an amount -/

namespace RefundApproval

/-- The start of 2026. -/
def issuedAt : Int := 1767225600000

def input : SignApprovalInput where
  privateKeyPem := "approver-key"
  approverId := "alice"
  keyId := "alice-1"
  capability := "paytm:refund"
  resourceId := "ORDER-7"
  maxAmount := some (.ofNat 500)
  ttlSeconds := none

def expiry : Int := issuedAt + 900000

def payload : ApprovalPayload where
  approvalId := "approval-1"
  approverId := "alice"
  keyId := "alice-1"
  issuedAt := toISOString issuedAt
  expiresAt := toISOString expiry
  capability := "paytm:refund"
  resourceId := "ORDER-7"
  scope := input.scope
  nonce := "nonce-1"

def signed : SignedApproval where
  payload := payload
  signature := {
    keyId := "alice-1"
    value := ⟨(Base64.encode (plainEd25519.sign ()
      (Typescript.canonicalSerialize payload.toJson))).flatMap utf16⟩
    signedAt := toISOString issuedAt }

/-- A server that knows the approver, ten minutes into the approval. -/
def server : Approval.Environment (KeyObject plainEd25519.PublicKey) where
  dateParse text := if text = toISOString expiry then some expiry else none
  verifySignature value signature publicKey :=
    match value with
    | .json payload =>
      (Crypto.SignatureVerifier.verify (ed25519Provider plainEd25519 (List.take 64))
        (.ofJson payload) (JsString.scalars signature.units) publicKey).mapError .error
    | _ => .ok false
  fetchDeal _ _ := .ok none
  moment _ :=
    { now := issuedAt + 600000
      resolveIssuer := fun approverId keyId =>
        .ok (if approverId = "alice" ∧ keyId = "alice-1" then some (approverKey plainEd25519 ())
          else none)
      storeFails := none }

theorem expiry_eq : approvalExpiry input issuedAt = some expiry := by
  decide

theorem signed_eq : signApproval plainEd25519 (fun _ => .ok ⟨NODE_KEY_TYPE, ()⟩) issuedAt
    "approval-1" "nonce-1" input = .ok signed := by
  have hcheck : input.check = .ok () := by decide
  unfold signApproval SignApprovalInput.payload
  rw [hcheck, expiry_eq]
  rfl

theorem registered : Registered (List.take 64) server input issuedAt () where
  dates e he := by
    cases expiry_eq.symm.trans he
    show (if toISOString expiry = toISOString expiry then some expiry else none) = some expiry
    exact if_pos rfl
  issuer _ := rfl
  signatures _ _ _ := rfl

end RefundApproval

open RefundApproval in
/-- The approval of a refund of up to `500` is accepted for a refund of up to `500`, and
for no other. -/
theorem refund_approved :
    ∃ hshape : Approval.isSignedApprovalShape (.json signed.toJson) = true, ∀ amount : JsNumber,
      ∃ result w', server.run (Approval.verify server.dateParse ⟨.json signed.toJson, hshape⟩
          ⟨"paytm:refund", "ORDER-7", .json (.num amount), none⟩) ⟨0, []⟩ = (.ok result, w') ∧
        (result.valid = true ↔ amount.le (.ofNat 500) = true) := by
  obtain ⟨time, hshape, htime, -, h⟩ := signed_approval_exact signed_eq rfl
    (fun message => beq_self_eq_true message) registered
  cases expiry_eq.symm.trans htime
  refine ⟨hshape, fun amount => ?_⟩
  obtain ⟨result, w', hrun, hvalid⟩ := h ⟨"paytm:refund", "ORDER-7", .json (.num amount), none⟩
    ⟨0, []⟩ List.not_mem_nil rfl
  have hnow : (server.moment 0).now < expiry := by decide
  refine ⟨result, w', hrun, hvalid.trans ⟨fun ⟨_, _, hcovers, _⟩ => ?_, fun hle => ?_⟩⟩
  · obtain ⟨n, hn, hle⟩ := hcovers
    cases hn
    exact hle
  · exact ⟨rfl, rfl, ⟨amount, rfl, hle⟩, hnow⟩

end Parmana.Sdk

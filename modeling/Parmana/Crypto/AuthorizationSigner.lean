import Parmana.ExecutionControl.Stores
import Parmana.Js.Order

/-! # The authorization signer

`AuthorizationSigner` turns an approved decision into a signed authorization: it adds
the hash of the content, the time of issue and the expiry, and signs the canonical
bytes of the payload.  A time to live that is not a positive number is refused, and so
is one that ends after the last date there is.

The clock, the identifiers and the backend that signs are given; `SignatureVerifier`
is the other side, and reads the same bytes.
-/
namespace Parmana
open Js Gateway ExecutionControl

/-! ## Signing and verifying -/

/-- The canonical bytes of a payload. -/
def payloadBytes (payload : ExecutionAuthorizationPayload) : Except Failure (List UInt8) :=
  (Crypto.serialize (payloadData payload)).mapError (fun message => .error message)

/-- `SignatureVerifier.verify` of a payload, `verifyBytes` checking the signature of bytes. -/
def SignatureVerifier.verify {Key : Type} (verifyBytes : List UInt8 → JsString → Key → Bool)
    (payload : ExecutionAuthorizationPayload) (signature : JsString) (publicKey : Key) :
    Except Failure Bool := do
  return verifyBytes (← payloadBytes payload) signature publicKey

namespace AuthorizationSigner
variable (sha256 : List UInt8 → JsString) (signBytes : JsString → List UInt8 → Except Failure JsString)
  (algorithm : JsString) (input : AuthorizationInput) (keyId : JsString) (ttlSeconds : JsNumber)
  (issuedAt : Int) (authorizationId nonce : JsString)

/-- `expiresAt`: invalid when it is after the last date. -/
def expiresAt : Option Int :=
  timeClip ((JsNumber.ofInt issuedAt).add (ttlSeconds.mulNat 1000))

/-- `buildPayload`, at the time and with the identifiers it draws. -/
def buildPayload : Except Failure ExecutionAuthorizationPayload :=
  if !ttlSeconds.isFinite || ttlSeconds.le .zero then
    .error (.error (("Invalid authorization TTL: " : JsString) ++ ttlSeconds.toText))
  else do
    let businessTransactionHash ← contentHash sha256 (contentJson input.executableContent)
    let expiresAt ← isoText (expiresAt ttlSeconds issuedAt)
    return {
      version := .json (.num (.ofNat 1))
      authorizationId := authorizationId
      nonce := nonce
      decisionId := input.decisionId
      businessTransactionId := input.businessTransactionId
      policyName := input.policyName
      policyVersion := input.policyVersion
      policyContentHash := some input.policyContentHash
      signalsHash := some input.signalsHash
      submittedBy := input.submittedBy
      grantedCapability := input.grantedCapability
      authorizedAt := toISOString issuedAt
      expiresAt := expiresAt
      businessTransactionHash := businessTransactionHash }

/-- `signWithSigner`. -/
def signWithSigner : Except Failure SignedExecutionAuthorization := do
  let payload ← buildPayload sha256 input ttlSeconds issuedAt authorizationId nonce
  let signature ← signBytes keyId (← payloadBytes payload)
  return { payload := payload, signature := signature, keyId := keyId, algorithm := algorithm }

/-! ## What a signed authorization holds -/

/-- An authorization that was signed for this input at this time. -/
structure Signed (authorization : SignedExecutionAuthorization) : Prop where
  version : authorization.payload.version = .json (.num (.ofNat 1))
  policyName : authorization.payload.policyName = input.policyName
  policyVersion : authorization.payload.policyVersion = input.policyVersion
  policyContentHash : authorization.payload.policyContentHash = some input.policyContentHash
  signalsHash : authorization.payload.signalsHash = some input.signalsHash
  authorizedAt : authorization.payload.authorizedAt = toISOString issuedAt
  expiresAt : ∃ expiry, AuthorizationSigner.expiresAt ttlSeconds issuedAt = some expiry ∧
    authorization.payload.expiresAt = toISOString expiry
  contentHash : contentHash sha256 (contentJson input.executableContent) =
    .ok authorization.payload.businessTransactionHash
  signature : ∃ bytes, payloadBytes authorization.payload = .ok bytes ∧
    signBytes authorization.keyId bytes = .ok authorization.signature

variable {sha256 signBytes algorithm input keyId ttlSeconds issuedAt authorizationId nonce}

theorem isoText_eq_ok {time : Option Int} {text : JsString} (h : isoText time = .ok text) :
    ∃ t, time = some t ∧ text = toISOString t := by
  cases time with
  | none => cases h
  | some t => exact ⟨t, rfl, (Except.ok.inj h).symm⟩

theorem signed_of_signWithSigner {authorization : SignedExecutionAuthorization}
    (h : signWithSigner sha256 signBytes algorithm input keyId ttlSeconds issuedAt authorizationId
      nonce = .ok authorization) :
    Signed sha256 signBytes input ttlSeconds issuedAt authorization := by
  obtain ⟨payload, hpayload, h⟩ := bind_eq_ok.mp h
  obtain ⟨bytes, hbytes, h⟩ := bind_eq_ok.mp h
  obtain ⟨signature, hsignature, h⟩ := bind_eq_ok.mp h
  cases h
  unfold buildPayload at hpayload
  split at hpayload
  · cases hpayload
  · obtain ⟨hash, hhash, hpayload⟩ := bind_eq_ok.mp hpayload
    obtain ⟨text, htext, hpayload⟩ := bind_eq_ok.mp hpayload
    obtain ⟨expiry, hexpiry, rfl⟩ := isoText_eq_ok htext
    cases hpayload
    exact ⟨rfl, rfl, rfl, rfl, rfl, rfl, ⟨expiry, hexpiry, rfl⟩, hhash, ⟨bytes, hbytes, hsignature⟩⟩

end AuthorizationSigner

end Parmana

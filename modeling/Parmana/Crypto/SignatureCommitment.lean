import Parmana.Crypto.CanonicalSerializer
import Parmana.Encoding.Base64

/-! # Signing large messages

AWS KMS signs no raw message over 4096 bytes, so a larger one is signed as a
commitment to it: a fixed prefix followed by its SHA-512 digest.  A local key
signs every message as it is, and a verifier of a large message takes either
form.

Nothing is stored to say which form a signature has.  What keeps the two apart is
that a canonical message never opens with the prefix (`serialize_not_commitment`):
a signature of a commitment is the signature of no canonical message, and a
commitment is only tried where the message is large.  So whichever signer made a
signature over `m'`, and on whichever side of the limit, `m` is accepted with it
exactly when it is `m'` (`acceptsForm_iff`).
-/
namespace Parmana.Crypto

open Js

/-! ## The commitment -/

def KMS_RAW_MESSAGE_LIMIT_BYTES : Nat := 4096

def COMMITMENT_PREFIX : List UInt8 := JsString.utf8 "PARMANA-ED25519-LARGE-MESSAGE-V1\x00".toList

def requiresCommitment (data : List UInt8) : Bool := KMS_RAW_MESSAGE_LIMIT_BYTES < data.length

/-- `commitmentMessage`, for a digest function. -/
def commitmentMessage (sha512 : List UInt8 → List UInt8) (data : List UInt8) : List UInt8 :=
  COMMITMENT_PREFIX ++ sha512 data

/-! ## Ed25519 -/

/-- The Ed25519 of a library or a service: every one in use implements the same
standard. -/
structure Ed25519 where
  PrivateKey : Type
  PublicKey : Type
  publicKey : PrivateKey → PublicKey
  sign : PrivateKey → List UInt8 → List UInt8
  verify : PublicKey → List UInt8 → List UInt8 → Bool

/-- A signature made with the key is accepted for the message it was made over, and
for no other. -/
def Ed25519.Unforgeable (ed : Ed25519) (key : ed.PrivateKey) : Prop :=
  ∀ message signed, ed.verify (ed.publicKey key) message (ed.sign key signed) = true ↔
    message = signed

/-- A `KeyObject` of `node:crypto`: what type of key it is, and the key. -/
structure KeyObject (Key : Type) where
  asymmetricKeyType : JsString
  key : Key

/-- `assertKeyType(key, expected, operation)`. -/
def assertKeyType {Key : Type} (key : KeyObject Key) (expected operation : JsString) :
    Except JsString Unit :=
  if key.asymmetricKeyType ≠ expected then
    .error (operation ++ ("() expected a \"" : JsString) ++ expected ++
      ("\" key but received \"" : JsString) ++ key.asymmetricKeyType ++
      ("\". The configured signature algorithm does not match the supplied key material." :
        JsString))
  else .ok ()

def NODE_KEY_TYPE : JsString := "ed25519"

section
variable (ed : Ed25519) (sha512 : List UInt8 → List UInt8)

namespace Ed25519SignatureProvider

/-- `Ed25519SignatureProvider.sign`. -/
def sign (data : List UInt8) (privateKey : KeyObject ed.PrivateKey) :
    Except JsString (List Char) := do
  assertKeyType privateKey NODE_KEY_TYPE "sign"
  return Base64.encode (ed.sign privateKey.key data)

/-- `Ed25519SignatureProvider.verify`: the message itself, and only for a large one
its commitment. -/
def verify (data : List UInt8) (signature : List Char) (publicKey : KeyObject ed.PublicKey) :
    Except JsString Bool := do
  assertKeyType publicKey NODE_KEY_TYPE "verify"
  let signatureBytes := Base64.decode signature
  if ed.verify publicKey.key data signatureBytes then
    return true
  if requiresCommitment data then
    return ed.verify publicKey.key (commitmentMessage sha512 data) signatureBytes
  return false

end Ed25519SignatureProvider

/-! ## The signers -/

/-- What KMS is asked to sign. -/
structure SignCommand where
  KeyId : JsString
  Message : List UInt8
  MessageType : JsString
  SigningAlgorithm : JsString

def SIGNING_ALGORITHM : JsString := "ED25519_SHA_512"

/-- `RAW_KMS_KEY_ID_PATTERN.test(keyId)`: hexadecimal digits in groups of eight,
four, four, four and twelve. -/
def isRawKmsKeyId (keyId : JsString) : Bool :=
  keyId.units.length = 36 && keyId.units.zipIdx.all fun (u, i) =>
    if i ∈ [8, 13, 18, 23] then u = 0x2D
    else (0x30 ≤ u && u ≤ 0x39) || (0x41 ≤ u && u ≤ 0x46) || (0x61 ≤ u && u ≤ 0x66)

/-- `resolveKmsKeyId`. -/
def resolveKmsKeyId (keyId : JsString) : JsString :=
  if keyId.startsWith "arn:" || keyId.startsWith "alias/" then keyId
  else if isRawKmsKeyId keyId then keyId
  else ("alias/" : JsString) ++ keyId

/-- `KmsSigner.sign`, `send` being the client: it fails, or answers with the
signature if there is one. -/
def KmsSigner.sign (send : SignCommand → Except JsString (Option (List UInt8))) (keyId : JsString)
    (data : List UInt8) : Except JsString (List Char) := do
  let message := if requiresCommitment data then commitmentMessage sha512 data else data
  let response ← send {
    KeyId := resolveKmsKeyId keyId, Message := message, MessageType := "RAW",
    SigningAlgorithm := SIGNING_ALGORITHM }
  match response with
  | none => throw (("KMS Sign returned no signature for key " : JsString) ++ keyId ++ ("." : JsString))
  | some signature => return Base64.encode signature

/-- `LocalFileSigner.sign`, with the Ed25519 provider. -/
def LocalFileSigner.sign (getPrivateKey : JsString → Except JsString (KeyObject ed.PrivateKey))
    (keyId : JsString) (data : List UInt8) : Except JsString (List Char) := do
  let privateKey ← getPrivateKey keyId
  Ed25519SignatureProvider.sign ed data privateKey

/-- The KMS client signs with `key` under the name `keyId`. -/
def SignsWith (send : SignCommand → Except JsString (Option (List UInt8))) (keyId : JsString)
    (key : ed.PrivateKey) : Prop :=
  ∀ message signature, send ⟨resolveKmsKeyId keyId, message, "RAW", SIGNING_ALGORITHM⟩ =
    .ok (some signature) → signature = ed.sign key message

end

/-! ## Canonical messages -/

/-- A message that has the form of a commitment. -/
def IsCommitment (sha512 : List UInt8 → List UInt8) (message : List UInt8) : Prop :=
  ∃ data, message = commitmentMessage sha512 data

theorem startsValue_ascii {u : UInt16} (h : startsValue u = true) :
    u.toNat < 0x80 ∧ u.toNat ≠ 0x50 := by
  unfold startsValue isNumberUnit at h
  simp only [Bool.or_eq_true, Bool.and_eq_true, decide_eq_true_eq, List.mem_cons,
    List.not_mem_nil, or_false, UInt16.le_iff_toNat_le, ← UInt16.toNat_inj] at h
  revert h
  simp
  omega

/-- A commitment opens with a `P`. -/
theorem not_commitment_of_head {message : List UInt8} (h : message.head? ≠ some 0x50)
    (sha512 : List UInt8 → List UInt8) : ¬ IsCommitment sha512 message := by
  rintro ⟨data, rfl⟩
  have hprefix : COMMITMENT_PREFIX.head? = some 0x50 := by decide
  refine h ?_
  rw [commitmentMessage, List.head?_append, hprefix]
  rfl

/-- The text of a document does not open with a `P`. -/
theorem render_head_ne (j : Json) : j.render.encode.head? ≠ some 0x50 := by
  obtain ⟨u, us, htext, hu⟩ := j.render_head
  obtain ⟨hascii, hne⟩ := startsValue_ascii hu
  have hbytes : j.render.encode = JsString.encode ⟨u :: us⟩ := congrArg (JsString.encode ⟨·⟩) htext
  rw [hbytes, JsString.encode_head hascii]
  intro h
  have hnat := congrArg UInt8.toNat (Option.some.inj h)
  have hletter : (0x50 : UInt8).toNat = 0x50 := rfl
  rw [UInt8.toNat_ofNat', hletter] at hnat
  omega

/-- What is serialized is empty or a document. -/
theorem serialize_document {value : Data} {message : List UInt8}
    (h : serialize value = .ok message) : message = [] ∨ ∃ j : Json, message = j.render.encode := by
  unfold serialize at h
  cases hn : normalize value with
  | error e =>
    rw [hn] at h
    cases h
  | ok canonical =>
    rw [hn] at h
    have hmessage : message = ((canonical.toJson?.map Json.stringify).map JsString.encode).getD [] :=
      (Except.ok.inj h).symm
    rw [hmessage]
    cases canonical.toJson? with
    | none => exact Or.inl rfl
    | some j => exact Or.inr ⟨j.ordered, congrArg JsString.encode (Json.stringify_eq j)⟩

/-- **A canonical message is no commitment.** -/
theorem serialize_not_commitment {value : Data} {message : List UInt8}
    (h : serialize value = .ok message) (sha512 : List UInt8 → List UInt8) :
    ¬ IsCommitment sha512 message := by
  refine not_commitment_of_head ?_ sha512
  rcases serialize_document h with rfl | ⟨j, rfl⟩
  · rintro ⟨⟩
  · exact render_head_ne j

/-! ## What a verifier accepts -/

/-- The message, or its commitment where it is large, has the signature. -/
def acceptsForm (ed : Ed25519) (sha512 : List UInt8 → List UInt8) (publicKey : ed.PublicKey)
    (message signature : List UInt8) : Bool :=
  ed.verify publicKey message signature ||
    requiresCommitment message && ed.verify publicKey (commitmentMessage sha512 message) signature

section
variable {ed : Ed25519} {key : ed.PrivateKey} {sha512 : List UInt8 → List UInt8}
  {message signed : List UInt8}

/-- The bytes a signer hands to Ed25519: the message itself, or its commitment when
it is large. -/
def SignedForm (sha512 : List UInt8 → List UInt8) (signed form : List UInt8) : Prop :=
  form = signed ∨ requiresCommitment signed = true ∧ form = commitmentMessage sha512 signed

theorem commitmentMessage_inj (hsha : sha512 message = sha512 signed → message = signed) :
    commitmentMessage sha512 message = commitmentMessage sha512 signed ↔ message = signed := by
  unfold commitmentMessage
  rw [List.append_cancel_left_eq]
  exact ⟨hsha, congrArg sha512⟩

/-- **Neither form of a signature is taken for the other**: the message or, where it
is large, its commitment is accepted exactly for the message signed. -/
theorem acceptsForm_iff (hed : ed.Unforgeable key)
    (hmessage : ¬ IsCommitment sha512 message) (hsigned : ¬ IsCommitment sha512 signed)
    (hsha : sha512 message = sha512 signed → message = signed) {form : List UInt8} (hform : SignedForm sha512 signed form) :
    acceptsForm ed sha512 (ed.publicKey key) message (ed.sign key form) = true ↔
      message = signed := by
  rw [acceptsForm, Bool.or_eq_true, Bool.and_eq_true, hed, hed]
  rcases hform with rfl | ⟨hlarge, rfl⟩
  · constructor
    · rintro (h | ⟨-, h⟩)
      · exact h
      · exact absurd ⟨message, h.symm⟩ hsigned
    · exact Or.inl
  · rw [commitmentMessage_inj hsha]
    constructor
    · rintro (h | ⟨-, h⟩)
      · exact absurd ⟨signed, h⟩ hmessage
      · exact h
    · rintro rfl
      exact Or.inr ⟨hlarge, rfl⟩

/-- What a signer answers is the text of an Ed25519 signature of one of the forms. -/
theorem KmsSigner.sign_form {send : SignCommand → Except JsString (Option (List UInt8))}
    {keyId : JsString} (hsend : SignsWith ed send keyId key) {signature : List Char}
    (h : KmsSigner.sign sha512 send keyId signed = .ok signature) :
    ∃ form, SignedForm sha512 signed form ∧ signature = Base64.encode (ed.sign key form) := by
  unfold KmsSigner.sign at h
  generalize hform : (if requiresCommitment signed then commitmentMessage sha512 signed
    else signed) = form at h
  have hsigned : SignedForm sha512 signed form := by
    by_cases hlarge : requiresCommitment signed = true
    · rw [if_pos hlarge] at hform
      exact Or.inr ⟨hlarge, hform.symm⟩
    · rw [if_neg hlarge] at hform
      exact Or.inl hform.symm
  refine ⟨form, hsigned, ?_⟩
  cases hsent : send ⟨resolveKmsKeyId keyId, form, "RAW", SIGNING_ALGORITHM⟩ with
  | error e =>
    simp only [hsent] at h
    cases h
  | ok response =>
    simp only [hsent] at h
    cases response with
    | none => cases h
    | some bytes =>
      rw [← hsend form bytes hsent]
      cases h
      rfl

theorem LocalFileSigner.sign_form
    {getPrivateKey : JsString → Except JsString (KeyObject ed.PrivateKey)} {keyId : JsString}
    (hfile : ∀ k, getPrivateKey keyId = .ok k → k.key = key) {signature : List Char}
    (h : LocalFileSigner.sign ed getPrivateKey keyId signed = .ok signature) :
    ∃ form, SignedForm sha512 signed form ∧ signature = Base64.encode (ed.sign key form) := by
  refine ⟨signed, Or.inl rfl, ?_⟩
  unfold LocalFileSigner.sign at h
  cases hread : getPrivateKey keyId with
  | error e =>
    rw [hread] at h
    cases h
  | ok privateKey =>
    rw [hread] at h
    change Ed25519SignatureProvider.sign ed signed privateKey = .ok signature at h
    unfold Ed25519SignatureProvider.sign assertKeyType at h
    rw [← hfile privateKey hread]
    split at h
    · cases h
    · cases h
      rfl

/-- The server's verifier accepts what one of the two forms is accepted for. -/
theorem Ed25519SignatureProvider.verify_eq (publicKey : ed.PublicKey) (signature : List UInt8) :
    Ed25519SignatureProvider.verify ed sha512 message (Base64.encode signature)
        ⟨NODE_KEY_TYPE, publicKey⟩ =
      .ok (acceptsForm ed sha512 publicKey message signature) := by
  unfold Ed25519SignatureProvider.verify acceptsForm
  rw [Base64.decode_encode, assertKeyType, if_neg (not_not_intro rfl)]
  change (if ed.verify publicKey message signature = true then Except.ok true
    else if requiresCommitment message = true then
      .ok (ed.verify publicKey (commitmentMessage sha512 message) signature)
    else .ok false) = _
  by_cases hraw : ed.verify publicKey message signature = true
  · rw [if_pos hraw, hraw, Bool.true_or]
  · rw [if_neg hraw, Bool.eq_false_of_not_eq_true hraw, Bool.false_or]
    cases requiresCommitment message <;> rfl

end

end Parmana.Crypto

import Parmana.Crypto.SignatureCommitment
import Parmana.Sdk.Canonical

/-! # The signature checks of the SDKs

Both SDKs check the signature of a record offline, each with a limit, a prefix and
a fallback of its own.  They take the same signatures as the server: of all
canonical messages, the one that was signed (`signature_accepted_iff`).
-/
namespace Parmana.Sdk

open Js Crypto

variable (ed : Ed25519) (sha512 : List UInt8 → List UInt8)

/-! ## TypeScript -/

namespace Typescript

def KMS_RAW_MESSAGE_LIMIT_BYTES : Nat := 4096

def COMMITMENT_PREFIX : List UInt8 := JsString.utf8 "PARMANA-ED25519-LARGE-MESSAGE-V1\x00".toList

/-- `verifyEd25519`. -/
def verifyEd25519 (createPublicKey : List Char → Except JsString (KeyObject ed.PublicKey))
    (publicKeyPem : List Char) (signature message : List UInt8) : Except JsString Bool := do
  let publicKey ← createPublicKey publicKeyPem
  if publicKey.asymmetricKeyType ≠ "ed25519" then
    throw ("supplied public key is not an Ed25519 key" : JsString)
  if ed.verify publicKey.key message signature then
    return true
  -- a message over the limit may have been signed as a commitment
  if message.length ≤ KMS_RAW_MESSAGE_LIMIT_BYTES then
    return false
  return ed.verify publicKey.key (COMMITMENT_PREFIX ++ sha512 message) signature

/-- `signatureValid` of `verifySigned`: what `verifyEd25519` says, and false when it
throws. -/
def signatureValid (createPublicKey : List Char → Except JsString (KeyObject ed.PublicKey))
    (publicKeyPem value : List Char) (canonical : List UInt8) : Bool :=
  match verifyEd25519 ed sha512 createPublicKey publicKeyPem (Base64.decode value) canonical with
  | .ok valid => valid
  | .error _ => false

end Typescript

/-! ## Python -/

namespace Python

/-- What the check raises. -/
inductive Raised where
  | invalidSignature
  | exception (text : JsString)

def KMS_RAW_MESSAGE_LIMIT_BYTES : Nat := 4096

def COMMITMENT_PREFIX : List UInt8 := JsString.utf8 "PARMANA-ED25519-LARGE-MESSAGE-V1\x00".toList

/-- `_commitment_message`. -/
def commitmentMessage (message : List UInt8) : List UInt8 := COMMITMENT_PREFIX ++ sha512 message

/-- `public_key.verify(signature, message)`. -/
def verify (publicKey : ed.PublicKey) (signature message : List UInt8) : Except Raised Unit :=
  if ed.verify publicKey message signature then .ok () else .error .invalidSignature

/-- `_verify_ed25519_with_commitment`. -/
def verifyEd25519WithCommitment (publicKey : ed.PublicKey) (signature message : List UInt8) :
    Except Raised Unit :=
  match verify ed publicKey signature message with
  | .ok () => .ok ()
  | .error e =>
    if message.length ≤ KMS_RAW_MESSAGE_LIMIT_BYTES then .error e
    else verify ed publicKey signature (commitmentMessage sha512 message)

/-- The check of `verify_execution_trust_record_offline`: `loadPemPublicKey` raises,
or gives a key, which is an `Ed25519PublicKey` or not. -/
def checkSignature (loadPemPublicKey : List Char → Except Raised (Option ed.PublicKey))
    (publicKeyPem signatureValue : List Char) (message : List UInt8) : Except Raised Unit := do
  match ← loadPemPublicKey publicKeyPem with
  | none => throw (.exception "supplied public key is not an Ed25519 key")
  | some publicKey =>
    match Base64.decodePadded signatureValue with
    | none => throw (.exception "Incorrect padding")
    | some signatureBytes => verifyEd25519WithCommitment ed sha512 publicKey signatureBytes message

/-- `legacy_signature_valid`: set when nothing was raised. -/
def legacySignatureValid (loadPemPublicKey : List Char → Except Raised (Option ed.PublicKey))
    (publicKeyPem signatureValue : List Char) (message : List UInt8) : Bool :=
  match checkSignature ed sha512 loadPemPublicKey publicKeyPem signatureValue message with
  | .ok () => true
  | .error _ => false

end Python

/-! ## The messages -/

/-- A canonical message: what the server or one of the SDKs serializes. -/
def CanonicalMessage (message : List UInt8) : Prop :=
  (∃ value, serialize value = .ok message) ∨ (∃ value, message = Typescript.canonicalSerialize value) ∨
    ∃ value, message = Python.canonicalSerialize value

/-- The first character of a dumped value. -/
theorem dumps_head (v : PyJson) :
    ∃ c cs, Python.dumps v = c :: cs ∧ c.toNat < 0x80 ∧ c.toNat ≠ 0x50 := by
  cases v with
  | none => exact ⟨'n', _, rfl, by decide, by decide⟩
  | bool b => cases b <;> exact ⟨_, _, rfl, by decide, by decide⟩
  | int i =>
    obtain ⟨c, cs, hdigits⟩ := List.exists_cons_of_ne_nil
      (List.ne_nil_of_length_pos (Nat.length_toDigits_pos (b := 10) (n := i.natAbs)))
    have hc : c.isDigit = true :=
      JsNumber.allDigits_toDigits i.natAbs c (hdigits ▸ List.mem_cons_self)
    by_cases hi : i < 0
    · exact ⟨'-', _, if_pos hi, by decide, by decide⟩
    · refine ⟨c, cs, (if_neg hi).trans hdigits, JsNumber.digit_ascii hc, fun he => ?_⟩
      have hletter : c = 'P' := Char.toNat_inj.mp he
      rw [hletter] at hc
      exact absurd hc (by decide)
  | str s => exact ⟨Python.doubleQuote, _, rfl, by decide, by decide⟩
  | list xs => exact ⟨'[', _, rfl, by decide, by decide⟩
  | dict fs => exact ⟨Char.ofNat 0x7B, _, rfl, by decide, by decide⟩

theorem CanonicalMessage.not_commitment {message : List UInt8} (h : CanonicalMessage message) :
    ¬ IsCommitment sha512 message := by
  rcases h with ⟨value, h⟩ | ⟨value, rfl⟩ | ⟨value, rfl⟩
  · exact serialize_not_commitment h sha512
  · refine not_commitment_of_head ?_ sha512
    rw [Typescript.canonicalSerialize, Json.stringify_eq]
    exact render_head_ne _
  · refine not_commitment_of_head ?_ sha512
    obtain ⟨c, cs, hdumps, hascii, hne⟩ := dumps_head (Python.normalize value)
    rw [Python.canonicalSerialize, hdumps, JsString.utf8_head hascii]
    intro h
    have hnat := congrArg UInt8.toNat (Option.some.inj h)
    have hletter : (0x50 : UInt8).toNat = 0x50 := rfl
    rw [UInt8.toNat_ofNat', hletter] at hnat
    omega

/-! ## The three verifiers -/

section
variable {ed : Ed25519} {sha512 : List UInt8 → List UInt8} {publicKey : ed.PublicKey}
  {pem : List Char} {message : List UInt8}

theorem Typescript.signatureValid_eq
    {createPublicKey : List Char → Except JsString (KeyObject ed.PublicKey)}
    (hread : createPublicKey pem = .ok ⟨NODE_KEY_TYPE, publicKey⟩) (signature : List UInt8) :
    Typescript.signatureValid ed sha512 createPublicKey pem (Base64.encode signature) message =
      acceptsForm ed sha512 publicKey message signature := by
  have hverify : Typescript.verifyEd25519 ed sha512 createPublicKey pem signature message =
      if ed.verify publicKey message signature = true then Except.ok true
      else if message.length ≤ 4096 then .ok false
      else .ok (ed.verify publicKey (commitmentMessage sha512 message) signature) := by
    unfold Typescript.verifyEd25519
    rw [hread]
    rfl
  unfold Typescript.signatureValid acceptsForm
  rw [Base64.decode_encode, hverify]
  by_cases hraw : ed.verify publicKey message signature = true
  · rw [if_pos hraw, hraw, Bool.true_or]
  · rw [if_neg hraw, Bool.eq_false_of_not_eq_true hraw, Bool.false_or]
    by_cases hlimit : message.length ≤ 4096
    · have hsmall : requiresCommitment message = false := decide_eq_false (Nat.not_lt.mpr hlimit)
      rw [if_pos hlimit, hsmall, Bool.false_and]
    · have hlarge : requiresCommitment message = true := decide_eq_true (Nat.lt_of_not_le hlimit)
      rw [if_neg hlimit, hlarge, Bool.true_and]

theorem Python.verify_ok {signature : List UInt8} :
    Python.verify ed publicKey signature message = .ok () ↔
      ed.verify publicKey message signature = true := by
  unfold Python.verify
  split
  · rename_i hraw
    exact ⟨fun _ => hraw, fun _ => rfl⟩
  · rename_i hraw
    exact ⟨fun h => (nomatch h), fun h => absurd h hraw⟩

theorem Python.verifyEd25519WithCommitment_ok {signature : List UInt8} :
    Python.verifyEd25519WithCommitment ed sha512 publicKey signature message = .ok () ↔
      acceptsForm ed sha512 publicKey message signature = true := by
  unfold Python.verifyEd25519WithCommitment acceptsForm
  rw [Bool.or_eq_true, Bool.and_eq_true, ← Python.verify_ok, ← Python.verify_ok]
  cases Python.verify ed publicKey signature message with
  | ok u => exact ⟨fun _ => Or.inl rfl, fun _ => rfl⟩
  | error e =>
    by_cases hlimit : message.length ≤ 4096
    · have hsmall : requiresCommitment message = false := decide_eq_false (Nat.not_lt.mpr hlimit)
      rw [hsmall]
      constructor
      · intro h
        exact absurd ((if_pos hlimit).symm.trans h) (fun h => nomatch h)
      · rintro (h | ⟨h, -⟩) <;> exact nomatch h
    · have hlarge : requiresCommitment message = true := decide_eq_true (Nat.lt_of_not_le hlimit)
      rw [hlarge]
      constructor
      · intro h
        exact Or.inr ⟨rfl, (if_neg hlimit).symm.trans h⟩
      · rintro (h | ⟨-, h⟩)
        · exact nomatch h
        · exact (if_neg hlimit).trans h

theorem Python.legacySignatureValid_iff
    {loadPemPublicKey : List Char → Except Python.Raised (Option ed.PublicKey)}
    (hread : loadPemPublicKey pem = .ok (some publicKey)) (signature : List UInt8) :
    Python.legacySignatureValid ed sha512 loadPemPublicKey pem (Base64.encode signature) message =
      true ↔ acceptsForm ed sha512 publicKey message signature = true := by
  have hcheck : Python.checkSignature ed sha512 loadPemPublicKey pem (Base64.encode signature)
      message = Python.verifyEd25519WithCommitment ed sha512 publicKey signature message := by
    unfold Python.checkSignature
    rw [hread, Base64.decodePadded_encode]
    rfl
  unfold Python.legacySignatureValid
  rw [hcheck, ← Python.verifyEd25519WithCommitment_ok]
  split
  · rename_i h
    exact ⟨fun _ => h, fun _ => rfl⟩
  · rename_i e h
    rw [h]
    exact ⟨fun h => (nomatch h), fun h => (nomatch h)⟩

/-- **A signature is accepted for the message it was made over and for no other**, by
whichever signer it was made and on whichever side of the limit the two messages
are, by the server and by both SDKs. -/
theorem signature_accepted_iff {key : ed.PrivateKey} {keyId : JsString}
    {send : SignCommand → Except JsString (Option (List UInt8))}
    {getPrivateKey : JsString → Except JsString (KeyObject ed.PrivateKey)}
    {createPublicKey : List Char → Except JsString (KeyObject ed.PublicKey)}
    {loadPemPublicKey : List Char → Except Python.Raised (Option ed.PublicKey)}
    {signed : List UInt8} {signature : List Char}
    (hunforgeable : ed.Unforgeable key)
    (hsend : SignsWith ed send keyId key)
    (hfile : ∀ k, getPrivateKey keyId = .ok k → k.key = key)
    (hread : createPublicKey pem = .ok ⟨NODE_KEY_TYPE, ed.publicKey key⟩)
    (hload : loadPemPublicKey pem = .ok (some (ed.publicKey key)))
    (hcollision : sha512 message = sha512 signed → message = signed)
    (hmessage : CanonicalMessage message) (hsigned : CanonicalMessage signed)
    (hsign : KmsSigner.sign sha512 send keyId signed = .ok signature ∨
      LocalFileSigner.sign ed getPrivateKey keyId signed = .ok signature) :
    (Ed25519SignatureProvider.verify ed sha512 message signature
        ⟨NODE_KEY_TYPE, ed.publicKey key⟩ = .ok true ↔ message = signed) ∧
      (Typescript.signatureValid ed sha512 createPublicKey pem signature message = true ↔
        message = signed) ∧
      (Python.legacySignatureValid ed sha512 loadPemPublicKey pem signature message = true ↔
        message = signed) := by
  obtain ⟨form, hform, rfl⟩ : ∃ form, SignedForm sha512 signed form ∧
      signature = Base64.encode (ed.sign key form) := by
    rcases hsign with hsign | hsign
    · exact KmsSigner.sign_form hsend hsign
    · exact LocalFileSigner.sign_form hfile hsign
  have haccepts := acceptsForm_iff hunforgeable (hmessage.not_commitment sha512)
    (hsigned.not_commitment sha512) hcollision hform
  rw [Ed25519SignatureProvider.verify_eq, Typescript.signatureValid_eq hread,
    Python.legacySignatureValid_iff hload, Except.ok.injEq]
  exact ⟨haccepts, haccepts, haccepts⟩

end

/-- An Ed25519 whose signature of a message is the message. -/
def plainEd25519 : Ed25519 where
  PrivateKey := Unit
  PublicKey := Unit
  publicKey := id
  sign _ message := message
  verify _ message signature := message == signature

/-- A directory that holds its only key. -/
def plainKeyFile : JsString → Except JsString (KeyObject plainEd25519.PrivateKey) :=
  fun _ => .ok ⟨NODE_KEY_TYPE, ()⟩

/-! ## Messages above the limit -/

namespace Letters

/-- A text of so many letters, in canonical bytes. -/
def letters (n : Nat) : List UInt8 := 0x22 :: List.replicate n 0x61 ++ [0x22]

theorem letters_length (n : Nat) : (letters n).length = n + 2 := by simp [letters]

theorem serialize_letters (n : Nat) :
    serialize (.str ⟨List.replicate n 0x61⟩) = .ok (letters n) := by
  have hescape : JsString.escapeUnits (List.replicate n 0x61) = List.replicate n 0x61 := by
    induction n with
    | zero => rfl
    | succ n ih =>
      rw [List.replicate_succ, JsString.escapeUnits_cons (by decide), ih]
      rfl
  have hunits : ('"' :: List.replicate n 'a' ++ ['"']).flatMap utf16 =
      0x22 :: List.replicate n 0x61 ++ [0x22] := by
    rw [List.flatMap_append, List.flatMap_cons, List.flatMap_replicate]
    exact congrArg (fun us => 0x22 :: us ++ [0x22]) List.flatten_replicate_singleton
  have hbytes : JsString.utf8 ('"' :: List.replicate n 'a' ++ ['"']) = letters n := by
    rw [JsString.utf8, List.flatMap_append, List.flatMap_cons, List.flatMap_replicate]
    exact congrArg (fun us => 0x22 :: us ++ [0x22]) List.flatten_replicate_singleton
  have hencode : JsString.encode (JsString.quote ⟨List.replicate n 0x61⟩) = letters n := by
    rw [JsString.quote, hescape, ← hunits, JsString.encode, JsString.scalars_utf16, hbytes]
  exact congrArg Except.ok hencode

/-- SHA-512 of the two texts. -/
def digest (bytes : List UInt8) : List UInt8 :=
  match bytes.length with
  | 5002 => Base64.decode ("Ybt2TJCKoV4PPO7tsrsVgw/IJ+AyuKPbi+j5Ph9u" ++
    "m62mIW62ysBLesihvxpHvtgqBYGZDnrx/ze57tFa8AMWlQ==").toList
  | 5003 => Base64.decode ("VKfH/3edI8wlJr5/dbdVx52Dv+nJ4c+Umysej4Iq" ++
    "1MFEq6koPT4QIJ3nYjjHS5PX/lXqisVTuF24S5poGR4eXw==").toList
  | _ => []

/-- The service that holds the key. -/
def send (command : SignCommand) : Except JsString (Option (List UInt8)) := .ok (some command.Message)

/-- What it gives back for the first text. -/
def signature : List Char := Base64.encode (commitmentMessage digest (letters 5000))

theorem sign_letters : KmsSigner.sign digest send "default" (letters 5000) = .ok signature := by
  have hlarge : requiresCommitment (letters 5000) = true := by
    rw [requiresCommitment, letters_length]
    rfl
  unfold KmsSigner.sign
  rw [hlarge]
  rfl

theorem digest_letters : digest (letters 5001) ≠ digest (letters 5000) := by
  unfold digest
  rw [letters_length, letters_length]
  decide

end Letters

open Letters in
/-- A text of 5,000 letters is signed by the service: all three accept the signature for
it, and for no text of one letter more. -/
theorem signature_accepted_iff_kms :
    KmsSigner.sign digest send "default" (letters 5000) = .ok signature ∧
    ∀ n ∈ [5000, 5001],
      (Ed25519SignatureProvider.verify plainEd25519 digest (letters n) signature
          ⟨NODE_KEY_TYPE, ()⟩ = .ok true ↔ n = 5000) ∧
        (Typescript.signatureValid plainEd25519 digest (fun _ => .ok ⟨NODE_KEY_TYPE, ()⟩) []
          signature (letters n) = true ↔ n = 5000) ∧
        (Python.legacySignatureValid plainEd25519 digest (fun _ => .ok (some ())) []
          signature (letters n) = true ↔ n = 5000) := by
  refine ⟨sign_letters, fun n hn => ?_⟩
  have hunforgeable : plainEd25519.Unforgeable () := fun _ _ => beq_iff_eq
  have hsend : SignsWith plainEd25519 send "default" () := by
    rintro message _ ⟨⟩
    rfl
  have hfile : ∀ k, plainKeyFile "default" = .ok k → k.key = () := fun _ _ => rfl
  have hcollision : digest (letters n) = digest (letters 5000) → letters n = letters 5000 := by
    intro h
    rcases List.mem_pair.mp hn with rfl | rfl
    · rfl
    · exact absurd h digest_letters
  have hsame : letters n = letters 5000 ↔ n = 5000 := by
    refine ⟨fun h => ?_, congrArg letters⟩
    have hlength := congrArg List.length h
    rw [letters_length, letters_length] at hlength
    exact Nat.add_right_cancel hlength
  rw [← hsame]
  exact signature_accepted_iff hunforgeable hsend hfile rfl rfl hcollision
    (Or.inl ⟨_, serialize_letters n⟩) (Or.inl ⟨_, serialize_letters 5000⟩) (Or.inl sign_letters)

end Parmana.Sdk

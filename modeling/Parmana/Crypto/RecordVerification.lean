import Parmana.Crypto.SignatureCommitment
import Parmana.Crypto.TrustRecordStorage

/-! # Verifying a trust record, online and offline

The server verifies a trust record with the providers it is configured with; a third
party verifies it offline, with the provider each signature names.  Both recompute
the hash, check the signature every record has and, where a record carries a
`signatures` array, the two signatures in it.

They differ in one read.  The offline verifier dispatches on the algorithm the
record's own signature is labelled with, and the server never looks at that label.
**On a record labelled `ed25519` they agree; elsewhere they agree exactly where the
relabelled signature is accepted by neither** (`online_iff_offline`).
-/
namespace Parmana.Crypto
open Js

/-! ## Providers -/

/-- `SignatureProvider`, as a verifier uses it. -/
structure SignatureProvider (Key : Type) where
  algorithm : JsString
  verify : List UInt8 → List Char → KeyObject Key → Except JsString Bool

def Dilithium3SignatureProvider.NODE_KEY_TYPE : JsString := "ml-dsa-65"

section
variable (ed : Ed25519) (sha512 : List UInt8 → List UInt8)
  (mlDsa : ed.PublicKey → List UInt8 → List UInt8 → Bool)

/-- `Dilithium3SignatureProvider.verify`, `mlDsa` being the library's ML-DSA-65. -/
def Dilithium3SignatureProvider.verify (data : List UInt8) (signature : List Char)
    (publicKey : KeyObject ed.PublicKey) : Except JsString Bool := do
  assertKeyType publicKey Dilithium3SignatureProvider.NODE_KEY_TYPE "verify"
  return mlDsa publicKey.key data (Base64.decode signature)

/-- `new Ed25519SignatureProvider()`. -/
def ed25519Provider : SignatureProvider ed.PublicKey :=
  ⟨"ed25519", Ed25519SignatureProvider.verify ed sha512⟩

/-- `new Dilithium3SignatureProvider()`. -/
def dilithium3Provider : SignatureProvider ed.PublicKey :=
  ⟨"dilithium3", Dilithium3SignatureProvider.verify ed mlDsa⟩

/-- `signatureProviderFor`. -/
def signatureProviderFor (algorithm : JsString) : Option (SignatureProvider ed.PublicKey) :=
  if algorithm = "ed25519" then some (ed25519Provider ed sha512)
  else if algorithm = "dilithium3" then some (dilithium3Provider ed mlDsa)
  else none

end

/-- `TrustRecordHasher.hash`, with the digest in hexadecimal. -/
def TrustRecordHasher.hash (sha256 : List UInt8 → JsString) (value : Data) : Except JsString JsString :=
  (serialize value).map sha256

/-- `SignatureVerifier.verify`. -/
def SignatureVerifier.verify {Key : Type} (provider : SignatureProvider Key) (artifact : Data)
    (signature : List Char) (publicKey : KeyObject Key) : Except JsString Bool := do
  let bytes ← serialize artifact
  provider.verify bytes signature publicKey

/-! ## Records -/

/-- `Signature`. -/
structure Signature where
  algorithm : JsString
  keyId : JsString
  value : List Char

/-- `SignatureEntry`. -/
structure SignatureEntry where
  algorithm : JsString
  keyId : JsString
  signature : List Char
  deriving DecidableEq

/-- An Execution Trust Record as a verifier reads it: the object the canonical views
are taken of, and the members that say how it was signed. -/
structure SignedTrustRecord where
  object : Data
  trustRecordHash : JsString
  signature : Signature
  schemaVersion : Option JsNumber
  signatures : Option (List SignatureEntry)

/-- `HYBRID_SCHEMA_VERSION`. -/
def HYBRID_SCHEMA_VERSION : JsNumber := JsNumber.ofNat 2

namespace SignedTrustRecord
variable (trustRecord : SignedTrustRecord)

/-- `canonicalRecord`. -/
def canonical : Data := canonicalExecutionTrustRecord trustRecord.object

/-- `hybridCanonicalRecord`, for the version the record states. -/
def hybridCanonical : Data :=
  hybridCanonicalExecutionTrustRecord trustRecord.object
    (trustRecord.schemaVersion.getD HYBRID_SCHEMA_VERSION)

end SignedTrustRecord

/-! ## Online -/

/-- `HybridCryptoProvider`. -/
structure HybridCryptoProvider (Key : Type) where
  primary : SignatureProvider Key
  secondary : SignatureProvider Key

/-- `HybridSignatureProvider.verify`.  Two entries that are found for different
algorithms are different entries. -/
def HybridSignatureProvider.verify {Key : Type} (crypto : HybridCryptoProvider Key)
    (getPublicKey : JsString → Except JsString (KeyObject Key)) (artifact : Data)
    (signatures : List SignatureEntry) : Except JsString Bool := do
  if signatures.length ≠ 2 then
    return false
  let primaryEntry := signatures.find? fun entry => decide (entry.algorithm = crypto.primary.algorithm)
  let secondaryEntry :=
    signatures.find? fun entry => decide (entry.algorithm = crypto.secondary.algorithm)
  match primaryEntry, secondaryEntry with
  | some primaryEntry, some secondaryEntry =>
    if primaryEntry = secondaryEntry then
      return false
    let primaryPublicKey ← getPublicKey primaryEntry.keyId
    let secondaryPublicKey ← getPublicKey secondaryEntry.keyId
    let primaryVerified ←
      SignatureVerifier.verify crypto.primary artifact primaryEntry.signature primaryPublicKey
    let secondaryVerified ←
      SignatureVerifier.verify crypto.secondary artifact secondaryEntry.signature secondaryPublicKey
    return primaryVerified && secondaryVerified
  | _, _ => return false

/-- `VerificationCrypto`, with what it is configured with: its provider, the hybrid
providers if there are any, and where the signer and the hybrid mode find keys. -/
structure VerificationCrypto (Key : Type) where
  sha256 : List UInt8 → JsString
  crypto : SignatureProvider Key
  createHybrid : Except JsString (HybridCryptoProvider Key)
  requireHybridSignature : Bool
  signerPublicKey : JsString → Except JsString (KeyObject Key)
  hybridPublicKey : JsString → Except JsString (KeyObject Key)

namespace VerificationCrypto
variable {Key : Type} (self : VerificationCrypto Key)

/-- `verifySignature`. -/
def verifySignature (trustRecord : SignedTrustRecord) : Except JsString Bool := do
  let publicKey ← self.signerPublicKey trustRecord.signature.keyId
  let legacyVerified ←
    SignatureVerifier.verify self.crypto trustRecord.canonical trustRecord.signature.value publicKey
  match trustRecord.signatures.getD [] with
  | [] => return !self.requireHybridSignature && legacyVerified
  | signatures =>
    let hybrid ← self.createHybrid
    let hybridVerified ← HybridSignatureProvider.verify hybrid self.hybridPublicKey
      trustRecord.hybridCanonical signatures
    return legacyVerified && hybridVerified

/-- `verify`. -/
def verify (trustRecord : SignedTrustRecord) : Except JsString Bool := do
  let expectedHash ← TrustRecordHasher.hash self.sha256 trustRecord.canonical
  if expectedHash ≠ trustRecord.trustRecordHash then
    return false
  self.verifySignature trustRecord

end VerificationCrypto

/-! ## Offline -/

/-- `algorithmsChecked` and `errors`, as they are filled. -/
structure Checked where
  algorithmsChecked : List JsString
  errors : List JsString

/-- `errors.push(text)`. -/
def Checked.error (checked : Checked) (text : JsString) : Checked :=
  { checked with errors := checked.errors ++ [text] }

/-- `OfflineVerificationResult`. -/
structure OfflineVerificationResult where
  valid : Bool
  hashValid : Bool
  legacySignatureValid : Bool
  hybridSignaturesValid : Option Bool
  algorithmsChecked : List JsString
  errors : List JsString

/-- What the offline verifier is given, and the library it runs on: how each
algorithm verifies, how a key is read, and the keys. -/
structure OfflineVerifier (Key : Type) where
  sha256 : List UInt8 → JsString
  signatureProviderFor : JsString → Option (SignatureProvider Key)
  createPublicKey : JsString → Except JsString (KeyObject Key)
  publicKeys : JsString → Option JsString

namespace OfflineVerifier
variable {Key : Type} (self : OfflineVerifier Key)

/-- The end of a text about one entry. -/
def about (entry : SignatureEntry) : JsString :=
  ("keyId \"" : JsString) ++ entry.keyId ++ ("\" (" : JsString) ++ entry.algorithm ++ (")" : JsString)

/-- `verifyOneEntry`. -/
def verifyOneEntry (entry : SignatureEntry) (artifact : Data) (checked : Checked) : Bool × Checked :=
  match self.signatureProviderFor entry.algorithm with
  | none => (false, checked.error (("unsupported algorithm: " : JsString) ++ entry.algorithm ++
      ("." : JsString)))
  | some signatureProvider =>
    match (self.publicKeys entry.keyId).filter fun pem => !pem.isEmpty with
    | none => (false, checked.error (("no public key supplied for keyId \"" : JsString) ++
        entry.keyId ++ ("\"." : JsString)))
    | some publicKeyPem =>
      let checked :=
        { checked with algorithmsChecked := checked.algorithmsChecked ++ [entry.algorithm] }
      match (do
        let publicKey ← self.createPublicKey publicKeyPem
        SignatureVerifier.verify signatureProvider artifact entry.signature publicKey) with
      | .ok true => (true, checked)
      | .ok false => (false, checked.error (("signature verification failed for " : JsString) ++
          about entry ++ ("." : JsString)))
      | .error message => (false, checked.error (("error verifying " : JsString) ++ about entry ++
          (": " : JsString) ++ message))

/-- The loop over `trustRecord.signatures`. -/
def verifyEntries (artifact : Data) :
    List SignatureEntry → List JsString → Bool → Checked → Bool × Checked
  | [], _, allValid, checked => (allValid, checked)
  | entry :: entries, seenAlgorithms, allValid, checked =>
    if entry.algorithm ∈ seenAlgorithms then
      verifyEntries artifact entries seenAlgorithms false (checked.error
        (("duplicate algorithm in signatures array: " : JsString) ++ entry.algorithm ++
          ("." : JsString)))
    else
      let (entryValid, checked) := self.verifyOneEntry entry artifact checked
      verifyEntries artifact entries (entry.algorithm :: seenAlgorithms) (allValid && entryValid)
        checked

/-- The check of a `signatures` array. -/
def verifyHybrid (artifact : Data) (signatures : List SignatureEntry) (checked : Checked) :
    Bool × Checked :=
  if 2 ≤ signatures.length then self.verifyEntries artifact signatures [] true checked
  else self.verifyEntries artifact signatures [] false (checked.error
    (("signatures array has " : JsString) ++ JsString.ofNat signatures.length ++
      (" entr" : JsString) ++ (if signatures.length = 1 then ("y" : JsString) else "ies") ++
      (", need at least 2 for a hybrid record." : JsString)))

/-- `verifyExecutionTrustRecordOffline`. -/
def verifyExecutionTrustRecordOffline (trustRecord : SignedTrustRecord) :
    Except JsString OfflineVerificationResult := do
  let expectedHash ← TrustRecordHasher.hash self.sha256 trustRecord.canonical
  let hashValid := decide (expectedHash = trustRecord.trustRecordHash)
  let checked : Checked := if hashValid then ⟨[], []⟩ else ⟨[],
    [("trustRecordHash mismatch: expected " : JsString) ++ expectedHash ++ (", got " : JsString) ++
      trustRecord.trustRecordHash ++ ("." : JsString)]⟩
  let (legacySignatureValid, checked) := self.verifyOneEntry
    ⟨trustRecord.signature.algorithm, trustRecord.signature.keyId, trustRecord.signature.value⟩
    trustRecord.canonical checked
  match trustRecord.signatures.getD [] with
  | [] => return {
      valid := hashValid && legacySignatureValid
      hashValid
      legacySignatureValid
      hybridSignaturesValid := none
      algorithmsChecked := checked.algorithmsChecked
      errors := checked.errors }
  | signatures =>
    let (hybridSignaturesValid, checked) :=
      self.verifyHybrid trustRecord.hybridCanonical signatures checked
    return {
      valid := hashValid && legacySignatureValid && hybridSignaturesValid
      hashValid
      legacySignatureValid
      hybridSignaturesValid := some hybridSignaturesValid
      algorithmsChecked := checked.algorithmsChecked
      errors := checked.errors }

end OfflineVerifier

/-! ## What each of them accepts -/

/-- A provider accepts the signature with the key of a key id. -/
def Signs {Key : Type} (provider : SignatureProvider Key)
    (publicKey : JsString → Except JsString (KeyObject Key)) (artifact : Data) (keyId : JsString)
    (signature : List Char) : Prop :=
  ∃ key, publicKey keyId = .ok key ∧ SignatureVerifier.verify provider artifact signature key = .ok true

/-- Two entries, in either order, one for each algorithm of a hybrid signature, and
both accepted. -/
def SignsHybrid {Key : Type} (crypto : HybridCryptoProvider Key)
    (publicKey : JsString → Except JsString (KeyObject Key)) (artifact : Data)
    (signatures : List SignatureEntry) : Prop :=
  ∃ p s, (signatures = [p, s] ∨ signatures = [s, p]) ∧
    p.algorithm = crypto.primary.algorithm ∧ s.algorithm = crypto.secondary.algorithm ∧
    Signs crypto.primary publicKey artifact p.keyId p.signature ∧
    Signs crypto.secondary publicKey artifact s.keyId s.signature

section Online
variable {Key : Type} {crypto : HybridCryptoProvider Key}
  {getPublicKey : JsString → Except JsString (KeyObject Key)} {artifact : Data}

/-- Two found entries pass when both signatures do. -/
theorem both_iff {primaryEntry secondaryEntry : SignatureEntry} :
    (do
      let primaryPublicKey ← getPublicKey primaryEntry.keyId
      let secondaryPublicKey ← getPublicKey secondaryEntry.keyId
      let primaryVerified ←
        SignatureVerifier.verify crypto.primary artifact primaryEntry.signature primaryPublicKey
      let secondaryVerified ←
        SignatureVerifier.verify crypto.secondary artifact secondaryEntry.signature secondaryPublicKey
      return primaryVerified && secondaryVerified : Except JsString Bool) = .ok true ↔
    Signs crypto.primary getPublicKey artifact primaryEntry.keyId primaryEntry.signature ∧
      Signs crypto.secondary getPublicKey artifact secondaryEntry.keyId secondaryEntry.signature := by
  unfold Signs
  cases getPublicKey primaryEntry.keyId with
  | error e => simp [Bind.bind, Except.bind]
  | ok primaryPublicKey =>
    cases getPublicKey secondaryEntry.keyId with
    | error e => simp [Bind.bind, Except.bind]
    | ok secondaryPublicKey =>
      cases hprimary :
          SignatureVerifier.verify crypto.primary artifact primaryEntry.signature primaryPublicKey with
      | error e => simp [hprimary, Bind.bind, Except.bind]
      | ok primaryVerified =>
        cases hsecondary : SignatureVerifier.verify crypto.secondary artifact
            secondaryEntry.signature secondaryPublicKey with
        | error e => simp [hprimary, hsecondary, Bind.bind, Except.bind]
        | ok secondaryVerified =>
          simp [hprimary, hsecondary, Bind.bind, Except.bind, pure, Except.pure]

theorem signsHybrid_pair {p s : SignatureEntry}
    (hne : crypto.primary.algorithm ≠ crypto.secondary.algorithm)
    (hp : p.algorithm = crypto.primary.algorithm) (hs : s.algorithm = crypto.secondary.algorithm)
    {signatures : List SignatureEntry} (h : signatures = [p, s] ∨ signatures = [s, p]) :
    SignsHybrid crypto getPublicKey artifact signatures ↔
      Signs crypto.primary getPublicKey artifact p.keyId p.signature ∧
        Signs crypto.secondary getPublicKey artifact s.keyId s.signature := by
  constructor
  · rintro ⟨p', s', horder, hp', hs', hboth⟩
    have hsame : p' = p ∧ s' = s := by
      rcases h with rfl | rfl <;> rcases horder with horder | horder <;> cases horder
      · exact ⟨rfl, rfl⟩
      · exact absurd (hp'.symm.trans hs) hne
      · exact absurd (hp'.symm.trans hs) hne
      · exact ⟨rfl, rfl⟩
    rw [hsame.1, hsame.2] at hboth
    exact hboth
  · rintro hboth
    exact ⟨p, s, h, hp, hs, hboth⟩

theorem find_algorithm {algorithm : JsString} {signatures : List SignatureEntry} {e : SignatureEntry}
    (h : (signatures.find? fun entry => decide (entry.algorithm = algorithm)) = some e) :
    e ∈ signatures ∧ e.algorithm = algorithm := by
  have hfound := List.find?_some h
  exact ⟨List.mem_of_find?_eq_some h, of_decide_eq_true hfound⟩

theorem find_algorithm_none {algorithm : JsString} {signatures : List SignatureEntry}
    (h : (signatures.find? fun entry => decide (entry.algorithm = algorithm)) = none) :
    ∀ e ∈ signatures, e.algorithm ≠ algorithm :=
  fun e he => of_decide_eq_false (Bool.eq_false_of_not_eq_true (List.find?_eq_none.mp h e he))

theorem HybridSignatureProvider.verify_iff
    (hne : crypto.primary.algorithm ≠ crypto.secondary.algorithm) {signatures : List SignatureEntry} :
    HybridSignatureProvider.verify crypto getPublicKey artifact signatures = .ok true ↔
      SignsHybrid crypto getPublicKey artifact signatures := by
  unfold HybridSignatureProvider.verify
  have hmem : ∀ {p s : SignatureEntry}, signatures = [p, s] ∨ signatures = [s, p] →
      p ∈ signatures ∧ s ∈ signatures := by
    rintro p s (rfl | rfl) <;> simp
  by_cases hlength : signatures.length = 2
  · rw [if_neg (not_not_intro hlength)]
    cases hprimary : signatures.find? fun entry => decide (entry.algorithm = crypto.primary.algorithm) with
    | none =>
      constructor
      · rintro ⟨⟩
      · rintro ⟨p, s, horder, hp, -⟩
        exact absurd hp (find_algorithm_none hprimary p (hmem horder).1)
    | some p =>
      cases hsecondary :
          signatures.find? fun entry => decide (entry.algorithm = crypto.secondary.algorithm) with
      | none =>
        constructor
        · rintro ⟨⟩
        · rintro ⟨_, s, horder, -, hs, -⟩
          exact absurd hs (find_algorithm_none hsecondary s (hmem horder).2)
      | some s =>
        obtain ⟨hpmem, hp⟩ := find_algorithm hprimary
        obtain ⟨hsmem, hs⟩ := find_algorithm hsecondary
        have hdifferent : p ≠ s := fun h => hne (hp.symm.trans ((congrArg _ h).trans hs))
        have horder : signatures = [p, s] ∨ signatures = [s, p] := by
          obtain ⟨a, b, rfl⟩ := List.length_eq_two.mp hlength
          simp only [List.mem_cons, List.not_mem_nil, or_false] at hpmem hsmem
          rcases hpmem with rfl | rfl <;> rcases hsmem with rfl | rfl
          · exact absurd rfl hdifferent
          · exact Or.inl rfl
          · exact Or.inr rfl
          · exact absurd rfl hdifferent
        rw [signsHybrid_pair hne hp hs horder, ← both_iff]
        dsimp only
        rw [if_neg hdifferent]
  · rw [if_pos hlength]
    constructor
    · rintro ⟨⟩
    · rintro ⟨p, s, rfl | rfl, -⟩
      · exact absurd rfl hlength
      · exact absurd rfl hlength

/-- The record's own signature, and its hybrid signatures where it has any. -/
theorem VerificationCrypto.verifySignature_iff {self : VerificationCrypto Key}
    (hhybrid : self.createHybrid = .ok crypto)
    (hne : crypto.primary.algorithm ≠ crypto.secondary.algorithm)
    (hoff : self.requireHybridSignature = false) {trustRecord : SignedTrustRecord} :
    self.verifySignature trustRecord = .ok true ↔
      Signs self.crypto self.signerPublicKey trustRecord.canonical trustRecord.signature.keyId
          trustRecord.signature.value ∧
        (trustRecord.signatures.getD [] = [] ∨ SignsHybrid crypto self.hybridPublicKey
          trustRecord.hybridCanonical (trustRecord.signatures.getD [])) := by
  unfold VerificationCrypto.verifySignature Signs
  cases self.signerPublicKey trustRecord.signature.keyId with
  | error e => simp [Bind.bind, Except.bind]
  | ok publicKey =>
    cases hlegacy : SignatureVerifier.verify self.crypto trustRecord.canonical
        trustRecord.signature.value publicKey with
    | error e => simp [hlegacy, Bind.bind, Except.bind]
    | ok legacyVerified =>
      have hsigned : (∃ key, (Except.ok publicKey : Except JsString _) = .ok key ∧
          SignatureVerifier.verify self.crypto trustRecord.canonical trustRecord.signature.value key =
            .ok true) ↔ legacyVerified = true := by
        constructor
        · rintro ⟨_, ⟨⟩, h⟩
          exact Except.ok.inj (hlegacy.symm.trans h)
        · rintro rfl
          exact ⟨publicKey, rfl, hlegacy⟩
      rw [hsigned]
      cases trustRecord.signatures.getD [] with
      | nil => simp [hoff, hlegacy, Bind.bind, Except.bind, pure, Except.pure]
      | cons entry entries =>
        rw [← HybridSignatureProvider.verify_iff hne]
        cases hverify : HybridSignatureProvider.verify crypto self.hybridPublicKey
            trustRecord.hybridCanonical (entry :: entries) with
        | error e => simp [hlegacy, hhybrid, hverify, Bind.bind, Except.bind]
        | ok hybridVerified =>
          simp [hlegacy, hhybrid, hverify, Bind.bind, Except.bind, pure, Except.pure]

/-- What the server accepts. -/
theorem VerificationCrypto.verify_iff {self : VerificationCrypto Key}
    (hhybrid : self.createHybrid = .ok crypto)
    (hne : crypto.primary.algorithm ≠ crypto.secondary.algorithm)
    (hoff : self.requireHybridSignature = false) {trustRecord : SignedTrustRecord} :
    self.verify trustRecord = .ok true ↔
      TrustRecordHasher.hash self.sha256 trustRecord.canonical = .ok trustRecord.trustRecordHash ∧
        Signs self.crypto self.signerPublicKey trustRecord.canonical trustRecord.signature.keyId
          trustRecord.signature.value ∧
        (trustRecord.signatures.getD [] = [] ∨ SignsHybrid crypto self.hybridPublicKey
          trustRecord.hybridCanonical (trustRecord.signatures.getD [])) := by
  unfold VerificationCrypto.verify
  cases TrustRecordHasher.hash self.sha256 trustRecord.canonical with
  | error e => simp [Bind.bind, Except.bind]
  | ok expectedHash =>
    rw [Except.ok.injEq]
    change (if expectedHash ≠ trustRecord.trustRecordHash then Except.ok false
      else self.verifySignature trustRecord) = .ok true ↔ _
    by_cases hhash : expectedHash = trustRecord.trustRecordHash
    · rw [if_neg (not_not_intro hhash), and_iff_right hhash, verifySignature_iff hhybrid hne hoff]
    · rw [if_pos hhash]
      constructor
      · rintro ⟨⟩
      · rintro ⟨h, -⟩
        exact absurd h hhash

end Online

section Offline
variable {Key : Type} {self : OfflineVerifier Key} {artifact : Data}

/-- The key the caller supplied for a key id. -/
def OfflineVerifier.publicKey (self : OfflineVerifier Key) (keyId : JsString) :
    Except JsString (KeyObject Key) :=
  match (self.publicKeys keyId).filter fun pem => !pem.isEmpty with
  | none => .error ("no public key supplied" : JsString)
  | some publicKeyPem => self.createPublicKey publicKeyPem

/-- An entry names an algorithm that is supported and accepts its signature. -/
def OfflineVerifier.Accepts (self : OfflineVerifier Key) (artifact : Data) (algorithm keyId : JsString)
    (signature : List Char) : Prop :=
  ∃ provider, self.signatureProviderFor algorithm = some provider ∧
    Signs provider self.publicKey artifact keyId signature

theorem OfflineVerifier.verifyOneEntry_iff {entry : SignatureEntry} {checked : Checked} :
    (self.verifyOneEntry entry artifact checked).1 = true ↔
      self.Accepts artifact entry.algorithm entry.keyId entry.signature := by
  unfold OfflineVerifier.verifyOneEntry OfflineVerifier.Accepts Signs OfflineVerifier.publicKey
  cases self.signatureProviderFor entry.algorithm with
  | none => simp
  | some provider =>
    cases (self.publicKeys entry.keyId).filter fun pem => !pem.isEmpty with
    | none => simp
    | some publicKeyPem =>
      dsimp only
      cases self.createPublicKey publicKeyPem with
      | error e => simp [Bind.bind, Except.bind]
      | ok key =>
        cases hverify : SignatureVerifier.verify provider artifact entry.signature key with
        | error e => simp [hverify, Bind.bind, Except.bind]
        | ok verified => cases verified <;> simp [hverify, Bind.bind, Except.bind]

/-- Every entry is accepted, and no algorithm comes twice. -/
theorem OfflineVerifier.verifyEntries_iff {entries : List SignatureEntry} :
    ∀ {seenAlgorithms : List JsString} {allValid : Bool} {checked : Checked},
      (self.verifyEntries artifact entries seenAlgorithms allValid checked).1 = true ↔
        allValid = true ∧ (∀ e ∈ entries, e.algorithm ∉ seenAlgorithms) ∧
          (entries.map SignatureEntry.algorithm).Nodup ∧
          ∀ e ∈ entries, self.Accepts artifact e.algorithm e.keyId e.signature := by
  induction entries with
  | nil => simp [OfflineVerifier.verifyEntries]
  | cons entry entries ih =>
    intro seenAlgorithms allValid checked
    rw [OfflineVerifier.verifyEntries]
    split
    · rename_i hseen
      rw [ih]
      constructor
      · rintro ⟨⟨⟩, -⟩
      · rintro ⟨-, hnew, -⟩
        exact absurd hseen (hnew entry List.mem_cons_self)
    · rename_i hseen
      dsimp only
      rw [ih, Bool.and_eq_true, verifyOneEntry_iff]
      simp only [List.mem_cons, List.map_cons, List.nodup_cons, List.mem_map, forall_eq_or_imp,
        not_or, not_exists, not_and]
      constructor
      · rintro ⟨⟨hall, hentry⟩, hnew, hnodup, haccepts⟩
        exact ⟨hall, ⟨hseen, fun e he => (hnew e he).2⟩, ⟨fun e he => (hnew e he).1, hnodup⟩,
          hentry, haccepts⟩
      · rintro ⟨hall, ⟨-, hnew⟩, ⟨hfirst, hnodup⟩, hentry, haccepts⟩
        exact ⟨⟨hall, hentry⟩, fun e he => ⟨hfirst e he, hnew e he⟩, hnodup, haccepts⟩

/-- The hybrid signatures. -/
theorem OfflineVerifier.verifyHybrid_iff {signatures : List SignatureEntry} {checked : Checked} :
    (self.verifyHybrid artifact signatures checked).1 = true ↔
      2 ≤ signatures.length ∧ (signatures.map SignatureEntry.algorithm).Nodup ∧
        ∀ e ∈ signatures, self.Accepts artifact e.algorithm e.keyId e.signature := by
  unfold OfflineVerifier.verifyHybrid
  split
  · rename_i hlength
    rw [verifyEntries_iff]
    simp [hlength]
  · rename_i hlength
    rw [verifyEntries_iff]
    simp [hlength]

/-- What the offline verifier calls valid. -/
theorem OfflineVerifier.valid_iff {trustRecord : SignedTrustRecord} :
    (∃ result, self.verifyExecutionTrustRecordOffline trustRecord = .ok result ∧
        result.valid = true) ↔
      TrustRecordHasher.hash self.sha256 trustRecord.canonical = .ok trustRecord.trustRecordHash ∧
        self.Accepts trustRecord.canonical trustRecord.signature.algorithm
          trustRecord.signature.keyId trustRecord.signature.value ∧
        (trustRecord.signatures.getD [] = [] ∨
          2 ≤ (trustRecord.signatures.getD []).length ∧
          ((trustRecord.signatures.getD []).map SignatureEntry.algorithm).Nodup ∧
          ∀ e ∈ trustRecord.signatures.getD [],
            self.Accepts trustRecord.hybridCanonical e.algorithm e.keyId e.signature) := by
  unfold OfflineVerifier.verifyExecutionTrustRecordOffline
  cases TrustRecordHasher.hash self.sha256 trustRecord.canonical with
  | error e => simp [Bind.bind, Except.bind]
  | ok expectedHash =>
    simp only [Bind.bind, Except.bind, Except.ok.injEq]
    cases trustRecord.signatures.getD [] with
    | nil =>
      simp [pure, Except.pure, verifyOneEntry_iff]
    | cons entry entries =>
      simp [pure, Except.pure, verifyOneEntry_iff, verifyHybrid_iff, and_assoc]

end Offline

/-! ## Agreement -/

section Agreement
variable {ed : Ed25519} {sha512 : List UInt8 → List UInt8}
  {mlDsa : ed.PublicKey → List UInt8 → List UInt8 → Bool}

theorem assertKeyType_ok {Key : Type} {key : KeyObject Key} {expected operation : JsString}
    {u : Unit} (h : assertKeyType key expected operation = .ok u) :
    key.asymmetricKeyType = expected := by
  unfold assertKeyType at h
  split at h
  · cases h
  · rename_i hsame
    exact not_not.mp hsame

theorem ed25519_keyType {artifact : Data} {signature : List Char} {key : KeyObject ed.PublicKey}
    (h : SignatureVerifier.verify (ed25519Provider ed sha512) artifact signature key = .ok true) :
    key.asymmetricKeyType = NODE_KEY_TYPE := by
  unfold SignatureVerifier.verify at h
  cases hbytes : serialize artifact with
  | error e =>
    rw [hbytes] at h
    cases h
  | ok bytes =>
    rw [hbytes] at h
    change Ed25519SignatureProvider.verify ed sha512 bytes signature key = .ok true at h
    unfold Ed25519SignatureProvider.verify at h
    cases htype : assertKeyType key NODE_KEY_TYPE "verify" with
    | error e =>
      rw [htype] at h
      cases h
    | ok u => exact assertKeyType_ok htype

theorem dilithium3_keyType {artifact : Data} {signature : List Char} {key : KeyObject ed.PublicKey}
    (h : SignatureVerifier.verify (dilithium3Provider ed mlDsa) artifact signature key = .ok true) :
    key.asymmetricKeyType = Dilithium3SignatureProvider.NODE_KEY_TYPE := by
  unfold SignatureVerifier.verify at h
  cases hbytes : serialize artifact with
  | error e =>
    rw [hbytes] at h
    cases h
  | ok bytes =>
    rw [hbytes] at h
    change Dilithium3SignatureProvider.verify ed mlDsa bytes signature key = .ok true at h
    unfold Dilithium3SignatureProvider.verify at h
    cases htype : assertKeyType key Dilithium3SignatureProvider.NODE_KEY_TYPE "verify" with
    | error e =>
      rw [htype] at h
      cases h
    | ok u => exact assertKeyType_ok htype

/-- A key is of one type: no signature passes under both algorithms. -/
theorem not_both {publicKey : JsString → Except JsString (KeyObject ed.PublicKey)}
    {artifact : Data} {keyId : JsString} {signature : List Char}
    (h : Signs (ed25519Provider ed sha512) publicKey artifact keyId signature)
    (h' : Signs (dilithium3Provider ed mlDsa) publicKey artifact keyId signature) : False := by
  obtain ⟨key, hkey, hverify⟩ := h
  obtain ⟨key', hkey', hverify'⟩ := h'
  obtain rfl := Except.ok.inj (hkey.symm.trans hkey')
  have htypes := (ed25519_keyType hverify).symm.trans (dilithium3_keyType hverify')
  exact absurd htypes (by decide)

theorem Signs.congr {Key : Type} {provider : SignatureProvider Key}
    {publicKey publicKey' : JsString → Except JsString (KeyObject Key)}
    (hkeys : ∀ keyId key, publicKey keyId = .ok key ↔ publicKey' keyId = .ok key)
    {artifact : Data} {keyId : JsString} {signature : List Char} :
    Signs provider publicKey artifact keyId signature ↔
      Signs provider publicKey' artifact keyId signature := by
  unfold Signs
  simp only [hkeys]

/-- The two algorithms there are. -/
theorem signatureProviderFor_iff {algorithm : JsString} {provider : SignatureProvider ed.PublicKey} :
    signatureProviderFor ed sha512 mlDsa algorithm = some provider ↔
      algorithm = "ed25519" ∧ provider = ed25519Provider ed sha512 ∨
        algorithm = "dilithium3" ∧ provider = dilithium3Provider ed mlDsa := by
  have hne : ("dilithium3" : JsString) ≠ "ed25519" := by decide
  unfold signatureProviderFor
  split
  · rename_i h
    simp [h, hne.symm, eq_comm]
  · rename_i h
    split
    · rename_i h'
      simp [h', hne, eq_comm]
    · rename_i h'
      simp [h, h']

variable (ed sha512 mlDsa) in
/-- The hybrid providers of the configuration. -/
def hybridProviders : HybridCryptoProvider ed.PublicKey :=
  ⟨ed25519Provider ed sha512, dilithium3Provider ed mlDsa⟩

theorem hybridProviders_ne :
    (hybridProviders ed sha512 mlDsa).primary.algorithm ≠
      (hybridProviders ed sha512 mlDsa).secondary.algorithm := by
  show ("ed25519" : JsString) ≠ "dilithium3"
  decide

/-- Where each algorithm comes once and every entry is accepted, there are two
entries, one for each algorithm. -/
theorem signsHybrid_iff {self : OfflineVerifier ed.PublicKey}
    (hself : self.signatureProviderFor = signatureProviderFor ed sha512 mlDsa) {artifact : Data}
    {signatures : List SignatureEntry} :
    SignsHybrid (hybridProviders ed sha512 mlDsa) self.publicKey artifact signatures ↔
      2 ≤ signatures.length ∧ (signatures.map SignatureEntry.algorithm).Nodup ∧
        ∀ e ∈ signatures, self.Accepts artifact e.algorithm e.keyId e.signature := by
  have hed : ("ed25519" : JsString) ≠ "dilithium3" := by decide
  unfold OfflineVerifier.Accepts
  rw [hself]
  simp only [signatureProviderFor_iff]
  constructor
  · rintro ⟨p, s, horder, hp, hs, hsp, hss⟩
    change p.algorithm = "ed25519" at hp
    change s.algorithm = "dilithium3" at hs
    rcases horder with rfl | rfl
    · refine ⟨le_rfl, by simp [hp, hs, hed], fun e he => ?_⟩
      simp only [List.mem_cons, List.not_mem_nil, or_false] at he
      rcases he with rfl | rfl
      · exact ⟨_, Or.inl ⟨hp, rfl⟩, hsp⟩
      · exact ⟨_, Or.inr ⟨hs, rfl⟩, hss⟩
    · refine ⟨le_rfl, by simp [hp, hs, hed.symm], fun e he => ?_⟩
      simp only [List.mem_cons, List.not_mem_nil, or_false] at he
      rcases he with rfl | rfl
      · exact ⟨_, Or.inr ⟨hs, rfl⟩, hss⟩
      · exact ⟨_, Or.inl ⟨hp, rfl⟩, hsp⟩
  · rintro ⟨hlength, hnodup, haccepts⟩
    have halgorithm : ∀ e ∈ signatures,
        e.algorithm = "ed25519" ∧
            Signs (ed25519Provider ed sha512) self.publicKey artifact e.keyId e.signature ∨
          e.algorithm = "dilithium3" ∧
            Signs (dilithium3Provider ed mlDsa) self.publicKey artifact e.keyId e.signature := by
      intro e he
      obtain ⟨provider, ⟨h, rfl⟩ | ⟨h, rfl⟩, hsigns⟩ := haccepts e he
      · exact Or.inl ⟨h, hsigns⟩
      · exact Or.inr ⟨h, hsigns⟩
    match signatures with
    | a :: b :: rest =>
      simp only [List.map_cons, List.nodup_cons, List.mem_cons, List.mem_map, not_or, not_exists,
        not_and] at hnodup
      obtain ⟨⟨hab, harest⟩, hbrest, -⟩ := hnodup
      have hrest : rest = [] := by
        -- a third entry would repeat one of the two algorithms
        refine List.eq_nil_iff_forall_not_mem.mpr fun c hc => ?_
        have hca := harest c hc
        have hcb := hbrest c hc
        rcases halgorithm a (by simp) with ⟨ha, -⟩ | ⟨ha, -⟩ <;>
          rcases halgorithm b (by simp) with ⟨hb, -⟩ | ⟨hb, -⟩ <;>
            rcases halgorithm c (by simp [hc]) with ⟨hc', -⟩ | ⟨hc', -⟩ <;> simp_all
      subst hrest
      rcases halgorithm a (by simp) with ⟨ha, hsa⟩ | ⟨ha, hsa⟩
      · rcases halgorithm b (by simp) with ⟨hb, -⟩ | ⟨hb, hsb⟩
        · exact absurd (ha.trans hb.symm) hab
        · exact ⟨a, b, Or.inl rfl, ha, hb, hsa, hsb⟩
      · rcases halgorithm b (by simp) with ⟨hb, hsb⟩ | ⟨hb, -⟩
        · exact ⟨b, a, Or.inr rfl, hb, ha, hsb, hsa⟩
        · exact absurd (ha.trans hb.symm) hab

/-! ### One key directory, two verifiers -/

/-- What the two verifiers are run with: one library, and the keys as each of them
gets them. -/
structure KeyMaterial (ed : Ed25519) where
  signerPublicKey : JsString → Except JsString (KeyObject ed.PublicKey)
  hybridPublicKey : JsString → Except JsString (KeyObject ed.PublicKey)
  createPublicKey : JsString → Except JsString (KeyObject ed.PublicKey)
  publicKeys : JsString → Option JsString

variable (ed sha512 mlDsa) (sha256 : List UInt8 → JsString) (keys : KeyMaterial ed)

/-- The server, with Ed25519 as the primary and Dilithium3 as the secondary provider
and no hybrid signature required. -/
def server : VerificationCrypto ed.PublicKey where
  sha256 := sha256
  crypto := ed25519Provider ed sha512
  createHybrid := .ok (hybridProviders ed sha512 mlDsa)
  requireHybridSignature := false
  signerPublicKey := keys.signerPublicKey
  hybridPublicKey := keys.hybridPublicKey

/-- The offline verifier. -/
def offline : OfflineVerifier ed.PublicKey where
  sha256 := sha256
  signatureProviderFor := signatureProviderFor ed sha512 mlDsa
  createPublicKey := keys.createPublicKey
  publicKeys := keys.publicKeys

/-- The three ways to a key give the same keys. -/
def SameKeys : Prop :=
  ∀ keyId key,
    (keys.signerPublicKey keyId = .ok key ↔
      (offline ed sha512 mlDsa sha256 keys).publicKey keyId = .ok key) ∧
    (keys.hybridPublicKey keyId = .ok key ↔
      (offline ed sha512 mlDsa sha256 keys).publicKey keyId = .ok key)

/-- The label of the record's signature is not `ed25519`, and the record otherwise
passes: its hash and its hybrid signatures are right, and its signature is accepted
under Ed25519, or under Dilithium3 where that is what it is labelled. -/
def Relabelled (trustRecord : SignedTrustRecord) : Prop :=
  trustRecord.signature.algorithm ≠ "ed25519" ∧
    TrustRecordHasher.hash sha256 trustRecord.canonical = .ok trustRecord.trustRecordHash ∧
    (trustRecord.signatures.getD [] = [] ∨ SignsHybrid (hybridProviders ed sha512 mlDsa)
      keys.hybridPublicKey trustRecord.hybridCanonical (trustRecord.signatures.getD [])) ∧
    (Signs (ed25519Provider ed sha512) keys.signerPublicKey trustRecord.canonical
        trustRecord.signature.keyId trustRecord.signature.value ∨
      trustRecord.signature.algorithm = "dilithium3" ∧
        Signs (dilithium3Provider ed mlDsa) keys.signerPublicKey trustRecord.canonical
          trustRecord.signature.keyId trustRecord.signature.value)

variable {ed sha512 mlDsa sha256 keys}

/-- **The server and the offline verifier agree on a record exactly when it is not
one that passes under another label than `ed25519`.** -/
theorem online_iff_offline (hkeys : SameKeys ed sha512 mlDsa sha256 keys)
    (trustRecord : SignedTrustRecord) :
    ((server ed sha512 mlDsa sha256 keys).verify trustRecord = .ok true ↔
      ∃ result, (offline ed sha512 mlDsa sha256 keys).verifyExecutionTrustRecordOffline trustRecord =
        .ok result ∧ result.valid = true) ↔
    ¬ Relabelled ed sha512 mlDsa sha256 keys trustRecord := by
  have hlegacy : ∀ {provider : SignatureProvider ed.PublicKey},
      Signs provider (offline ed sha512 mlDsa sha256 keys).publicKey trustRecord.canonical
          trustRecord.signature.keyId trustRecord.signature.value ↔
        Signs provider keys.signerPublicKey trustRecord.canonical trustRecord.signature.keyId
          trustRecord.signature.value :=
    (Signs.congr fun keyId key => (hkeys keyId key).1).symm
  have hhybrid : (2 ≤ (trustRecord.signatures.getD []).length ∧
      ((trustRecord.signatures.getD []).map SignatureEntry.algorithm).Nodup ∧
      ∀ e ∈ trustRecord.signatures.getD [], (offline ed sha512 mlDsa sha256 keys).Accepts
        trustRecord.hybridCanonical e.algorithm e.keyId e.signature) ↔
      SignsHybrid (hybridProviders ed sha512 mlDsa) keys.hybridPublicKey trustRecord.hybridCanonical
        (trustRecord.signatures.getD []) := by
    have hoffline : (offline ed sha512 mlDsa sha256 keys).signatureProviderFor =
        signatureProviderFor ed sha512 mlDsa := rfl
    rw [← signsHybrid_iff hoffline]
    unfold SignsHybrid
    simp only [Signs.congr fun keyId key => (hkeys keyId key).2]
  have haccepts : (offline ed sha512 mlDsa sha256 keys).Accepts trustRecord.canonical
        trustRecord.signature.algorithm trustRecord.signature.keyId trustRecord.signature.value ↔
      trustRecord.signature.algorithm = "ed25519" ∧
          Signs (ed25519Provider ed sha512) keys.signerPublicKey trustRecord.canonical
            trustRecord.signature.keyId trustRecord.signature.value ∨
        trustRecord.signature.algorithm = "dilithium3" ∧
          Signs (dilithium3Provider ed mlDsa) keys.signerPublicKey trustRecord.canonical
            trustRecord.signature.keyId trustRecord.signature.value := by
    unfold OfflineVerifier.Accepts
    change (∃ provider, signatureProviderFor ed sha512 mlDsa trustRecord.signature.algorithm =
      some provider ∧ _) ↔ _
    simp only [signatureProviderFor_iff]
    constructor
    · rintro ⟨provider, ⟨h, rfl⟩ | ⟨h, rfl⟩, hsigns⟩
      · exact Or.inl ⟨h, hlegacy.mp hsigns⟩
      · exact Or.inr ⟨h, hlegacy.mp hsigns⟩
    · rintro (⟨h, hsigns⟩ | ⟨h, hsigns⟩)
      · exact ⟨_, Or.inl ⟨h, rfl⟩, hlegacy.mpr hsigns⟩
      · exact ⟨_, Or.inr ⟨h, rfl⟩, hlegacy.mpr hsigns⟩
  have hcreate : (server ed sha512 mlDsa sha256 keys).createHybrid =
      .ok (hybridProviders ed sha512 mlDsa) := rfl
  rw [VerificationCrypto.verify_iff hcreate hybridProviders_ne rfl, OfflineVerifier.valid_iff,
    haccepts, hhybrid]
  have hone : Signs (ed25519Provider ed sha512) keys.signerPublicKey trustRecord.canonical
        trustRecord.signature.keyId trustRecord.signature.value →
      Signs (dilithium3Provider ed mlDsa) keys.signerPublicKey trustRecord.canonical
        trustRecord.signature.keyId trustRecord.signature.value → False := not_both
  have hlabel : trustRecord.signature.algorithm = "ed25519" →
      trustRecord.signature.algorithm ≠ "dilithium3" := by
    rintro h h'
    exact absurd (h.symm.trans h') (by decide)
  constructor
  · rintro hagree ⟨hne, hhash, hsignatures, hsigns⟩
    rcases hsigns with hed | ⟨hd, hdilithium⟩
    · obtain ⟨-, haccept, -⟩ := hagree.mp ⟨hhash, hed, hsignatures⟩
      rcases haccept with ⟨h, -⟩ | ⟨-, hdilithium⟩
      · exact hne h
      · exact hone hed hdilithium
    · obtain ⟨-, hed, -⟩ := hagree.mpr ⟨hhash, Or.inr ⟨hd, hdilithium⟩, hsignatures⟩
      exact hone hed hdilithium
  · intro hnot
    constructor
    · rintro ⟨hhash, hed, hsignatures⟩
      by_cases hl : trustRecord.signature.algorithm = "ed25519"
      · exact ⟨hhash, Or.inl ⟨hl, hed⟩, hsignatures⟩
      · exact absurd ⟨hl, hhash, hsignatures, Or.inl hed⟩ hnot
    · rintro ⟨hhash, ⟨hl, hed⟩ | ⟨hl, hdilithium⟩, hsignatures⟩
      · exact ⟨hhash, hed, hsignatures⟩
      · exact absurd ⟨fun h => hlabel h hl, hhash, hsignatures, Or.inr ⟨hl, hdilithium⟩⟩ hnot

end Agreement

/-! ## A relabelled record -/

namespace Relabelling

/-- An Ed25519 whose signature of a message is the message. -/
def ed : Ed25519 where
  PrivateKey := Unit
  PublicKey := Unit
  publicKey := id
  sign _ message := message
  verify _ message signature := message == signature

/-- A digest that tells nothing apart. -/
def digest : List UInt8 → JsString := fun _ => "digest"

/-- A directory that holds one Ed25519 key. -/
def keys : KeyMaterial ed where
  signerPublicKey _ := .ok ⟨"ed25519", ()⟩
  hybridPublicKey _ := .ok ⟨"ed25519", ()⟩
  createPublicKey _ := .ok ⟨"ed25519", ()⟩
  publicKeys _ := some "key"

/-- What the record says. -/
def object : Data := .obj [("trustRecordId", .str "record"),
  ("businessTransactionId", .str "transaction"), ("transaction", .obj []), ("executions", .arr []),
  ("overrides", .arr []), ("verifications", .arr []), ("receipts", .arr []),
  ("trustRecordHash", .str "digest"), ("createdAt", .date (some 0)), ("updatedAt", .date (some 0))]

/-- The record, signed under Ed25519. -/
def record (algorithm : JsString) : SignedTrustRecord where
  object := object
  trustRecordHash := "digest"
  signature := ⟨algorithm, "default",
    Base64.encode ((serialize (canonicalExecutionTrustRecord object)).toOption.getD [])⟩
  schemaVersion := none
  signatures := none

theorem sameKeys : SameKeys ed id (fun _ _ _ => false) digest keys :=
  fun _ _ => ⟨Iff.rfl, Iff.rfl⟩

end Relabelling

open Relabelling in
/-- **A record signed under Ed25519 and labelled `sphincs-plus`** is accepted by the
server and not by the offline verifier. -/
theorem relabelled_record :
    ¬ ((server ed id (fun _ _ _ => false) digest keys).verify (record "sphincs-plus") = .ok true ↔
      ∃ result, (offline ed id (fun _ _ _ => false) digest keys).verifyExecutionTrustRecordOffline
        (record "sphincs-plus") = .ok result ∧ result.valid = true) := by
  intro hagree
  obtain ⟨result, hresult, hvalid⟩ := hagree.mp (by decide)
  have hinvalid : ((offline ed id (fun _ _ _ => false) digest keys).verifyExecutionTrustRecordOffline
      (record "sphincs-plus")).map OfflineVerificationResult.valid = .ok false := by decide
  rw [hresult, Except.map, hvalid] at hinvalid
  cases hinvalid

open Relabelling in
theorem online_iff_offline_labelled :
    ((server ed id (fun _ _ _ => false) digest keys).verify (record "ed25519") = .ok true ↔
      ∃ result, (offline ed id (fun _ _ _ => false) digest keys).verifyExecutionTrustRecordOffline
        (record "ed25519") = .ok result ∧ result.valid = true) :=
  (online_iff_offline sameKeys (record "ed25519")).mpr fun h => h.1 rfl

end Parmana.Crypto

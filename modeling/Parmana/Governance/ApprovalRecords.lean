import Parmana.Collections.HashChain
import Parmana.Collections.Table
import Parmana.Crypto.ExecutionChain
import Parmana.Runtime.Domain
import Mathlib.Data.List.Sort

/-! # The records of approved policy changes

An approval leaves a signed record of what it put into force.  A record names the
record before it, of the same policy name and version, by the hash of the whole of that
record, so the records of a name and version are to be a hash chain.

The hash is over the canonical bytes.  These always exist, and they say which record is
named before (`named`); so the chains are those of the hash-chain library, with the
bytes of a record as its content.

The repository in memory is a `Map` by identifier.  Its most recent record is the first
of those with the greatest `approvedAt` in the order of insertion, while an audit sorts
the records, and the sort is stable: of records approved in one millisecond the
repository means the first and the audit the last.
-/
namespace Parmana.Governance
open Js Crypto

/-! ## Records -/

/-- The `Signature` of a record. -/
structure RecordSignature where
  algorithm : JsString
  keyId : JsString
  value : List Char
  signedAt : Int
  deriving DecidableEq

/-- `Omit<PolicyChangeApprovalRecord, "signature">`.  Dates are valid ones. -/
structure PolicyChangeApprovalDraft where
  policyChangeApprovalRecordId : JsString
  pendingPolicyChangeId : JsString
  policyName : JsString
  policyVersion : JsString
  proposedBy : JsString
  approvedBy : JsString
  proposedAt : Int
  approvedAt : Int
  contentHashBefore : Option JsString
  contentHashAfter : JsString
  previousRecordHash : Option JsString
  deriving DecidableEq

/-- `PolicyChangeApprovalRecord`. -/
structure PolicyChangeApprovalRecord extends PolicyChangeApprovalDraft where
  signature : RecordSignature
  deriving DecidableEq

/-- A member that may be left out. -/
def optionalText (text : Option JsString) : Data := (text.map Data.str).getD .undefined

theorem optionalText_agree {a b : Option JsString}
    (h : Data.Agree (optionalText a) (optionalText b)) : a = b := by
  have hcanon : ∀ text : Option JsString, (optionalText text).canon? = text.map Json.str := by
    rintro (_ | text) <;> rfl
  unfold Data.Agree at h
  rw [hcanon, hcanon] at h
  exact Option.map_injective (fun _ _ => Json.str.inj) h

/-- The members of a record but its signature. -/
def PolicyChangeApprovalDraft.members (draft : PolicyChangeApprovalDraft) : DataFields :=
  [("policyChangeApprovalRecordId", .str draft.policyChangeApprovalRecordId),
    ("pendingPolicyChangeId", .str draft.pendingPolicyChangeId),
    ("policyName", .str draft.policyName), ("policyVersion", .str draft.policyVersion),
    ("proposedBy", .str draft.proposedBy), ("approvedBy", .str draft.approvedBy),
    ("proposedAt", .date (some draft.proposedAt)), ("approvedAt", .date (some draft.approvedAt)),
    ("contentHashBefore", optionalText draft.contentHashBefore),
    ("contentHashAfter", .str draft.contentHashAfter),
    ("previousRecordHash", optionalText draft.previousRecordHash)]

/-- `canonicalRecord`: what is signed. -/
def PolicyChangeApprovalDraft.canonicalRecord (draft : PolicyChangeApprovalDraft) : Data :=
  .obj draft.members

/-- A signature as it is hashed with its record. -/
def RecordSignature.data (signature : RecordSignature) : Data :=
  .obj [("algorithm", .str signature.algorithm), ("keyId", .str signature.keyId),
    ("value", .str (.ofString (String.ofList signature.value))),
    ("signedAt", .date (some signature.signedAt))]

namespace PolicyChangeApprovalRecord

/-- The whole record: what the record after it names. -/
def data (record : PolicyChangeApprovalRecord) : Data :=
  .obj (record.members ++ ([("signature", record.signature.data)] : DataFields))

/-- The canonical bytes of the whole record. -/
def bytes (record : PolicyChangeApprovalRecord) : List UInt8 :=
  (serialize record.data).toOption.getD []

theorem data_distinct (record : PolicyChangeApprovalRecord) : record.data.distinct = true := by
  have hnames : ((record.members ++ ([("signature", record.signature.data)] : DataFields)).map
      Prod.fst).Nodup :=
    (by decide : (["policyChangeApprovalRecordId", "pendingPolicyChangeId", "policyName",
      "policyVersion", "proposedBy", "approvedBy", "proposedAt", "approvedAt", "contentHashBefore",
      "contentHashAfter", "previousRecordHash", "signature"] : List JsString).Nodup)
  have hsignature : record.signature.data.distinct = true := by
    unfold RecordSignature.data
    rw [Data.distinct, Bool.and_eq_true, decide_eq_true_eq]
    exact ⟨(by decide : (["algorithm", "keyId", "value", "signedAt"] : List JsString).Nodup), rfl⟩
  have hoptional : ∀ text : Option JsString, (optionalText text).distinct = true := by
    rintro (_ | text) <;> rfl
  unfold data
  rw [Data.distinct, Bool.and_eq_true, decide_eq_true_eq, Data.distinctMembers_iff]
  refine ⟨hnames, ?_⟩
  simp [PolicyChangeApprovalDraft.members, Data.distinct, hsignature, hoptional]

theorem data_datesValid (record : PolicyChangeApprovalRecord) : record.data.datesValid = true := by
  have hsignature : record.signature.data.datesValid = true := rfl
  have hoptional : ∀ text : Option JsString, (optionalText text).datesValid = true := by
    rintro (_ | text) <;> rfl
  unfold data
  rw [Data.datesValid, Data.datesValidMembers_iff]
  simp [PolicyChangeApprovalDraft.members, Data.datesValid, hsignature, hoptional]

/-- A record can be serialized. -/
theorem serialize_data (record : PolicyChangeApprovalRecord) :
    serialize record.data = .ok record.bytes := by
  obtain ⟨written, hwritten⟩ : ∃ written, serialize record.data = .ok written :=
    ⟨_, serialize_eq record.data_distinct record.data_datesValid⟩
  unfold bytes
  rw [hwritten]
  rfl

theorem data_previousRecordHash (record : PolicyChangeApprovalRecord) :
    record.data.get "previousRecordHash" = optionalText record.previousRecordHash := rfl

/-- **The bytes of a record say which record it names.** -/
theorem named : HashChain.Named bytes fun record => record.previousRecordHash := by
  intro a b hbytes
  have hwritten : ∀ record : PolicyChangeApprovalRecord, record.data.toJson? ≠ none := by
    rintro record
    unfold data
    rw [Data.toJson?]
    exact Option.some_ne_none _
  have hagree := serialize_agree a.data_distinct b.data_distinct (hwritten a) (hwritten b)
    (a.serialize_data.trans (congrArg Except.ok hbytes)) b.serialize_data
  have hprevious := hagree.get a.data_distinct b.data_distinct "previousRecordHash"
  rw [data_previousRecordHash, data_previousRecordHash] at hprevious
  exact optionalText_agree hprevious

-- what is said of the bytes of a record is said above
attribute [irreducible] data bytes

end PolicyChangeApprovalRecord

/-! ## Hashing and signing -/

/-- `PolicyChangeCrypto`, with the digest, the provider and the signer it has. -/
structure PolicyChangeCrypto (Key : Type) where
  sha256 : List UInt8 → JsString
  signature : SignatureProvider Key
  signer : JsString → List UInt8 → Except JsString (List Char)
  getPublicKey : JsString → Except JsString (KeyObject Key)

namespace PolicyChangeCrypto
variable {Key : Type} (self : PolicyChangeCrypto Key)

/-- `hashPolicyContent`. -/
def hashPolicyContent (content : Data) : Except Failure JsString :=
  (TrustRecordHasher.hash self.sha256 content).mapError .error

/-- `sign`, at a time. -/
def sign (draft : PolicyChangeApprovalDraft) (now : Int) : Except Failure RecordSignature :=
  Except.mapError .error do
    let bytes ← serialize draft.canonicalRecord
    let value ← self.signer DEFAULT_KEY_ID bytes
    return ⟨self.signature.algorithm, DEFAULT_KEY_ID, value, now⟩

/-- `verify`. -/
def verify (record : PolicyChangeApprovalRecord) : Except Failure Bool :=
  Except.mapError .error do
    let publicKey ← self.getPublicKey record.signature.keyId
    SignatureVerifier.verify self.signature record.canonicalRecord record.signature.value publicKey

/-- The hash of a whole record. -/
def recordHash (record : PolicyChangeApprovalRecord) : JsString := self.sha256 record.bytes

/-- The records name one another in order, the first of them naming `p`. -/
abbrev Linked (p : Option JsString) (records : List PolicyChangeApprovalRecord) : Prop :=
  HashChain.Linked PolicyChangeApprovalRecord.bytes self.sha256
    (fun record => record.previousRecordHash) p records

/-- What is signed is accepted. -/
def Signs : Prop :=
  ∀ bytes value, self.signer DEFAULT_KEY_ID bytes = .ok value →
    ∃ publicKey, self.getPublicKey DEFAULT_KEY_ID = .ok publicKey ∧
      self.signature.verify bytes value publicKey = .ok true

variable {self}

@[simp] theorem hash_record (record : PolicyChangeApprovalRecord) :
    self.hashPolicyContent record.data = .ok (self.recordHash record) := by
  unfold hashPolicyContent TrustRecordHasher.hash
  rw [record.serialize_data]
  rfl

/-- **A record whose signature was made for it is verified.** -/
theorem verify_sign (hsigns : self.Signs) {draft : PolicyChangeApprovalDraft} {now : Int}
    {signature : RecordSignature} (h : self.sign draft now = .ok signature) :
    self.verify ⟨draft, signature⟩ = .ok true := by
  unfold sign at h
  cases hbytes : serialize draft.canonicalRecord with
  | error message =>
    rw [hbytes] at h
    cases h
  | ok bytes =>
    rw [hbytes] at h
    cases hvalue : self.signer DEFAULT_KEY_ID bytes with
    | error message =>
      simp only [hvalue, Bind.bind, Except.bind] at h
      cases h
    | ok value =>
      simp only [hvalue, Bind.bind, Except.bind] at h
      cases h
      obtain ⟨publicKey, hkey, hverify⟩ := hsigns bytes value hvalue
      unfold verify SignatureVerifier.verify
      simp only [hkey, hbytes, Bind.bind, Except.bind, hverify, Except.mapError]

end PolicyChangeCrypto

/-! ## The repository in memory -/

/-- `this.records`. -/
abbrev ApprovalRecords :=
  Table fun record : PolicyChangeApprovalRecord => record.policyChangeApprovalRecordId

/-- The later of two records, the first where neither is. -/
def laterRecord (mostRecent candidate : PolicyChangeApprovalRecord) : PolicyChangeApprovalRecord :=
  if mostRecent.approvedAt < candidate.approvedAt then candidate else mostRecent

/-- The most recent of the records that match. -/
def mostRecent : List PolicyChangeApprovalRecord → Option PolicyChangeApprovalRecord
  | [] => none
  | record :: records => some (records.foldl laterRecord record)

/-- Whether a record is one of a policy name and version. -/
def PolicyChangeApprovalRecord.isFor (policyName policyVersion : JsString)
    (record : PolicyChangeApprovalRecord) : Bool :=
  decide (record.policyName = policyName) && decide (record.policyVersion = policyVersion)

/-- The records of a policy name and version. -/
def recordsFor (records : ApprovalRecords) (policyName policyVersion : JsString) :
    List PolicyChangeApprovalRecord :=
  records.values.filter (PolicyChangeApprovalRecord.isFor policyName policyVersion)

/-- `findMostRecentFor`. -/
def findMostRecentFor (records : ApprovalRecords) (policyName policyVersion : JsString) :
    Option PolicyChangeApprovalRecord :=
  mostRecent (recordsFor records policyName policyVersion)

/-- `findMostRecentForName`. -/
def findMostRecentForName (records : ApprovalRecords) (policyName : JsString) :
    Option PolicyChangeApprovalRecord :=
  mostRecent (records.values.filter fun record => decide (record.policyName = policyName))

/-- `[...pairRecords].sort((a, b) => a.approvedAt.getTime() - b.approvedAt.getTime())`. -/
def sortByApprovedAt (records : List PolicyChangeApprovalRecord) :
    List PolicyChangeApprovalRecord :=
  records.insertionSort fun a b => a.approvedAt ≤ b.approvedAt

/-! ### The most recent record -/

section MostRecent
variable {records : List PolicyChangeApprovalRecord} {record latest : PolicyChangeApprovalRecord}

theorem mostRecent_concat : mostRecent (records ++ [record]) =
    some ((mostRecent records).elim record fun latest => laterRecord latest record) := by
  cases records with
  | nil => rfl
  | cons first records =>
    simp [mostRecent, List.foldl_append]

@[simp] theorem mostRecent_eq_none : mostRecent records = none ↔ records = [] := by
  cases records <;> simp [mostRecent]

/-- The most recent record is one of the records, and none is later. -/
theorem mostRecent_spec (h : mostRecent records = some latest) :
    latest ∈ records ∧ ∀ record ∈ records, record.approvedAt ≤ latest.approvedAt := by
  induction records using List.reverseRecOn generalizing latest with
  | nil => cases h
  | append_singleton records last ih =>
    rw [mostRecent_concat, Option.some.injEq] at h
    cases hbefore : mostRecent records with
    | none =>
      rw [hbefore] at h
      rw [mostRecent_eq_none.mp hbefore]
      obtain rfl : last = latest := h
      simp
    | some before =>
      rw [hbefore] at h
      obtain ⟨hmem, hmax⟩ := ih hbefore
      change laterRecord before last = latest at h
      unfold laterRecord at h
      split at h
      · rename_i hlater
        subst h
        refine ⟨by simp, fun record hrecord => ?_⟩
        rcases List.mem_append.mp hrecord with hold | hlast
        · exact (hmax record hold).trans hlater.le
        · rw [List.mem_singleton.mp hlast]
      · rename_i hnot
        subst h
        refine ⟨List.mem_append_left _ hmem, fun record hrecord => ?_⟩
        rcases List.mem_append.mp hrecord with hold | hlast
        · exact hmax record hold
        · rw [List.mem_singleton.mp hlast]
          exact not_lt.mp hnot

/-- Of records approved later and later, the last is the most recent. -/
theorem mostRecent_of_increasing (h : records.Pairwise fun a b => a.approvedAt < b.approvedAt) :
    mostRecent records = records.getLast? := by
  induction records using List.reverseRecOn with
  | nil => rfl
  | append_singleton records last ih =>
    obtain ⟨hbefore, -, hlast⟩ := List.pairwise_append.mp h
    rw [mostRecent_concat, List.getLast?_append_of_ne_nil _ (List.cons_ne_nil _ _), ih hbefore]
    cases hprior : records.getLast? with
    | none => rfl
    | some prior =>
      have hlater := hlast prior (List.mem_of_getLast? hprior) last (List.mem_singleton_self _)
      show some (laterRecord prior last) = some last
      unfold laterRecord
      rw [if_pos hlater]

end MostRecent

theorem mem_recordsFor {records : ApprovalRecords} {policyName policyVersion : JsString}
    {record : PolicyChangeApprovalRecord} : record ∈ recordsFor records policyName policyVersion ↔
      record ∈ records.values ∧ record.policyName = policyName ∧
        record.policyVersion = policyVersion := by
  unfold recordsFor PolicyChangeApprovalRecord.isFor
  rw [List.mem_filter, Bool.and_eq_true, decide_eq_true_eq, decide_eq_true_eq]

end Parmana.Governance

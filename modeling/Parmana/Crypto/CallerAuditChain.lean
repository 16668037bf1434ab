import Parmana.Collections.HashChain
import Parmana.Crypto.RecordVerification

/-! # The audit chain of a caller

The audit events of a caller are chained: each is signed together with the hash of the one
before it and its position, and hashed so.  `CallerAuditChainVerifier` is given rows and checks
of each its signature and, of a row that is chained, its hash and that it names the hash of the
row before it.  A row that is not chained is not linked to anything; the next one has to name no
hash.

A list of chained rows that is accepted is a chain from its first link (`acceptedFrom_append`,
`linked_of_accepted`).  So where no one else makes a signature that is accepted and no two
contents have one hash, it begins one of the chains that were signed (`prefix_of_accepted`).
-/
namespace Parmana.Crypto
open Js

/-! ## Events and rows -/

/-- Whether a value is a string. -/
def isText : Data → Bool
  | .str _ => true
  | _ => false

/-- `isPlausibleAuditEvent`. -/
def isPlausibleAuditEvent (event : Data) : Bool :=
  isText (event.get "type") && isText (event.get "occurredAt") && isText (event.get "route")

/-- An audit event as it is read back: an object that has a type, a time and a route. -/
structure AuditEvent extends Entity where
  shaped : isPlausibleAuditEvent toEntity.data = true

/-- A text, or `null`. -/
def nullableText (text : Option JsString) : Data := (text.map Data.str).getD .null

/-- `{ ...event, previousChainHash, chainPosition }`. -/
def chainedContent (event : DataFields) (previousChainHash : Option JsString)
    (chainPosition : JsNumber) : Data :=
  .obj (Members.spread event [("previousChainHash", nullableText previousChainHash),
    ("chainPosition", .num chainPosition)])

/-- `ChainedCallerAuditEventRow`. -/
structure ChainedCallerAuditEventRow where
  event : AuditEvent
  signature : Signature
  chainHash : Option JsString
  previousChainHash : Option JsString
  chainPosition : Option JsNumber

namespace ChainedCallerAuditEventRow
variable (row : ChainedCallerAuditEventRow)

/-- `isChained`. -/
def isChained : Bool := row.chainHash.isSome && row.chainPosition.isSome

/-- `signedContent`. -/
def signedContent : Data :=
  match row.chainHash, row.chainPosition with
  | some _, some chainPosition =>
    chainedContent row.event.members row.previousChainHash chainPosition
  | _, _ => row.event.data

/-- The `previousHash` of the row after it. -/
def hashAfter : Option JsString := if row.isChained then row.chainHash else none

end ChainedCallerAuditEventRow

/-! ## Signing and verifying -/

/-- `AuditEventCrypto`, with the provider and the signer it has. -/
structure AuditEventCrypto (Key : Type) where
  signature : SignatureProvider Key
  signer : JsString → List UInt8 → Except JsString (List Char)
  getPublicKey : JsString → Except JsString (KeyObject Key)

namespace AuditEventCrypto
variable {Key : Type} (self : AuditEventCrypto Key)

/-- `sign`, with the key that is the current one. -/
def sign (keyId : JsString) (event : Data) : Except JsString Signature := do
  let bytes ← serialize event
  let value ← self.signer keyId bytes
  return ⟨self.signature.algorithm, keyId, value⟩

/-- `verify`. -/
def verify (event : Data) (signature : Signature) : Except JsString Bool := do
  let publicKey ← self.getPublicKey signature.keyId
  SignatureVerifier.verify self.signature event signature.value publicKey

/-- What is signed, with whichever key, is accepted. -/
def Signs : Prop :=
  ∀ keyId bytes value, self.signer keyId bytes = .ok value →
    ∃ publicKey, self.getPublicKey keyId = .ok publicKey ∧
      self.signature.verify bytes value publicKey = .ok true

variable {self}

theorem verify_iff {event : Data} {signature : Signature} :
    self.verify event signature = .ok true ↔ ∃ publicKey bytes,
      self.getPublicKey signature.keyId = .ok publicKey ∧ serialize event = .ok bytes ∧
        self.signature.verify bytes signature.value publicKey = .ok true := by
  unfold verify SignatureVerifier.verify
  constructor
  · intro h
    obtain ⟨publicKey, hkey, h⟩ := bind_eq_ok.mp h
    obtain ⟨bytes, hbytes, h⟩ := bind_eq_ok.mp h
    exact ⟨publicKey, bytes, hkey, hbytes, h⟩
  · rintro ⟨publicKey, bytes, hkey, hbytes, h⟩
    exact bind_eq_ok.mpr ⟨publicKey, hkey, bind_eq_ok.mpr ⟨bytes, hbytes, h⟩⟩

/-- **What was signed is verified.** -/
theorem verify_sign (hsigns : self.Signs) {keyId : JsString} {event : Data}
    {signature : Signature} (h : self.sign keyId event = .ok signature) :
    self.verify event signature = .ok true := by
  unfold sign at h
  obtain ⟨bytes, hbytes, h⟩ := bind_eq_ok.mp h
  obtain ⟨value, hvalue, h⟩ := bind_eq_ok.mp h
  cases h
  obtain ⟨publicKey, hkey, hverified⟩ := hsigns keyId bytes value hvalue
  exact verify_iff.mpr ⟨publicKey, bytes, hkey, hbytes, hverified⟩

end AuditEventCrypto

/-- `CallerAuditChainVerificationResult`. -/
structure CallerAuditChainVerificationResult where
  valid : Bool
  brokenAtPosition : Option Nat
  reason : Option JsString

/-- `CallerAuditChainVerifier`, with the digest its hasher has. -/
structure CallerAuditChainVerifier (Key : Type) where
  crypto : AuditEventCrypto Key
  sha256 : List UInt8 → JsString

namespace CallerAuditChainVerifier
variable {Key : Type} (self : CallerAuditChainVerifier Key)

/-- One round of the loop: the reason the chain is broken, or the next `previousHash`. -/
def verifyRow (previousHash : Option JsString) (row : ChainedCallerAuditEventRow) :
    Except JsString (Except JsString (Option JsString)) := do
  let signatureValid ← self.crypto.verify row.signedContent row.signature
  if !signatureValid then
    return .error "signature does not match recomputed content."
  else if !row.isChained then
    return .ok none
  else do
    let expectedHash ← TrustRecordHasher.hash self.sha256 row.signedContent
    if some expectedHash ≠ row.chainHash then
      return .error "chainHash does not match recomputed content."
    else if row.previousChainHash ≠ previousHash then
      return .error "previousChainHash does not reference the prior event's chainHash."
    else return .ok row.chainHash

/-- The loop of `verifyChain`. -/
def verifyFrom : Option JsString → Nat → List ChainedCallerAuditEventRow →
    Except JsString CallerAuditChainVerificationResult
  | _, _, [] => .ok ⟨true, none, none⟩
  | previousHash, position, row :: rows => do
    match ← self.verifyRow previousHash row with
    | .error reason => return ⟨false, some (position + 1), some reason⟩
    | .ok next => verifyFrom next (position + 1) rows

/-- `verifyChain`. -/
def verifyChain (rows : List ChainedCallerAuditEventRow) :
    Except JsString CallerAuditChainVerificationResult := self.verifyFrom none 0 rows

/-- The rows are found valid. -/
def Accepts (rows : List ChainedCallerAuditEventRow) : Prop :=
  ∃ result, self.verifyChain rows = .ok result ∧ result.valid = true

/-! ## What is accepted -/

/-- A row has the signature of its content and, if it is chained, its hash, and names the hash
before it. -/
structure Checked (verifier : CallerAuditChainVerifier Key) (previousHash : Option JsString)
    (row : ChainedCallerAuditEventRow) : Prop where
  verified : verifier.crypto.verify row.signedContent row.signature = .ok true
  hash : row.isChained = true → ∀ chainHash, row.chainHash = some chainHash →
    TrustRecordHasher.hash verifier.sha256 row.signedContent = .ok chainHash
  linked : row.isChained = true → row.previousChainHash = previousHash

/-- Each row is checked, after the one before it. -/
def AcceptedFrom : Option JsString → List ChainedCallerAuditEventRow → Prop
  | _, [] => True
  | previousHash, row :: rows =>
    self.Checked previousHash row ∧ AcceptedFrom row.hashAfter rows

variable {self}

theorem verifyRow_iff {previousHash next : Option JsString} {row : ChainedCallerAuditEventRow} :
    self.verifyRow previousHash row = .ok (.ok next) ↔
      self.Checked previousHash row ∧ next = row.hashAfter := by
  unfold verifyRow ChainedCallerAuditEventRow.hashAfter
  constructor
  · intro h
    obtain ⟨valid, hvalid, h⟩ := bind_eq_ok.mp h
    cases valid with
    | false => cases h
    | true =>
      cases hchained : row.isChained with
      | false =>
        rw [hchained] at h
        cases h
        exact ⟨⟨hvalid, fun h => absurd h (by rw [hchained]; exact Bool.false_ne_true),
          fun h => absurd h (by rw [hchained]; exact Bool.false_ne_true)⟩, rfl⟩
      | true =>
        rw [hchained] at h
        obtain ⟨expectedHash, hhash, h⟩ := bind_eq_ok.mp h
        split at h
        · cases h
        · rename_i hequal
          split at h
          · cases h
          · rename_i hprevious
            cases h
            rw [not_not] at hequal hprevious
            refine ⟨⟨hvalid, fun _ chainHash hchain => ?_, fun _ => hprevious⟩, rfl⟩
            rw [hchain, Option.some.injEq] at hequal
            rw [hhash, hequal]
  · rintro ⟨h, rfl⟩
    refine bind_eq_ok.mpr ⟨true, h.verified, ?_⟩
    cases hchained : row.isChained with
    | false => rfl
    | true =>
      obtain ⟨chainHash, hchain⟩ : ∃ chainHash, row.chainHash = some chainHash := by
        unfold ChainedCallerAuditEventRow.isChained at hchained
        rw [Bool.and_eq_true] at hchained
        exact Option.isSome_iff_exists.mp hchained.1
      refine bind_eq_ok.mpr ⟨chainHash, h.hash hchained chainHash hchain, ?_⟩
      rw [if_neg (not_not.mpr hchain.symm), if_neg (not_not.mpr (h.linked hchained))]
      rfl

theorem verifyFrom_iff {rows : List ChainedCallerAuditEventRow} :
    ∀ {previousHash : Option JsString} {position : Nat},
      (∃ result, self.verifyFrom previousHash position rows = .ok result ∧ result.valid = true) ↔
        self.AcceptedFrom previousHash rows := by
  induction rows with
  | nil =>
    intro previousHash position
    exact ⟨fun _ => trivial, fun _ => ⟨_, rfl, rfl⟩⟩
  | cons row rows ih =>
    intro previousHash position
    rw [verifyFrom, AcceptedFrom]
    constructor
    · rintro ⟨result, hresult, hvalid⟩
      obtain ⟨found, hrow, hresult⟩ := bind_eq_ok.mp hresult
      cases found with
      | error reason =>
        cases hresult
        cases hvalid
      | ok next =>
        obtain ⟨hchecked, rfl⟩ := verifyRow_iff.mp hrow
        exact ⟨hchecked, ih.mp ⟨result, hresult, hvalid⟩⟩
    · rintro ⟨hchecked, hrest⟩
      rw [verifyRow_iff.mpr ⟨hchecked, rfl⟩]
      exact ih.mpr hrest

/-- **The rows are found valid exactly when each is checked.** -/
theorem accepts_iff {rows : List ChainedCallerAuditEventRow} :
    self.Accepts rows ↔ self.AcceptedFrom none rows := verifyFrom_iff

/-- The `previousHash` after some rows. -/
def hashAfter (previousHash : Option JsString) (rows : List ChainedCallerAuditEventRow) :
    Option JsString :=
  rows.getLast?.elim previousHash ChainedCallerAuditEventRow.hashAfter

theorem hashAfter_cons (previousHash : Option JsString) (row : ChainedCallerAuditEventRow)
    (rows : List ChainedCallerAuditEventRow) :
    hashAfter previousHash (row :: rows) = hashAfter row.hashAfter rows := by
  unfold hashAfter
  rw [List.getLast?_cons]
  cases rows.getLast? <;> rfl

theorem hashAfter_append (previousHash : Option JsString)
    (rows more : List ChainedCallerAuditEventRow) :
    hashAfter previousHash (rows ++ more) = hashAfter (hashAfter previousHash rows) more := by
  induction rows generalizing previousHash with
  | nil => rfl
  | cons row rows ih => rw [List.cons_append, hashAfter_cons, hashAfter_cons, ih]

theorem acceptedFrom_append {rows more : List ChainedCallerAuditEventRow}
    {previousHash : Option JsString} :
    self.AcceptedFrom previousHash (rows ++ more) ↔
      self.AcceptedFrom previousHash rows ∧
        self.AcceptedFrom (hashAfter previousHash rows) more := by
  induction rows generalizing previousHash with
  | nil => exact ⟨fun h => ⟨trivial, h⟩, fun h => h.2⟩
  | cons row rows ih =>
    rw [List.cons_append, AcceptedFrom, AcceptedFrom, ih, hashAfter_cons, and_assoc]

theorem acceptedFrom_concat {rows : List ChainedCallerAuditEventRow}
    {row : ChainedCallerAuditEventRow} {previousHash : Option JsString} :
    self.AcceptedFrom previousHash (rows ++ [row]) ↔
      self.AcceptedFrom previousHash rows ∧ self.Checked (hashAfter previousHash rows) row := by
  rw [acceptedFrom_append]
  exact and_congr_right fun _ => and_iff_left trivial

end CallerAuditChainVerifier

/-! ## Links -/

section Contents
variable {event : DataFields} {previousChainHash : Option JsString} {chainPosition : JsNumber}

theorem define_distinct {fs : DataFields} {k : JsString} {v : Data}
    (hfs : (Data.obj fs).distinct = true) (hv : v.distinct = true) :
    (Data.obj (Members.define fs k v)).distinct = true := by
  rw [Data.distinct, Bool.and_eq_true, decide_eq_true_eq, Data.distinctMembers_iff] at hfs ⊢
  obtain ⟨hnames, hmembers⟩ := hfs
  unfold Members.define
  by_cases hmem : k ∈ fs.map Prod.fst
  · rw [if_pos hmem]
    have hsame : (fs.map fun p => if p.1 = k then (k, v) else p).map Prod.fst =
        fs.map Prod.fst := by
      rw [List.map_map]
      refine List.map_congr_left fun p _ => ?_
      show (if p.1 = k then (k, v) else p).1 = p.1
      split
      · rename_i hk
        exact hk.symm
      · rfl
    refine ⟨by rw [hsame]; exact hnames, fun p hp => ?_⟩
    obtain ⟨q, hq, rfl⟩ := List.mem_map.mp hp
    split
    · exact hv
    · exact hmembers q hq
  · rw [if_neg hmem]
    refine ⟨?_, fun p hp => ?_⟩
    · rw [List.map_append]
      refine List.nodup_append.mpr ⟨hnames, List.nodup_singleton k, ?_⟩
      rintro a ha b hb rfl
      rw [List.map_singleton, List.mem_singleton] at hb
      obtain rfl : a = k := hb
      exact hmem ha
    · rcases List.mem_append.mp hp with hp | hp
      · exact hmembers p hp
      · rw [List.mem_singleton.mp hp]
        exact hv

theorem nullableText_distinct (text : Option JsString) : (nullableText text).distinct = true := by
  cases text <;> rfl

theorem chainedContent_distinct (h : (Data.obj event).distinct = true) :
    (chainedContent event previousChainHash chainPosition).distinct = true :=
  define_distinct (define_distinct h (nullableText_distinct _)) rfl

theorem define_datesValid {fs : DataFields} {k : JsString} {v : Data}
    (hfs : (Data.obj fs).datesValid = true) (hv : v.datesValid = true) :
    (Data.obj (Members.define fs k v)).datesValid = true := by
  rw [Data.datesValid, Data.datesValidMembers_iff] at hfs ⊢
  unfold Members.define
  split
  · intro p hp
    obtain ⟨q, hq, rfl⟩ := List.mem_map.mp hp
    split
    · exact hv
    · exact hfs q hq
  · exact List.forall_mem_append.mpr ⟨hfs, List.forall_mem_singleton.mpr hv⟩

theorem nullableText_datesValid (text : Option JsString) :
    (nullableText text).datesValid = true := by
  cases text <;> rfl

theorem chainedContent_datesValid (h : (Data.obj event).datesValid = true) :
    (chainedContent event previousChainHash chainPosition).datesValid = true :=
  define_datesValid (define_datesValid h (nullableText_datesValid _)) rfl

theorem chainedContent_previous :
    (chainedContent event previousChainHash chainPosition).get "previousChainHash" =
      nullableText previousChainHash := by
  have hne : ("previousChainHash" : JsString) ≠ "chainPosition" := by decide
  have hnames : ∀ p ∈ ([("previousChainHash", nullableText previousChainHash),
      ("chainPosition", .num chainPosition)] : DataFields), ∀ q ∈
      ([("previousChainHash", nullableText previousChainHash),
        ("chainPosition", .num chainPosition)] : DataFields), p.1 = q.1 → p.2 = q.2 := by
    intro p hp q hq heq
    simp only [List.mem_cons, List.not_mem_nil, or_false] at hp hq
    rcases hp with rfl | rfl <;> rcases hq with rfl | rfl
    · rfl
    · exact absurd heq hne
    · exact absurd heq hne.symm
    · rfl
  unfold chainedContent
  show (List.lookup _ (Members.spread _ _)).getD Data.undefined = _
  rw [Members.lookup_spread hnames]
  rfl

/-- An object is written. -/
theorem obj_written (fs : DataFields) : (Data.obj fs).toJson? ≠ none := by
  rw [Data.toJson?]
  exact Option.some_ne_none _

/-- A chained event has other bytes than one that does not say what it is chained to. -/
theorem chainedContent_ne (hdistinct : (Data.obj event).distinct = true) {alone : DataFields}
    (halone : (Data.obj alone).distinct = true)
    (hnone : (Data.obj alone).get "previousChainHash" = .undefined) {bytes : List UInt8}
    (h : serialize (chainedContent event previousChainHash chainPosition) = .ok bytes) :
    serialize (.obj alone) ≠ .ok bytes := by
  intro h'
  have hchained : (chainedContent event previousChainHash chainPosition).distinct = true :=
    chainedContent_distinct hdistinct
  have hagree := serialize_agree hchained halone (obj_written _) (obj_written _) h h'
  have hprevious := hagree.get hchained halone "previousChainHash"
  rw [chainedContent_previous, hnone] at hprevious
  cases previousChainHash <;> cases hprevious

theorem nullableText_agree {a b : Option JsString}
    (h : Data.Agree (nullableText a) (nullableText b)) : a = b := by
  have hcanon : ∀ text : Option JsString,
      (nullableText text).canon? = some (text.elim .null .str) := by
    rintro (_ | text) <;> rfl
  unfold Data.Agree at h
  rw [hcanon, hcanon, Option.some.injEq] at h
  cases a <;> cases b <;> cases h <;> rfl

end Contents

/-- A link of a chain: an event, the hash it names, its position, and the bytes of all three. -/
structure AuditLink where
  event : AuditEvent
  previousChainHash : Option JsString
  chainPosition : JsNumber
  bytes : List UInt8
  serialized : serialize (chainedContent event.members previousChainHash chainPosition) = .ok bytes

/-- What a link is signed as. -/
def AuditLink.content (link : AuditLink) : Data :=
  chainedContent link.event.members link.previousChainHash link.chainPosition

/-- **The bytes of a link say which hash it names.** -/
theorem AuditLink.named : HashChain.Named AuditLink.bytes AuditLink.previousChainHash := by
  intro a b hbytes
  have hdistinct : ∀ link : AuditLink, link.content.distinct = true :=
    fun link => chainedContent_distinct link.event.distinct
  have hagree := serialize_agree (hdistinct a) (hdistinct b) (obj_written _) (obj_written _)
    (a.serialized.trans (congrArg Except.ok hbytes)) b.serialized
  have hprevious := hagree.get (hdistinct a) (hdistinct b) "previousChainHash"
  unfold AuditLink.content at hprevious
  rw [chainedContent_previous, chainedContent_previous] at hprevious
  exact nullableText_agree hprevious

namespace CallerAuditChainVerifier
variable {Key : Type} {self : CallerAuditChainVerifier Key}

/-- The links name one another in order, the first of them naming `p`. -/
abbrev Linked (self : CallerAuditChainVerifier Key) (p : Option JsString)
    (links : List AuditLink) : Prop :=
  HashChain.Linked AuditLink.bytes self.sha256 AuditLink.previousChainHash p links

/-- No one else makes a signature of a chained event that is accepted: what is verified is one
of these contents. -/
def Unforgeable (self : CallerAuditChainVerifier Key) (signed : Set (List UInt8)) : Prop :=
  ∀ row : ChainedCallerAuditEventRow, row.isChained = true →
    self.crypto.verify row.signedContent row.signature = .ok true →
      ∃ bytes ∈ signed, serialize row.signedContent = .ok bytes

/-- The contents of some rows, in canonical bytes. -/
def contents (rows : List ChainedCallerAuditEventRow) : List (Except JsString (List UInt8)) :=
  rows.map fun row => serialize row.signedContent

/-- The contents of some links. -/
def linkContents (links : List AuditLink) : List (Except JsString (List UInt8)) :=
  links.map fun link => .ok link.bytes

/-- A chained row, as a link. -/
theorem exists_link {row : ChainedCallerAuditEventRow} (hchained : row.isChained = true)
    {bytes : List UInt8} (hbytes : serialize row.signedContent = .ok bytes) :
    ∃ link : AuditLink, link.bytes = bytes ∧ link.previousChainHash = row.previousChainHash := by
  obtain ⟨event, signature, chainHash, previousChainHash, chainPosition⟩ := row
  cases chainHash with
  | none => cases hchained
  | some chainHash =>
    cases chainPosition with
    | none => cases hchained
    | some chainPosition =>
      exact ⟨⟨event, previousChainHash, chainPosition, bytes, hbytes⟩, rfl, rfl⟩

/-- **Chained rows that are accepted are a chain**, and its last hash is the one the next row is
to name. -/
theorem linked_of_accepted {rows : List ChainedCallerAuditEventRow} {previousHash : Option JsString}
    (h : self.AcceptedFrom previousHash rows) (hchained : ∀ row ∈ rows, row.isChained = true) :
    ∃ links, self.Linked previousHash links ∧ contents rows = linkContents links ∧
      hashAfter previousHash rows =
        HashChain.lastHash AuditLink.bytes self.sha256 previousHash links := by
  induction rows generalizing previousHash with
  | nil => exact ⟨[], trivial, rfl, rfl⟩
  | cons row rows ih =>
    obtain ⟨hchecked, hrest⟩ := h
    have hrow := hchained row List.mem_cons_self
    obtain ⟨-, bytes, -, hbytes, -⟩ := AuditEventCrypto.verify_iff.mp hchecked.verified
    obtain ⟨link, rfl, hprevious⟩ := exists_link hrow hbytes
    have hhash : row.hashAfter = some (self.sha256 link.bytes) := by
      unfold ChainedCallerAuditEventRow.hashAfter
      rw [if_pos hrow]
      unfold ChainedCallerAuditEventRow.isChained at hrow
      rw [Bool.and_eq_true] at hrow
      obtain ⟨chainHash, hchain⟩ := Option.isSome_iff_exists.mp hrow.1
      have hsame := hchecked.hash (hchained row List.mem_cons_self) chainHash hchain
      unfold TrustRecordHasher.hash at hsame
      rw [hbytes] at hsame
      rw [hchain, ← Except.ok.inj hsame]
    rw [hhash] at hrest
    obtain ⟨links, hlinked, hcontents, hlast⟩ :=
      ih hrest fun r hr => hchained r (List.mem_cons_of_mem _ hr)
    refine ⟨link :: links, ⟨hprevious.trans (hchecked.linked hrow), hlinked⟩,
      congrArg₂ List.cons hbytes hcontents, ?_⟩
    rw [hashAfter_cons, hhash, hlast, HashChain.lastHash_cons]

/-- The contents of some chains. -/
def bytesOf (chains : Set (List AuditLink)) : Set (List UInt8) :=
  {bytes | ∃ links ∈ chains, ∃ link ∈ links, link.bytes = bytes}

/-- **An accepted list of chained rows begins one of the chains that were signed**, where no one
else makes a signature and no two of their contents have one hash. -/
theorem prefix_of_accepted {chains : Set (List AuditLink)}
    (hlinked : ∀ links ∈ chains, self.Linked none links)
    (hunforgeable : self.Unforgeable (bytesOf chains))
    (hhash : Set.InjOn self.sha256 (bytesOf chains))
    {rows : List ChainedCallerAuditEventRow} (h : self.Accepts rows)
    (hchained : ∀ row ∈ rows, row.isChained = true) (hne : rows ≠ []) :
    ∃ links ∈ chains, contents rows <+: linkContents links := by
  have haccepted := accepts_iff.mp h
  obtain ⟨links, hlinks, hcontents, -⟩ := linked_of_accepted haccepted hchained
  have hverified : ∀ {previousHash} {rows : List ChainedCallerAuditEventRow},
      self.AcceptedFrom previousHash rows → ∀ row ∈ rows,
        self.crypto.verify row.signedContent row.signature = .ok true := by
    intro previousHash rows
    induction rows generalizing previousHash with
    | nil => exact fun _ row hrow => absurd hrow List.not_mem_nil
    | cons first rows ih =>
      rintro ⟨hfirst, hrest⟩ row hrow
      rcases List.mem_cons.mp hrow with rfl | hrow
      · exact hfirst.verified
      · exact ih hrest row hrow
  have hsigned : ∀ link ∈ links, ∃ c ∈ chains, ∃ signed ∈ c, signed.bytes = link.bytes := by
    intro link hlink
    have hmem : (Except.ok link.bytes : Except JsString (List UInt8)) ∈ contents rows := by
      rw [hcontents]
      exact List.mem_map_of_mem hlink
    obtain ⟨row, hrow, hbytes⟩ := List.mem_map.mp hmem
    obtain ⟨bytes, ⟨c, hc, signed, hsigned, rfl⟩, hserialized⟩ :=
      hunforgeable row (hchained row hrow) (hverified haccepted row hrow)
    exact ⟨c, hc, signed, hsigned, Except.ok.inj (hserialized.symm.trans hbytes)⟩
  have hnonempty : links ≠ [] := by
    rintro rfl
    exact hne (List.map_eq_nil_iff.mp hcontents)
  obtain ⟨c, hc, hbegins⟩ := hlinks.prefix_of_links AuditLink.named hlinked hhash hsigned hnonempty
  refine ⟨c, hc, ?_⟩
  rw [hcontents]
  have hmap := List.IsPrefix.map (fun bytes => (Except.ok bytes : Except JsString _)) hbegins
  rw [List.map_map, List.map_map] at hmap
  exact hmap

end CallerAuditChainVerifier
end Parmana.Crypto

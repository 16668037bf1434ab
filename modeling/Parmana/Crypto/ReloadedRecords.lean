import Parmana.Crypto.ExecutionChain

/-! # Reloaded records

What is stored is verified after it was written as JSON and read back.  A value, a
view of its members and every part of it keep their canonical bytes, and with them
what they are hashed to and which signatures they have.

The record the finalizer rebuilds from a saved context is sealed like the record of
the context itself, and no verifier tells the record that is read from its rows from
the record that was stored (`reload_keeps`).

The law has two exceptions.  An invalid date has no canonical bytes at all, since
`toISOString` throws, while `JSON.stringify` writes it as `null`; and the rows of the
artifacts are read in the order of their times.
-/
namespace Parmana.Crypto
open Js

/-! ## Hashed and signed alike -/

/-- Two values with the same bytes, the same hash and the same signatures. -/
structure SealedAlike (a b : Data) : Prop where
  bytes : serialize a = serialize b
  hash : ∀ sha256, TrustRecordHasher.hash sha256 a = TrustRecordHasher.hash sha256 b
  verify : ∀ {Key : Type} (provider : SignatureProvider Key),
    SignatureVerifier.verify provider a = SignatureVerifier.verify provider b

/-- A hash and a signature are of the bytes. -/
theorem sealedAlike_of_bytes {a b : Data} (h : serialize a = serialize b) : SealedAlike a b where
  bytes := h
  hash sha256 := by rw [TrustRecordHasher.hash, TrustRecordHasher.hash, h]
  verify provider := by
    funext signature publicKey
    rw [SignatureVerifier.verify, SignatureVerifier.verify, h]

/-! ## Records as they are verified -/

/-- A member that is written as a text. -/
def text? (d : Data) : Option JsString :=
  match d.toJson? with
  | some (.str text) => some text
  | _ => none

/-- The object a signature is. -/
def signature? (d : Data) : Option Signature := do
  let algorithm ← text? (d.get "algorithm")
  let keyId ← text? (d.get "keyId")
  let value ← text? (d.get "value")
  return ⟨algorithm, keyId, JsString.scalars value.units⟩

/-- The object an entry of `signatures` is. -/
def signatureEntry? (d : Data) : Option SignatureEntry := do
  let algorithm ← text? (d.get "algorithm")
  let keyId ← text? (d.get "keyId")
  let signature ← text? (d.get "signature")
  return ⟨algorithm, keyId, JsString.scalars signature.units⟩

/-- The `signatures` of a record. -/
def signatures? : Data → Option (List SignatureEntry)
  | .arr entries => entries.mapM signatureEntry?
  | _ => none

/-- The `schemaVersion` of a record. -/
def schemaVersion? : Data → Option JsNumber
  | .num n => some n
  | _ => none

/-- The record, as a verifier reads it. -/
def TrustRecordMembers.record? (m : TrustRecordMembers) : Option SignedTrustRecord := do
  let trustRecordHash ← text? m.trustRecordHash
  let signature ← signature? m.signature
  let schemaVersion ← m.schemaVersion.mapM schemaVersion?
  let signatures ← m.signatures.mapM signatures?
  return ⟨m.data, trustRecordHash, signature, schemaVersion, signatures⟩

/-- Two records of one hash, the same signatures and the same signed bytes. -/
structure SignedTrustRecord.Alike (a b : SignedTrustRecord) : Prop where
  trustRecordHash : a.trustRecordHash = b.trustRecordHash
  signature : a.signature = b.signature
  schemaVersion : a.schemaVersion = b.schemaVersion
  signatures : a.signatures = b.signatures
  canonical : SealedAlike (canonicalExecutionTrustRecord a.object)
    (canonicalExecutionTrustRecord b.object)
  hybridCanonical : ∀ schemaVersion, SealedAlike
    (hybridCanonicalExecutionTrustRecord a.object schemaVersion)
    (hybridCanonicalExecutionTrustRecord b.object schemaVersion)

section Verdicts
variable {Key : Type}

theorem HybridSignatureProvider.verify_alike {crypto : HybridCryptoProvider Key}
    {getPublicKey : JsString → Except JsString (KeyObject Key)} {a b : Data} (h : SealedAlike a b)
    (signatures : List SignatureEntry) :
    HybridSignatureProvider.verify crypto getPublicKey a signatures =
      HybridSignatureProvider.verify crypto getPublicKey b signatures := by
  unfold HybridSignatureProvider.verify
  rw [h.verify, h.verify]

/-- **The server does not tell them apart.** -/
theorem SignedTrustRecord.Alike.online {a b : SignedTrustRecord} (h : a.Alike b)
    (self : VerificationCrypto Key) : self.verify a = self.verify b := by
  have hcanonical : SealedAlike a.canonical b.canonical := h.canonical
  have hhybrid : SealedAlike a.hybridCanonical b.hybridCanonical := by
    unfold SignedTrustRecord.hybridCanonical
    rw [h.schemaVersion]
    exact h.hybridCanonical _
  unfold VerificationCrypto.verify VerificationCrypto.verifySignature
  simp only [hcanonical.hash, hcanonical.verify, h.trustRecordHash, h.signature, h.signatures,
    HybridSignatureProvider.verify_alike hhybrid]

section Offline
variable {self : OfflineVerifier Key} {a b : Data} (h : SealedAlike a b)
include h

theorem OfflineVerifier.verifyOneEntry_alike (entry : SignatureEntry) (checked : Checked) :
    self.verifyOneEntry entry a checked = self.verifyOneEntry entry b checked := by
  unfold verifyOneEntry
  simp only [h.verify]

theorem OfflineVerifier.verifyEntries_alike (entries : List SignatureEntry) :
    ∀ seenAlgorithms allValid checked,
      self.verifyEntries a entries seenAlgorithms allValid checked =
        self.verifyEntries b entries seenAlgorithms allValid checked := by
  induction entries with
  | nil =>
    intro seenAlgorithms allValid checked
    rfl
  | cons entry entries ih =>
    intro seenAlgorithms allValid checked
    simp only [verifyEntries, verifyOneEntry_alike h, ih]

end Offline

/-- **Nor does a third party.** -/
theorem SignedTrustRecord.Alike.offline {a b : SignedTrustRecord} (h : a.Alike b)
    (self : OfflineVerifier Key) :
    self.verifyExecutionTrustRecordOffline a = self.verifyExecutionTrustRecordOffline b := by
  have hcanonical : SealedAlike a.canonical b.canonical := h.canonical
  have hhybrid : SealedAlike a.hybridCanonical b.hybridCanonical := by
    unfold SignedTrustRecord.hybridCanonical
    rw [h.schemaVersion]
    exact h.hybridCanonical _
  unfold OfflineVerifier.verifyExecutionTrustRecordOffline OfflineVerifier.verifyHybrid
  simp only [hcanonical.hash, OfflineVerifier.verifyOneEntry_alike hcanonical,
    OfflineVerifier.verifyEntries_alike hhybrid, h.trustRecordHash, h.signature, h.signatures]

end Verdicts

/-! ## Chains as they are verified -/

/-- An `Execution`, with the chain fields among its members. -/
def ChainedExecution.of (execution : Entity) : ChainedExecution where
  execution := execution
  previousChainHash := text? (execution.data.get "previousChainHash")
  chainHash := text? (execution.data.get "chainHash")
  chainSignature := signature? (execution.data.get "chainSignature")

/-- An object, as an entity. -/
def Entity.ofData? : Data → Option Entity
  | .obj fs => if h : (Data.obj fs).distinct = true then some ⟨fs, h⟩ else none
  | _ => none

/-- The executions of a record. -/
def executions? : Data → Option (List Entity)
  | .arr executions => executions.mapM Entity.ofData?
  | _ => none

/-- Two rows of one entry, with the same chain fields. -/
structure ChainedExecution.Alike (a b : ChainedExecution) : Prop where
  executionId : a.execution.data.get "executionId" = b.execution.data.get "executionId"
  previousChainHash : a.previousChainHash = b.previousChainHash
  chainHash : a.chainHash = b.chainHash
  chainSignature : a.chainSignature = b.chainSignature
  entry : SealedAlike a.entry b.entry

section Chains
variable {Key : Type} {crypto : ExecutionChainCrypto Key}

theorem ChainedExecution.Alike.verifyEntry {a b : ChainedExecution} (h : a.Alike b) :
    crypto.verifyEntry a = crypto.verifyEntry b := by
  unfold ExecutionChainCrypto.verifyEntry
  simp only [h.chainHash, h.chainSignature, h.entry.hash, h.entry.verify]

theorem ChainedExecution.Alike.verifyRow {a b : ChainedExecution} (h : a.Alike b)
    {previous previous' : Option ChainedExecution}
    (hprevious :
      previous.bind ChainedExecution.chainHash = previous'.bind ChainedExecution.chainHash) :
    crypto.verifyRow previous a = crypto.verifyRow previous' b := by
  unfold ExecutionChainCrypto.verifyRow ExecutionChainCrypto.broken
  simp only [h.chainHash, h.chainSignature, h.verifyEntry, hprevious, h.previousChainHash,
    h.executionId]

/-- **A chain of rows that are alike has one verdict.** -/
theorem verifyFrom_alike {rows rows' : List ChainedExecution}
    (h : List.Forall₂ ChainedExecution.Alike rows rows') :
    ∀ {previous previous' : Option ChainedExecution},
      previous.bind ChainedExecution.chainHash = previous'.bind ChainedExecution.chainHash →
      crypto.verifyFrom previous rows = crypto.verifyFrom previous' rows' := by
  induction h with
  | nil =>
    intro previous previous' _
    rfl
  | @cons a b _ _ hrow _ ih =>
    intro previous previous' hprevious
    rw [ExecutionChainCrypto.verifyFrom, ExecutionChainCrypto.verifyFrom, hrow.verifyRow hprevious,
      @ih (some a) (some b) hrow.chainHash]

end Chains

/-! ## What is read back is read alike -/

theorem ReadBack.get {d e : Data} (h : ReadBack d e) (he : e.distinct = true) (k : JsString) :
    ReadBack (d.get k) (e.get k) :=
  ⟨h.agree.get h.distinct he k, Data.get_distinct h.distinct k, Data.get_datesValid h.datesValid k⟩

theorem text?_eq_some {d : Data} {text : JsString} :
    text? d = some text ↔ d.canon? = some (.str text) := by
  unfold text? Data.canon?
  cases d.toJson? with
  | none => simp
  | some j =>
    cases j with
    | str s => simp [Json.canon_str]
    | num n =>
      rw [Option.map_some, Json.canon_num]
      by_cases hfinite : n.isFinite = true
      · simp [hfinite]
      · simp [hfinite]
    | arr xs => simp [Json.canon_arr]
    | obj fs => simp [Json.canon_obj]
    | null => simp [Json.canon_null]
    | bool b => simp [Json.canon_bool]

theorem ReadBack.text? {d e : Data} (h : ReadBack d e) : Crypto.text? d = Crypto.text? e := by
  refine Option.ext fun text => ?_
  rw [text?_eq_some, text?_eq_some,
    show d.canon? = e.canon? from h.agree]

theorem ReadBack.signature? {d e : Data} (h : ReadBack d e) (he : e.distinct = true) :
    Crypto.signature? d = Crypto.signature? e := by
  unfold Crypto.signature?
  rw [(h.get he "algorithm").text?, (h.get he "keyId").text?, (h.get he "value").text?]

theorem ReadBack.signatureEntry? {d e : Data} (h : ReadBack d e) (he : e.distinct = true) :
    Crypto.signatureEntry? d = Crypto.signatureEntry? e := by
  unfold Crypto.signatureEntry?
  rw [(h.get he "algorithm").text?, (h.get he "keyId").text?, (h.get he "signature").text?]

/-- What agrees with an array of objects is an array of values that agree with them. -/
theorem arr_of_agree {d : Data} {es : List Entity} (hd : d.distinct = true)
    (hdates : d.datesValid = true) (h : Data.Agree d (arrayOf es)) :
    ∃ ds, d = .arr ds ∧ List.Forall₂ (fun d e => ReadBack d (Entity.data e)) ds es := by
  rw [Data.Agree, arrayOf, Data.canon?_arr] at h
  cases d with
  | arr ds =>
    refine ⟨ds, rfl, ?_⟩
    rw [Data.canon?_arr, Option.some.injEq, Json.arr.injEq, List.map_map] at h
    rw [Data.distinct, Data.distinctEach_iff] at hd
    rw [Data.datesValid, Data.datesValidEach_iff] at hdates
    -- element by element: an `undefined` would agree with no object
    induction ds generalizing es with
    | nil =>
      rw [List.map_nil, eq_comm, List.map_eq_nil_iff] at h
      rw [h]
      exact .nil
    | cons d ds ih =>
      cases es with
      | nil => cases h
      | cons e es =>
        rw [List.map_cons, List.map_cons, List.cons.injEq] at h
        refine .cons ⟨?_, hd d List.mem_cons_self, hdates d List.mem_cons_self⟩
          (ih (fun d' h' => hd d' (List.mem_cons_of_mem _ h'))
            (fun d' h' => hdates d' (List.mem_cons_of_mem _ h')) h.2)
        obtain ⟨hfirst, -⟩ := h
        rw [Function.comp, Entity.data, Data.canon?_obj, Option.getD_some] at hfirst
        rw [Data.Agree, Entity.data, Data.canon?_obj]
        cases hcanon : d.canon? with
        | none =>
          rw [hcanon] at hfirst
          cases hfirst
        | some j =>
          rw [hcanon, Option.getD_some] at hfirst
          rw [hfirst]
  | undefined => cases h
  | num n =>
    rw [Data.canon?, Data.toJson?, Option.map_some, Json.canon_num] at h
    split at h <;> cases h
  | date time => cases time <;> cases h
  | obj fs =>
    rw [Data.canon?_obj] at h
    cases h
  | _ => cases h

theorem mapM_congr {α β γ : Type} {f : α → Option γ} {g : β → Option γ} {as : List α} {bs : List β}
    (h : List.Forall₂ (fun a b => f a = g b) as bs) : as.mapM f = bs.mapM g := by
  induction h with
  | nil => rfl
  | cons hfirst _ ih => rw [List.mapM_cons, List.mapM_cons, hfirst, ih]

theorem signatures?_readBack {o : Option Data} {es : Option (List Entity)}
    (h : Option.Rel ReadBack o (es.map arrayOf)) :
    o.mapM signatures? = (es.map arrayOf).mapM signatures? := by
  cases es with
  | none =>
    cases h
    rfl
  | some es =>
    rw [Option.map_some] at h
    cases h with
    | @some d _ hread =>
      obtain ⟨ds, rfl, hentries⟩ := arr_of_agree hread.distinct hread.datesValid hread.agree
      have hmapM : ds.mapM signatureEntry? = (es.map Entity.data).mapM signatureEntry? := by
        refine mapM_congr ?_
        rw [List.forall₂_map_right_iff]
        exact hentries.imp fun _ e hentry => hentry.signatureEntry? e.distinct
      simp only [Option.map_some, Option.mapM_some, arrayOf, signatures?, hmapM]

/-- **A record that is read back is a record that no verifier tells from it.** -/
theorem TrustRecordMembers.Holds.record? {m : TrustRecordMembers} {r : ExecutionTrustRecord}
    (h : m.Holds r) (hdates : r.data.datesValid = true) :
    Option.Rel SignedTrustRecord.Alike m.record? r.members.record? := by
  have hcanonical := canonicalExecutionTrustRecord_readBack h hdates
  have hhybrid := hybridCanonicalExecutionTrustRecord_readBack h hdates
  unfold TrustRecordMembers.record?
  rw [h.trustRecordHash, h.schemaVersion, h.signature.signature? r.signature.distinct,
    signatures?_readBack h.signatures]
  simp only [ExecutionTrustRecord.members]
  -- both are a record, or neither is, whatever the stored members look like
  cases signature? r.signature.data with
  | none => exact .none
  | some signature =>
    cases (r.schemaVersion.map Data.num).mapM schemaVersion? with
    | none => exact .none
    | some schemaVersion =>
      cases (r.signatures.map arrayOf).mapM signatures? with
      | none => exact .none
      | some signatures =>
        exact .some ⟨rfl, rfl, rfl, rfl, sealedAlike_of_bytes hcanonical,
          fun version => sealedAlike_of_bytes (hhybrid version)⟩

/-- An execution that is read back is chained like the execution. -/
theorem of_alike {document : Json} {e : Entity} (h : ReadBack (.ofJson document) e.data)
    (hdates : e.data.datesValid = true)
    (hid : ∃ executionId, e.data.get "executionId" = .str executionId) :
    ∃ read, Entity.ofData? (.ofJson document) = some read ∧
      (ChainedExecution.of read).Alike (.of e) := by
  obtain ⟨fs, hfs⟩ : ∃ fs, Data.ofJson document = .obj fs := by
    by_contra hnot
    have hcanon : (Data.ofJson document).canon? = e.data.canon? := h.agree
    rw [Entity.data, Data.canon?_obj] at hcanon
    exact Data.canon?_ne_obj (fun fs hfs => hnot ⟨fs, hfs⟩) _ hcanon
  have hread := h
  rw [hfs] at hread
  refine ⟨⟨fs, hread.distinct⟩, by rw [hfs, Entity.ofData?, dif_pos hread.distinct], ?_⟩
  have hprevious := (hread.get e.distinct "previousChainHash").text?
  exact {
    executionId := by
      obtain ⟨executionId, hid⟩ := hid
      have hagree := (h.get e.distinct "executionId").agree
      rw [hid] at hagree
      have hget := (get_ofJson_text hagree).1
      rw [hfs] at hget
      exact hget.trans hid.symm
    previousChainHash := hprevious
    chainHash := (hread.get e.distinct "chainHash").text?
    chainSignature := (hread.get e.distinct "chainSignature").signature?
      (Data.get_distinct e.distinct "chainSignature")
    entry := by
      refine sealedAlike_of_bytes ?_
      have hentry := canonicalChainEntry_readBack hread e.distinct
        (canonicalChainEntry_datesValid hdates (text? (e.data.get "previousChainHash")))
      rw [← hprevious] at hentry
      refine hentry.trans ?_
      rw [hprevious]
      rfl }

/-- **The chain of a record that is read back has the verdict of the chain.** -/
theorem TrustRecordMembers.Holds.chain {m : TrustRecordMembers} {r : ExecutionTrustRecord}
    (h : m.Holds r) (hdates : r.data.datesValid = true) :
    ∃ executions, executions? m.executions = some executions ∧
      List.Forall₂ ChainedExecution.Alike (executions.map .of) (r.executions.map .of) := by
  obtain ⟨documents, hdocuments, hread⟩ := h.executions
  have hvalid : ∀ e ∈ r.executions, e.data.datesValid = true := by
    have hall := Data.datesValidMembers_iff.mp (r.signed_datesValid hdates)
    have harray : (arrayOf r.executions).datesValid = true :=
      hall ("executions", arrayOf r.executions) (by simp [TrustRecordMembers.signed,
        ExecutionTrustRecord.members])
    rw [arrayOf, Data.datesValid, Data.datesValidEach_iff] at harray
    exact fun e he => harray e.data (List.mem_map_of_mem he)
  have hid := r.identified
  rw [hdocuments, executions?]
  clear hdocuments
  -- induction on the documents, beside the executions they were stored of
  generalize r.executions = es at hread hvalid hid ⊢
  induction hread with
  | nil => exact ⟨[], rfl, .nil⟩
  | @cons document e documents es hfirst _ ih =>
    obtain ⟨read, hread, halike⟩ :=
      of_alike hfirst (hvalid e List.mem_cons_self) (hid e List.mem_cons_self)
    obtain ⟨rest, hrest, hothers⟩ := ih (fun e he => hvalid e (List.mem_cons_of_mem _ he))
      fun e he => hid e (List.mem_cons_of_mem _ he)
    refine ⟨read :: rest, ?_, .cons halike hothers⟩
    rw [List.map_cons, List.mapM_cons, hread, hrest]
    rfl

/-! ## The record that is rebuilt -/

/-- Whether a value counts as true in a condition. -/
def truthy : Data → Bool
  | .undefined | .null => false
  | .bool b => b
  | .num n => n ≠ .nan && n.merge ≠ JsNumber.zero
  | .str s => !s.isEmpty
  | _ => true

/-- A value that is there. -/
def defined : Data → Option Data
  | .undefined => none
  | d => some d

/-- `readConnectorEvidenceHash`. -/
def readConnectorEvidenceHash (context : Data) : Data :=
  match valueAt context ["execution", "evidence", "attributes", "connector",
    "connectorEvidenceHash"] with
  | .str connectorEvidenceHash => .str connectorEvidenceHash
  | _ => .undefined

/-- `BusinessTrustRecordBuilder`, with the digest it hashes with, the signature of no value
that stands in a record until it is signed, and what it signs with: the second signatures only
when `CRYPTO_MODE` is `hybrid`. -/
structure BusinessTrustRecordBuilder where
  sha256 : List UInt8 → JsString
  placeholder : Data
  sign : List UInt8 → Except JsString Data
  signHybrid : Option (List UInt8 → Except JsString Data)

namespace BusinessTrustRecordBuilder
variable (self : BusinessTrustRecordBuilder)

/-- `buildEvidenceAnchor`. -/
def buildEvidenceAnchor (context : Data) : Except JsString (Option Data) :=
  let policyContentHash := valueAt context ["transaction", "policy", "contentHash"]
  let governanceAnchorStatus :=
    valueAt context ["transaction", "policy", "governanceAnchor", "status"]
  let connectorEvidenceHash := readConnectorEvidenceHash context
  match defined policyContentHash, defined governanceAnchorStatus,
    defined connectorEvidenceHash with
  | none, none, none => .ok none
  | _, _, _ => do
    let anchorHash ← TrustRecordHasher.hash self.sha256 (.obj
      [("policyContentHash", policyContentHash), ("governanceAnchorStatus", governanceAnchorStatus),
        ("connectorEvidenceHash", connectorEvidenceHash)])
    return some (.obj (spread "policyContentHash" (defined policyContentHash) ++
      spread "governanceAnchorStatus" (defined governanceAnchorStatus) ++
      spread "connectorEvidenceHash" (defined connectorEvidenceHash) ++
      ([("anchorHash", .str anchorHash)] : DataFields)))

/-- An artifact of a context, as the list the record has of it. -/
def listOf (artifact : Data) : Data := .arr (if truthy artifact then [artifact] else [])

/-- The record before it is hashed. -/
def draft (context : Data) (trustRecordId : JsString) (now : Int) (evidenceAnchor : Option Data) :
    TrustRecordMembers where
  trustRecordId := .str trustRecordId
  businessTransactionId := valueAt context ["transaction", "businessTransactionId"]
  transaction := context.get "transaction"
  authorization := defined (context.get "authorization")
  overrides := listOf (context.get "override")
  executions := .arr [context.get "execution"]
  verifications := listOf (context.get "verification")
  receipts := listOf (context.get "receipt")
  evidenceAnchor := evidenceAnchor
  createdAt := .date (some now)
  updatedAt := .date (some now)
  trustRecordHash := .str ""
  signature := self.placeholder
  schemaVersion := none
  signatures := none

/-- The hashing and signing of `build`. -/
def hashAndSign (trustRecord : TrustRecordMembers) : Except JsString TrustRecordMembers := do
  let trustRecordHash ←
    TrustRecordHasher.hash self.sha256 (canonicalExecutionTrustRecord trustRecord.data)
  let recordWithHash := { trustRecord with trustRecordHash := .str trustRecordHash }
  let signature ← self.sign (← serialize (canonicalExecutionTrustRecord recordWithHash.data))
  match self.signHybrid with
  | none => return { recordWithHash with signature }
  | some signHybrid =>
    let signatures ← signHybrid (← serialize
      (hybridCanonicalExecutionTrustRecord recordWithHash.data HYBRID_SCHEMA_VERSION))
    return { recordWithHash with
      signature
      schemaVersion := some (.num HYBRID_SCHEMA_VERSION)
      signatures := some signatures }

/-- `build`, with the identifier it draws and at the time it reads. -/
def build (context : Data) (trustRecordId : JsString) (now : Int) :
    Except JsString TrustRecordMembers := do
  if !truthy (context.get "execution") then
    throw ("Execution artifact is required." : JsString)
  let evidenceAnchor ← self.buildEvidenceAnchor context
  self.hashAndSign (self.draft context trustRecordId now evidenceAnchor)

end BusinessTrustRecordBuilder

/-- How a record is sealed: its hash, its signatures, and the bytes they are of. -/
structure TrustRecordSeal where
  trustRecordHash : Data
  signature : Data
  schemaVersion : Option Data
  signatures : Option Data
  canonical : Except JsString (List UInt8)
  hybridCanonical : JsNumber → Except JsString (List UInt8)

/-- The seal of a record. -/
def TrustRecordMembers.sealed (m : TrustRecordMembers) : TrustRecordSeal where
  trustRecordHash := m.trustRecordHash
  signature := m.signature
  schemaVersion := m.schemaVersion
  signatures := m.signatures
  canonical := serialize (canonicalExecutionTrustRecord m.data)
  hybridCanonical schemaVersion :=
    serialize (hybridCanonicalExecutionTrustRecord m.data schemaVersion)

namespace BusinessTrustRecordBuilder
variable {self : BusinessTrustRecordBuilder}

/-- Records whose signed members have the same bytes are sealed alike. -/
theorem hashAndSign_sealed {m m' : TrustRecordMembers}
    (hcanonical : serialize (.obj m.signed) = serialize (.obj m'.signed))
    (hhybrid : ∀ schemaVersion,
      serialize (.obj (m.hybridSigned schemaVersion)) =
        serialize (.obj (m'.hybridSigned schemaVersion)))
    (hversion : m.schemaVersion = m'.schemaVersion) (hsignatures : m.signatures = m'.signatures) :
    (self.hashAndSign m).map TrustRecordMembers.sealed =
      (self.hashAndSign m').map TrustRecordMembers.sealed := by
  have hseal : ∀ (hash signature : Data) (version signatures : Option Data),
      TrustRecordMembers.sealed { m with
        trustRecordHash := hash
        signature := signature
        schemaVersion := version
        signatures := signatures } =
      TrustRecordMembers.sealed { m' with
        trustRecordHash := hash
        signature := signature
        schemaVersion := version
        signatures := signatures } := by
    intro hash signature version signatures
    unfold TrustRecordMembers.sealed
    simp only [TrustRecordMembers.canonical_data, TrustRecordMembers.hybrid_data]
    exact congrArg₂ (TrustRecordSeal.mk hash signature version signatures) hcanonical
      (funext hhybrid)
  have hbytes : ∀ hash : Data,
      serialize (canonicalExecutionTrustRecord { m with trustRecordHash := hash }.data) =
        serialize (canonicalExecutionTrustRecord { m' with trustRecordHash := hash }.data) := by
    intro hash
    rw [TrustRecordMembers.canonical_data, TrustRecordMembers.canonical_data]
    exact hcanonical
  have hhybridBytes : ∀ hash : Data,
      serialize (hybridCanonicalExecutionTrustRecord { m with trustRecordHash := hash }.data
          HYBRID_SCHEMA_VERSION) =
        serialize (hybridCanonicalExecutionTrustRecord { m' with trustRecordHash := hash }.data
          HYBRID_SCHEMA_VERSION) := by
    intro hash
    rw [TrustRecordMembers.hybrid_data, TrustRecordMembers.hybrid_data]
    exact hhybrid _
  unfold hashAndSign TrustRecordHasher.hash
  rw [m.canonical_data, m'.canonical_data, hcanonical]
  -- each hashing and signing is of the same bytes, so both fail at the same one or at none
  cases serialize (.obj m'.signed) with
  | error e => rfl
  | ok bytes =>
    simp only [Except.map, Bind.bind, Except.bind, hbytes, hhybridBytes]
    cases serialize (canonicalExecutionTrustRecord
        { m' with trustRecordHash := .str (self.sha256 bytes) }.data) with
    | error e => rfl
    | ok signed =>
      dsimp only
      cases self.sign signed with
      | error e => rfl
      | ok signature =>
        dsimp only
        cases self.signHybrid with
        | none =>
          dsimp only [pure, Except.pure]
          rw [hversion, hsignatures]
          exact congrArg Except.ok (hseal _ _ _ _)
        | some signHybrid =>
          dsimp only
          cases serialize (hybridCanonicalExecutionTrustRecord
              { m' with trustRecordHash := .str (self.sha256 bytes) }.data
              HYBRID_SCHEMA_VERSION) with
          | error e => rfl
          | ok signed =>
            dsimp only
            cases signHybrid signed with
            | error e => rfl
            | ok signatures => exact congrArg Except.ok (hseal _ _ _ _)

/-! ### From the context that was saved -/

theorem eq_undefined_of_agree {d : Data} (h : Data.Agree d .undefined) : d = .undefined := by
  cases d with
  | undefined => rfl
  | date time => cases time <;> cases h
  | _ => cases h

/-- An artifact of a context is an object, or there is none. -/
def Artifact (d : Data) : Prop := d = .undefined ∨ ∃ fs, d = .obj fs

theorem truthy_readBack {d e : Data} (h : ReadBack d e) (he : Artifact e) :
    truthy d = truthy e := by
  rcases he with rfl | ⟨fs, rfl⟩
  · rw [eq_undefined_of_agree h.agree]
  · obtain ⟨gs, rfl⟩ : ∃ gs, d = .obj gs := by
      by_contra hnot
      have hcanon : d.canon? = (Data.obj fs).canon? := h.agree
      rw [Data.canon?_obj] at hcanon
      exact Data.canon?_ne_obj (fun gs hgs => hnot ⟨gs, hgs⟩) _ hcanon
    rfl

theorem listOf_readBack {d e : Data} (h : ReadBack d e) (he : Artifact e) :
    ReadBack (listOf d) (listOf e) := by
  unfold listOf
  rw [truthy_readBack h he]
  split
  · exact .arr (.cons h .nil)
  · exact .arr .nil

theorem listOf_distinct {d : Data} (h : d.distinct = true) : (listOf d).distinct = true := by
  rw [listOf, Data.distinct, Data.distinctEach_iff]
  rintro x hx
  split at hx
  · rwa [List.mem_singleton.mp hx]
  · cases hx

theorem listOf_datesValid {d : Data} (h : d.datesValid = true) : (listOf d).datesValid = true := by
  rw [listOf, Data.datesValid, Data.datesValidEach_iff]
  rintro x hx
  split at hx
  · rwa [List.mem_singleton.mp hx]
  · cases hx

theorem getD_defined (d : Data) : (defined d).getD .undefined = d := by
  cases d <;> rfl

end BusinessTrustRecordBuilder

/-- `RuntimeContext`, as it is when it is saved. -/
structure ReleasedContext extends Value where
  artifacts : ∀ k ∈ (["execution", "override", "verification", "receipt"] : List JsString),
    BusinessTrustRecordBuilder.Artifact (data.get k)

namespace BusinessTrustRecordBuilder
variable {self : BusinessTrustRecordBuilder}

theorem readConnectorEvidenceHash_plain (context : Data) :
    (readConnectorEvidenceHash context).distinct = true ∧
      (readConnectorEvidenceHash context).datesValid = true := by
  unfold readConnectorEvidenceHash
  split <;> exact ⟨rfl, rfl⟩

/-- The anchor of a context with valid dates is built. -/
theorem buildEvidenceAnchor_ok {context : Data} (hdistinct : context.distinct = true)
    (hdates : context.datesValid = true) :
    ∃ evidenceAnchor, self.buildEvidenceAnchor context = .ok evidenceAnchor := by
  obtain ⟨hread, hvalid⟩ := readConnectorEvidenceHash_plain context
  have hserialize : ∃ bytes, serialize (.obj
      [("policyContentHash", valueAt context ["transaction", "policy", "contentHash"]),
        ("governanceAnchorStatus",
          valueAt context ["transaction", "policy", "governanceAnchor", "status"]),
        ("connectorEvidenceHash", readConnectorEvidenceHash context)]) = .ok bytes := by
    refine ⟨_, serialize_eq ?_ ?_⟩
    · rw [Data.distinct, Bool.and_eq_true, decide_eq_true_eq]
      refine ⟨(by decide : (["policyContentHash", "governanceAnchorStatus",
        "connectorEvidenceHash"] : List JsString).Nodup), ?_⟩
      simp only [Data.distinctMembers, at_distinct hdistinct, hread, Bool.and_self]
    · simp only [Data.datesValid, Data.datesValidMembers, at_datesValid hdates, hvalid,
        Bool.and_self]
  obtain ⟨bytes, hbytes⟩ := hserialize
  unfold buildEvidenceAnchor TrustRecordHasher.hash
  simp only [hbytes, Except.map, Bind.bind, Except.bind]
  split
  · exact ⟨none, rfl⟩
  · exact ⟨_, rfl⟩

section
variable {context : ReleasedContext} {saved : Data}

/-- The drafts have the same signed members. -/
theorem draft_readBack (h : ReadBack saved context.data) (trustRecordId : JsString) (now : Int)
    (evidenceAnchor evidenceAnchor' : Option Data) :
    MembersReadBack (self.draft saved trustRecordId now evidenceAnchor').signed
      (self.draft context.data trustRecordId now evidenceAnchor).signed := by
  have hget := fun k => h.get context.distinct k
  have hauthorization : ReadBack ((defined (saved.get "authorization")).getD .undefined)
      ((defined (context.data.get "authorization")).getD .undefined) := by
    rw [getD_defined, getD_defined]
    exact hget _
  have hname := (hget "transaction").get (Data.get_distinct context.distinct "transaction")
    "businessTransactionId"
  exact .cons ⟨rfl, .refl rfl rfl⟩ (.cons ⟨rfl, hname⟩ (.cons ⟨rfl, hget _⟩
    (.cons ⟨rfl, hauthorization⟩
      (.cons ⟨rfl, listOf_readBack (hget _) (context.artifacts _ (by decide))⟩
        (.cons ⟨rfl, .arr (.cons (hget _) .nil)⟩ (.cons ⟨rfl, .refl rfl rfl⟩ .nil))))))

theorem draft_distinct (context : ReleasedContext) (trustRecordId : JsString) (now : Int)
    (evidenceAnchor : Option Data) : Data.distinctMembers
      (self.draft context.data trustRecordId now evidenceAnchor).signed = true := by
  have hget : ∀ k, (context.data.get k).distinct = true := Data.get_distinct context.distinct
  have hname := at_distinct context.distinct ["transaction", "businessTransactionId"]
  rw [Data.distinctMembers_iff]
  rintro p hp
  simp only [TrustRecordMembers.signed, List.mem_cons, List.not_mem_nil, or_false] at hp
  rcases hp with rfl | rfl | rfl | rfl | rfl | rfl | rfl
  · rfl
  · exact hname
  · exact hget _
  · exact (congrArg Data.distinct (getD_defined _)).trans (hget _)
  · exact listOf_distinct (hget _)
  · exact (Bool.and_true _).trans (hget _)
  · rfl

theorem draft_datesValid (hdates : context.data.datesValid = true) (trustRecordId : JsString)
    (now : Int) (evidenceAnchor : Option Data) : Data.datesValidMembers
      (self.draft context.data trustRecordId now evidenceAnchor).signed = true := by
  have hget : ∀ k, (context.data.get k).datesValid = true := Data.get_datesValid hdates
  have hname := at_datesValid hdates ["transaction", "businessTransactionId"]
  rw [Data.datesValidMembers_iff]
  rintro p hp
  simp only [TrustRecordMembers.signed, List.mem_cons, List.not_mem_nil, or_false] at hp
  rcases hp with rfl | rfl | rfl | rfl | rfl | rfl | rfl
  · rfl
  · exact hname
  · exact hget _
  · exact (congrArg Data.datesValid (getD_defined _)).trans (hget _)
  · exact listOf_datesValid (hget _)
  · exact (Bool.and_true _).trans (hget _)
  · rfl

/-- **The record that is rebuilt from the saved context is sealed like the record of the
context**, of one identifier and one time. -/
theorem build_sealed (h : ReadBack saved context.data) (hdates : context.data.datesValid = true)
    (trustRecordId : JsString) (now : Int) :
    (self.build saved trustRecordId now).map TrustRecordMembers.sealed =
      (self.build context.data trustRecordId now).map TrustRecordMembers.sealed := by
  obtain ⟨evidenceAnchor, hanchor⟩ := @buildEvidenceAnchor_ok self _ context.distinct hdates
  obtain ⟨evidenceAnchor', hanchor'⟩ := @buildEvidenceAnchor_ok self _ h.distinct h.datesValid
  -- the anchors may differ: they are no part of what is hashed and signed
  have hexecution := truthy_readBack (h.get context.distinct "execution")
    (context.artifacts _ (by decide))
  unfold build
  rw [hanchor, hanchor', hexecution]
  by_cases hpresent : truthy (context.data.get "execution") = true
  · rw [hpresent]
    have hsigned := @draft_readBack self _ _ h trustRecordId now evidenceAnchor evidenceAnchor'
    have hdistinct := @draft_distinct self context trustRecordId now evidenceAnchor
    have hvalid := @draft_datesValid self _ hdates trustRecordId now evidenceAnchor
    exact hashAndSign_sealed (serialize_signed hsigned hdistinct hvalid)
      (serialize_hybridSigned hsigned hdistinct hvalid) rfl rfl
  · rw [Bool.not_eq_true] at hpresent
    rw [hpresent]
    rfl

end

end BusinessTrustRecordBuilder

/-! ## What is reloaded -/

theorem map_alike {α : Type} {f : SignedTrustRecord → α} {o o' : Option SignedTrustRecord}
    (h : Option.Rel SignedTrustRecord.Alike o o') (hf : ∀ a b, a.Alike b → f a = f b) :
    o.map f = o'.map f := by
  cases h with
  | none => rfl
  | some h => exact congrArg some (hf _ _ h)

/-- **Whatever is reloaded is hashed, signed and verified as it was**: every part of a value,
an intent, the record that is rebuilt from a saved context, and a record with its chain that is
read from its rows, the artifacts being in the order of their times. -/
theorem reload_keeps :
    (∀ v : Value, v.data.datesValid = true → ∃ e, v.data.reload = some e ∧
      (∀ path, SealedAlike (valueAt e path) (valueAt v.data path)) ∧
      SealedAlike (canonicalExecutionIntent e) (canonicalExecutionIntent v.data)) ∧
    (∀ context : ReleasedContext, context.data.datesValid = true →
      ∃ saved, context.data.reload = some saved ∧
        ∀ (builder : BusinessTrustRecordBuilder) trustRecordId now,
          (builder.build saved trustRecordId now).map TrustRecordMembers.sealed =
            (builder.build context.data trustRecordId now).map TrustRecordMembers.sealed) ∧
    ∀ jsonb r touchedAt rows, r.data.datesValid = true → InOrder "startedAt" r.executions →
      InOrder "approvedAt" r.overrides → store jsonb r touchedAt = some rows →
      SealedAlike (canonicalExecutionTrustRecord (load rows).data)
          (canonicalExecutionTrustRecord r.data) ∧
        (∀ (Key : Type) (self : VerificationCrypto Key),
          (load rows).record?.map self.verify = r.members.record?.map self.verify) ∧
        (∀ (Key : Type) (self : OfflineVerifier Key),
          (load rows).record?.map self.verifyExecutionTrustRecordOffline =
            r.members.record?.map self.verifyExecutionTrustRecordOffline) ∧
        ∃ executions, executions? (load rows).executions = some executions ∧
          ∀ (Key : Type) (self : ExecutionChainCrypto Key),
            self.verifyChain (executions.map .of) = self.verifyChain (r.executions.map .of) := by
  refine ⟨fun v hdates => ?_, fun context hdates => ?_,
    fun jsonb r touchedAt rows hdates hexecutions hoverrides hstore => ?_⟩
  · obtain ⟨j, hreload, hpath⟩ := reload_serialize v hdates
    obtain ⟨e, hreload', hread⟩ := ReadBack.of_reload v.distinct v.written
    cases hreload.symm.trans hreload'
    exact ⟨_, hreload, fun path => sealedAlike_of_bytes (hpath path),
      sealedAlike_of_bytes (serialize_view hread v.distinct hdates (by decide))⟩
  · obtain ⟨saved, hreload, hread⟩ := ReadBack.of_reload context.distinct context.written
    exact ⟨saved, hreload, fun builder trustRecordId now =>
      builder.build_sealed hread hdates trustRecordId now⟩
  · have hholds := load_store hstore hexecutions hoverrides
    have halike := hholds.record? hdates
    obtain ⟨executions, hread, hchain⟩ := hholds.chain hdates
    refine ⟨sealedAlike_of_bytes (canonicalExecutionTrustRecord_readBack hholds hdates),
      fun Key self => ?_, fun Key self => ?_, executions, hread,
      fun Key self => verifyFrom_alike hchain rfl⟩
    · exact map_alike halike fun _ _ h => h.online self
    · exact map_alike halike fun _ _ h => h.offline self

/-! ### Two executions -/

namespace Reloading

/-- A database that holds what it can as it is. -/
def plain : Jsonb where
  read j := if j.Storable then some j else none
  holds := by
    intro j stored h
    split at h
    · cases h
      assumption
    · cases h
  keeps := by
    intro j stored hdistinct h
    split at h
    · cases h
      exact ⟨hdistinct, rfl⟩
    · cases h

/-- An execution that is started at a time. -/
def execution (executionId : String) (startedAt : Int) : Entity where
  members := [("executionId", .str executionId), ("businessTransactionId", .str "transaction"),
    ("decision", .obj [("reason", .undefined)]), ("status", .str "COMPLETED"),
    ("mode", .str "SYNC"), ("startedAt", .date (some startedAt))]
  distinct := rfl

/-- A record of executions. -/
def record (executions : List Entity)
    (identified : ∀ execution ∈ executions, ∃ executionId,
      execution.data.get "executionId" = .str executionId) : ExecutionTrustRecord where
  trustRecordId := "record"
  businessTransactionId := "transaction"
  transaction := ⟨[("businessTransactionId", .str "transaction")], rfl⟩
  overrides := []
  executions := executions
  verifications := []
  receipts := []
  trustRecordHash := "00"
  signature := ⟨[("algorithm", .str "ed25519"), ("keyId", .str "default"), ("value", .str "c2ln"),
    ("signedAt", .date (some 2))], rfl⟩
  authorization := none
  schemaVersion := none
  signatures := none
  evidenceAnchor := none
  createdAt := some 2
  updatedAt := some 2
  drawn := by decide
  digits := by decide
  named := rfl
  identified := identified

theorem identified : ∀ e ∈ [execution "first" 0, execution "second" 1], ∃ executionId,
    e.data.get "executionId" = .str executionId := by
  simp only [List.forall_mem_cons]
  exact ⟨⟨_, rfl⟩, ⟨_, rfl⟩, fun _ h => absurd h List.not_mem_nil⟩

theorem identified_swapped : ∀ e ∈ [execution "second" 1, execution "first" 0], ∃ executionId,
    e.data.get "executionId" = .str executionId := by
  simp only [List.forall_mem_cons]
  exact ⟨⟨_, rfl⟩, ⟨_, rfl⟩, fun _ h => absurd h List.not_mem_nil⟩

end Reloading

open Reloading in
theorem reload_keeps_executions : ∃ rows, store plain (record _ identified) (some 3) = some rows ∧
    SealedAlike (canonicalExecutionTrustRecord (load rows).data)
      (canonicalExecutionTrustRecord (record _ identified).data) := by
  obtain ⟨rows, hrows⟩ := Option.isSome_iff_exists.mp
    (by decide +kernel : (store plain (record _ identified) (some 3)).isSome = true)
  have hexecutions : InOrder "startedAt" [execution "first" 0, execution "second" 1] := by
    refine .cons ?_ (.cons (fun _ h => absurd h List.not_mem_nil) .nil)
    rintro _ h s hs t ht
    rw [List.mem_singleton.mp h] at ht
    cases hs
    cases ht
    decide
  have hoverrides : InOrder "approvedAt" [] := .nil
  exact ⟨rows, hrows, (reload_keeps.2.2 plain (record _ identified) (some 3) rows (by decide)
    hexecutions hoverrides hrows).1⟩

open Reloading in
/-- **An invalid date has no canonical bytes, and its reload has; executions that are not in
the order of their times are read in another.** -/
theorem reload_differs :
    (¬ ∀ v : Value, ∃ e, v.data.reload = some e ∧ serialize e = serialize v.data) ∧
      ∃ rows, store plain (record _ identified_swapped) (some 3) = some rows ∧
        serialize (canonicalExecutionTrustRecord (load rows).data) ≠
          serialize (canonicalExecutionTrustRecord (record _ identified_swapped).data) := by
  constructor
  · intro h
    obtain ⟨e, hreload, hbytes⟩ := h ⟨.date none, rfl, by simp [Data.toJson?]⟩
    have hnull : (Data.date none).reload = some (.ofJson .null) := by
      rw [Data.reload, Data.stringify, Data.toJson?, Option.map_some, Option.bind_some,
        Json.parse_stringify rfl]
      rfl
    rw [hnull] at hreload
    cases hreload
    cases hbytes
  · obtain ⟨rows, hrows⟩ := Option.isSome_iff_exists.mp
      (by decide +kernel : (store plain (record _ identified_swapped) (some 3)).isSome = true)
    refine ⟨rows, hrows, fun hbytes => ?_⟩
    have hother : (store plain (record _ identified_swapped) (some 3)).map (fun rows =>
        serialize (canonicalExecutionTrustRecord (load rows).data)) ≠
          some (serialize (canonicalExecutionTrustRecord (record _ identified_swapped).data)) := by
      decide +kernel
    rw [hrows, Option.map_some, hbytes] at hother
    exact hother rfl

end Parmana.Crypto

import Parmana.Collections.Table
import Parmana.Js.Data
import Parmana.Runtime.Repositories

/-! # The two repositories of trust records

`ExecutionTrustRecordRepository` is implemented twice.  The in-memory repository keeps a
record as one value under its transaction; the one over Postgres keeps a header row for
each record and the artifacts in tables of their own, and puts the record together when it
is read.

What the services that complete a record rely on is little, and the same of both: a
transaction has at most one record, a record that is created where there is none is there
under its identifier, an artifact that is appended is read with the record, and nothing
else changes which record a transaction has.  `TrustRecordStorage` is an implementation
with the proofs of that.
-/
namespace Parmana
open Js

/-! ## Artifacts of a record -/

/-- `VerificationStatus`. -/
inductive VerificationStatus where
  | verified
  | failed
  deriving DecidableEq, Repr

def VerificationStatus.name : VerificationStatus → JsString
  | .verified => "VERIFIED"
  | .failed => "FAILED"

/-- `Verification`. -/
structure Verification where
  verificationId : JsString
  businessTransactionId : JsString
  status : VerificationStatus
  message : JsString
  verifiedAt : Int
  trustRecordHash : JsString
  deriving DecidableEq

/-- A verification as a record holds it, a date as it is written. -/
def Verification.json (verification : Verification) : Json :=
  .obj [("verificationId", .str verification.verificationId),
    ("businessTransactionId", .str verification.businessTransactionId),
    ("status", .str verification.status.name), ("message", .str verification.message),
    ("verifiedAt", .str (toISOString verification.verifiedAt)),
    ("trustRecordHash", .str verification.trustRecordHash)]

/-- What a receipt is made of before it is signed. -/
structure ReceiptPayload where
  receiptId : JsString
  businessTransactionId : JsString
  trustRecordHash : JsString
  receiptHash : JsString
  issuedAt : Int
  deriving DecidableEq

/-- `Receipt`. -/
structure Receipt extends ReceiptPayload where
  algorithm : JsString
  signature : JsString
  deriving DecidableEq

/-- A receipt as a record holds it. -/
def Receipt.json (receipt : Receipt) : Json :=
  .obj [("receiptId", .str receipt.receiptId),
    ("businessTransactionId", .str receipt.businessTransactionId),
    ("trustRecordHash", .str receipt.trustRecordHash),
    ("receiptHash", .str receipt.receiptHash), ("issuedAt", .str (toISOString receipt.issuedAt)),
    ("algorithm", .str receipt.algorithm), ("signature", .str receipt.signature)]

namespace ExecutionTrustRecord

/-- `trustRecord.verifications.at(-1)?.status`. -/
def latestStatus (record : ExecutionTrustRecord) : JsValue :=
  match record.verifications.getLast? with
  | none => .undefined
  | some verification => (JsValue.json verification).get "status"

/-- `trustRecord.verifications.at(-1)?.status === VerificationStatus.VERIFIED`. -/
def isVerified (record : ExecutionTrustRecord) : Bool :=
  JsValue.strictEq record.latestStatus (.json (.str VerificationStatus.verified.name))

end ExecutionTrustRecord

/-! ## What a repository is asked to write -/

/-- The writes of `ExecutionTrustRecordRepository`, an execution with the time it
started. -/
inductive TrustRecordWrite where
  | create (record : ExecutionTrustRecord)
  | appendExecution (businessTransactionId : JsString) (execution : Execution) (startedAt : Int)
  | replaceExecution (execution : Execution)
  | appendVerification (businessTransactionId : JsString) (verification : Verification)
  | appendReceipt (businessTransactionId : JsString) (receipt : Receipt)
  deriving DecidableEq

/-- The writes the pipeline makes while an action is carried out. -/
def TrustRecordWrite.isOfPipeline : TrustRecordWrite → Bool
  | .appendExecution .. | .replaceExecution _ => true
  | _ => false

/-- Stored records, at most one of a transaction. -/
abbrev TrustRecordTable := Table (fun record : ExecutionTrustRecord => record.businessTransactionId)

namespace TrustRecordTable

/-- The identifier of the record a transaction has. -/
def recordId (records : TrustRecordTable) (id : JsString) : Option JsString :=
  (records.get id).map (·.trustRecordId)

end TrustRecordTable

/-- An implementation of `ExecutionTrustRecordRepository`, with what its callers rely
on. -/
structure TrustRecordStorage where
  State : Type
  /-- The stored records, each as it is read. -/
  records : State → TrustRecordTable
  write : State → TrustRecordWrite → Except Failure State
  /-- A record that is created where there is none is there. -/
  created : ∀ {s s' record}, write s (.create record) = .ok s' →
    (records s).get record.businessTransactionId = none →
      (records s').recordId record.businessTransactionId = some record.trustRecordId
  /-- Only a creation changes which record a transaction has. -/
  identity : ∀ {s s' w} id, write s w = .ok s' →
    (∀ record, w = .create record → record.businessTransactionId ≠ id) →
      (records s').recordId id = (records s).recordId id
  /-- A record has the verification that was appended to it. -/
  verified : ∀ {s s' id verification record},
    write s (.appendVerification id verification) = .ok s' →
      (records s').get id = some record → record.verifications ≠ []
  /-- A record has the receipt that was appended to it, and the verifications it had. -/
  receipted : ∀ {s s' id receipt before after},
    write s (.appendReceipt id receipt) = .ok s' →
      (records s).get id = some before → (records s').get id = some after →
        after.verifications = before.verifications ∧ after.receipts ≠ []

/-! ## In memory -/

namespace MemoryTrustRecords

/-- `MemoryExecutionTrustRecordRepository`: a record is replaced by a copy, and nothing
happens where a transaction has none. -/
def write (records : TrustRecordTable) : TrustRecordWrite → TrustRecordTable
  | .create record => records.set record
  | .appendExecution id execution _ =>
    records.amend id
      (fun record => { record with executions := record.executions ++ [execution] }) (fun _ => rfl)
  | .replaceExecution execution =>
    records.amend execution.businessTransactionId
      (fun record => { record with
        executions := record.executions.map fun existing =>
          if existing.executionId = execution.executionId then execution else existing })
      (fun _ => rfl)
  | .appendVerification id verification =>
    records.amend id
      (fun record => { record with verifications := record.verifications ++ [verification.json] })
      (fun _ => rfl)
  | .appendReceipt id receipt =>
    records.amend id
      (fun record => { record with receipts := record.receipts ++ [receipt.json] }) (fun _ => rfl)

/-- An amended record keeps its identifier. -/
theorem recordId_amend (records : TrustRecordTable) (id id' : JsString)
    {f : ExecutionTrustRecord → ExecutionTrustRecord}
    (hf : ∀ record, (f record).businessTransactionId = record.businessTransactionId)
    (hid : ∀ record, (f record).trustRecordId = record.trustRecordId) :
    TrustRecordTable.recordId (records.amend id f hf) id' =
      TrustRecordTable.recordId records id' := by
  unfold TrustRecordTable.recordId
  rw [Table.get_amend]
  split
  · rw [Option.map_map]
    exact congrArg (fun g => Option.map g (records.get id')) (funext hid)
  · rfl

theorem recordId_create (records : TrustRecordTable) (record : ExecutionTrustRecord) :
    (write records (.create record)).recordId record.businessTransactionId =
      some record.trustRecordId := by
  unfold TrustRecordTable.recordId write
  rw [Table.get_set, if_pos rfl]
  rfl

/-- Only a creation changes which record a transaction has. -/
theorem recordId_write (records : TrustRecordTable) {w : TrustRecordWrite} {id : JsString}
    (hcreate : ∀ record, w = .create record → record.businessTransactionId ≠ id) :
    (write records w).recordId id = records.recordId id := by
  cases w with
  | create record =>
    unfold TrustRecordTable.recordId write
    rw [Table.get_set, if_neg (Ne.symm (hcreate record rfl))]
  | appendExecution id' execution startedAt =>
    apply recordId_amend
    · exact fun _ => rfl
    · exact fun _ => rfl
  | replaceExecution execution =>
    apply recordId_amend
    · exact fun _ => rfl
    · exact fun _ => rfl
  | appendVerification id' verification =>
    apply recordId_amend
    · exact fun _ => rfl
    · exact fun _ => rfl
  | appendReceipt id' receipt =>
    apply recordId_amend
    · exact fun _ => rfl
    · exact fun _ => rfl

/-- What is read of an amended record. -/
theorem of_get_amend {records : TrustRecordTable} {id : JsString}
    {f : ExecutionTrustRecord → ExecutionTrustRecord}
    (hf : ∀ record, (f record).businessTransactionId = record.businessTransactionId)
    {after : ExecutionTrustRecord} (h : (records.amend id f hf).get id = some after) :
    ∃ before, records.get id = some before ∧ after = f before := by
  rw [Table.get_amend, if_pos rfl, Option.map_eq_some_iff] at h
  obtain ⟨before, hbefore, rfl⟩ := h
  exact ⟨before, hbefore, rfl⟩

/-- The in-memory repository. -/
def storage : TrustRecordStorage where
  State := TrustRecordTable
  records records := records
  write records w := .ok (write records w)
  created := by
    intro s s' record h _
    cases h
    exact recordId_create s record
  identity := by
    intro s s' w id h hcreate
    cases h
    exact recordId_write s hcreate
  verified := by
    intro s s' id verification record h hget
    cases h
    obtain ⟨before, -, rfl⟩ := of_get_amend (by exact fun _ => rfl) hget
    exact List.append_ne_nil_of_right_ne_nil _ (List.cons_ne_nil _ _)
  receipted := by
    intro s s' id receipt before after h hbefore hafter
    cases h
    obtain ⟨found, hfound, rfl⟩ := of_get_amend (by exact fun _ => rfl) hafter
    cases hbefore.symm.trans hfound
    exact ⟨rfl, List.append_ne_nil_of_right_ne_nil _ (List.cons_ne_nil _ _)⟩

end MemoryTrustRecords

/-! ## Over Postgres -/

/-- A row of `execution_trust_records`. -/
structure TrustRecordHeader where
  trustRecordId : JsString
  businessTransactionId : JsString
  transaction : BusinessTransaction
  authorization : Option SignedExecutionAuthorization
  sealing : Seal

/-- A row of a table of artifacts: its key, its transaction, the artifact and the time it
is ordered by. -/
structure ArtifactRow (α : Type) where
  artifactId : JsString
  businessTransactionId : JsString
  artifact : α
  writtenAt : Int

/-- The rows of a table of artifacts, in the order of `seq`. -/
abbrev ArtifactRows (α : Type) := List (ArtifactRow α)

namespace ArtifactRows
variable {α : Type}

/-- `INSERT`, into a table with a primary key. -/
def insert (rows : ArtifactRows α) (row : ArtifactRow α) : Except Failure (ArtifactRows α) :=
  if rows.any fun other => other.artifactId = row.artifactId then
    .error (.error ("duplicate key value violates unique constraint" : String))
  else .ok (rows ++ [row])

/-- `UPDATE … SET …_json WHERE …_id = …`. -/
def update (rows : ArtifactRows α) (artifactId : JsString) (artifact : α) : ArtifactRows α :=
  rows.map fun row => if row.artifactId = artifactId then { row with artifact } else row

/-- `SELECT … WHERE business_transaction_id = … ORDER BY …_at ASC, seq ASC`. -/
def select (rows : ArtifactRows α) (businessTransactionId : JsString) : List α :=
  ((rows.filter fun row => row.businessTransactionId = businessTransactionId).insertionSort
    (fun a b => a.writtenAt ≤ b.writtenAt)).map (·.artifact)

theorem insert_ok {rows rows' : ArtifactRows α} {row : ArtifactRow α}
    (h : rows.insert row = .ok rows') : rows' = rows ++ [row] := by
  unfold insert at h
  split at h
  · cases h
  · exact (Except.ok.inj h).symm

/-- A row that is inserted is selected. -/
theorem select_append_ne_nil (rows : ArtifactRows α) (row : ArtifactRow α) :
    select (rows ++ [row]) row.businessTransactionId ≠ [] := by
  intro hnil
  have hlength := congrArg List.length hnil
  unfold select at hlength
  rw [List.length_map, List.length_insertionSort, List.filter_append, List.length_append,
    List.filter_cons_of_pos (by simp)] at hlength
  simp at hlength

end ArtifactRows

/-- The tables of the repository over Postgres.  The overrides are written by a call that
no run of this development makes. -/
structure PostgresTrustRecords where
  headers : Table (·.businessTransactionId : TrustRecordHeader → JsString)
  executions : ArtifactRows Execution
  overrides : ArtifactRows Json
  verifications : ArtifactRows Json
  receipts : ArtifactRows Json

namespace PostgresTrustRecords

/-- `findByTransactionId`, from a header: no column keeps an evidence anchor. -/
def load (s : PostgresTrustRecords) (header : TrustRecordHeader) : ExecutionTrustRecord where
  trustRecordId := header.trustRecordId
  businessTransactionId := header.businessTransactionId
  transaction := header.transaction
  authorization := header.authorization
  overrides := s.overrides.select header.businessTransactionId
  executions := s.executions.select header.businessTransactionId
  verifications := s.verifications.select header.businessTransactionId
  receipts := s.receipts.select header.businessTransactionId
  evidenceAnchor := none
  sealing := header.sealing

/-- The records as they are read. -/
def records (s : PostgresTrustRecords) : TrustRecordTable where
  values := s.headers.values.map s.load
  nodup := by
    rw [List.map_map]
    exact s.headers.nodup

theorem get_records (s : PostgresTrustRecords) (id : JsString) :
    Table.get s.records id = (s.headers.get id).map s.load := by
  unfold Table.get Keyed.find records
  rw [List.find?_map]
  rfl

theorem recordId_records (s : PostgresTrustRecords) (id : JsString) :
    TrustRecordTable.recordId s.records id = (s.headers.get id).map (·.trustRecordId) := by
  rw [TrustRecordTable.recordId, get_records, Option.map_map]
  rfl

/-- `create`: the header only, once for a transaction and once for an identifier. -/
def create (s : PostgresTrustRecords) (record : ExecutionTrustRecord) :
    Except Failure PostgresTrustRecords :=
  if s.headers.values.any fun header => header.trustRecordId = record.trustRecordId ∨
      header.businessTransactionId = record.businessTransactionId then
    .error (.error ("duplicate key value violates unique constraint" : String))
  else .ok { s with headers := s.headers.set {
    trustRecordId := record.trustRecordId
    businessTransactionId := record.businessTransactionId
    transaction := record.transaction
    authorization := record.authorization
    sealing := record.sealing } }

/-- `SupabaseExecutionTrustRecordRepository`. -/
def write (s : PostgresTrustRecords) : TrustRecordWrite → Except Failure PostgresTrustRecords
  | .create record => s.create record
  | .appendExecution id execution startedAt =>
    (s.executions.insert ⟨execution.executionId, id, execution, startedAt⟩).map
      fun executions => { s with executions }
  | .replaceExecution execution =>
    .ok { s with executions := s.executions.update execution.executionId execution }
  | .appendVerification id verification =>
    (s.verifications.insert
        ⟨verification.verificationId, id, verification.json, verification.verifiedAt⟩).map
      fun verifications => { s with verifications }
  | .appendReceipt id receipt =>
    (s.receipts.insert ⟨receipt.receiptId, id, receipt.json, receipt.issuedAt⟩).map
      fun receipts => { s with receipts }

variable {s s' : PostgresTrustRecords}

/-- What a creation adds. -/
theorem create_ok {record : ExecutionTrustRecord} (h : s.create record = .ok s') (id : JsString) :
    TrustRecordTable.recordId s'.records id =
      if id = record.businessTransactionId then some record.trustRecordId
      else TrustRecordTable.recordId s.records id := by
  unfold create at h
  split at h
  · cases h
  · cases h
    rw [recordId_records, recordId_records, Table.get_set]
    split <;> rfl

/-- The other writes leave the headers. -/
theorem write_headers {w : TrustRecordWrite} (h : s.write w = .ok s')
    (hw : ∀ record, w ≠ .create record) : s'.headers = s.headers := by
  unfold write at h
  split at h
  · exact absurd rfl (hw _)
  · obtain ⟨executions, -, rfl⟩ := map_eq_ok.mp h
    rfl
  · cases h
    rfl
  · obtain ⟨verifications, -, rfl⟩ := map_eq_ok.mp h
    rfl
  · obtain ⟨receipts, -, rfl⟩ := map_eq_ok.mp h
    rfl

/-- The repository over Postgres. -/
def storage : TrustRecordStorage where
  State := PostgresTrustRecords
  records := records
  write := write
  created := by
    intro s s' record h _
    exact (create_ok h _).trans (if_pos rfl)
  identity := by
    intro s s' w id h hcreate
    by_cases hw : ∃ record, w = .create record
    · obtain ⟨record, rfl⟩ := hw
      exact (create_ok h id).trans (if_neg (Ne.symm (hcreate record rfl)))
    · rw [recordId_records, recordId_records,
        write_headers h (fun record hrecord => hw ⟨record, hrecord⟩)]
  verified := by
    intro s s' id verification record h hget
    obtain ⟨verifications, hinsert, rfl⟩ := map_eq_ok.mp h
    have hkey := Table.key_of_get hget
    rw [get_records, Option.map_eq_some_iff] at hget
    obtain ⟨header, -, rfl⟩ := hget
    rw [ArtifactRows.insert_ok hinsert]
    show ArtifactRows.select _ header.businessTransactionId ≠ []
    rw [show header.businessTransactionId = id from hkey]
    exact ArtifactRows.select_append_ne_nil _ _
  receipted := by
    intro s s' id receipt before after h hbefore hafter
    obtain ⟨receipts, hinsert, rfl⟩ := map_eq_ok.mp h
    have hkey := Table.key_of_get hafter
    rw [get_records, Option.map_eq_some_iff] at hbefore hafter
    obtain ⟨header, hheader, rfl⟩ := hbefore
    obtain ⟨header', hheader', rfl⟩ := hafter
    cases hheader.symm.trans hheader'
    refine ⟨rfl, ?_⟩
    rw [ArtifactRows.insert_ok hinsert]
    show ArtifactRows.select _ header.businessTransactionId ≠ []
    rw [show header.businessTransactionId = id from hkey]
    exact ArtifactRows.select_append_ne_nil _ _

end PostgresTrustRecords
end Parmana

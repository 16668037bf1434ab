import Parmana.Api.Requests
import Parmana.Runtime.Provenance

/-! # What a request has seen

What a caller may be answered with, or may add to, is decided by what its request was told.  A
submission stores a transaction with the caller's name on it before anything else, and what it
stores afterwards is of that transaction.  Every route of one transaction looks for the
transaction first and goes on where it is the caller's own or where there is none.  So whatever
a request is answered, it has seen why (`handle_traced`).

The repositories the calls go to are those of a deployment: the transactions, the trust records
in either implementation, the intents and the refusals.
-/
namespace Parmana
open Js

/-! ## Repositories of trust records -/

/-- An implementation of the repository whose records keep the transaction they were created
with. -/
structure TransactionStorage extends TrustRecordStorage where
  origin : ∀ {s s' w id after}, write s w = .ok s' → (records s').get id = some after →
    (∃ created, w = .create created ∧ created.businessTransactionId = id ∧
      after.transaction = created.transaction) ∨
    ∃ before, (records s).get id = some before ∧ after.transaction = before.transaction

namespace MemoryTrustRecords

theorem origin_amend {records : TrustRecordTable} {id id' : JsString}
    {f : ExecutionTrustRecord → ExecutionTrustRecord}
    (hf : ∀ record, (f record).businessTransactionId = record.businessTransactionId)
    (htransaction : ∀ record, (f record).transaction = record.transaction)
    {after : ExecutionTrustRecord} (h : (records.amend id' f hf).get id = some after) :
    ∃ before, records.get id = some before ∧ after.transaction = before.transaction := by
  rw [Table.get_amend] at h
  split at h
  · obtain ⟨before, hbefore, rfl⟩ := Option.map_eq_some_iff.mp h
    exact ⟨before, hbefore, htransaction before⟩
  · exact ⟨after, h, rfl⟩

/-- The in-memory repository. -/
def transactionStorage : TransactionStorage where
  toTrustRecordStorage := storage
  origin := by
    intro s s' w id after h hget
    cases h
    cases w with
    | create created =>
      by_cases hid : id = created.businessTransactionId
      · subst hid
        have hsame : some created = some after := (Table.get_set_self s created).symm.trans hget
        cases hsame
        exact .inl ⟨after, rfl, rfl, rfl⟩
      · exact .inr ⟨after, (Table.get_set_of_ne s hid).symm.trans hget, rfl⟩
    | appendExecution id' execution startedAt =>
      exact .inr (origin_amend (by exact fun _ => rfl) (by exact fun _ => rfl) hget)
    | replaceExecution execution =>
      exact .inr (origin_amend (by exact fun _ => rfl) (by exact fun _ => rfl) hget)
    | appendVerification id' verification =>
      exact .inr (origin_amend (by exact fun _ => rfl) (by exact fun _ => rfl) hget)
    | appendReceipt id' receipt =>
      exact .inr (origin_amend (by exact fun _ => rfl) (by exact fun _ => rfl) hget)

end MemoryTrustRecords

namespace PostgresTrustRecords

/-- The transaction of a record is its header's. -/
theorem transaction_of_get {s : PostgresTrustRecords} {id : JsString}
    {record : ExecutionTrustRecord} (h : Table.get s.records id = some record) :
    ∃ header, s.headers.get id = some header ∧ record.transaction = header.transaction := by
  rw [get_records] at h
  obtain ⟨header, hheader, rfl⟩ := Option.map_eq_some_iff.mp h
  exact ⟨header, hheader, rfl⟩

theorem origin_write {s s' : PostgresTrustRecords} {w : TrustRecordWrite} {id : JsString}
    {after : ExecutionTrustRecord} (h : s.write w = .ok s')
    (hget : Table.get s'.records id = some after) :
    (∃ created, w = .create created ∧ created.businessTransactionId = id ∧
      after.transaction = created.transaction) ∨
    ∃ before, Table.get s.records id = some before ∧ after.transaction = before.transaction := by
  obtain ⟨header, hheader, htransaction⟩ := transaction_of_get hget
  have hold : s.headers.get id = some header → ∃ before, Table.get s.records id = some before ∧
      after.transaction = before.transaction := by
    intro hbefore
    refine ⟨s.load header, ?_, htransaction⟩
    rw [get_records, hbefore]
    rfl
  by_cases hw : ∃ record, w = .create record
  · obtain ⟨created, rfl⟩ := hw
    have hcreate : s.create created = .ok s' := h
    unfold create at hcreate
    split at hcreate
    · cases hcreate
    · cases hcreate
      dsimp only at hheader
      by_cases hid : id = created.businessTransactionId
      · subst hid
        rw [Table.get_set, if_pos rfl] at hheader
        cases hheader
        exact .inl ⟨created, rfl, rfl, htransaction⟩
      · rw [Table.get_set, if_neg hid] at hheader
        exact .inr (hold hheader)
  · rw [write_headers h fun record hrecord => hw ⟨record, hrecord⟩] at hheader
    exact .inr (hold hheader)

/-- The repository over Postgres. -/
def transactionStorage : TransactionStorage where
  toTrustRecordStorage := storage
  origin := origin_write

end PostgresTrustRecords

/-- Where a record that is stored comes from: it was there, or the call created it. -/
theorem RepairStores.Serves.recorded {storage : TransactionStorage}
    {s s' : RepairStores storage.toTrustRecordStorage} {asked : RepairCall}
    {answer : Except Failure asked.Answer} {id : JsString} {after : ExecutionTrustRecord}
    (h : s.Serves ⟨asked, answer⟩ s') (hfind : s'.find id = some after) :
    (∃ created, asked = .runtime (.createTrustRecord created) ∧
      created.businessTransactionId = id ∧ after.transaction = created.transaction) ∨
    ∃ before, s.find id = some before ∧ after.transaction = before.transaction := by
  rcases h.cases with ⟨-, hcarries⟩ | rfl | hwrite
  · refine .inr ?_
    obtain ⟨-, hwrites⟩ := hcarries
    unfold RepairStores.find at hfind
    generalize s'.trustRecords = records at hwrites hfind
    induction hwrites generalizing after with
    | refl => exact ⟨after, hfind, rfl⟩
    | tail _ hwrite ih =>
      obtain ⟨w, hpipeline, hwrite⟩ := hwrite
      rcases storage.origin hwrite hfind with ⟨created, rfl, -⟩ | ⟨middle, hmiddle, hsame⟩
      · cases hpipeline
      · obtain ⟨before, hbefore, htransaction⟩ := ih hmiddle
        exact ⟨before, hbefore, hsame.trans htransaction⟩
  · exact .inr ⟨after, hfind, rfl⟩
  · rcases RepairStores.write_cases hwrite with ⟨w, hw, -, hcreates⟩ | rfl | ⟨_, -, hsame, -⟩
    · rcases storage.origin hw hfind with ⟨created, rfl, hid, htransaction⟩ | hbefore
      · exact .inl ⟨created, hcreates created rfl, hid, htransaction⟩
      · exact .inr hbefore
    · exact .inr ⟨after, hfind, rfl⟩
    · unfold RepairStores.find at hfind
      rw [hsame] at hfind
      exact .inr ⟨after, hfind, rfl⟩

namespace Api
open Js Interaction Interaction.Program Governance

/-! ## The repositories -/

/-- The repositories of a deployment. -/
structure ApiStore (storage : TrustRecordStorage) where
  transactions : TransactionRepository
  completed : RepairStores storage
  refusalRecords : Table (fun record : RefusalRecord => record.businessTransactionId)

/-- A refusal that is stored takes the place of the one before. -/
def refusalRecordsAfter (asked : RepairCall)
    (records : Table fun record : RefusalRecord => record.businessTransactionId) :
    Table fun record : RefusalRecord => record.businessTransactionId :=
  match asked with
  | .runtime (.createRefusalRecord record) => records.set record
  | _ => records

/-- The pipeline gives back the transaction it was given, and a receipt is made of what it is
to be made of. -/
def Faithful (asked : RepairCall) (answer : Except Failure asked.Answer) : Prop :=
  match asked, answer with
  | .runtime (.executePipeline context), .ok processed =>
    processed.transaction = context.transaction
  | .createReceipt payload, .ok receipt => receipt.toReceiptPayload = payload
  | _, _ => True

namespace ApiStore
variable {storage : TrustRecordStorage}

/-- The transaction of an identifier. -/
def transaction (s : ApiStore storage) (id : JsString) : Option SubmittedTransaction :=
  s.transactions.find? fun transaction => transaction.businessTransactionId = id

/-- The store with a transaction more. -/
def store (s : ApiStore storage) (transaction : SubmittedTransaction) : ApiStore storage :=
  { s with transactions := s.transactions ++ [transaction] }

/-- How a call is answered.  A transaction is stored once, a write whose answer is lost may have
taken effect, and a page is some of the transactions. -/
inductive Serves (s : ApiStore storage) : ApiEvent → ApiStore storage → Prop where
  | transactionExists (id) : Serves s ⟨.transactionExists id, .ok (s.transactions.has id)⟩ s
  | createTransaction (transaction)
      (h : s.transactions.has transaction.businessTransactionId = false) :
    Serves s ⟨.createTransaction transaction, .ok transaction⟩ (s.store transaction)
  | lostTransaction (transaction failure)
      (h : s.transactions.has transaction.businessTransactionId = false) :
    Serves s ⟨.createTransaction transaction, .error failure⟩ (s.store transaction)
  | findTransaction (id) : Serves s ⟨.findTransaction id, .ok (s.transaction id)⟩ s
  | listTransactions (page pageSize transactions) (h : transactions ⊆ s.transactions) :
    Serves s ⟨.listTransactions page pageSize, .ok transactions⟩ s
  | repair (asked answer completed refusalRecords)
      (h : s.completed.Serves ⟨asked, answer⟩ completed) (hfaithful : Faithful asked answer)
      (hrefusals : refusalRecords = refusalRecordsAfter asked s.refusalRecords ∨
        (∃ failure, answer = .error failure) ∧ refusalRecords = s.refusalRecords) :
    Serves s ⟨.repair asked, answer⟩ { s with completed, refusalRecords }
  | findRefusalRecord (id) : Serves s ⟨.findRefusalRecord id, .ok (s.refusalRecords.get id)⟩ s
  | listUnfinalized (limit) :
    Serves s ⟨.listUnfinalized limit, .ok (s.completed.intents.listUnfinalized limit)⟩ s
  | verifyTrustRecord (trustRecord verified) :
    Serves s ⟨.verifyTrustRecord trustRecord, .ok verified⟩ s
  | recordAudit (event) : Serves s ⟨.recordAudit event, .ok ()⟩ s
  | failed (asked failure) (h : ∀ repair, asked ≠ .repair repair) :
    Serves s ⟨asked, .error failure⟩ s

/-- A caller has submitted the transaction of an identifier. -/
def Owns (s : ApiStore storage) (callerId id : JsString) : Prop :=
  ∃ transaction ∈ s.transactions, transaction.businessTransactionId = id ∧
    transaction.metadata.submittedBy = some callerId

end ApiStore

/-! ## What a request may be answered -/

/-- The identifier a request names. -/
def Request.subject : Request → Option JsString
  | .getVerification id | .getReceipt id => some id
  | _ => none

/-- An answer that holds nothing of another caller. -/
def Response.OwnedBy {storage : TrustRecordStorage} (s : ApiStore storage) (callerId : JsString)
    (request : Request) : Response → Prop
  | .transaction found => found.metadata.submittedBy = some callerId
  | .transactions found => ∀ submitted ∈ found, submitted.metadata.submittedBy = some callerId
  | .trustRecord found => found.transaction.metadata.submittedBy = some callerId
  | .trustRecords found =>
    ∀ record ∈ found, record.transaction.metadata.submittedBy = some callerId
  | .verification appended => s.Owns callerId appended.businessTransactionId
  | .receipt appended => s.Owns callerId appended.businessTransactionId
  | .artifact _ => ∃ id, request.subject = some id ∧ s.Owns callerId id
  | .refusalRecord found => s.Owns callerId found.businessTransactionId
  | .replay id _ _ => s.Owns callerId id
  | .executionIntent intent _ => s.Owns callerId intent.businessTransactionId
  | .executionIntents _ | .finalized .. | .resolved .. => False
  | .badRequest _ | .forbidden .. | .notFound _ | .auditUnavailable => True

/-! ## What a request does -/

section Thread
variable (request : Request) (callerId : JsString)

/-- A transaction of the caller has been stored. -/
def Created (transaction : SubmittedTransaction) (t : List ApiEvent) : Prop :=
  transaction.metadata.submittedBy = some callerId ∧ ∃ stored,
    (⟨.createTransaction transaction, .ok stored⟩ : ApiEvent) ∈ t

/-- The transaction was looked for, and the caller was let through. -/
def Cleared (id : JsString) (t : List ApiEvent) : Prop :=
  (⟨.findTransaction id, .ok none⟩ : ApiEvent) ∈ t ∨ ∃ transaction : SubmittedTransaction,
    transaction.metadata.submittedBy = some callerId ∧
      (⟨.findTransaction id, .ok (some transaction)⟩ : ApiEvent) ∈ t

/-- Something is found under an identifier. -/
def Reveals (id : JsString) : ApiEvent → Prop
  | ⟨.repair (.runtime (.findTrustRecord id')), .ok (some _)⟩ => id' = id
  | ⟨.repair (.runtime (.findIntent id')), .ok (some _)⟩ => id' = id
  | ⟨.findRefusalRecord id', .ok (some _)⟩ => id' = id
  | _ => False

/-- The requests that ask for the owner first. -/
def Request.checks : Request → Bool
  | .execute _ | .createTransaction _ | .listTrustRecords .. => false
  | _ => true

/-- What a request has seen when it makes a call: what it stores or appends is of a transaction
of the caller, or of one that it has found something of, and what it reads it was let through
to. -/
def Staged (t : List ApiEvent) : ApiCall → Prop
  | .createTransaction transaction => transaction.metadata.submittedBy = some callerId
  | .repair (.runtime (.createRefusalRecord record)) => ∃ transaction,
    Created callerId transaction t ∧
      record.businessTransactionId = transaction.businessTransactionId
  | .repair (.runtime (.createIntent intent)) => ∃ transaction,
    Created callerId transaction t ∧
      intent.businessTransactionId = transaction.businessTransactionId
  | .repair (.runtime (.createTrustRecord record)) => ∃ transaction,
    Created callerId transaction t ∧ ∃ context processed : RuntimeContext,
      context.Of transaction.toBusinessTransaction ∧
      (⟨.repair (.runtime (.executePipeline context)), .ok processed⟩ : ApiEvent) ∈ t ∧
      record.Of processed
  | .repair (.runtime (.findTrustRecord id)) | .repair (.runtime (.findIntent id))
  | .findRefusalRecord id => request.checks = true → Cleared callerId id t
  | .repair (.appendVerification id _) | .repair (.appendReceipt id _) =>
    (∃ transaction, Created callerId transaction t ∧ transaction.businessTransactionId = id) ∨
      request.checks = true ∧ ∃ e ∈ t, Reveals id e
  | _ => True

/-- What a request has seen when it is answered. -/
def Answered (t : List ApiEvent) : Response → Prop
  | .transaction found => found.metadata.submittedBy = some callerId
  | .transactions found => ∀ submitted ∈ found, submitted.metadata.submittedBy = some callerId
  | .trustRecord found => ∃ id,
    (⟨.repair (.runtime (.findTrustRecord id)), .ok (some found)⟩ : ApiEvent) ∈ t ∧
      (request.checks = true ∨ ∃ transaction, Created callerId transaction t ∧
        transaction.businessTransactionId = id)
  | .trustRecords found =>
    ∀ record ∈ found, record.transaction.metadata.submittedBy = some callerId
  | .verification appended => request.checks = true ∧
    ∃ e ∈ t, Reveals appended.businessTransactionId e
  | .receipt appended => request.checks = true ∧ ∃ payload,
    (⟨.repair (.createReceipt payload), .ok appended⟩ : ApiEvent) ∈ t ∧
      ∃ e ∈ t, Reveals payload.businessTransactionId e
  | .artifact _ => request.checks = true ∧ ∃ id, request.subject = some id ∧
    ∃ e ∈ t, Reveals id e
  | .refusalRecord found => request.checks = true ∧ ∃ id,
    (⟨.findRefusalRecord id, .ok (some found)⟩ : ApiEvent) ∈ t
  | .replay id _ _ => request.checks = true ∧ ∃ e ∈ t, Reveals id e
  | .executionIntent intent _ => request.checks = true ∧ ∃ id stored,
    (⟨.repair (.runtime (.findIntent id)), .ok (some stored)⟩ : ApiEvent) ∈ t ∧
      stored.intent = intent
  | .executionIntents _ | .finalized .. | .resolved .. => False
  | .badRequest _ | .forbidden .. | .notFound _ | .auditUnavailable => True

variable {request callerId} {caller : Caller} {id : JsString} {t t' : List ApiEvent}

theorem Created.mono {transaction : SubmittedTransaction} (h : Created callerId transaction t)
    (ht : t ⊆ t') : Created callerId transaction t' := by
  obtain ⟨hsubmitted, stored, hstored⟩ := h
  exact ⟨hsubmitted, stored, ht hstored⟩

/-! ### Submitting -/

theorem verification_traced (hread : request.checks = true → Cleared callerId id t)
    (happend : request.checks = true ∨ ∃ transaction, Created callerId transaction t ∧
      transaction.businessTransactionId = id) :
    Traced (Staged request callerId) (ApiProgram.ofRepair (VerificationService.verify id))
      (fun verification t' => verification.businessTransactionId = id ∧ t ⊆ t' ∧
        ∃ e ∈ t', Reveals id e) t := by
  refine Traced.relabel_bind_perform hread fun found => ?_
  cases found with
  | none => exact Traced.throw
  | some trustRecord =>
    refine Traced.relabel_bind_perform trivial fun failures => ?_
    refine Traced.relabel_bind_perform trivial fun verificationId => ?_
    refine Traced.relabel_bind_perform trivial fun verifiedAt => ?_
    have hgrows : ∀ u : List ApiEvent, t ⊆ t ++ u := fun u => List.subset_append_left t u
    simp only [List.append_assoc]
    refine Traced.relabel_bind_perform ?_ fun _ => ?_
    · rcases happend with hchecks | ⟨transaction, hcreated, hid⟩
      · exact .inr ⟨hchecks, _, List.mem_append_right _ List.mem_cons_self, rfl⟩
      · exact .inl ⟨transaction, hcreated.mono (hgrows _), hid⟩
    · rw [List.append_assoc]
      exact Traced.pure ⟨rfl, hgrows _, _, List.mem_append_right _ List.mem_cons_self, rfl⟩

theorem receipt_traced (hread : request.checks = true → Cleared callerId id t)
    (happend : request.checks = true ∨ ∃ transaction, Created callerId transaction t ∧
      transaction.businessTransactionId = id) :
    Traced (Staged request callerId) (ApiProgram.ofRepair (ReceiptService.generate id))
      (fun receipt t' => t ⊆ t' ∧ ∃ payload : ReceiptPayload, payload.businessTransactionId = id ∧
        (⟨.repair (.createReceipt payload), .ok receipt⟩ : ApiEvent) ∈ t' ∧
        ∃ e ∈ t', Reveals id e) t := by
  refine Traced.relabel_bind_perform hread fun found => ?_
  cases found with
  | none => exact Traced.throw
  | some trustRecord =>
    dsimp only
    split
    · exact Traced.throw
    refine Traced.relabel_bind_perform trivial fun receiptHash => ?_
    refine Traced.relabel_bind_perform trivial fun receiptId => ?_
    refine Traced.relabel_bind_perform trivial fun issuedAt => ?_
    refine Traced.relabel_bind_perform trivial fun receipt => ?_
    have hgrows : ∀ u : List ApiEvent, t ⊆ t ++ u := fun u => List.subset_append_left t u
    simp only [List.append_assoc]
    refine Traced.relabel_bind_perform ?_ fun _ => ?_
    · rcases happend with hchecks | ⟨transaction, hcreated, hid⟩
      · exact .inr ⟨hchecks, _, List.mem_append_right _ List.mem_cons_self, rfl⟩
      · exact .inl ⟨transaction, hcreated.mono (hgrows _), hid⟩
    · rw [List.append_assoc]
      refine Traced.pure ⟨hgrows _,
        ⟨receiptId, id, trustRecord.sealing.hash, receiptHash, issuedAt⟩, rfl,
        List.mem_append_right _ ?_, _, List.mem_append_right _ List.mem_cons_self, rfl⟩
      simp only [List.cons_append, List.nil_append, List.mem_cons, true_or, or_true]

/-- A transaction that is accepted was stored. -/
theorem accept_traced {transaction : SubmittedTransaction}
    (hsubmitted : transaction.metadata.submittedBy = some callerId) :
    Traced (Staged request callerId)
      ((BusinessTransactionService.accept transaction).expand service)
      (fun _ t' => Created callerId transaction t') t := by
  refine Traced.expand_bind (R := fun _ _ => True) (Traced.done fun _ _ => trivial) fun _ t₁ _ => ?_
  refine Traced.expand_bind (R := fun _ _ => True) ?_ fun found t₂ _ => ?_
  · rw [expand_perform]
    exact Traced.perform trivial fun _ => trivial
  dsimp only
  split
  · exact Traced.throw
  · rw [expand_perform]
    exact Traced.perform hsubmitted fun stored =>
      ⟨hsubmitted, stored, List.mem_append_right _ (List.mem_singleton_self _)⟩

/-- The runtime's calls are the request's. -/
theorem expand_runtime {α : Type} (p : RuntimeProgram α) :
    (p.relabel ApplicationCall.runtime fun _ answer => answer).expand service =
      p.relabel (fun asked => ApiCall.repair (.runtime asked)) fun _ answer => answer := by
  induction p with
  | done r => rfl
  | call asked k ih => exact congrArg (Program.call _) (funext fun ans => ih _)

/-- What the runtime owes is what the request does. -/
theorem runtime_traced {config : RuntimeConfig} {executionIntents : Bool}
    {transaction : SubmittedTransaction} (hcreated : Created callerId transaction t)
    (hchecks : request.checks = false) :
    Traced (Staged request callerId)
      ((ExecutionTrustApplication.executeRuntime config executionIntents transaction).expand
        service) (fun _ t' => t ⊆ t') t := by
  rw [ExecutionTrustApplication.executeRuntime, expand_runtime]
  refine Traced.mono (Traced.relabel traced_ofTransaction fun t₀ t₁ asked hlifts howes => ?_) ?_
  · have hthere := hcreated.mono (List.subset_append_left t t₁)
    cases asked with
    | createRefusalRecord record => exact ⟨transaction, hthere, howes⟩
    | createIntent intent => exact ⟨transaction, hthere, howes⟩
    | createTrustRecord record =>
      obtain ⟨processed, ⟨context, hof, hmem⟩, hrecord⟩ := howes
      obtain ⟨_, he, ans, rfl, hans⟩ := Lifts.exists_mem hlifts hmem
      have hanswer : ans = .ok processed := by cases ans <;> exact hans
      rw [hanswer] at he
      exact ⟨transaction, hthere, context, processed, hof, List.mem_append_right _ he, hrecord⟩
    | findTrustRecord id => exact fun h => absurd (hchecks.symm.trans h) Bool.false_ne_true
    | findIntent id => exact fun h => absurd (hchecks.symm.trans h) Bool.false_ne_true
    | _ => trivial
  · rintro _ _ ⟨t₀, t₁, rfl, -⟩
    exact List.subset_append_left t t₁

/-- **What a submission that succeeds is answered** is the record under its identifier. -/
theorem execute_traced {application : Application} {transaction : SubmittedTransaction}
    (hsubmitted : transaction.metadata.submittedBy = some callerId)
    (hchecks : request.checks = false) :
    Traced (Staged request callerId) (application.execute transaction)
      (fun trustRecord t' => Answered request callerId t' (.trustRecord trustRecord)) t := by
  have hnot : ∀ {P : Prop}, request.checks = true → P := fun h =>
    absurd (hchecks.symm.trans h) Bool.false_ne_true
  refine Traced.expand_bind (accept_traced hsubmitted) fun _ t₁ hcreated => ?_
  refine Traced.expand_bind (runtime_traced hcreated hchecks) fun _ t₂ h₂ => ?_
  have hcreated₂ := hcreated.mono h₂
  refine Traced.expand_bind (R := fun _ t' => Created callerId transaction t') ?_
    fun _ t₃ hcreated₃ => ?_
  · rw [expand_perform]
    refine Traced.bind (verification_traced hnot (.inr ⟨transaction, hcreated₂, rfl⟩)) ?_
    rintro verification t' ⟨-, ht', -⟩
    exact Traced.pure (hcreated₂.mono ht')
  refine Traced.expand_bind (R := fun _ t' => Created callerId transaction t') ?_
    fun _ t₄ hcreated₄ => ?_
  · rw [expand_perform]
    refine Traced.bind (receipt_traced hnot (.inr ⟨transaction, hcreated₃, rfl⟩)) ?_
    rintro receipt t' ⟨ht', -⟩
    exact Traced.pure (hcreated₃.mono ht')
  refine Traced.expand_bind (R := fun found t' => t' = t₄ ++ [⟨.repair (.runtime
    (.findTrustRecord transaction.businessTransactionId)), .ok found⟩]) ?_ ?_
  · rw [expand_perform]
    exact Traced.perform hnot fun _ => rfl
  rintro (_ | trustRecord) _ rfl
  · exact Traced.throw
  · exact Traced.pure ⟨transaction.businessTransactionId,
      List.mem_append_right _ (List.mem_singleton_self _), .inr ⟨transaction,
        hcreated₄.mono (List.subset_append_left _ _), rfl⟩⟩

theorem audited_traced {application : Application} {event : JsString → Audit.CallerAuditEvent}
    {p : ApiProgram Response} (hp : ∀ t, Traced (Staged request callerId) p
      (fun response t' => Answered request callerId t' response) t) :
    Traced (Staged request callerId) (application.audited event p)
      (fun response t' => Answered request callerId t' response) t := by
  refine Traced.bind (R := fun _ _ => True) ?_ fun recorded t₁ _ => ?_
  · unfold Application.recordCallerAuditEvent
    split
    · refine Traced.bind_perform trivial fun occurredAt => ?_
      exact Traced.tryCatch (Traced.bind_perform trivial fun _ => Traced.pure trivial)
        fun _ _ => Traced.bind_done fun _ _ => Traced.pure trivial
    · exact Traced.pure trivial
  · split
    · exact hp t₁
    · exact Traced.pure trivial

theorem submittedBy_withCaller (transaction : SubmittedTransaction) (callerId : JsString) :
    (withCaller transaction callerId).metadata.submittedBy = some callerId := rfl

/-- A submission of a caller. -/
theorem submitRoute_traced {application : Application} {route : JsString} {submission : Submission}
    (hcaller : caller.callerId = some callerId) (hchecks : request.checks = false) :
    Traced (Staged request callerId) (application.submitRoute caller route submission)
      (fun response t' => Answered request callerId t' response) t := by
  unfold Application.submitRoute
  split
  · refine audited_traced fun _ => ?_
    exact Traced.pure trivial
  refine Traced.tryCatch ?_ fun failure t' => ?_
  · unfold Application.submit
    rw [hcaller]
    dsimp only
    split
    · refine audited_traced fun _ => ?_
      exact Traced.pure trivial
    split
    · refine audited_traced fun _ => ?_
      exact Traced.pure trivial
    · refine audited_traced fun t' => ?_
      refine Traced.bind (execute_traced (submittedBy_withCaller _ callerId) hchecks) ?_
      exact fun trustRecord t'' hanswered => Traced.pure hanswered
  · split
    · exact audited_traced fun _ => Traced.throw
    · exact Traced.throw

/-! ### Reading -/

/-- A route of one transaction goes on once the caller is let through. -/
theorem owned_traced {error : JsString} {route : ApiProgram Response}
    (hcaller : caller.callerId = some callerId)
    (hroute : ∀ t', Cleared callerId id t' → Traced (Staged request callerId) route
      (fun response t'' => Answered request callerId t'' response) t') :
    Traced (Staged request callerId) (caller.owned id error route)
      (fun response t' => Answered request callerId t' response) t := by
  unfold Caller.owned
  rw [hcaller]
  refine Traced.bind (R := fun allowed t' => allowed = true → Cleared callerId id t') ?_
    fun allowed t' hcleared => ?_
  · refine Traced.bind_perform trivial fun found => ?_
    have hmem : (⟨.findTransaction id, .ok found⟩ : ApiEvent) ∈
        t ++ [⟨.findTransaction id, .ok found⟩] :=
      List.mem_append_right _ (List.mem_singleton_self _)
    cases found with
    | none => exact Traced.pure fun _ => .inl hmem
    | some transaction =>
      exact Traced.pure fun hallowed => .inr ⟨transaction, of_decide_eq_true hallowed, hmem⟩
  · split
    · rename_i hallowed
      exact hroute t' (hcleared hallowed)
    · exact Traced.pure trivial

theorem ofTrustRecord_traced {answer : ExecutionTrustRecord → Response}
    (hcaller : caller.callerId = some callerId)
    (hanswer : ∀ record t', (⟨.repair (.runtime (.findTrustRecord id)), .ok (some record)⟩ :
      ApiEvent) ∈ t' → Answered request callerId t' (answer record)) :
    Traced (Staged request callerId) (caller.ofTrustRecord id answer)
      (fun response t' => Answered request callerId t' response) t := by
  refine owned_traced hcaller fun t' hcleared => ?_
  refine Traced.bind_perform (fun _ => hcleared) fun found => ?_
  cases found with
  | none => exact Traced.pure trivial
  | some record =>
    exact Traced.pure (hanswer record _ (List.mem_append_right _ (List.mem_singleton_self _)))

theorem latest_answered {error : JsString} {artifacts : List Json}
    (hchecks : request.checks = true) (hsubject : request.subject = some id)
    {record : ExecutionTrustRecord}
    (hmem : (⟨.repair (.runtime (.findTrustRecord id)), .ok (some record)⟩ : ApiEvent) ∈ t) :
    Answered request callerId t (Caller.latest error artifacts) := by
  unfold Caller.latest
  split
  · trivial
  · exact ⟨hchecks, id, hsubject, _, hmem, rfl⟩

theorem ofBody_traced {businessTransactionId : JsValue} {route : JsString → ApiProgram Response}
    (hcaller : caller.callerId = some callerId)
    (hroute : ∀ id t', Cleared callerId id t' → Traced (Staged request callerId) (route id)
      (fun response t'' => Answered request callerId t'' response) t') :
    Traced (Staged request callerId) (caller.ofBody businessTransactionId route)
      (fun response t' => Answered request callerId t' response) t := by
  unfold Caller.ofBody
  split
  · exact Traced.pure trivial
  split
  · exact Traced.pure trivial
  · exact owned_traced hcaller (hroute _)

theorem findTrustRecords_traced (transactions : List SubmittedTransaction)
    (hchecks : request.checks = false) :
    Traced (Staged request callerId) (findTrustRecords transactions) (fun _ _ => True) t := by
  induction transactions generalizing t with
  | nil => exact Traced.pure trivial
  | cons transaction rest ih =>
    refine Traced.bind_perform (fun h => absurd (hchecks.symm.trans h) Bool.false_ne_true)
      fun found => ?_
    exact Traced.bind ih fun _ _ _ => Traced.pure trivial

theorem humanOnly_traced {route : ApiProgram Response}
    (hcaller : isHumanCaller caller.credentialHolderType = false) :
    Traced (Staged request callerId) (caller.humanOnly route)
      (fun response t' => Answered request callerId t' response) t := by
  unfold Caller.humanOnly
  rw [hcaller]
  exact Traced.pure trivial

/-- **What a request does**, whatever it is answered. -/
theorem handle_traced (application : Application) (hcaller : caller.callerId = some callerId)
    (hhuman : isHumanCaller caller.credentialHolderType = false) (request : Request) :
    Traced (Staged request callerId) (request.handle application caller)
      (fun response t' => Answered request callerId t' response) t := by
  have hseen : ∀ {submittedBy : Option JsString}, caller.sees submittedBy = true →
      submittedBy = some callerId := by
    intro submittedBy hsees
    unfold Caller.sees at hsees
    rw [hcaller] at hsees
    exact of_decide_eq_true hsees
  cases request with
  | execute submission => exact submitRoute_traced hcaller rfl
  | createTransaction submission => exact submitRoute_traced hcaller rfl
  | listTransactions page pageSize =>
    refine Traced.bind_perform trivial fun transactions => Traced.pure fun submitted hmem => ?_
    exact hseen (List.mem_filter.mp hmem).2
  | getTransaction id =>
    refine Traced.bind_perform trivial fun found => ?_
    cases found with
    | none => exact Traced.pure trivial
    | some transaction =>
      dsimp only
      split
      · rename_i hsees
        exact Traced.pure (hseen hsees)
      · exact Traced.pure trivial
  | listTrustRecords page pageSize within =>
    refine Traced.bind_perform trivial fun transactions => ?_
    refine Traced.bind (findTrustRecords_traced transactions rfl) fun trustRecords t' _ => ?_
    refine Traced.pure fun record hmem => ?_
    exact hseen (List.mem_filter.mp (List.mem_filter.mp hmem).1).2
  | getTrustRecord id =>
    exact ofTrustRecord_traced hcaller fun record t' hmem => ⟨id, hmem, .inl rfl⟩
  | verify businessTransactionId =>
    refine ofBody_traced hcaller fun id t' hcleared => ?_
    refine Traced.bind (verification_traced (fun _ => hcleared) (.inl rfl)) ?_
    rintro verification t'' ⟨rfl, -, hreveals⟩
    exact Traced.pure ⟨rfl, hreveals⟩
  | getVerification id =>
    exact ofTrustRecord_traced hcaller fun record t' hmem => latest_answered rfl rfl hmem
  | generateReceipt businessTransactionId =>
    refine ofBody_traced hcaller fun id t' hcleared => ?_
    refine Traced.bind (receipt_traced (fun _ => hcleared) (.inl rfl)) ?_
    rintro receipt t'' ⟨-, payload, rfl, hmem, hreveals⟩
    exact Traced.pure ⟨rfl, payload, hmem, hreveals⟩
  | getReceipt id =>
    exact ofTrustRecord_traced hcaller fun record t' hmem => latest_answered rfl rfl hmem
  | getRefusalRecord id =>
    refine owned_traced hcaller fun t' hcleared => ?_
    split
    · refine Traced.bind_perform (fun _ => hcleared) fun found => ?_
      cases found with
      | none => exact Traced.pure trivial
      | some refusalRecord =>
        exact Traced.pure ⟨rfl, id, List.mem_append_right _ (List.mem_singleton_self _)⟩
    · exact Traced.pure trivial
  | replay businessTransactionId =>
    show Traced _ (caller.replay businessTransactionId) _ t
    unfold Caller.replay
    split
    · exact Traced.pure trivial
    split
    · rename_i id htruthy
      refine owned_traced hcaller fun t' hcleared => ?_
      refine Traced.bind_perform (fun _ => hcleared) fun found => ?_
      cases found with
      | none => exact Traced.throw
      | some trustRecord =>
        refine Traced.bind_perform trivial fun verified => Traced.pure ⟨rfl,
          ⟨.repair (.runtime (.findTrustRecord id)), .ok (some trustRecord)⟩, ?_, rfl⟩
        exact List.mem_append_left _ (List.mem_append_right _ (List.mem_singleton_self _))
    · exact Traced.throw
  | listUnfinalized requested => exact humanOnly_traced hhuman
  | getExecutionIntent id =>
    refine owned_traced hcaller fun t' hcleared => ?_
    split
    · refine Traced.bind_perform (fun _ => hcleared) fun found => ?_
      cases found with
      | none => exact Traced.pure trivial
      | some stored =>
        exact Traced.pure ⟨rfl, id, stored, List.mem_append_right _ (List.mem_singleton_self _),
          rfl⟩
    · exact Traced.pure trivial
  | finalize id => exact humanOnly_traced hhuman
  | resolve id resolution note => exact humanOnly_traced hhuman

end Thread
end Api
end Parmana

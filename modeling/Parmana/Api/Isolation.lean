import Parmana.Api.Ownership
import Parmana.Runtime.Convergence

/-! # Callers do not see each other's transactions

A caller is to be answered with its own transactions and records only, and to add
verifications and receipts to no others (`Isolated`).  The routes of one transaction look for
the transaction first and then read what is stored under its identifier, in two calls.  Where
the first finds another caller's transaction the request is refused; where it finds the
caller's own, that is what is there from then on.  But where it finds none the request goes on,
and another caller may submit the transaction before the second call: **the record is then
returned to a caller it does not belong to** (`read_between`).

That is the only way.  Where no transaction of another caller has come in between, **no request
is answered with what belongs to another caller and none adds to it** (`isolated_of_unraced`),
in any interleaving of the requests, over either implementation of the repository of trust
records.
-/
namespace Parmana.Api
open Js Interaction Interaction.Program Governance

variable {storage : TransactionStorage} {ι : Type} [DecidableEq ι]

/-! ## Isolation -/

/-- The identifier under which a call adds a verification or a receipt. -/
def ApiCall.appendsTo : ApiCall → Option JsString
  | .repair (.appendVerification id _) | .repair (.appendReceipt id _) => some id
  | _ => none

/-- No request has been answered with what is another caller's, and none has added a
verification or a receipt to it. -/
def Isolated (callerIds : ι → JsString) (requests : ι → Request)
    (log : List (ι × ApiEvent))
    (Q : Pool ApiCall ApiCall.Answer Failure (fun _ : ι => Response)
      (ApiStore storage.toTrustRecordStorage)) : Prop :=
  (∀ i response, Q.threads i = .done (.ok response) →
    response.OwnedBy Q.state (callerIds i) (requests i)) ∧
  ∀ i e id, (i, e) ∈ log → e.1.appendsTo = some id → Q.state.Owns (callerIds i) id

/-- The identifier under which a call reads what is stored of a transaction. -/
def ApiCall.readsOf : ApiCall → Option JsString
  | .repair (.runtime (.findTrustRecord id)) | .repair (.runtime (.findIntent id))
  | .findRefusalRecord id => some id
  | _ => none

/-- A caller that was told there is no such transaction reads what is stored under its
identifier before another caller submits it. -/
def Unraced (callerIds : ι → JsString) (log : List (ι × ApiEvent))
    (s : ApiStore storage.toTrustRecordStorage) (i : ι) (e : ApiEvent) : Prop :=
  ∀ id, e.1.readsOf = some id → (⟨.findTransaction id, .ok none⟩ : ApiEvent) ∈ eventsOf i log →
    ∀ transaction ∈ s.transactions, transaction.businessTransactionId = id →
      transaction.metadata.submittedBy = some (callerIds i)

/-! ## What is stored is of a stored transaction -/

namespace ApiStore

/-- A transaction is stored under an identifier. -/
def Has (s : ApiStore storage.toTrustRecordStorage) (id : JsString) : Prop :=
  ∃ transaction ∈ s.transactions, transaction.businessTransactionId = id

/-- A record names the submitter of the stored transaction. -/
def Names (s : ApiStore storage.toTrustRecordStorage) (id : JsString)
    (record : ExecutionTrustRecord) : Prop :=
  ∃ transaction ∈ s.transactions, transaction.businessTransactionId = id ∧
    record.transaction.metadata.submittedBy = transaction.metadata.submittedBy

/-- A transaction is stored once, and what is stored beside it is of one that is stored. -/
structure Sound (s : ApiStore storage.toTrustRecordStorage) : Prop where
  unique : ∀ a ∈ s.transactions, ∀ b ∈ s.transactions,
    a.businessTransactionId = b.businessTransactionId → a = b
  recorded : ∀ id record, s.completed.find id = some record → s.Names id record
  intended : ∀ id stored, s.completed.intents.findByTransactionId id = some stored → s.Has id
  refused : ∀ id record, s.refusalRecords.get id = some record → s.Has id

section Transactions
variable {s s' : ApiStore storage.toTrustRecordStorage} {callerId id : JsString}
  {transaction : SubmittedTransaction} {record : ExecutionTrustRecord}

theorem Owns.mono (h : s.Owns callerId id) (hs : s.transactions ⊆ s'.transactions) :
    s'.Owns callerId id := by
  obtain ⟨transaction, hmem, hid, hsubmitted⟩ := h
  exact ⟨transaction, hs hmem, hid, hsubmitted⟩

theorem Has.mono (h : s.Has id) (hs : s.transactions ⊆ s'.transactions) : s'.Has id := by
  obtain ⟨transaction, hmem, hid⟩ := h
  exact ⟨transaction, hs hmem, hid⟩

theorem Names.mono (h : s.Names id record) (hs : s.transactions ⊆ s'.transactions) :
    s'.Names id record := by
  obtain ⟨transaction, hmem, hid, hnames⟩ := h
  exact ⟨transaction, hs hmem, hid, hnames⟩

theorem Names.has (h : s.Names id record) : s.Has id := by
  obtain ⟨transaction, hmem, hid, -⟩ := h
  exact ⟨transaction, hmem, hid⟩

/-- The record of an owned transaction names its owner. -/
theorem Names.submittedBy (h : s.Names id record) (hs : s.Sound) (howns : s.Owns callerId id) :
    record.transaction.metadata.submittedBy = some callerId := by
  obtain ⟨transaction, hmem, hid, hnames⟩ := h
  obtain ⟨owned, howned, hid', hsubmitted⟩ := howns
  rw [hnames, hs.unique _ hmem _ howned (hid.trans hid'.symm), hsubmitted]

theorem has_iff : s.transactions.has id = true ↔ s.Has id := by
  simp [TransactionRepository.has, Has]

theorem mem_of_transaction (h : s.transaction id = some transaction) :
    transaction ∈ s.transactions ∧ transaction.businessTransactionId = id := by
  refine ⟨List.mem_of_find?_eq_some h, ?_⟩
  have hid := List.find?_some h
  exact of_decide_eq_true hid

theorem Serves.of_findTransaction {found : Option SubmittedTransaction}
    (h : s.Serves ⟨.findTransaction id, .ok found⟩ s') : found = s.transaction id := by
  cases h
  rfl

theorem Serves.of_findRefusalRecord {found : Option RefusalRecord}
    (h : s.Serves ⟨.findRefusalRecord id, .ok found⟩ s') : found = s.refusalRecords.get id := by
  cases h
  rfl

theorem Serves.of_repair {asked : RepairCall} {answer : Except Failure asked.Answer}
    (h : s.Serves ⟨.repair asked, answer⟩ s') :
    s.completed.Serves ⟨asked, answer⟩ s'.completed ∧ Faithful asked answer := by
  cases h with
  | repair _ _ completed refusalRecords hserves hfaithful => exact ⟨hserves, hfaithful⟩
  | failed _ failure hrepair => exact absurd rfl (hrepair asked)

/-- Nothing takes a transaction out of the store. -/
theorem Serves.subset {e : ApiEvent} (h : s.Serves e s') : s.transactions ⊆ s'.transactions := by
  cases h with
  | createTransaction => exact List.subset_append_left _ _
  | lostTransaction => exact List.subset_append_left _ _
  | _ => exact fun _ h => h

/-- A transaction is stored where there is none. -/
theorem Sound.store (hs : s.Sound)
    (h : s.transactions.has transaction.businessTransactionId = false) :
    (s.store transaction).Sound := by
  have hnew : ∀ stored ∈ s.transactions,
      stored.businessTransactionId ≠ transaction.businessTransactionId := fun stored hmem hid =>
    Bool.false_ne_true (h.symm.trans (has_iff.mpr ⟨stored, hmem, hid⟩))
  have hgrows : s.transactions ⊆ (s.store transaction).transactions :=
    List.subset_append_left _ _
  refine ⟨fun a ha b hb hid => ?_, fun id record hfind => (hs.recorded id record hfind).mono hgrows,
    fun id stored hfind => (hs.intended id stored hfind).mono hgrows,
    fun id record hfind => (hs.refused id record hfind).mono hgrows⟩
  rcases List.mem_append.mp ha with ha | ha
  · rcases List.mem_append.mp hb with hb | hb
    · exact hs.unique a ha b hb hid
    · rw [List.mem_singleton.mp hb] at hid
      exact absurd hid (hnew a ha)
  · rcases List.mem_append.mp hb with hb | hb
    · rw [List.mem_singleton.mp ha] at hid
      exact absurd hid.symm (hnew b hb)
    · rw [List.mem_singleton.mp ha, List.mem_singleton.mp hb]

/-- What a call that stores something owes for the store to stay sound. -/
def Permits (s : ApiStore storage.toTrustRecordStorage) : ApiCall → Prop
  | .repair (.runtime (.createTrustRecord record)) =>
    s.Names record.businessTransactionId record
  | .repair (.runtime (.createIntent intent)) => s.Has intent.businessTransactionId
  | .repair (.runtime (.createRefusalRecord record)) => s.Has record.businessTransactionId
  | _ => True

/-- **A call keeps the store sound.** -/
theorem Sound.step (hs : s.Sound) {e : ApiEvent} (hpermits : s.Permits e.1) (h : s.Serves e s') :
    s'.Sound := by
  cases h with
  | createTransaction transaction hnew => exact hs.store hnew
  | lostTransaction transaction failure hnew => exact hs.store hnew
  | repair asked answer completed refusalRecords hserves hfaithful hrefusals =>
    refine ⟨hs.unique, fun id record hfind => ?_, fun id stored hfind => ?_,
      fun id record hget => ?_⟩
    · rcases hserves.recorded hfind with ⟨created, rfl, rfl, hsame⟩ | ⟨before, hbefore, hsame⟩
      · obtain ⟨transaction, hmem, hid, hnames⟩ := hpermits
        exact ⟨transaction, hmem, hid, by rw [hsame, hnames]⟩
      · obtain ⟨transaction, hmem, hid, hnames⟩ := hs.recorded id before hbefore
        exact ⟨transaction, hmem, hid, by rw [hsame, hnames]⟩
    · rcases hserves.intended hfind with ⟨before, hbefore⟩ | rfl
      · exact hs.intended id before hbefore
      · have hkey : stored.businessTransactionId = id := Keyed.key_of_find hfind
        rw [← hkey]
        exact hpermits
    · rcases hrefusals with rfl | ⟨-, rfl⟩
      · unfold refusalRecordsAfter at hget
        split at hget
        · rename_i created
          by_cases hid : id = created.businessTransactionId
          · rw [hid]
            exact hpermits
          · exact hs.refused id record
              ((Table.get_set_of_ne s.refusalRecords (a := created) hid).symm.trans hget)
        · exact hs.refused id record hget
      · exact hs.refused id record hget
  | _ => exact hs

end Transactions
end ApiStore

/-! ## What the calls have shown -/

section Shown
variable {s s' : ApiStore storage.toTrustRecordStorage} {request : Request} {callerId id : JsString}
  {e : ApiEvent}

/-- What a call of a request says about the store from then on. -/
def Shows (s : ApiStore storage.toTrustRecordStorage) (request : Request) (callerId : JsString) :
    ApiEvent → Prop
  | ⟨.createTransaction transaction, .ok _⟩ => transaction ∈ s.transactions
  | ⟨.findTransaction id, .ok (some transaction)⟩ =>
    transaction ∈ s.transactions ∧ transaction.businessTransactionId = id
  | ⟨.repair (.runtime (.findTrustRecord id)), .ok (some record)⟩ =>
    s.Names id record ∧ (request.checks = true → s.Owns callerId id)
  | ⟨.repair (.runtime (.findIntent id)), .ok (some stored)⟩ =>
    stored.intent.businessTransactionId = id ∧ (request.checks = true → s.Owns callerId id)
  | ⟨.findRefusalRecord id, .ok (some record)⟩ =>
    record.businessTransactionId = id ∧ (request.checks = true → s.Owns callerId id)
  | ⟨.repair (.runtime (.executePipeline context)), .ok processed⟩ =>
    processed.transaction = context.transaction
  | ⟨.repair (.createReceipt payload), .ok receipt⟩ => receipt.toReceiptPayload = payload
  | ⟨.repair (.appendVerification id _), _⟩ | ⟨.repair (.appendReceipt id _), _⟩ =>
    s.Owns callerId id
  | _ => True

theorem Shows.mono (h : Shows s request callerId e) (hs : s.transactions ⊆ s'.transactions) :
    Shows s' request callerId e := by
  unfold Shows at h ⊢
  split
  · exact hs h
  · exact ⟨hs h.1, h.2⟩
  · exact ⟨h.1.mono hs, fun hchecks => (h.2 hchecks).mono hs⟩
  · exact ⟨h.1, fun hchecks => (h.2 hchecks).mono hs⟩
  · exact ⟨h.1, fun hchecks => (h.2 hchecks).mono hs⟩
  · exact h
  · exact h
  · exact h.mono hs
  · exact h.mono hs
  · trivial

theorem Shows.owns_appended (h : Shows s request callerId e) (hid : e.1.appendsTo = some id) :
    s.Owns callerId id := by
  obtain ⟨asked, answer⟩ := e
  dsimp only at hid
  unfold ApiCall.appendsTo at hid
  split at hid
  · cases hid
    cases answer <;> exact h
  · cases hid
    cases answer <;> exact h
  · cases hid

end Shown

/-- The store is sound, and the calls so far are as they have shown it. -/
structure Witnessed (callerIds : ι → JsString) (requests : ι → Request)
    (log : List (ι × ApiEvent)) (s : ApiStore storage.toTrustRecordStorage) : Prop where
  sound : s.Sound
  shows : ∀ i e, (i, e) ∈ log → Shows s (requests i) (callerIds i) e

section Step
variable {callerIds : ι → JsString} {requests : ι → Request} {log : List (ι × ApiEvent)}
  {s s' : ApiStore storage.toTrustRecordStorage} {i : ι} {id : JsString} {e : ApiEvent}

/-- What a request has seen in its own calls is shown. -/
theorem Witnessed.of_own (h : Witnessed callerIds requests log s) (he : e ∈ eventsOf i log) :
    Shows s (requests i) (callerIds i) e :=
  h.shows i e (mem_eventsOf.mp he)

theorem Witnessed.created (h : Witnessed callerIds requests log s)
    {transaction : SubmittedTransaction}
    (hcreated : Created (callerIds i) transaction (eventsOf i log)) :
    transaction ∈ s.transactions := by
  obtain ⟨-, stored, hmem⟩ := hcreated
  exact h.of_own hmem

theorem Witnessed.owns_created (h : Witnessed callerIds requests log s)
    {transaction : SubmittedTransaction}
    (hcreated : Created (callerIds i) transaction (eventsOf i log)) :
    s.Owns (callerIds i) transaction.businessTransactionId :=
  ⟨transaction, h.created hcreated, rfl, hcreated.1⟩

/-- **What a request was let through to is its caller's**, where there is something. -/
theorem Witnessed.owns_cleared (h : Witnessed callerIds requests log s)
    (hcleared : Cleared (callerIds i) id (eventsOf i log))
    (hunraced : (⟨.findTransaction id, .ok none⟩ : ApiEvent) ∈ eventsOf i log →
      ∀ transaction ∈ s.transactions, transaction.businessTransactionId = id →
        transaction.metadata.submittedBy = some (callerIds i)) (hhas : s.Has id) :
    s.Owns (callerIds i) id := by
  rcases hcleared with hnone | ⟨transaction, hsubmitted, hfound⟩
  · obtain ⟨transaction, hmem, hid⟩ := hhas
    exact ⟨transaction, hmem, hid, hunraced hnone transaction hmem hid⟩
  · obtain ⟨hmem, hid⟩ : transaction ∈ s.transactions ∧ transaction.businessTransactionId = id :=
      h.of_own hfound
    exact ⟨transaction, hmem, hid, hsubmitted⟩

/-- What a request has found something of is its caller's. -/
theorem Witnessed.owns_revealed (h : Witnessed callerIds requests log s)
    (hchecks : (requests i).checks = true) (he : e ∈ eventsOf i log) (hreveals : Reveals id e) :
    s.Owns (callerIds i) id := by
  have hshows := h.of_own he
  unfold Reveals at hreveals
  split at hreveals
  · subst hreveals
    exact hshows.2 hchecks
  · subst hreveals
    exact hshows.2 hchecks
  · subst hreveals
    exact hshows.2 hchecks
  · exact hreveals.elim

/-- What a request stores is of a stored transaction. -/
theorem Witnessed.permits (h : Witnessed callerIds requests log s)
    (hstaged : Staged (requests i) (callerIds i) (eventsOf i log) e.1) : s.Permits e.1 := by
  unfold ApiStore.Permits
  split
  · rename_i record heq
    rw [heq] at hstaged
    obtain ⟨transaction, hcreated, context, processed, hof, hmem, hrecord, hid⟩ := hstaged
    have hsame : processed.transaction = context.transaction := h.of_own hmem
    refine ⟨transaction, h.created hcreated, ?_, ?_⟩
    · rw [hid, ← hof.2, ← hsame]
      rfl
    · rw [hrecord, hsame, hof.1]
  · rename_i intent heq
    rw [heq] at hstaged
    obtain ⟨transaction, hcreated, hid⟩ := hstaged
    exact ⟨transaction, h.created hcreated, hid.symm⟩
  · rename_i record heq
    rw [heq] at hstaged
    obtain ⟨transaction, hcreated, hid⟩ := hstaged
    exact ⟨transaction, h.created hcreated, hid.symm⟩
  · trivial

/-- What a request adds to is its caller's. -/
theorem Witnessed.owns_appended (h : Witnessed callerIds requests log s)
    (happended : (∃ transaction, Created (callerIds i) transaction (eventsOf i log) ∧
        transaction.businessTransactionId = id) ∨
      (requests i).checks = true ∧ ∃ e ∈ eventsOf i log, Reveals id e) :
    s.Owns (callerIds i) id := by
  rcases happended with ⟨transaction, hcreated, rfl⟩ | ⟨hchecks, e, he, hreveals⟩
  · exact h.owns_created hcreated
  · exact h.owns_revealed hchecks he hreveals

/-- **A call shows what it was answered.** -/
theorem Witnessed.shown (h : Witnessed callerIds requests log s)
    (hstaged : Staged (requests i) (callerIds i) (eventsOf i log) e.1)
    (hunraced : Unraced callerIds log s i e) (hserves : s.Serves e s') :
    Shows s' (requests i) (callerIds i) e := by
  have hgrows := hserves.subset
  -- what a route reads it was let through to, and nothing has come in between
  have howns : ∀ id, e.1.readsOf = some id →
      ((requests i).checks = true → Cleared (callerIds i) id (eventsOf i log)) → s.Has id →
        (requests i).checks = true → s'.Owns (callerIds i) id :=
    fun id hreads hcleared hhas hchecks =>
      (h.owns_cleared (hcleared hchecks) (hunraced id hreads) hhas).mono hgrows
  unfold Shows
  split
  · cases hserves
    exact List.mem_append_right _ (List.mem_singleton_self _)
  · exact (ApiStore.mem_of_transaction hserves.of_findTransaction.symm).imp_left fun h => hgrows h
  · rename_i id record
    have hfind : s.completed.find id = some record :=
      (((RepairStores.Serves.quiet hserves.of_repair.1 rfl).2 _ rfl)).symm
    have hnames := h.sound.recorded id record hfind
    exact ⟨hnames.mono hgrows, howns id rfl hstaged hnames.has⟩
  · rename_i id stored
    have hfind : s.completed.intents.findByTransactionId id = some stored :=
      (((RepairStores.Serves.quiet hserves.of_repair.1 rfl).2 _ rfl)).symm
    have hkey : stored.businessTransactionId = id := Keyed.key_of_find hfind
    exact ⟨hkey, howns id rfl hstaged (h.sound.intended id stored hfind)⟩
  · rename_i id record
    have hget := hserves.of_findRefusalRecord.symm
    have hkey := Table.key_of_get (t := s.refusalRecords) hget
    exact ⟨hkey, howns id rfl hstaged (h.sound.refused id record hget)⟩
  · exact hserves.of_repair.2
  · exact hserves.of_repair.2
  · exact (h.owns_appended hstaged).mono hgrows
  · exact (h.owns_appended hstaged).mono hgrows
  · trivial

theorem Witnessed.step (h : Witnessed callerIds requests log s)
    (hstaged : Staged (requests i) (callerIds i) (eventsOf i log) e.1)
    (hunraced : Unraced callerIds log s i e) (hserves : s.Serves e s') :
    Witnessed callerIds requests (log ++ [(i, e)]) s' := by
  refine ⟨h.sound.step (h.permits hstaged) hserves, fun j e' hmem => ?_⟩
  rcases List.mem_append.mp hmem with hmem | hmem
  · exact (h.shows j e' hmem).mono hserves.subset
  · cases List.mem_singleton.mp hmem
    exact h.shown hstaged hunraced hserves

/-- **What a request is answered is its caller's.** -/
theorem Witnessed.answered (h : Witnessed callerIds requests log s) {response : Response}
    (hanswered : Answered (requests i) (callerIds i) (eventsOf i log) response) :
    response.OwnedBy s (callerIds i) (requests i) := by
  cases response with
  | trustRecord found =>
    obtain ⟨id, hmem, howner⟩ := hanswered
    obtain ⟨hnames, howns⟩ : s.Names id found ∧ ((requests i).checks = true →
      s.Owns (callerIds i) id) := h.of_own hmem
    rcases howner with hchecks | ⟨transaction, hcreated, rfl⟩
    · exact hnames.submittedBy h.sound (howns hchecks)
    · exact hnames.submittedBy h.sound (h.owns_created hcreated)
  | verification appended =>
    obtain ⟨hchecks, e, he, hreveals⟩ := hanswered
    exact h.owns_revealed hchecks he hreveals
  | receipt appended =>
    obtain ⟨hchecks, payload, hmem, e, he, hreveals⟩ := hanswered
    have hmade : appended.toReceiptPayload = payload := h.of_own hmem
    rw [← hmade] at hreveals
    exact h.owns_revealed hchecks he hreveals
  | artifact artifact =>
    obtain ⟨hchecks, id, hsubject, e, he, hreveals⟩ := hanswered
    exact ⟨id, hsubject, h.owns_revealed hchecks he hreveals⟩
  | refusalRecord found =>
    obtain ⟨hchecks, id, hmem⟩ := hanswered
    obtain ⟨rfl, howns⟩ : found.businessTransactionId = id ∧ ((requests i).checks = true →
      s.Owns (callerIds i) id) := h.of_own hmem
    exact howns hchecks
  | replay id hash verified =>
    obtain ⟨hchecks, e, he, hreveals⟩ := hanswered
    exact h.owns_revealed hchecks he hreveals
  | executionIntent intent status =>
    obtain ⟨hchecks, id, stored, hmem, rfl⟩ := hanswered
    obtain ⟨rfl, howns⟩ : stored.intent.businessTransactionId = id ∧
      ((requests i).checks = true → s.Owns (callerIds i) id) := h.of_own hmem
    exact howns hchecks
  | executionIntents _ => exact hanswered
  | finalized _ _ => exact hanswered
  | resolved _ _ _ => exact hanswered
  | transaction found => exact hanswered
  | transactions found => exact hanswered
  | trustRecords found => exact hanswered
  | badRequest _ => trivial
  | forbidden _ _ => trivial
  | notFound _ => trivial
  | auditUnavailable => trivial

end Step

/-! ## The run -/

/-- **Where no other caller's transaction comes in between, the callers are isolated**, in any
interleaving of their requests. -/
theorem isolated_of_unraced {application : Application} {callers : ι → Caller}
    {callerIds : ι → JsString} {requests : ι → Request} {s : ApiStore storage.toTrustRecordStorage}
    {log : List (ι × ApiEvent)} {Q : Pool ApiCall ApiCall.Answer Failure (fun _ : ι => Response)
      (ApiStore storage.toTrustRecordStorage)}
    (hcallers : ∀ i, (callers i).callerId = some (callerIds i))
    (hhuman : ∀ i, isHumanCaller (callers i).credentialHolderType = false) (hs : s.Sound)
    (h : ExecWhere ApiStore.Serves (Unraced callerIds)
      ⟨fun i => (requests i).handle application (callers i), s⟩ log Q) :
    Isolated callerIds requests log Q := by
  have hthreads : ∀ i, Traced (Staged (requests i) (callerIds i))
      ((requests i).handle application (callers i))
      (fun response t => Answered (requests i) (callerIds i) t response) [] := fun i =>
    handle_traced application (hcallers i) (hhuman i) (requests i)
  have hwitnessed : Witnessed callerIds requests log Q.state := by
    have hmeets : ∀ i, ((requests i).handle application (callers i)).Ensures history
        (Staged (requests i) (callerIds i)) (fun _ _ => True) [] := fun i =>
      Ensures.mono (hthreads i) fun _ _ _ => trivial
    refine h.induction (I := fun log s => Witnessed callerIds requests log s) hmeets ⟨hs, ?_⟩ ?_
    · exact fun i e hmem => absurd hmem List.not_mem_nil
    · exact fun log s i e s' hI hstaged hunraced hserves => hI.step hstaged hunraced hserves
  refine ⟨fun i response hdone => hwitnessed.answered ?_, fun i e id hmem happends => ?_⟩
  · have hsteps := h.exec.steps_of_thread i
    rw [hdone] at hsteps
    exact post_of_runs (hthreads i) hsteps response rfl
  · exact (hwitnessed.shows i e hmem).owns_appended happends

/-! ## A submission between the two calls -/

namespace Sample
open Parmana.Sample.Restart

/-- The store, with the records in memory. -/
abbrev Store := ApiStore MemoryTrustRecords.transactionStorage.toTrustRecordStorage

/-- The calls answered, every write in effect. -/
def answering (asked : ApiCall) (s : Store) : Except Failure asked.Answer × Store :=
  match asked with
  | .transactionExists id => (.ok (s.transactions.has id), s)
  | .createTransaction transaction =>
    if s.transactions.has transaction.businessTransactionId then
      (.error (duplicateBusinessTransactionError transaction.businessTransactionId), s)
    else (.ok transaction, s.store transaction)
  | .findTransaction id => (.ok (s.transaction id), s)
  | .listTransactions _ _ => (.ok s.transactions, s)
  | .repair asked => ((carry asked s.completed).1, { s with
      completed := (carry asked s.completed).2
      refusalRecords := refusalRecordsAfter asked s.refusalRecords })
  | .findRefusalRecord id => (.ok (s.refusalRecords.get id), s)
  | .listUnfinalized limit => (.ok (s.completed.intents.listUnfinalized limit), s)
  | .verifyTrustRecord _ => (.ok true, s)
  | .recordAudit _ => (.ok (), s)

theorem carry_faithful (asked : RepairCall) (s : RepairStores MemoryTrustRecords.storage) :
    Faithful asked (carry asked s).1 := by
  unfold carry
  split
  · cases asked with
    | runtime asked => cases asked <;> trivial
    | createReceipt payload => exact rfl
    | _ => trivial
  · unfold Faithful
    split
    · rename_i heq
      cases heq
    · rename_i heq
      cases heq
    · trivial

theorem serves_answering {s s' : Store} {e : ApiEvent}
    (h : Handled answering s e s') : s.Serves e s' := by
  obtain ⟨asked, answer⟩ := e
  have hanswer : answering asked s = (answer, s') := h
  cases asked with
  | createTransaction transaction =>
    unfold answering at hanswer
    dsimp only at hanswer
    by_cases hhas : s.transactions.has transaction.businessTransactionId = true
    · rw [if_pos hhas] at hanswer
      cases hanswer
      exact .failed _ _ fun _ => nofun
    · rw [if_neg hhas] at hanswer
      cases hanswer
      exact .createTransaction transaction (Bool.eq_false_iff.mpr hhas)
  | repair asked =>
    cases hanswer
    exact .repair asked _ _ _ (@carry_answered false asked s.completed).1
      (carry_faithful asked s.completed) (.inl rfl)
  | transactionExists id =>
    cases hanswer
    exact .transactionExists id
  | findTransaction id =>
    cases hanswer
    exact .findTransaction id
  | listTransactions page pageSize =>
    cases hanswer
    exact .listTransactions page pageSize _ fun _ h => h
  | findRefusalRecord id =>
    cases hanswer
    exact .findRefusalRecord id
  | listUnfinalized limit =>
    cases hanswer
    exact .listUnfinalized limit
  | verifyTrustRecord trustRecord =>
    cases hanswer
    exact .verifyTrustRecord trustRecord true
  | recordAudit event =>
    cases hanswer
    exact .recordAudit event

/-- Nothing is stored. -/
def nothing : Store where
  transactions := []
  completed := Parmana.Sample.Restart.nothing
  refusalRecords := .empty

theorem sound_nothing : ApiStore.Sound nothing where
  unique _ ha := nomatch ha
  recorded _ _ h := by cases h
  intended _ _ h := by cases h
  refused _ _ h := by cases h

/-- The transaction both requests are about. -/
def id : JsString := "123e4567-e89b-42d3-a456-426614174000"

/-- What the first caller submits. -/
def submission : Submission where
  businessTransactionId := .json (.str id)
  principalId := some "agent-a"
  transaction := { Parmana.Sample.submitted with metadataTransactionId := id }

/-- The caller of a request. -/
def callerIds : Bool → JsString
  | true => "agent-a"
  | false => "agent-b"

def callers (i : Bool) : Caller where
  callerId := some (callerIds i)
  allowedPrincipalIds := none
  allowedCapabilities := some ["*"]
  credentialHolderType := none

/-- One submits the transaction, and the other asks for its record. -/
def requests : Bool → Request
  | true => .execute submission
  | false => .getTrustRecord id

def application : Application where
  config := Parmana.Sample.config
  executionIntents := true
  refusalRecords := true
  auditSink := true

/-- The two requests. -/
def pool : Pool ApiCall ApiCall.Answer Failure (fun _ : Bool => Response)
    (Store) :=
  ⟨fun i => (requests i).handle application (callers i), nothing⟩

/-- The submitter of the record a request was answered with. -/
def recordOf : ApiProgram Response → Option (Option JsString)
  | .done (.ok (.trustRecord found)) => some found.transaction.metadata.submittedBy
  | _ => none

theorem of_recordOf {p : ApiProgram Response} {submittedBy : Option JsString}
    (h : recordOf p = some submittedBy) : ∃ found, p = .done (.ok (.trustRecord found)) ∧
      found.transaction.metadata.submittedBy = submittedBy := by
  unfold recordOf at h
  split at h
  · exact ⟨_, rfl, Option.some.inj h⟩
  · cases h

/-- The second caller asks whose the transaction is before the first submits it, and reads
the record after. -/
def between : List Bool := [false] ++ List.replicate 60 true ++ [false]

/-- The second caller asks and reads before the first submits the transaction. -/
def before : List Bool := [false, false] ++ List.replicate 60 true

theorem between_run : Exec ApiStore.Serves pool (pool.script answering between)
    (pool.play answering between) :=
  (Exec.play answering between (pool.meets_true answering between)).mono fun _ _ _ h =>
    serves_answering h.1

/-- The transaction was looked for and not found. -/
def foundNone (id : JsString) : ApiEvent → Bool
  | ⟨.findTransaction id', .ok none⟩ => decide (id' = id)
  | _ => false

theorem foundNone_of_mem {id : JsString} {t : List ApiEvent}
    (h : (⟨.findTransaction id, .ok none⟩ : ApiEvent) ∈ t) : t.any (foundNone id) = true :=
  List.any_eq_true.mpr ⟨_, h, decide_eq_true rfl⟩

/-- A read of a request that was told of no transaction, where each stored one is the
caller's. -/
def isUnraced (log : List (Bool × ApiEvent)) (s : Store) (i : Bool) (e : ApiEvent) : Bool :=
  match e.1.readsOf with
  | none => true
  | some id => !(eventsOf i log).any (foundNone id) || s.transactions.all fun transaction =>
    transaction.businessTransactionId ≠ id ||
      transaction.metadata.submittedBy = some (callerIds i)

theorem unraced_of_isUnraced {log : List (Bool × ApiEvent)}
    {s : Store} {i : Bool} {e : ApiEvent}
    (h : isUnraced log s i e = true) :
    Unraced callerIds log s i e := by
  intro id hreads hnone transaction hmem hid
  unfold isUnraced at h
  rw [hreads] at h
  dsimp only at h
  rw [foundNone_of_mem hnone, Bool.not_true, Bool.false_or, List.all_eq_true] at h
  have hsubmitted := h transaction hmem
  rw [Bool.or_eq_true, decide_eq_true_eq, decide_eq_true_eq] at hsubmitted
  exact hsubmitted.resolve_left fun hne => hne hid

theorem before_run : ExecWhere ApiStore.Serves
    (Unraced callerIds) pool
    (pool.script answering before) (pool.play answering before) :=
  (ExecWhere.play (C := fun log s i e => isUnraced log s i e = true) answering before
    (by decide)).mono (fun _ _ _ _ _ _ h => serves_answering h)
    fun _ _ _ _ h => unraced_of_isUnraced h

/-- The second caller is answered with a record of the first. -/
theorem not_isolated {log : List (Bool × ApiEvent)}
    {Q : Pool ApiCall ApiCall.Answer Failure (fun _ : Bool => Response) Store}
    (h : recordOf (Q.threads false) = some (some ("agent-a" : JsString))) :
    ¬ Isolated callerIds requests log Q := by
  intro hisolated
  obtain ⟨found, hdone, hsubmitted⟩ := of_recordOf h
  have howned : found.transaction.metadata.submittedBy = some ("agent-b" : JsString) :=
    hisolated.1 false _ hdone
  exact absurd (hsubmitted.symm.trans howned) (by decide)

end Sample

/-- **A record is returned to a caller it does not belong to**: another caller's submission
came between the two calls of its request. -/
theorem read_between : ∃ log Q, Exec ApiStore.Serves Sample.pool log Q ∧
    ¬ Isolated Sample.callerIds Sample.requests log Q :=
  ⟨_, _, Sample.between_run, Sample.not_isolated (by decide +kernel)⟩

/-- The second caller reads before the first submits: it is told of no record, and the first is
answered with its own. -/
theorem isolated_before :
    Isolated Sample.callerIds Sample.requests
      (Sample.pool.script Sample.answering Sample.before)
      (Sample.pool.play Sample.answering Sample.before) ∧
    Sample.recordOf ((Sample.pool.play Sample.answering Sample.before).threads true) =
      some (some ("agent-a" : JsString)) :=
  ⟨isolated_of_unraced (fun i => show (Sample.callers i).callerId = _ from rfl) (fun _ => rfl)
    Sample.sound_nothing Sample.before_run, by decide +kernel⟩

end Parmana.Api

import Parmana.Interaction.Concurrent
import Parmana.Runtime.PolicyChecks
import Mathlib.Data.List.Pairwise

/-! # Submitting a transaction once

`ExecutionTrustApplication.execute` stores a business transaction before the runtime
executes it, and `BusinessTransactionService.accept` refuses one that is stored.  Whether
it is stored is asked in one call and it is stored in another, so two submissions of one
identifier can both be told that there is none.  What keeps the second out is the store
itself: `MemoryBusinessTransactionRepository.create` looks and stores between two
`await`s.

The submissions run side by side over one store (`Serves`).  Of those with one identifier
at most one gets past `accept` (`Reaches`), and each of the others ends as a duplicate or,
where its own invariants do not hold, as invalid, before any call of the runtime.
-/
namespace Parmana
open Js Interaction Interaction.Program

/-! ## The application -/

/-- A `BusinessTransaction` as it is submitted, with the members that only its validation
reads. -/
structure SubmittedTransaction extends BusinessTransaction where
  /-- `metadata.businessTransactionId`. -/
  metadataTransactionId : JsString
  /-- `authority.authorityId`. -/
  authorityId : JsString
  /-- `authorization.authorizationId`. -/
  authorizationId : JsString
  /-- `authorization.authorityId`. -/
  authorizationAuthorityId : JsString
  /-- `intent.authorizationId`. -/
  intentAuthorizationId : JsString

/-- `BusinessTransactionValidationError`. -/
def businessTransactionValidationError (message : JsString) : Failure :=
  .runtimeError message "RUNTIME_ERROR" 500

/-- `BusinessTransactionValidator.validate`. -/
def BusinessTransactionValidator.validate (transaction : SubmittedTransaction) :
    Except Failure Unit := do
  if transaction.businessTransactionId ≠ transaction.metadataTransactionId then
    throw (businessTransactionValidationError
      "metadata.businessTransactionId must match businessTransactionId.")
  if transaction.authorizationAuthorityId ≠ transaction.authorityId then
    throw (businessTransactionValidationError
      "authorization.authorityId must match authority.authorityId.")
  if transaction.intentAuthorizationId ≠ transaction.authorizationId then
    throw (businessTransactionValidationError
      "intent.authorizationId must match authorization.authorizationId.")
  if transaction.policy.name.trim = "" then
    throw (businessTransactionValidationError "policy.name is required.")
  if transaction.policy.version.trim = "" then
    throw (businessTransactionValidationError "policy.version is required.")
  if transaction.intent.action.trim = "" then
    throw (businessTransactionValidationError "intent.action is required.")

/-- `DuplicateBusinessTransactionError`. -/
def duplicateBusinessTransactionError (businessTransactionId : JsString) : Failure :=
  .parmanaError ("Business Transaction '" ++ businessTransactionId ++ "' already exists.")
    "DUPLICATE_BUSINESS_TRANSACTION"

/-- The calls of the application: those of the runtime among them. -/
inductive ApplicationCall where
  /-- `BusinessTransactionRepository.exists`. -/
  | transactionExists (businessTransactionId : JsString)
  /-- `BusinessTransactionRepository.create`. -/
  | createTransaction (transaction : SubmittedTransaction)
  /-- What `Runtime.execute` calls. -/
  | runtime (call : RuntimeCall)
  /-- `VerificationService.verify`. -/
  | verify (businessTransactionId : JsString)
  /-- `ReceiptService.generate`. -/
  | generateReceipt (businessTransactionId : JsString)
  /-- `ExecutionTrustRecordRepository.findByTransactionId`. -/
  | findTrustRecord (businessTransactionId : JsString)

/-- What a call answers. -/
abbrev ApplicationCall.Answer : ApplicationCall → Type
  | .transactionExists _ => Bool
  | .createTransaction _ => SubmittedTransaction
  | .runtime asked => asked.Answer
  | .verify _ | .generateReceipt _ => Unit
  | .findTrustRecord _ => Option ExecutionTrustRecord

/-- A program of the application. -/
abbrev ApplicationProgram (α : Type) := Program ApplicationCall ApplicationCall.Answer Failure α

/-- A call of the application and its answer. -/
abbrev ApplicationEvent := Event ApplicationCall ApplicationCall.Answer Failure

/-- Makes one call. -/
abbrev ApplicationProgram.ask (asked : ApplicationCall) : ApplicationProgram asked.Answer :=
  perform asked

open ApplicationProgram

/-- `BusinessTransactionService.accept`. -/
def BusinessTransactionService.accept (transaction : SubmittedTransaction) :
    ApplicationProgram SubmittedTransaction := do
  Program.done (BusinessTransactionValidator.validate transaction)
  let found ← ask (.transactionExists transaction.businessTransactionId)
  if found = true then
    throw (duplicateBusinessTransactionError transaction.businessTransactionId)
  ask (.createTransaction transaction)

namespace ExecutionTrustApplication
variable (config : RuntimeConfig) (executionIntents : Bool) (transaction : SubmittedTransaction)

/-- `runtime.execute`. -/
def executeRuntime : ApplicationProgram (RuntimeContext × ExecutionTrustRecord) :=
  (Runtime.execute config executionIntents transaction.toBusinessTransaction).relabel
    ApplicationCall.runtime fun _ answer => answer

/-- `ExecutionTrustApplication.execute`, once the transaction is accepted. -/
def executeAccepted : ApplicationProgram ExecutionTrustRecord := do
  let _ ← executeRuntime config executionIntents transaction
  ask (.verify transaction.businessTransactionId)
  ask (.generateReceipt transaction.businessTransactionId)
  let found ← ask (.findTrustRecord transaction.businessTransactionId)
  match found with
  | some trustRecord => return trustRecord
  | none => throw (.error "Execution Trust Record not found.")

/-- `ExecutionTrustApplication.execute`. -/
def execute : ApplicationProgram ExecutionTrustRecord := do
  let _ ← BusinessTransactionService.accept transaction
  executeAccepted config executionIntents transaction

end ExecutionTrustApplication

/-! ## The store -/

/-- `MemoryBusinessTransactionRepository`, in the order the transactions were stored. -/
abbrev TransactionRepository := List SubmittedTransaction

/-- `exists`. -/
def TransactionRepository.has (repository : TransactionRepository) (id : JsString) : Bool :=
  repository.any fun transaction => decide (transaction.businessTransactionId = id)

/-- The repository answers a call; those of other collaborators are answered as they please. -/
def TransactionRepository.Serves (repository : TransactionRepository) (e : ApplicationEvent)
    (repository' : TransactionRepository) : Prop :=
  match e with
  | ⟨.transactionExists id, answer⟩ => answer = .ok (repository.has id) ∧ repository' = repository
  | ⟨.createTransaction transaction, answer⟩ =>
    if repository.has transaction.businessTransactionId then
      answer = .error (duplicateBusinessTransactionError transaction.businessTransactionId) ∧
        repository' = repository
    else answer = .ok transaction ∧ repository' = repository ++ [transaction]
  | _ => repository' = repository

/-! ## What one submission does -/

section Thread
variable {config : RuntimeConfig} {executionIntents : Bool} {transaction : SubmittedTransaction}
  {t : List ApplicationEvent} {q : ApplicationProgram ExecutionTrustRecord}

/-- What a submission sees before it executes anything: the two answers that let it in. -/
def admission (transaction : SubmittedTransaction) : List ApplicationEvent :=
  [⟨.transactionExists transaction.businessTransactionId, .ok false⟩,
    ⟨.createTransaction transaction, .ok transaction⟩]

/-- Calls of `accept`. -/
def ApplicationCall.isAccepting : ApplicationCall → Bool
  | .transactionExists _ | .createTransaction _ => true
  | _ => false

/-- **The steps of a submission**: it is refused, it is still at `accept`, or it has been let
in and executes. -/
inductive Submits (config : RuntimeConfig) (executionIntents : Bool)
    (transaction : SubmittedTransaction) :
    List ApplicationEvent → ApplicationProgram ExecutionTrustRecord → Prop where
  | invalid {failure} (h : BusinessTransactionValidator.validate transaction = .error failure) :
    Submits config executionIntents transaction [] (.done (.error failure))
  | asking {k} : Submits config executionIntents transaction []
      (.call (.transactionExists transaction.businessTransactionId) k)
  | unanswered {failure} : Submits config executionIntents transaction
      [⟨.transactionExists transaction.businessTransactionId, .error failure⟩]
      (.done (.error failure))
  | found (h : BusinessTransactionValidator.validate transaction = .ok ()) :
    Submits config executionIntents transaction
      [⟨.transactionExists transaction.businessTransactionId, .ok true⟩]
      (.done (.error (duplicateBusinessTransactionError transaction.businessTransactionId)))
  | creating {k} : Submits config executionIntents transaction
      [⟨.transactionExists transaction.businessTransactionId, .ok false⟩]
      (.call (.createTransaction transaction) k)
  | refused {failure} (h : BusinessTransactionValidator.validate transaction = .ok ()) :
    Submits config executionIntents transaction
      [⟨.transactionExists transaction.businessTransactionId, .ok false⟩,
        ⟨.createTransaction transaction, .error failure⟩] (.done (.error failure))
  | admitted {stored t q}
      (h : Steps (ExecutionTrustApplication.executeAccepted config executionIntents transaction)
        t q) : Submits config executionIntents transaction
      (⟨.transactionExists transaction.businessTransactionId, .ok false⟩ ::
        ⟨.createTransaction transaction, .ok stored⟩ :: t) q

theorem submits_of_steps
    (h : Steps (ExecutionTrustApplication.execute config executionIntents transaction) t q) :
    Submits config executionIntents transaction t q := by
  unfold ExecutionTrustApplication.execute BusinessTransactionService.accept at h
  cases hvalid : BusinessTransactionValidator.validate transaction with
  | error failure =>
    rw [hvalid] at h
    cases h
    exact .invalid hvalid
  | ok =>
    rw [hvalid] at h
    cases h with
    | refl => exact .asking
    | @call _ _ answer t q h =>
      cases answer with
      | error failure =>
        cases h
        exact .unanswered
      | ok found =>
        cases found with
        | true =>
          cases h
          exact .found hvalid
        | false =>
          cases h with
          | refl => exact .creating
          | @call _ _ answer t q h =>
            cases answer with
            | error failure =>
              cases h
              exact .refused hvalid
            | ok stored => exact .admitted h

/-- What the store answers to the calls of `accept`. -/
def Answered (e : ApplicationEvent) : Prop :=
  match e with
  | ⟨.transactionExists _, answer⟩ => ∃ found, answer = .ok found
  | ⟨.createTransaction transaction, answer⟩ => answer = .ok transaction ∨
      answer = .error (duplicateBusinessTransactionError transaction.businessTransactionId)
  | _ => True

/-- **A submission that is answered by the store** is let in, or it makes no call of the
runtime and is refused. -/
theorem Submits.admitted_or_refused (h : Submits config executionIntents transaction t q)
    (hanswered : ∀ e ∈ t, Answered e) :
    (∃ t', t = admission transaction ++ t' ∧ Steps
        (ExecutionTrustApplication.executeAccepted config executionIntents transaction) t' q) ∨
      (∀ e ∈ t, e.1.isAccepting = true) ∧ ∀ r, q = .done r →
        (BusinessTransactionValidator.validate transaction = .ok () →
          r = .error (duplicateBusinessTransactionError transaction.businessTransactionId)) ∧
        ∀ failure, BusinessTransactionValidator.validate transaction = .error failure →
          r = .error failure := by
  cases h with
  | invalid h =>
    refine .inr ⟨by simp, ?_⟩
    rintro r ⟨rfl⟩
    rw [h]
    exact ⟨nofun, fun failure hfailure => congrArg Except.error (Except.error.inj hfailure)⟩
  | asking => exact .inr ⟨by simp, fun r hdone => nomatch hdone⟩
  | unanswered =>
    obtain ⟨found, hfound⟩ := hanswered _ List.mem_cons_self
    cases hfound
  | found h =>
    refine .inr ⟨by simp [ApplicationCall.isAccepting], ?_⟩
    rintro r ⟨rfl⟩
    rw [h]
    exact ⟨fun _ => rfl, nofun⟩
  | creating => exact .inr ⟨by simp [ApplicationCall.isAccepting], fun r hdone => nomatch hdone⟩
  | refused h =>
    rcases hanswered _ (List.mem_cons_of_mem _ List.mem_cons_self) with hstored | hstored
    · cases hstored
    · cases hstored
      refine .inr ⟨by simp [ApplicationCall.isAccepting], ?_⟩
      rintro r ⟨rfl⟩
      rw [h]
      exact ⟨fun _ => rfl, nofun⟩
  | admitted h =>
    rcases hanswered _ (List.mem_cons_of_mem _ List.mem_cons_self) with hstored | hstored
    · cases hstored
      exact .inl ⟨_, rfl, h⟩
    · cases hstored

end Thread
/-! ## Submissions side by side -/

section Pool
variable {ι : Type} [DecidableEq ι] {config : RuntimeConfig} {executionIntents : Bool}
  {submission : ι → SubmittedTransaction} {repository : TransactionRepository}
  {log : List (ι × ApplicationEvent)}

/-- Each thread submits its transaction. -/
def startSubmissions (config : RuntimeConfig) (executionIntents : Bool)
    (submission : ι → SubmittedTransaction) (repository : TransactionRepository) :
    Pool ApplicationCall ApplicationCall.Answer Failure (fun _ : ι => ExecutionTrustRecord)
      TransactionRepository :=
  ⟨fun i => ExecutionTrustApplication.execute config executionIntents (submission i), repository⟩

/-- A submission has reached `runtime.execute`: it was let in. -/
def Reaches (submission : ι → SubmittedTransaction) (log : List (ι × ApplicationEvent)) (i : ι) :
    Prop :=
  ∃ t, eventsOf i log = admission (submission i) ++ t

/-- The identifier that an event stores. -/
def storedId : ApplicationEvent → Option JsString
  | ⟨.createTransaction transaction, .ok _⟩ => some transaction.businessTransactionId
  | _ => none

/-- **What holds of the store after the calls in `log`**: an identifier is stored once. -/
structure StoredOnce (log : List (ι × ApplicationEvent)) (s : TransactionRepository) : Prop where
  answered : ∀ x ∈ log, Answered x.2
  has : ∀ x ∈ log, ∀ id, storedId x.2 = some id → s.has id = true
  once : log.Pairwise fun x y => ∀ id, storedId x.2 = some id → storedId y.2 ≠ some id

namespace TransactionRepository

theorem Serves.answered {s s' : TransactionRepository} {e : ApplicationEvent}
    (h : s.Serves e s') : Answered e := by
  obtain ⟨asked, answer⟩ := e
  cases asked with
  | transactionExists id => exact ⟨_, h.1⟩
  | createTransaction transaction =>
    unfold Serves at h
    dsimp only at h
    by_cases hhas : s.has transaction.businessTransactionId = true
    · rw [if_pos hhas] at h
      exact .inr h.1
    · rw [if_neg hhas] at h
      exact .inl h.1
  | _ => trivial

/-- What is stored stays, and a call that stores an identifier finds none. -/
theorem Serves.stored {s s' : TransactionRepository} {e : ApplicationEvent} (h : s.Serves e s') :
    (∀ id, s.has id = true → s'.has id = true) ∧
      ∀ id, storedId e = some id → s.has id = false ∧ s'.has id = true := by
  obtain ⟨asked, answer⟩ := e
  cases asked with
  | createTransaction transaction =>
    unfold Serves at h
    dsimp only at h
    by_cases hhas : s.has transaction.businessTransactionId = true
    · rw [if_pos hhas] at h
      obtain ⟨rfl, rfl⟩ := h
      exact ⟨fun _ h => h, nofun⟩
    · rw [if_neg hhas] at h
      obtain ⟨rfl, rfl⟩ := h
      refine ⟨fun id hid => ?_, fun id hid => ?_⟩
      · rw [has, List.any_append, Bool.or_eq_true_iff]
        exact .inl hid
      · cases hid
        refine ⟨Bool.eq_false_iff.mpr hhas, ?_⟩
        rw [has, List.any_append, Bool.or_eq_true_iff]
        exact .inr (by simp)
  | transactionExists id =>
    obtain ⟨-, rfl⟩ := h
    exact ⟨fun _ h => h, nofun⟩
  | _ =>
    obtain rfl : s' = s := h
    exact ⟨fun _ h => h, nofun⟩

end TransactionRepository

omit [DecidableEq ι] in
/-- One call. -/
theorem StoredOnce.step {s s' : TransactionRepository} {i : ι} {e : ApplicationEvent}
    (h : StoredOnce log s) (hs : s.Serves e s') : StoredOnce (log ++ [(i, e)]) s' := by
  obtain ⟨hkept, hnew⟩ := hs.stored
  refine ⟨?_, ?_, ?_⟩
  · intro x hx
    rcases List.mem_append.mp hx with hx | hx
    · exact h.answered x hx
    · rw [List.mem_singleton.mp hx]
      exact hs.answered
  · intro x hx id hid
    rcases List.mem_append.mp hx with hx | hx
    · exact hkept id (h.has x hx id hid)
    · rw [List.mem_singleton.mp hx] at hid
      exact (hnew id hid).2
  · refine List.pairwise_append.mpr ⟨h.once, List.pairwise_singleton _ _, ?_⟩
    intro x hx y hy id hid hid'
    rw [List.mem_singleton.mp hy] at hid'
    exact Bool.false_ne_true ((hnew id hid').1.symm.trans (h.has x hx id hid))

theorem storedOnce {Q} (h : Exec TransactionRepository.Serves
    (startSubmissions config executionIntents submission repository) log Q) :
    StoredOnce log Q.state :=
  h.events_induction ⟨by simp, by simp, .nil⟩ fun _ _ _ _ _ hI hs => hI.step hs

/-- A submission that was let in stored its identifier. -/
theorem Reaches.stores {i : ι} (h : Reaches submission log i) :
    ∃ x ∈ log, x.1 = i ∧ storedId x.2 = some (submission i).businessTransactionId := by
  obtain ⟨t, ht⟩ := h
  refine ⟨(i, ⟨.createTransaction (submission i), .ok (submission i)⟩), ?_, rfl, rfl⟩
  rw [← mem_eventsOf, ht]
  simp [admission]

/-- **One submission is let in.**  Whatever the order of the calls, of the submissions with
one identifier at most one reaches the runtime, and from there it does what
`Runtime.execute` and the rest of `execute` do; any other makes no call of the runtime, and
it ends as a duplicate or, where its transaction is not valid, with what is wrong with it. -/
theorem submitted_once {Q} (h : Exec TransactionRepository.Serves
    (startSubmissions config executionIntents submission repository) log Q) :
    (∀ i j, (submission i).businessTransactionId = (submission j).businessTransactionId →
      Reaches submission log i → Reaches submission log j → i = j) ∧
    (∀ i t, eventsOf i log = admission (submission i) ++ t →
      Steps (ExecutionTrustApplication.executeAccepted config executionIntents (submission i)) t
        (Q.threads i)) ∧
    ∀ i, ¬ Reaches submission log i →
      (∀ asked answer, (i, ⟨.runtime asked, answer⟩) ∉ log) ∧
      ∀ r, Q.threads i = .done r →
        (BusinessTransactionValidator.validate (submission i) = .ok () →
          r = .error (duplicateBusinessTransactionError (submission i).businessTransactionId)) ∧
        ∀ failure, BusinessTransactionValidator.validate (submission i) = .error failure →
          r = .error failure := by
  have honce := storedOnce h
  have hsubmits := fun i => (submits_of_steps (h.steps_of_thread i)).admitted_or_refused
    fun e he => honce.answered (i, e) (mem_eventsOf.mp he)
  refine ⟨fun i j hid hi hj => ?_, fun i t ht => ?_, fun i hnot => ?_⟩
  · obtain ⟨x, hx, hxi, hstored⟩ := hi.stores
    obtain ⟨y, hy, hyj, hstored'⟩ := hj.stores
    by_contra hne
    have hdiffer : x ≠ y := by
      rintro rfl
      exact hne (hxi.symm.trans hyj)
    have : Std.Symm fun x y : ι × ApplicationEvent =>
        ∀ id, storedId x.2 = some id → storedId y.2 ≠ some id :=
      ⟨fun x y hxy id hy hx => hxy id hx hy⟩
    exact honce.once.forall hx hy hdiffer _ hstored (by rw [hstored', hid])
  · have hs := submits_of_steps (h.steps_of_thread i)
    rw [ht] at hs
    cases hs with
    | admitted h => exact h
  · rcases hsubmits i with ⟨t', ht', -⟩ | ⟨haccepting, hdone⟩
    · exact absurd ⟨t', ht'⟩ hnot
    · refine ⟨fun asked answer hmem => ?_, hdone⟩
      exact nomatch haccepting _ (mem_eventsOf.mpr hmem)

end Pool
/-! ## Two submissions of one transaction -/

/-- The repository takes a call of `accept`; nothing else is reached. -/
def TransactionRepository.take :
    (asked : ApplicationCall) → TransactionRepository →
      Except Failure asked.Answer × TransactionRepository
  | .transactionExists id, repository => (.ok (repository.has id), repository)
  | .createTransaction transaction, repository =>
    if repository.has transaction.businessTransactionId then
      (.error (duplicateBusinessTransactionError transaction.businessTransactionId), repository)
    else (.ok transaction, repository ++ [transaction])
  | .runtime _, repository | .verify _, repository | .generateReceipt _, repository
  | .findTrustRecord _, repository => (.error (.error "not reached"), repository)

theorem TransactionRepository.serves_of_handled {s s' : TransactionRepository}
    {e : ApplicationEvent} (h : Handled take s e s') : s.Serves e s' := by
  obtain ⟨asked, answer⟩ := e
  have htake : take asked s = (answer, s') := h
  cases asked with
  | transactionExists id =>
    cases htake
    exact ⟨rfl, rfl⟩
  | createTransaction transaction =>
    unfold take at htake
    unfold Serves
    dsimp only at htake ⊢
    by_cases hhas : s.has transaction.businessTransactionId = true
    · rw [if_pos hhas] at htake ⊢
      cases htake
      exact ⟨rfl, rfl⟩
    · rw [if_neg hhas] at htake ⊢
      cases htake
      exact ⟨rfl, rfl⟩
  | _ =>
    cases htake
    exact rfl

namespace Sample

/-- The request as it is submitted. -/
def submitted : SubmittedTransaction where
  toBusinessTransaction := transaction
  metadataTransactionId := "tx-1"
  authorityId := "authority-1"
  authorizationId := "authorization-1"
  authorizationAuthorityId := "authority-1"
  intentAuthorizationId := "authorization-1"

/-- A request whose metadata names another transaction. -/
def mismatched : SubmittedTransaction := { submitted with metadataTransactionId := "tx-2" }

/-- Two submissions of one request. -/
def twice (transaction : SubmittedTransaction) :
    Pool ApplicationCall ApplicationCall.Answer Failure (fun _ : Bool => ExecutionTrustRecord)
      TransactionRepository :=
  startSubmissions config true (fun _ => transaction) []

/-- Both ask before either stores. -/
def asksFirst : List Bool := [true, false, true, false]

theorem asksFirst_run : Exec TransactionRepository.Serves (twice submitted)
    ((twice submitted).script TransactionRepository.take asksFirst)
    ((twice submitted).play TransactionRepository.take asksFirst) :=
  (Exec.play TransactionRepository.take asksFirst
    ((twice submitted).meets_true TransactionRepository.take asksFirst)).mono
    fun _ _ _ h => TransactionRepository.serves_of_handled h.1

end Sample

open Sample in
/-- Of two submissions that were both told that there is none, the one that stores second
ends as a duplicate. -/
theorem submitted_once_asksFirst :
    Reaches (fun _ => submitted)
        ((twice submitted).script TransactionRepository.take asksFirst) true ∧
      ∀ r, ((twice submitted).play TransactionRepository.take asksFirst).threads false =
        .done r → r = .error (duplicateBusinessTransactionError "tx-1") := by
  have hreached : Reaches (fun _ => submitted)
      ((twice submitted).script TransactionRepository.take asksFirst) true := ⟨[], rfl⟩
  obtain ⟨hone, -, hrefused⟩ := submitted_once asksFirst_run
  refine ⟨hreached, fun r hdone => ?_⟩
  have hnot : ¬ Reaches (fun _ => submitted)
      ((twice submitted).script TransactionRepository.take asksFirst) false :=
    fun h => Bool.false_ne_true (hone false true rfl h hreached)
  exact ((hrefused false hnot).2 r hdone).1 rfl

open Sample in
/-- Two submissions of a request that is not valid: neither reaches the runtime, and neither
ends as a duplicate. -/
theorem mismatched_not_duplicate :
    ∃ log Q, Exec TransactionRepository.Serves (twice mismatched) log Q ∧
      ¬ Reaches (fun _ : Bool => mismatched) log true ∧
      ¬ Reaches (fun _ : Bool => mismatched) log false ∧
      ∃ failure, Q.threads false = .done (.error failure) ∧
        failure ≠ duplicateBusinessTransactionError "tx-1" := by
  refine ⟨[], twice mismatched, .refl _, ?_, ?_, businessTransactionValidationError
    "metadata.businessTransactionId must match businessTransactionId.", rfl, by decide⟩
  · rintro ⟨t, ht⟩
    cases ht
  · rintro ⟨t, ht⟩
    cases ht

end Parmana

import Parmana.Interaction.Sessions
import Parmana.Runtime.TrustStorage
import Parmana.Runtime.Worklist

/-! # Completing a record

A run of the runtime ends with an intent, a record, a verification and a receipt, each
written by a call of its own, and it can stop between any two of them.
`ExecutionTrustApplication.finalizeExecutionIntent` completes what a run left: it finds or
rebuilds the record, moves the intent, verifies the record unless it was verified, and
issues the receipt unless there is one.  Each of these steps looks first whether it was
done.

The runs and the repairs are sessions one after another, each stopped where it may be,
over any implementation of the two repositories (`TrustRecordStorage`).  **A repair that
returns leaves everything in place, and the next one only reads**
(`repair_converges`), since every record was created where there was none and every saved
context is one no verification was added to.
-/
namespace Parmana
open Js Interaction Interaction.Program RuntimeProgram

/-! ## The services -/

/-- The artifacts of a record that get an identifier when they are made. -/
inductive CompletionArtifact where
  | verification
  | receipt
  deriving DecidableEq, Repr

/-- The calls of a repair: those of the runtime, and those of the two services that
complete a record. -/
inductive RepairCall where
  | runtime (call : RuntimeCall)
  /-- `crypto.randomUUID()`. -/
  | randomUUID (artifact : CompletionArtifact)
  /-- `VerificationService.runChecks`: the failures that were found. -/
  | runChecks (trustRecord : ExecutionTrustRecord)
  /-- `ReceiptCrypto.hash`. -/
  | hashReceipt (trustRecord : ExecutionTrustRecord)
  /-- `ReceiptCrypto.createReceipt`. -/
  | createReceipt (payload : ReceiptPayload)
  | appendVerification (businessTransactionId : JsString) (verification : Verification)
  | appendReceipt (businessTransactionId : JsString) (receipt : Receipt)
  deriving DecidableEq

/-- What a call answers. -/
abbrev RepairCall.Answer : RepairCall → Type
  | .runtime asked => asked.Answer
  | .randomUUID _ | .hashReceipt _ => JsString
  | .runChecks _ => List JsString
  | .createReceipt _ => Receipt
  | .appendVerification .. | .appendReceipt .. => Unit

abbrev RepairProgram := Program RepairCall RepairCall.Answer Failure

abbrev RepairEvent := Event RepairCall RepairCall.Answer Failure

namespace RepairProgram

/-- Makes one call. -/
abbrev ask (call : RepairCall) : RepairProgram call.Answer := perform call

/-- A program of the runtime, among the calls of a repair. -/
abbrev ofRuntime {α : Type} (p : RuntimeProgram α) : RepairProgram α :=
  p.relabel RepairCall.runtime (fun _ answer => answer)

end RepairProgram

open RepairProgram (ofRuntime)

namespace VerificationService

/-- `verify`. -/
def verify (businessTransactionId : JsString) : RepairProgram Verification := do
  match ← RepairProgram.ask (.runtime (.findTrustRecord businessTransactionId)) with
  | none => throw (.runtimeError ("Execution Trust Record not found." : String)
      ("VERIFICATION_FAILED" : String) 404)
  | some trustRecord => do
    let failures ← RepairProgram.ask (.runChecks trustRecord)
    let verificationId ← RepairProgram.ask (.randomUUID .verification)
    let verifiedAt ← RepairProgram.ask (.runtime .now)
    let verification : Verification := {
      verificationId := verificationId
      businessTransactionId := businessTransactionId
      status := if failures.isEmpty then .verified else .failed
      message := if failures.isEmpty then
        ("Execution Trust Record verified successfully." : String) else JsString.join "; " failures
      verifiedAt := verifiedAt
      trustRecordHash := trustRecord.sealing.hash }
    RepairProgram.ask (.appendVerification businessTransactionId verification)
    return verification

end VerificationService

namespace ReceiptService

/-- `generate`. -/
def generate (businessTransactionId : JsString) : RepairProgram Receipt := do
  match ← RepairProgram.ask (.runtime (.findTrustRecord businessTransactionId)) with
  | none => throw (.runtimeError ("Execution Trust Record not found." : String)
      ("VERIFICATION_FAILED" : String) 404)
  | some trustRecord =>
    if !trustRecord.isVerified then
      throw (.runtimeError ("Execution Trust Record must be successfully verified before a " ++
        "Receipt can be generated." : String) ("RECEIPT_GENERATION_FAILED" : String) 409)
    else do
      let receiptHash ← RepairProgram.ask (.hashReceipt trustRecord)
      let receiptId ← RepairProgram.ask (.randomUUID .receipt)
      let issuedAt ← RepairProgram.ask (.runtime .now)
      let receipt ← RepairProgram.ask (.createReceipt {
        receiptId := receiptId
        businessTransactionId := businessTransactionId
        trustRecordHash := trustRecord.sealing.hash
        receiptHash := receiptHash
        issuedAt := issuedAt })
      RepairProgram.ask (.appendReceipt businessTransactionId receipt)
      return receipt

end ReceiptService

/-! ## The repair -/

namespace ExecutionTrustApplication

/-- `reloadTrustRecord`. -/
def reloadTrustRecord (businessTransactionId : JsString) : RepairProgram ExecutionTrustRecord := do
  match ← RepairProgram.ask (.runtime (.findTrustRecord businessTransactionId)) with
  | none => throw (.error ("Execution Trust Record not found." : String))
  | some record => return record

/-- A record with no verification is verified. -/
def completeVerification (businessTransactionId : JsString) (trustRecord : ExecutionTrustRecord) :
    RepairProgram ExecutionTrustRecord :=
  if trustRecord.verifications.isEmpty then do
    let _ ← VerificationService.verify businessTransactionId
    reloadTrustRecord businessTransactionId
  else return trustRecord

/-- A verified record with no receipt gets one. -/
def completeReceipt (businessTransactionId : JsString) (trustRecord : ExecutionTrustRecord) :
    RepairProgram ExecutionTrustRecord :=
  if trustRecord.receipts.isEmpty && trustRecord.isVerified then do
    let _ ← ReceiptService.generate businessTransactionId
    reloadTrustRecord businessTransactionId
  else return trustRecord

/-- `finalizeExecutionIntent`, with or without the finalizer. -/
def finalizeExecutionIntent (executionIntentFinalizer : Bool) (businessTransactionId : JsString) :
    RepairProgram (ExecutionIntentFinalizer.Outcome × ExecutionTrustRecord) :=
  if !executionIntentFinalizer then
    throw (.runtimeError ("Execution Intents are not enabled on this deployment." : String)
      ("EXECUTION_INTENTS_NOT_ENABLED" : String) 501)
  else do
    let result ← ofRuntime (ExecutionIntentFinalizer.finalize businessTransactionId)
    let trustRecord ← completeVerification businessTransactionId result.2
    let trustRecord ← completeReceipt businessTransactionId trustRecord
    return (result.1, trustRecord)

end ExecutionTrustApplication

/-! ## The repositories -/

/-- The repositories of a deployment. -/
structure RepairStores (storage : TrustRecordStorage) where
  intents : IntentRepository
  trustRecords : storage.State

namespace RepairStores
variable {storage : TrustRecordStorage}

/-- `findByTransactionId`, of the repository of trust records. -/
def find (s : RepairStores storage) (id : JsString) : Option ExecutionTrustRecord :=
  (storage.records s.trustRecords).get id

/-- The identifier of the record a transaction has. -/
def recordId (s : RepairStores storage) (id : JsString) : Option JsString :=
  (storage.records s.trustRecords).recordId id

/-- The intent of a transaction is stored. -/
def Intended (s : RepairStores storage) (id : JsString) : Prop :=
  (s.intents.findByTransactionId id).isSome

/-- The intent of a transaction is stored, and finalized. -/
def Finalized (s : RepairStores storage) (id : JsString) : Prop :=
  ∃ stored, s.intents.findByTransactionId id = some stored ∧ stored.status.state = .finalized

/-- The repository of intents after a call. -/
def intentsAfter (intents : IntentRepository) (call : RuntimeCall) :
    Except Failure IntentRepository :=
  ((⟨intents, [], []⟩ : Stores).write call).map (·.intents)

/-- The repositories after a write of the repository of trust records. -/
def store (s : RepairStores storage) (w : TrustRecordWrite) : Except Failure (RepairStores storage) :=
  (storage.write s.trustRecords w).map fun trustRecords => { s with trustRecords }

/-- The repositories after a write that takes effect; other calls leave them alone. -/
def write (s : RepairStores storage) : RepairCall → Except Failure (RepairStores storage)
  | .runtime (.createTrustRecord record) => s.store (.create record)
  | .runtime asked => (intentsAfter s.intents asked).map fun intents => { s with intents }
  | .appendVerification id verification => s.store (.appendVerification id verification)
  | .appendReceipt id receipt => s.store (.appendReceipt id receipt)
  | _ => .ok s

/-- What a read finds; any other answer is the collaborator's own. -/
def Finds (s : RepairStores storage) : (call : RepairCall) → call.Answer → Prop
  | .runtime (.findIntent id), found => found = s.intents.findByTransactionId id
  | .runtime (.findTrustRecord id), found => found = s.find id
  | _, _ => True

/-- Writes of the pipeline. -/
def Carries (s s' : RepairStores storage) : Prop :=
  s'.intents = s.intents ∧ Relation.ReflTransGen
    (fun r r' => ∃ w, w.isOfPipeline = true ∧ storage.write r w = .ok r')
    s.trustRecords s'.trustRecords

/-- The pipeline adds neither a verification nor a receipt to the context. -/
def Unverified (context : RuntimeContext) : Prop :=
  context.verification = none ∧ context.receipt = none

/-- The repositories answer a call: a write that fails may have taken effect, and the clock
does not fail. -/
def Serves (s : RepairStores storage) : RepairEvent → RepairStores storage → Prop
  | ⟨.runtime (.executePipeline context), answer⟩, s' => s.Carries s' ∧
      ∀ processed, answer = .ok processed → Unverified context → Unverified processed
  | ⟨.runtime .now, .error _⟩, _ => False
  | ⟨asked, .ok answer⟩, s' => s.write asked = .ok s' ∧ s.Finds asked answer
  | ⟨asked, .error _⟩, s' => s' = s ∨ s.write asked = .ok s'

end RepairStores

/-- A move of an intent to `FINALIZED` that failed: the service of intents goes on all the
same. -/
def RepairCall.IsLost (e : RepairEvent) : Prop :=
  ∃ id trustRecordId mode finalizedAt failure,
    e = ⟨.runtime (.markFinalized id trustRecordId mode finalizedAt), .error failure⟩

namespace RepairStores
variable {storage : TrustRecordStorage}

/-! ## What a call does -/

/-- The calls that write nothing. -/
def isQuiet : RepairCall → Bool
  | .runtime asked => !asked.isRelease && !asked.isBookkeeping && !asked.isSettling
  | .appendVerification .. | .appendReceipt .. => false
  | _ => true

section Effects
variable {s s' : RepairStores storage} {id : JsString}

theorem quiet_of_preparing {asked : RuntimeCall} (h : asked.isPreparing) :
    isQuiet (.runtime asked) = true := by
  show (!asked.isRelease && !asked.isBookkeeping && !asked.isSettling) = true
  rw [RuntimeCall.not_release_of_preparing h, RuntimeCall.not_bookkeeping_of_preparing h,
    RuntimeCall.not_settling_of_preparing h]
  rfl

theorem write_quiet {asked : RepairCall} (h : isQuiet asked = true) : s.write asked = .ok s := by
  cases asked with
  | runtime asked => cases asked <;> first | rfl | cases h
  | appendVerification => cases h
  | appendReceipt => cases h
  | _ => rfl

theorem Serves.cases {asked : RepairCall} {answer : Except Failure asked.Answer}
    (h : s.Serves ⟨asked, answer⟩ s') :
    (∃ context, asked = .runtime (.executePipeline context)) ∧ s.Carries s' ∨
      s' = s ∨ s.write asked = .ok s' := by
  unfold Serves at h
  split at h
  · rename_i heq
    cases heq
    exact .inl ⟨⟨_, rfl⟩, h.1⟩
  · exact h.elim
  · rename_i heq
    cases heq
    exact .inr (.inr h.1)
  · rename_i heq
    cases heq
    exact .inr h

/-- A quiet call changes nothing, and a read finds what is stored. -/
theorem Serves.quiet {asked : RepairCall} {answer : Except Failure asked.Answer}
    (h : s.Serves ⟨asked, answer⟩ s') (hquiet : isQuiet asked = true) :
    s' = s ∧ ∀ a, answer = .ok a → s.Finds asked a := by
  have hwrite : s.write asked = .ok s := write_quiet hquiet
  unfold Serves at h
  split at h
  · rename_i heq
    cases heq
    cases hquiet
  · exact h.elim
  · rename_i heq
    cases heq
    rw [hwrite] at h
    refine ⟨(Except.ok.inj h.1).symm, ?_⟩
    rintro a ⟨⟩
    exact h.2
  · rename_i heq
    cases heq
    rw [hwrite] at h
    refine ⟨h.elim (fun h => h) (fun h => (Except.ok.inj h).symm), ?_⟩
    rintro a ⟨⟩

/-- A write of the repository of trust records leaves the intents. -/
theorem store_ok {w : TrustRecordWrite} (h : s.store w = .ok s') :
    storage.write s.trustRecords w = .ok s'.trustRecords ∧ s'.intents = s.intents := by
  unfold store at h
  cases hwrite : storage.write s.trustRecords w with
  | error failure =>
    rw [hwrite] at h
    cases h
  | ok trustRecords =>
    rw [hwrite] at h
    cases h
    exact ⟨rfl, rfl⟩

/-- What a write does: it is one of trust records, or it changes the intents. -/
theorem write_cases {asked : RepairCall} (h : s.write asked = .ok s') :
    (∃ w, storage.write s.trustRecords w = .ok s'.trustRecords ∧ s'.intents = s.intents ∧
      ∀ record, w = .create record → asked = .runtime (.createTrustRecord record)) ∨
    s' = s ∨
    (∃ runtimeCall, asked = .runtime runtimeCall ∧ s'.trustRecords = s.trustRecords ∧
      intentsAfter s.intents runtimeCall = .ok s'.intents) := by
  unfold write at h
  split at h
  · obtain ⟨hwrite, hintents⟩ := store_ok h
    refine .inl ⟨_, hwrite, hintents, ?_⟩
    rintro record ⟨⟩
    rfl
  · rename_i runtimeCall _
    cases hintents : intentsAfter s.intents runtimeCall with
    | error failure =>
      rw [hintents] at h
      cases h
    | ok intents =>
      rw [hintents] at h
      cases h
      exact .inr (.inr ⟨runtimeCall, rfl, rfl, hintents⟩)
  · obtain ⟨hwrite, hintents⟩ := store_ok h
    refine .inl ⟨_, hwrite, hintents, ?_⟩
    rintro record ⟨⟩
  · obtain ⟨hwrite, hintents⟩ := store_ok h
    refine .inl ⟨_, hwrite, hintents, ?_⟩
    rintro record ⟨⟩
  · exact .inr (.inl (Except.ok.inj h).symm)

/-- The pipeline leaves each transaction the record it has. -/
theorem Carries.recordId (h : s.Carries s') (id : JsString) : s'.recordId id = s.recordId id := by
  have hwrites := h.2
  unfold RepairStores.recordId
  generalize s'.trustRecords = records at hwrites
  induction hwrites with
  | refl => rfl
  | tail _ hwrite ih =>
    obtain ⟨w, hw, hwrite⟩ := hwrite
    rw [storage.identity id hwrite, ih]
    rintro record rfl
    cases hw

/-- Only a creation changes which record a transaction has. -/
theorem Serves.recordId {asked : RepairCall} {answer : Except Failure asked.Answer}
    (h : s.Serves ⟨asked, answer⟩ s') (hcreate : ∀ record,
      asked = .runtime (.createTrustRecord record) → record.businessTransactionId ≠ id) :
    s'.recordId id = s.recordId id := by
  rcases h.cases with ⟨-, hcarries⟩ | rfl | hwrite
  · exact hcarries.recordId id
  · rfl
  · rcases write_cases hwrite with ⟨w, hw, -, horigin⟩ | rfl | ⟨_, -, hrecords, -⟩
    · exact storage.identity id hw fun record hrecord => hcreate record (horigin record hrecord)
    · rfl
    · unfold RepairStores.recordId
      rw [hrecords]

/-- A record that is created where there is none is there. -/
theorem write_create {record : ExecutionTrustRecord}
    (h : s.write (.runtime (.createTrustRecord record)) = .ok s')
    (hfresh : s.recordId record.businessTransactionId = none) :
    s'.recordId record.businessTransactionId = some record.trustRecordId :=
  storage.created (store_ok h).1 (Option.map_eq_none_iff.mp hfresh)

/-- Where an intent comes from that is stored after a call of the runtime. -/
theorem intentsAfter_origin {intents intents' : IntentRepository} {runtimeCall : RuntimeCall}
    {stored : StoredExecutionIntent} (h : intentsAfter intents runtimeCall = .ok intents')
    (hfind : intents'.findByTransactionId id = some stored) :
    intents.findByTransactionId id = some stored ∨
    (runtimeCall = .createIntent stored.intent ∧ stored.releasedContext = none) ∨
    ∃ before move, Stores.Moves runtimeCall id move ∧
      intents.findByTransactionId id = some before ∧ stored = move before := by
  unfold intentsAfter at h
  cases hstores : (⟨intents, [], []⟩ : Stores).write runtimeCall with
  | error failure =>
    rw [hstores] at h
    cases h
  | ok stores =>
    rw [hstores] at h
    rw [← Except.ok.inj h] at hfind
    by_cases hrelease : runtimeCall.isRelease = true
    · have hsame : stores = ⟨intents, [], []⟩ := by
        cases runtimeCall <;> first | exact (Except.ok.inj hstores).symm | cases hrelease
      rw [hsame] at hfind
      exact .inl hfind
    have hserves : (⟨intents, [], []⟩ : Stores).Serves ⟨runtimeCall, .error .typeError⟩ stores := by
      unfold Stores.Serves
      rw [if_neg hrelease]
      exact .inr hstores
    rcases hserves.origin hfind with hold | ⟨hcreate, -, hnone⟩ |
      ⟨before, move, hmove, hold, hmoved⟩
    · exact .inl hold
    · exact .inr (.inl ⟨hcreate, hnone⟩)
    · exact .inr (.inr ⟨before, move, hmove, hold, hmoved⟩)

/-- Where a stored intent comes from: it was there, it was created, or it was moved. -/
theorem Serves.origin {asked : RepairCall} {answer : Except Failure asked.Answer}
    {stored : StoredExecutionIntent} (h : s.Serves ⟨asked, answer⟩ s')
    (hfind : s'.intents.findByTransactionId id = some stored) :
    s.intents.findByTransactionId id = some stored ∨ stored.releasedContext = none ∨
      ∃ runtimeCall before move, asked = .runtime runtimeCall ∧ Stores.Moves runtimeCall id move ∧
        s.intents.findByTransactionId id = some before ∧ stored = move before := by
  rcases h.cases with ⟨-, hintents, -⟩ | rfl | hwrite
  · rw [hintents] at hfind
    exact .inl hfind
  · exact .inl hfind
  rcases write_cases hwrite with ⟨w, -, hintents, -⟩ | rfl | ⟨runtimeCall, rfl, -, hafter⟩
  · rw [hintents] at hfind
    exact .inl hfind
  · exact .inl hfind
  rcases intentsAfter_origin hafter hfind with hold | ⟨-, hnone⟩ |
    ⟨before, move, hmove, hold, hmoved⟩
  · exact .inl hold
  · exact .inr (.inl hnone)
  · exact .inr (.inr ⟨runtimeCall, before, move, rfl, hmove, hold, hmoved⟩)

/-- Where a stored intent is of: it was there, or the call created it. -/
theorem Serves.intended {asked : RepairCall} {answer : Except Failure asked.Answer}
    {stored : StoredExecutionIntent} (h : s.Serves ⟨asked, answer⟩ s')
    (hfind : s'.intents.findByTransactionId id = some stored) :
    (∃ before, s.intents.findByTransactionId id = some before) ∨
      asked = .runtime (.createIntent stored.intent) := by
  rcases h.cases with ⟨-, hintents, -⟩ | rfl | hwrite
  · rw [hintents] at hfind
    exact .inl ⟨stored, hfind⟩
  · exact .inl ⟨stored, hfind⟩
  rcases write_cases hwrite with ⟨w, -, hintents, -⟩ | rfl | ⟨runtimeCall, rfl, -, hafter⟩
  · rw [hintents] at hfind
    exact .inl ⟨stored, hfind⟩
  · exact .inl ⟨stored, hfind⟩
  rcases intentsAfter_origin hafter hfind with hold | ⟨hcreate, -⟩ | ⟨before, move, -, hold, -⟩
  · exact .inl ⟨stored, hold⟩
  · exact .inr (congrArg RepairCall.runtime hcreate)
  · exact .inl ⟨before, hold⟩

end Effects
/-! ## Obligations -/

/-- What a session owes about a transaction: its record is created where it has none, and
its intent keeps a context of its own that nothing was verified in. -/
def Allows (id : JsString) (s : RepairStores storage) : RepairCall → Prop
  | .runtime (.createTrustRecord record) =>
    record.businessTransactionId = id → s.recordId id = none
  | .runtime (.markReleased id' context _) => id' = id →
    context.businessTransactionId = id ∧ Unverified context
  | _ => True

/-- The calls are answered, and with `lossless` no move of an intent to `FINALIZED` is
lost. -/
def Answered (lossless : Bool) (s : RepairStores storage) (e : RepairEvent)
    (s' : RepairStores storage) : Prop :=
  s.Serves e s' ∧ (lossless = true → ¬ RepairCall.IsLost e)

/-- The same for the calls of the runtime. -/
def AnsweredRuntime (lossless : Bool) (s : RepairStores storage) (e : RuntimeEvent)
    (s' : RepairStores storage) : Prop :=
  s.Answered lossless ⟨.runtime e.1, e.2⟩ s'

/-- A saved context is of its transaction, and nothing was verified in it. -/
def Saved (s : RepairStores storage) (id : JsString) : Prop :=
  ∀ stored context, s.intents.findByTransactionId id = some stored →
    stored.releasedContext = some context →
      context.businessTransactionId = id ∧ Unverified context

section Obligations
variable {lossless : Bool} {id : JsString} {s s' : RepairStores storage} {α : Type}

theorem allows_of_quiet {asked : RepairCall} (h : isQuiet asked = true) : s.Allows id asked := by
  unfold Allows
  split
  · cases h
  · cases h
  · trivial

/-- A quiet call of a repair. -/
theorem quiet_ensures {asked : RepairCall} (h : isQuiet asked = true) :
    (RepairProgram.ask asked).Ensures (Answered lossless) (Allows id)
      (fun s' r => s' = s ∧ ∀ a, r = .ok a → s.Finds asked a) s :=
  ensures_perform.mpr ⟨allows_of_quiet h, fun _ _ hserves => hserves.1.quiet h⟩

theorem ensures_ofRuntime {p : RuntimeProgram α} {pre : RepairStores storage → RepairCall → Prop}
    {post : RepairStores storage → Except Failure α → Prop} :
    (ofRuntime p).Ensures (Answered lossless) pre post s ↔
      p.Ensures (AnsweredRuntime lossless) (fun s asked => pre s (.runtime asked)) post s := by
  have hsem : (fun (s : RepairStores storage) (e : RuntimeEvent) s' =>
      ∃ ans, Except.map (fun answer => answer) ans = e.2 ∧
        s.Answered lossless ⟨.runtime e.1, ans⟩ s') = AnsweredRuntime lossless := by
    funext s e s'
    refine propext ⟨?_, fun h => ⟨e.2, by cases e.2 <;> rfl, h⟩⟩
    rintro ⟨ans, hans, h⟩
    have hsame : ans = e.2 := by
      rw [← hans]
      cases ans <;> rfl
    rw [hsame] at h
    exact h
  rw [← hsem]
  exact ensures_relabel

/-- A part of the runtime that writes nothing. -/
theorem quietPart_ensures {p : RuntimeProgram α}
    (h : p.Only (fun asked => isQuiet (.runtime asked) = true)) :
    p.Ensures (AnsweredRuntime lossless) (fun s asked => s.Allows id (.runtime asked))
      (fun s' _ => s' = s) s :=
  h.ensures (P := (· = s)) (fun _ _ hquiet _ => allows_of_quiet hquiet)
    (fun _ _ _ hquiet hs hserves => ((Serves.quiet hserves.1 hquiet).1).trans hs) rfl

theorem quietCall_ensures {asked : RuntimeCall} (h : isQuiet (.runtime asked) = true) :
    (ask asked).Ensures (AnsweredRuntime lossless) (fun s asked => s.Allows id (.runtime asked))
      (fun s' r => s' = s ∧ ∀ a, r = .ok a → s.Finds (.runtime asked) a) s :=
  ensures_perform.mpr ⟨allows_of_quiet h, fun _ _ hserves => Serves.quiet hserves.1 h⟩

/-! ## The repair of the record -/

/-- A move that was answered is made. -/
theorem finalized_of_write {trustRecordId : JsString} {mode : FinalizationMode} {finalizedAt : Int}
    (h : s.write (.runtime (.markFinalized id trustRecordId mode finalizedAt)) = .ok s')
    (hintended : s.Intended id) : s'.Finalized id := by
  cases h
  obtain ⟨stored, hfind⟩ := Option.isSome_iff_exists.mp hintended
  refine ⟨stored.finalize trustRecordId mode finalizedAt, ?_, ?_⟩
  · show (s.intents.update id _).findByTransactionId id = _
    rw [(Stores.Moves.finalized id trustRecordId mode finalizedAt).find_update, if_pos rfl, hfind]
    rfl
  · unfold StoredExecutionIntent.finalize
    split
    · assumption
    · rfl

/-- Finalizing an intent leaves the records. -/
theorem markFinalized_ensures {trustRecordId : JsString} {mode : FinalizationMode} :
    (ExecutionIntentService.markFinalized id trustRecordId mode).Ensures
      (AnsweredRuntime lossless) (fun s asked => s.Allows id (.runtime asked))
      (fun s' _ => s'.trustRecords = s.trustRecords ∧
        (lossless = true → s.Intended id → s'.Finalized id)) s := by
  refine ensures_tryCatch.mpr (ensures_bind.mpr (ensures_perform.mpr ⟨trivial, ?_⟩))
  rintro (_ | finalizedAt) s₁ hnow
  · exact hnow.1.elim
  obtain ⟨rfl, -⟩ := Serves.quiet hnow.1 rfl
  refine ensures_perform.mpr ⟨trivial, ?_⟩
  rintro (failure | ⟨⟨⟩⟩) s₂ ⟨hserves, hlossless⟩
  · refine ⟨?_, fun h => absurd ⟨_, _, _, _, _, rfl⟩ (hlossless h)⟩
    rcases (show s₂ = s₁ ∨ s₁.write _ = .ok s₂ from hserves) with rfl | hwrite
    · rfl
    · cases hwrite
      rfl
  · obtain ⟨hwrite, -⟩ : s₁.write _ = .ok s₂ ∧ _ := hserves
    refine ⟨?_, fun _ hintended => finalized_of_write hwrite hintended⟩
    cases hwrite
    rfl

/-- What the record of a repair is: the stored one, or one that was just stored with no
verification. -/
def Found (s : RepairStores storage) (id : JsString) (record : ExecutionTrustRecord) : Prop :=
  s.find id = some record ∨ (s.find id).isSome ∧ record.verifications = []

theorem found_of_records {record : ExecutionTrustRecord} (h : s'.trustRecords = s.trustRecords)
    (hfound : s.Found id record) : s'.Found id record := by
  unfold Found find at hfound ⊢
  rwa [h]

/-- What the finalizer leaves when it returns a record. -/
def Finds? (lossless : Bool) (id : JsString) (s : RepairStores storage)
    (r : Except Failure (ExecutionIntentFinalizer.Outcome × ExecutionTrustRecord)) : Prop :=
  ∀ result, r = .ok result → s.Found id result.2 ∧ (lossless = true → s.Finalized id)

/-- The intent is finalized with a record that was found. -/
theorem settle_ensures {trustRecordId : JsString} {mode : FinalizationMode}
    {outcome : ExecutionIntentFinalizer.Outcome} {record : ExecutionTrustRecord}
    (hfound : s.Found id record) (hintended : s.Intended id) :
    (do
      ExecutionIntentService.markFinalized id trustRecordId mode
      return (outcome, record)).Ensures (AnsweredRuntime lossless)
      (fun s asked => s.Allows id (.runtime asked)) (Finds? lossless id) s := by
  refine ensures_bind.mpr (markFinalized_ensures.mono ?_)
  rintro s₁ (_ | ⟨⟨⟩⟩) ⟨hrecords, hfinalized⟩
  · rintro _ ⟨⟩
  · rintro result ⟨⟩
    exact ⟨found_of_records hrecords hfound, fun h => hfinalized h hintended⟩

/-- The rebuilt record of a context. -/
theorem trustPipeline_returns (context : RuntimeContext) :
    (BusinessTrustPipeline.execute context).Returns (fun record =>
      record.businessTransactionId = context.businessTransactionId ∧
        record.verifications = context.verification.toList) := by
  unfold BusinessTrustPipeline.execute
  split
  · exact returns_throw
  · exact Returns.bind fun _ => Returns.bind fun _ => Returns.bind fun _ =>
      returns_pure ⟨rfl, rfl⟩

theorem trustPipeline_ensures (context : RuntimeContext) :
    (BusinessTrustPipeline.execute context).Ensures (AnsweredRuntime lossless)
      (fun s asked => s.Allows id (.runtime asked)) (fun s' r => s' = s ∧ ∀ record,
        r = .ok record → record.businessTransactionId = context.businessTransactionId ∧
          record.verifications = context.verification.toList) s :=
  (quietPart_ensures ((plain_trustPipeline context).only.mono fun _ h =>
    quiet_of_preparing (RuntimeCall.isPreparing_of_ordinary h))).returns
      (trustPipeline_returns context)

/-- Storing failed: what is there now is the record. -/
theorem recoverRecord_ensures (failure : Failure) (hintended : s.Intended id) :
    (ExecutionIntentFinalizer.recoverRecord id failure).Ensures (AnsweredRuntime lossless)
      (fun s asked => s.Allows id (.runtime asked)) (Finds? lossless id) s := by
  refine ensures_bind.mpr ((quietCall_ensures rfl).mono ?_)
  rintro s₁ (_ | _ | raced) ⟨rfl, hfind⟩
  · rintro result ⟨⟩
  · rintro result ⟨⟩
  · exact settle_ensures (.inl (hfind _ rfl).symm) hintended

/-- A rebuilt record is stored where there was none. -/
theorem rebuild_ensures {context : RuntimeContext} (hid : context.businessTransactionId = id)
    (hcontext : Unverified context) (hfresh : s.find id = none) (hintended : s.Intended id) :
    (ExecutionIntentFinalizer.rebuild id context).Ensures (AnsweredRuntime lossless)
      (fun s asked => s.Allows id (.runtime asked)) (Finds? lossless id) s := by
  refine ensures_bind.mpr ((trustPipeline_ensures context).mono ?_)
  rintro s₁ (_ | trustRecord) ⟨rfl, hbuilt⟩
  · rintro result ⟨⟩
  obtain ⟨hrecord, hverifications⟩ := hbuilt trustRecord rfl
  have hsame : trustRecord.businessTransactionId = id := hrecord.trans hid
  refine ensures_bind.mpr (ensures_tryCatch.mpr (ensures_bind.mpr (ensures_perform.mpr
    ⟨fun _ => Option.map_eq_none_iff.mpr hfresh, ?_⟩)))
  rintro (failure | ⟨⟨⟩⟩) s₂ ⟨hserves, -⟩
  · have hintended₂ : s₂.Intended id := by
      rcases (show s₂ = s₁ ∨ s₁.write _ = .ok s₂ from hserves) with rfl | hwrite
      · exact hintended
      · unfold Intended
        rw [(store_ok hwrite).2]
        exact hintended
    refine ensures_bind.mpr ((recoverRecord_ensures failure hintended₂).mono ?_)
    rintro s₃ (_ | result) hraced
    · rintro result ⟨⟩
    · rintro _ ⟨⟩
      exact hraced result rfl
  · obtain ⟨hwrite, -⟩ : s₁.write _ = .ok s₂ ∧ _ := hserves
    have hstored := write_create hwrite (hsame ▸ Option.map_eq_none_iff.mpr hfresh)
    rw [hsame] at hstored
    refine settle_ensures (.inr ⟨?_, ?_⟩) ?_
    · obtain ⟨stored, hstored, -⟩ := Option.map_eq_some_iff.mp hstored
      exact Option.isSome_of_eq_some hstored
    · rw [hverifications, hcontext.1]
      rfl
    · unfold Intended
      rw [(store_ok hwrite).2]
      exact hintended

/-- **The finalizer returns the record that is stored**, or one it has just stored. -/
theorem finalize_ensures (hsaved : s.Saved id) :
    (ExecutionIntentFinalizer.finalize id).Ensures (AnsweredRuntime lossless)
      (fun s asked => s.Allows id (.runtime asked)) (Finds? lossless id) s := by
  refine ensures_bind.mpr ((quietCall_ensures rfl).mono ?_)
  rintro s₁ (_ | _ | stored) ⟨rfl, hintent⟩
  · rintro result ⟨⟩
  · rintro result ⟨⟩
  have hstored : s₁.intents.findByTransactionId id = some stored := (hintent _ rfl).symm
  have hintended : s₁.Intended id := Option.isSome_of_eq_some hstored
  refine ensures_bind.mpr ((quietCall_ensures rfl).mono ?_)
  rintro s₂ (_ | _ | existing) ⟨rfl, hfind⟩
  · rintro result ⟨⟩
  · cases hcontext : stored.releasedContext with
    | none =>
      rintro result ⟨⟩
    | some context =>
      obtain ⟨hid, hunverified⟩ := hsaved stored context hstored hcontext
      exact rebuild_ensures hid hunverified (hfind _ rfl).symm hintended
  · have hfound : s₂.Found id existing := .inl (hfind _ rfl).symm
    dsimp only
    unfold ExecutionIntentFinalizer.alreadyRecorded
    split
    · rename_i hstate
      rintro result ⟨⟩
      exact ⟨hfound, fun _ => ⟨stored, hstored, hstate⟩⟩
    · exact settle_ensures hfound hintended

end Obligations
end RepairStores
end Parmana

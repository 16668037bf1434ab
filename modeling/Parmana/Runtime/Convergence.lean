import Parmana.Runtime.PolicyChecks
import Parmana.Runtime.Repair

/-! # Repair converges

A run of the runtime stops at a write, and repairs follow it, one after another, each of
them stopped at a write or returning.  Three facts carry the result.

* `Held`: every record that was created where an answer said so is the one that is stored,
  and a saved context is one that nothing was verified in.  Every call that meets its
  obligation keeps this, whoever makes it.
* `execute_ensures`: the runtime meets the obligations.  It stores an intent before it
  releases anything, so an intent that could be stored says that there is no record yet.
* `finalizeIntent_ensures`: a repair meets them, and **a repair that returns leaves the
  intent finalized and the record verified and receipted** (`Settled`).

A move of an intent to `FINALIZED` is a write at which a repair is interrupted too, though
the service of intents logs the failure and goes on: a repair that has lost one is not one
that has completed.
-/
namespace Parmana
open Js Interaction Interaction.Program RuntimeProgram
open RepairProgram (ofRuntime)

namespace RepairStores
variable {storage : TrustRecordStorage}

section Completion
variable {lossless : Bool} {id : JsString} {s s' : RepairStores storage}
  {record : ExecutionTrustRecord}

/-! ## Completing the record -/

theorem find_finds {found : Option ExecutionTrustRecord}
    (h : s.Finds (.runtime (.findTrustRecord id)) found) : found = s.find id := h

/-- The record that is read again is the stored one. -/
theorem reload_ensures :
    (ExecutionTrustApplication.reloadTrustRecord id).Ensures (Answered lossless) (Allows id)
      (fun s' r => s' = s ∧ ∀ record, r = .ok record → s.find id = some record) s := by
  refine ensures_bind.mpr ((quiet_ensures rfl).mono ?_)
  rintro s₁ (_ | _ | found) ⟨rfl, hfind⟩
  · refine ⟨rfl, ?_⟩
    rintro record ⟨⟩
  · refine ⟨rfl, ?_⟩
    rintro record ⟨⟩
  · refine ⟨rfl, ?_⟩
    rintro record ⟨⟩
    exact (find_finds (hfind _ rfl)).symm

/-- What a verification leaves: the record has it. -/
theorem verify_ensures :
    (VerificationService.verify id).Ensures (Answered lossless) (Allows id)
      (fun s' r => ∀ verification, r = .ok verification → s'.intents = s.intents ∧
        ∀ record, s'.find id = some record → record.verifications ≠ []) s := by
  refine ensures_bind.mpr ((quiet_ensures rfl).mono ?_)
  rintro s₁ (_ | _ | found) ⟨rfl, -⟩
  · rintro verification ⟨⟩
  · rintro verification ⟨⟩
  refine ensures_bind.mpr ((quiet_ensures rfl).mono ?_)
  rintro s₂ (_ | failures) ⟨rfl, -⟩
  · rintro verification ⟨⟩
  refine ensures_bind.mpr ((quiet_ensures rfl).mono ?_)
  rintro s₃ (_ | verificationId) ⟨rfl, -⟩
  · rintro verification ⟨⟩
  refine ensures_bind.mpr ((quiet_ensures rfl).mono ?_)
  rintro s₄ (_ | verifiedAt) ⟨rfl, -⟩
  · rintro verification ⟨⟩
  refine ensures_bind.mpr (ensures_perform.mpr ⟨trivial, ?_⟩)
  rintro (_ | ⟨⟨⟩⟩) s₅ ⟨hserves, -⟩
  · rintro verification ⟨⟩
  obtain ⟨hwrite, -⟩ : s₄.store _ = .ok s₅ ∧ _ := hserves
  obtain ⟨hrecords, hintents⟩ := store_ok hwrite
  rintro verification ⟨⟩
  exact ⟨hintents, fun record hfind => storage.verified hrecords hfind⟩

/-- A record that is verified keeps its verifications when it gets a receipt. -/
theorem generate_ensures (hfind : s.find id = some record) :
    (ReceiptService.generate id).Ensures (Answered lossless) (Allows id)
      (fun s' r => ∀ receipt, r = .ok receipt → s'.intents = s.intents ∧
        ∀ after, s'.find id = some after →
          after.verifications = record.verifications ∧ after.receipts ≠ []) s := by
  refine ensures_bind.mpr ((quiet_ensures rfl).mono ?_)
  rintro s₁ (_ | _ | found) ⟨rfl, hfound⟩
  · rintro receipt ⟨⟩
  · rintro receipt ⟨⟩
  dsimp only
  split
  · rintro receipt ⟨⟩
  refine ensures_bind.mpr ((quiet_ensures rfl).mono ?_)
  rintro s₂ (_ | receiptHash) ⟨rfl, -⟩
  · rintro receipt ⟨⟩
  refine ensures_bind.mpr ((quiet_ensures rfl).mono ?_)
  rintro s₃ (_ | receiptId) ⟨rfl, -⟩
  · rintro receipt ⟨⟩
  refine ensures_bind.mpr ((quiet_ensures rfl).mono ?_)
  rintro s₄ (_ | issuedAt) ⟨rfl, -⟩
  · rintro receipt ⟨⟩
  refine ensures_bind.mpr ((quiet_ensures rfl).mono ?_)
  rintro s₅ (_ | receipt) ⟨rfl, -⟩
  · rintro receipt ⟨⟩
  refine ensures_bind.mpr (ensures_perform.mpr ⟨trivial, ?_⟩)
  rintro (_ | ⟨⟨⟩⟩) s₆ ⟨hserves, -⟩
  · rintro receipt ⟨⟩
  obtain ⟨hwrite, -⟩ : s₅.store _ = .ok s₆ ∧ _ := hserves
  obtain ⟨hrecords, hintents⟩ := store_ok hwrite
  rintro receipt ⟨⟩
  exact ⟨hintents, fun after hafter => storage.receipted hrecords hfind hafter⟩

/-- The stored record has a verification. -/
structure Verified (s : RepairStores storage) (id : JsString) (record : ExecutionTrustRecord) :
    Prop where
  found : s.find id = some record
  verified : record.verifications ≠ []

/-- **What a repair leaves**: the intent is finalized, and its record is stored, verified
and, when its last verification passed, receipted. -/
structure Settled (s : RepairStores storage) (id : JsString) (record : ExecutionTrustRecord) :
    Prop extends Verified s id record where
  finalized : s.Finalized id
  receipted : record.isVerified = true → record.receipts ≠ []

theorem completeVerification_ensures (hfound : s.Found id record) :
    (ExecutionTrustApplication.completeVerification id record).Ensures (Answered lossless)
      (Allows id) (fun s' r => ∀ verified, r = .ok verified →
        s'.intents = s.intents ∧ s'.Verified id verified) s := by
  unfold ExecutionTrustApplication.completeVerification
  split
  · refine ensures_bind.mpr (verify_ensures.mono ?_)
    rintro s₁ (_ | verification) hverified
    · rintro _ ⟨⟩
    obtain ⟨hintents, hnonempty⟩ := hverified verification rfl
    refine reload_ensures.mono ?_
    rintro s₂ r ⟨rfl, hfind⟩ reloaded hr
    exact ⟨hintents, hfind reloaded hr, hnonempty reloaded (hfind reloaded hr)⟩
  · rename_i hnonempty
    have hverified : record.verifications ≠ [] := fun h => hnonempty (List.isEmpty_iff.mpr h)
    rintro _ ⟨⟩
    rcases hfound with hfind | ⟨-, hnone⟩
    · exact ⟨rfl, hfind, hverified⟩
    · exact absurd hnone hverified

/-- The receipt is the last step. -/
theorem completeReceipt_ensures (h : s.Verified id record) :
    (ExecutionTrustApplication.completeReceipt id record).Ensures (Answered lossless)
      (Allows id) (fun s' r => ∀ receipted, r = .ok receipted → s'.intents = s.intents ∧
        s'.Verified id receipted ∧
          (receipted.isVerified = true → receipted.receipts ≠ [])) s := by
  unfold ExecutionTrustApplication.completeReceipt
  split
  · refine ensures_bind.mpr ((generate_ensures h.found).mono ?_)
    rintro s₁ (_ | receipt) hgenerated
    · rintro _ ⟨⟩
    obtain ⟨hintents, hafter⟩ := hgenerated receipt rfl
    refine reload_ensures.mono ?_
    rintro s₂ r ⟨rfl, hfind⟩ reloaded hr
    obtain ⟨hverifications, hreceipts⟩ := hafter reloaded (hfind reloaded hr)
    exact ⟨hintents, ⟨hfind reloaded hr, hverifications ▸ h.verified⟩, fun _ => hreceipts⟩
  · rename_i hdone
    rintro _ ⟨⟩
    refine ⟨rfl, h, fun hverified hreceipts => hdone ?_⟩
    rw [hreceipts, hverified]
    rfl

/-- **A repair that returns leaves everything in place.** -/
theorem finalizeIntent_ensures (lossless finalizer : Bool) (hsaved : s.Saved id) :
    (ExecutionTrustApplication.finalizeExecutionIntent finalizer id).Ensures (Answered lossless)
      (Allows id) (fun s' r => ∀ result, r = .ok result → lossless = true →
        s'.Settled id result.2) s := by
  unfold ExecutionTrustApplication.finalizeExecutionIntent
  split
  · rintro result ⟨⟩
  refine ensures_bind.mpr ((ensures_ofRuntime.mpr (finalize_ensures hsaved)).mono ?_)
  rintro s₁ (_ | ⟨outcome, record⟩) hfinalize
  · rintro result ⟨⟩
  obtain ⟨hfound, hfinalized⟩ := hfinalize _ rfl
  refine ensures_bind.mpr ((completeVerification_ensures hfound).mono ?_)
  rintro s₂ (_ | verified) hcomplete
  · rintro result ⟨⟩
  obtain ⟨hintents, hverified⟩ := hcomplete verified rfl
  refine ensures_bind.mpr ((completeReceipt_ensures hverified).mono ?_)
  rintro s₃ (_ | receipted) hcomplete₂
  · rintro result ⟨⟩
  obtain ⟨hintents₂, hverified₂, hreceipted⟩ := hcomplete₂ receipted rfl
  rintro result ⟨⟩ hlossless
  refine ⟨hverified₂, ?_, hreceipted⟩
  obtain ⟨stored, hstored⟩ := hfinalized hlossless
  exact ⟨stored, hintents₂ ▸ hintents ▸ hstored⟩

end Completion

/-! ## The run of the runtime -/

/-- What earlier runs leave of a transaction: where intents are stored, it has a record only
under its intent, and a saved context is its own and unverified. -/
structure Ready (config : RuntimeConfig) (s : RepairStores storage) (id : JsString) : Prop where
  recorded : (s.recordId id).isSome → config.executionIntents = true ∧ s.Intended id
  saved : s.Saved id

section Running
variable {lossless : Bool} {id : JsString} {s s' : RepairStores storage} {α : Type}
  {config : RuntimeConfig} {transaction : BusinessTransaction}

/-- A part of the runtime that owes nothing. -/
theorem free_ensures {p : RuntimeProgram α}
    (h : p.Only (fun asked => ∀ s : RepairStores storage, s.Allows id (.runtime asked))) :
    p.Ensures (AnsweredRuntime lossless) (fun s asked => s.Allows id (.runtime asked))
      (fun _ _ => True) s :=
  h.ensures (P := fun _ => True) (fun s _ hallows _ => hallows s) (fun _ _ _ _ _ _ => trivial)
    trivial

/-- A part of the runtime that creates no record. -/
theorem keeping_ensures {p : RuntimeProgram α}
    (h : p.Only (fun asked => (∀ s : RepairStores storage, s.Allows id (.runtime asked)) ∧
      ∀ record, asked ≠ .createTrustRecord record)) (hnone : s.recordId id = none) :
    p.Ensures (AnsweredRuntime lossless) (fun s asked => s.Allows id (.runtime asked))
      (fun s' _ => s'.recordId id = none) s := by
  refine h.ensures (P := fun s => s.recordId id = none) (fun s _ hS _ => hS.1 s) ?_ hnone
  rintro s e s' ⟨-, hcreate⟩ hs ⟨hserves, -⟩
  refine (Serves.recordId hserves fun record heq => ?_).trans hs
  exact absurd (RepairCall.runtime.inj heq) (hcreate record)

/-- The prepared context is of the transaction, and nothing is verified in it. -/
theorem prepareExecution_returns :
    (RuntimeEngine.prepareExecution config transaction).Returns (fun context =>
      context.businessTransactionId = transaction.businessTransactionId ∧
        Unverified context) := by
  unfold RuntimeEngine.prepareExecution
  refine Returns.bind fun _ => Returns.bind fun _ => Returns.bind fun _ => Returns.bind fun _ => ?_
  refine Returns.bind fun _ => Returns.bind fun _ => Returns.bind fun _ => Returns.bind fun _ => ?_
  exact Returns.bind fun _ => Returns.bind fun _ => returns_pure ⟨rfl, rfl, rfl⟩

/-- The built intent is of the transaction of its context. -/
theorem intentBuilder_returns (context : RuntimeContext) :
    (ExecutionIntentBuilder.build context).Returns (fun intent =>
      intent.businessTransactionId = context.businessTransactionId) := by
  unfold ExecutionIntentBuilder.build
  split
  · exact returns_throw
  · exact Returns.bind fun _ => Returns.bind fun _ => Returns.bind fun _ => returns_pure rfl

/-- An intent that is created was not there. -/
theorem createIntent_ok {intent : ExecutionIntent}
    (h : s.write (.runtime (.createIntent intent)) = .ok s') :
    ¬ s.Intended intent.businessTransactionId ∧ s'.trustRecords = s.trustRecords := by
  have hwrite : s.write (.runtime (.createIntent intent)) =
      (s.intents.create intent).map fun intents => { s with intents } := by
    show (intentsAfter s.intents (.createIntent intent)).map _ = _
    unfold intentsAfter Stores.write
    dsimp only
    cases s.intents.create intent <;> rfl
  rw [hwrite] at h
  obtain ⟨intents, hcreate, rfl⟩ := map_eq_ok.mp h
  refine ⟨fun hintended => ?_, rfl⟩
  rw [Intended, (IntentRepository.create_ok hcreate).1] at hintended
  cases hintended

/-- **An intent that could be stored says that there is no record yet.** -/
theorem prepare_ensures {context : RuntimeContext} (hid : context.businessTransactionId = id)
    (hready : Ready config s id) :
    (whenConfigured config.executionIntents () (ExecutionIntentService.prepare context)).Ensures
      (AnsweredRuntime lossless) (fun s asked => s.Allows id (.runtime asked))
      (fun s' r => r = .ok () → s'.recordId id = none) s := by
  unfold whenConfigured
  split
  · refine ensures_tryCatch.mpr (ensures_bind.mpr (((quietPart_ensures
      ((plain_intentBuilder context).only.mono fun _ h =>
        quiet_of_preparing (RuntimeCall.isPreparing_of_ordinary h))).returns
          (intentBuilder_returns context)).mono ?_))
    rintro s₁ (failure | intent) ⟨rfl, hbuilt⟩
    · exact logged_ensures fun _ => nofun
    have hintent : intent.businessTransactionId = id := (hbuilt intent rfl).trans hid
    refine ensures_perform.mpr ⟨trivial, ?_⟩
    rintro (failure | ⟨⟨⟩⟩) s₂ ⟨hserves, -⟩
    · exact logged_ensures fun _ => nofun
    rintro -
    obtain ⟨hwrite, -⟩ : s₁.write _ = .ok s₂ ∧ _ := hserves
    obtain ⟨hfresh, hrecords⟩ := createIntent_ok hwrite
    rw [hintent] at hfresh
    have hnone : s₁.recordId id = none := by
      by_contra hsome
      exact hfresh (hready.recorded (Option.isSome_iff_ne_none.mpr hsome)).2
    rw [← hnone]
    unfold RepairStores.recordId
    rw [hrecords]
  · rename_i hconfig
    rintro -
    by_contra hsome
    exact hconfig (hready.recorded (Option.isSome_iff_ne_none.mpr hsome)).1

/-- The pipeline is handed an unverified context, and hands one back. -/
theorem releaseAction_ensures {context : RuntimeContext} (hcontext : Unverified context)
    (hnone : s.recordId id = none) :
    (RuntimeEngine.releaseAction config context).Ensures (AnsweredRuntime lossless)
      (fun s asked => s.Allows id (.runtime asked)) (fun s' r => ∀ processed,
        r = .ok processed → s'.recordId id = none ∧ Unverified processed) s := by
  refine ensures_tryCatch.mpr (ensures_perform.mpr ⟨trivial, ?_⟩)
  rintro (failure | processed) s₁ ⟨hserves, -⟩
  · refine ensures_bind.mpr ((free_ensures (only_whenConfigured
      (only_markErrored fun _ _ => trivial))).mono ?_)
    rintro s₂ (_ | _) -
    · rintro processed ⟨⟩
    · refine made_ensures fun _ => ?_
      rintro processed ⟨⟩
  · obtain ⟨hcarries, hkeeps⟩ : s.Carries s₁ ∧ ∀ processed', _ → Unverified context →
      Unverified processed' := hserves
    rintro _ ⟨⟩
    exact ⟨(hcarries.recordId id).trans hnone, hkeeps processed rfl hcontext⟩

/-- A released action has no record when its record is built. -/
theorem release_ensures {context : RuntimeContext} (hid : context.businessTransactionId = id)
    (hcontext : Unverified context) (hready : Ready config s id) :
    (RuntimeEngine.release config context).Ensures (AnsweredRuntime lossless)
      (fun s asked => s.Allows id (.runtime asked))
      (fun s' r => ∀ result, r = .ok result → s'.recordId id = none) s := by
  unfold RuntimeEngine.release
  refine ensures_bind.mpr ((quietPart_ensures
    (only_whenConfigured (only_perform.mpr rfl))).mono ?_)
  rintro s₁ (_ | ⟨⟨⟩⟩) rfl
  · rintro result ⟨⟩
  refine ensures_bind.mpr ((prepare_ensures hid hready).mono ?_)
  rintro s₂ (_ | ⟨⟨⟩⟩) hnone
  · rintro result ⟨⟩
  refine ensures_bind.mpr ((releaseAction_ensures hcontext (hnone rfl)).mono ?_)
  rintro s₃ (_ | processed) hreleased
  · rintro result ⟨⟩
  obtain ⟨hnone₃, hprocessed⟩ := hreleased processed rfl
  have hmark : (ExecutionIntentService.markReleased processed).Only (fun asked =>
      (∀ s : RepairStores storage, s.Allows id (.runtime asked)) ∧
        ∀ record, asked ≠ .createTrustRecord record) := by
    refine only_markReleased ⟨fun _ => trivial, ?_⟩ fun releasedAt => ⟨fun _ hid => ?_, ?_⟩
    · rintro record ⟨⟩
    · exact ⟨hid, hprocessed⟩
    · rintro record ⟨⟩
  refine ensures_bind.mpr ((keeping_ensures (only_whenConfigured hmark) hnone₃).mono ?_)
  rintro s₄ (_ | ⟨⟨⟩⟩) hnone₄
  · rintro result ⟨⟩
  refine ensures_bind.mpr ((quietPart_ensures ((plain_recordExecution processed).preparing.mono
    fun _ h => quiet_of_preparing h)).mono ?_)
  rintro s₅ (_ | trustRecord) rfl
  · rintro result ⟨⟩
  · rintro result ⟨⟩
    exact hnone₄

theorem isQuiet_of {asked : RuntimeCall} (hrelease : asked.isRelease = false)
    (hbookkeeping : asked.isBookkeeping = false) (hsettling : asked.isSettling = false) :
    isQuiet (.runtime asked) = true := by
  show (!asked.isRelease && !asked.isBookkeeping && !asked.isSettling) = true
  rw [hrelease, hbookkeeping, hsettling]
  rfl

theorem engine_ensures (hready : Ready config s transaction.businessTransactionId) :
    (RuntimeEngine.execute config transaction).Ensures (AnsweredRuntime lossless)
      (fun s asked => s.Allows transaction.businessTransactionId (.runtime asked))
      (fun s' r => ∀ result, r = .ok result →
        s'.recordId transaction.businessTransactionId = none) s := by
  refine ensures_bind.mpr (((quietPart_ensures (only_prepareExecution.mono fun _ h =>
    isQuiet_of h.1 h.2.2.1 h.2.2.2)).returns prepareExecution_returns).mono ?_)
  rintro s₁ (_ | context) ⟨rfl, hcontext⟩
  · rintro result ⟨⟩
  obtain ⟨hid, hunverified⟩ := hcontext context rfl
  refine ensures_tryCatch.mpr ((release_ensures hid hunverified hready).mono ?_)
  rintro s₂ (failure | result) hnone
  · refine ensures_bind.mpr ((quietPart_ensures (only_hooks fun _ => rfl)).mono ?_)
    rintro s₃ (_ | ⟨⟨⟩⟩) -
    · rintro result ⟨⟩
    · rintro result ⟨⟩
  · exact hnone

theorem only_markFinalized {S : RuntimeCall → Prop} {trustRecordId : JsString}
    {mode : FinalizationMode} (hnow : S .now)
    (h : ∀ finalizedAt, S (.markFinalized id trustRecordId mode finalizedAt)) :
    (ExecutionIntentService.markFinalized id trustRecordId mode).Only S :=
  only_bestEffort (Only.bind (only_perform.mpr hnow)
    fun finalizedAt => only_perform.mpr (h finalizedAt))

/-- **The runtime meets its obligations**, however its calls are answered. -/
theorem execute_ensures {executionIntents : Bool}
    (hready : Ready config s transaction.businessTransactionId) :
    (Runtime.execute config executionIntents transaction).Ensures (AnsweredRuntime lossless)
      (fun s asked => s.Allows transaction.businessTransactionId (.runtime asked))
      (fun _ _ => True) s := by
  refine ensures_bind.mpr ((engine_ensures hready).mono ?_)
  rintro s₁ (_ | ⟨context, trustRecord⟩) hnone
  · trivial
  refine ensures_bind.mpr (ensures_tryCatch.mpr (ensures_perform.mpr
    ⟨fun _ => hnone _ rfl, ?_⟩))
  rintro (failure | ⟨⟨⟩⟩) s₂ -
  · exact logged_ensures fun _ => trivial
  · refine Ensures.mono (free_ensures ?_) fun _ _ _ => trivial
    exact Only.bind (only_whenConfigured (only_markFinalized (fun _ => trivial) fun _ _ => trivial))
      fun _ => only_done

end Running

/-! ## What holds after any calls -/

/-- A record that was created, and answered. -/
def Created (record : ExecutionTrustRecord) : RepairEvent :=
  ⟨.runtime (.createTrustRecord record), .ok ()⟩

/-- **What holds of a transaction after the calls in `log`.** -/
structure Held (id : JsString) (log : List RepairEvent) (s : RepairStores storage) : Prop where
  /-- A record that was created is the stored one. -/
  created : ∀ record, Created record ∈ log →
    record.businessTransactionId = id → s.recordId id = some record.trustRecordId
  saved : s.Saved id

section Holding
variable {lossless : Bool} {id : JsString} {s s' : RepairStores storage} {log : List RepairEvent}
  {e : RepairEvent}

/-- A context that a call saves is one that is owed. -/
theorem Saved.step (hsaved : s.Saved id) (hallows : s.Allows id e.1) (hserves : s.Serves e s') :
    s'.Saved id := by
  intro stored context hfind hcontext
  rcases hserves.origin hfind with hold | hnone | ⟨asked, before, move, hasked, hmove, hold, rfl⟩
  · exact hsaved stored context hold hcontext
  · rw [hnone] at hcontext
    cases hcontext
  rcases hmove.saved_cases hcontext with hbefore | ⟨releasedAt, rfl⟩
  · exact hsaved before context hold hbefore
  · rw [hasked] at hallows
    exact hallows rfl

/-- **One call keeps what holds.** -/
theorem Held.step (h : Held id log s) (hallows : s.Allows id e.1) (hserves : s.Serves e s') :
    Held id (log ++ [e]) s' := by
  refine ⟨fun record hmem hid => ?_, h.saved.step hallows hserves⟩
  rcases List.mem_append.mp hmem with hold | hnew
  · have hrecord := h.created record hold hid
    refine (hserves.recordId ?_).trans hrecord
    rintro record' heq hid'
    rw [heq] at hallows
    exact absurd (hrecord.symm.trans (hallows hid')) nofun
  · cases List.mem_singleton.mp hnew
    obtain ⟨hwrite, -⟩ : s.write _ = .ok s' ∧ _ := hserves
    subst hid
    exact write_create hwrite (hallows rfl)

end Holding

/-! ## A repair of what is settled -/

section Settling
variable {lossless finalizer : Bool} {id : JsString} {s s' : RepairStores storage}
  {record : ExecutionTrustRecord}

/-- Another repair of the transaction returns the record and changes nothing, and it can
return. -/
structure Fixed (s : RepairStores storage) (id : JsString) (record : ExecutionTrustRecord) :
    Prop where
  unchanged : ∀ t q s', Session (Answered false)
    (ExecutionTrustApplication.finalizeExecutionIntent true id) s t q s' →
      s' = s ∧ ∀ result, q = .done (.ok result) → result = (.alreadyFinalized, record)
  returns : ∃ t, Session (Answered true)
    (ExecutionTrustApplication.finalizeExecutionIntent true id) s t
      (.done (.ok (.alreadyFinalized, record))) s

theorem alreadyRecorded_finalized {stored : StoredExecutionIntent}
    (h : stored.status.state = .finalized) :
    ExecutionIntentFinalizer.alreadyRecorded id stored record =
      pure (.alreadyFinalized, record) := if_pos h

/-- What is complete is left alone. -/
theorem Settled.complete (h : s.Settled id record) :
    ExecutionTrustApplication.completeVerification id record = pure record ∧
      ExecutionTrustApplication.completeReceipt id record = pure record := by
  constructor
  · refine if_neg fun hempty => h.verified (List.isEmpty_iff.mp hempty)
  · refine if_neg fun hmissing => ?_
    rw [Bool.and_eq_true] at hmissing
    exact h.receipted hmissing.2 (List.isEmpty_iff.mp hmissing.1)

/-- A repair of what is settled reads the intent and the record. -/
theorem Settled.quiet (h : s.Settled id record) :
    (ExecutionTrustApplication.finalizeExecutionIntent true id).Ensures (Answered lossless)
      (fun _ asked => isQuiet asked = true) (fun _ r => ∀ result, r = .ok result →
        result = (.alreadyFinalized, record)) s := by
  obtain ⟨stored, hstored, hfinalized⟩ := h.finalized
  refine ensures_bind.mpr (ensures_ofRuntime.mpr (ensures_bind.mpr (ensures_perform.mpr
    ⟨rfl, ?_⟩)))
  rintro (_ | found) s₁ ⟨hintent, -⟩
  · rintro result ⟨⟩
  obtain ⟨rfl, hfound⟩ := Serves.quiet hintent rfl
  cases (hfound found rfl).trans hstored
  refine ensures_bind.mpr (ensures_perform.mpr ⟨rfl, ?_⟩)
  rintro (_ | existing) s₂ ⟨hrecord, -⟩
  · rintro result ⟨⟩
  obtain ⟨rfl, hexisting⟩ := Serves.quiet hrecord rfl
  cases (hexisting existing rfl).trans h.found
  dsimp only
  rw [alreadyRecorded_finalized hfinalized]
  obtain ⟨hverification, hreceipt⟩ := h.complete
  refine ensures_bind.mpr ?_
  rw [hverification]
  refine ensures_bind.mpr ?_
  rw [hreceipt]
  rintro result ⟨⟩
  rfl

/-- **A settled record is returned by every further repair, and nothing changes.** -/
theorem Settled.fixed (h : s.Settled id record) : s.Fixed id record := by
  constructor
  · intro t q s' hsession
    have hsame : s' = s := hsession.invariant (I := fun _ s' => s' = s) [] h.quiet rfl
      fun _ s₁ e s₂ hs hquiet hserves => ((Serves.quiet hserves.1 hquiet).1).trans hs
    refine ⟨hsame, ?_⟩
    rintro result rfl
    exact hsession.finished h.quiet result rfl
  · obtain ⟨stored, hstored, hfinalized⟩ := h.finalized
    obtain ⟨hverification, hreceipt⟩ := h.complete
    refine ⟨[⟨.runtime (.findIntent id), .ok (some stored)⟩,
      ⟨.runtime (.findTrustRecord id), .ok (some record)⟩], ?_, ?_⟩
    · have hend : (ofRuntime (ExecutionIntentFinalizer.alreadyRecorded id stored record) >>=
          fun result => do
            let trustRecord ← ExecutionTrustApplication.completeVerification id result.2
            let trustRecord ← ExecutionTrustApplication.completeReceipt id trustRecord
            return (result.1, trustRecord)) =
          .done (.ok (.alreadyFinalized, record)) := by
        rw [alreadyRecorded_finalized hfinalized]
        show (do
          let trustRecord ← ExecutionTrustApplication.completeVerification id record
          let trustRecord ← ExecutionTrustApplication.completeReceipt id trustRecord
          return (ExecutionIntentFinalizer.Outcome.alreadyFinalized, trustRecord)) = _
        rw [hverification]
        show (do
          let trustRecord ← ExecutionTrustApplication.completeReceipt id record
          return (ExecutionIntentFinalizer.Outcome.alreadyFinalized, trustRecord)) = _
        rw [hreceipt]
        rfl
      rw [← hend]
      exact .call (.call (.refl _))
    · refine .cons ⟨⟨rfl, hstored.symm⟩, fun _ => ?_⟩ (.cons ⟨⟨rfl, h.found.symm⟩, fun _ => ?_⟩
        (.nil _))
      · rintro ⟨_, _, _, _, _, hlost⟩
        cases hlost
      · rintro ⟨_, _, _, _, _, hlost⟩
        cases hlost

end Settling

/-- At most one record of the transaction is stored, and it is the one of every creation in
`log`. -/
def OneRecord (s : RepairStores storage) (id : JsString) (log : List RepairEvent) : Prop :=
  (∀ a ∈ (storage.records s.trustRecords).values, ∀ b ∈ (storage.records s.trustRecords).values,
    a.businessTransactionId = id → b.businessTransactionId = id → a = b) ∧
  ∀ record, Created record ∈ log →
    record.businessTransactionId = id → s.recordId id = some record.trustRecordId

end RepairStores

open RepairStores

/-- **Repair converges.**  After a run of the runtime that stops at any of its calls, and any
repairs one after another that stop or return, the transaction has at most one record; a
repair that returns leaves its intent finalized and the record verified and receipted; and
from then on every repair returns that record and changes nothing. -/
theorem ExecutionTrustApplication.repair_converges {storage : TrustRecordStorage}
    {config : RuntimeConfig} {executionIntents : Bool} {transaction : BusinessTransaction}
    {s₀ s₁ s : RepairStores storage} {log log' : List RepairEvent}
    {q : RepairProgram (RuntimeContext × ExecutionTrustRecord)}
    (hstart : Ready config s₀ transaction.businessTransactionId)
    (hrun : Session (RepairStores.Answered false)
      (ofRuntime (Runtime.execute config executionIntents transaction)) s₀ log q s₁)
    (hrepairs : Sessions (RepairStores.Answered false)
      (ExecutionTrustApplication.finalizeExecutionIntent true transaction.businessTransactionId)
      s₁ log' s) :
    s.OneRecord transaction.businessTransactionId (log ++ log') ∧
    ∀ t result s', Session (RepairStores.Answered true)
      (ExecutionTrustApplication.finalizeExecutionIntent true transaction.businessTransactionId)
      s t (.done (.ok result)) s' →
        s'.OneRecord transaction.businessTransactionId (log ++ log' ++ t) ∧
        s'.Settled transaction.businessTransactionId result.2 ∧
        s'.Fixed transaction.businessTransactionId result.2 := by
  have hone : ∀ {log} {s : RepairStores storage},
      Held transaction.businessTransactionId log s →
        s.OneRecord transaction.businessTransactionId log :=
    fun hheld => ⟨fun a ha b hb ha' hb' => Table.eq_of_key ha hb (ha'.trans hb'.symm),
      hheld.created⟩
  have hstep : ∀ {lossless} (log : List RepairEvent) (s : RepairStores storage) e s',
      Held transaction.businessTransactionId log s →
        s.Allows transaction.businessTransactionId e.1 → s.Answered lossless e s' →
          Held transaction.businessTransactionId (log ++ [e]) s' :=
    fun _ _ _ _ hheld hallows hserves => hheld.step hallows hserves.1
  have hstart' : Held transaction.businessTransactionId [] s₀ :=
    ⟨fun _ hmem => absurd hmem List.not_mem_nil, hstart.saved⟩
  have hran : Held transaction.businessTransactionId log s₁ :=
    hrun.invariant _ (ensures_ofRuntime.mpr (execute_ensures hstart)) hstart' hstep
  have hheld : Held transaction.businessTransactionId (log ++ log') s :=
    hrepairs.invariant _ (fun _ _ hheld => finalizeIntent_ensures false true hheld.saved) hran hstep
  refine ⟨hone hheld, fun t result s' hsession => ?_⟩
  have hrepair := finalizeIntent_ensures true true hheld.saved
  have hsettled := hsession.finished hrepair result rfl rfl
  exact ⟨hone (hsession.invariant _ hrepair hheld hstep), hsettled, hsettled.fixed⟩

/-! ## A run that stops after its action was released -/

namespace Sample.Restart

/-- The sample collaborators and services over the repositories. -/
def complete (s : RepairStores MemoryTrustRecords.storage) :
    (call : RepairCall) → Except Failure call.Answer
  | .runtime (.findIntent id) => .ok (s.intents.findByTransactionId id)
  | .runtime (.findTrustRecord id) => .ok (s.find id)
  | .runtime asked => answer asked
  | .randomUUID .verification => .ok "verification-1"
  | .randomUUID .receipt => .ok "receipt-1"
  | .runChecks _ => .ok []
  | .hashReceipt _ => .ok "hash"
  | .createReceipt payload => .ok { payload with algorithm := "Ed25519", signature := "signature" }
  | .appendVerification .. | .appendReceipt .. => .ok ()

/-- A call answered, every write in effect. -/
def carry (call : RepairCall) (s : RepairStores MemoryTrustRecords.storage) :
    Except Failure call.Answer × RepairStores MemoryTrustRecords.storage :=
  match s.write call with
  | .ok s' => (complete s call, s')
  | .error failure => (.error failure, s)

theorem complete_ok (s : RepairStores MemoryTrustRecords.storage) (call : RepairCall) :
    ∃ answer, complete s call = .ok answer ∧ s.Finds call answer := by
  cases call with
  | runtime asked => cases asked <;> exact ⟨_, rfl, by first | rfl | trivial⟩
  | randomUUID artifact => cases artifact <;> exact ⟨_, rfl, trivial⟩
  | _ => exact ⟨_, rfl, trivial⟩

theorem carry_answered {lossless : Bool} (call : RepairCall)
    (s : RepairStores MemoryTrustRecords.storage) :
    s.Answered lossless ⟨call, (carry call s).1⟩ (carry call s).2 := by
  obtain ⟨answer, hanswer, hfinds⟩ := complete_ok s call
  rcases hwrite : s.write call with failure | s'
  · have hcarry : carry call s = (.error failure, s) := by
      unfold carry
      rw [hwrite]
    rw [hcarry]
    refine ⟨?_, fun _ => ?_⟩
    · unfold Serves
      split
      · rename_i heq
        cases heq
        cases hwrite
      · rename_i heq
        cases heq
        cases hwrite
      · rename_i heq
        cases heq
      · exact .inl rfl
    · rintro ⟨_, _, _, _, _, ⟨⟩⟩
      cases hwrite
  · have hcarry : carry call s = (.ok answer, s') := by
      unfold carry
      rw [hwrite, ← hanswer]
    rw [hcarry]
    refine ⟨?_, fun _ => ?_⟩
    · unfold Serves
      split
      · rename_i heq
        cases heq
        cases hwrite
        cases hanswer
        refine ⟨⟨rfl, .refl⟩, ?_⟩
        rintro processed ⟨⟩
        exact fun h => h
      · rename_i heq
        cases heq
      · rename_i heq
        cases heq
        exact ⟨hwrite, hfinds⟩
      · rename_i heq
        cases heq
    · rintro ⟨_, _, _, _, _, ⟨⟩⟩

/-- Nothing is stored. -/
def nothing : RepairStores MemoryTrustRecords.storage where
  intents := []
  trustRecords := .empty

/-- The request, stopped once its intent is marked released. -/
def released := (ofRuntime (Runtime.execute config true transaction)).halted carry 29 nothing

/-- A repair, stopped after so many calls. -/
def repaired (calls : Nat) (s : RepairStores MemoryTrustRecords.storage) :=
  (ExecutionTrustApplication.finalizeExecutionIntent true
    transaction.businessTransactionId).halted carry calls s

theorem session_carry {α : Type} (lossless : Bool) (calls : Nat) (p : RepairProgram α)
    (s : RepairStores MemoryTrustRecords.storage) :
    Session (RepairStores.Answered lossless) p s (p.halted carry calls s).1
      (p.halted carry calls s).2.1 (p.halted carry calls s).2.2 :=
  session_halted carry carry_answered calls p s

/-- The value a program has returned. -/
def resultOf {α : Type} : RepairProgram α → Option α
  | .done (.ok a) => some a
  | _ => none

theorem of_resultOf {α : Type} {p : RepairProgram α} {a : α} (h : resultOf p = some a) :
    p = .done (.ok a) := by
  unfold resultOf at h
  split at h
  · cases h
    rfl
  · cases h

end Sample.Restart

open Sample in
/-- The sample request stops at its release and its repair at the receipt; the next repair
leaves a record that is verified and receipted. -/
theorem repair_converges_sample :
    ∃ (result : ExecutionIntentFinalizer.Outcome × ExecutionTrustRecord)
      (s' : RepairStores MemoryTrustRecords.storage),
      s'.Settled Sample.transaction.businessTransactionId result.2 ∧
      s'.Fixed Sample.transaction.businessTransactionId result.2 ∧
      result.2.isVerified = true := by
  have hstart : Ready Sample.config Restart.nothing Sample.transaction.businessTransactionId :=
    ⟨fun h => (nomatch h), fun _ _ h => (nomatch h)⟩
  have hrun := Restart.session_carry false 29
    (ofRuntime (Runtime.execute Sample.config true Sample.transaction)) Restart.nothing
  have hrepair := Restart.session_carry false 13
    (ExecutionTrustApplication.finalizeExecutionIntent true
      Sample.transaction.businessTransactionId) Restart.released.2.2
  have hcomplete := Restart.session_carry true 30
    (ExecutionTrustApplication.finalizeExecutionIntent true
      Sample.transaction.businessTransactionId) (Restart.repaired 13 Restart.released.2.2).2.2
  have hreturned : ((Restart.resultOf (Restart.repaired 30
      (Restart.repaired 13 Restart.released.2.2).2.2).2.1).map (·.2.isVerified)) = some true := by
    decide
  obtain ⟨result, hresult, hverified⟩ := Option.map_eq_some_iff.mp hreturned
  rw [show ((ExecutionTrustApplication.finalizeExecutionIntent true
      Sample.transaction.businessTransactionId).halted Restart.carry 30
        (Restart.repaired 13 Restart.released.2.2).2.2).2.1 = .done (.ok result) from
      Restart.of_resultOf hresult] at hcomplete
  obtain ⟨-, hsettled, hfixed⟩ := (ExecutionTrustApplication.repair_converges hstart hrun
    (.next (.nil _) hrepair)).2 _ result _ hcomplete
  exact ⟨result, _, hsettled, hfixed, hverified⟩

end Parmana

import Parmana.Runtime.Worklist

/-! # One record for each transaction

A record is created in two places: the runtime creates the one of its own run, and the
finalizer one that it rebuilt from a saved context.  The finalizer looks for a record
before it builds one, and looks again when the store refuses; the runtime does not
look.  The in-memory store refuses nothing, so a record that is created late takes the
place of the first.

What is left is a condition on each creation: no record of the transaction is stored
(`Stores.Fresh`).  Under it a stored record is never replaced, and every thread can
count on the one it has seen.
-/
namespace Parmana
open Js Interaction Interaction.Program RuntimeProgram

/-- The record a call creates. -/
def RuntimeCall.record : RuntimeCall → Option ExecutionTrustRecord
  | .createTrustRecord record => some record
  | _ => none

namespace Stores

/-- The identifier of the record a transaction has. -/
def recordId (s : Stores) (id : JsString) : Option JsString :=
  (s.trustRecords.findByTransactionId id).map (·.trustRecordId)

/-- The in-memory stores answer a call.  What the pipeline writes amends the executions of
a stored record, which stays the record it is. -/
def ServesInMemory (s : Stores) (e : RuntimeEvent) (s' : Stores) : Prop :=
  s.Serves e s' ∧ (e.1.isRelease → ∀ id, s'.recordId id = s.recordId id)

/-- A record is created where none is stored. -/
def Fresh (s : Stores) (call : RuntimeCall) : Prop :=
  ∀ record ∈ call.record, s.recordId record.businessTransactionId = none

instance decidableFresh (s : Stores) (call : RuntimeCall) : Decidable (s.Fresh call) :=
  inferInstanceAs (Decidable (∀ record ∈ call.record,
    s.recordId record.businessTransactionId = none))

/-- Every stored record stays the one of its transaction. -/
def Keeps (s s' : Stores) : Prop :=
  ∀ id trustRecordId, s.recordId id = some trustRecordId → s'.recordId id = some trustRecordId

/-- What a thread owes at a call: a context is saved under its own transaction, and an
intent is finalized with the record that is stored. -/
def Agrees (s : Stores) : RuntimeCall → Prop
  | .markReleased id context _ => context.businessTransactionId = id
  | .markFinalized id trustRecordId _ _ => s.recordId id = some trustRecordId
  | _ => True

/-- **What holds of the records and of the intents that name them.** -/
structure Single {ι : Type} (log : List (ι × RuntimeEvent)) (s : Stores) : Prop where
  /-- A record that was created is the one its transaction has. -/
  created : ∀ x ∈ log, ∀ record, x.2 = ⟨.createTrustRecord record, .ok ()⟩ →
    s.recordId record.businessTransactionId = some record.trustRecordId
  /-- A finalized intent names the record of its transaction. -/
  finalized : ∀ id stored, s.intents.findByTransactionId id = some stored →
    stored.status.state = .finalized →
      ∃ trustRecordId, s.recordId id = some trustRecordId ∧
        stored.status.trustRecordId = some trustRecordId
  /-- A saved context is of the transaction it is saved under. -/
  saved : ∀ id stored context, s.intents.findByTransactionId id = some stored →
    stored.releasedContext = some context → context.businessTransactionId = id

/-! ## What a call keeps -/

section Effects
variable {s s' : Stores} {e : RuntimeEvent} {call : RuntimeCall} {id : JsString}
  {move : StoredExecutionIntent → StoredExecutionIntent} {stored : StoredExecutionIntent}

theorem keeps_refl (s : Stores) : s.Keeps s := fun _ _ h => h

theorem keeps_trans {s₁ s₂ s₃ : Stores} (h : s₁.Keeps s₂) (h' : s₂.Keeps s₃) : s₁.Keeps s₃ :=
  fun id trustRecordId hid => h' id trustRecordId (h id trustRecordId hid)

/-- What a thread may do it still may when the others have moved. -/
theorem Agrees.keeps (h : s.Keeps s') (hagrees : s.Agrees call) : s'.Agrees call := by
  unfold Agrees at hagrees ⊢
  split at hagrees
  · exact hagrees
  · exact h _ _ hagrees
  · trivial

/-- The records are the same, or one was created. -/
theorem ServesInMemory.records (h : s.ServesInMemory e s') :
    (∀ id, s'.recordId id = s.recordId id) ∨
      ∃ record, e.1 = .createTrustRecord record ∧
        s'.trustRecords = s.trustRecords.create record := by
  rcases h.1.cases with ⟨hrelease, -⟩ | rfl | ⟨draft, sealing, -, rfl⟩ |
    ⟨intent, intents, -, -, rfl⟩ | ⟨id, move, -, rfl⟩ | ⟨record, hcall, rfl⟩
  · exact .inl (h.2 hrelease)
  · exact .inl fun _ => rfl
  · exact .inl fun _ => rfl
  · exact .inl fun _ => rfl
  · exact .inl fun _ => rfl
  · exact .inr ⟨record, hcall, rfl⟩

theorem recordId_create {record : ExecutionTrustRecord}
    (h : s'.trustRecords = s.trustRecords.create record) (id : JsString) :
    s'.recordId id = if id = record.businessTransactionId then some record.trustRecordId
      else s.recordId id := by
  rw [recordId, h, TrustRecordRepository.findByTransactionId_create]
  split <;> rfl

/-- A creation that meets no record replaces none. -/
theorem ServesInMemory.keeps (h : s.ServesInMemory e s') (hfresh : s.Fresh e.1) : s.Keeps s' := by
  intro id trustRecordId hrecord
  rcases h.records with hsame | ⟨created, hcall, hcreate⟩
  · rwa [hsame]
  · rw [recordId_create hcreate]
    by_cases hid : id = created.businessTransactionId
    · have hnone := hfresh created (by rw [hcall]; rfl)
      rw [← hid, hrecord] at hnone
      cases hnone
    · rwa [if_neg hid]

/-- A record whose creation was answered is there. -/
theorem ServesInMemory.created {record : ExecutionTrustRecord}
    (h : s.ServesInMemory ⟨.createTrustRecord record, .ok ()⟩ s') :
    s'.recordId record.businessTransactionId = some record.trustRecordId := by
  obtain ⟨hwrite, -⟩ : s.write (.createTrustRecord record) = .ok s' ∧ True := h.1
  cases hwrite
  rw [recordId_create rfl, if_pos rfl]

/-- A move makes an intent finalized under the name its call gives, or finds it
finalized and leaves it. -/
theorem Moves.finalized_name (h : Moves call id move)
    (hstate : (move stored).status.state = .finalized) : move stored = stored ∨
      ∃ trustRecordId mode finalizedAt, call = .markFinalized id trustRecordId mode finalizedAt ∧
        (move stored).status.trustRecordId = some trustRecordId := by
  by_cases hbefore : stored.status.state = .finalized
  · left
    cases h with
    | released => exact if_pos (by rw [hbefore]; decide)
    | errored => exact if_pos (by rw [hbefore]; decide)
    | finalized => exact if_pos hbefore
    | resolved => exact if_neg (by rw [StoredExecutionIntent.isResolvable, hbefore]; decide)
  · obtain ⟨trustRecordId, mode, finalizedAt, rfl⟩ :=
      (h.finalized_cases hstate).resolve_left hbefore
    cases h with
    | finalized =>
      refine .inr ⟨trustRecordId, mode, finalizedAt, rfl, ?_⟩
      rw [StoredExecutionIntent.finalize, if_neg hbefore]

section Step
variable {ι : Type} {log : List (ι × RuntimeEvent)}

/-- **A call that agrees with the records keeps them single.** -/
theorem Single.step (hs : Single log s) (i : ι) (hagrees : s.Agrees e.1)
    (h : s.ServesInMemory e s') (hfresh : s.Fresh e.1) : Single (log ++ [(i, e)]) s' := by
  have hkeeps := h.keeps hfresh
  refine ⟨?_, ?_, ?_⟩
  · intro x hx record hcreate
    rcases List.mem_append.mp hx with hx | hx
    · exact hkeeps _ _ (hs.created x hx record hcreate)
    · rw [List.mem_singleton.mp hx] at hcreate
      cases hcreate
      exact h.created
  · intro id stored hfind hstate
    have hkept : ∀ {before : StoredExecutionIntent},
        s.intents.findByTransactionId id = some before → before.status.state = .finalized →
          ∃ trustRecordId, s'.recordId id = some trustRecordId ∧
            before.status.trustRecordId = some trustRecordId := by
      intro before hbefore hfinalized
      obtain ⟨trustRecordId, hrecord, hname⟩ := hs.finalized id before hbefore hfinalized
      exact ⟨trustRecordId, hkeeps id _ hrecord, hname⟩
    rcases h.1.origin hfind with hold | ⟨-, hprepared, -⟩ | ⟨before, move, hmove, hold, rfl⟩
    · exact hkept hold hstate
    · rw [hprepared] at hstate
      cases hstate
    · rcases hmove.finalized_name hstate with hsame | ⟨_, _, _, hcall, hname⟩
      · rw [hsame] at hstate ⊢
        exact hkept hold hstate
      · rw [hcall] at hagrees
        exact ⟨_, hkeeps id _ hagrees, hname⟩
  · intro id stored context hfind hsaved
    rcases h.1.origin hfind with hold | ⟨-, -, hnone⟩ | ⟨before, move, hmove, hold, rfl⟩
    · exact hs.saved id stored context hold hsaved
    · rw [hnone] at hsaved
      cases hsaved
    · rcases hmove.saved_cases hsaved with hbefore | ⟨releasedAt, hcall⟩
      · exact hs.saved id before context hold hbefore
      · rw [hcall] at hagrees
        exact hagrees

theorem single_empty : Single (ι := ι) [] empty := by
  refine ⟨fun _ hx => absurd hx List.not_mem_nil, ?_, ?_⟩
  · rintro id stored ⟨⟩
  · rintro id stored context ⟨⟩

end Step
end Effects

/-! ## The obligations of each thread -/

/-- What a thread can be answered while the others keep the records. -/
abbrev KeptAnswers (ι : Type) : Stores → RuntimeEvent → Stores → Prop :=
  Under Keeps (fun s e s' => (∃ log : List (ι × RuntimeEvent), Single log s) ∧
    s.ServesInMemory e s' ∧ s.Fresh e.1)

section Threads
variable {ι : Type} {s : Stores} {α : Type} {id : JsString}

theorem keptAnswers_keeps {e : RuntimeEvent} {s' : Stores} (h : KeptAnswers ι s e s') :
    s.Keeps s' := by
  obtain ⟨s₁, hkeeps, -, hserves, hfresh⟩ := h
  exact keeps_trans hkeeps (hserves.keeps hfresh)

theorem agrees_of_free {call : RuntimeCall} (h : call.isBookkeeping = false) : s.Agrees call := by
  unfold Agrees
  split
  · exact absurd h (nomatch ·)
  · exact absurd h (nomatch ·)
  · trivial

/-- A part that owes nothing keeps what the thread has seen. -/
theorem agreeing_ensures {p : RuntimeProgram α} (h : p.Only (fun call => ∀ s, Agrees s call)) :
    p.Ensures (KeptAnswers ι) Agrees (fun s' _ => s.Keeps s') s :=
  h.ensures (P := fun s' => s.Keeps s') (fun s' _ hagrees _ => hagrees s')
    (fun _ _ _ _ hs hanswer => keeps_trans hs (keptAnswers_keeps hanswer)) (keeps_refl s)

/-- A record that was created is there. -/
theorem create_ensures (record : ExecutionTrustRecord) :
    (ask (.createTrustRecord record)).Ensures (KeptAnswers ι) Agrees
      (fun s' r => r = .ok () →
        s'.recordId record.businessTransactionId = some record.trustRecordId) s := by
  refine ensures_perform.mpr ⟨trivial, ?_⟩
  rintro ans s₂ ⟨s', -, -, hserves, -⟩ rfl
  exact hserves.created

/-- A record that was found is there. -/
theorem find_ensures (id : JsString) :
    (ask (.findTrustRecord id)).Ensures (KeptAnswers ι) Agrees
      (fun s' r => ∀ record, r = .ok (some record) →
        s'.recordId id = some record.trustRecordId) s := by
  refine ensures_perform.mpr ⟨trivial, ?_⟩
  rintro ans s₂ ⟨s', -, -, ⟨hserves, -⟩, -⟩ record rfl
  obtain ⟨hwrite, hfind⟩ : s'.write (.findTrustRecord id) = .ok s₂ ∧
    some record = s'.trustRecords.findByTransactionId id := hserves
  cases hwrite
  rw [recordId, ← hfind]
  rfl

/-- The context that is found with an intent is of its transaction. -/
theorem findSaved_ensures (id : JsString) :
    (ask (.findIntent id)).Ensures (KeptAnswers ι) Agrees (fun _ r => ∀ stored context,
      r = .ok (some stored) → stored.releasedContext = some context →
        context.businessTransactionId = id) s := by
  refine ensures_perform.mpr ⟨trivial, ?_⟩
  rintro ans s₂ ⟨s', -, ⟨log, hsingle⟩, ⟨hserves, -⟩, -⟩ stored context rfl hsaved
  obtain ⟨-, hfind⟩ : s'.write (.findIntent id) = .ok s₂ ∧
    some stored = s'.intents.findByTransactionId id := hserves
  exact hsingle.saved id stored context hfind.symm hsaved

/-- Finalizing with the stored record leaves it stored. -/
theorem finalizeWith_ensures {trustRecordId : JsString} {mode : FinalizationMode}
    (h : s.recordId id = some trustRecordId) :
    (ExecutionIntentService.markFinalized id trustRecordId mode).Ensures
      (KeptAnswers ι) Agrees (fun s' _ => s'.recordId id = some trustRecordId) s := by
  refine ensures_tryCatch.mpr (ensures_bind.mpr (ensures_perform.mpr ⟨trivial, ?_⟩))
  rintro (_ | finalizedAt) s₁ hanswer
  · exact keptAnswers_keeps hanswer id _ h
  have h₁ := keptAnswers_keeps hanswer id _ h
  refine ensures_perform.mpr ⟨h₁, ?_⟩
  rintro (_ | ⟨⟨⟩⟩) s₂ hanswer₂
  · exact keptAnswers_keeps hanswer₂ id _ h₁
  · exact keptAnswers_keeps hanswer₂ id _ h₁

/-- The runtime returns the record it has stored. -/
theorem finishing_ensures {executionIntents : Bool} {context : RuntimeContext}
    {trustRecord : ExecutionTrustRecord} :
    (Runtime.finish executionIntents context trustRecord).Ensures (KeptAnswers ι) Agrees
      (fun s' r => ∀ result, r = .ok result →
        s'.recordId result.2.businessTransactionId = some result.2.trustRecordId) s := by
  refine ensures_bind.mpr (ensures_tryCatch.mpr ((create_ensures trustRecord).mono ?_))
  rintro s₁ (failure | ⟨⟨⟩⟩) hrecord
  · refine logged_ensures fun _ => ?_
    rintro _ ⟨⟩
  have hfinalize : (whenConfigured executionIntents () (ExecutionIntentService.markFinalized
      trustRecord.businessTransactionId trustRecord.trustRecordId .inline)).Ensures
      (KeptAnswers ι) Agrees (fun s' _ =>
        s'.recordId trustRecord.businessTransactionId = some trustRecord.trustRecordId) s₁ := by
    unfold whenConfigured
    split
    · exact finalizeWith_ensures (hrecord rfl)
    · exact hrecord rfl
  refine ensures_bind.mpr (hfinalize.mono ?_)
  rintro s₂ (_ | ⟨⟨⟩⟩) hstored
  · rintro _ ⟨⟩
  · rintro result ⟨⟩
    exact hstored

/-- The runtime saves a context under its own transaction. -/
theorem engine_agrees {config : RuntimeConfig} {transaction : BusinessTransaction} :
    (RuntimeEngine.execute config transaction).Only (fun call => ∀ s, Agrees s call) :=
  only_engine (fun _ _ h _ => agrees_of_free h) (fun _ _ => trivial) (fun _ _ => trivial)
    (fun _ _ _ => rfl)

/-- **`Runtime.execute` returns the stored record.** -/
theorem executing_ensures (config : RuntimeConfig) (executionIntents : Bool)
    (transaction : BusinessTransaction) :
    (Runtime.execute config executionIntents transaction).Ensures (KeptAnswers ι) Agrees
      (fun s' r => ∀ result, r = .ok result →
        s'.recordId result.2.businessTransactionId = some result.2.trustRecordId) s := by
  refine ensures_bind.mpr ((agreeing_ensures engine_agrees).mono ?_)
  rintro s₁ (_ | ⟨context, trustRecord⟩) -
  · rintro _ ⟨⟩
  · exact finishing_ensures

/-- A record that another thread stored is the one that is returned. -/
theorem recovering_ensures (error : Failure) :
    (ExecutionIntentFinalizer.recoverRecord id error).Ensures (KeptAnswers ι) Agrees
      (fun s' r => ∀ result, r = .ok result → s'.recordId id = some result.2.trustRecordId) s := by
  refine ensures_bind.mpr ((find_ensures id).mono ?_)
  rintro s₁ (_ | _ | raced) hfound
  · rintro _ ⟨⟩
  · rintro _ ⟨⟩
  refine ensures_bind.mpr ((finalizeWith_ensures (hfound raced rfl)).mono ?_)
  rintro s₂ (_ | ⟨⟨⟩⟩) hstored
  · rintro _ ⟨⟩
  · rintro result ⟨⟩
    exact hstored

/-- A rebuilt record is stored before it is returned. -/
theorem rebuilding_ensures {context : RuntimeContext} (hid : context.businessTransactionId = id) :
    (ExecutionIntentFinalizer.rebuild id context).Ensures (KeptAnswers ι) Agrees
      (fun s' r => ∀ result, r = .ok result → s'.recordId id = some result.2.trustRecordId) s := by
  refine ensures_bind.mpr ((trustPipeline_record (fun s call h => agrees_of_free
    (RuntimeCall.not_bookkeeping_of_preparing (RuntimeCall.isPreparing_of_ordinary h))) s).mono ?_)
  rintro s₁ (_ | trustRecord) hbuilt
  · rintro _ ⟨⟩
  have hrecordId : trustRecord.businessTransactionId = id := (hbuilt trustRecord rfl).trans hid
  refine ensures_bind.mpr (ensures_tryCatch.mpr (ensures_bind.mpr
    ((create_ensures trustRecord).mono ?_)))
  rintro s₂ (failure | ⟨⟨⟩⟩) hrecord
  · refine ensures_bind.mpr ((recovering_ensures failure).mono ?_)
    rintro s₃ (_ | result) hraced
    · rintro _ ⟨⟩
    · rintro _ ⟨⟩
      exact hraced result rfl
  · rw [hrecordId] at hrecord
    refine ensures_bind.mpr ((finalizeWith_ensures (hrecord rfl)).mono ?_)
    rintro s₃ (_ | ⟨⟨⟩⟩) hstored
    · rintro _ ⟨⟩
    · rintro result ⟨⟩
      exact hstored

/-- **`finalize` returns the stored record.** -/
theorem finalizing_ensures (id : JsString) :
    (ExecutionIntentFinalizer.finalize id).Ensures (KeptAnswers ι) Agrees
      (fun s' r => ∀ result, r = .ok result → s'.recordId id = some result.2.trustRecordId) s := by
  refine ensures_bind.mpr ((findSaved_ensures id).mono ?_)
  rintro s₁ (_ | _ | stored) hsaved
  · rintro _ ⟨⟩
  · rintro _ ⟨⟩
  refine ensures_bind.mpr ((find_ensures id).mono ?_)
  rintro s₂ (_ | _ | existing) hfound
  · rintro _ ⟨⟩
  · rcases hcontext : stored.releasedContext with _ | context
    · rintro _ ⟨⟩
    · exact rebuilding_ensures (hsaved stored context rfl hcontext)
  · dsimp only
    unfold ExecutionIntentFinalizer.alreadyRecorded
    split
    · rintro result ⟨⟩
      exact hfound existing rfl
    · refine ensures_bind.mpr ((finalizeWith_ensures (hfound existing rfl)).mono ?_)
      rintro s₃ (_ | ⟨⟨⟩⟩) hstored
      · rintro _ ⟨⟩
      · rintro result ⟨⟩
        exact hstored

/-- A resolution by hand owes nothing. -/
theorem resolve_agrees (id : JsString) (input : ExecutionIntentService.ResolveInput) :
    (ExecutionIntentService.resolve id input).Only (fun call => ∀ s, Agrees s call) :=
  (free_resolve id input).mono fun _ h _ => agrees_of_free h.2

end Threads
end Stores

/-! ## Any number of runs -/

namespace Operation

/-- The record of a result is the one its transaction has. -/
def Answered (s : Stores) : (operation : Operation) → operation.Result → Prop
  | .execute .., result =>
    s.recordId result.2.businessTransactionId = some result.2.trustRecordId
  | .finalize id, result => s.recordId id = some result.2.trustRecordId
  | .resolve .., _ => True

theorem Answered.keeps {s s' : Stores} (h : s.Keeps s') {operation : Operation}
    {result : operation.Result} (hanswered : Answered s operation result) :
    Answered s' operation result := by
  cases operation with
  | execute => exact h _ _ hanswered
  | finalize => exact h _ _ hanswered
  | resolve => trivial

/-- **Each operation answers with the stored record.** -/
theorem answers_ensures {ι : Type} {s : Stores} (operation : Operation) :
    operation.program.Ensures (Stores.KeptAnswers ι) Stores.Agrees
      (fun s' r => ∀ result, r = .ok result → Answered s' operation result) s := by
  cases operation with
  | execute config executionIntents transaction =>
    exact Stores.executing_ensures config executionIntents transaction
  | finalize id => exact Stores.finalizing_ensures id
  | resolve id input =>
    exact (Stores.agreeing_ensures (Stores.resolve_agrees id input)).mono
      (fun _ _ _ _ _ => trivial)

variable {ι : Type} [DecidableEq ι] {operations : ι → Operation}

/-- The operations over the stores. -/
abbrev Running (operations : ι → Operation) :=
  Pool RuntimeCall RuntimeCall.Answer Failure (fun i => (operations i).Result) Stores

/-- **At most one record of a transaction**: every record that was created or returned
is the one stored, and so is the one that a finalized intent names. -/
structure OneRecord (log : List (ι × RuntimeEvent)) (Q : Running operations) : Prop where
  created : ∀ x ∈ log, ∀ record, x.2 = ⟨.createTrustRecord record, .ok ()⟩ →
    Q.state.recordId record.businessTransactionId = some record.trustRecordId
  returned : ∀ i result, Q.threads i = .done (.ok result) →
    Answered Q.state (operations i) result
  finalized : ∀ id stored, Q.state.intents.findByTransactionId id = some stored →
    stored.status.state = .finalized →
      ∃ trustRecordId, Q.state.recordId id = some trustRecordId ∧
        stored.status.trustRecordId = some trustRecordId

/-- In every state reached the records are single, and each thread answers with them. -/
theorem reached_single {log : List (ι × RuntimeEvent)} {Q : Running operations}
    (h : Exec (fun s e s' => s.ServesInMemory e s' ∧ s.Fresh e.1) (pool operations) log Q) :
    Stores.Single log Q.state ∧ ∀ i, (Q.threads i).Ensures (Stores.KeptAnswers ι) Stores.Agrees
      (fun s r => ∀ result, r = .ok result → Answered s (operations i) result) Q.state :=
  h.ensures Stores.keeps_refl (fun _ _ _ => Stores.keeps_trans) (fun _ _ _ => Stores.Agrees.keeps)
    (fun _ _ _ _ hkeeps hanswered result hr => (hanswered result hr).keeps hkeeps)
    (fun _ _ i _ _ hs hagrees hserves =>
      ⟨hserves.1.keeps hserves.2, hs.step i hagrees hserves.1 hserves.2⟩)
    Stores.single_empty (fun i => answers_ensures (operations i))

theorem reached_oneRecord {log : List (ι × RuntimeEvent)} {Q : Running operations}
    (h : Exec (fun s e s' => s.ServesInMemory e s' ∧ s.Fresh e.1) (pool operations) log Q) :
    OneRecord log Q := by
  obtain ⟨hsingle, hthreads⟩ := reached_single h
  refine ⟨hsingle.created, fun i result hdone => ?_, hsingle.finalized⟩
  have hpost := hthreads i
  rw [hdone] at hpost
  exact hpost result rfl

/-- A run keeps the records it starts with. -/
theorem run_keeps {P Q : Running operations} {log : List (ι × RuntimeEvent)}
    (h : Exec (fun s e s' => s.ServesInMemory e s' ∧ s.Fresh e.1) P log Q) :
    P.state.Keeps Q.state :=
  h.events_induction (I := fun _ s => P.state.Keeps s) (Stores.keeps_refl _)
    (fun _ _ _ _ _ hkeeps hserves => Stores.keeps_trans hkeeps (hserves.1.keeps hserves.2))

end Operation

/-- **One record for each transaction, where every record is created fresh.**  In every
state that any number of executions, finalizations and resolutions by hand reach over
the in-memory stores, interleaved at their calls: every record that was created or
returned is the one its transaction has, a finalized intent names it, and it is never
replaced later in the run. -/
theorem Operation.one_record {ι : Type} [DecidableEq ι] (operations : ι → Operation)
    (log log' : List (ι × RuntimeEvent)) (Q Q' : Operation.Running operations)
    (h : ExecWhere Stores.ServesInMemory (fun _ s _ e => s.Fresh e.1)
      (Operation.pool operations) log Q)
    (h' : ExecWhere Stores.ServesInMemory (fun _ s _ e => s.Fresh e.1) Q log' Q') :
    Operation.OneRecord (log ++ log') Q' ∧ Q.state.Keeps Q'.state :=
  ⟨Operation.reached_oneRecord (h.within.append h'.within), Operation.run_keeps h'.within⟩

/-! ## A record that is replaced -/

namespace Sample

/-- What the stores read, with a new identifier for each record. -/
def renewed (s : Stores) : (call : RuntimeCall) → call.Answer → call.Answer
  | .randomUUID .trustRecord, _ => if s.trustRecords.isEmpty then "record-1" else "record-2"
  | other, answer => stored s other answer

/-- The sample collaborators over the in-memory stores. -/
def keep (call : RuntimeCall) (s : Stores) : Except Failure call.Answer × Stores :=
  match answer call with
  | .error failure => (.error failure, s)
  | .ok answer =>
    match (s.signs call (renewed s call answer)).write call with
    | .ok s' => (.ok (renewed s call answer), s')
    | .error failure => (.error failure, s)

/-- A request, and the repair of its record. -/
def repair (finalizes : Bool) : Operation :=
  if finalizes then .finalize "tx-1" else .execute config true transaction

theorem renewed_finds (s : Stores) (call : RuntimeCall) (answer : call.Answer) :
    s.Finds call (renewed s call answer) := by
  unfold renewed
  split
  · trivial
  · exact stored_finds s _ answer

theorem keep_serves (call : RuntimeCall) (s : Stores) :
    s.ServesInMemory ⟨call, (keep call s).1⟩ (keep call s).2 := by
  unfold keep Stores.ServesInMemory Stores.Serves
  by_cases hrelease : call.isRelease = true
  · unfold RuntimeCall.isRelease at hrelease
    split at hrelease
    · exact ⟨⟨rfl, rfl, fun _ => Iff.rfl⟩, fun _ _ => rfl⟩
    · cases hrelease
  · refine ⟨?_, fun h => absurd h hrelease⟩
    rw [if_neg hrelease]
    rcases answer call with failure | answer
    · exact .inl rfl
    rcases hwrite : (s.signs call (renewed s call answer)).write call with failure | s'
    · simp only [hwrite]
      exact .inl trivial
    · simp only [hwrite]
      exact ⟨trivial, renewed_finds s call answer⟩

theorem handled_serves {s s' : Stores} {e : RuntimeEvent} (h : Handled keep s e s') :
    s.ServesInMemory e s' := by
  have hserves := keep_serves e.1 s
  rw [h] at hserves
  exact hserves

/-- The pool after a schedule of the request and its repair. -/
def repaired (schedule : List Bool) : Operation.Running repair :=
  (Operation.pool repair).play keep schedule

theorem repaired_run (schedule : List Bool) :
    Exec Stores.ServesInMemory (Operation.pool repair)
      ((Operation.pool repair).script keep schedule) (repaired schedule) :=
  (Exec.play keep schedule (Pool.meets_true ..)).mono fun _ _ _ h => handled_serves h.1

theorem fresh_run {P : Operation.Running repair} (schedule : List Bool)
    (h : P.MeetsWhere keep (fun _ s _ e => s.Fresh e.1) [] schedule) :
    ExecWhere Stores.ServesInMemory (fun _ s _ e => s.Fresh e.1) P (P.script keep schedule)
      (P.play keep schedule) :=
  (ExecWhere.play keep schedule h).mono (fun _ _ _ _ _ _ => handled_serves)
    (fun _ _ _ _ => id)

/-- The repair runs between the marking of the request as released and its record. -/
def raced : List Bool :=
  List.replicate 28 false ++ List.replicate 10 true ++ List.replicate 10 false

/-- The record that a finished program returned. -/
def returnedRecord {α : Type} : RuntimeProgram (α × ExecutionTrustRecord) →
    Option ExecutionTrustRecord
  | .done (.ok result) => some result.2
  | _ => none

theorem returned_of {α : Type} {p : RuntimeProgram (α × ExecutionTrustRecord)}
    {id : JsString} (h : (returnedRecord p).map (·.trustRecordId) = some id) :
    ∃ result, p = .done (.ok result) ∧ result.2.trustRecordId = id := by
  unfold returnedRecord at h
  split at h
  · exact ⟨_, rfl, Option.some.inj h⟩
  · cases h

end Sample

/-- The request creates its record after the repair has stored one: both are returned,
and the intent names the one that is gone. -/
theorem record_replaced : ∃ log Q,
    Exec Stores.ServesInMemory (Operation.pool Sample.repair) log Q ∧
    (∃ requested : RuntimeContext × ExecutionTrustRecord,
      Q.threads false = .done (.ok requested) ∧ requested.2.trustRecordId = "record-2") ∧
    (∃ repaired : ExecutionIntentFinalizer.Outcome × ExecutionTrustRecord,
      Q.threads true = .done (.ok repaired) ∧ repaired.2.trustRecordId = "record-1") ∧
    Q.state.recordId "tx-1" = some ("record-2" : JsString) ∧
    (Q.state.intents.findByTransactionId "tx-1").map
        (fun stored => (stored.status.state, stored.status.trustRecordId)) =
      some (.finalized, some ("record-1" : JsString)) := by
  have hraced : (Sample.returnedRecord ((Sample.repaired Sample.raced).threads false)).map
        (·.trustRecordId) = some ("record-2" : JsString) ∧
      (Sample.returnedRecord ((Sample.repaired Sample.raced).threads true)).map
        (·.trustRecordId) = some ("record-1" : JsString) ∧
      (Sample.repaired Sample.raced).state.recordId "tx-1" =
        some ("record-2" : JsString) ∧
      ((Sample.repaired Sample.raced).state.intents.findByTransactionId "tx-1").map
          (fun stored => (stored.status.state, stored.status.trustRecordId)) =
        some (.finalized, some ("record-1" : JsString)) := by
    decide
  exact ⟨_, _, Sample.repaired_run Sample.raced, Sample.returned_of hraced.1,
    Sample.returned_of hraced.2.1, hraced.2.2⟩

/-- The sample request has one record, which its repair finds. -/
theorem repaired_once : ∃ log, ∃ Q Q' : Operation.Running Sample.repair,
    (Operation.OneRecord log Q' ∧ Q.state.Keeps Q'.state) ∧
      Q.state.recordId "tx-1" = some ("record-1" : JsString) := by
  have hfirst : (Operation.pool Sample.repair).MeetsWhere Sample.keep (fun _ s _ e => s.Fresh e.1)
        [] (List.replicate 37 false) ∧
      (Sample.repaired (List.replicate 37 false)).state.recordId "tx-1" =
        some ("record-1" : JsString) := by
    decide
  exact ⟨_, _, _, Operation.one_record Sample.repair _ _ _ _ (Sample.fresh_run _ hfirst.1)
    (Sample.fresh_run (List.replicate 3 true) (by decide)), hfirst.2⟩

end Parmana

import Parmana.Interaction.Sessions
import Parmana.Runtime.PolicyChecks

/-! # What a run stores is of its transaction

A run stores a refusal, an intent and a trust record.  The first two are built from the
transaction the run was started with; the record is built from the context that the pipeline
gave back, which is the context the action was released with, with the execution in it.  So
all three are stored under the identifier of the run's own transaction, and the record keeps
the metadata of that transaction, as long as the pipeline gives back what it was given
(`traced_ofTransaction`).
-/
namespace Parmana
open Js Policy Interaction Interaction.Program RuntimeProgram

/-- A context of the transaction a run was started with. -/
def RuntimeContext.Of (context : RuntimeContext) (transaction : BusinessTransaction) : Prop :=
  context.transaction.metadata = transaction.metadata ∧
    context.transaction.businessTransactionId = transaction.businessTransactionId

/-- What the pipeline gave back for a context of the transaction. -/
def Processed (transaction : BusinessTransaction) (t : List RuntimeEvent)
    (processed : RuntimeContext) : Prop :=
  ∃ context : RuntimeContext, context.Of transaction ∧
    (⟨.executePipeline context, .ok processed⟩ : RuntimeEvent) ∈ t

/-- A record of a context: its transaction, and its identifier. -/
def ExecutionTrustRecord.Of (record : ExecutionTrustRecord) (context : RuntimeContext) : Prop :=
  record.transaction = context.transaction ∧
    record.businessTransactionId = context.businessTransactionId

/-- What a run owes when it writes something: it is of the transaction, or of the context the
pipeline gave back, or of the record that was stored. -/
def OfTransaction (transaction : BusinessTransaction) (t : List RuntimeEvent) :
    RuntimeCall → Prop
  | .createRefusalRecord record => record.businessTransactionId = transaction.businessTransactionId
  | .createIntent intent => intent.businessTransactionId = transaction.businessTransactionId
  | .markErrored id _ => id = transaction.businessTransactionId
  | .markReleased id processed _ =>
    Processed transaction t processed ∧ id = processed.businessTransactionId
  | .createTrustRecord record => ∃ processed, Processed transaction t processed ∧ record.Of processed
  | .markFinalized id trustRecordId _ _ => ∃ record,
    (⟨.createTrustRecord record, .ok ()⟩ : RuntimeEvent) ∈ t ∧
      id = record.businessTransactionId ∧ trustRecordId = record.trustRecordId
  | _ => True

section Run
variable {config : RuntimeConfig} {transaction : BusinessTransaction} {context : RuntimeContext}
  {t : List RuntimeEvent} {α : Type}

theorem ofTransaction_of_preparing {call : RuntimeCall} (h : call.isPreparing) :
    OfTransaction transaction t call := by
  cases call with
  | createRefusalRecord record => cases h
  | createIntent intent => cases h
  | createTrustRecord record => cases h
  | markErrored id reason => cases h
  | markReleased id processed releasedAt => cases h
  | markFinalized id trustRecordId mode finalizedAt => cases h
  | _ => trivial

theorem Preparing.traced_ofTransaction {p : RuntimeProgram α} (h : Preparing p) :
    Traced (OfTransaction transaction) p (fun _ _ => True) t :=
  h.traced fun _ _ hcall => ofTransaction_of_preparing hcall

theorem traced_unless {configured : Bool} {p : RuntimeProgram Unit}
    (h : Traced (OfTransaction transaction) p (fun _ _ => True) t) :
    Traced (OfTransaction transaction) (whenConfigured configured () p) (fun _ _ => True) t := by
  unfold whenConfigured
  split
  · exact h
  · exact Traced.pure trivial

/-! ## A refusal -/

theorem returns_refusalRecord {decision : Decision}
    {violations : List SignalIntentBindingViolation} :
    (RefusalRecordBuilder.build transaction decision violations).Returns fun record =>
      record.businessTransactionId = transaction.businessTransactionId :=
  Returns.bind fun _ => Returns.bind fun _ => returns_pure rfl

theorem traced_recordRefusal {decision : Decision} {policy : Json} {findings : PolicyFindings} :
    Traced (OfTransaction transaction)
      (RuntimeEngine.recordRefusal config transaction decision policy findings)
      (fun _ _ => True) t := by
  unfold RuntimeEngine.recordRefusal
  split
  · exact Traced.pure trivial
  refine Traced.bind (R := fun _ _ => True) (traced_unless (Traced.tryCatch (Traced.bind
    (Traced.returns (R := fun _ _ => True) ?_ returns_refusalRecord) ?_)
    fun _ _ => Traced.done fun _ _ => trivial)) fun _ _ _ => ?_
  · exact Traced.bind_perform trivial fun _ => Traced.bind_perform trivial fun _ =>
      Traced.pure trivial
  · rintro record t' ⟨-, hid⟩
    exact Traced.perform hid fun _ => trivial
  · refine traced_unless (traced_unless (Traced.tryCatch (Traced.bind_done fun found _ => ?_)
      fun _ _ => Traced.done fun _ _ => trivial))
    cases found with
    | none => exact Traced.pure trivial
    | some approvals => exact Traced.perform trivial fun _ => trivial

/-! ## Before the release -/

theorem traced_prepareExecution :
    Traced (OfTransaction transaction) (RuntimeEngine.prepareExecution config transaction)
      (fun context _ => context.Of transaction) t := by
  refine Traced.bind preparing_loadPolicy.traced_ofTransaction ?_
  rintro ⟨policy, policyContentHash⟩ t₁ -
  refine Traced.bind preparing_resolveAnchor.traced_ofTransaction fun anchor t₂ _ => ?_
  refine Traced.bind preparing_checkPolicy.traced_ofTransaction fun findings t₃ _ => ?_
  refine Traced.bind preparing_decide.traced_ofTransaction fun policyDecision t₄ _ => ?_
  refine Traced.bind preparing_decisionBuilder.traced_ofTransaction fun decision t₅ _ => ?_
  refine Traced.bind traced_recordRefusal fun _ t₆ _ => ?_
  refine Traced.bind preparing_authorize.traced_ofTransaction fun authorization t₇ _ => ?_
  refine Traced.bind (plain_executionBuilder decision).preparing.traced_ofTransaction
    fun execution t₈ _ => ?_
  refine Traced.bind (preparing_hooks fun _ => rfl).traced_ofTransaction fun _ t₉ _ => ?_
  exact Traced.bind (preparing_hooks fun _ => rfl).traced_ofTransaction fun _ t₁₀ _ =>
    Traced.pure ⟨rfl, rfl⟩

/-! ## The release -/

theorem returns_intent : (ExecutionIntentBuilder.build context).Returns fun intent =>
    intent.businessTransactionId = context.businessTransactionId := by
  unfold ExecutionIntentBuilder.build
  split
  · exact returns_throw
  · exact Returns.bind fun _ => Returns.bind fun _ => Returns.bind fun _ => returns_pure rfl

theorem returns_trustPipeline :
    (BusinessTrustPipeline.execute context).Returns fun record => record.Of context := by
  unfold BusinessTrustPipeline.execute
  split
  · exact returns_throw
  · exact Returns.bind fun _ => Returns.bind fun _ => Returns.bind fun _ => returns_pure ⟨rfl, rfl⟩

theorem returns_recordExecution :
    (RuntimeEngine.recordExecution config context).Returns fun record => record.Of context := by
  refine Returns.tryCatch (Returns.bind fun _ => Returns.bind fun _ => ?_) fun _ =>
    Returns.bind fun _ => returns_throw
  exact Returns.bind_of returns_trustPipeline fun _ hof => Returns.bind fun _ => returns_pure hof

/-- What the pipeline gave back is recorded. -/
theorem traced_release (hof : context.Of transaction) :
    Traced (OfTransaction transaction) (RuntimeEngine.release config context)
      (fun result t => Processed transaction t result.1 ∧ result.2.Of result.1) t := by
  refine Traced.bind (traced_unless (Traced.perform trivial fun _ => trivial)) fun _ t₁ _ => ?_
  refine Traced.bind (R := fun _ _ => True) (traced_unless (Traced.tryCatch (Traced.bind
    ((plain_intentBuilder context).preparing.traced_ofTransaction.returns returns_intent) ?_)
    fun _ _ => Traced.bind_done fun _ _ => Traced.throw)) fun _ t₂ _ => ?_
  · rintro intent t' ⟨-, hid⟩
    exact Traced.perform (hid.trans hof.2) fun _ => trivial
  refine Traced.bind (R := fun processed t' => Processed transaction t' processed) ?_
    fun processed t₃ ht₃ => ?_
  · refine Traced.tryCatch (Traced.perform trivial fun processed => ?_) fun failure t' => ?_
    · exact ⟨context, hof, List.mem_append_right _ (List.mem_singleton_self _)⟩
    · exact Traced.bind (R := fun _ _ => True) (traced_unless (Traced.tryCatch
        (Traced.bind_done fun reason _ => Traced.perform hof.2 fun _ => trivial)
        fun _ _ => Traced.done fun _ _ => trivial))
        fun _ _ _ => Traced.bind_done fun _ _ => Traced.throw
  obtain ⟨released, hreleased, hmem⟩ := ht₃
  have hmark : Traced (OfTransaction transaction) (whenConfigured config.executionIntents ()
      (ExecutionIntentService.markReleased processed)) (fun _ _ => True) t₃ := by
    refine traced_unless (Traced.tryCatch (Traced.bind_perform trivial fun releasedAt => ?_)
      fun _ _ => Traced.done fun _ _ => trivial)
    exact Traced.perform ⟨⟨released, hreleased, List.mem_append_left _ hmem⟩, rfl⟩ fun _ => trivial
  refine Traced.bind (hmark.mem hmem) fun _ t₄ ht₄ => ?_
  have hrecord : Traced (OfTransaction transaction)
      (RuntimeEngine.recordExecution config processed) (fun _ _ => True) t₄ :=
    (plain_recordExecution processed).preparing.traced_ofTransaction
  refine Traced.bind ((hrecord.mem ht₄.2).returns returns_recordExecution) ?_
  rintro record t₅ ⟨⟨-, ht₅⟩, hrecordOf⟩
  exact Traced.pure ⟨⟨released, hreleased, ht₅⟩, hrecordOf⟩

/-- **A run writes what is of its transaction**, and its record is of what the pipeline gave
back. -/
theorem traced_ofTransaction {executionIntents : Bool} :
    Traced (OfTransaction transaction) (Runtime.execute config executionIntents transaction)
      (fun _ _ => True) t := by
  refine Traced.bind (R := fun result t => Processed transaction t result.1 ∧ result.2.Of result.1)
    (Traced.bind traced_prepareExecution fun context t₁ hof => ?_) ?_
  · exact Traced.tryCatch (traced_release hof) fun failure t' => Traced.bind (R := fun _ _ => True)
      ((only_hooks (S := fun call => ∀ t, OfTransaction transaction t call)
        fun _ _ => trivial).traced fun t call h => h t) fun _ _ _ => Traced.throw
  · rintro ⟨context, record⟩ t₁ ⟨hprocessed, hof⟩
    refine Traced.bind (R := fun _ t' =>
      (⟨.createTrustRecord record, .ok ()⟩ : RuntimeEvent) ∈ t') (Traced.tryCatch
      (Traced.perform ⟨context, hprocessed, hof⟩ fun _ => ?_)
      fun _ _ => Traced.bind_done fun _ _ => Traced.throw)
      fun _ t₂ hstored => ?_
    · exact List.mem_append_right _ (List.mem_singleton_self _)
    refine Traced.bind (R := fun _ _ => True) (traced_unless (Traced.tryCatch
      (Traced.bind_perform trivial fun finalizedAt => ?_)
      fun _ _ => Traced.done fun _ _ => trivial))
      fun _ _ _ => Traced.pure trivial
    exact Traced.perform ⟨record, List.mem_append_left _ hstored, rfl, rfl⟩ fun _ => trivial

end Run

/-! ## Whose transaction a run writes -/

/-- A call that writes nothing of another transaction. -/
def OwnWrite (transaction : BusinessTransaction) : RuntimeCall → Prop
  | .createRefusalRecord record => record.businessTransactionId = transaction.businessTransactionId
  | .createIntent intent => intent.businessTransactionId = transaction.businessTransactionId
  | .markReleased id context _ =>
    id = transaction.businessTransactionId ∧ context.Of transaction
  | .markErrored id _ | .markFinalized id .. => id = transaction.businessTransactionId
  | .createTrustRecord record =>
    record.businessTransactionId = transaction.businessTransactionId ∧
      record.transaction.metadata = transaction.metadata
  | _ => True

/-- The pipeline gives back the transaction it was given. -/
def GivesBack (t : List RuntimeEvent) : Prop :=
  ∀ context processed, (⟨.executePipeline context, .ok processed⟩ : RuntimeEvent) ∈ t →
    processed.transaction = context.transaction

theorem Processed.of {transaction : BusinessTransaction} {t : List RuntimeEvent}
    {processed : RuntimeContext} (h : Processed transaction t processed) (hgives : GivesBack t) :
    processed.Of transaction := by
  obtain ⟨context, hof, hmem⟩ := h
  unfold RuntimeContext.Of
  rw [hgives context processed hmem]
  exact hof

/-- **A run writes under its own transaction only**, wherever it stops and whatever its calls
are answered: refusals, intents and their moves, and the record, which keeps the metadata the
transaction was submitted with. -/
theorem Runtime.writes_its_own {config : RuntimeConfig} {executionIntents : Bool}
    {transaction : BusinessTransaction} {t : List RuntimeEvent}
    {q : RuntimeProgram (RuntimeContext × ExecutionTrustRecord)}
    (h : Steps (Runtime.execute config executionIntents transaction) t q) (hgives : GivesBack t) :
    ∀ e ∈ t, OwnWrite transaction e.1 := by
  -- what an event owes it owes of the events before it, which are among all of them
  have howes : ∀ e ∈ t, ∃ t₁, t₁ ⊆ t ∧ OfTransaction transaction t₁ e.1 := by
    intro e he
    obtain ⟨t₁, t₂, rfl, hpre⟩ := pre_of_mem traced_ofTransaction h he
    exact ⟨t₁, List.subset_append_left _ _, hpre⟩
  have hrecorded : ∀ record answer, (⟨.createTrustRecord record, answer⟩ : RuntimeEvent) ∈ t →
      record.businessTransactionId = transaction.businessTransactionId ∧
        record.transaction.metadata = transaction.metadata := by
    intro record answer hmem
    obtain ⟨t₁, ht₁, processed, hprocessed, htransaction, hid⟩ := howes _ hmem
    have hof := hprocessed.of fun context processed hmem => hgives context processed (ht₁ hmem)
    exact ⟨hid.trans hof.2, (congrArg (·.metadata) htransaction).trans hof.1⟩
  rintro ⟨asked, answer⟩ he
  obtain ⟨t₁, ht₁, hpre⟩ := howes _ he
  cases asked with
  | createRefusalRecord record => exact hpre
  | createIntent intent => exact hpre
  | markErrored id reason => exact hpre
  | markReleased id processed releasedAt =>
    obtain ⟨hprocessed, rfl⟩ := hpre
    have hof := hprocessed.of fun context processed hmem => hgives context processed (ht₁ hmem)
    exact ⟨hof.2, hof⟩
  | createTrustRecord record => exact hrecorded record answer he
  | markFinalized id trustRecordId mode finalizedAt =>
    obtain ⟨record, hmem, rfl, -⟩ := hpre
    exact (hrecorded record _ (ht₁ hmem)).1
  | _ => trivial

end Parmana

import Parmana.Runtime.OneRecord

/-! # Closing an intent while its action is in flight

A person may close an intent that is prepared: the process that released its action may
have stopped before it could say so.  The action may also be in flight, and then the mark
that it was released comes to an intent that is closed, and is ignored like every mark
that comes too late.

So a saved context is kept, unless a person was first.  A run is followed by its own
events (`Owes`): it marks an intent it has stored, with the context the pipeline gave
back, and marks it once.  Over any interleaving with persons that close intents the
stores then keep `Held`.
-/
namespace Parmana
open Js Interaction Interaction.Program RuntimeProgram

/-! ## Closing an intent -/

/-- `ExecutionTrustApplication.resolveExecutionIntent`. -/
def ExecutionTrustApplication.resolveExecutionIntent (executionIntents : Bool)
    (businessTransactionId : JsString) (input : ExecutionIntentService.ResolveInput) :
    RuntimeProgram (ExecutionIntentService.ResolveOutcome × StoredExecutionIntent) := do
  if executionIntents = false then
    throw (.runtimeError ("Execution Intents are not enabled on this deployment." : String)
      ("EXECUTION_INTENTS_NOT_ENABLED" : String) 501)
  else do
    match ← ask (.findIntent businessTransactionId) with
    | none => ExecutionIntentService.resolve businessTransactionId input
    | some existing =>
      if existing.status.state ≠ .resolved ∧ existing.status.state ≠ .finalized then do
        match ← ask (.findTrustRecord businessTransactionId) with
        | none => ExecutionIntentService.resolve businessTransactionId input
        | some _ => throw (.executionIntentNotResolvable businessTransactionId
            existing.status.state
            ("A signed Execution Trust Record already exists for it, so run finalize to mark " ++
              "it complete." : String))
      else ExecutionIntentService.resolve businessTransactionId input

namespace RuntimeCall

/-- What a person calls who closes an intent. -/
def isClosing : RuntimeCall → Bool
  | .findIntent _ | .findTrustRecord _ | .now | .markResolved .. => true
  | _ => false

/-- The calls that move an intent. -/
def isMove : RuntimeCall → Bool
  | .markReleased .. | .markErrored .. | .markFinalized .. | .markResolved .. => true
  | _ => false

variable {call : RuntimeCall}

theorem not_move (hbookkeeping : call.isBookkeeping = false) (hsettling : call.isSettling = false) :
    call.isMove = false := by
  unfold isMove
  split
  · exact hbookkeeping
  · exact hsettling
  · exact hbookkeeping
  · exact hsettling
  · rfl

end RuntimeCall

theorem closing_resolve (id : JsString) (input : ExecutionIntentService.ResolveInput) :
    (ExecutionIntentService.resolve id input).Only (fun call => call.isClosing = true) := by
  refine Only.bind only_done ?_
  rintro ⟨resolution, note⟩
  refine Only.bind (only_perform.mpr rfl) ?_
  rintro (_ | stored)
  · exact only_done
  dsimp only
  split
  · exact only_done
  refine Only.bind only_done (fun _ => ?_)
  refine Only.bind (only_perform.mpr rfl) (fun resolvedAt => ?_)
  refine Only.bind (only_perform.mpr rfl) (fun moved => ?_)
  refine Only.bind (only_perform.mpr rfl) ?_
  rintro (_ | after)
  · exact only_done
  · dsimp only
    split <;> exact only_done

theorem closing_resolveExecutionIntent (executionIntents : Bool) (id : JsString)
    (input : ExecutionIntentService.ResolveInput) :
    (ExecutionTrustApplication.resolveExecutionIntent executionIntents id input).Only
      (fun call => call.isClosing = true) := by
  unfold ExecutionTrustApplication.resolveExecutionIntent
  split
  · exact only_done
  refine Only.bind (only_perform.mpr rfl) ?_
  rintro (_ | existing)
  · exact closing_resolve id input
  dsimp only
  split
  · refine Only.bind (only_perform.mpr rfl) ?_
    rintro (_ | record)
    · exact closing_resolve id input
    · exact only_done
  · exact closing_resolve id input

/-! ## What a run owes -/

namespace InFlight

/-- The pipeline has not been called, and no intent has been moved. -/
def Quiet (t : List RuntimeEvent) : Prop :=
  ∀ e ∈ t, e.1.isRelease = false ∧ e.1.isMove = false

/-- The intent of the transaction is stored, and none has been moved. -/
def Prepared (id : JsString) (t : List RuntimeEvent) : Prop :=
  (∃ intent : ExecutionIntent, intent.businessTransactionId = id ∧
    (⟨.createIntent intent, .ok ()⟩ : RuntimeEvent) ∈ t) ∧ ∀ e ∈ t, e.1.isMove = false

/-- What a run owes at a call, after its own events: it calls the pipeline once, marks an
intent released that is prepared, with the context the pipeline gave back, and finalizes
one whose record it has stored. -/
def Owes (t : List RuntimeEvent) : RuntimeCall → Prop
  | .executePipeline _ => Quiet t
  | .markReleased id processed _ => id = processed.businessTransactionId ∧
    ∃ context, (⟨.executePipeline context, .ok processed⟩ : RuntimeEvent) ∈ t ∧
      Prepared context.businessTransactionId t
  | .markErrored .. => ∀ e ∈ t, e.1.isMove = false
  | .markFinalized id _ _ _ => ∃ record : ExecutionTrustRecord,
    record.businessTransactionId = id ∧
      (⟨.createTrustRecord record, .ok ()⟩ : RuntimeEvent) ∈ t
  | .markResolved .. => False
  | _ => True

section Run
variable {config : RuntimeConfig} {transaction : BusinessTransaction} {context : RuntimeContext}
  {t : List RuntimeEvent} {α : Type}

theorem owes_of_free {call : RuntimeCall} (hrelease : call.isRelease = false)
    (hbookkeeping : call.isBookkeeping = false) (hsettling : call.isSettling = false) :
    Owes t call := by
  unfold Owes
  split
  · exact absurd hrelease (nomatch ·)
  · exact absurd hbookkeeping (nomatch ·)
  · exact absurd hsettling (nomatch ·)
  · exact absurd hbookkeeping (nomatch ·)
  · exact absurd hsettling (nomatch ·)
  · trivial

theorem quiet_append {e : RuntimeEvent} (ht : Quiet t) (hrelease : e.1.isRelease = false)
    (hmove : e.1.isMove = false) : Quiet (t ++ [e]) :=
  List.forall_mem_append.mpr ⟨ht, List.forall_mem_singleton.mpr ⟨hrelease, hmove⟩⟩

/-- A part that neither releases nor moves anything. -/
theorem quiet_part {p : RuntimeProgram α} (h : p.Only (fun call => call.isRelease = false ∧
      call.isBookkeeping = false ∧ call.isSettling = false)) (ht : Quiet t) :
    Traced Owes p (fun _ => Quiet) t := by
  refine Ensures.mono (h.ensures (P := Quiet) (fun t call hcall _ =>
    owes_of_free hcall.1 hcall.2.1 hcall.2.2) ?_ ht) (fun _ _ hq _ _ => hq)
  rintro t e _ ⟨hrelease, hbookkeeping, hsettling⟩ hq rfl
  exact quiet_append hq hrelease (RuntimeCall.not_move hbookkeeping hsettling)

/-- A part that owes nothing. -/
theorem owing_part {p : RuntimeProgram α} (h : Preparing p) :
    Traced Owes p (fun _ _ => True) t :=
  h.traced fun _ _ hcall => owes_of_free (RuntimeCall.not_release_of_preparing hcall)
    (RuntimeCall.not_bookkeeping_of_preparing hcall) (RuntimeCall.not_settling_of_preparing hcall)

theorem traced_whenConfigured {configured : Bool} {p : RuntimeProgram Unit}
    {R : Unit → List RuntimeEvent → Prop} (h : configured = true → Traced Owes p R t)
    (ht : configured = false → R () t) : Traced Owes (whenConfigured configured () p) R t := by
  unfold whenConfigured
  split
  · exact h ‹_›
  · exact Traced.pure (ht (by simpa using ‹¬ configured = true›))

/-- The built intent is of the transaction. -/
theorem traced_intentBuilder (ht : Quiet t) :
    Traced Owes (ExecutionIntentBuilder.build context) (fun intent t' => Quiet t' ∧
      intent.businessTransactionId = context.businessTransactionId) t := by
  unfold ExecutionIntentBuilder.build
  split
  · exact Traced.throw
  refine Traced.bind_perform trivial (fun createdAt => ?_)
  refine Traced.bind_perform trivial (fun intentId => ?_)
  refine Traced.bind_perform trivial (fun sealing => Traced.pure ⟨?_, rfl⟩)
  exact quiet_append (quiet_append (quiet_append ht rfl rfl) rfl rfl) rfl rfl

/-- A release is prepared by storing its intent. -/
theorem traced_prepare (ht : Quiet t) :
    Traced Owes (ExecutionIntentService.prepare context) (fun _ t' => Quiet t' ∧
      ∃ intent : ExecutionIntent, intent.businessTransactionId = context.businessTransactionId ∧
        (⟨.createIntent intent, .ok ()⟩ : RuntimeEvent) ∈ t') t := by
  refine Traced.tryCatch (Traced.bind (traced_intentBuilder ht) ?_)
    (fun _ _ => Traced.bind_done fun _ _ => Traced.throw)
  rintro intent t' ⟨hquiet, hid⟩
  refine Traced.perform trivial ?_
  rintro ⟨⟨⟩⟩
  exact ⟨quiet_append hquiet rfl rfl, intent, hid,
    List.mem_append_right _ (List.mem_singleton_self _)⟩

/-- The mark that an action was released. -/
theorem traced_markReleased {processed : RuntimeContext}
    (h : (⟨.executePipeline context, .ok processed⟩ : RuntimeEvent) ∈ t)
    (hprepared : Prepared context.businessTransactionId t) :
    Traced Owes (ExecutionIntentService.markReleased processed) (fun _ _ => True) t := by
  refine Traced.tryCatch (Traced.bind_perform trivial (fun releasedAt => Traced.perform
    ⟨rfl, context, List.mem_append_left _ h, ?_⟩ (fun _ => trivial)))
    (fun _ _ => Traced.done fun _ _ => trivial)
  obtain ⟨⟨intent, hid, hmem⟩, hmove⟩ := hprepared
  exact ⟨⟨intent, hid, List.mem_append_left _ hmem⟩,
    List.forall_mem_append.mpr ⟨hmove, List.forall_mem_singleton.mpr rfl⟩⟩

/-- The release stage meets its obligations. -/
theorem traced_release (ht : Quiet t) :
    Traced Owes (RuntimeEngine.release config context) (fun _ _ => True) t := by
  refine Traced.bind (quiet_part (only_whenConfigured (only_perform.mpr ⟨rfl, rfl, rfl⟩)) ht) ?_
  rintro - t₁ ht₁
  refine Traced.bind (R := fun _ t' => Quiet t' ∧ (config.executionIntents = true →
    ∃ intent : ExecutionIntent, intent.businessTransactionId = context.businessTransactionId ∧
      (⟨.createIntent intent, .ok ()⟩ : RuntimeEvent) ∈ t'))
    (traced_whenConfigured (fun _ => (traced_prepare ht₁).mono fun _ _ h => ⟨h.1, fun _ => h.2⟩)
      (fun hoff => ⟨ht₁, fun hon => absurd (hoff.symm.trans hon) Bool.false_ne_true⟩)) ?_
  rintro - t₂ ⟨ht₂, hcreated⟩
  refine Traced.bind (R := fun processed t' => t' = t₂ ++ [⟨.executePipeline context, .ok processed⟩])
    (ensures_tryCatch.mpr (ensures_perform.mpr ⟨ht₂, ?_⟩)) ?_
  · rintro (failure | processed) t₃ rfl
    · -- the pipeline failed: the intent is marked and the error thrown again
      refine Traced.bind (R := fun _ _ => True) (traced_whenConfigured (fun _ => Traced.tryCatch
        (Traced.bind_done fun _ _ => Traced.perform ?_ (fun _ => trivial))
        (fun _ _ => Traced.done fun _ _ => trivial))
        (fun _ => trivial)) (fun _ _ _ => Traced.bind_done fun _ _ => Traced.throw)
      exact List.forall_mem_append.mpr ⟨fun e he => (ht₂ e he).2, List.forall_mem_singleton.mpr rfl⟩
    · rintro _ ⟨⟩
      rfl
  rintro processed t₃ rfl
  refine Traced.bind (R := fun _ _ => True) (traced_whenConfigured (fun hon => ?_)
    (fun _ => trivial)) (fun _ t₄ _ => ?_)
  · obtain ⟨intent, hid, hmem⟩ := hcreated hon
    refine traced_markReleased (List.mem_append_right _ (List.mem_singleton_self _))
      ⟨⟨intent, hid, List.mem_append_left _ hmem⟩, ?_⟩
    exact List.forall_mem_append.mpr ⟨fun e he => (ht₂ e he).2, List.forall_mem_singleton.mpr rfl⟩
  · exact Traced.bind (owing_part (plain_recordExecution processed).preparing)
      (fun _ _ _ => Traced.pure trivial)

/-- The record is stored before its intent is finalized. -/
theorem traced_finish {executionIntents : Bool} {trustRecord : ExecutionTrustRecord} :
    Traced Owes (Runtime.finish executionIntents context trustRecord) (fun _ _ => True) t := by
  refine Traced.bind (R := fun _ t' => (⟨.createTrustRecord trustRecord, .ok ()⟩ : RuntimeEvent) ∈ t')
    (Traced.tryCatch (Traced.perform trivial ?_)
      (fun _ _ => Traced.bind_done fun _ _ => Traced.throw)) (fun _ t₁ hstored => ?_)
  · rintro ⟨⟨⟩⟩
    exact List.mem_append_right _ (List.mem_singleton_self _)
  refine Traced.bind (R := fun _ _ => True) (traced_whenConfigured (fun _ => ?_) (fun _ => trivial))
    (fun _ _ _ => Traced.pure trivial)
  refine Traced.tryCatch (Traced.bind_perform trivial (fun finalizedAt => Traced.perform
    ⟨trustRecord, rfl, List.mem_append_left _ hstored⟩ (fun _ => trivial)))
    (fun _ _ => Traced.done fun _ _ => trivial)

/-- **A run meets its obligations.** -/
theorem traced_execute (executionIntents : Bool) :
    Traced Owes (Runtime.execute config executionIntents transaction) (fun _ _ => True) [] := by
  refine Traced.bind (R := fun _ _ => True) (Traced.bind (quiet_part
    (only_prepareExecution.mono fun _ h => ⟨h.1, h.2.2⟩) (fun _ h => absurd h List.not_mem_nil))
    (fun context t ht => ?_)) (fun _ _ _ => traced_finish)
  refine Traced.tryCatch (traced_release ht) (fun failure t' => ?_)
  have hhooks : (hooks config (.onRuntimeError context failure)).Only fun call =>
      call.isRelease = false ∧ call.isBookkeeping = false ∧ call.isSettling = false :=
    only_hooks (fun _ => ⟨rfl, rfl, rfl⟩)
  exact Traced.bind (hhooks.traced fun t call h => owes_of_free h.1 h.2.1 h.2.2)
    (fun _ _ _ => Traced.throw)

end Run

/-! ## What the stores keep -/

/-- The stores answer a call, and what the pipeline gives back is of the transaction it was
given: its components replace the execution only. -/
def Serves (s : Stores) (e : RuntimeEvent) (s' : Stores) : Prop :=
  s.Serves e s' ∧ ∀ context processed, e = ⟨.executePipeline context, .ok processed⟩ →
    processed.transaction = context.transaction

section Keep
variable {ι : Type} [DecidableEq ι] {log : List (Option ι × RuntimeEvent)} {s s' : Stores}
  {e : RuntimeEvent} {id : JsString} {stored : StoredExecutionIntent} {processed : RuntimeContext}

/-- Someone has closed the intent in this way. -/
def ClosedBy (log : List (Option ι × RuntimeEvent)) (id : JsString)
    (stored : StoredExecutionIntent) : Prop :=
  stored.status.state = .resolved ∧ stored.releasedContext = none ∧
    ∃ x ∈ log, ∃ input, x.2.1 = .markResolved id input ∧
      stored.status.resolution = some input.resolution

/-- The intent is marked released and keeps its context. -/
def Keeps (processed : RuntimeContext) (stored : StoredExecutionIntent) : Prop :=
  stored.status.state = .released ∧ stored.releasedContext = some processed

/-- The intent is as it was stored. -/
def Untouched (stored : StoredExecutionIntent) : Prop :=
  stored.status.state = .prepared ∧ stored.releasedContext = none

/-- The run has marked the intent released, after the events in `before`. -/
def MarkedAfter (log before : List (Option ι × RuntimeEvent)) (id : JsString)
    (processed : RuntimeContext) : Prop :=
  ∃ releasedAt after, log = before ++ (none, ⟨.markReleased id processed releasedAt, .ok ()⟩) :: after

/-- **What holds of the stores after the calls in `log`**, of which the run's own are those
of `none`. -/
structure Held (log : List (Option ι × RuntimeEvent)) (s : Stores) : Prop where
  /-- A record that the run has stored is there. -/
  recorded : ∀ record : ExecutionTrustRecord,
    (⟨.createTrustRecord record, .ok ()⟩ : RuntimeEvent) ∈ eventsOf none log →
      s.Recorded record.businessTransactionId
  /-- The pipeline returns once. -/
  once : ∀ context processed context' processed',
    (⟨.executePipeline context, .ok processed⟩ : RuntimeEvent) ∈ eventsOf none log →
    (⟨.executePipeline context', .ok processed'⟩ : RuntimeEvent) ∈ eventsOf none log →
      (context', processed') = (context, processed)
  /-- It keeps the transaction. -/
  returned : ∀ context processed,
    (⟨.executePipeline context, .ok processed⟩ : RuntimeEvent) ∈ eventsOf none log →
      processed.transaction = context.transaction
  /-- An intent that the run has only stored is as it was, or someone has closed it. -/
  prepared : ∀ id, Prepared id (eventsOf none log) →
    ∃ stored, s.intents.findByTransactionId id = some stored ∧
      (Untouched stored ∨ ClosedBy log id stored)
  /-- An intent that the run has marked released keeps its context, or someone had closed
  it, or its record is there. -/
  released : ∀ before id processed, MarkedAfter log before id processed → s.Recorded id ∨
    ∃ stored, s.intents.findByTransactionId id = some stored ∧
      (Keeps processed stored ∨ ClosedBy before id stored)

/-- A stored intent stays, as it is or moved by the call. -/
theorem served_intent (h : s.Serves e s') (hfind : s.intents.findByTransactionId id = some stored) :
    s'.intents.findByTransactionId id = some stored ∨
      ∃ move, Stores.Moves e.1 id move ∧ s'.intents.findByTransactionId id = some (move stored) := by
  rcases h.cases with ⟨-, hintents, -⟩ | rfl | ⟨draft, sealing, -, rfl⟩ |
    ⟨intent, intents, -, hcreate, rfl⟩ | ⟨id', move, hmove, rfl⟩ | ⟨record, -, rfl⟩
  · rw [hintents]
    exact .inl hfind
  · exact .inl hfind
  · exact .inl hfind
  · obtain ⟨hnone, hcreated⟩ := IntentRepository.create_ok hcreate
    refine .inl ?_
    dsimp only
    rw [hcreated, if_neg, hfind]
    rintro rfl
    rw [hnone] at hfind
    cases hfind
  · by_cases hid : id = id'
    · subst hid
      refine .inr ⟨move, hmove, ?_⟩
      dsimp only
      rw [hmove.find_update, if_pos rfl, hfind]
      rfl
    · refine .inl ?_
      dsimp only
      rw [hmove.find_update, if_neg hid, hfind]
  · exact .inl hfind

/-- A call that moves no intent leaves it. -/
theorem move_isMove {call : RuntimeCall} {move : StoredExecutionIntent → StoredExecutionIntent}
    (h : Stores.Moves call id move) : call.isMove = true := by
  cases h <;> rfl

theorem served_unmoved (h : s.Serves e s') (hmove : e.1.isMove = false)
    (hfind : s.intents.findByTransactionId id = some stored) :
    s'.intents.findByTransactionId id = some stored := by
  refine (served_intent h hfind).resolve_right ?_
  rintro ⟨move, hmoves, -⟩
  rw [move_isMove hmoves] at hmove
  cases hmove

/-- A person moves an intent by resolving it. -/
theorem served_closing (h : s.Serves e s') (hclosing : e.1.isClosing = true)
    (hfind : s.intents.findByTransactionId id = some stored) :
    s'.intents.findByTransactionId id = some stored ∨
      ∃ input, e.1 = .markResolved id input ∧
        s'.intents.findByTransactionId id = some (stored.resolve input) := by
  refine (served_intent h hfind).imp_right ?_
  rintro ⟨move, hmoves, hmoved⟩
  generalize e.1 = call at hmoves hclosing ⊢
  cases hmoves with
  | released => cases hclosing
  | errored => cases hclosing
  | finalized => cases hclosing
  | resolved id input => exact ⟨input, rfl, hmoved⟩

theorem resolve_keeps {input : ResolutionInput} (h : Keeps processed stored) :
    stored.resolve input = stored := by
  rw [StoredExecutionIntent.resolve, if_neg]
  rw [StoredExecutionIntent.isResolvable, h.1]
  decide

omit [DecidableEq ι] in
theorem resolve_closed {input : ResolutionInput} (h : ClosedBy log id stored) :
    stored.resolve input = stored := by
  rw [StoredExecutionIntent.resolve, if_neg]
  rw [StoredExecutionIntent.isResolvable, h.1]
  decide

omit [DecidableEq ι] in
theorem ClosedBy.mono {log' : List (Option ι × RuntimeEvent)} (h : ClosedBy log id stored) :
    ClosedBy (log ++ log') id stored := by
  obtain ⟨hstate, hcontext, x, hx, hclosed⟩ := h
  exact ⟨hstate, hcontext, x, List.mem_append_left _ hx, hclosed⟩

omit [DecidableEq ι] in
/-- A person who comes to an untouched intent closes it. -/
theorem closedBy_resolve {i : Option ι} {input : ResolutionInput} (h : Untouched stored)
    (hcall : e.1 = .markResolved id input) :
    ClosedBy (log ++ [(i, e)]) id (stored.resolve input) := by
  have hresolvable : stored.isResolvable = true := by
    rw [StoredExecutionIntent.isResolvable, h.1]
    rfl
  rw [StoredExecutionIntent.resolve, if_pos hresolvable]
  exact ⟨rfl, rfl, (i, e), List.mem_append_right _ (List.mem_singleton_self _), input, hcall, rfl⟩

/-! ### One step -/

/-- What each thread owes: the run is `none`, the others are persons. -/
def Meets (i : Option ι) (t : List RuntimeEvent) (call : RuntimeCall) : Prop :=
  match i with
  | none => Owes t call
  | some _ => call.isClosing = true

theorem events_person (i : ι) : eventsOf none (log ++ [(some i, e)]) = eventsOf none log :=
  eventsOf_append_other (Option.some_ne_none i) log e

/-- A call of the pipeline is the first. -/
theorem once_append {t : List RuntimeEvent} (howes : Owes t e.1)
    (ht : ∀ context processed context' processed',
      (⟨.executePipeline context, .ok processed⟩ : RuntimeEvent) ∈ t →
      (⟨.executePipeline context', .ok processed'⟩ : RuntimeEvent) ∈ t →
        (context', processed') = (context, processed))
    (context : RuntimeContext) (processed : RuntimeContext) (context' : RuntimeContext)
    (processed' : RuntimeContext)
    (h : (⟨.executePipeline context, .ok processed⟩ : RuntimeEvent) ∈ t ++ [e])
    (h' : (⟨.executePipeline context', .ok processed'⟩ : RuntimeEvent) ∈ t ++ [e]) :
    (context', processed') = (context, processed) := by
  rcases List.mem_append.mp h with h | h
  · rcases List.mem_append.mp h' with h' | h'
    · exact ht _ _ _ _ h h'
    · rw [← List.mem_singleton.mp h'] at howes
      exact absurd (howes _ h).1 (nomatch ·)
  · rcases List.mem_append.mp h' with h' | h'
    · rw [← List.mem_singleton.mp h] at howes
      exact absurd (howes _ h').1 (nomatch ·)
    · have hsame := (List.mem_singleton.mp h').trans (List.mem_singleton.mp h).symm
      cases hsame
      rfl

theorem recorded_of_created {record : ExecutionTrustRecord}
    (h : s.Serves ⟨.createTrustRecord record, .ok ()⟩ s') :
    s'.Recorded record.businessTransactionId := by
  have hname := Stores.ServesInMemory.created ⟨h, (nomatch ·)⟩
  unfold Stores.recordId at hname
  obtain ⟨found, hfound, -⟩ := Option.map_eq_some_iff.mp hname
  rw [Stores.Recorded, hfound]
  rfl

theorem untouched_of_created {intent : ExecutionIntent}
    (h : s.Serves ⟨.createIntent intent, .ok ()⟩ s') :
    ∃ stored, s'.intents.findByTransactionId intent.businessTransactionId = some stored ∧
      Untouched stored := by
  obtain ⟨hwrite, -⟩ : s.write (.createIntent intent) = .ok s' ∧ True := h
  rcases hcreate : s.intents.create intent with failure | intents
  · rw [Stores.write, hcreate] at hwrite
    cases hwrite
  · rw [Stores.write, hcreate] at hwrite
    cases hwrite
    exact ⟨_, (IntentRepository.create_ok hcreate).2 _ |>.trans (if_pos rfl), rfl, rfl⟩

/-- An untouched intent is marked released. -/
theorem keeps_of_marked {releasedAt : Int}
    (h : s.Serves ⟨.markReleased id processed releasedAt, .ok ()⟩ s')
    (hfind : s.intents.findByTransactionId id = some stored) :
    s'.intents.findByTransactionId id = some (stored.release processed releasedAt) := by
  obtain ⟨hwrite, -⟩ : s.write (.markReleased id processed releasedAt) = .ok s' ∧ True := h
  cases hwrite
  dsimp only
  rw [IntentRepository.markReleased, (Stores.Moves.released id processed releasedAt).find_update,
    if_pos rfl, hfind]
  rfl

theorem Held.step_prepared (hs : Held log s) {i : Option ι} (hmeets : Meets i (eventsOf i log) e.1)
    (h : s.Serves e s') (hprepared : Prepared id (eventsOf none (log ++ [(i, e)]))) :
    ∃ stored, s'.intents.findByTransactionId id = some stored ∧
      (Untouched stored ∨ ClosedBy (log ++ [(i, e)]) id stored) := by
  cases i with
  | none =>
    rw [eventsOf_append_self] at hprepared
    obtain ⟨⟨intent, rfl, hmem⟩, hmove⟩ := hprepared
    obtain ⟨hbefore, hlast⟩ := List.forall_mem_append.mp hmove
    rcases List.mem_append.mp hmem with hmem | hmem
    · obtain ⟨stored, hfind, hstored⟩ := hs.prepared _ ⟨⟨intent, rfl, hmem⟩, hbefore⟩
      exact ⟨stored, served_unmoved h (hlast e (List.mem_singleton_self e)) hfind,
        hstored.imp_right ClosedBy.mono⟩
    · obtain rfl := List.mem_singleton.mp hmem
      obtain ⟨stored, hfind, hstored⟩ := untouched_of_created h
      exact ⟨stored, hfind, .inl hstored⟩
  | some i =>
    rw [events_person] at hprepared
    obtain ⟨stored, hfind, hstored⟩ := hs.prepared id hprepared
    rcases served_closing h hmeets hfind with hsame | ⟨input, hcall, hresolved⟩
    · exact ⟨stored, hsame, hstored.imp_right ClosedBy.mono⟩
    · refine ⟨_, hresolved, .inr ?_⟩
      rcases hstored with huntouched | hclosed
      · exact closedBy_resolve huntouched hcall
      · rw [resolve_closed hclosed]
        exact hclosed.mono

/-- What a marked intent holds stays when the run or a person calls again. -/
theorem Held.step_marked (hs : Held log s) {before : List (Option ι × RuntimeEvent)}
    {i : Option ι} (hmeets : Meets i (eventsOf i log) e.1) (h : s.Serves e s')
    (hmarked : MarkedAfter log before id processed) : s'.Recorded id ∨
      ∃ stored, s'.intents.findByTransactionId id = some stored ∧
        (Keeps processed stored ∨ ClosedBy before id stored) := by
  rcases hs.released before id processed hmarked with hrecorded | ⟨stored, hfind, hstored⟩
  · exact .inl (h.extends.recorded id hrecorded)
  cases i with
  | none =>
    -- the mark itself is among the run's events, so the run moves no intent any more,
    -- unless it finalizes one whose record is there
    obtain ⟨releasedAt, after, rfl⟩ := hmarked
    have hmem : (⟨.markReleased id processed releasedAt, .ok ()⟩ : RuntimeEvent) ∈
        eventsOf none (before ++ (none, ⟨.markReleased id processed releasedAt, .ok ()⟩) ::
          after) :=
      mem_eventsOf.mpr (List.mem_append_right _ List.mem_cons_self)
    rcases served_intent h hfind with hsame | ⟨move, hmoves, -⟩
    · exact .inr ⟨stored, hsame, hstored⟩
    · unfold Meets at hmeets
      generalize e.1 = call at hmoves hmeets
      cases hmoves with
      | released id context releasedAt =>
        obtain ⟨-, _, -, -, hmove⟩ := hmeets
        exact absurd (hmove _ hmem) (nomatch ·)
      | errored id reason => exact absurd (hmeets _ hmem) (nomatch ·)
      | finalized id trustRecordId mode finalizedAt =>
        obtain ⟨record, rfl, hcreated⟩ := hmeets
        exact .inl (h.extends.recorded _ (hs.recorded record hcreated))
      | resolved id input => exact hmeets.elim
  | some i =>
    rcases served_closing h hmeets hfind with hsame | ⟨input, -, hresolved⟩
    · exact .inr ⟨stored, hsame, hstored⟩
    · refine .inr ⟨stored, ?_, hstored⟩
      rw [hresolved]
      rcases hstored with hkeeps | hclosed
      · rw [resolve_keeps hkeeps]
      · rw [resolve_closed hclosed]

theorem Held.step_released (hs : Held log s) {before : List (Option ι × RuntimeEvent)}
    {i : Option ι} (hmeets : Meets i (eventsOf i log) e.1) (h : s.Serves e s')
    (hmarked : MarkedAfter (log ++ [(i, e)]) before id processed) : s'.Recorded id ∨
      ∃ stored, s'.intents.findByTransactionId id = some stored ∧
        (Keeps processed stored ∨ ClosedBy before id stored) := by
  obtain ⟨releasedAt, after, hlog⟩ := hmarked
  rcases List.eq_nil_or_concat after with rfl | ⟨after, last, rfl⟩
  · -- the call is the mark
    obtain ⟨rfl, heq⟩ := List.append_inj' hlog rfl
    cases heq
    obtain ⟨rfl, context, hreturned, hprepared⟩ := hmeets
    have hid : context.businessTransactionId = processed.businessTransactionId := by
      rw [RuntimeContext.businessTransactionId, RuntimeContext.businessTransactionId,
        hs.returned context processed hreturned]
    rw [hid] at hprepared
    obtain ⟨stored, hfind, hstored⟩ := hs.prepared _ hprepared
    refine .inr ⟨_, keeps_of_marked h hfind, ?_⟩
    rcases hstored with ⟨hstate, -⟩ | hclosed
    · left
      rw [StoredExecutionIntent.release, if_neg (not_not_intro hstate)]
      exact ⟨rfl, rfl⟩
    · right
      rw [StoredExecutionIntent.release, if_pos (by rw [hclosed.1]; decide)]
      exact hclosed
  · rw [List.concat_eq_append, ← List.cons_append, ← List.append_assoc] at hlog
    obtain ⟨rfl, -⟩ := List.append_inj' hlog rfl
    exact hs.step_marked hmeets h ⟨releasedAt, after, rfl⟩

/-- **A call that meets what its thread owes keeps the invariant.** -/
theorem Held.step (hs : Held log s) (i : Option ι) (hmeets : Meets i (eventsOf i log) e.1)
    (h : Serves s e s') : Held (log ++ [(i, e)]) s' := by
  obtain ⟨hserves, hpipeline⟩ := h
  refine ⟨?_, ?_, ?_, fun id => hs.step_prepared hmeets hserves,
    fun before id processed => hs.step_released hmeets hserves⟩
  · intro record hmem
    cases i with
    | none =>
      rw [eventsOf_append_self] at hmem
      rcases List.mem_append.mp hmem with hmem | hmem
      · exact hserves.extends.recorded _ (hs.recorded record hmem)
      · obtain rfl := List.mem_singleton.mp hmem
        exact recorded_of_created hserves
    | some i =>
      rw [events_person] at hmem
      exact hserves.extends.recorded _ (hs.recorded record hmem)
  · cases i with
    | none =>
      rw [eventsOf_append_self]
      exact once_append hmeets hs.once
    | some i =>
      rw [events_person]
      exact hs.once
  · intro context processed hmem
    cases i with
    | none =>
      rw [eventsOf_append_self] at hmem
      rcases List.mem_append.mp hmem with hmem | hmem
      · exact hs.returned context processed hmem
      · exact hpipeline context processed (List.mem_singleton.mp hmem).symm
    | some i =>
      rw [events_person] at hmem
      exact hs.returned context processed hmem

theorem held_empty : Held (ι := ι) [] .empty := by
  refine ⟨fun _ h => absurd h List.not_mem_nil, fun _ _ _ _ h => absurd h List.not_mem_nil,
    fun _ _ h => absurd h List.not_mem_nil, ?_, ?_⟩
  · rintro id ⟨⟨intent, -, hmem⟩, -⟩
    exact absurd hmem List.not_mem_nil
  · rintro before id processed ⟨releasedAt, after, hlog⟩
    cases before <;> cases hlog

end Keep

/-! ## A run and any number of persons -/

/-- What a thread returns. -/
abbrev Result {ι : Type} : Option ι → Type
  | none => RuntimeContext × ExecutionTrustRecord
  | some _ => ExecutionIntentService.ResolveOutcome × StoredExecutionIntent

/-- What a person asks for: which intent is to be closed, and how. -/
structure Closing where
  businessTransactionId : JsString
  input : ExecutionIntentService.ResolveInput

/-- One run of the runtime and the persons, over empty stores. -/
def pool {ι : Type} (config : RuntimeConfig) (executionIntents : Bool)
    (transaction : BusinessTransaction) (closings : ι → Closing) :
    Pool RuntimeCall RuntimeCall.Answer Failure (Result (ι := ι)) Stores where
  threads
    | none => Runtime.execute config executionIntents transaction
    | some i => ExecutionTrustApplication.resolveExecutionIntent executionIntents
        (closings i).businessTransactionId (closings i).input
  state := .empty

variable {ι : Type} [DecidableEq ι] {config : RuntimeConfig} {executionIntents : Bool}
  {transaction : BusinessTransaction} {closings : ι → Closing}
  {log : List (Option ι × RuntimeEvent)}
  {Q : Pool RuntimeCall RuntimeCall.Answer Failure (Result (ι := ι)) Stores}

theorem reached_held (h : Exec Serves (pool config executionIntents transaction closings) log Q) :
    Held log Q.state := by
  have hmeets : ∀ i, ((pool config executionIntents transaction closings).threads i).Ensures
      history (Meets i) (fun _ _ => True) [] := by
    rintro (_ | i)
    · exact Ensures.mono (traced_execute executionIntents) (fun _ _ _ => trivial)
    · exact Ensures.mono ((closing_resolveExecutionIntent ..).traced fun _ _ hclosing => hclosing)
        (fun _ _ _ => trivial)
  exact h.where_true.induction hmeets held_empty
    (fun _ _ i _ _ hs hmeets _ hserves => hs.step i hmeets hserves)

end InFlight

/-- **A saved context is kept, unless a person was first.**  A run and any number of
persons who close intents are interleaved at their calls, with any failures.  Once the
pipeline has returned and the run's mark was answered, and as long as no record is stored,
the intent is marked released and holds what the pipeline returned, or it is resolved as
a person asked before the mark and holds nothing. -/
theorem InFlight.context_held {ι : Type} [DecidableEq ι] (config : RuntimeConfig)
    (executionIntents : Bool) (transaction : BusinessTransaction) (closings : ι → InFlight.Closing)
    (before after : List (Option ι × RuntimeEvent))
    (Q : Pool RuntimeCall RuntimeCall.Answer Failure (InFlight.Result (ι := ι)) Stores)
    (context returned processed : RuntimeContext) (id : JsString) (releasedAt : Int)
    (h : Exec InFlight.Serves (InFlight.pool config executionIntents transaction closings)
      (before ++ (none, ⟨.markReleased id processed releasedAt, .ok ()⟩) :: after) Q)
    (hreturned : (none, ⟨.executePipeline context, .ok returned⟩) ∈
      before ++ (none, ⟨.markReleased id processed releasedAt, .ok ()⟩) :: after)
    (hrecord : ¬ Q.state.Recorded context.businessTransactionId) :
    ∃ stored, Q.state.intents.findByTransactionId context.businessTransactionId = some stored ∧
      (InFlight.Keeps returned stored ∨
        InFlight.ClosedBy before context.businessTransactionId stored) := by
  have hheld := InFlight.reached_held h
  -- the mark is for the context that the one call of the pipeline gave back
  obtain ⟨R, k, s', hbefore, hcall, -, -⟩ := h.split
  have hsteps := hbefore.steps_of_thread none
  rw [hcall] at hsteps
  obtain ⟨rfl, context', hcontext', -⟩ : InFlight.Owes _ (.markReleased id processed releasedAt) :=
    pre_of_steps (InFlight.traced_execute executionIntents) hsteps
  have hmem' : (⟨.executePipeline context', .ok processed⟩ : RuntimeEvent) ∈ eventsOf none
      (before ++ (none, ⟨.markReleased processed.businessTransactionId processed releasedAt,
        .ok ()⟩) :: after) :=
    mem_eventsOf.mpr (List.mem_append_left _ (mem_eventsOf.mp hcontext'))
  have hsame := hheld.once context' processed context returned hmem' (mem_eventsOf.mpr hreturned)
  obtain ⟨rfl, rfl⟩ := Prod.mk.inj hsame
  have hid : context.businessTransactionId = returned.businessTransactionId := by
    rw [RuntimeContext.businessTransactionId, RuntimeContext.businessTransactionId,
      hheld.returned context _ hmem']
  rw [hid] at hrecord ⊢
  exact (hheld.released before _ returned ⟨releasedAt, after, rfl⟩).resolve_left hrecord

/-! ## A person who is first -/

namespace Sample

/-- A person who found at the connector that nothing had happened. -/
def closing : InFlight.Closing where
  businessTransactionId := "tx-1"
  input := { resolution := .json (.str "NOT_EXECUTED"), note := .json (.str "no refund found")
             resolvedBy := some "operator" }

/-- The request and one person, over a schedule: `false` is the request. -/
def closed (schedule : List (Option Unit)) :
    Pool RuntimeCall RuntimeCall.Answer Failure (InFlight.Result (ι := Unit)) Stores :=
  (InFlight.pool config true transaction (fun _ : Unit => closing)).play keep schedule

def closedEvents (schedule : List (Option Unit)) : List (Option Unit × RuntimeEvent) :=
  (InFlight.pool config true transaction (fun _ : Unit => closing)).script keep schedule

theorem answer_pipeline {s s' : Stores} {e : RuntimeEvent} (h : Handled keep s e s') :
    InFlight.Serves s e s' := by
  refine ⟨(handled_serves h).1, ?_⟩
  rintro context processed rfl
  have hanswer : Except.ok context = Except.ok processed := (Prod.mk.inj h).1
  rw [Except.ok.inj hanswer]

theorem closed_run (schedule : List (Option Unit)) :
    Exec InFlight.Serves (InFlight.pool config true transaction (fun _ : Unit => closing))
      (closedEvents schedule) (closed schedule) :=
  (Exec.play keep schedule (Pool.meets_true ..)).mono fun _ _ _ h => answer_pipeline h.1

/-- The run's mark was answered. -/
def marked (x : Option Unit × RuntimeEvent) : Bool :=
  match x with
  | (none, ⟨.markReleased id _ _, .ok ()⟩) => id = "tx-1"
  | _ => false

/-- The pipeline returned. -/
def returned (x : Option Unit × RuntimeEvent) : Bool :=
  match x with
  | (none, ⟨.executePipeline context, .ok _⟩) => context.businessTransactionId = "tx-1"
  | _ => false

theorem marked_of {x : Option Unit × RuntimeEvent} (h : marked x = true) :
    ∃ processed releasedAt, x = (none, ⟨.markReleased "tx-1" processed releasedAt, .ok ()⟩) := by
  unfold marked at h
  split at h
  · obtain rfl := of_decide_eq_true h
    exact ⟨_, _, rfl⟩
  · cases h

theorem returned_of_event {x : Option Unit × RuntimeEvent} (h : returned x = true) :
    ∃ context processed, context.businessTransactionId = ("tx-1" : JsString) ∧
      x = (none, ⟨.executePipeline context, .ok processed⟩) := by
  unfold returned at h
  split at h
  · have hid := of_decide_eq_true h
    exact ⟨_, _, hid, rfl⟩
  · cases h

/-- The person closes the intent while the pipeline has not answered. -/
def first : List (Option Unit) :=
  List.replicate 25 none ++ List.replicate 6 (some ()) ++ List.replicate 3 none

/-- The person comes after the run's mark. -/
def late : List (Option Unit) := List.replicate 28 none ++ List.replicate 6 (some ())

/-- The person is told that the intent is released. -/
def refused : Program RuntimeCall RuntimeCall.Answer Failure (InFlight.Result (some ())) → Bool
  | .done (.error (.executionIntentNotResolvable id state _)) => id = "tx-1" ∧ state = .released
  | _ => false

end Sample

/-- A person closes the intent of an action in flight: every call is answered, the pipeline
has returned and the run's mark was answered, and the intent holds no context. -/
theorem context_lost : ∃ log Q,
    Exec InFlight.Serves (InFlight.pool Sample.config true Sample.transaction
      (fun _ : Unit => Sample.closing)) log Q ∧
    log.all (fun x => !failed x.2) ∧ log.any Sample.returned ∧ log.any Sample.marked ∧
    Q.state.trustRecords = [] ∧
    (Q.state.intents.findByTransactionId "tx-1").map
        (fun stored => (stored.status.state, stored.releasedContext)) =
      some (.resolved, none) :=
  ⟨_, _, Sample.closed_run Sample.first, by decide⟩

/-- A person who comes after the mark is refused, and the intent holds what the pipeline
returned. -/
theorem late_context_held : Sample.refused ((Sample.closed Sample.late).threads (some ())) ∧
    ∃ returned stored,
      (Sample.closed Sample.late).state.intents.findByTransactionId "tx-1" = some stored ∧
      InFlight.Keeps returned stored := by
  have hrun : (Sample.closedEvents Sample.late).any Sample.returned = true ∧
      (Sample.closedEvents Sample.late).any Sample.marked = true ∧
      ((Sample.closed Sample.late).state.trustRecords.findByTransactionId "tx-1").isSome = false := by
    decide
  have hlate : Sample.refused ((Sample.closed Sample.late).threads (some ())) ∧
      ((Sample.closed Sample.late).state.intents.findByTransactionId "tx-1").map
        (fun stored => stored.status.state) = some .released := by
    decide
  obtain ⟨x, hx, hreturned⟩ := List.any_eq_true.mp hrun.1
  obtain ⟨y, hy, hmarked⟩ := List.any_eq_true.mp hrun.2.1
  obtain ⟨context, returned, hid, rfl⟩ := Sample.returned_of_event hreturned
  obtain ⟨processed, releasedAt, rfl⟩ := Sample.marked_of hmarked
  obtain ⟨before, after, hlog⟩ := List.append_of_mem hy
  have hexec := Sample.closed_run Sample.late
  rw [hlog] at hx hexec
  obtain ⟨stored, hstored, hheld⟩ := InFlight.context_held Sample.config true Sample.transaction
    (fun _ : Unit => Sample.closing) before after _ context returned processed "tx-1" releasedAt
    hexec hx (by rw [hid, Stores.Recorded, hrun.2.2]; exact Bool.false_ne_true)
  rw [hid] at hstored
  refine ⟨hlate.1, returned, stored, hstored, hheld.resolve_right fun hclosed => ?_⟩
  have hstate := hlate.2
  rw [hstored, Option.map_some, hclosed.1] at hstate
  cases hstate

end Parmana

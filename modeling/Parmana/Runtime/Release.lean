import Parmana.Runtime.PolicyChecks

/-! # What the caller is told after a release

Once the pipeline has returned, the action has happened.  The engine maps every
later failure to `ExecutionRecordIncompleteError`, and so does the runtime when the
record cannot be stored; but on its way out the engine runs the hooks of an error,
and a hook that throws puts its own error in the place of that report.  And where
an error is logged, its text is made first: an error that has none puts what
`String` throws in the place of the report.  Nothing else does
(`Runtime.execute_reports_iff`).
-/
namespace Parmana
open Js Policy Interaction Interaction.Program RuntimeProgram

/-! ## Reports -/

/-- `error instanceof ExecutionRecordIncompleteError`. -/
def Failure.isRecordIncomplete : Failure → Bool
  | .executionRecordIncomplete .. => true
  | _ => false

/-- The caller receives the record, or is told that it is incomplete. -/
def isReported {α : Type} : Except Failure α → Bool
  | .ok _ => true
  | .error failure => failure.isRecordIncomplete

/-- The pipeline returned. -/
def Released (t : List RuntimeEvent) : Prop := ∃ e ∈ t, e.1.isRelease ∧ failed e = false

/-- A hook of an error threw, and not an incomplete record. -/
def replacesReport (e : RuntimeEvent) : Bool :=
  e.1.isErrorHook && (failureOf e).any (fun failure => !failure.isRecordIncomplete)

/-- Another call threw an error without a text, and `String` throws no incomplete record on
it. -/
def spoilsReport (e : RuntimeEvent) : Bool :=
  !e.1.isErrorHook && (unprintedOf e).any (fun failure => !failure.isRecordIncomplete)

/-- No hook of an error throws another error, and where another call threw an error without a
text, a hook of an error threw an incomplete record. -/
def KeepsReport (t : List RuntimeEvent) : Prop :=
  (∀ e ∈ t, replacesReport e = false) ∧
    ((∃ e ∈ t, e.1.isErrorHook ∧ failed e) ∨ ∀ e ∈ t, spoilsReport e = false)

instance (t : List RuntimeEvent) : Decidable (KeepsReport t) :=
  inferInstanceAs (Decidable ((∀ e ∈ t, replacesReport e = false) ∧
    ((∃ e ∈ t, e.1.isErrorHook ∧ failed e) ∨ ∀ e ∈ t, spoilsReport e = false)))

section Events
variable {α : Type} {t t' : List RuntimeEvent} {p : RuntimeProgram α} {r : Except Failure α}

theorem failed_iff {e : RuntimeEvent} : failed e ↔ ∃ failure, failureOf e = some failure := by
  unfold failed failureOf
  cases e.2 <;> simp

theorem released_append : Released (t ++ t') ↔ Released t ∨ Released t' := by
  unfold Released
  simp only [List.mem_append, or_and_right, exists_or]

theorem released_iff_any :
    Released t ↔ t.any (fun e => e.1.isRelease && !failed e) = true := by
  simp [Released]

theorem not_released (h : p.Only (fun call => call.isRelease = false)) (hr : Runs p t r) :
    ¬ Released t := by
  rintro ⟨e, hmem, hcall, -⟩
  rw [h.of_runs hr e hmem] at hcall
  exact absurd hcall Bool.false_ne_true

/-- Events in which no hook of an error ran replace nothing. -/
theorem not_replacesReport (hquiet : ∀ e ∈ t, e.1.isErrorHook = false) :
    ∀ e ∈ t, replacesReport e = false := by
  intro e hmem
  rw [replacesReport, hquiet e hmem]
  rfl

theorem not_spoilsReport (hprinted : t.filterMap unprintedOf = []) :
    ∀ e ∈ t, spoilsReport e = false := by
  intro e hmem
  rw [spoilsReport, List.filterMap_eq_nil_iff.mp hprinted e hmem, Option.any_none, Bool.and_false]

/-- Where no hook of an error ran, what `String` threw is what spoils a report. -/
theorem spoilsReport_iff (hquiet : ∀ e ∈ t, e.1.isErrorHook = false) :
    (∀ e ∈ t, spoilsReport e = false) ↔
      ∀ thrown ∈ t.filterMap unprintedOf, thrown.isRecordIncomplete = true := by
  constructor
  · intro h thrown hmem
    obtain ⟨e, he, hthrown⟩ := List.mem_filterMap.mp hmem
    have hspoils := h e he
    rw [spoilsReport, hquiet e he, hthrown] at hspoils
    simpa using hspoils
  · intro h e he
    rw [spoilsReport, hquiet e he]
    rcases hthrown : unprintedOf e with _ | thrown
    · rfl
    · have := h thrown (List.mem_filterMap.mpr ⟨e, he, hthrown⟩)
      simpa using this

/-- Events without hooks of an error keep the report exactly when none of them spoils it. -/
theorem keepsReport_of_quiet (hquiet : ∀ e ∈ t, e.1.isErrorHook = false) :
    KeepsReport t ↔ ∀ e ∈ t, spoilsReport e = false := by
  unfold KeepsReport
  rw [and_iff_right (not_replacesReport hquiet), or_iff_right]
  rintro ⟨e, he, hhook, -⟩
  rw [hquiet e he] at hhook
  exact absurd hhook Bool.false_ne_true

end Events

/-! ## The hooks of an error -/

/-- Hooks run until one throws, and its error is the result. -/
theorem hooks_failures {config : RuntimeConfig} {point : HookPoint} {t : List RuntimeEvent}
    {r : Except Failure Unit} (h : Runs (hooks config point) t r) :
    t.filterMap failureOf = thrownBy r := by
  unfold hooks at h
  generalize List.range config.hooks = indices at h
  induction indices generalizing t with
  | nil =>
    obtain ⟨rfl, rfl⟩ := runs_done.mp h
    rfl
  | cons index rest ih =>
    rcases runs_bind.mp h with ⟨failure, hhook, rfl⟩ | ⟨_, t₁, t₂, rfl, hhook, hrest⟩
    · rw [runs_perform.mp hhook]
      rfl
    · rw [runs_perform.mp hhook, List.filterMap_append, ih hrest]
      rfl

theorem only_errorHooks {config : RuntimeConfig} {context : RuntimeContext} {failure : Failure} :
    (hooks config (.onRuntimeError context failure)).Only (fun call => call.isErrorHook = true) :=
  only_hooks fun _ => rfl

/-- Reporting an error keeps the report exactly when no hook replaces it; and a hook may put
a report in the place of another error. -/
theorem rethrow_reported {α : Type} {config : RuntimeConfig} {context : RuntimeContext}
    {failure : Failure} {t : List RuntimeEvent} {r : Except Failure α}
    (h : Runs (do hooks config (.onRuntimeError context failure); throw failure) t r) :
    isReported r = true ↔ (∀ e ∈ t, replacesReport e = false) ∧
      ((∃ e ∈ t, failed e) ∨ failure.isRecordIncomplete = true) := by
  -- all these events are of hooks of an error, so only what they threw counts
  have hall : ∀ {t : List RuntimeEvent} {r : Except Failure Unit},
      Runs (hooks config (.onRuntimeError context failure)) t r →
      ((∀ e ∈ t, replacesReport e = false) ↔
        ∀ thrown ∈ t.filterMap failureOf, thrown.isRecordIncomplete = true) := by
    intro t r hr
    have hhook := only_errorHooks.of_runs hr
    constructor
    · intro hnone thrown hmem
      obtain ⟨e, he, hthrown⟩ := List.mem_filterMap.mp hmem
      have hreplaces := hnone e he
      rw [replacesReport, hhook e he, hthrown] at hreplaces
      simpa using hreplaces
    · intro hincomplete e he
      rw [replacesReport, hhook e he]
      rcases hthrown : failureOf e with _ | thrown
      · rfl
      · have := hincomplete thrown (List.mem_filterMap.mpr ⟨e, he, hthrown⟩)
        simpa using this
  rcases runs_bind.mp h with ⟨thrown, hhooks, rfl⟩ | ⟨_, t₁, t₂, rfl, hhooks, hthrow⟩
  · have hfailed : ∃ e ∈ t, failed e := by
      have hmem : thrown ∈ t.filterMap failureOf := by
        rw [hooks_failures hhooks]
        exact List.mem_singleton_self thrown
      obtain ⟨e, he, hthrown⟩ := List.mem_filterMap.mp hmem
      exact ⟨e, he, failed_iff.mpr ⟨thrown, hthrown⟩⟩
    rw [hall hhooks, hooks_failures hhooks, and_iff_left (.inl hfailed)]
    simp [isReported, thrownBy]
  · obtain ⟨rfl, rfl⟩ := runs_done.mp hthrow
    have hnone : t₁.filterMap failureOf = [] := hooks_failures hhooks
    have hfailed : ¬ ∃ e ∈ t₁, failed e := by
      rintro ⟨e, he, hfailed⟩
      obtain ⟨thrown, hthrown⟩ := failed_iff.mp hfailed
      rw [List.filterMap_eq_nil_iff.mp hnone e he] at hthrown
      cases hthrown
    rw [List.append_nil, hall hhooks, hnone, or_iff_right hfailed]
    simp [isReported]

/-! ## Parts that report -/

/-- What `p` throws is a report, unless a call threw an error without a text. -/
def Reports {α : Type} (p : RuntimeProgram α) : Prop :=
  ∀ t r, Runs p t r → (isReported r = true ↔
    ∀ thrown ∈ t.filterMap unprintedOf, thrown.isRecordIncomplete = true)

section Reports
variable {α β : Type} {p : RuntimeProgram α}

theorem reports_of_thrown {p : RuntimeProgram Unit}
    (h : ∀ t r, Runs p t r → t.filterMap unprintedOf = thrownBy r) : Reports p := by
  intro t r hr
  rw [h t r hr]
  cases r with
  | ok _ => simp [isReported, thrownBy]
  | error failure => simp [isReported, thrownBy]

theorem reports_pure {a : α} : Reports (pure a : RuntimeProgram α) := by
  intro t r hr
  obtain ⟨rfl, rfl⟩ := runs_done.mp hr
  simp [isReported]

theorem Reports.bind {f : α → RuntimeProgram β} (h : Reports p) (hprinted : Printed p)
    (hf : ∀ a, Reports (f a)) : Reports (p >>= f) := by
  intro t r hr
  rcases runs_bind.mp hr with ⟨failure, hp, rfl⟩ | ⟨a, t₁, t₂, rfl, hp, hrest⟩
  · exact h _ _ hp
  · rw [unprinted_of_append, hprinted _ _ hp, List.nil_append]
    exact hf a _ _ hrest

/-- To catch an error, log it and throw a report. -/
theorem reports_tryCatch {handler : Failure → RuntimeProgram α} (h : Forwards p)
    (hhandler : ∀ failure, ∃ report : Failure, report.isRecordIncomplete = true ∧
      handler failure = .done (.error (failure.unprinted.getD report))) :
    Reports (tryCatch p handler) := by
  intro t r hr
  rcases runs_tryCatch.mp hr with ⟨a, hp, rfl⟩ | ⟨failure, t₁, t₂, rfl, hp, hthrow⟩
  · rw [h.printed _ _ hp]
    simp [isReported]
  · obtain ⟨report, hreport, heq⟩ := hhandler failure
    rw [heq] at hthrow
    obtain ⟨rfl, rfl⟩ := runs_done.mp hthrow
    rw [List.append_nil, h _ _ hp, unprintedBy, thrownBy, List.filterMap_cons]
    cases hunprinted : failure.unprinted with
    | none => simp [isReported, hreport]
    | some thrown => simp [isReported]

/-- Where it returns, what it caught had a text. -/
theorem printed_tryCatch {handler : Failure → RuntimeProgram α} (h : Forwards p)
    (hhandler : ∀ failure t a, Runs (handler failure) t (.ok a) →
      t = [] ∧ failure.unprinted = none) : Printed (tryCatch p handler) := by
  intro t a hr
  rcases runs_tryCatch.mp hr with ⟨a, hp, -⟩ | ⟨failure, t₁, t₂, rfl, hp, hreturn⟩
  · exact h.printed _ _ hp
  · obtain ⟨rfl, hunprinted⟩ := hhandler failure t₂ a hreturn
    rw [List.append_nil, h _ _ hp, unprintedBy, thrownBy, List.filterMap_cons, hunprinted]
    rfl

end Reports

/-! ## The release -/

section Release
variable {config : RuntimeConfig} {context : RuntimeContext} {t : List RuntimeEvent}

/-- A pipeline that failed has not returned. -/
theorem releaseAction_error {failure : Failure}
    (h : Runs (RuntimeEngine.releaseAction config context) t (.error failure)) :
    ¬ Released t := by
  rcases runs_tryCatch.mp h with ⟨_, -, herror⟩ | ⟨e, t₁, t₂, rfl, hpipeline, hhandler⟩
  · cases herror
  · rw [released_append, not_or]
    constructor
    · rw [runs_perform.mp hpipeline]
      rintro ⟨e', hmem, -, hfailed⟩
      rw [List.mem_singleton.mp hmem] at hfailed
      cases hfailed
    · exact not_released (Only.bind (only_whenConfigured (only_markErrored fun _ => rfl))
        (fun _ => Only.bind only_done fun _ => only_done)) hhandler

/-- Where it returns, the pipeline did. -/
theorem printed_releaseAction : Printed (RuntimeEngine.releaseAction config context) := by
  intro t a hr
  rcases runs_tryCatch.mp hr with ⟨a, hp, -⟩ | ⟨failure, t₁, t₂, rfl, hp, hhandler⟩
  · exact forwards_perform.printed _ _ hp
  · obtain ⟨_, _, _, -, -, hthrow⟩ := runs_bind_ok.mp hhandler
    obtain ⟨_, _, _, -, -, hthrow⟩ := runs_bind_ok.mp hthrow
    cases (runs_done.mp hthrow).2

theorem forwards_markReleased : Forwards (do
    let releasedAt ← ask .now
    ask (.markReleased context.businessTransactionId context releasedAt)) :=
  forwards_perform.bind fun _ => forwards_perform

theorem reports_recordExecution : Reports (RuntimeEngine.recordExecution config context) := by
  refine reports_tryCatch ?_ fun failure => ⟨.executionRecordIncomplete
    context.businessTransactionId context.authorizationId failure.message, rfl, ?_⟩
  · refine forwards_hooks.bind fun _ => forwards_hooks.bind fun _ => ?_
    refine Forwards.bind ?_ fun _ => forwards_hooks.bind fun _ => forwards_done rfl
    unfold BusinessTrustPipeline.execute
    split
    · exact forwards_done rfl
    · refine Forwards.bind ?_ fun _ => forwards_perform.bind fun _ =>
        forwards_perform.bind fun _ => forwards_done rfl
      unfold buildEvidenceAnchor
      dsimp only
      split
      · exact forwards_done rfl
      · exact forwards_perform.bind fun _ => forwards_done rfl
  · unfold RuntimeEngine.recordIncomplete
    rw [logged_eq]
    cases failure.unprinted <;> rfl

/-- **What the release stage throws after the pipeline returned is a report**, unless a call
threw an error without a text. -/
theorem release_reported {r : Except Failure (RuntimeContext × ExecutionTrustRecord)}
    (h : Runs (RuntimeEngine.release config context) t r) (hreleased : Released t) :
    isReported r = true ↔
      ∀ thrown ∈ t.filterMap unprintedOf, thrown.isRecordIncomplete = true := by
  have hready : (whenConfigured config.signingReadiness () (ask .assertReady)).Straight
      (fun call => call.isPreparing) := straight_whenConfigured (straight_perform.mpr rfl)
  have hprepare : (whenConfigured config.executionIntents ()
      (ExecutionIntentService.prepare context)).Straight (fun call => call.isRelease = false) :=
    straight_whenConfigured (straight_prepare
      (fun _ ho => RuntimeCall.not_release_of_preparing (RuntimeCall.isPreparing_of_ordinary ho))
      (fun _ => rfl) context)
  have hready' : ∀ {t r}, Runs (whenConfigured config.signingReadiness () (ask .assertReady)) t r →
      ¬ Released t :=
    not_released (hready.only.mono fun _ h => RuntimeCall.not_release_of_preparing h)
  unfold RuntimeEngine.release at h
  -- the signing readiness and the intent come before the pipeline
  rcases runs_bind.mp h with ⟨_, hfirst, -⟩ | ⟨_, t₁, t₂, rfl, hfirst, h₂⟩
  · exact absurd hreleased (hready' hfirst)
  rw [released_append, or_iff_right (hready' hfirst)] at hreleased
  rw [unprinted_of_append, printed_of_straight hready _ _ hfirst, List.nil_append]
  rcases runs_bind.mp h₂ with ⟨_, hintent, -⟩ | ⟨_, t₃, t₄, rfl, hintent, h₄⟩
  · exact absurd hreleased (not_released hprepare.only hintent)
  rw [released_append, or_iff_right (not_released hprepare.only hintent)] at hreleased
  rw [unprinted_of_append, printed_of_straight hprepare _ _ hintent, List.nil_append]
  rcases runs_bind.mp h₄ with ⟨_, haction, -⟩ | ⟨processed, t₅, t₆, rfl, haction, h₆⟩
  · exact absurd hreleased (releaseAction_error haction)
  rw [unprinted_of_append, printed_releaseAction _ _ haction, List.nil_append]
  -- what follows reports its failures
  have hmark : Reports (whenConfigured config.executionIntents ()
      (ExecutionIntentService.markReleased processed)) := reports_of_thrown fun _ _ =>
    whenConfigured_thrown fun _ _ => bestEffort_thrown forwards_markReleased
  have hprinted : Printed (whenConfigured config.executionIntents ()
      (ExecutionIntentService.markReleased processed)) :=
    printed_whenConfigured (printed_bestEffort forwards_markReleased)
  exact Reports.bind hmark hprinted (fun _ => Reports.bind reports_recordExecution
    (printed_of_straight (plain_recordExecution processed)) fun _ => reports_pure) _ _ h₆

end Release

/-! ## Before the release -/

section Preparation
variable {config : RuntimeConfig} {transaction : BusinessTransaction}

theorem printed_loadPolicy : Printed (RuntimeEngine.loadPolicy config transaction) := by
  refine forwards_hooks.printed.bind fun _ => Printed.bind ?_ fun policy => ?_
  · refine forwards_perform.printed.bind fun policy => printed_done.bind fun _ => ?_
    exact forwards_perform.printed.bind fun _ => printed_done
  · refine forwards_hooks.printed.bind fun _ => ?_
    exact forwards_perform.printed.bind fun _ => printed_done

/-- The error of the resolver of anchors is logged. -/
theorem printed_resolveAnchor {policy : Json} {policyContentHash : JsString} :
    Printed (RuntimeEngine.resolveAnchor config policy policyContentHash) := by
  refine printed_whenConfigured (printed_tryCatch ?_ ?_)
  · exact forwards_perform.bind fun _ => forwards_done rfl
  · intro failure t a hr
    rw [logged_eq] at hr
    cases hunprinted : failure.unprinted with
    | none =>
      rw [hunprinted] at hr
      exact ⟨(runs_done.mp hr).1, rfl⟩
    | some thrown =>
      rw [hunprinted] at hr
      cases (runs_done.mp hr).2

theorem printed_checkPolicy {policy : Json} {policyContentHash : JsString} :
    Printed (RuntimeEngine.checkPolicy config transaction policy policyContentHash) := by
  refine (printed_whenConfigured forwards_perform.printed).bind fun _ => ?_
  refine (printed_whenConfigured forwards_perform.printed).bind fun _ => ?_
  exact (printed_whenConfigured printed_done).bind fun _ => printed_done

theorem printed_decide {policy : Json} {findings : PolicyFindings} :
    Printed (RuntimeEngine.decide config transaction policy findings) := by
  refine forwards_hooks.printed.bind fun _ => printed_done.bind fun _ => ?_
  refine (printed_whenConfigured forwards_perform.printed).bind fun _ => ?_
  exact forwards_hooks.printed.bind fun _ => forwards_hooks.printed.bind fun _ => printed_done

theorem printed_authorize {policyDecision : PolicyDecision} {decision : Decision}
    {policyContentHash : JsString} : Printed (RuntimeEngine.authorize config transaction
      policyDecision decision policyContentHash) := by
  refine printed_done.bind fun _ => printed_done.bind fun _ => ?_
  refine forwards_hooks.printed.bind fun _ => forwards_perform.printed.bind fun _ => ?_
  exact forwards_perform.printed.bind fun _ => forwards_hooks.printed.bind fun _ => printed_done

/-- **Where the engine gets to the release, every error so far had a text.** -/
theorem printed_prepareExecution : Printed (RuntimeEngine.prepareExecution config transaction) := by
  refine printed_loadPolicy.bind ?_
  rintro ⟨policy, policyContentHash⟩
  refine printed_resolveAnchor.bind fun anchor => ?_
  refine printed_checkPolicy.bind fun findings => ?_
  refine printed_decide.bind fun policyDecision => ?_
  refine (Printed.bind forwards_perform.printed fun _ => printed_done).bind fun decision => ?_
  refine Printed.bind (fun _ _ hr => recordRefusal_thrown hr) fun _ => ?_
  refine printed_authorize.bind fun authorization => ?_
  refine (printed_of_straight (plain_executionBuilder decision)).bind fun execution => ?_
  exact forwards_hooks.printed.bind fun _ => forwards_hooks.printed.bind fun _ => printed_done

theorem quiet_prepareExecution {t : List RuntimeEvent} {r : Except Failure RuntimeContext}
    (h : Runs (RuntimeEngine.prepareExecution config transaction) t r) :
    ∀ e ∈ t, e.1.isErrorHook = false :=
  fun e he => (only_prepareExecution.of_runs h e he).2.1

end Preparation

/-! ## The engine and the runtime -/

section Execute
variable {config : RuntimeConfig} {transaction : BusinessTransaction} {t : List RuntimeEvent}

/-- Where a hook of an error ran, the errors of other calls that have no text are replaced
as the hooks say. -/
theorem keepsReport_hooked {t' : List RuntimeEvent}
    (hquiet : ∀ e ∈ t, e.1.isErrorHook = false) (hhooks : ∀ e ∈ t', e.1.isErrorHook = true) :
    KeepsReport (t ++ t') ↔ (∀ e ∈ t', replacesReport e = false) ∧
      ((∃ e ∈ t', failed e) ∨ ∀ e ∈ t, spoilsReport e = false) := by
  have hspoils : ∀ e ∈ t', spoilsReport e = false := by
    intro e he
    rw [spoilsReport, hhooks e he]
    rfl
  have hfailed : (∃ e ∈ t ++ t', e.1.isErrorHook ∧ failed e) ↔ ∃ e ∈ t', failed e := by
    constructor
    · rintro ⟨e, he, hhook, hfailed⟩
      rcases List.mem_append.mp he with he | he
      · rw [hquiet e he] at hhook
        exact absurd hhook Bool.false_ne_true
      · exact ⟨e, he, hfailed⟩
    · rintro ⟨e, he, hfailed⟩
      exact ⟨e, List.mem_append_right _ he, hhooks e he, hfailed⟩
  -- only hooks replace a report, and only other calls spoil one
  unfold KeepsReport
  rw [hfailed, List.forall_mem_append, List.forall_mem_append,
    and_iff_right (not_replacesReport hquiet), and_iff_left hspoils]

theorem engine_reported {r : Except Failure (RuntimeContext × ExecutionTrustRecord)}
    (h : Runs (RuntimeEngine.execute config transaction) t r) (hreleased : Released t) :
    isReported r = true ↔ KeepsReport t := by
  rcases runs_bind.mp h with ⟨_, hprepare, -⟩ | ⟨context, t₁, t₂, rfl, hprepare, hrelease⟩
  · exact absurd hreleased (not_released (only_prepareExecution.mono fun _ h => h.1) hprepare)
  rw [released_append, or_iff_right
    (not_released (only_prepareExecution.mono fun _ h => h.1) hprepare)] at hreleased
  have hquiet₁ := quiet_prepareExecution hprepare
  have hquiet₂ : ∀ {t r}, Runs (RuntimeEngine.release config context) t r →
      ∀ e ∈ t, e.1.isErrorHook = false := fun hr e he =>
    RuntimeCall.not_errorHook_of_releasing (releasing_release.of_runs hr e he)
  -- before the release no error without a text goes unnoticed
  have hspoils₁ := not_spoilsReport (printed_prepareExecution _ _ hprepare)
  rcases runs_tryCatch.mp hrelease with ⟨a, hok, rfl⟩ | ⟨failure, t₃, t₄, rfl, herror, hhandler⟩
  · have hquiet := List.forall_mem_append.mpr ⟨hquiet₁, hquiet₂ hok⟩
    rw [release_reported hok hreleased, keepsReport_of_quiet hquiet, List.forall_mem_append,
      and_iff_right hspoils₁, spoilsReport_iff (hquiet₂ hok)]
  · have hhooks : ∀ e ∈ t₄, e.1.isErrorHook = true :=
      (Only.bind only_errorHooks (fun _ => only_done)).of_runs hhandler
    have hhandlerReleased : ¬ Released t₄ := not_released
      (Only.bind (only_hooks fun _ => rfl) (fun _ => only_done)) hhandler
    rw [released_append, or_iff_left hhandlerReleased] at hreleased
    have hquiet := List.forall_mem_append.mpr ⟨hquiet₁, hquiet₂ herror⟩
    rw [← List.append_assoc, keepsReport_hooked hquiet hhooks, List.forall_mem_append,
      and_iff_right hspoils₁, spoilsReport_iff (hquiet₂ herror),
      ← release_reported herror hreleased]
    exact rethrow_reported hhandler

theorem reports_finish {executionIntents : Bool} {context : RuntimeContext}
    {trustRecord : ExecutionTrustRecord} :
    Reports (Runtime.finish executionIntents context trustRecord) := by
  have hmark : Forwards (do
      let finalizedAt ← ask .now
      ask (.markFinalized trustRecord.businessTransactionId trustRecord.trustRecordId .inline
        finalizedAt)) := forwards_perform.bind fun _ => forwards_perform
  have hstore : Reports (Runtime.storeRecord trustRecord) := by
    refine reports_tryCatch forwards_perform fun failure => ⟨.executionRecordIncomplete
      trustRecord.businessTransactionId (trustRecord.authorization.map (·.payload.authorizationId))
      failure.message, rfl, ?_⟩
    rw [logged_eq]
    cases failure.unprinted <;> rfl
  have hstored : Printed (Runtime.storeRecord trustRecord) := by
    refine printed_tryCatch forwards_perform fun failure t a hr => ?_
    obtain ⟨e, heq⟩ := logged_throws (α := Unit) failure (.executionRecordIncomplete
      trustRecord.businessTransactionId (trustRecord.authorization.map (·.payload.authorizationId))
      failure.message)
    rw [heq] at hr
    cases (runs_done.mp hr).2
  refine Reports.bind hstore hstored fun _ => ?_
  have hmarked : Reports (whenConfigured executionIntents () (ExecutionIntentService.markFinalized
      trustRecord.businessTransactionId trustRecord.trustRecordId .inline)) :=
    reports_of_thrown fun _ _ => whenConfigured_thrown fun _ _ => bestEffort_thrown hmark
  exact Reports.bind hmarked (printed_whenConfigured (printed_bestEffort hmark))
    fun _ => reports_pure

theorem only_finish {executionIntents : Bool} {context : RuntimeContext}
    {trustRecord : ExecutionTrustRecord} :
    (Runtime.finish executionIntents context trustRecord).Only
      (fun call => call.isRelease = false ∧ call.isErrorHook = false) := by
  refine Only.bind (Only.tryCatch (only_perform.mpr ⟨rfl, rfl⟩)
    (fun _ => Only.bind only_done fun _ => only_done)) (fun _ => ?_)
  refine Only.bind (only_whenConfigured (only_bestEffort ?_)) (fun _ => only_done)
  exact Only.bind (only_perform.mpr ⟨rfl, rfl⟩) (fun _ => only_perform.mpr ⟨rfl, rfl⟩)

/-- Where the engine returns a record, none of its error hooks ran. -/
theorem quiet_engine {a : RuntimeContext × ExecutionTrustRecord}
    (h : Runs (RuntimeEngine.execute config transaction) t (.ok a)) :
    ∀ e ∈ t, e.1.isErrorHook = false := by
  obtain ⟨context, t₁, t₂, rfl, hprepare, hrelease⟩ := runs_bind_ok.mp h
  refine List.forall_mem_append.mpr ⟨quiet_prepareExecution hprepare, ?_⟩
  rcases runs_tryCatch.mp hrelease with ⟨a, hok, -⟩ | ⟨failure, t₃, t₄, -, -, hhandler⟩
  · exact fun e he =>
      RuntimeCall.not_errorHook_of_releasing (releasing_release.of_runs hok e he)
  · obtain ⟨_, _, _, -, -, hthrow⟩ := runs_bind_ok.mp hhandler
    cases (runs_done.mp hthrow).2

/-- **After a release the caller is told, exactly when its report is kept**: in every run of
the runtime in which the pipeline returned, the result is the record or an incomplete record
if and only if no hook of an error threw another error and, where another call threw an error
without a text, a hook of an error threw an incomplete record (or what `String` threw was
one). -/
theorem Runtime.execute_reports_iff (config : RuntimeConfig) (executionIntents : Bool)
    (transaction : BusinessTransaction) (t : List RuntimeEvent)
    (r : Except Failure (RuntimeContext × ExecutionTrustRecord))
    (h : Runs (Runtime.execute config executionIntents transaction) t r) (hreleased : Released t) :
    isReported r = true ↔ KeepsReport t := by
  rcases runs_bind.mp h with ⟨failure, hengine, rfl⟩ | ⟨⟨context, trustRecord⟩, t₁, t₂, rfl,
    hengine, hfinish⟩
  · exact engine_reported hengine hreleased
  · -- the engine returned a record, so its report is kept
    have hquiet₁ := quiet_engine hengine
    have hquiet₂ : ∀ e ∈ t₂, e.1.isErrorHook = false :=
      fun e he => (only_finish.of_runs hfinish e he).2
    have hlater : ¬ Released t₂ := not_released (only_finish.mono fun _ h => h.1) hfinish
    rw [released_append, or_iff_left hlater] at hreleased
    have hkept := (engine_reported hengine hreleased).mp rfl
    rw [keepsReport_of_quiet (List.forall_mem_append.mpr ⟨hquiet₁, hquiet₂⟩),
      List.forall_mem_append, and_iff_right ((keepsReport_of_quiet hquiet₁).mp hkept),
      spoilsReport_iff hquiet₂]
    exact reports_finish _ _ hfinish

end Execute

/-! ## A report that is replaced -/

namespace Sample

/-- The signer of trust records and the hook of an error. -/
def isSealOrErrorHook : RuntimeCall → Bool
  | .seal (.trustRecord _) => true
  | other => other.isErrorHook

/-- The store of trust records. -/
def isStore : RuntimeCall → Bool
  | .createTrustRecord _ => true
  | _ => false

/-- The events of the sample request to the runtime, and its result. -/
def runtimeEvents (broken : RuntimeCall → Bool) : List RuntimeEvent :=
  (Runtime.execute config true transaction).events
    (fun call (_ : Unit) => (breaking broken call, ())) ()

def runtimeResult (broken : RuntimeCall → Bool) :
    Except Failure (RuntimeContext × ExecutionTrustRecord) :=
  ((Runtime.execute config true transaction).runState
    (fun call (_ : Unit) => (breaking broken call, ())) ()).1

theorem runtime_runs (broken : RuntimeCall → Bool) :
    Runs (Runtime.execute config true transaction) (runtimeEvents broken) (runtimeResult broken) :=
  Program.runs_events _ _ _

/-- The collaborators, with a store of trust records that throws an object without a
prototype. -/
def unprintingStore (call : RuntimeCall) : Except Failure call.Answer :=
  if isStore call then .error (.unprintable .typeError) else answer call

end Sample

/-- The record of a released action cannot be signed, the hook of the error throws,
and the caller gets the hook's error; and a store that throws what has no text puts the error
of `String` in the place of the report, with no hook at fault. -/
theorem brokenHook_unreported :
    (∃ t r, Runs (Runtime.execute Sample.config true Sample.transaction) t r ∧ Released t ∧
      isReported r = false) ∧
    ∃ t r, Runs (Runtime.execute Sample.config true Sample.transaction) t r ∧ Released t ∧
      (∀ e ∈ t, replacesReport e = false) ∧ isReported r = false := by
  refine ⟨⟨_, _, Sample.runtime_runs Sample.isSealOrErrorHook, released_iff_any.mpr (by decide),
    by decide⟩, ?_⟩
  exact ⟨_, _, Program.runs_events (fun call (_ : Unit) => (Sample.unprintingStore call, ())) _ (),
    released_iff_any.mpr (by decide), by decide, by decide⟩

/-- A record that cannot be stored is reported. -/
theorem brokenStore_reported : isReported (Sample.runtimeResult Sample.isStore) = true :=
  (Runtime.execute_reports_iff Sample.config true Sample.transaction _ _
    (Sample.runtime_runs Sample.isStore) (released_iff_any.mpr (by decide))).mpr (by decide)

end Parmana

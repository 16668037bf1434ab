import Parmana.Crypto.ExecutionChain
import Parmana.Gateway.Completeness

/-! # The execution component

The stage of the pipeline that carries an approved transaction out.  An execution is
stored as `PROCESSING`, the execution system is called once, and then the evidence is
attached and the execution completed, each a signature of the changed execution and a
write of it.  All of it is inside one `try`, and whatever throws there marks the execution
`FAILED`.

So an execution that was carried out is marked `FAILED` when what comes after the call
does not go through.  What the code does after the result is back is listed in full
(`afterResult_cases`), and the run is recorded as it went exactly when every signature and
write after the result succeeds, or the `FAILED` execution could not be signed either
(`recorded_iff`).
-/
namespace Parmana
open Js Interaction Interaction.Program Gateway

/-! ## Executions -/

/-- `Execution`, with the fields the execution service writes. -/
structure ExecutionArtifact extends Execution where
  mode : JsString
  startedAt : Int
  completedAt : Option Int
  metadata : Fields
  chain : Option Crypto.ExecutionChainFields

/-- `execution.previousChainHash ?? null`. -/
def ExecutionArtifact.previousChainHash (execution : ExecutionArtifact) : Option JsString :=
  execution.chain.bind Crypto.ExecutionChainFields.previousChainHash

/-- `ExecutionResult`, what the execution system answers. -/
structure ExecutionResult where
  businessTransactionId : JsString
  action : JsString
  target : JsString
  parameters : Fields
  success : Bool
  executedAt : Int
  metadata : Option Fields

/-- `ExecutionEvidenceBuilder.build`, a date as it is written. -/
def ExecutionEvidenceBuilder.build (result : ExecutionResult) : Json :=
  let fields : Fields :=
    [("businessTransactionId", .str result.businessTransactionId), ("action", .str result.action),
      ("target", .str result.target), ("parameters", .obj result.parameters),
      ("success", .bool result.success), ("executedAt", .str (toISOString result.executedAt))]
  match result.metadata with
  | none => .obj fields
  | some metadata => .obj (fields ++ ([("attributes", .obj metadata)] : Fields))

/-- The calls of the component and of its service. -/
inductive ExecutionCall where
  /-- `transactions.findById`: whether the transaction is there. -/
  | findTransaction (businessTransactionId : JsString)
  /-- `chainCrypto.chain`: it signs with the configured signer. -/
  | chain (draft : ExecutionArtifact) (previousChainHash : Option JsString)
  | appendExecution (execution : ExecutionArtifact)
  | replaceExecution (execution : ExecutionArtifact)
  /-- `executionSystem.execute`. -/
  | executeSystem (request : ExecutionRequest)

abbrev ExecutionCall.Answer : ExecutionCall → Type
  | .findTransaction _ => Bool
  | .chain .. => Crypto.ExecutionChainFields
  | .appendExecution _ | .replaceExecution _ => Unit
  | .executeSystem _ => ExecutionResult

abbrev ExecutionProgram := Program ExecutionCall ExecutionCall.Answer Failure

abbrev ExecutionEvent := Event ExecutionCall ExecutionCall.Answer Failure

/-- The identifier and the times a run draws. -/
structure Drawn where
  executionId : JsString
  startedAt : Int
  completedAt : Int
  failedAt : Int

/-! ## The service -/

namespace ExecutionService

def create (drawn : Drawn) (businessTransactionId : JsString) (decision : Decision)
    (mode : JsString) (metadata : Fields) : ExecutionProgram ExecutionArtifact := do
  let found ← perform (.findTransaction businessTransactionId)
  if !found then
    throw (.parmanaError
      (("Business Transaction '" : JsString) ++ businessTransactionId ++ "' not found.")
      "BUSINESS_TRANSACTION_NOT_FOUND")
  let draft : ExecutionArtifact := {
    executionId := drawn.executionId, businessTransactionId, decision, status := .processing
    evidence := none, mode, startedAt := drawn.startedAt, completedAt := none, metadata
    chain := none }
  let chain ← perform (.chain draft none)
  let execution := { draft with chain := some chain }
  perform (ExecutionCall.appendExecution execution)
  return execution

/-- `rechain` and `replaceExecution`: signs a changed execution, and stores it. -/
def replace (original draft : ExecutionArtifact) : ExecutionProgram ExecutionArtifact := do
  let chain ← perform (.chain draft original.previousChainHash)
  let updated := { draft with chain := some chain }
  perform (ExecutionCall.replaceExecution updated)
  return updated

def attachEvidence (execution : ExecutionArtifact) (evidence : Json) :
    ExecutionProgram ExecutionArtifact :=
  replace execution { execution with evidence := some evidence }

def complete (drawn : Drawn) (execution : ExecutionArtifact) : ExecutionProgram ExecutionArtifact :=
  replace execution
    { execution with status := .completed, completedAt := some drawn.completedAt }

def fail (drawn : Drawn) (execution : ExecutionArtifact) : ExecutionProgram ExecutionArtifact :=
  replace execution { execution with status := .failed, completedAt := some drawn.failedAt }

end ExecutionService

/-! ## The component -/

namespace ExecutionComponent
open ExecutionService

/-- The `catch` around a part of the run, with the execution the variable holds there. -/
def orFail {α : Type} (drawn : Drawn) (execution : ExecutionArtifact) (p : ExecutionProgram α) :
    ExecutionProgram α :=
  tryCatch p fun error => do
    let _ ← fail drawn execution
    throw error

/-- What is done with the result of the execution system. -/
def afterResult (drawn : Drawn) (context : RuntimeContext) (execution : ExecutionArtifact)
    (response : ExecutionResult) : ExecutionProgram RuntimeContext := do
  let attached ← orFail drawn execution
    (attachEvidence execution (ExecutionEvidenceBuilder.build response))
  let completed ← orFail drawn attached (complete drawn attached)
  return { context with execution := some completed.toExecution }

/-- `ExecutionComponent.execute`, for a context that has its decision. -/
def execute (drawn : Drawn) (context : RuntimeContext) : ExecutionProgram RuntimeContext := do
  match context.authorization with
  | none => throw (.error "Signed Execution Authorization must exist before Execution.")
  | some authorization =>
    let execution ← create drawn context.transaction.businessTransactionId context.decision "SYNC"
      [("authorizationId", .str authorization.payload.authorizationId)]
    let response ← orFail drawn execution do
      let request ← Program.done (ExecutionRequestBuilder.build context.transaction authorization)
      perform (ExecutionCall.executeSystem request)
    afterResult drawn context execution response

end ExecutionComponent

/-! ## What a run says of the execution -/

section Events

/-- What the execution system returned, and the events after it. -/
def returned? : List ExecutionEvent → Option (ExecutionResult × List ExecutionEvent)
  | [] => none
  | ⟨.executeSystem _, .ok response⟩ :: t => some (response, t)
  | _ :: t => returned? t

/-- The execution is marked `FAILED`: a write of it as failed was made, whether or not it
was answered. -/
def MarkedFailed (t : List ExecutionEvent) : Prop :=
  ∃ execution answer, ⟨.replaceExecution execution, answer⟩ ∈ t ∧ execution.status = .failed

/-- The evidence of the result is attached. -/
def EvidenceAttached (response : ExecutionResult) (t : List ExecutionEvent) : Prop :=
  ∃ execution, ⟨.replaceExecution execution, .ok ()⟩ ∈ t ∧
    execution.evidence = some (ExecutionEvidenceBuilder.build response)

/-- The error that says the action was executed and its record is incomplete. -/
def IsIncomplete (r : Except Failure RuntimeContext) : Prop :=
  ∃ businessTransactionId authorizationId cause,
    r = .error (.executionRecordIncomplete businessTransactionId authorizationId cause)

/-- An execution is marked `FAILED` only if the execution system returned no result; when it
returned one, the evidence is attached or the incomplete-record error is raised. -/
def Recorded (t : List ExecutionEvent) (r : Except Failure RuntimeContext) : Prop :=
  ∀ response rest, returned? t = some (response, rest) →
    ¬ MarkedFailed t ∧ (EvidenceAttached response t ∨ IsIncomplete r)

/-- Which of the events succeeded. -/
def outcomes (t : List ExecutionEvent) : List Bool := t.map fun event => event.2.toBool

/-- The last of the events threw the incomplete-record error by itself. -/
def IncompleteLast (rest : List ExecutionEvent) : Prop :=
  ∃ op businessTransactionId authorizationId cause, rest.getLast? =
    some ⟨op, .error (.executionRecordIncomplete businessTransactionId authorizationId cause)⟩

/-- After the result every signature and write succeeds; or the evidence is attached, the
execution is not completed, and the `FAILED` execution is not signed; or the evidence is
not attached, and the signer, asked to sign the `FAILED` execution, throws the
incomplete-record error. -/
def Settles (rest : List ExecutionEvent) : Prop :=
  outcomes rest = [true, true, true, true] ∨ outcomes rest = [true, true, false, false] ∨
    outcomes rest = [true, true, true, false, false] ∨
    (outcomes rest = [false, false] ∨ outcomes rest = [true, false, false]) ∧ IncompleteLast rest

end Events

/-! ## What a replacement does -/

section Replace
open ExecutionService ExecutionComponent
variable {drawn : Drawn} {context : RuntimeContext} {execution : ExecutionArtifact}
variable {original draft : ExecutionArtifact} {response : ExecutionResult}

theorem runs_replace {t : List ExecutionEvent} {r : Except Failure ExecutionArtifact}
    (h : Runs (replace original draft) t r) :
    (∃ e, t = [⟨.chain draft original.previousChainHash, .error e⟩] ∧ r = .error e) ∨
      ∃ chain answer, t = [⟨.chain draft original.previousChainHash, .ok chain⟩,
          ⟨.replaceExecution { draft with chain := some chain }, answer⟩] ∧
        r = answer.map fun _ => { draft with chain := some chain } := by
  unfold replace at h
  rw [runs_perform_bind] at h
  obtain ⟨e, rfl, rfl⟩ | ⟨chain, t', rfl, h⟩ := h
  · exact .inl ⟨e, rfl, rfl⟩
  · rw [runs_perform_bind] at h
    obtain ⟨e, rfl, rfl⟩ | ⟨u, t'', rfl, h⟩ := h
    · exact .inr ⟨chain, .error e, rfl, rfl⟩
    · obtain ⟨rfl, rfl⟩ := runs_done.mp h
      exact .inr ⟨chain, .ok u, rfl, rfl⟩

/-- The three ways a guarded replacement ends: stored; not stored and the `FAILED`
execution not signed; not stored and the execution marked `FAILED`. -/
inductive Replacing (draft : ExecutionArtifact) : List ExecutionEvent →
    Except Failure ExecutionArtifact → Prop where
  | stored (prev : Option JsString) (chain : Crypto.ExecutionChainFields) :
      Replacing draft [⟨.chain draft prev, .ok chain⟩,
        ⟨.replaceExecution { draft with chain := some chain }, .ok ()⟩]
        (.ok { draft with chain := some chain })
  | unsigned {t : List ExecutionEvent} {e : Failure}
      (houtcomes : outcomes t = [false, false] ∨ outcomes t = [true, false, false])
      (hunmarked : ¬ MarkedFailed t) (hnone : ∀ x, ⟨.replaceExecution x, .ok ()⟩ ∉ t)
      (hlast : ∃ op, t.getLast? = some ⟨op, .error e⟩) : Replacing draft t (.error e)
  | marked {t : List ExecutionEvent} {e : Failure} (b : Bool)
      (houtcomes : outcomes t = [false, true, b] ∨ outcomes t = [true, false, true, b])
      (hmarked : MarkedFailed t) : Replacing draft t (.error e)

theorem runs_orFail {α : Type} {p : ExecutionProgram α} {t : List ExecutionEvent}
    {r : Except Failure α} (h : Runs (orFail drawn execution p) t r) :
    (∃ a, Runs p t (.ok a) ∧ r = .ok a) ∨
      ∃ error t₁ t₂ failed prev, t = t₁ ++ t₂ ∧ Runs p t₁ (.error error) ∧
        failed.status = .failed ∧
        ((∃ e, t₂ = [⟨.chain failed prev, .error e⟩] ∧ r = .error e) ∨
          ∃ chain answer e, t₂ = [⟨.chain failed prev, .ok chain⟩,
            ⟨.replaceExecution { failed with chain := some chain }, answer⟩] ∧ r = .error e) := by
  unfold orFail at h
  rw [runs_tryCatch] at h
  obtain ⟨a, hp, rfl⟩ | ⟨error, t₁, t₂, rfl, hp, h⟩ := h
  · exact .inl ⟨a, hp, rfl⟩
  · refine .inr ⟨error, t₁, t₂, { execution with
      status := .failed, completedAt := some drawn.failedAt }, execution.previousChainHash,
      rfl, hp, rfl, ?_⟩
    rw [runs_bind] at h
    obtain ⟨e, hfail, rfl⟩ | ⟨a, t₃, t₄, rfl, hfail, h⟩ := h
    · obtain ⟨e', rfl, he⟩ | ⟨chain, answer, rfl, -⟩ := runs_replace hfail
      · cases he
        exact .inl ⟨e, rfl, rfl⟩
      · exact .inr ⟨chain, answer, e, rfl, rfl⟩
    · obtain ⟨rfl, rfl⟩ := runs_done.mp h
      obtain ⟨e', rfl, he⟩ | ⟨chain, answer, rfl, -⟩ := runs_replace hfail
      · cases he
      · exact .inr ⟨chain, answer, error, by simp, rfl⟩

theorem replacing_of_runs {t : List ExecutionEvent} {r : Except Failure ExecutionArtifact}
    (hdraft : draft.status ≠ .failed)
    (h : Runs (orFail drawn execution (replace original draft)) t r) : Replacing draft t r := by
  obtain ⟨a, hp, rfl⟩ | ⟨error, t₁, t₂, failed, prev, rfl, hp, hfailed, hfail⟩ :=
    runs_orFail h
  · obtain ⟨e, -, he⟩ | ⟨chain, answer, rfl, ha⟩ := runs_replace hp
    · cases he
    · cases answer with
      | error e => cases ha
      | ok u =>
        cases ha
        exact .stored _ chain
  · -- The replacement failed at the signature or at the write, and so may the marking.
    obtain ⟨e', rfl, -⟩ | ⟨chain', answer', rfl, ha⟩ := runs_replace hp
    · obtain ⟨e, rfl, rfl⟩ | ⟨chain, answer, e, rfl, rfl⟩ := hfail
      · exact .unsigned (.inl rfl) (by simp [MarkedFailed]) (by simp) ⟨_, rfl⟩
      · exact .marked answer.toBool (.inl rfl)
          ⟨{ failed with chain := some chain }, answer, by simp, hfailed⟩
    · cases answer' with
      | ok u => cases ha
      | error e' =>
        obtain ⟨e, rfl, rfl⟩ | ⟨chain, answer, e, rfl, rfl⟩ := hfail
        · refine .unsigned (.inr rfl) ?_ (by simp) ⟨_, rfl⟩
          rintro ⟨x, answer, hx, hstatus⟩
          simp at hx
          obtain ⟨rfl, -⟩ := hx
          exact hdraft hstatus
        · exact .marked answer.toBool (.inr rfl)
            ⟨{ failed with chain := some chain }, answer, by simp, hfailed⟩

/-! ## What the component does after the result -/

@[simp] theorem markedFailed_append {t t' : List ExecutionEvent} :
    MarkedFailed (t ++ t') ↔ MarkedFailed t ∨ MarkedFailed t' := by
  constructor
  · rintro ⟨x, answer, hx, hstatus⟩
    rcases List.mem_append.mp hx with hx | hx
    · exact .inl ⟨x, answer, hx, hstatus⟩
    · exact .inr ⟨x, answer, hx, hstatus⟩
  · rintro (⟨x, answer, hx, hstatus⟩ | ⟨x, answer, hx, hstatus⟩)
    · exact ⟨x, answer, List.mem_append_left _ hx, hstatus⟩
    · exact ⟨x, answer, List.mem_append_right _ hx, hstatus⟩

@[simp] theorem outcomes_cons {event : ExecutionEvent} {t : List ExecutionEvent} :
    outcomes (event :: t) = event.2.toBool :: outcomes t := rfl

@[simp] theorem outcomes_append {t t' : List ExecutionEvent} :
    outcomes (t ++ t') = outcomes t ++ outcomes t' := List.map_append

theorem not_markedFailed_stored {prev : Option JsString} {chain : Crypto.ExecutionChainFields}
    (hdraft : draft.status ≠ .failed) :
    ¬ MarkedFailed [⟨.chain draft prev, .ok chain⟩,
      ⟨.replaceExecution { draft with chain := some chain }, .ok ()⟩] := by
  rintro ⟨x, answer, hx, hstatus⟩
  simp at hx
  obtain ⟨rfl, -⟩ := hx
  exact hdraft hstatus

theorem evidenceAttached_stored {prev : Option JsString} {chain : Crypto.ExecutionChainFields}
    {t : List ExecutionEvent}
    (hdraft : draft.evidence = some (ExecutionEvidenceBuilder.build response)) :
    EvidenceAttached response ([⟨.chain draft prev, .ok chain⟩,
      ⟨.replaceExecution { draft with chain := some chain }, .ok ()⟩] ++ t) :=
  ⟨{ draft with chain := some chain },
    List.mem_append_left _ (List.mem_cons_of_mem _ List.mem_cons_self), hdraft⟩

/-- A run after the result is one guarded replacement, and when that stores the evidence a
second one. -/
theorem afterResult_cases {rest : List ExecutionEvent} {r : Except Failure RuntimeContext}
    (hstatus : execution.status = .processing)
    (h : Runs (afterResult drawn context execution response) rest r) :
    (∃ e, Replacing { execution with evidence := some (ExecutionEvidenceBuilder.build response) }
        rest (.error e) ∧ r = .error e) ∨
      ∃ attached draft t₁ t₂ answer, rest = t₁ ++ t₂ ∧
        Replacing { execution with evidence := some (ExecutionEvidenceBuilder.build response) }
          t₁ (.ok attached) ∧ draft.status = .completed ∧ Replacing draft t₂ answer ∧
        r = answer.map fun completed =>
          { context with execution := some completed.toExecution } := by
  unfold afterResult at h
  rw [runs_bind] at h
  obtain ⟨e, hattach, rfl⟩ | ⟨attached, t₁, t₂, rfl, hattach, h⟩ := h
  · exact .inl ⟨e, replacing_of_runs (by simp [hstatus]) hattach, rfl⟩
  · have hfirst := replacing_of_runs (by simp [hstatus]) hattach
    rw [runs_bind] at h
    obtain ⟨e, hcomplete, rfl⟩ | ⟨completed, t₃, t₄, rfl, hcomplete, h⟩ := h
    · exact .inr ⟨attached, { attached with
          status := .completed, completedAt := some drawn.completedAt }, t₁, t₂, .error e, rfl,
        hfirst, rfl, replacing_of_runs (by simp) hcomplete, rfl⟩
    · obtain ⟨rfl, rfl⟩ := runs_done.mp h
      refine .inr ⟨attached, { attached with
          status := .completed, completedAt := some drawn.completedAt }, t₁, t₃ ++ [],
        .ok completed, rfl, hfirst, rfl, ?_, rfl⟩
      rw [List.append_nil]
      exact replacing_of_runs (by simp) hcomplete

/-- The part of a run after the result leaves the execution unmarked, with the evidence
attached or the incomplete-record error raised, exactly when its events settle. -/
theorem afterResult_recorded {rest : List ExecutionEvent} {r : Except Failure RuntimeContext}
    (hstatus : execution.status = .processing)
    (h : Runs (afterResult drawn context execution response) rest r) :
    (¬ MarkedFailed rest ∧ (EvidenceAttached response rest ∨ IsIncomplete r)) ↔ Settles rest := by
  obtain ⟨e, hfirst, rfl⟩ | ⟨attached, draft, t₁, t₂, answer, rfl, hfirst, hdraft, hsecond, rfl⟩ :=
    afterResult_cases hstatus h
  · cases hfirst with
    | unsigned houtcomes hunmarked hnone hlast =>
      obtain ⟨op, hlast⟩ := hlast
      constructor
      · rintro ⟨-, ⟨x, hx, -⟩ | ⟨id, authorizationId, cause, he⟩⟩
        · exact absurd hx (hnone x)
        · cases he
          exact .inr (.inr (.inr ⟨houtcomes, op, id, authorizationId, cause, hlast⟩))
      · intro hsettles
        refine ⟨hunmarked, .inr ?_⟩
        have hincomplete : IncompleteLast rest := by
          rcases houtcomes with ho | ho <;> simpa [Settles, ho] using hsettles
        obtain ⟨op', id, authorizationId, cause, hlast'⟩ := hincomplete
        rw [hlast] at hlast'
        cases hlast'
        exact ⟨id, authorizationId, cause, rfl⟩
    | marked b houtcomes hmarked =>
      refine iff_of_false (fun h => h.1 hmarked) fun hsettles => ?_
      rcases houtcomes with ho | ho <;> simp [Settles, ho] at hsettles
  · cases hfirst with
    | stored prev chain =>
      have hunmarked := @not_markedFailed_stored { execution with
        evidence := some (ExecutionEvidenceBuilder.build response) } prev chain (by simp [hstatus])
      cases hsecond with
      | stored prev' chain' =>
        refine iff_of_true ⟨?_, .inl (evidenceAttached_stored rfl)⟩ (.inl rfl)
        rw [markedFailed_append]
        exact not_or.mpr ⟨hunmarked, not_markedFailed_stored (by simp [hdraft])⟩
      | unsigned houtcomes hunmarked' hnone hlast =>
        refine iff_of_true ⟨?_, .inl (evidenceAttached_stored rfl)⟩ ?_
        · rw [markedFailed_append]
          exact not_or.mpr ⟨hunmarked, hunmarked'⟩
        · rcases houtcomes with ho | ho
          · exact .inr (.inl (by rw [outcomes_append, ho]; rfl))
          · exact .inr (.inr (.inl (by rw [outcomes_append, ho]; rfl)))
      | marked b houtcomes hmarked =>
        refine iff_of_false (fun h => h.1 (markedFailed_append.mpr (.inr hmarked)))
          fun hsettles => ?_
        rcases houtcomes with ho | ho <;>
          simp [Settles, ho, Except.toBool] at hsettles

/-! ## Every run -/

theorem returned?_append {t t' : List ExecutionEvent}
    (ht : ∀ request response, ⟨.executeSystem request, .ok response⟩ ∉ t) :
    returned? (t ++ t') = returned? t' := by
  induction t with
  | nil => rfl
  | cons event t ih =>
    have hrest := ih fun request response h => ht request response (List.mem_cons_of_mem _ h)
    obtain ⟨op, answer⟩ := event
    cases op with
    | executeSystem request =>
      cases answer with
      | ok response => exact absurd List.mem_cons_self (ht request response)
      | error e => exact hrest
    | findTransaction => exact hrest
    | chain => exact hrest
    | appendExecution => exact hrest
    | replaceExecution => exact hrest

theorem returned?_eq_none {t : List ExecutionEvent}
    (ht : ∀ request response, ⟨.executeSystem request, .ok response⟩ ∉ t) :
    returned? t = none := by
  rw [← List.append_nil t, returned?_append ht, returned?]

/-- The events of a creation: no call of the execution system, and no replacement. -/
def Creating (t : List ExecutionEvent) : Prop :=
  ∀ event ∈ t, (∀ request, event.1 ≠ .executeSystem request) ∧
    ∀ execution, event.1 ≠ .replaceExecution execution

theorem creating_of_runs {businessTransactionId mode : JsString} {decision : Decision}
    {metadata : Fields} {t : List ExecutionEvent} {r : Except Failure ExecutionArtifact}
    (h : Runs (create drawn businessTransactionId decision mode metadata) t r) :
    Creating t ∧ ∀ execution, r = .ok execution → execution.status = .processing := by
  unfold create at h
  rw [runs_perform_bind] at h
  obtain ⟨e, rfl, rfl⟩ | ⟨found, t, rfl, h⟩ := h
  · exact ⟨by simp [Creating], by rintro _ ⟨⟩⟩
  · cases found with
    | false =>
      obtain ⟨e, hthrow, rfl⟩ | ⟨a, _, _, -, hthrow, -⟩ := runs_bind.mp h
      · obtain ⟨rfl, -⟩ := runs_done.mp hthrow
        exact ⟨by simp [Creating], by rintro _ ⟨⟩⟩
      · cases (runs_done.mp hthrow).2
    | true =>
      obtain ⟨e, rfl, rfl⟩ | ⟨chain, t, rfl, happend⟩ := runs_perform_bind.mp h
      · exact ⟨by simp [Creating], by rintro _ ⟨⟩⟩
      · obtain ⟨e, rfl, rfl⟩ | ⟨u, t, rfl, hreturn⟩ := runs_perform_bind.mp happend
        · exact ⟨by simp [Creating], by rintro _ ⟨⟩⟩
        · obtain ⟨rfl, rfl⟩ := runs_done.mp hreturn
          refine ⟨by simp [Creating], ?_⟩
          rintro execution ⟨⟩
          rfl

theorem Creating.not_returned {t : List ExecutionEvent} (ht : Creating t)
    (request : ExecutionRequest) (response : ExecutionResult) :
    ⟨.executeSystem request, .ok response⟩ ∉ t := fun h => (ht _ h).1 request rfl

theorem Creating.not_markedFailed {t : List ExecutionEvent} (ht : Creating t) :
    ¬ MarkedFailed t := by
  rintro ⟨execution, answer, h, -⟩
  exact (ht _ h).2 execution rfl

/-- The guarded call of the execution system: its result alone, or no result at all. -/
theorem runs_call_system {context : RuntimeContext} {authorization : SignedExecutionAuthorization}
    {t : List ExecutionEvent} {r : Except Failure ExecutionResult}
    (h : Runs (orFail drawn execution do
      let request ← Program.done
        (ExecutionRequestBuilder.build context.transaction authorization)
      perform (ExecutionCall.executeSystem request)) t r) :
    (∃ request response, t = [⟨.executeSystem request, .ok response⟩] ∧ r = .ok response) ∨
      (∀ request response, ⟨.executeSystem request, .ok response⟩ ∉ t) ∧ ∃ e, r = .error e := by
  have hcall : ∀ {t' : List ExecutionEvent} {r' : Except Failure ExecutionResult}, Runs (do
      let request ← Program.done
        (ExecutionRequestBuilder.build context.transaction authorization)
      perform (ExecutionCall.executeSystem request)) t' r' →
      (t' = [] ∧ ∃ e, r' = .error e) ∨ ∃ request, t' = [⟨.executeSystem request, r'⟩] := by
    intro t' r' h'
    obtain ⟨e, hbuild, rfl⟩ | ⟨request, t₁, t₂, rfl, hbuild, hperform⟩ := runs_bind.mp h'
    · exact .inl ⟨(runs_done.mp hbuild).1, e, rfl⟩
    · rw [(runs_done.mp hbuild).1, runs_perform.mp hperform]
      exact .inr ⟨request, rfl⟩
  obtain ⟨response, hp, rfl⟩ | ⟨error, t₁, t₂, failed, prev, rfl, hp, -, hfail⟩ := runs_orFail h
  · obtain ⟨-, e, he⟩ | ⟨request, rfl⟩ := hcall hp
    · cases he
    · exact .inl ⟨request, response, rfl, rfl⟩
  · refine .inr ⟨?_, ?_⟩
    · obtain ⟨rfl, -⟩ | ⟨request, rfl⟩ := hcall hp <;>
        obtain ⟨e, rfl, -⟩ | ⟨chain, answer, e, rfl, -⟩ := hfail <;> simp
    · obtain ⟨e, -, rfl⟩ | ⟨chain, answer, e, -, rfl⟩ := hfail
      · exact ⟨e, rfl⟩
      · exact ⟨e, rfl⟩

/-- A run in which the execution system returned is a creation, the call, and what is done
with the result. -/
theorem execute_returned {t rest : List ExecutionEvent} {r : Except Failure RuntimeContext}
    (h : Runs (ExecutionComponent.execute drawn context) t r)
    (hreturned : returned? t = some (response, rest)) :
    ∃ execution request t₁, t = t₁ ++ ⟨.executeSystem request, .ok response⟩ :: rest ∧
      Creating t₁ ∧ execution.status = .processing ∧
      Runs (afterResult drawn context execution response) rest r := by
  unfold ExecutionComponent.execute at h
  split at h
  · obtain ⟨rfl, -⟩ := runs_done.mp h
    cases hreturned
  next authorization _ =>
    rw [runs_bind] at h
    obtain ⟨e, hcreate, rfl⟩ | ⟨execution, t₁, t₂, rfl, hcreate, h⟩ := h
    · rw [returned?_eq_none (creating_of_runs hcreate).1.not_returned] at hreturned
      cases hreturned
    · obtain ⟨hcreating, hstatus⟩ := creating_of_runs hcreate
      rw [returned?_append hcreating.not_returned] at hreturned
      rw [runs_bind] at h
      obtain ⟨e, hcall, rfl⟩ | ⟨response', t₃, t₄, rfl, hcall, h⟩ := h
      · obtain ⟨request, response', -, he⟩ | ⟨hnone, -⟩ := runs_call_system hcall
        · cases he
        · rw [returned?_eq_none hnone] at hreturned
          cases hreturned
      · obtain ⟨request, response'', rfl, he⟩ | ⟨-, e, he⟩ := runs_call_system hcall
        · cases he
          cases hreturned
          exact ⟨execution, request, t₁, rfl, hcreating, hstatus execution rfl, h⟩
        · cases he

/-- **A run that carries the action out records it as carried out exactly when what comes
after the result settles.** -/
theorem recorded_iff {t : List ExecutionEvent} {r : Except Failure RuntimeContext}
    (h : Runs (ExecutionComponent.execute drawn context) t r) :
    Recorded t r ↔ ∀ response rest, returned? t = some (response, rest) → Settles rest := by
  refine forall_congr' fun response => forall_congr' fun rest => imp_congr_right fun hreturned => ?_
  obtain ⟨execution, request, t₁, rfl, hcreating, hstatus, hafter⟩ := execute_returned h hreturned
  rw [← afterResult_recorded hstatus hafter]
  refine and_congr (not_congr ?_) (or_congr_left ?_)
  · rw [markedFailed_append]
    constructor
    · rintro (hmarked | ⟨x, answer, hx, hfailed⟩)
      · exact absurd hmarked hcreating.not_markedFailed
      · rcases List.mem_cons.mp hx with hx | hx
        · cases hx
        · exact ⟨x, answer, hx, hfailed⟩
    · rintro ⟨x, answer, hx, hfailed⟩
      exact .inr ⟨x, answer, List.mem_cons_of_mem _ hx, hfailed⟩
  · constructor
    · rintro ⟨x, hx, hevidence⟩
      rcases List.mem_append.mp hx with hx | hx
      · exact absurd rfl ((hcreating _ hx).2 x)
      · rcases List.mem_cons.mp hx with hx | hx
        · cases hx
        · exact ⟨x, hx, hevidence⟩
    · rintro ⟨x, hx, hevidence⟩
      exact ⟨x, List.mem_append_right _ (List.mem_cons_of_mem _ hx), hevidence⟩

end Replace

/-! ## A refund whose evidence is not stored -/

namespace CarriedOut
open ExecutionComponent

def drawn : Drawn := ⟨"execution-1", 1790000000000, 1790000001000, 1790000001000⟩

def decision : Decision where
  decisionId := "decision-1"
  intentId := "intent-1"
  policy := Sample.transaction.policy
  signals := []
  outcome := .approved
  reason := .undefined
  matchedRuleId := .undefined
  evaluatedRules := 1
  matchedPath := []

def context : RuntimeContext where
  transaction := Sample.transaction
  decision := decision
  authorization := some (Sample.authorization {
    decisionId := "decision-1", businessTransactionId := "tx-1", policyName := "refunds"
    policyVersion := "1", policyContentHash := "hash", signalsHash := "hash", submittedBy := none
    grantedCapability := none, tenantId := none
    executableContent := ⟨"tx-1", "refund", "order-7", []⟩ })
  execution := none
  overriding := none
  verification := none
  receipt := none

/-- The refund, carried out. -/
def response : ExecutionResult where
  businessTransactionId := "tx-1"
  action := "refund"
  target := "order-7"
  parameters := []
  success := true
  executedAt := 1790000000500
  metadata := none

/-- Every call succeeds. -/
def answer : (call : ExecutionCall) → Except Failure call.Answer
  | .findTransaction _ => .ok true
  | .chain _ prev => .ok ⟨prev, "chain-hash", ⟨"Ed25519", "default", "signature".toList⟩⟩
  | .appendExecution _ | .replaceExecution _ => .ok ()
  | .executeSystem _ => .ok response

/-- The store refuses the execution with its evidence, and takes the others. -/
def losing : (call : ExecutionCall) → Except Failure call.Answer
  | .replaceExecution execution =>
    if execution.status = .processing then .error (.error ("connect ECONNREFUSED" : String))
    else .ok ()
  | operation => answer operation

def events (answers : (call : ExecutionCall) → Except Failure call.Answer) :
    List ExecutionEvent :=
  (execute drawn context).events (fun call (_ : Unit) => (answers call, ())) ()

def result (answers : (call : ExecutionCall) → Except Failure call.Answer) :
    Except Failure RuntimeContext :=
  ((execute drawn context).runState (fun call (_ : Unit) => (answers call, ())) ()).1

end CarriedOut

open CarriedOut in
/-- The refund is recorded as carried out. -/
theorem refund_recorded : Recorded (CarriedOut.events answer) (result answer) := by
  refine (recorded_iff (runs_events _ _ _)).mpr fun response rest h => ?_
  have hrest : (returned? (CarriedOut.events answer)).map (fun p => outcomes p.2) =
      some [true, true, true, true] := rfl
  change returned? (CarriedOut.events answer) = _ at h
  rw [h] at hrest
  exact .inl (Option.some.inj hrest)

open CarriedOut in
/-- A refund that was carried out is marked `FAILED` when its evidence could not be stored. -/
theorem refund_marked_failed :
    ¬ ∀ (drawn : Drawn) (context : RuntimeContext) (t : List ExecutionEvent)
      (r : Except Failure RuntimeContext),
      Runs (ExecutionComponent.execute drawn context) t r → Recorded t r := by
  intro h
  have hrecorded := h _ _ (CarriedOut.events losing) (result losing) (runs_events _ _ _)
  have hmarked : MarkedFailed (CarriedOut.events losing) :=
    ⟨_, .ok (), List.mem_of_getElem? (i := 7) rfl, rfl⟩
  exact (hrecorded response _ rfl).1 hmarked

end Parmana

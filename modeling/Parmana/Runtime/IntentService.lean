import Parmana.Runtime.Builders

/-! # Execution intents in the runtime

`ExecutionIntentService` wraps the repository of intents with two failure rules:
`prepare` runs before an action is released and fails closed, the moves that
follow a release are best effort.  A person closes an intent with `resolve`, and
`ExecutionIntentFinalizer` rebuilds the record of a released action from the
context its intent kept.
-/
namespace Parmana
open Js Interaction Interaction.Program RuntimeProgram

namespace ExecutionIntentService

/-! ## The release -/

/-- `prepare`. -/
def prepare (context : RuntimeContext) : RuntimeProgram Unit :=
  tryCatch (do
      let intent ← ExecutionIntentBuilder.build context
      ask (.createIntent intent))
    (fun error => do
      .done error.logged
      throw (.executionIntentUnavailable context.businessTransactionId error.message))

/-- `markReleased`. -/
def markReleased (context : RuntimeContext) : RuntimeProgram Unit :=
  bestEffort do
    let releasedAt ← ask .now
    ask (.markReleased context.businessTransactionId context releasedAt)

/-- `markErrored`. -/
def markErrored (businessTransactionId : JsString) (cause : Failure) : RuntimeProgram Unit :=
  bestEffort do
    let reason ← .done cause.text
    ask (.markErrored businessTransactionId reason)

/-- `markFinalized`. -/
def markFinalized (businessTransactionId trustRecordId : JsString) (mode : FinalizationMode) :
    RuntimeProgram Unit :=
  bestEffort do
    let finalizedAt ← ask .now
    ask (.markFinalized businessTransactionId trustRecordId mode finalizedAt)

/-! ## Closing an intent by hand -/

/-- `MAX_RESOLUTION_NOTE_LENGTH`. -/
def maxResolutionNoteLength : Nat := 2000

/-- `ResolveExecutionIntentInput`. -/
structure ResolveInput where
  resolution : JsValue
  note : JsValue
  resolvedBy : Option JsString

/-- `outcome` of `ResolveExecutionIntentResult`. -/
inductive ResolveOutcome where
  | resolved
  | alreadyResolved
  deriving DecidableEq, Repr

/-- `RESOLUTIONS.find(…)`. -/
def findResolution (value : JsValue) : Option ExecutionIntentResolution :=
  if JsValue.strictEq value (.json (.str "NOT_EXECUTED")) then some .notExecuted
  else if JsValue.strictEq value (.json (.str "EXECUTED")) then some .executed
  else none

/-- The resolution and the note of a request, or why it is invalid. -/
def readResolution (input : ResolveInput) :
    Except Failure (ExecutionIntentResolution × JsString) :=
  match findResolution input.resolution with
  | none => .error (.executionIntentResolutionInvalid
      ("resolution must be one of NOT_EXECUTED, EXECUTED." : String))
  | some resolution =>
    let note : JsString := match input.note with
      | .json (.str s) => s.trim
      | _ => ""
    if note.isEmpty then .error (.executionIntentResolutionInvalid
      ("note is required. Record what you found at the connector." : String))
    else if note.length > maxResolutionNoteLength then .error (.executionIntentResolutionInvalid
      ("note must be at most 2000 characters." : String))
    else .ok (resolution, note)

/-- `assertResolvable`. -/
def assertResolvable (businessTransactionId : JsString) (stored : StoredExecutionIntent) :
    Except Failure Unit :=
  if stored.isResolvable then .ok ()
  else .error (.executionIntentNotResolvable businessTransactionId stored.status.state
    (if stored.status.state = .released then
      ("Its execution result was saved, so rebuild the signed Trust Record with finalize instead."
        : String)
    else ("It is already complete." : String)))

/-- What `resolve` answers when the repository moved nothing. -/
def lostRace (businessTransactionId : JsString) (after : StoredExecutionIntent) :
    Except Failure (ResolveOutcome × StoredExecutionIntent) :=
  if after.status.state = .resolved then .ok (.alreadyResolved, after)
  else match assertResolvable businessTransactionId after with
    | .error error => .error error
    | .ok () => .error (.error ("The Execution Intent for '" ++ businessTransactionId ++
        "' could not be resolved. Try again."))

/-- `resolve`. -/
def resolve (businessTransactionId : JsString) (input : ResolveInput) :
    RuntimeProgram (ResolveOutcome × StoredExecutionIntent) := do
  let (resolution, note) ← .done (readResolution input)
  match ← ask (.findIntent businessTransactionId) with
  | none => throw (.executionIntentNotFound businessTransactionId)
  | some stored =>
    if stored.status.state = .resolved then return (.alreadyResolved, stored)
    else do
      .done (assertResolvable businessTransactionId stored)
      let resolvedAt ← ask .now
      let moved ← ask (.markResolved businessTransactionId
        { resolution := resolution, note := note, resolvedBy := input.resolvedBy,
          resolvedAt := resolvedAt })
      match ← ask (.findIntent businessTransactionId) with
      | none => throw (.executionIntentNotFound businessTransactionId)
      | some after =>
        if moved then return (.resolved, after)
        else .done (lostRace businessTransactionId after)

end ExecutionIntentService

/-! ## Rebuilding a record -/

namespace ExecutionIntentFinalizer

/-- `ExecutionIntentFinalizeOutcome`. -/
inductive Outcome where
  | finalized
  | alreadyFinalized
  deriving DecidableEq, Repr

/-- The record was produced inline: the intent's own status is repaired. -/
def alreadyRecorded (businessTransactionId : JsString) (stored : StoredExecutionIntent)
    (existing : ExecutionTrustRecord) : RuntimeProgram (Outcome × ExecutionTrustRecord) := do
  if stored.status.state = .finalized then return (.alreadyFinalized, existing)
  else do
    ExecutionIntentService.markFinalized businessTransactionId existing.trustRecordId .inline
    return (.alreadyFinalized, existing)

/-- Storing the rebuilt record failed: another call may have stored one. -/
def recoverRecord (businessTransactionId : JsString) (error : Failure) :
    RuntimeProgram (Outcome × ExecutionTrustRecord) := do
  match ← ask (.findTrustRecord businessTransactionId) with
  | none => throw error
  | some raced => do
    ExecutionIntentService.markFinalized businessTransactionId raced.trustRecordId .repaired
    return (.alreadyFinalized, raced)

/-- Rebuilds the record from the saved context and stores it. -/
def rebuild (businessTransactionId : JsString) (context : RuntimeContext) :
    RuntimeProgram (Outcome × ExecutionTrustRecord) := do
  let trustRecord ← BusinessTrustPipeline.execute context
  let stored ← tryCatch (do
      ask (.createTrustRecord trustRecord)
      return none)
    (fun error => some <$> recoverRecord businessTransactionId error)
  match stored with
  | some result => return result
  | none => do
    ExecutionIntentService.markFinalized businessTransactionId trustRecord.trustRecordId .repaired
    return (.finalized, trustRecord)

/-- `finalize`. -/
def finalize (businessTransactionId : JsString) :
    RuntimeProgram (Outcome × ExecutionTrustRecord) := do
  match ← ask (.findIntent businessTransactionId) with
  | none => throw (.executionIntentNotFound businessTransactionId)
  | some stored =>
    match ← ask (.findTrustRecord businessTransactionId) with
    | some existing => alreadyRecorded businessTransactionId stored existing
    | none =>
      match stored.releasedContext with
      | none => throw (.executionIntentNotFinalizable businessTransactionId stored.status.state)
      | some context => rebuild businessTransactionId context

end ExecutionIntentFinalizer
end Parmana

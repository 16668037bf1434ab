import Parmana.Collections.Keyed
import Parmana.Runtime.Domain

/-! # The repositories of intents and trust records

`MemoryExecutionIntentRepository` keeps one stored intent for each transaction,
with the status that the release and the repair of its record move.  Each move
looks at the state it finds and may leave the intent alone, so what a move does is
a function of one stored intent, and the repository applies it under a
transaction's identifier.

`MemoryExecutionTrustRecordRepository` keeps one record for each transaction, and a
record that is stored again replaces the one before.
-/
namespace Parmana
open Js

/-- `ExecutionIntentResolution`. -/
inductive ExecutionIntentResolution where
  | notExecuted
  | executed
  deriving DecidableEq, Repr

/-- `ExecutionIntentFinalizationMode`. -/
inductive FinalizationMode where
  | inline
  | repaired
  deriving DecidableEq, Repr

/-- `ExecutionIntentResolutionInput`. -/
structure ResolutionInput where
  resolution : ExecutionIntentResolution
  note : JsString
  resolvedBy : Option JsString
  resolvedAt : Int
  deriving DecidableEq

/-- `ExecutionIntentStatus`. -/
structure ExecutionIntentStatus where
  state : ExecutionIntentState
  releasedAt : Option Int := none
  finalizedAt : Option Int := none
  finalizationMode : Option FinalizationMode := none
  trustRecordId : Option JsString := none
  failureReason : Option JsString := none
  resolvedAt : Option Int := none
  resolvedBy : Option JsString := none
  resolution : Option ExecutionIntentResolution := none
  resolutionNote : Option JsString := none
  deriving DecidableEq

/-- `StoredExecutionIntent`.  The saved context is its copy through JSON. -/
structure StoredExecutionIntent where
  intent : ExecutionIntent
  status : ExecutionIntentStatus
  releasedContext : Option RuntimeContext := none
  deriving DecidableEq

namespace StoredExecutionIntent

def businessTransactionId (stored : StoredExecutionIntent) : JsString :=
  stored.intent.businessTransactionId

/-- A stored intent that is neither finalized nor resolved is on the worklist. -/
def isUnfinalized (stored : StoredExecutionIntent) : Bool :=
  stored.status.state ≠ .finalized && stored.status.state ≠ .resolved

/-! ## What a move does -/

/-- `markReleased` on the stored intent. -/
def release (context : RuntimeContext) (releasedAt : Int) (stored : StoredExecutionIntent) :
    StoredExecutionIntent :=
  if stored.status.state ≠ .prepared then stored
  else { intent := stored.intent, status := { state := .released, releasedAt := some releasedAt },
         releasedContext := some context }

/-- `markFinalized` on the stored intent: the saved context is dropped. -/
def finalize (trustRecordId : JsString) (mode : FinalizationMode) (finalizedAt : Int)
    (stored : StoredExecutionIntent) : StoredExecutionIntent :=
  if stored.status.state = .finalized then stored
  else { intent := stored.intent
         status := { stored.status with
           state := .finalized
           trustRecordId := some trustRecordId
           finalizationMode := some mode
           finalizedAt := some finalizedAt } }

/-- `markErrored` on the stored intent. -/
def failWith (reason : JsString) (stored : StoredExecutionIntent) : StoredExecutionIntent :=
  if stored.status.state ≠ .prepared then stored
  else { stored with status := { state := .errored, failureReason := some reason } }

/-- Whether `markResolved` moves the stored intent. -/
def isResolvable (stored : StoredExecutionIntent) : Bool :=
  stored.status.state = .prepared || stored.status.state = .errored

/-- `markResolved` on the stored intent. -/
def resolve (input : ResolutionInput) (stored : StoredExecutionIntent) : StoredExecutionIntent :=
  if stored.isResolvable then
    { intent := stored.intent
      status := { stored.status with
        state := .resolved
        resolution := some input.resolution
        resolutionNote := some input.note
        resolvedBy := input.resolvedBy.or stored.status.resolvedBy
        resolvedAt := some input.resolvedAt } }
  else stored

end StoredExecutionIntent

/-! ## The repository of intents -/

/-- The stored intents, in the order they were created. -/
abbrev IntentRepository := List StoredExecutionIntent

namespace IntentRepository

/-- `findByTransactionId`. -/
def findByTransactionId (repository : IntentRepository) (businessTransactionId : JsString) :
    Option StoredExecutionIntent :=
  Keyed.find StoredExecutionIntent.businessTransactionId repository businessTransactionId

/-- Applies a move under a transaction's identifier; nothing moves when there is
no intent. -/
def update (repository : IntentRepository) (businessTransactionId : JsString)
    (move : StoredExecutionIntent → StoredExecutionIntent) : IntentRepository :=
  Keyed.update StoredExecutionIntent.businessTransactionId repository businessTransactionId move

/-- `create`. -/
def create (repository : IntentRepository) (intent : ExecutionIntent) :
    Except Failure IntentRepository :=
  if (repository.findByTransactionId intent.businessTransactionId).isSome then
    .error (.error ("An Execution Intent already exists for '" ++ intent.businessTransactionId ++
      "'."))
  else .ok (repository ++ [{ intent := intent, status := { state := .prepared } }])

/-- `markReleased`. -/
def markReleased (repository : IntentRepository) (businessTransactionId : JsString)
    (context : RuntimeContext) (releasedAt : Int) : IntentRepository :=
  repository.update businessTransactionId (.release context releasedAt)

/-- `markFinalized`. -/
def markFinalized (repository : IntentRepository) (businessTransactionId trustRecordId : JsString)
    (mode : FinalizationMode) (finalizedAt : Int) : IntentRepository :=
  repository.update businessTransactionId (.finalize trustRecordId mode finalizedAt)

/-- `markErrored`. -/
def markErrored (repository : IntentRepository) (businessTransactionId reason : JsString) :
    IntentRepository :=
  repository.update businessTransactionId (.failWith reason)

/-- `markResolved`: whether an intent moved, and the repository after it. -/
def markResolved (repository : IntentRepository) (businessTransactionId : JsString)
    (input : ResolutionInput) : Bool × IntentRepository :=
  ((repository.findByTransactionId businessTransactionId).any StoredExecutionIntent.isResolvable,
    repository.update businessTransactionId (.resolve input))

/-- `listUnfinalized`: the oldest first, at most `limit` of them. -/
def listUnfinalized (repository : IntentRepository) (limit : Nat) : List StoredExecutionIntent :=
  ((repository.filter StoredExecutionIntent.isUnfinalized).insertionSort
    (fun a b => a.intent.createdAt ≤ b.intent.createdAt)).take limit

variable {repository repository' : IntentRepository} {id id' : JsString}
  {move : StoredExecutionIntent → StoredExecutionIntent} {stored : StoredExecutionIntent}

/-- What is stored under an identifier after a move that keeps the intent. -/
theorem findByTransactionId_update (hmove : ∀ stored, (move stored).intent = stored.intent) :
    (repository.update id move).findByTransactionId id' =
      if id' = id then (repository.findByTransactionId id').map move
      else repository.findByTransactionId id' := by
  refine Keyed.find_update (fun stored hid => ?_)
  rw [StoredExecutionIntent.businessTransactionId, hmove]
  exact hid

/-- Creating an intent adds it under its identifier, where there was none. -/
theorem create_ok {intent : ExecutionIntent} (h : repository.create intent = .ok repository') :
    repository.findByTransactionId intent.businessTransactionId = none ∧
      ∀ id, repository'.findByTransactionId id =
        if id = intent.businessTransactionId then
          some { intent := intent, status := { state := .prepared } }
        else repository.findByTransactionId id := by
  unfold create at h
  split at h
  · cases h
  rename_i hnone
  rw [Option.not_isSome_iff_eq_none] at hnone
  cases h
  refine ⟨hnone, fun id => ?_⟩
  unfold findByTransactionId at hnone ⊢
  rw [Keyed.find_append_singleton]
  by_cases hid : id = intent.businessTransactionId
  · subst hid
    rw [hnone, if_pos rfl]
    simp [StoredExecutionIntent.businessTransactionId]
  · simp [StoredExecutionIntent.businessTransactionId, hid, Ne.symm hid]

/-- An intent on the worklist is listed by every listing long enough for the
worklist. -/
theorem mem_listUnfinalized {limit : Nat} (hmem : stored ∈ repository)
    (hopen : stored.isUnfinalized = true)
    (hlimit : (repository.filter StoredExecutionIntent.isUnfinalized).length ≤ limit) :
    stored ∈ repository.listUnfinalized limit := by
  unfold listUnfinalized
  rw [List.take_of_length_le (by rwa [List.length_insertionSort]), List.mem_insertionSort,
    List.mem_filter]
  exact ⟨hmem, hopen⟩

end IntentRepository

/-! ## The repository of trust records -/

/-- The stored records, in the order their transactions were first stored. -/
abbrev TrustRecordRepository := List ExecutionTrustRecord

namespace TrustRecordRepository

/-- `findByTransactionId`. -/
def findByTransactionId (repository : TrustRecordRepository) (businessTransactionId : JsString) :
    Option ExecutionTrustRecord :=
  Keyed.find (·.businessTransactionId) repository businessTransactionId

/-- `create`: the record takes the place of the one stored for its transaction. -/
def create (repository : TrustRecordRepository) (record : ExecutionTrustRecord) :
    TrustRecordRepository :=
  Keyed.put (·.businessTransactionId) repository record

theorem findByTransactionId_create (repository : TrustRecordRepository)
    (record : ExecutionTrustRecord) (id : JsString) :
    (repository.create record).findByTransactionId id =
      if id = record.businessTransactionId then some record
      else repository.findByTransactionId id := Keyed.find_put

end TrustRecordRepository
end Parmana

import Parmana.Js.Encoding
import Parmana.Runtime.IntentLife

/-! # The table of execution intents

`SupabaseExecutionIntentRepository` keeps an intent in a row of `execution_intents`,
and its marks are `UPDATE` statements whose `WHERE` clause names the states they move.
`MemoryExecutionIntentRepository` writes the same rules as code over a map.  Here the
rows are read back after every sequence of calls: they are the intents in memory, with
the saved context as its `jsonb` column gives it back (`rows_after`).

The two differ in what a status keeps.  The code in memory builds a new status for a
release and for an error, where the statement sets two columns and leaves the others;
that comes to the same because a status that is `PREPARED` has nothing else in it, and
one that is `ERRORED` has its reason alone (`Orderly`).

What a column keeps of a value is the database's own affair and a parameter here.  A
text with a NUL, or with half of a surrogate pair, is one that a `TEXT` column does not
give back.
-/
namespace Parmana
open Js

/-! ## The columns -/

/-- What the database keeps of a value that is written to one of its columns. -/
structure IntentColumns where
  /-- A `TEXT` column. -/
  text : JsString → Except Failure JsString
  /-- A `TIMESTAMPTZ` column, written by `toISOString`. -/
  timestamptz : Int → Except Failure Int
  /-- The `JSONB` column of the signature. -/
  signatureJson : JsString → Except Failure JsString
  /-- The `JSONB` column of the saved context. -/
  contextJson : RuntimeContext → Except Failure RuntimeContext
  /-- `business_transactions` has the transaction: what the foreign key asks for. -/
  transactions : JsString → Bool

/-- A text that a `TEXT` column can hold: no NUL, no half of a surrogate pair. -/
def StorableText (text : JsString) : Prop :=
  (0 : UInt16) ∉ text.units ∧ JsString.paired text.units = true

instance (text : JsString) : Decidable (StorableText text) :=
  inferInstanceAs (Decidable ((0 : UInt16) ∉ text.units ∧ JsString.paired text.units = true))

/-- A time that `toISOString` writes with a year of four digits: from the year 1 to the
year 9999. -/
def StorableTime (time : Int) : Prop := -62135596800000 ≤ time ∧ time < 253402300800000

instance (time : Int) : Decidable (StorableTime time) :=
  inferInstanceAs (Decidable (-62135596800000 ≤ time ∧ time < 253402300800000))

/-- The columns give back what they can hold. -/
structure IntentColumns.Keeps (columns : IntentColumns) : Prop where
  text : ∀ text, StorableText text → columns.text text = .ok text
  timestamptz : ∀ time, StorableTime time → columns.timestamptz time = .ok time
  signatureJson : ∀ signature, StorableText signature →
    columns.signatureJson signature = .ok signature

/-! ## Rows -/

/-- `ExecutionIntentRow`. -/
structure ExecutionIntentRow where
  intentId : JsString
  businessTransactionId : JsString
  decisionId : JsString
  authorizationId : JsString
  policyName : JsString
  policyVersion : JsString
  policyContentHash : Option JsString
  signalsHash : Option JsString
  businessTransactionHash : JsString
  action : JsString
  target : JsString
  submittedBy : Option JsString
  grantedCapability : Option JsString
  intentHash : JsString
  signatureJson : JsString
  createdAt : Int
  state : ExecutionIntentState := .prepared
  releasedContextJson : Option RuntimeContext := none
  releasedAt : Option Int := none
  finalizedAt : Option Int := none
  finalizationMode : Option FinalizationMode := none
  trustRecordId : Option JsString := none
  failureReason : Option JsString := none
  resolution : Option ExecutionIntentResolution := none
  resolutionNote : Option JsString := none
  resolvedBy : Option JsString := none
  resolvedAt : Option Int := none

/-- The rows of `execution_intents`, in the order they were inserted. -/
abbrev ExecutionIntentTable := List ExecutionIntentRow

namespace ExecutionIntentRow

/-- `toStored`. -/
def toStored (row : ExecutionIntentRow) : StoredExecutionIntent where
  intent :=
    { intentId := row.intentId
      businessTransactionId := row.businessTransactionId
      decisionId := row.decisionId
      authorizationId := row.authorizationId
      policyName := row.policyName
      policyVersion := row.policyVersion
      policyContentHash := row.policyContentHash
      signalsHash := row.signalsHash
      businessTransactionHash := row.businessTransactionHash
      action := row.action
      target := row.target
      submittedBy := row.submittedBy
      grantedCapability := row.grantedCapability
      createdAt := row.createdAt
      sealing := { hash := row.intentHash, signature := row.signatureJson } }
  status :=
    { state := row.state
      releasedAt := row.releasedAt
      finalizedAt := row.finalizedAt
      finalizationMode := row.finalizationMode
      trustRecordId := row.trustRecordId
      failureReason := row.failureReason
      resolution := row.resolution
      resolutionNote := row.resolutionNote
      resolvedBy := row.resolvedBy
      resolvedAt := row.resolvedAt }
  releasedContext := row.releasedContextJson

/-- `execution_intent_resolved_is_complete`. -/
def ResolvedIsComplete (row : ExecutionIntentRow) : Prop :=
  row.state ≠ .resolved ∨
    row.resolution.isSome ∧ row.resolutionNote.isSome ∧ row.resolvedAt.isSome

end ExecutionIntentRow

/-! ## Statements -/

namespace SupabaseExecutionIntentRepository
variable (columns : IntentColumns)

/-- A column that may be `NULL`. -/
def nullable (column : JsString → Except Failure JsString) :
    Option JsString → Except Failure (Option JsString)
  | some text => do return some (← column text)
  | none => return none

/-- The values of `INSERT_SQL`; the columns it leaves out take their defaults. -/
def newRow (intent : ExecutionIntent) : Except Failure ExecutionIntentRow := do
  return {
    intentId := ← columns.text intent.intentId
    businessTransactionId := ← columns.text intent.businessTransactionId
    decisionId := ← columns.text intent.decisionId
    authorizationId := ← columns.text intent.authorizationId
    policyName := ← columns.text intent.policyName
    policyVersion := ← columns.text intent.policyVersion
    policyContentHash := ← nullable columns.text intent.policyContentHash
    signalsHash := ← nullable columns.text intent.signalsHash
    businessTransactionHash := ← columns.text intent.businessTransactionHash
    action := ← columns.text intent.action
    target := ← columns.text intent.target
    submittedBy := ← nullable columns.text intent.submittedBy
    grantedCapability := ← nullable columns.text intent.grantedCapability
    intentHash := ← columns.text intent.sealing.hash
    signatureJson := ← columns.signatureJson intent.sealing.signature
    createdAt := ← columns.timestamptz intent.createdAt }

/-- `create`: the primary key, the unique transaction and the foreign key. -/
def create (table : ExecutionIntentTable) (intent : ExecutionIntent) :
    Except Failure ExecutionIntentTable := do
  let row ← newRow columns intent
  if table.any (fun other => decide (other.intentId = row.intentId)) then
    throw (.error "duplicate key value violates unique constraint \"execution_intents_pkey\"")
  if table.any (fun other =>
      decide (other.businessTransactionId = row.businessTransactionId)) then
    throw (.error ("duplicate key value violates unique constraint " ++
      "\"execution_intents_business_transaction_id_key\""))
  if ¬ columns.transactions row.businessTransactionId then
    throw (.error ("insert or update on table \"execution_intents\" violates foreign key " ++
      "constraint \"fk_execution_intent_transaction\""))
  return table ++ [row]

/-- The rows an `UPDATE` changes. -/
def selects (id : JsString) (states : ExecutionIntentState → Bool) (row : ExecutionIntentRow) :
    Bool :=
  decide (row.businessTransactionId = id) && states row.state

/-- `UPDATE execution_intents SET … WHERE business_transaction_id = $1 AND …`: the number of
rows it changed, and the table after it. -/
def update (table : ExecutionIntentTable) (id : JsString) (states : ExecutionIntentState → Bool)
    (set : ExecutionIntentRow → ExecutionIntentRow) : Nat × ExecutionIntentTable :=
  (table.countP (selects id states),
    table.map fun row => if selects id states row then set row else row)

/-- `MARK_RELEASED_SQL`. -/
def markReleased (table : ExecutionIntentTable) (businessTransactionId : JsString)
    (releasedContext : RuntimeContext) (releasedAt : Int) :
    Except Failure (Nat × ExecutionIntentTable) := do
  let id ← columns.text businessTransactionId
  let context ← columns.contextJson releasedContext
  let time ← columns.timestamptz releasedAt
  return update table id (fun state => decide (state = .prepared)) fun row =>
    { row with
      state := .released
      releasedContextJson := some context
      releasedAt := some time }

/-- `MARK_FINALIZED_SQL`. -/
def markFinalized (table : ExecutionIntentTable) (businessTransactionId trustRecordId : JsString)
    (mode : FinalizationMode) (finalizedAt : Int) :
    Except Failure (Nat × ExecutionIntentTable) := do
  let id ← columns.text businessTransactionId
  let record ← columns.text trustRecordId
  let time ← columns.timestamptz finalizedAt
  return update table id (fun state => decide (state ≠ .finalized)) fun row =>
    { row with
      state := .finalized
      releasedContextJson := none
      trustRecordId := some record
      finalizationMode := some mode
      finalizedAt := some time }

/-- `MARK_ERRORED_SQL`. -/
def markErrored (table : ExecutionIntentTable) (businessTransactionId reason : JsString) :
    Except Failure (Nat × ExecutionIntentTable) := do
  let id ← columns.text businessTransactionId
  let reason ← columns.text reason
  return update table id (fun state => decide (state = .prepared)) fun row =>
    { row with
      state := .errored
      failureReason := some reason }

/-- `MARK_RESOLVED_SQL`. -/
def markResolved (table : ExecutionIntentTable) (businessTransactionId : JsString)
    (input : ResolutionInput) : Except Failure (Nat × ExecutionIntentTable) := do
  let id ← columns.text businessTransactionId
  let note ← columns.text input.note
  let person ← nullable columns.text input.resolvedBy
  let time ← columns.timestamptz input.resolvedAt
  return update table id (fun state => decide (state = .prepared) || decide (state = .errored))
    fun row =>
      { row with
        state := .resolved
        resolution := some input.resolution
        resolutionNote := some note
        resolvedBy := person
        resolvedAt := some time }

/-- `SELECT_BY_TRANSACTION_ID_SQL`. -/
def findByTransactionId (table : ExecutionIntentTable) (businessTransactionId : JsString) :
    Except Failure (Option StoredExecutionIntent) := do
  let id ← columns.text businessTransactionId
  return (table.find? (fun row => decide (row.businessTransactionId = id))).map
    ExecutionIntentRow.toStored

/-- What an `UPDATE` answers the caller with. -/
def settled (table : ExecutionIntentTable) (answer : Nat → Option Bool) :
    Except Failure (Nat × ExecutionIntentTable) → ExecutionIntentAnswer × ExecutionIntentTable
  | .ok (rowCount, table) => (.ok (answer rowCount), table)
  | .error failure => (.error failure, table)

/-- The repository takes a call. -/
def call (table : ExecutionIntentTable) :
    ExecutionIntentCall → ExecutionIntentAnswer × ExecutionIntentTable
  | .create intent =>
    match create columns table intent with
    | .ok table => (.ok none, table)
    | .error failure => (.error failure, table)
  | .markReleased id context releasedAt =>
    settled table (fun _ => none) (markReleased columns table id context releasedAt)
  | .markFinalized id trustRecordId mode finalizedAt =>
    settled table (fun _ => none) (markFinalized columns table id trustRecordId mode finalizedAt)
  | .markErrored id reason => settled table (fun _ => none) (markErrored columns table id reason)
  | .markResolved id input =>
    settled table (fun rowCount => some (decide (rowCount = 1)))
      (markResolved columns table id input)

/-- The table after calls. -/
def after (table : ExecutionIntentTable) (calls : List ExecutionIntentCall) :
    ExecutionIntentTable :=
  calls.foldl (fun table c => (call columns table c).2) table

end SupabaseExecutionIntentRepository

/-! ## What is read back -/

/-- What is read back of a context that was saved. -/
def IntentColumns.readBack (columns : IntentColumns) (context : RuntimeContext) :
    RuntimeContext :=
  match columns.contextJson context with
  | .ok stored => stored
  | .error _ => context

/-- The stored intent with its saved context read back. -/
def StoredExecutionIntent.readBack (columns : IntentColumns) (stored : StoredExecutionIntent) :
    StoredExecutionIntent :=
  { stored with releasedContext := stored.releasedContext.map columns.readBack }

/-- The texts of an intent. -/
def ExecutionIntent.texts (intent : ExecutionIntent) : List JsString :=
  [intent.intentId, intent.businessTransactionId, intent.decisionId, intent.authorizationId,
    intent.policyName, intent.policyVersion, intent.businessTransactionHash, intent.action,
    intent.target, intent.sealing.hash, intent.sealing.signature] ++
    (intent.policyContentHash.toList ++ intent.signalsHash.toList ++ intent.submittedBy.toList ++
      intent.grantedCapability.toList)

/-- A call whose values the columns can hold, and whose intent is of a transaction that
is stored. -/
def IntentColumns.Holds (columns : IntentColumns) : ExecutionIntentCall → Prop
  | .create intent => (∀ text ∈ intent.texts, StorableText text) ∧ StorableTime intent.createdAt ∧
      columns.transactions intent.businessTransactionId = true
  | .markReleased id context releasedAt => StorableText id ∧
      (∃ stored, columns.contextJson context = .ok stored) ∧ StorableTime releasedAt
  | .markFinalized id trustRecordId _ finalizedAt => StorableText id ∧
      StorableText trustRecordId ∧ StorableTime finalizedAt
  | .markErrored id reason => StorableText id ∧ StorableText reason
  | .markResolved id input => StorableText id ∧ StorableText input.note ∧
      (∀ person ∈ input.resolvedBy, StorableText person) ∧ StorableTime input.resolvedAt

/-- The intent that a call creates. -/
def ExecutionIntentCall.createdId : ExecutionIntentCall → Option JsString
  | .create intent => some intent.intentId
  | _ => none

/-- The calls the table can hold, with different identifiers for the intents. -/
def IntentColumns.Admits (columns : IntentColumns) (calls : List ExecutionIntentCall) : Prop :=
  (∀ call ∈ calls, columns.Holds call) ∧
    (calls.filterMap ExecutionIntentCall.createdId).Nodup

/-- Answers that are alike: both refuse, or both say the same. -/
def ExecutionIntentAnswer.Alike : ExecutionIntentAnswer → ExecutionIntentAnswer → Prop
  | .ok a, .ok b => a = b
  | .error _, .error _ => True
  | _, _ => False

/-! ## One statement -/

namespace SupabaseExecutionIntentRepository
open ExecutionIntentRow StoredExecutionIntent
variable {columns : IntentColumns} {table : ExecutionIntentTable} {repository : IntentRepository}
  {id : JsString} {states : ExecutionIntentState → Bool}
  {set : ExecutionIntentRow → ExecutionIntentRow}
  {move : StoredExecutionIntent → StoredExecutionIntent} {row : ExecutionIntentRow}
  {stored : StoredExecutionIntent} {c : ExecutionIntentCall}

theorem nullable_ok {column : JsString → Except Failure JsString} {value : Option JsString}
    (h : ∀ text ∈ value, column text = .ok text) : nullable column value = .ok value := by
  cases value with
  | none => rfl
  | some text =>
    unfold nullable
    dsimp only
    rw [h text rfl]
    rfl

/-- The row of an intent whose values the columns give back. -/
def rowOf (intent : ExecutionIntent) : ExecutionIntentRow where
  intentId := intent.intentId
  businessTransactionId := intent.businessTransactionId
  decisionId := intent.decisionId
  authorizationId := intent.authorizationId
  policyName := intent.policyName
  policyVersion := intent.policyVersion
  policyContentHash := intent.policyContentHash
  signalsHash := intent.signalsHash
  businessTransactionHash := intent.businessTransactionHash
  action := intent.action
  target := intent.target
  submittedBy := intent.submittedBy
  grantedCapability := intent.grantedCapability
  intentHash := intent.sealing.hash
  signatureJson := intent.sealing.signature
  createdAt := intent.createdAt

theorem newRow_ok (hkeeps : columns.Keeps) {intent : ExecutionIntent}
    (htexts : ∀ text ∈ intent.texts, StorableText text) (htime : StorableTime intent.createdAt) :
    newRow columns intent = .ok (rowOf intent) := by
  have htext : ∀ text ∈ intent.texts, columns.text text = .ok text :=
    fun text h => hkeeps.text text (htexts text h)
  have hnullable : ∀ value : Option JsString, (∀ text ∈ value, text ∈ intent.texts) →
      nullable columns.text value = .ok value :=
    fun value h => nullable_ok fun text hmem => htext text (h text hmem)
  unfold newRow
  rw [htext intent.intentId (by simp [ExecutionIntent.texts]),
    htext intent.businessTransactionId (by simp [ExecutionIntent.texts]),
    htext intent.decisionId (by simp [ExecutionIntent.texts]),
    htext intent.authorizationId (by simp [ExecutionIntent.texts]),
    htext intent.policyName (by simp [ExecutionIntent.texts]),
    htext intent.policyVersion (by simp [ExecutionIntent.texts]),
    hnullable intent.policyContentHash (by simp +contextual [ExecutionIntent.texts]),
    hnullable intent.signalsHash (by simp +contextual [ExecutionIntent.texts]),
    htext intent.businessTransactionHash (by simp [ExecutionIntent.texts]),
    htext intent.action (by simp [ExecutionIntent.texts]),
    htext intent.target (by simp [ExecutionIntent.texts]),
    hnullable intent.submittedBy (by simp +contextual [ExecutionIntent.texts]),
    hnullable intent.grantedCapability (by simp +contextual [ExecutionIntent.texts]),
    htext intent.sealing.hash (by simp [ExecutionIntent.texts]),
    hkeeps.signatureJson _ (htexts intent.sealing.signature (by simp [ExecutionIntent.texts])),
    hkeeps.timestamptz _ htime]
  rfl

/-- The `UPDATE` changes the rows of the intents that move. -/
theorem update_toStored
    (h : table.map toStored = repository.map (StoredExecutionIntent.readBack columns))
    (hset : ∀ row, ∀ stored ∈ repository, row.toStored = stored.readBack columns →
      stored.businessTransactionId = id →
        (if states row.state then set row else row).toStored = (move stored).readBack columns) :
    (update table id states set).2.map toStored =
      (repository.update id move).map (StoredExecutionIntent.readBack columns) := by
  induction table generalizing repository with
  | nil =>
    obtain rfl := List.map_eq_nil_iff.mp h.symm
    rfl
  | cons row table ih =>
    cases repository with
    | nil => cases h
    | cons stored repository =>
      obtain ⟨hrow, htable⟩ := List.cons.inj h
      refine congrArg₂ List.cons ?_
        (ih htable fun row' stored' hmem => hset row' stored' (List.mem_cons_of_mem _ hmem))
      have hid : row.businessTransactionId = stored.businessTransactionId :=
        congrArg StoredExecutionIntent.businessTransactionId hrow
      show (if selects id states row then set row else row).toStored =
        (if stored.businessTransactionId = id then move stored else stored).readBack columns
      unfold selects
      by_cases hsame : stored.businessTransactionId = id
      · rw [if_pos hsame, hid, hsame, decide_eq_true rfl, Bool.true_and]
        exact hset row stored List.mem_cons_self hrow hsame
      · rw [if_neg hsame, hid, decide_eq_false hsame, Bool.false_and]
        exact hrow

/-- A transaction has at most one intent. -/
theorem countP_distinct {p : StoredExecutionIntent → Bool} (h : repository.Distinct) :
    repository.countP (fun stored => decide (stored.businessTransactionId = id) && p stored) =
      if (repository.findByTransactionId id).any p then 1 else 0 := by
  unfold IntentRepository.findByTransactionId Keyed.find
  induction repository with
  | nil => rfl
  | cons stored repository ih =>
    obtain ⟨hnew, hrest⟩ := List.nodup_cons.mp h
    by_cases hid : stored.businessTransactionId = id
    · have hnone : repository.countP
          (fun stored => decide (stored.businessTransactionId = id) && p stored) = 0 := by
        refine List.countP_eq_zero.mpr fun other hmem hother => hnew ?_
        have hsame := of_decide_eq_true (Bool.and_eq_true_iff.mp hother).1
        exact List.mem_map.mpr ⟨other, hmem, hsame.trans hid.symm⟩
      rw [List.countP_cons, hnone, List.find?_cons_of_pos (by simpa using hid)]
      simp [hid]
    · rw [List.countP_cons, ih hrest, List.find?_cons_of_neg (by simpa using hid)]
      simp [hid]

/-- The number of rows an `UPDATE` changes. -/
theorem update_rowCount
    (h : table.map toStored = repository.map (StoredExecutionIntent.readBack columns))
    (hdistinct : repository.Distinct) :
    table.countP (selects id states) =
      if (repository.findByTransactionId id).any (fun stored => states stored.status.state) then 1
      else 0 := by
  have hcount : ∀ p : StoredExecutionIntent → Bool,
      (table.map toStored).countP p =
        (repository.map (StoredExecutionIntent.readBack columns)).countP p := fun p => by rw [h]
  have hcounts := hcount fun stored =>
    decide (stored.businessTransactionId = id) && states stored.status.state
  rw [List.countP_map, List.countP_map] at hcounts
  exact hcounts.trans (countP_distinct hdistinct)

/-! ## One call -/

section Step
variable (h : table.map toStored = repository.map (StoredExecutionIntent.readBack columns))
  (hdistinct : repository.Distinct) (horderly : ∀ stored ∈ repository, Orderly stored)
include h horderly

/-- A row whose intent is `PREPARED` has nothing else in its status. -/
theorem released_toStored {context stored : RuntimeContext} {releasedAt : Int}
    (hcontext : columns.contextJson context = .ok stored) :
    (update table id (fun state => decide (state = .prepared)) fun row =>
      { row with
        state := .released
        releasedContextJson := some stored
        releasedAt := some releasedAt }).2.map toStored =
      (repository.markReleased id context releasedAt).map
        (StoredExecutionIntent.readBack columns) := by
  refine update_toStored h fun row stored' hmem hrow _ => ?_
  have hstatus : row.toStored.status = stored'.status := congrArg (·.status) hrow
  have hintent : row.toStored.intent = stored'.intent := congrArg (·.intent) hrow
  have hstate : row.state = stored'.status.state := congrArg (·.state) hstatus
  by_cases hprepared : stored'.status.state = .prepared
  · rw [(horderly stored' hmem).prepared hprepared] at hstatus
    rw [hstate, decide_eq_true hprepared, if_pos rfl, release, if_neg (not_not.mpr hprepared),
      StoredExecutionIntent.readBack, Option.map_some, IntentColumns.readBack, hcontext, ← hintent]
    exact congrArg (fun status : ExecutionIntentStatus => StoredExecutionIntent.mk
      row.toStored.intent { status with state := .released, releasedAt := some releasedAt }
      (some stored)) hstatus
  · rw [hstate, decide_eq_false hprepared, if_neg Bool.false_ne_true, release, if_pos hprepared]
    exact hrow

omit horderly in
theorem finalized_toStored {trustRecordId : JsString} {mode : FinalizationMode}
    {finalizedAt : Int} :
    (update table id (fun state => decide (state ≠ .finalized)) fun row =>
      { row with
        state := .finalized
        releasedContextJson := none
        trustRecordId := some trustRecordId
        finalizationMode := some mode
        finalizedAt := some finalizedAt }).2.map toStored =
      (repository.markFinalized id trustRecordId mode finalizedAt).map
        (StoredExecutionIntent.readBack columns) := by
  refine update_toStored h fun row stored _ hrow _ => ?_
  have hstatus : row.toStored.status = stored.status := congrArg (·.status) hrow
  have hintent : row.toStored.intent = stored.intent := congrArg (·.intent) hrow
  have hstate : row.state = stored.status.state := congrArg (·.state) hstatus
  by_cases hfinalized : stored.status.state = .finalized
  · rw [hstate, decide_eq_false (not_not.mpr hfinalized), if_neg Bool.false_ne_true, finalize,
      if_pos hfinalized]
    exact hrow
  · rw [hstate, decide_eq_true hfinalized, if_pos rfl, finalize, if_neg hfinalized, ← hintent,
      ← hstatus]
    rfl

theorem errored_toStored {reason : JsString} :
    (update table id (fun state => decide (state = .prepared)) fun row =>
      { row with
        state := .errored
        failureReason := some reason }).2.map toStored =
      (repository.markErrored id reason).map (StoredExecutionIntent.readBack columns) := by
  refine update_toStored h fun row stored hmem hrow _ => ?_
  have hstatus : row.toStored.status = stored.status := congrArg (·.status) hrow
  have hstate : row.state = stored.status.state := congrArg (·.state) hstatus
  by_cases hprepared : stored.status.state = .prepared
  · rw [(horderly stored hmem).prepared hprepared] at hstatus
    rw [hstate, decide_eq_true hprepared, if_pos rfl, failWith, if_neg (not_not.mpr hprepared)]
    have hset : ({ row with state := .errored, failureReason := some reason } :
        ExecutionIntentRow).toStored = { row.toStored with
          status := { row.toStored.status with
            state := .errored, failureReason := some reason } } := rfl
    rw [hset, hstatus, hrow]
    rfl
  · rw [hstate, decide_eq_false hprepared, if_neg Bool.false_ne_true, failWith, if_pos hprepared]
    exact hrow

/-- Who resolved an intent is not known before it is resolved. -/
theorem resolved_toStored {input : ResolutionInput} :
    (update table id (fun state => decide (state = .prepared) || decide (state = .errored))
      fun row =>
        { row with
          state := .resolved
          resolution := some input.resolution
          resolutionNote := some input.note
          resolvedBy := input.resolvedBy
          resolvedAt := some input.resolvedAt }).2.map toStored =
      ((repository.markResolved id input).2).map (StoredExecutionIntent.readBack columns) := by
  refine update_toStored h fun row stored hmem hrow _ => ?_
  have hstatus : row.toStored.status = stored.status := congrArg (·.status) hrow
  have hstate : row.state = stored.status.state := congrArg (·.state) hstatus
  have hresolvable : (decide (row.state = .prepared) || decide (row.state = .errored)) =
      stored.isResolvable := by
    rw [hstate]
    rfl
  by_cases hopen : stored.isResolvable = true
  · have hsaved : stored.releasedContext = none ∧ stored.status.resolvedBy = none := by
      have hcontext := (horderly stored hmem).saved
      rcases Bool.or_eq_true_iff.mp hopen with hstate | hstate
      · rw [(horderly stored hmem).prepared (of_decide_eq_true hstate)] at hcontext ⊢
        exact ⟨by simpa using hcontext, rfl⟩
      · obtain ⟨reason, herrored⟩ := (horderly stored hmem).errored (of_decide_eq_true hstate)
        rw [herrored] at hcontext ⊢
        exact ⟨by simpa using hcontext, rfl⟩
    have hset : ({ row with
          state := .resolved
          resolution := some input.resolution
          resolutionNote := some input.note
          resolvedBy := input.resolvedBy
          resolvedAt := some input.resolvedAt } : ExecutionIntentRow).toStored =
        { row.toStored with
          status := { row.toStored.status with
            state := .resolved
            resolution := some input.resolution
            resolutionNote := some input.note
            resolvedBy := input.resolvedBy
            resolvedAt := some input.resolvedAt } } := rfl
    rw [hresolvable, hopen, if_pos rfl, hset, hrow, resolve, if_pos hopen]
    simp [StoredExecutionIntent.readBack, hsaved]
  · rw [hresolvable, if_neg hopen, resolve, if_neg hopen]
    exact hrow

end Step

/-- **One call**: the rows stay the intents in memory, and both answer alike. -/
theorem call_toStored (hkeeps : columns.Keeps)
    (h : table.map toStored = repository.map (StoredExecutionIntent.readBack columns))
    (hdistinct : repository.Distinct) (horderly : ∀ stored ∈ repository, Orderly stored)
    (hholds : columns.Holds c)
    (hfresh : ∀ intent, c = .create intent →
      ∀ stored ∈ repository, stored.intent.intentId ≠ intent.intentId) :
    (call columns table c).2.map toStored =
        (repository.call c).2.map (StoredExecutionIntent.readBack columns) ∧
      ExecutionIntentAnswer.Alike (call columns table c).1 (repository.call c).1 := by
  have hrows : ∀ row ∈ table, ∃ stored ∈ repository, row.toStored = stored.readBack columns := by
    intro row hmem
    obtain ⟨stored, hstored, hrow⟩ := List.mem_map.mp (h ▸ List.mem_map_of_mem hmem :
      row.toStored ∈ repository.map (StoredExecutionIntent.readBack columns))
    exact ⟨stored, hstored, hrow.symm⟩
  cases c with
  | create intent =>
    obtain ⟨htexts, htime, htransaction⟩ := hholds
    have hkey : table.any (fun other => decide (other.intentId = (rowOf intent).intentId)) =
        false := by
      refine List.any_eq_false.mpr fun row hmem hsame => ?_
      obtain ⟨stored, hstored, hrow⟩ := hrows row hmem
      refine hfresh intent rfl stored hstored ?_
      exact (congrArg (·.intent.intentId) hrow).symm.trans (of_decide_eq_true hsame)
    have hunique : table.any (fun other => decide (other.businessTransactionId =
          (rowOf intent).businessTransactionId)) =
        (repository.findByTransactionId intent.businessTransactionId).isSome := by
      have hany : ∀ p : StoredExecutionIntent → Bool, (table.map toStored).any p =
          (repository.map (StoredExecutionIntent.readBack columns)).any p := fun p => by rw [h]
      have hanys := hany fun stored =>
        decide (stored.businessTransactionId = intent.businessTransactionId)
      rw [List.any_map, List.any_map] at hanys
      rw [IntentRepository.findByTransactionId, Keyed.find, List.isSome_find?]
      exact hanys
    unfold call create
    dsimp only
    rw [newRow_ok hkeeps htexts htime]
    simp only [Bind.bind, Except.bind, hkey, hunique]
    rcases IntentRepository.call_create repository intent with
      ⟨hcall, hsome⟩ | ⟨hcall, hnone⟩
    · rw [hcall]
      simp [hsome, IntentRepository.call, IntentRepository.create, ExecutionIntentAnswer.Alike, h,
        throw, throwThe, MonadExceptOf.throw]
    · rw [hcall]
      have htransaction' : columns.transactions (rowOf intent).businessTransactionId = true :=
        htransaction
      simp only [hnone, htransaction', pure, Except.pure]
      refine ⟨?_, ?_⟩
      · simp [h, List.map_append]
        rfl
      · simp [IntentRepository.call, IntentRepository.create, hnone, ExecutionIntentAnswer.Alike]
  | markReleased id context releasedAt =>
    obtain ⟨hid, ⟨stored, hstored⟩, htime⟩ := hholds
    unfold call markReleased
    dsimp only
    rw [hkeeps.text _ hid, hstored, hkeeps.timestamptz _ htime]
    exact ⟨released_toStored h horderly hstored, rfl⟩
  | markFinalized id trustRecordId mode finalizedAt =>
    obtain ⟨hid, hrecord, htime⟩ := hholds
    unfold call markFinalized
    dsimp only
    rw [hkeeps.text _ hid, hkeeps.text _ hrecord, hkeeps.timestamptz _ htime]
    exact ⟨finalized_toStored h, rfl⟩
  | markErrored id reason =>
    obtain ⟨hid, hreason⟩ := hholds
    unfold call markErrored
    dsimp only
    rw [hkeeps.text _ hid, hkeeps.text _ hreason]
    exact ⟨errored_toStored h horderly, rfl⟩
  | markResolved id input =>
    obtain ⟨hid, hnote, hperson, htime⟩ := hholds
    unfold call markResolved
    dsimp only
    rw [hkeeps.text _ hid, hkeeps.text _ hnote,
      nullable_ok fun person hmem => hkeeps.text person (hperson person hmem),
      hkeeps.timestamptz _ htime]
    refine ⟨resolved_toStored h horderly, congrArg some ?_⟩
    have hcount : table.countP (selects id fun state =>
          decide (state = .prepared) || decide (state = .errored)) =
        if (repository.findByTransactionId id).any isResolvable then 1 else 0 :=
      update_rowCount h hdistinct
    refine (congrArg (fun rowCount => decide (rowCount = 1)) hcount).trans ?_
    show _ = (repository.findByTransactionId id).any isResolvable
    cases (repository.findByTransactionId id).any isResolvable with
    | true => rfl
    | false => rfl

/-! ## Runs -/

/-- Every stored intent was created by a call. -/
theorem created_of_mem {calls : List ExecutionIntentCall}
    (h : stored ∈ IntentRepository.after [] calls) :
    ExecutionIntentCall.create stored.intent ∈ calls := by
  induction calls using List.reverseRecOn generalizing stored with
  | nil => cases h
  | append_singleton calls c ih =>
    rw [IntentRepository.after_concat] at h
    cases hmark : c.mark with
    | some mark =>
      rw [IntentRepository.call_mark hmark] at h
      obtain ⟨before, hbefore, rfl⟩ := List.mem_map.mp h
      refine List.mem_append_left _ ?_
      split
      · rw [move_intent]
        exact ih hbefore
      · exact ih hbefore
    | none =>
      cases c with
      | create intent =>
        rcases IntentRepository.call_create (IntentRepository.after [] calls) intent with
          ⟨hcall, -⟩ | ⟨hcall, -⟩
        · rw [hcall] at h
          exact List.mem_append_left _ (ih h)
        · rw [hcall] at h
          rcases List.mem_append.mp h with h | h
          · exact List.mem_append_left _ (ih h)
          · rw [List.mem_singleton.mp h]
            exact List.mem_append_right _ List.mem_cons_self
      | _ => cases hmark

theorem admits_append {calls more : List ExecutionIntentCall}
    (h : columns.Admits (calls ++ more)) : columns.Admits calls := by
  refine ⟨fun c hc => h.1 c (List.mem_append_left _ hc), ?_⟩
  have hnodup := h.2
  rw [List.filterMap_append] at hnodup
  exact hnodup.of_append_left

/-- An intent that is created has an identifier that no stored one has. -/
theorem fresh_of_admits {calls : List ExecutionIntentCall} {intent : ExecutionIntent}
    (h : columns.Admits (calls ++ [.create intent])) :
    ∀ stored ∈ IntentRepository.after [] calls, stored.intent.intentId ≠ intent.intentId := by
  intro stored hstored hsame
  have hnodup := h.2
  rw [List.filterMap_append] at hnodup
  refine (List.nodup_append.mp hnodup).2.2 stored.intent.intentId ?_ intent.intentId ?_ hsame
  · exact List.mem_filterMap.mpr ⟨_, created_of_mem hstored, rfl⟩
  · exact List.mem_cons_self

/-- **The rows are the intents in memory**, after every sequence of calls. -/
theorem rows_after (hkeeps : columns.Keeps) {calls : List ExecutionIntentCall}
    (h : columns.Admits calls) :
    (after columns [] calls).map toStored =
      (IntentRepository.after [] calls).map (StoredExecutionIntent.readBack columns) := by
  induction calls using List.reverseRecOn with
  | nil => rfl
  | append_singleton calls c ih =>
    have hconcat : after columns [] (calls ++ [c]) = (call columns (after columns [] calls) c).2 :=
      List.foldl_append
    obtain ⟨hdistinct, horderly⟩ := IntentRepository.after_empty calls
    rw [hconcat, IntentRepository.after_concat]
    refine (call_toStored hkeeps (ih (admits_append h)) hdistinct horderly
      (h.1 c (List.mem_append_right _ List.mem_cons_self)) ?_).1
    rintro intent rfl
    exact fresh_of_admits h

/-- The check of the table never refuses a row. -/
theorem resolved_complete (hkeeps : columns.Keeps) {calls : List ExecutionIntentCall}
    (h : columns.Admits calls) :
    ∀ row ∈ after columns [] calls, row.ResolvedIsComplete := by
  intro row hmem
  obtain ⟨stored, hstored, hrow⟩ := List.mem_map.mp (rows_after hkeeps h ▸
    List.mem_map_of_mem hmem : row.toStored ∈ (IntentRepository.after [] calls).map
      (StoredExecutionIntent.readBack columns))
  have hstatus : stored.status = row.toStored.status := congrArg (·.status) hrow
  by_cases hstate : row.state = .resolved
  · have hcomplete := ((IntentRepository.after_empty calls).2 stored hstored).resolved
    rw [hstatus] at hcomplete
    exact .inr (hcomplete hstate)
  · exact .inl hstate

/-! ## The life of an intent in the table -/

end SupabaseExecutionIntentRepository

namespace RefundIntent

/-- A database that holds what columns can hold, and one transaction. -/
def columns : IntentColumns where
  text text := if StorableText text then .ok text else
    .error (.error "invalid byte sequence for encoding \"UTF8\"")
  timestamptz time := if StorableTime time then .ok time else
    .error (.error "date/time field value out of range")
  signatureJson signature := if StorableText signature then .ok signature else
    .error (.error "unsupported Unicode escape sequence")
  contextJson context := .ok context
  transactions id := decide (id = "t1")

def intent : ExecutionIntent where
  intentId := "i1"
  businessTransactionId := "t1"
  decisionId := "d1"
  authorizationId := "a1"
  policyName := "refunds"
  policyVersion := "1.0.0"
  policyContentHash := some "p"
  signalsHash := none
  businessTransactionHash := "h"
  action := "paytm:refund"
  target := "paytm://orders/1"
  submittedBy := some "caller-1"
  grantedCapability := none
  createdAt := 1790000000000
  sealing := { hash := "s", signature := "v" }

def policy : PolicyReference where
  name := "refunds"
  version := "1.0.0"
  schemaVersion := "1.0.0"
  contentHash := none
  governanceAnchor := none

/-- What the connector answered with. -/
def context : RuntimeContext where
  transaction :=
    { businessTransactionId := "t1"
      metadata := { submittedBy := some "caller-1", grantedCapability := none, tenantId := none }
      intent :=
        { intentId := "n1", action := "paytm:refund", target := "paytm://orders/1"
          parameters := [] }
      policy := policy
      signals := none
      status := none }
  decision :=
    { decisionId := "d1"
      intentId := "n1"
      policy := policy
      signals := []
      outcome := .approved
      reason := .undefined
      matchedRuleId := .undefined
      evaluatedRules := 1
      matchedPath := [] }
  authorization := none
  execution := none
  overriding := none
  verification := none
  receipt := none

def stored : ExecutionIntentCall := .create intent
def released : ExecutionIntentCall := .markReleased "t1" context 1790000001000
def finalized : ExecutionIntentCall := .markFinalized "t1" "r1" .inline 1790000002000
def errored : ExecutionIntentCall := .markErrored "t1" "timed out"

end RefundIntent

end Parmana

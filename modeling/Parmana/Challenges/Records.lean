import Parmana.Collections.Table
import Parmana.Interaction.Edits
import Parmana.Governance.PendingPolicyChanges

/-! # Challenge records

A challenge record traces an assumption that was questioned: what was examined, what was
found, what changed and whether that was made public.  It is investigated over time, by one
append after another, and nothing in it is ever taken back: the steps of the investigation
only grow, the status only moves forward, and a finding, an outcome or a disclosure is never
replaced.  `applyChallengeRecordAppend` is what says so, and both repositories go through it.

`Extends` is what may become of a record.
-/
namespace Parmana
open Js Governance Edits

/-! ## The record -/

/-- `ChallengeRecordStatus`.  The first of them is `open` in the source. -/
inductive ChallengeRecordStatus where
  | opened
  | investigating
  | resolved
  deriving DecidableEq, Repr

/-- The text of a status. -/
def ChallengeRecordStatus.text : ChallengeRecordStatus → JsString
  | .opened => "open"
  | .investigating => "investigating"
  | .resolved => "resolved"

/-- `ChallengeRecordSource["kind"]`. -/
inductive ChallengeRecordSourceKind where
  | publicComment
  | internalReview
  | customerQuestion
  | adversarialExercise
  | selfIdentified
  deriving DecidableEq, Repr

/-- `ChallengeRecordSource`. -/
structure ChallengeRecordSource where
  kind : ChallengeRecordSourceKind
  attribution : Option JsString
  raisedAt : Int
  deriving DecidableEq

/-- `ChallengeRecordInvestigationStep`. -/
structure ChallengeRecordInvestigationStep where
  performedAt : Int
  method : JsString
  observation : JsString
  deriving DecidableEq

/-- `ChallengeRecordFinding["outcome"]`. -/
inductive ChallengeRecordFindingOutcome where
  | confirmed
  | partiallyConfirmed
  | ruledOut
  | inconclusive
  deriving DecidableEq, Repr

/-- The text of what was found. -/
def ChallengeRecordFindingOutcome.text : ChallengeRecordFindingOutcome → JsString
  | .confirmed => "confirmed"
  | .partiallyConfirmed => "partially-confirmed"
  | .ruledOut => "ruled-out"
  | .inconclusive => "inconclusive"

/-- `ChallengeRecordFinding`. -/
structure ChallengeRecordFinding where
  outcome : ChallengeRecordFindingOutcome
  statement : JsString
  deriving DecidableEq

/-- `ChallengeRecordOutcome`. -/
structure ChallengeRecordOutcome where
  changed : Bool
  description : JsString
  references : List JsString
  deriving DecidableEq

/-- `ChallengeRecordDisclosure`. -/
structure ChallengeRecordDisclosure where
  disclosedPublicly : Bool
  location : Option JsString
  disclosedAt : Option Int
  deriving DecidableEq

/-- `ChallengeRecord`. -/
structure ChallengeRecord where
  challengeRecordId : JsString
  status : ChallengeRecordStatus
  claimChallenged : JsString
  source : ChallengeRecordSource
  investigationSteps : List ChallengeRecordInvestigationStep
  finding : Option ChallengeRecordFinding := none
  outcome : Option ChallengeRecordOutcome := none
  disclosure : Option ChallengeRecordDisclosure := none
  supersedes : Option JsString := none
  createdAt : Int
  updatedAt : Int
  deriving DecidableEq

/-! ## What an append does -/

/-- `ChallengeRecordAppendOperation`. -/
inductive ChallengeRecordAppendOperation where
  | investigationStep (step : ChallengeRecordInvestigationStep)
  | status (status : ChallengeRecordStatus)
  | finding (finding : ChallengeRecordFinding)
  | outcome (outcome : ChallengeRecordOutcome)
  | disclosure (disclosure : ChallengeRecordDisclosure)
  deriving DecidableEq

def CHALLENGE_RECORD_STATUS_ORDER : List ChallengeRecordStatus :=
  [.opened, .investigating, .resolved]

/-- The place of a status in the order. -/
def ChallengeRecordStatus.index (status : ChallengeRecordStatus) : Nat :=
  CHALLENGE_RECORD_STATUS_ORDER.idxOf status

namespace ChallengeRecord
variable (record : ChallengeRecord)

/-- The status is moved backward, or not at all. -/
def statusConflict (status : ChallengeRecordStatus) : Failure :=
  conflictError (("Challenge Record '" : JsString) ++ record.challengeRecordId ++
    ("' status cannot move from '" : JsString) ++ record.status.text ++ ("' to '" : JsString) ++
    status.text ++ JsString.ofString ("' -- status only ever moves forward (open -> " ++
      "investigating -> resolved), never backward or in place. A challenge believed resolved " ++
      "that needs reopening should become a new ChallengeRecord linked via 'supersedes', not a " ++
      "status change on this one."))

/-- There is one already. -/
def findingConflict (finding : ChallengeRecordFinding) : Failure :=
  conflictError (("Challenge Record '" : JsString) ++ record.challengeRecordId ++
    ("' already has a finding recorded ('" : JsString) ++ finding.outcome.text ++
    JsString.ofString ("') -- finding is immutable once set. A correction should become a new " ++
      "ChallengeRecord linked via 'supersedes', not an edit here."))

/-- There is an outcome or a disclosure already. -/
def alreadyRecorded (field recorded : JsString) : Failure :=
  conflictError (("Challenge Record '" : JsString) ++ record.challengeRecordId ++
    ("' already has " : JsString) ++ recorded ++ (" recorded -- " : JsString) ++ field ++
    JsString.ofString (" is immutable once set. A correction should become a new " ++
      "ChallengeRecord linked via 'supersedes', not an edit here."))

end ChallengeRecord

/-- `applyChallengeRecordAppend`. -/
def applyChallengeRecordAppend (record : ChallengeRecord)
    (operation : ChallengeRecordAppendOperation) (appliedAt : Int) :
    Except Failure ChallengeRecord :=
  match operation with
  | .investigationStep step =>
    .ok { record with
      investigationSteps := record.investigationSteps ++ [step], updatedAt := appliedAt }
  | .status status =>
    if status.index ≤ record.status.index then .error (record.statusConflict status)
    else .ok { record with status := status, updatedAt := appliedAt }
  | .finding finding =>
    match record.finding with
    | some found => .error (record.findingConflict found)
    | none => .ok { record with finding := some finding, updatedAt := appliedAt }
  | .outcome outcome =>
    match record.outcome with
    | some _ => .error (record.alreadyRecorded "outcome" "an outcome")
    | none => .ok { record with outcome := some outcome, updatedAt := appliedAt }
  | .disclosure disclosure =>
    match record.disclosure with
    | some _ => .error (record.alreadyRecorded "disclosure" "a disclosure")
    | none => .ok { record with disclosure := some disclosure, updatedAt := appliedAt }

/-- An append, with the time it is applied at. -/
abbrev TimedAppend := ChallengeRecordAppendOperation × Int

/-- A timed append to a record. -/
def TimedAppend.apply (append : TimedAppend) (record : ChallengeRecord) :
    Except Failure ChallengeRecord :=
  applyChallengeRecordAppend record append.1 append.2

namespace ChallengeRecord

/-! ## What may become of a record -/

/-- What may become of a record. -/
structure Extends (record later : ChallengeRecord) : Prop where
  challengeRecordId : later.challengeRecordId = record.challengeRecordId
  claimChallenged : later.claimChallenged = record.claimChallenged
  source : later.source = record.source
  supersedes : later.supersedes = record.supersedes
  createdAt : later.createdAt = record.createdAt
  investigationSteps : record.investigationSteps <+: later.investigationSteps
  status : record.status.index ≤ later.status.index
  finding : ∀ finding, record.finding = some finding → later.finding = some finding
  outcome : ∀ outcome, record.outcome = some outcome → later.outcome = some outcome
  disclosure : ∀ disclosure, record.disclosure = some disclosure →
    later.disclosure = some disclosure

variable {record later latest : ChallengeRecord}

theorem Extends.refl (record : ChallengeRecord) : record.Extends record :=
  ⟨rfl, rfl, rfl, rfl, rfl, List.prefix_rfl, Nat.le_refl _, fun _ => id, fun _ => id, fun _ => id⟩

theorem Extends.trans (h : record.Extends later) (h' : later.Extends latest) :
    record.Extends latest where
  challengeRecordId := h'.challengeRecordId.trans h.challengeRecordId
  claimChallenged := h'.claimChallenged.trans h.claimChallenged
  source := h'.source.trans h.source
  supersedes := h'.supersedes.trans h.supersedes
  createdAt := h'.createdAt.trans h.createdAt
  investigationSteps := h.investigationSteps.trans h'.investigationSteps
  status := Nat.le_trans h.status h'.status
  finding := fun finding hfinding => h'.finding finding (h.finding finding hfinding)
  outcome := fun outcome houtcome => h'.outcome outcome (h.outcome outcome houtcome)
  disclosure := fun disclosure hset => h'.disclosure disclosure (h.disclosure disclosure hset)

/-- **An append extends the record.** -/
theorem extends_of_apply {append : TimedAppend} (h : append.apply record = .ok later) :
    record.Extends later := by
  obtain ⟨operation, appliedAt⟩ := append
  unfold TimedAppend.apply applyChallengeRecordAppend at h
  have hsame := Extends.refl record
  cases operation with
  | investigationStep step =>
    cases h
    exact { hsame with investigationSteps := List.prefix_append _ _ }
  | status status =>
    dsimp only at h
    split at h
    · cases h
    · rename_i hforward
      cases h
      exact { hsame with status := Nat.le_of_lt (Nat.lt_of_not_le hforward) }
  | finding finding =>
    dsimp only at h
    split at h
    · cases h
    · rename_i hnone
      cases h
      refine { hsame with finding := fun finding' hset => ?_ }
      rw [hnone] at hset
      cases hset
  | outcome outcome =>
    dsimp only at h
    split at h
    · cases h
    · rename_i hnone
      cases h
      refine { hsame with outcome := fun outcome' hset => ?_ }
      rw [hnone] at hset
      cases hset
  | disclosure disclosure =>
    dsimp only at h
    split at h
    · cases h
    · rename_i hnone
      cases h
      refine { hsame with disclosure := fun disclosure' hset => ?_ }
      rw [hnone] at hset
      cases hset

/-- The record has what an append was to add. -/
def Shows (record : ChallengeRecord) : ChallengeRecordAppendOperation → Prop
  | .investigationStep step => step ∈ record.investigationSteps
  | .status status => status.index ≤ record.status.index
  | .finding finding => record.finding = some finding
  | .outcome outcome => record.outcome = some outcome
  | .disclosure disclosure => record.disclosure = some disclosure

theorem shows_of_apply {append : TimedAppend} (h : append.apply record = .ok later) :
    later.Shows append.1 := by
  obtain ⟨operation, appliedAt⟩ := append
  unfold TimedAppend.apply applyChallengeRecordAppend at h
  cases operation with
  | investigationStep step =>
    cases h
    exact List.mem_append_right _ (List.mem_singleton_self step)
  | status status =>
    dsimp only at h
    split at h
    · cases h
    · cases h
      exact Nat.le_refl _
  | _ =>
    dsimp only at h
    split at h
    · cases h
    · cases h
      rfl

theorem Extends.shows (h : record.Extends later) {operation : ChallengeRecordAppendOperation}
    (hshows : record.Shows operation) : later.Shows operation := by
  cases operation with
  | investigationStep step => exact h.investigationSteps.subset hshows
  | status status => exact Nat.le_trans hshows h.status
  | finding finding => exact h.finding finding hshows
  | outcome outcome => exact h.outcome outcome hshows
  | disclosure disclosure => exact h.disclosure disclosure hshows

end ChallengeRecord

/-- In a ledger of appends, what becomes of a record extends it. -/
theorem extends_of_ledger {ι : Type} {records records' : JsString → Option ChallengeRecord}
    {changes : List (ι × Change JsString ChallengeRecord TimedAppend)}
    (h : Ledger TimedAppend.apply records changes records') {challengeRecordId : JsString}
    {record : ChallengeRecord} (hrecord : records challengeRecordId = some record) :
    ∃ now, records' challengeRecordId = some now ∧ record.Extends now :=
  h.kept ChallengeRecord.Extends.refl (fun _ _ _ => ChallengeRecord.Extends.trans)
    (fun _ _ _ => ChallengeRecord.extends_of_apply) hrecord

end Parmana

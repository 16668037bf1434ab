import Parmana.Governance.PendingPolicyChanges
import Mathlib.Data.List.Pairwise
import Mathlib.Logic.Function.Basic

/-! # Approver keys

A key that signs approvals is added or revoked by a change that one person proposes and
another approves.  A repository holds the changes and the keys they made.

`ApproverKeys` says what a repository is for: it maps each change id to its change and each
approver and key id to its record, and `Step` says what one request does to it.  **Over any
sequence of requests a key is stored exactly when its addition was approved and revoked
exactly when its revocation was, with the key of that change, and at most one change of it is
pending** (`lifecycle_of_run`); what is resolved and what is stored stays (`later_of_run`),
and no change is resolved twice (`resolved_once`).
-/
namespace Parmana.Governance
open Js

/-! ## Changes and records -/

/-- `ApprovalIssuerChangeAction`. -/
inductive ApprovalIssuerChangeAction where
  | add
  | revoke
  deriving DecidableEq

/-- `ApprovalIssuerChange`. -/
structure ApprovalIssuerChange where
  changeId : JsString
  action : ApprovalIssuerChangeAction
  approverId : JsString
  keyId : JsString
  publicKeyPem : Option JsString
  reason : JsString
  proposedBy : JsString
  proposedAt : Int
  status : PendingPolicyChangeStatus
  resolvedBy : Option JsString
  resolvedAt : Option Int
  rejectionReason : Option JsString
  deriving DecidableEq

/-- `ApprovalIssuerRecord`. -/
structure ApprovalIssuerRecord where
  approverId : JsString
  keyId : JsString
  publicKeyPem : JsString
  revoked : Bool
  addedByChangeId : JsString
  addedAt : Int
  revokedByChangeId : Option JsString
  revokedAt : Option Int
  deriving DecidableEq

/-- A text without the character that separates the two of a pair. -/
def NulFree (text : JsString) : Prop := (0 : UInt16) ∉ text.units

instance (text : JsString) : Decidable (NulFree text) := inferInstanceAs (Decidable (_ ∉ _))

/-- `ApprovalIssuerChangeNotFoundError`. -/
def approvalIssuerChangeNotFound (changeId : JsString) : Failure :=
  .parmanaError (("Approver change '" : JsString) ++ changeId ++ ("' not found." : JsString))
    "APPROVAL_ISSUER_CHANGE_NOT_FOUND"

namespace ApprovalIssuerChange
variable (change : ApprovalIssuerChange)

/-- `pendingConflict`. -/
def pendingConflict : Failure :=
  conflictError (("A change for approver '" : JsString) ++ change.approverId ++
    ("' key '" : JsString) ++ change.keyId ++
    ("' is already pending. It must be approved or rejected first." : JsString))

/-- `alreadyResolved`. -/
def alreadyResolved : Failure :=
  conflictError (("Approver change '" : JsString) ++ change.changeId ++
    ("' is already " : JsString) ++ change.status.text ++ ("." : JsString))

/-- `alreadyExists`. -/
def alreadyExists : Failure :=
  conflictError (("Approver '" : JsString) ++ change.approverId ++ ("' key '" : JsString) ++
    change.keyId ++ ("' already exists. Use a new key id to add a new key." : JsString))

/-- `notRevocable`. -/
def notRevocable : Failure :=
  conflictError (("Approver '" : JsString) ++ change.approverId ++ ("' key '" : JsString) ++
    change.keyId ++ ("' is not an active key added through approver changes." : JsString))

/-- The record an addition makes. -/
def issuer (publicKeyPem : JsString) (addedAt : Int) : ApprovalIssuerRecord where
  approverId := change.approverId
  keyId := change.keyId
  publicKeyPem
  revoked := false
  addedByChangeId := change.changeId
  addedAt
  revokedByChangeId := none
  revokedAt := none

/-- The change, approved. -/
def approved (approvedBy : JsString) (resolvedAt : Int) : ApprovalIssuerChange :=
  { change with
    status := .approved
    resolvedBy := some approvedBy
    resolvedAt := some resolvedAt }

/-- The change, rejected. -/
def rejected (rejectedBy rejectionReason : JsString) (resolvedAt : Int) : ApprovalIssuerChange :=
  { change with
    status := .rejected
    resolvedBy := some rejectedBy
    resolvedAt := some resolvedAt
    rejectionReason := some rejectionReason }

/-- Whether the change is of a key. -/
def Of (approverId keyId : JsString) : Prop :=
  change.approverId = approverId ∧ change.keyId = keyId

/-- The change is an approved one of a key. -/
def Approved (action : ApprovalIssuerChangeAction) (approverId keyId : JsString) : Prop :=
  change.status = .approved ∧ change.action = action ∧ change.Of approverId keyId

/-- The identifiers have no NUL, and there is a key to add and none to revoke. -/
structure WellFormed : Prop where
  approver : NulFree change.approverId
  key : NulFree change.keyId
  publicKey : change.publicKeyPem.isSome ↔ change.action = .add

/-- The change as it was proposed, whatever has become of it. -/
def proposal : ApprovalIssuerChange :=
  { change with
    status := .pendingApproval
    resolvedBy := none
    resolvedAt := none
    rejectionReason := none }

/-- The texts of the change. -/
def texts : List JsString :=
  [change.changeId, change.approverId, change.keyId, change.reason, change.proposedBy] ++
    change.publicKeyPem.toList ++ change.resolvedBy.toList ++ change.rejectionReason.toList

theorem texts_proposal {text : JsString} (h : text ∈ change.proposal.texts) :
    text ∈ change.texts := by
  simp only [proposal, texts, Option.toList_none, List.append_nil] at h
  exact List.mem_append_left _ (List.mem_append_left _ h)

/-- What a repository is given to create. -/
structure Proposed : Prop extends change.WellFormed where
  pending : change.status = .pendingApproval
  unresolved : change.resolvedBy = none ∧ change.resolvedAt = none ∧ change.rejectionReason = none

end ApprovalIssuerChange

/-- The record, revoked by a change. -/
def ApprovalIssuerRecord.revokedBy (record : ApprovalIssuerRecord) (changeId : JsString)
    (revokedAt : Int) : ApprovalIssuerRecord :=
  { record with
    revoked := true
    revokedByChangeId := some changeId
    revokedAt := some revokedAt }

/-! ## What a repository is for -/

/-- A call that the server makes for a request. -/
inductive IssuerRequest where
  | createChange (change : ApprovalIssuerChange)
  | approveChange (changeId approvedBy : JsString) (resolvedAt : Int)
  | rejectChange (changeId rejectedBy rejectionReason : JsString) (resolvedAt : Int)
  | resolve (approverId keyId : JsString)

/-- The change a request resolves. -/
def IssuerRequest.resolves : IssuerRequest → Option JsString
  | .approveChange changeId .. | .rejectChange changeId .. => some changeId
  | _ => none

/-- The texts of a request. -/
def IssuerRequest.texts : IssuerRequest → List JsString
  | .createChange change => change.texts
  | .approveChange changeId approvedBy _ => [changeId, approvedBy]
  | .rejectChange changeId rejectedBy rejectionReason _ => [changeId, rejectedBy, rejectionReason]
  | .resolve approverId keyId => [approverId, keyId]

/-- The change of each id, and the record of each approver and key id. -/
structure ApproverKeys where
  change : JsString → Option ApprovalIssuerChange
  issuer : JsString → JsString → Option ApprovalIssuerRecord

namespace ApproverKeys

/-- Nothing proposed, nothing stored. -/
def empty : ApproverKeys := ⟨fun _ => none, fun _ _ => none⟩

section Set
variable (s : ApproverKeys)

/-- Puts a change under an id. -/
def setChange (changeId : JsString) (change : ApprovalIssuerChange) : ApproverKeys :=
  { s with change := Function.update s.change changeId (some change) }

/-- Puts a record under a pair. -/
def setIssuer (approverId keyId : JsString) (record : ApprovalIssuerRecord) : ApproverKeys :=
  { s with issuer := fun a k => if approverId = a ∧ keyId = k then some record else s.issuer a k }

end Set

/-- What a request does that is carried out. -/
inductive Step : ApproverKeys → IssuerRequest → ApproverKeys → Prop where
  | create {s change} (hproposed : ApprovalIssuerChange.Proposed change)
      (hnew : s.change change.changeId = none)
      (hfree : ∀ id c, s.change id = some c → c.status = .pendingApproval →
        ¬ c.Of change.approverId change.keyId) :
      Step s (.createChange change) (s.setChange change.changeId change)
  | add {s changeId approvedBy resolvedAt change publicKeyPem}
      (hget : s.change changeId = some change) (hpending : change.status = .pendingApproval)
      (haction : change.action = .add) (hkey : change.publicKeyPem = some publicKeyPem)
      (hnone : s.issuer change.approverId change.keyId = none) :
      Step s (.approveChange changeId approvedBy resolvedAt)
        ((s.setIssuer change.approverId change.keyId
          (change.issuer publicKeyPem resolvedAt)).setChange
          changeId (change.approved approvedBy resolvedAt))
  | revoke {s changeId approvedBy resolvedAt change current}
      (hget : s.change changeId = some change) (hpending : change.status = .pendingApproval)
      (haction : change.action = .revoke)
      (hcurrent : s.issuer change.approverId change.keyId = some current)
      (hactive : current.revoked = false) :
      Step s (.approveChange changeId approvedBy resolvedAt)
        ((s.setIssuer change.approverId change.keyId
          (current.revokedBy change.changeId resolvedAt)).setChange
          changeId (change.approved approvedBy resolvedAt))
  | reject {s changeId rejectedBy rejectionReason resolvedAt change}
      (hget : s.change changeId = some change) (hpending : change.status = .pendingApproval) :
      Step s (.rejectChange changeId rejectedBy rejectionReason resolvedAt)
        (s.setChange changeId (change.rejected rejectedBy rejectionReason resolvedAt))

/-- Some stored change has a property. -/
def Has (s : ApproverKeys) (P : ApprovalIssuerChange → Prop) : Prop :=
  ∃ id change, s.change id = some change ∧ P change

/-- What is so after every sequence of requests. -/
structure Lifecycle (s : ApproverKeys) : Prop where
  wellFormed : ∀ id change, s.change id = some change → change.WellFormed
  unresolved : ∀ id change, s.change id = some change → change.status = .pendingApproval →
    change.rejectionReason = none
  stored : ∀ a k, (∃ record, s.issuer a k = some record) ↔ s.Has (·.Approved .add a k)
  key : ∀ a k record, s.issuer a k = some record →
    ∀ id change, s.change id = some change → change.Approved .add a k →
      change.publicKeyPem = some record.publicKeyPem
  revoked : ∀ a k, (∃ record, s.issuer a k = some record ∧ record.revoked = true) ↔
    s.Has (·.Approved .revoke a k)
  onePending : ∀ id change id' change', s.change id = some change → s.change id' = some change' →
    change.status = .pendingApproval → change'.status = .pendingApproval →
      change.Of change'.approverId change'.keyId → id = id'

/-- What stays from one state to a later one: what is resolved, each key that is stored, and
a revoked one as it is. -/
structure Later (s s' : ApproverKeys) : Prop where
  change : ∀ id change, s.change id = some change → ∃ change', s'.change id = some change' ∧
    (change.status ≠ .pendingApproval → change' = change)
  issuer : ∀ a k record, s.issuer a k = some record → ∃ record', s'.issuer a k = some record' ∧
    record'.publicKeyPem = record.publicKeyPem ∧ (record.revoked = true → record' = record)

/-! ## One request -/

section Step
variable {s s' : ApproverKeys} {request : IssuerRequest} {changeId id a k : JsString}
  {change : ApprovalIssuerChange} {record : ApprovalIssuerRecord}

theorem change_setChange : (s.setChange changeId change).change id =
    if id = changeId then some change else s.change id :=
  Function.update_apply ..

/-- What is had with one more change, where the one it replaces is none. -/
theorem has_setChange {P : ApprovalIssuerChange → Prop}
    (h : ∀ c, s.change changeId = some c → ¬ P c) :
    (s.setChange changeId change).Has P ↔ P change ∨ s.Has P := by
  constructor
  · rintro ⟨id, c, hc, hP⟩
    rw [change_setChange] at hc
    split at hc
    · cases hc
      exact .inl hP
    · exact .inr ⟨id, c, hc, hP⟩
  · rintro (hP | ⟨id, c, hc, hP⟩)
    · exact ⟨changeId, change, by rw [change_setChange, if_pos rfl], hP⟩
    · refine ⟨id, c, ?_, hP⟩
      rw [change_setChange, if_neg, hc]
      rintro rfl
      exact h c hc hP

/-- A change is resolved: the others, and the records, are as they were. -/
theorem Lifecycle.resolve {issuer : JsString → JsString → Option ApprovalIssuerRecord}
    {resolved : ApprovalIssuerChange} (h : s.Lifecycle) (hget : s.change changeId = some change)
    (hpending : change.status = .pendingApproval) (hresolved : resolved.status ≠ .pendingApproval)
    (hsame : resolved.WellFormed)
    (hstored : ∀ a k, (∃ record, issuer a k = some record) ↔
      resolved.Approved .add a k ∨ ∃ record, s.issuer a k = some record)
    (hkey : ∀ a k record, issuer a k = some record →
      (resolved.Approved .add a k → resolved.publicKeyPem = some record.publicKeyPem) ∧
      ∀ record', s.issuer a k = some record' → record'.publicKeyPem = record.publicKeyPem)
    (hrevoked : ∀ a k, (∃ record, issuer a k = some record ∧ record.revoked = true) ↔
      resolved.Approved .revoke a k ∨
        ∃ record, s.issuer a k = some record ∧ record.revoked = true) :
    ({ s with issuer }.setChange changeId resolved).Lifecycle := by
  have hnot : ∀ action a k c, s.change changeId = some c → ¬ c.Approved action a k := by
    rintro action a k c hc ⟨hstatus, -⟩
    rw [hget] at hc
    cases hc
    rw [hpending] at hstatus
    cases hstatus
  have hhas : ∀ action a k, ({ s with issuer }.setChange changeId resolved).Has
      (·.Approved action a k) ↔ resolved.Approved action a k ∨ s.Has (·.Approved action a k) :=
    fun action a k => has_setChange (s := { s with issuer }) (hnot action a k)
  refine ⟨fun id c hc => ?_, fun id c hc hp => ?_, fun a k => ?_,
    fun a k record hrecord id c hc happroved => ?_, fun a k => ?_,
    fun id c id' c' hc hc' hp hp' hof => ?_⟩
  · rw [change_setChange] at hc
    split at hc
    · cases hc
      exact hsame
    · exact h.wellFormed id c hc
  · rw [change_setChange] at hc
    split at hc
    · cases hc
      exact absurd hp hresolved
    · exact h.unresolved id c hc hp
  · rw [hhas, ← h.stored]
    exact hstored a k
  · rw [change_setChange] at hc
    split at hc
    · cases hc
      exact (hkey a k record hrecord).1 happroved
    · obtain ⟨record', hrecord'⟩ := (h.stored a k).mpr ⟨id, c, hc, happroved⟩
      rw [h.key a k record' hrecord' id c hc happroved, (hkey a k record hrecord).2 _ hrecord']
  · rw [hhas, ← h.revoked]
    exact hrevoked a k
  · rw [change_setChange] at hc hc'
    split at hc
    · cases hc
      exact absurd hp hresolved
    · split at hc'
      · cases hc'
        exact absurd hp' hresolved
      · exact h.onePending id c id' c' hc hc' hp hp' hof

theorem lifecycle_empty : empty.Lifecycle where
  wellFormed := by
    rintro id c ⟨⟩
  unresolved := by
    rintro id c ⟨⟩
  stored a k := by
    constructor
    · rintro ⟨record, ⟨⟩⟩
    · rintro ⟨id, c, ⟨⟩, -⟩
  key := by
    rintro a k record ⟨⟩
  revoked a k := by
    constructor
    · rintro ⟨record, ⟨⟩, -⟩
    · rintro ⟨id, c, ⟨⟩, -⟩
  onePending := by
    rintro id c id' c' ⟨⟩

/-- A new change: no key changes by it. -/
theorem Lifecycle.create (h : s.Lifecycle) (hproposed : change.Proposed)
    (hnew : s.change change.changeId = none)
    (hfree : ∀ id c, s.change id = some c → c.status = .pendingApproval →
      ¬ c.Of change.approverId change.keyId) :
    (s.setChange change.changeId change).Lifecycle := by
  have hnot : ∀ action a k, ¬ change.Approved action a k := by
    rintro action a k ⟨hstatus, -⟩
    rw [hproposed.pending] at hstatus
    cases hstatus
  have hhas : ∀ action a k, (s.setChange change.changeId change).Has (·.Approved action a k) ↔
      s.Has (·.Approved action a k) := by
    intro action a k
    have hnone : ∀ c, s.change change.changeId = some c → ¬ c.Approved action a k := by
      intro c hc
      rw [hnew] at hc
      cases hc
    rw [has_setChange hnone]
    exact or_iff_right (hnot action a k)
  refine ⟨fun id c hc => ?_, fun id c hc hp => ?_, fun a k => ?_,
    fun a k record hrecord id c hc happroved => ?_, fun a k => ?_,
    fun id c id' c' hc hc' hp hp' hof => ?_⟩
  · rw [change_setChange] at hc
    split at hc
    · cases hc
      exact hproposed.toWellFormed
    · exact h.wellFormed id c hc
  · rw [change_setChange] at hc
    split at hc
    · cases hc
      exact hproposed.unresolved.2.2
    · exact h.unresolved id c hc hp
  · rw [hhas]
    exact h.stored a k
  · rw [change_setChange] at hc
    split at hc
    · cases hc
      exact absurd happroved (hnot .add a k)
    · exact h.key a k record hrecord id c hc happroved
  · rw [hhas]
    exact h.revoked a k
  · rw [change_setChange] at hc hc'
    split at hc
    · rename_i hid
      cases hc
      split at hc'
      · rename_i hid'
        exact hid.trans hid'.symm
      · exact absurd ⟨hof.1.symm, hof.2.symm⟩ (hfree id' c' hc' hp')
    · split at hc'
      · cases hc'
        exact absurd hof (hfree id c hc hp)
      · exact h.onePending id c id' c' hc hc' hp hp' hof

/-- **A request that is carried out keeps the lifecycle.** -/
theorem Step.lifecycle (h : s.Lifecycle) (hstep : Step s request s') : s'.Lifecycle := by
  cases hstep with
  | create hproposed hnew hfree => exact h.create hproposed hnew hfree
  | @add changeId approvedBy resolvedAt change publicKeyPem hget hpending haction hkey hnone =>
    have hwell := h.wellFormed _ _ hget
    refine h.resolve hget hpending (by simp [ApprovalIssuerChange.approved])
      ⟨hwell.approver, hwell.key, hwell.publicKey⟩ (fun a k => ?_) (fun a k record hrecord => ?_)
      fun a k => ?_
    · by_cases hof : change.approverId = a ∧ change.keyId = k
      · rw [if_pos hof]
        exact iff_of_true ⟨_, rfl⟩ (.inl ⟨rfl, haction, hof⟩)
      · rw [if_neg hof]
        exact (or_iff_right fun happroved => hof happroved.2.2).symm
    · by_cases hof : change.approverId = a ∧ change.keyId = k
      · rw [if_pos hof] at hrecord
        cases hrecord
        refine ⟨fun _ => hkey, fun record' hrecord' => ?_⟩
        rw [← hof.1, ← hof.2, hnone] at hrecord'
        cases hrecord'
      · rw [if_neg hof] at hrecord
        refine ⟨fun happroved => absurd happroved.2.2 hof, fun record' hrecord' => ?_⟩
        rw [hrecord] at hrecord'
        cases hrecord'
        rfl
    · by_cases hof : change.approverId = a ∧ change.keyId = k
      · rw [if_pos hof, ← hof.1, ← hof.2, hnone]
        refine iff_of_false ?_ ?_
        · rintro ⟨record, ⟨⟩, hrevoked⟩
          cases hrevoked
        · rintro (⟨-, hrevoke, -⟩ | ⟨record, ⟨⟩, -⟩)
          rw [ApprovalIssuerChange.approved, haction] at hrevoke
          cases hrevoke
      · rw [if_neg hof]
        exact (or_iff_right fun happroved => hof happroved.2.2).symm
  | @revoke changeId approvedBy resolvedAt change current hget hpending haction hcurrent hactive =>
    have hwell := h.wellFormed _ _ hget
    have hother : ∀ a k, ¬ (change.approved approvedBy resolvedAt).Approved .add a k := by
      rintro a k ⟨-, hadd, -⟩
      rw [ApprovalIssuerChange.approved, haction] at hadd
      cases hadd
    refine h.resolve hget hpending (by simp [ApprovalIssuerChange.approved])
      ⟨hwell.approver, hwell.key, hwell.publicKey⟩ (fun a k => ?_) (fun a k record hrecord => ?_)
      fun a k => ?_
    · rw [or_iff_right (hother a k)]
      by_cases hof : change.approverId = a ∧ change.keyId = k
      · rw [if_pos hof, ← hof.1, ← hof.2, hcurrent]
        exact iff_of_true ⟨_, rfl⟩ ⟨_, rfl⟩
      · rw [if_neg hof]
    · refine ⟨fun happroved => absurd happroved (hother a k), fun record' hrecord' => ?_⟩
      by_cases hof : change.approverId = a ∧ change.keyId = k
      · rw [if_pos hof] at hrecord
        rw [← hof.1, ← hof.2, hcurrent] at hrecord'
        cases hrecord
        cases hrecord'
        rfl
      · rw [if_neg hof, hrecord'] at hrecord
        cases hrecord
        rfl
    · by_cases hof : change.approverId = a ∧ change.keyId = k
      · rw [if_pos hof]
        exact iff_of_true ⟨_, rfl, rfl⟩ (.inl ⟨rfl, haction, hof⟩)
      · rw [if_neg hof]
        exact (or_iff_right fun happroved => hof happroved.2.2).symm
  | @reject changeId rejectedBy rejectionReason resolvedAt change hget hpending =>
    have hwell := h.wellFormed _ _ hget
    have hnot : ∀ action a k,
        ¬ (change.rejected rejectedBy rejectionReason resolvedAt).Approved action a k := by
      rintro action a k ⟨hstatus, -⟩
      cases hstatus
    refine h.resolve hget hpending (by simp [ApprovalIssuerChange.rejected])
      ⟨hwell.approver, hwell.key, hwell.publicKey⟩ (fun a k => ?_) (fun a k record hrecord => ?_)
      fun a k => ?_
    · exact (or_iff_right (hnot .add a k)).symm
    · refine ⟨fun happroved => absurd happroved (hnot .add a k), fun record' hrecord' => ?_⟩
      rw [hrecord] at hrecord'
      cases hrecord'
      rfl
    · exact (or_iff_right (hnot .revoke a k)).symm

theorem Later.refl : s.Later s :=
  ⟨fun _ change h => ⟨change, h, fun _ => rfl⟩, fun _ _ record h => ⟨record, h, rfl, fun _ => rfl⟩⟩

theorem Later.trans {s'' : ApproverKeys} (h : s.Later s') (h' : s'.Later s'') : s.Later s'' := by
  refine ⟨fun id c hc => ?_, fun a k r hr => ?_⟩
  · obtain ⟨c', hc', hsame⟩ := h.change id c hc
    obtain ⟨c'', hc'', hsame'⟩ := h'.change id c' hc'
    refine ⟨c'', hc'', fun hresolved => ?_⟩
    rw [hsame hresolved] at hsame'
    exact hsame' hresolved
  · obtain ⟨r', hr', hkey, hsame⟩ := h.issuer a k r hr
    obtain ⟨r'', hr'', hkey', hsame'⟩ := h'.issuer a k r' hr'
    refine ⟨r'', hr'', hkey'.trans hkey, fun hrevoked => ?_⟩
    rw [hsame hrevoked] at hsame'
    exact hsame' hrevoked

/-- A pending change, or none, is replaced. -/
theorem change_later (h : ∀ c, s.change changeId = some c → c.status = .pendingApproval)
    {c : ApprovalIssuerChange} (hc : s.change id = some c) :
    ∃ c', (s.setChange changeId change).change id = some c' ∧
      (c.status ≠ .pendingApproval → c' = c) := by
  rw [change_setChange]
  by_cases hid : id = changeId
  · subst hid
    rw [if_pos rfl]
    exact ⟨change, rfl, fun hresolved => absurd (h c hc) hresolved⟩
  · rw [if_neg hid]
    exact ⟨c, hc, fun _ => rfl⟩

/-- **What is resolved and what is stored stays.** -/
theorem Step.later (hstep : Step s request s') : s.Later s' := by
  have hreplaced : ∀ {changeId change}, s.change changeId = some change →
      change.status = .pendingApproval →
        ∀ c, s.change changeId = some c → c.status = .pendingApproval := by
    intro changeId change hget hpending c hc
    rw [hget] at hc
    cases hc
    exact hpending
  cases hstep with
  | create hproposed hnew hfree =>
    refine ⟨fun id c => change_later fun c' hc' => ?_, Later.refl.issuer⟩
    rw [hnew] at hc'
    cases hc'
  | add hget hpending haction hkey hnone =>
    refine ⟨fun id c => change_later (s := s.setIssuer ..) (hreplaced hget hpending),
      fun a k r hr => ⟨r, (if_neg ?_).trans hr, rfl, fun _ => rfl⟩⟩
    rintro ⟨rfl, rfl⟩
    rw [hnone] at hr
    cases hr
  | @revoke changeId approvedBy resolvedAt change current hget hpending haction hcurrent hactive =>
    refine ⟨fun id c => change_later (s := s.setIssuer ..) (hreplaced hget hpending),
      fun a k r hr => ?_⟩
    by_cases hof : change.approverId = a ∧ change.keyId = k
    · rw [← hof.1, ← hof.2, hcurrent] at hr
      cases hr
      refine ⟨current.revokedBy change.changeId resolvedAt, if_pos hof, rfl, fun hrevoked => ?_⟩
      rw [hactive] at hrevoked
      cases hrevoked
    · exact ⟨r, (if_neg hof).trans hr, rfl, fun _ => rfl⟩
  | reject hget hpending =>
    exact ⟨fun id c => change_later (hreplaced hget hpending), Later.refl.issuer⟩

/-- What is done is a function of the request. -/
theorem Step.unique {s'' : ApproverKeys} (h : Step s request s') (h' : Step s request s'') :
    s' = s'' := by
  cases h with
  | create => cases h' with | create => rfl
  | add hget _ haction hkey _ =>
    cases h' with
    | add hget' _ _ hkey' _ =>
      rw [hget] at hget'
      cases hget'
      rw [hkey] at hkey'
      cases hkey'
      rfl
    | revoke hget' _ haction' _ _ =>
      rw [hget] at hget'
      cases hget'
      rw [haction] at haction'
      cases haction'
  | revoke hget _ haction hcurrent _ =>
    cases h' with
    | add hget' _ haction' _ _ =>
      rw [hget] at hget'
      cases hget'
      rw [haction] at haction'
      cases haction'
    | revoke hget' _ _ hcurrent' _ =>
      rw [hget] at hget'
      cases hget'
      rw [hcurrent] at hcurrent'
      cases hcurrent'
      rfl
  | reject hget _ =>
    cases h' with
    | reject hget' _ =>
      rw [hget] at hget'
      cases hget'
      rfl

/-- What resolves a change finds it pending, and leaves it resolved. -/
theorem Step.resolves (h : Step s request s') (hresolves : request.resolves = some changeId) :
    (∃ c, s.change changeId = some c ∧ c.status = .pendingApproval) ∧
      ∃ c, s'.change changeId = some c ∧ c.status ≠ .pendingApproval := by
  cases h with
  | create => cases hresolves
  | add hget hpending =>
    cases hresolves
    exact ⟨⟨_, hget, hpending⟩, _, change_setChange.trans (if_pos rfl), nofun⟩
  | revoke hget hpending =>
    cases hresolves
    exact ⟨⟨_, hget, hpending⟩, _, change_setChange.trans (if_pos rfl), nofun⟩
  | reject hget hpending =>
    cases hresolves
    exact ⟨⟨_, hget, hpending⟩, _, change_setChange.trans (if_pos rfl), nofun⟩

/-- A change that is there was there before, or is created: as it was proposed. -/
theorem Step.created (h : Step s request s') (hget : s'.change id = some change) :
    (∃ c, s.change id = some c ∧ change.proposal = c.proposal) ∨
      ∃ created, request = .createChange created ∧ created.changeId = id ∧
        change.proposal = created.proposal := by
  have hreplaced : ∀ {s : ApproverKeys} {changeId new old},
      (s.setChange changeId new).change id = some change → s.change changeId = some old →
        new.proposal = old.proposal → ∃ c, s.change id = some c ∧ change.proposal = c.proposal := by
    intro s changeId new old hget hold hsame
    rw [change_setChange] at hget
    split at hget
    · rename_i hid
      cases hget
      exact ⟨old, hid ▸ hold, hsame⟩
    · exact ⟨change, hget, rfl⟩
  cases h with
  | create =>
    rw [change_setChange] at hget
    split at hget
    · rename_i hid
      cases hget
      exact .inr ⟨_, rfl, hid.symm, rfl⟩
    · exact .inl ⟨change, hget, rfl⟩
  | add hold => exact .inl (hreplaced (s := s.setIssuer ..) hget hold rfl)
  | revoke hold => exact .inl (hreplaced (s := s.setIssuer ..) hget hold rfl)
  | reject hold => exact .inl (hreplaced hget hold rfl)

end Step

/-! ## Sequences of requests -/

section Run
variable {ι : Type} (requests : ι → IssuerRequest)

/-- The requests are carried out one after another. -/
def Run : List ι → ApproverKeys → ApproverKeys → Prop
  | [], s, s' => s' = s
  | i :: order, s, s' => ∃ s₁, Step s (requests i) s₁ ∧ Run order s₁ s'

variable {requests} {order more : List ι} {s s' : ApproverKeys} {i : ι}

theorem run_append : Run requests (order ++ more) s s' ↔
    ∃ s₁, Run requests order s s₁ ∧ Run requests more s₁ s' := by
  induction order generalizing s with
  | nil =>
    constructor
    · intro h
      exact ⟨s, rfl, h⟩
    · rintro ⟨s₁, rfl, h⟩
      exact h
  | cons i order ih =>
    constructor
    · rintro ⟨s₁, hstep, h⟩
      obtain ⟨s₂, horder, hmore⟩ := ih.mp h
      exact ⟨s₂, ⟨s₁, hstep, horder⟩, hmore⟩
    · rintro ⟨s₂, ⟨s₁, hstep, horder⟩, hmore⟩
      exact ⟨s₁, hstep, ih.mpr ⟨s₂, horder, hmore⟩⟩

theorem Run.snoc (h : Run requests order s s') {s'' : ApproverKeys}
    (hstep : Step s' (requests i) s'') : Run requests (order ++ [i]) s s'' :=
  run_append.mpr ⟨s', h, s'', hstep, rfl⟩

/-- **The lifecycle of the keys**, after every sequence of requests. -/
theorem lifecycle_of_run (h : Run requests order s s') (hs : s.Lifecycle) : s'.Lifecycle := by
  induction order generalizing s with
  | nil =>
    obtain rfl := h
    exact hs
  | cons i order ih =>
    obtain ⟨s₁, hstep, h⟩ := h
    exact ih h (hstep.lifecycle hs)

theorem Run.later (h : Run requests order s s') : s.Later s' := by
  induction order generalizing s with
  | nil =>
    obtain rfl := h
    exact .refl
  | cons i order ih =>
    obtain ⟨s₁, hstep, h⟩ := h
    exact hstep.later.trans (ih h)

theorem Run.unique {s'' : ApproverKeys} (h : Run requests order s s')
    (h' : Run requests order s s'') : s' = s'' := by
  induction order generalizing s with
  | nil => exact h.trans h'.symm
  | cons i order ih =>
    obtain ⟨s₁, hstep, h⟩ := h
    obtain ⟨s₂, hstep', h'⟩ := h'
    obtain rfl := hstep.unique hstep'
    exact ih h h'

/-- What is so later of the requests so far, and some more. -/
theorem later_of_run {s'' : ApproverKeys} (h : Run requests order s s')
    (hmore : Run requests (order ++ more) s s'') : s'.Later s'' := by
  obtain ⟨s₁, hrun, hrest⟩ := run_append.mp hmore
  obtain rfl := h.unique hrun
  exact hrest.later

/-- A resolved change is not resolved again. -/
theorem not_resolved_again (h : Run requests order s s') {changeId : JsString}
    {change : ApprovalIssuerChange} (hget : s.change changeId = some change)
    (hresolved : change.status ≠ .pendingApproval) :
    ∀ i ∈ order, (requests i).resolves ≠ some changeId := by
  induction order generalizing s with
  | nil => exact fun i hi => absurd hi List.not_mem_nil
  | cons j order ih =>
    obtain ⟨s₁, hstep, h⟩ := h
    intro i hi
    rcases List.mem_cons.mp hi with rfl | hi
    · intro hresolves
      obtain ⟨⟨c, hc, hpending⟩, -⟩ := hstep.resolves hresolves
      rw [hget] at hc
      cases hc
      exact hresolved hpending
    · obtain ⟨c, hc, hsame⟩ := hstep.later.change _ _ hget
      rw [hsame hresolved] at hc
      exact ih h hc i hi

/-- Each change was there, or comes of a request to create it: as it was proposed. -/
theorem created_of_run (h : Run requests order s s') {id : JsString}
    {change : ApprovalIssuerChange} (hget : s'.change id = some change) :
    (∃ c, s.change id = some c ∧ change.proposal = c.proposal) ∨
      ∃ i ∈ order, ∃ created, requests i = .createChange created ∧ created.changeId = id ∧
        change.proposal = created.proposal := by
  induction order generalizing s with
  | nil =>
    obtain rfl := h
    exact .inl ⟨change, hget, rfl⟩
  | cons i order ih =>
    obtain ⟨s₁, hstep, h⟩ := h
    rcases ih h with ⟨c, hc, hsame⟩ | ⟨j, hj, hcreated⟩
    · rcases hstep.created hc with ⟨c', hc', hsame'⟩ | ⟨created, hrequest, hid, hsame'⟩
      · exact .inl ⟨c', hc', hsame.trans hsame'⟩
      · exact .inr ⟨i, List.mem_cons_self, created, hrequest, hid, hsame.trans hsame'⟩
    · exact .inr ⟨j, List.mem_cons_of_mem _ hj, hcreated⟩

/-- **No change is resolved twice.** -/
theorem resolved_once (h : Run requests order s s') :
    order.Pairwise fun i j => ∀ id, (requests i).resolves = some id →
      (requests j).resolves ≠ some id := by
  induction order generalizing s with
  | nil => exact .nil
  | cons i order ih =>
    obtain ⟨s₁, hstep, h⟩ := h
    refine .cons (fun j hj id hid => ?_) (ih h)
    obtain ⟨-, c, hc, hresolved⟩ := hstep.resolves hid
    exact not_resolved_again h hc hresolved j hj

/-- Two requests that resolve one change are the same. -/
theorem eq_of_resolves (h : Run requests order s s') {j : ι} (hi : i ∈ order) (hj : j ∈ order)
    {id : JsString} (hid : (requests i).resolves = some id)
    (hid' : (requests j).resolves = some id) : i = j := by
  by_contra hij
  have hsymm : Std.Symm fun i j => ∀ id, (requests i).resolves = some id →
      (requests j).resolves ≠ some id :=
    ⟨fun _ _ hne id hid hid' => hne id hid' hid⟩
  exact (resolved_once h).forall hi hj hij id hid hid'

end Run

end ApproverKeys
end Parmana.Governance

import Parmana.Governance.PendingPolicyChanges
import Parmana.Js.Number
import Mathlib.Logic.Relation

/-! # External connectors

A capability gets an external connector by a change that one person proposes and
another approves.  The repository holds the changes and the registrations they made.

What an approval is meant to be is one transaction, as the Supabase repository runs
it on a locked row: the change is still pending, the registration is made or revoked,
the change is resolved (`approveTransaction`).  Over any run of transactions a change
is resolved once, a capability has at most one active registration, and an active
registration is that of an approved change (`Sound`).

`MemoryExternalConnectorRepository` makes the same checks with an `await` in between.
**Where what it found still holds when it resumes, every one of its steps is such a
transaction** (`refines_transactions`); an approval and a rejection that overlap
resolve a change twice (`resolved_twice`).
-/
namespace Parmana.Governance
open Js Interaction Interaction.Program

/-! ## Changes and registrations -/

/-- `ExternalConnectorChangeAction`. -/
inductive ExternalConnectorChangeAction where
  | register
  | revoke
  deriving DecidableEq

/-- `ExternalConnectorChange`. -/
structure ExternalConnectorChange where
  changeId : JsString
  action : ExternalConnectorChangeAction
  capability : JsString
  endpointUrl : Option JsString
  policy : Option JsString
  allowedParameters : Option (List JsString)
  timeoutMs : Option JsNumber
  reason : JsString
  proposedBy : JsString
  status : PendingPolicyChangeStatus
  resolvedBy : Option JsString
  rejectionReason : Option JsString
  deriving DecidableEq

/-- `ExternalConnectorRegistration`. -/
structure ExternalConnectorRegistration where
  registrationId : JsString
  capability : JsString
  endpointUrl : JsString
  policy : JsString
  allowedParameters : List JsString
  timeoutMs : JsNumber
  active : Bool
  revokedByChangeId : Option JsString
  deriving DecidableEq

/-- `ExternalConnectorChangeNotFoundError`. -/
def externalConnectorChangeNotFound (changeId : JsString) : Failure :=
  .parmanaError (("External connector change '" : JsString) ++ changeId ++
    ("' not found." : JsString)) "EXTERNAL_CONNECTOR_CHANGE_NOT_FOUND"

/-- `externalConnectorPendingConflict`. -/
def externalConnectorPendingConflict (change : ExternalConnectorChange) : Failure :=
  conflictError (("A change for capability '" : JsString) ++ change.capability ++
    ("' is already pending. It must be approved or rejected first." : JsString))

/-- `externalConnectorAlreadyResolved`. -/
def externalConnectorAlreadyResolved (change : ExternalConnectorChange) : Failure :=
  conflictError (("External connector change '" : JsString) ++ change.changeId ++
    ("' is already " : JsString) ++ change.status.text ++ ("." : JsString))

/-- `externalConnectorAlreadyActive`. -/
def externalConnectorAlreadyActive (change : ExternalConnectorChange) : Failure :=
  conflictError (("Capability '" : JsString) ++ change.capability ++
    ("' already has an active external connector. Revoke it first." : JsString))

/-- `externalConnectorNotActive`. -/
def externalConnectorNotActive (change : ExternalConnectorChange) : Failure :=
  conflictError (("Capability '" : JsString) ++ change.capability ++
    ("' has no active external connector." : JsString))

/-- The changes and the registrations. -/
structure ExternalConnectors where
  registrations : Table ExternalConnectorRegistration.registrationId
  changes : Table ExternalConnectorChange.changeId

namespace ExternalConnectors

/-- Nothing proposed, nothing registered. -/
def empty : ExternalConnectors := ⟨.empty, .empty⟩

variable (s : ExternalConnectors)

/-- `findActive`. -/
def findActive (capability : JsString) : Option ExternalConnectorRegistration :=
  s.registrations.values.find? fun r => decide (r.capability = capability) && r.active

/-- `pending`: the change, if it can still be resolved. -/
def pending (changeId : JsString) : Except Failure ExternalConnectorChange :=
  match s.changes.get changeId with
  | none => .error (externalConnectorChangeNotFound changeId)
  | some change =>
    if change.status = .pendingApproval then .ok change
    else .error (externalConnectorAlreadyResolved change)

end ExternalConnectors

namespace ExternalConnectorChange
variable (change : ExternalConnectorChange)

/-- The registration a change makes. -/
def registration : ExternalConnectorRegistration where
  registrationId := change.changeId
  capability := change.capability
  endpointUrl := change.endpointUrl.getD ""
  policy := change.policy.getD ""
  allowedParameters := change.allowedParameters.getD []
  timeoutMs := change.timeoutMs.getD JsNumber.zero
  active := true
  revokedByChangeId := none

/-- The change, approved. -/
def approved (approvedBy : JsString) : ExternalConnectorChange :=
  { change with status := .approved, resolvedBy := some approvedBy }

/-- The change, rejected. -/
def rejected (rejectedBy rejectionReason : JsString) : ExternalConnectorChange :=
  { change with
    status := .rejected
    resolvedBy := some rejectedBy
    rejectionReason := some rejectionReason }

end ExternalConnectorChange

/-- A registration, revoked by a change. -/
def ExternalConnectorRegistration.revoked (registration : ExternalConnectorRegistration)
    (changeId : JsString) : ExternalConnectorRegistration :=
  { registration with active := false, revokedByChangeId := some changeId }

/-! ## Transactions -/

namespace ExternalConnectors
variable (s : ExternalConnectors)

/-- `createChange`. -/
def createChange (change : ExternalConnectorChange) :
    Except Failure (ExternalConnectorChange × ExternalConnectors) :=
  if s.changes.values.any fun existing => decide (existing.status = .pendingApproval) &&
      decide (existing.capability = change.capability) then
    .error (externalConnectorPendingConflict change)
  else .ok (change, { s with changes := s.changes.set change })

/-- `rejectChange`. -/
def rejectChange (changeId rejectedBy rejectionReason : JsString) :
    Except Failure (ExternalConnectorChange × ExternalConnectors) :=
  (s.pending changeId).map fun change =>
    (change.rejected rejectedBy rejectionReason,
      { s with changes := s.changes.set (change.rejected rejectedBy rejectionReason) })

/-- The state after a register change has been approved. -/
def register (change : ExternalConnectorChange) (approvedBy : JsString) : ExternalConnectors :=
  ⟨s.registrations.set change.registration, s.changes.set (change.approved approvedBy)⟩

/-- The state after a revoke change has been approved. -/
def revoke (change : ExternalConnectorChange) (current : ExternalConnectorRegistration)
    (approvedBy : JsString) : ExternalConnectors :=
  ⟨s.registrations.set (current.revoked change.changeId), s.changes.set (change.approved approvedBy)⟩

/-- `approveChange`, as the Supabase repository runs it: in one transaction, with the
row of the change locked. -/
def approveTransaction (changeId approvedBy : JsString) :
    Except Failure (ExternalConnectorChange × ExternalConnectors) := do
  let change ← s.pending changeId
  match change.action, s.findActive change.capability with
  | .register, none => return (change.approved approvedBy, s.register change approvedBy)
  | .register, some _ => throw (externalConnectorAlreadyActive change)
  | .revoke, some current => return (change.approved approvedBy, s.revoke change current approvedBy)
  | .revoke, none => throw (externalConnectorNotActive change)

end ExternalConnectors

/-- One transaction, and the change it resolves.  A change is created with a new id. -/
inductive ConnectorTransaction : ExternalConnectors → Option JsString → ExternalConnectors → Prop where
  | create {s s' change} (hnew : s.changes.get change.changeId = none)
      (h : s.createChange change = .ok (change, s')) : ConnectorTransaction s none s'
  | approve {s s' changeId approvedBy change}
      (h : s.approveTransaction changeId approvedBy = .ok (change, s')) :
      ConnectorTransaction s (some changeId) s'
  | reject {s s' changeId rejectedBy rejectionReason change}
      (h : s.rejectChange changeId rejectedBy rejectionReason = .ok (change, s')) :
      ConnectorTransaction s (some changeId) s'

/-! ## What every run of transactions keeps -/

/-- A capability has at most one active registration, and each active one is that of
an approved change. -/
structure ExternalConnectors.Sound (s : ExternalConnectors) : Prop where
  oneActive : ∀ r ∈ s.registrations.values, ∀ r' ∈ s.registrations.values,
    r.active = true → r'.active = true → r.capability = r'.capability → r = r'
  approved : ∀ r ∈ s.registrations.values, r.active = true →
    ∃ change, s.changes.get r.registrationId = some change ∧ change.status = .approved

section Sound
variable {s s' : ExternalConnectors}

theorem findActive_none {capability : JsString} : s.findActive capability = none ↔
    ∀ r ∈ s.registrations.values, r.capability = capability → r.active = false := by
  unfold ExternalConnectors.findActive
  rw [List.find?_eq_none]
  simp only [Bool.and_eq_true, decide_eq_true_eq, not_and, Bool.not_eq_true]

theorem pending_ok {changeId : JsString} {change : ExternalConnectorChange} :
    s.pending changeId = .ok change ↔
      s.changes.get changeId = some change ∧ change.status = .pendingApproval := by
  unfold ExternalConnectors.pending
  cases s.changes.get changeId with
  | none => simp
  | some c =>
    dsimp only
    split
    · rename_i hstatus
      constructor
      · rintro ⟨⟩
        exact ⟨rfl, hstatus⟩
      · rintro ⟨⟨⟩, -⟩
        rfl
    · rename_i hstatus
      constructor
      · rintro ⟨⟩
      · rintro ⟨⟨⟩, h⟩
        exact absurd h hstatus

/-- What a transaction does. -/
theorem ConnectorTransaction.cases {resolved : Option JsString}
    (h : ConnectorTransaction s resolved s') :
    (∃ change, resolved = none ∧ s.changes.get change.changeId = none ∧
      s' = { s with changes := s.changes.set change }) ∨
    ∃ change, resolved = some change.changeId ∧ s.changes.get change.changeId = some change ∧
      change.status = .pendingApproval ∧
      ((∃ approvedBy, s.findActive change.capability = none ∧ s' = s.register change approvedBy) ∨
        (∃ approvedBy current, s.findActive change.capability = some current ∧
          s' = s.revoke change current approvedBy) ∨
        ∃ rejectedBy rejectionReason, s' = { s with
          changes := s.changes.set (change.rejected rejectedBy rejectionReason) }) := by
  cases h with
  | create hnew h =>
    rename_i change
    refine Or.inl ⟨change, rfl, hnew, ?_⟩
    unfold ExternalConnectors.createChange at h
    split at h
    · cases h
    · cases h
      rfl
  | approve h =>
    rename_i changeId approvedBy result
    right
    unfold ExternalConnectors.approveTransaction at h
    cases hpending : s.pending changeId with
    | error e =>
      rw [hpending] at h
      cases h
    | ok change =>
      rw [hpending] at h
      obtain ⟨hget, hstatus⟩ := pending_ok.mp hpending
      obtain rfl := Table.key_of_get hget
      refine ⟨change, rfl, hget, hstatus, ?_⟩
      change (match change.action, s.findActive change.capability with
        | .register, none => _
        | .register, some _ => _
        | .revoke, some current => _
        | .revoke, none => _) = _ at h
      split at h
      · rename_i hactive
        cases h
        exact Or.inl ⟨approvedBy, hactive, rfl⟩
      · cases h
      · rename_i current _ hactive
        cases h
        exact Or.inr (Or.inl ⟨approvedBy, current, hactive, rfl⟩)
      · cases h
  | reject h =>
    rename_i changeId rejectedBy rejectionReason result
    right
    unfold ExternalConnectors.rejectChange at h
    cases hpending : s.pending changeId with
    | error e =>
      rw [hpending] at h
      cases h
    | ok change =>
      rw [hpending] at h
      cases h
      obtain ⟨hget, hstatus⟩ := pending_ok.mp hpending
      obtain rfl := Table.key_of_get hget
      exact ⟨change, rfl, hget, hstatus, Or.inr (Or.inr ⟨rejectedBy, rejectionReason, rfl⟩)⟩

/-- A transaction keeps the registrations sound. -/
theorem ConnectorTransaction.sound {resolved : Option JsString} (hs : s.Sound)
    (h : ConnectorTransaction s resolved s') : s'.Sound := by
  rcases h.cases with ⟨change, -, hnew, rfl⟩ | ⟨change, -, hget, hpending, hkind⟩
  · refine ⟨hs.oneActive, fun r hr hactive => ?_⟩
    obtain ⟨c, hc, happroved⟩ := hs.approved r hr hactive
    refine ⟨c, ?_, happroved⟩
    rw [Table.get_set_of_ne, hc]
    rintro heq
    rw [heq, hnew] at hc
    cases hc
  · -- an active registration is not that of the pending change
    have hother : ∀ r ∈ s.registrations.values, r.active = true →
        r.registrationId ≠ change.changeId := by
      intro r hr hactive heq
      obtain ⟨c, hc, happroved⟩ := hs.approved r hr hactive
      rw [heq, hget] at hc
      cases hc
      rw [hpending] at happroved
      cases happroved
    have hkept : ∀ c : ExternalConnectorChange, c.changeId = change.changeId →
        ∀ r ∈ s.registrations.values, r.active = true →
          ∃ d, (s.changes.set c).get r.registrationId = some d ∧ d.status = .approved := by
      intro c hc r hr hactive
      obtain ⟨d, hd, happroved⟩ := hs.approved r hr hactive
      refine ⟨d, ?_, happroved⟩
      rw [Table.get_set_of_ne _ (hc ▸ hother r hr hactive), hd]
    rcases hkind with ⟨by_, hnone, rfl⟩ | ⟨by_, current, hcurrent, rfl⟩ | ⟨by_, reason, rfl⟩
    · have hnone := findActive_none.mp hnone
      constructor
      · intro r hr r' hr' hactive hactive' hcapability
        rcases Table.mem_set.mp hr with hnew | ⟨hold, -⟩
        · rcases Table.mem_set.mp hr' with hnew' | ⟨hold', -⟩
          · exact hnew.trans hnew'.symm
          · subst hnew
            rw [hnone r' hold' hcapability.symm] at hactive'
            cases hactive'
        · rcases Table.mem_set.mp hr' with hnew' | ⟨hold', -⟩
          · subst hnew'
            rw [hnone r hold hcapability] at hactive
            cases hactive
          · exact hs.oneActive r hold r' hold' hactive hactive' hcapability
      · intro r hr hactive
        rcases Table.mem_set.mp hr with rfl | ⟨hold, -⟩
        · exact ⟨change.approved by_, Table.get_set_self _ (change.approved by_), rfl⟩
        · exact hkept (change.approved by_) rfl r hold hactive
    · have hrevoked : ∀ {r : ExternalConnectorRegistration},
          r ∈ (s.registrations.set (current.revoked change.changeId)).values →
            r.active = true → r ∈ s.registrations.values := by
        intro r hr hactive
        rcases Table.mem_set.mp hr with rfl | ⟨hold, -⟩
        · cases hactive
        · exact hold
      constructor
      · intro r hr r' hr' hactive hactive' hcapability
        exact hs.oneActive r (hrevoked hr hactive) r' (hrevoked hr' hactive') hactive hactive'
          hcapability
      · intro r hr hactive
        exact hkept (change.approved by_) rfl r (hrevoked hr hactive) hactive
    · exact ⟨hs.oneActive, hkept (change.rejected by_ reason) rfl⟩

/-- What is resolved stays resolved, and a transaction resolves only what is pending. -/
theorem ConnectorTransaction.resolves {resolved : Option JsString}
    (h : ConnectorTransaction s resolved s') :
    (∀ id change, s.changes.get id = some change → change.status ≠ .pendingApproval →
      s'.changes.get id = some change) ∧
    ∀ id ∈ resolved, (∃ change, s.changes.get id = some change ∧ change.status = .pendingApproval) ∧
      ∃ change, s'.changes.get id = some change ∧ change.status ≠ .pendingApproval := by
  rcases h.cases with ⟨change, rfl, hnew, rfl⟩ | ⟨change, rfl, hget, hpending, hkind⟩
  · refine ⟨fun id c hc hresolved => ?_, fun id hid => (nomatch hid)⟩
    rw [Table.get_set_of_ne, hc]
    rintro rfl
    rw [hnew] at hc
    cases hc
  · have hset : ∃ resolution : ExternalConnectorChange, resolution.changeId = change.changeId ∧
        resolution.status ≠ .pendingApproval ∧ s'.changes = s.changes.set resolution := by
      rcases hkind with ⟨by_, -, rfl⟩ | ⟨by_, current, -, rfl⟩ | ⟨by_, reason, rfl⟩
      · exact ⟨change.approved by_, rfl, by simp [ExternalConnectorChange.approved], rfl⟩
      · exact ⟨change.approved by_, rfl, by simp [ExternalConnectorChange.approved], rfl⟩
      · exact ⟨change.rejected by_ reason, rfl, by simp [ExternalConnectorChange.rejected], rfl⟩
    obtain ⟨resolution, hid, hresolution, hchanges⟩ := hset
    constructor
    · intro id c hc hresolved
      rw [hchanges, Table.get_set_of_ne, hc]
      rintro rfl
      rw [hid, hget] at hc
      cases hc
      exact hresolved hpending
    · rintro _ ⟨⟩
      refine ⟨⟨change, hget, hpending⟩, resolution, ?_, hresolution⟩
      rw [hchanges, ← hid, Table.get_set_self]

end Sound

/-- A history of transactions on an empty repository, with the changes they resolved. -/
inductive ConnectorHistory : List JsString → ExternalConnectors → Prop where
  | empty : ConnectorHistory [] .empty
  | step {ids s resolved s'} (h : ConnectorHistory ids s) (ht : ConnectorTransaction s resolved s') :
      ConnectorHistory (ids ++ resolved.toList) s'

/-- **Over a history of transactions each change is resolved at most once, and the
registrations are sound.** -/
theorem ConnectorHistory.sound {ids : List JsString} {s : ExternalConnectors}
    (h : ConnectorHistory ids s) : s.Sound ∧ ids.Nodup ∧
      ∀ id ∈ ids, ∃ change, s.changes.get id = some change ∧ change.status ≠ .pendingApproval := by
  induction h with
  | empty =>
    refine ⟨⟨fun r hr => ?_, fun r hr => ?_⟩, List.nodup_nil, fun id hid => ?_⟩
    · exact absurd hr (Table.not_mem_empty r)
    · exact absurd hr (Table.not_mem_empty r)
    · exact absurd hid List.not_mem_nil
  | step _ ht ih =>
    obtain ⟨hsound, hnodup, hresolved⟩ := ih
    obtain ⟨hstays, hpending⟩ := ht.resolves
    have hsingle : ∀ resolved : Option JsString, resolved.toList.Nodup := by
      rintro (_ | id)
      · exact List.nodup_nil
      · exact List.nodup_singleton id
    refine ⟨ht.sound hsound, ?_, fun id hid => ?_⟩
    · refine List.nodup_append.mpr ⟨hnodup, hsingle _, fun id hid id' hid' => ?_⟩
      · rintro rfl
        obtain ⟨change, hget, hnot⟩ := hresolved id hid
        obtain ⟨⟨change', hget', hpending'⟩, -⟩ := hpending id (Option.mem_toList.mp hid')
        rw [hget] at hget'
        cases hget'
        exact hnot hpending'
    · rcases List.mem_append.mp hid with hid | hid
      · obtain ⟨change, hget, hnot⟩ := hresolved id hid
        exact ⟨change, hstays id change hget hnot, hnot⟩
      · exact (hpending id (Option.mem_toList.mp hid)).2

/-! ## The repository in memory -/

namespace MemoryExternalConnectorRepository

/-- The blocks a call runs in: `approveChange` pauses between `lookup` and the rest. -/
inductive Block where
  | createChange (change : ExternalConnectorChange)
  | lookup (changeId : JsString)
  | register (change : ExternalConnectorChange) (approvedBy : JsString)
  | revoke (change : ExternalConnectorChange) (current : ExternalConnectorRegistration)
      (approvedBy : JsString)
  | rejectChange (changeId rejectedBy rejectionReason : JsString)
  deriving DecidableEq

/-- What a block answers. -/
abbrev Block.Answer : Block → Type
  | .lookup _ => ExternalConnectorChange × Option ExternalConnectorRegistration
  | _ => ExternalConnectorChange

/-- `this.pending(changeId)` and `this.findActive(change.capability)`. -/
def lookup (s : ExternalConnectors) (changeId : JsString) :
    Except Failure (ExternalConnectorChange × Option ExternalConnectorRegistration) :=
  (s.pending changeId).map fun change => (change, s.findActive change.capability)

/-- A block that gives a new state, or fails and leaves the old one. -/
def settle {α : Type} (s : ExternalConnectors) (r : Except Failure (α × ExternalConnectors)) :
    Except Failure α × ExternalConnectors :=
  match r with
  | .ok (a, s') => (.ok a, s')
  | .error e => (.error e, s)

/-- What a block does. -/
def run : (block : Block) → ExternalConnectors → Except Failure block.Answer × ExternalConnectors
  | .createChange change, s => settle s (s.createChange change)
  | .lookup changeId, s => (lookup s changeId, s)
  | .register change approvedBy, s => (.ok (change.approved approvedBy), s.register change approvedBy)
  | .revoke change current approvedBy, s =>
    (.ok (change.approved approvedBy), s.revoke change current approvedBy)
  | .rejectChange changeId rejectedBy rejectionReason, s =>
    settle s (s.rejectChange changeId rejectedBy rejectionReason)

/-- Runs one block. -/
abbrev step (block : Block) : Program Block Block.Answer Failure block.Answer := perform block

/-- `approveChange`, from its `await` on. -/
def applyChange (approvedBy : JsString) (change : ExternalConnectorChange)
    (current : Option ExternalConnectorRegistration) :
    Program Block Block.Answer Failure ExternalConnectorChange :=
  match change.action, current with
  | .register, none => step (.register change approvedBy)
  | .register, some _ => throw (externalConnectorAlreadyActive change)
  | .revoke, some current => step (.revoke change current approvedBy)
  | .revoke, none => throw (externalConnectorNotActive change)

/-- A call of the repository. -/
inductive Call where
  | createChange (change : ExternalConnectorChange)
  | approveChange (changeId approvedBy : JsString)
  | rejectChange (changeId rejectedBy rejectionReason : JsString)

/-- What it runs. -/
def Call.program : Call → Program Block Block.Answer Failure ExternalConnectorChange
  | .createChange change => step (.createChange change)
  | .approveChange changeId approvedBy => do
    let (change, current) ← step (.lookup changeId)
    applyChange approvedBy change current
  | .rejectChange changeId rejectedBy rejectionReason =>
    step (.rejectChange changeId rejectedBy rejectionReason)

/-- The change an event has resolved. -/
def resolvedBy : Event Block Block.Answer Failure → Option JsString
  | ⟨.register change _, .ok _⟩ => some change.changeId
  | ⟨.revoke change _ _, .ok _⟩ => some change.changeId
  | ⟨.rejectChange changeId _ _, .ok _⟩ => some changeId
  | _ => none

/-- When an approval resumes, what it found still holds; changes are created with new
ids. -/
def FoundHolds (s : ExternalConnectors) (e : Event Block Block.Answer Failure)
    (_ : ExternalConnectors) : Prop :=
  match e.1 with
  | .createChange change => s.changes.get change.changeId = none
  | .register change _ => change.action = .register ∧ lookup s change.changeId = .ok (change, none)
  | .revoke change current _ =>
    change.action = .revoke ∧ lookup s change.changeId = .ok (change, some current)
  | _ => True

section Steps
variable {s s' : ExternalConnectors}

theorem lookup_ok {changeId : JsString} {change : ExternalConnectorChange}
    {current : Option ExternalConnectorRegistration} (h : lookup s changeId = .ok (change, current)) :
    s.pending changeId = .ok change ∧ s.findActive change.capability = current := by
  unfold lookup at h
  cases hpending : s.pending changeId with
  | error e =>
    rw [hpending] at h
    cases h
  | ok c =>
    rw [hpending] at h
    cases h
    exact ⟨rfl, rfl⟩

theorem settle_cases {α : Type} {r : Except Failure (α × ExternalConnectors)}
    {ans : Except Failure α} (h : settle s r = (ans, s')) :
    (∃ a, r = .ok (a, s') ∧ ans = .ok a) ∨ ∃ e, r = .error e ∧ ans = .error e ∧ s' = s := by
  unfold settle at h
  split at h
  · cases h
    exact Or.inl ⟨_, rfl, rfl⟩
  · cases h
    exact Or.inr ⟨_, rfl, rfl, rfl⟩

theorem createChange_ok {change change' : ExternalConnectorChange}
    (h : s.createChange change = .ok (change', s')) : change' = change := by
  unfold ExternalConnectors.createChange at h
  split at h
  · cases h
  · cases h
    rfl

theorem approveTransaction_register {changeId approvedBy : JsString}
    {change : ExternalConnectorChange} (hpending : s.pending changeId = .ok change)
    (haction : change.action = .register) (hactive : s.findActive change.capability = none) :
    s.approveTransaction changeId approvedBy =
      .ok (change.approved approvedBy, s.register change approvedBy) := by
  unfold ExternalConnectors.approveTransaction
  simp only [hpending, haction, hactive, Bind.bind, Except.bind]
  rfl

theorem approveTransaction_revoke {changeId approvedBy : JsString}
    {change : ExternalConnectorChange} {current : ExternalConnectorRegistration}
    (hpending : s.pending changeId = .ok change) (haction : change.action = .revoke)
    (hactive : s.findActive change.capability = some current) :
    s.approveTransaction changeId approvedBy =
      .ok (change.approved approvedBy, s.revoke change current approvedBy) := by
  unfold ExternalConnectors.approveTransaction
  simp only [hpending, haction, hactive, Bind.bind, Except.bind]
  rfl

/-- **A block is a transaction**, or it leaves everything as it is. -/
theorem run_transaction {e : Event Block Block.Answer Failure} (hrun : Handled run s e s')
    (hfound : FoundHolds s e s') :
    resolvedBy e = none ∧ s' = s ∨ ConnectorTransaction s (resolvedBy e) s' := by
  obtain ⟨block, answer⟩ := e
  unfold Handled at hrun
  cases block with
  | createChange change =>
    rcases settle_cases hrun with ⟨a, hcreate, rfl⟩ | ⟨e, -, rfl, rfl⟩
    · rw [createChange_ok hcreate] at hcreate
      exact Or.inr (.create hfound hcreate)
    · exact Or.inl ⟨rfl, rfl⟩
  | lookup changeId =>
    cases hrun
    exact Or.inl ⟨rfl, rfl⟩
  | register change approvedBy =>
    cases hrun
    obtain ⟨haction, hlookup⟩ := hfound
    obtain ⟨hpending, hactive⟩ := lookup_ok hlookup
    exact Or.inr (.approve (approveTransaction_register hpending haction hactive))
  | revoke change current approvedBy =>
    cases hrun
    obtain ⟨haction, hlookup⟩ := hfound
    obtain ⟨hpending, hactive⟩ := lookup_ok hlookup
    exact Or.inr (.approve (approveTransaction_revoke hpending haction hactive))
  | rejectChange changeId rejectedBy rejectionReason =>
    rcases settle_cases hrun with ⟨a, hreject, rfl⟩ | ⟨e, -, rfl, rfl⟩
    · exact Or.inr (.reject hreject)
    · exact Or.inl ⟨rfl, rfl⟩

end Steps

section Runs
variable {ι : Type} [DecidableEq ι]

/-- The repository as it is created, with a call in each thread. -/
def startCalls (calls : ι → Call) :
    Pool Block Block.Answer Failure (fun _ : ι => ExternalConnectorChange) ExternalConnectors where
  threads i := (calls i).program
  state := .empty

/-- The changes a log has resolved, in order. -/
def resolvedIn (log : List (ι × Event Block Block.Answer Failure)) : List JsString :=
  log.filterMap fun x => resolvedBy x.2

/-- Each change is resolved at most once; a capability has at most one active
registration, that of an approved change and of no rejected one. -/
def Lifecycle (log : List (ι × Event Block Block.Answer Failure)) (s : ExternalConnectors) : Prop :=
  (resolvedIn log).Nodup ∧ s.Sound ∧
    ∀ change ∈ s.changes.values, change.status = .rejected →
      ∀ r ∈ s.registrations.values, r.registrationId = change.changeId → r.active = false

/-- **Where what each approval found still holds when it resumes, the repository
refines the transactions**: every run is a history of them, and so keeps the
lifecycle. -/
theorem refines_transactions (calls : ι → Call)
    {log : List (ι × Event Block Block.Answer Failure)}
    {Q : Pool Block Block.Answer Failure (fun _ : ι => ExternalConnectorChange) ExternalConnectors}
    (h : Exec (fun s e s' => Handled run s e s' ∧ FoundHolds s e s') (startCalls calls) log Q) :
    ConnectorHistory (resolvedIn log) Q.state ∧ Lifecycle log Q.state := by
  have hhistory : ConnectorHistory (resolvedIn log) Q.state := by
    refine h.events_induction (I := fun log s => ConnectorHistory (resolvedIn log) s) .empty ?_
    rintro log s i e s' hlog ⟨hrun, hfound⟩
    have hsnoc : resolvedIn (log ++ [(i, e)]) = resolvedIn log ++ (resolvedBy e).toList := by
      unfold resolvedIn
      rw [List.filterMap_append]
      cases hresolved : resolvedBy e with
      | none => simp [hresolved]
      | some id => simp [hresolved]
    rw [hsnoc]
    rcases run_transaction hrun hfound with ⟨hnone, rfl⟩ | htransaction
    · rw [hnone, Option.toList_none, List.append_nil]
      exact hlog
    · exact hlog.step htransaction
  obtain ⟨hsound, hnodup, -⟩ := hhistory.sound
  refine ⟨hhistory, hnodup, hsound, fun change hchange hrejected r hr hid => ?_⟩
  cases hactive : r.active with
  | false => rfl
  | true =>
    obtain ⟨approved, hget, happroved⟩ := hsound.approved r hr hactive
    rw [hid, Table.mem_iff.mp hchange] at hget
    cases hget
    rw [hrejected] at happroved
    cases happroved

end Runs

/-! ## An approval and a rejection that overlap -/

namespace ApprovalAndRejection

/-- A proposal to register a connector. -/
def proposal : ExternalConnectorChange where
  changeId := "change"
  action := .register
  capability := "crm.update"
  endpointUrl := some "https://connector.example"
  policy := some "refunds"
  allowedParameters := some []
  timeoutMs := some JsNumber.zero
  reason := "reason"
  proposedBy := "maker"
  status := .pendingApproval
  resolvedBy := none
  rejectionReason := none

/-- The proposal is created, approved and rejected. -/
def calls : Fin 3 → Call
  | 0 => .createChange proposal
  | 1 => .approveChange "change" "checker"
  | 2 => .rejectChange "change" "checker" "no"

end ApprovalAndRejection

open ApprovalAndRejection in
/-- **An approval and a rejection that overlap resolve a change twice.** -/
theorem resolved_twice : ∃ log Q,
    Exec (Handled run) (startCalls calls) log Q ∧ ¬ Lifecycle log Q.state := by
  have h := Exec.play run [0, 1, 2, 1] ((startCalls calls).meets_true run [0, 1, 2, 1])
  refine ⟨_, _, h.mono fun _ _ _ hs => hs.1, ?_⟩
  rintro ⟨hnodup, -⟩
  have htwice : resolvedIn ((startCalls calls).script run [0, 1, 2, 1]) = ["change", "change"] := rfl
  rw [htwice] at hnodup
  exact absurd hnodup (by decide)

open ApprovalAndRejection in
/-- An approval before the rejection: the rejection is refused. -/
theorem refines_transactions_in_turn : ∃ log Q,
    Exec (fun s e s' => Handled run s e s' ∧ FoundHolds s e s') (startCalls calls) log Q ∧
      (∃ r, Q.state.registrations.values = [r] ∧ r.active = true) ∧
      ConnectorHistory (resolvedIn log) Q.state ∧ Lifecycle log Q.state := by
  have hmeets : (startCalls calls).Meets run FoundHolds [0, 1, 1, 2] :=
    ⟨rfl, trivial, ⟨rfl, rfl⟩, trivial, trivial⟩
  have h := Exec.play run [0, 1, 1, 2] hmeets
  exact ⟨_, _, h, ⟨proposal.registration, rfl, rfl⟩, refines_transactions _ h⟩

end MemoryExternalConnectorRepository

end Parmana.Governance

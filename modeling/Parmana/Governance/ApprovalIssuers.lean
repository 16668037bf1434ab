import Parmana.Approval.Registry
import Parmana.Governance.ApproverKeys

/-! # The repository of approver keys in memory

`MemoryApprovalIssuerRepository` keeps the records in a map under one string, the approver
and the key id with a NUL between them.  None of its calls pauses, so each of them is carried
out as `ApproverKeys.Step` says, or changes nothing (`run_step`).

`GovernedApprovalIssuerRegistry` looks a key up in the code's list first and, if it is not
there, in the repository.  `KeepsApproverKeys` says what is claimed of a repository and the
registry over it, in any interleaving of requests, and `memory_keeps` shows it of this one.
-/
namespace Parmana.Governance
open Js Interaction Interaction.Program Approval

/-! ## The repository -/

/-- `issuerKey`. -/
def issuerKey (approverId keyId : JsString) : JsString := approverId ++ (⟨[0]⟩ : JsString) ++ keyId

/-- The string a record is kept under. -/
def ApprovalIssuerRecord.slot (record : ApprovalIssuerRecord) : JsString :=
  issuerKey record.approverId record.keyId

/-- `MemoryApprovalIssuerRepository`. -/
structure MemoryApprovalIssuerRepository where
  issuers : Table ApprovalIssuerRecord.slot
  changes : Table ApprovalIssuerChange.changeId

namespace MemoryApprovalIssuerRepository

def empty : MemoryApprovalIssuerRepository := ⟨.empty, .empty⟩

variable (s : MemoryApprovalIssuerRepository)

/-- `findIssuer`. -/
def findIssuer (approverId keyId : JsString) : Option ApprovalIssuerRecord :=
  s.issuers.get (issuerKey approverId keyId)

/-- `createChange`. -/
def createChange (change : ApprovalIssuerChange) :
    Except Failure (ApprovalIssuerChange × MemoryApprovalIssuerRepository) :=
  if s.changes.values.any fun existing => decide (existing.status = .pendingApproval) &&
      decide (existing.approverId = change.approverId) &&
      decide (existing.keyId = change.keyId) then
    .error change.pendingConflict
  else .ok (change, { s with changes := s.changes.set change })

/-- `pending`: the change, if it can still be resolved. -/
def pending (changeId : JsString) : Except Failure ApprovalIssuerChange :=
  match s.changes.get changeId with
  | none => .error (approvalIssuerChangeNotFound changeId)
  | some change =>
    if change.status = .pendingApproval then .ok change else .error change.alreadyResolved

/-- The records once a change is applied. -/
def applied (change : ApprovalIssuerChange) (resolvedAt : Int) :
    Except Failure (Table ApprovalIssuerRecord.slot) :=
  match change.action, s.findIssuer change.approverId change.keyId with
  | .add, some _ => .error change.alreadyExists
  | .add, none => .ok (s.issuers.set (change.issuer (change.publicKeyPem.getD "") resolvedAt))
  | .revoke, none => .error change.notRevocable
  | .revoke, some current =>
    if current.revoked then .error change.notRevocable
    else .ok (s.issuers.set (current.revokedBy change.changeId resolvedAt))

/-- `approveChange`. -/
def approveChange (changeId approvedBy : JsString) (resolvedAt : Int) :
    Except Failure (ApprovalIssuerChange × MemoryApprovalIssuerRepository) := do
  let change ← s.pending changeId
  let issuers ← s.applied change resolvedAt
  let resolved := change.approved approvedBy resolvedAt
  return (resolved, ⟨issuers, s.changes.set resolved⟩)

/-- `rejectChange`. -/
def rejectChange (changeId rejectedBy rejectionReason : JsString) (resolvedAt : Int) :
    Except Failure (ApprovalIssuerChange × MemoryApprovalIssuerRepository) := do
  let change ← s.pending changeId
  let resolved := change.rejected rejectedBy rejectionReason resolvedAt
  return (resolved, { s with changes := s.changes.set resolved })

end MemoryApprovalIssuerRepository

/-! ## Calls -/

/-- A call of the repository. -/
inductive IssuerCall where
  | createChange (change : ApprovalIssuerChange)
  | approveChange (changeId approvedBy : JsString) (resolvedAt : Int)
  | rejectChange (changeId rejectedBy rejectionReason : JsString) (resolvedAt : Int)
  | findIssuer (approverId keyId : JsString)
  deriving DecidableEq

/-- What a call answers. -/
abbrev IssuerCall.Answer : IssuerCall → Type
  | .findIssuer .. => Option ApprovalIssuerRecord
  | _ => ApprovalIssuerChange

namespace MemoryApprovalIssuerRepository

/-- What a call throws leaves the repository as it was. -/
def outcome {α : Type} (s : MemoryApprovalIssuerRepository) :
    Except Failure (α × MemoryApprovalIssuerRepository) →
      Except Failure α × MemoryApprovalIssuerRepository
  | .ok (answer, s') => (.ok answer, s')
  | .error e => (.error e, s)

/-- What a call does. -/
def run : (call : IssuerCall) → MemoryApprovalIssuerRepository →
    Except Failure call.Answer × MemoryApprovalIssuerRepository
  | .createChange change, s => s.outcome (s.createChange change)
  | .approveChange changeId approvedBy resolvedAt, s =>
    s.outcome (s.approveChange changeId approvedBy resolvedAt)
  | .rejectChange changeId rejectedBy rejectionReason resolvedAt, s =>
    s.outcome (s.rejectChange changeId rejectedBy rejectionReason resolvedAt)
  | .findIssuer approverId keyId, s => (.ok (s.findIssuer approverId keyId), s)

end MemoryApprovalIssuerRepository

/-! ## The registry -/

/-- `GovernedApprovalIssuerRegistry`: the list in code, and what the platform makes of a
stored key, which is none where it throws. -/
structure GovernedApprovalIssuerRegistry (Key : Type) where
  code : List (TrustedApprovalIssuer Key)
  createPublicKey : JsString → Option Key
  asymmetricKeyType : Key → JsString

namespace GovernedApprovalIssuerRegistry
variable {Key : Type} (registry : GovernedApprovalIssuerRegistry Key)

/-- The issuer of a stored record.  A key that is not read, or is of another type, is an error,
which `resolve` turns into an unknown issuer. -/
def issuer (record : ApprovalIssuerRecord) : Option (ResolvedApprovalIssuer Key) := do
  let publicKey ← registry.createPublicKey record.publicKeyPem
  if registry.asymmetricKeyType publicKey = "ed25519" then
    some ⟨publicKey, record.revoked⟩
  else none

variable {Op : Type} {Ret : Op → Type} {ε : Type} {logged : ε → Except ε Unit}

/-- `resolve`, over a repository's `findIssuer`, whose error is logged. -/
def resolve (logged : ε → Except ε Unit)
    (findIssuer : Program Op Ret ε (Option ApprovalIssuerRecord))
    (approverId keyId : JsString) : Program Op Ret ε (Option (ResolvedApprovalIssuer Key)) :=
  match StaticApprovalIssuerRegistry.resolve registry.code approverId keyId with
  | some inCode => return some inCode
  | none =>
    tryCatch (do
      let record ← findIssuer
      return record.bind registry.issuer) fun error => do
        .done (logged error)
        return none

/-- Where the registry has an issuer from: the code, or a stored record of a pair that the code
does not know. -/
theorem resolve_runs {findIssuer : Program Op Ret ε (Option ApprovalIssuerRecord)}
    {approverId keyId : JsString} {t : List (Event Op Ret ε)} {r : ResolvedApprovalIssuer Key}
    (h : Runs (registry.resolve logged findIssuer approverId keyId) t (.ok (some r))) :
    StaticApprovalIssuerRegistry.resolve registry.code approverId keyId = some r ∨
      StaticApprovalIssuerRegistry.resolve registry.code approverId keyId = none ∧
        ∃ record, Runs findIssuer t (.ok (some record)) ∧ registry.issuer record = some r := by
  unfold resolve at h
  split at h
  · rename_i inCode hcode
    obtain ⟨-, hr⟩ := runs_done.mp h
    cases hr
    exact .inl hcode
  · rename_i hcode
    refine .inr ⟨hcode, ?_⟩
    rcases runs_tryCatch.mp h with ⟨found, hfound, hr⟩ | ⟨e, t₁, t₂, rfl, -, hnone⟩
    · obtain ⟨record, t₁, t₂, rfl, hrecord, hreturn⟩ := runs_bind_ok.mp hfound
      obtain ⟨rfl, hsame⟩ := runs_done.mp hreturn
      cases hr
      cases record with
      | none => cases hsame
      | some record =>
        rw [List.append_nil]
        exact ⟨record, hrecord, (Except.ok.inj hsame).symm⟩
    · obtain ⟨_, _, _, -, -, hreturn⟩ := runs_bind_ok.mp hnone
      obtain ⟨-, hr⟩ := runs_done.mp hreturn
      cases hr

/-- An issuer has the record's revocation. -/
theorem issuer_revoked {record : ApprovalIssuerRecord} {r : ResolvedApprovalIssuer Key}
    (h : registry.issuer record = some r) : r.revoked = record.revoked := by
  obtain ⟨publicKey, -, hissuer⟩ := Option.bind_eq_some_iff.mp h
  split at hissuer
  · cases hissuer
    rfl
  · cases hissuer

end GovernedApprovalIssuerRegistry

/-! ## Requests side by side -/

/-- What a request is answered. -/
inductive IssuerAnswer (Key : Type) where
  | change (change : ApprovalIssuerChange)
  | issuer (issuer : Option (ResolvedApprovalIssuer Key))

/-- Whether a request is one to change something. -/
def IssuerRequest.IsChange : IssuerRequest → Prop
  | .resolve .. => False
  | _ => True

section Keeps
variable {ι Key Op : Type} [DecidableEq ι] {Ret : Op → Type} {ε : Type} {σ : Type}
  (requests : ι → IssuerRequest) (registry : GovernedApprovalIssuerRegistry Key)
  (sem : σ → Event Op Ret ε → σ → Prop) (keys : σ → ApproverKeys) (lossless : Prop)
  (start : Pool Op Ret ε (fun _ : ι => IssuerAnswer Key) σ)

open ApproverKeys in
/-- What holds of a repository whose states stand for `keys`, and of the registry over it, in
every interleaving of the requests.  Where no answer is lost, a request that fails is none of
those that were carried out. -/
structure KeepsApproverKeys : Prop where
  lifecycle : ∀ log Q, Exec sem start log Q → (keys Q.state).Lifecycle
  later : ∀ log Q log' R, Exec sem start log Q → Exec sem Q log' R →
    (keys Q.state).Later (keys R.state)
  effects : ∀ log Q, Exec sem start log Q → ∃ order, Run requests order empty (keys Q.state) ∧
    (∀ i answer, (requests i).IsChange → Q.threads i = .done (.ok answer) → i ∈ order) ∧
    ∀ i e, lossless → (requests i).IsChange → Q.threads i = .done (.error e) → i ∉ order
  resolvedOnce : ∀ log Q, Exec sem start log Q → ∀ i j changeId answer answer',
    (requests i).resolves = some changeId → (requests j).resolves = some changeId →
    Q.threads i = .done (.ok answer) → Q.threads j = .done (.ok answer') → i = j
  resolve : ∀ log Q, Exec sem start log Q → ∀ i approverId keyId r,
    requests i = .resolve approverId keyId → Q.threads i = .done (.ok (.issuer (some r))) →
    r.revoked = false →
      StaticApprovalIssuerRegistry.resolve registry.code approverId keyId = some r ∨
      StaticApprovalIssuerRegistry.resolve registry.code approverId keyId = none ∧
        ∃ before S after record, log = before ++ after ∧ Exec sem start before S ∧
          (keys S.state).issuer approverId keyId = some record ∧ record.revoked = false ∧
          registry.issuer record = some r

variable {requests registry sem keys lossless start}

theorem isChange_of_resolves {request : IssuerRequest} {changeId : JsString}
    (h : request.resolves = some changeId) : request.IsChange := by
  cases request with
  | resolve => cases h
  | _ => trivial

/-- It is enough to say in what order the requests are carried out, and where an issuer is
found. -/
theorem KeepsApproverKeys.of_order (order : List (ι × Event Op Ret ε) → σ → List ι)
    (hrun : ∀ log Q, Exec sem start log Q →
      ApproverKeys.Run requests (order log Q.state) .empty (keys Q.state))
    (hmore : ∀ log Q log' R, Exec sem start log Q → Exec sem Q log' R →
      ∃ more, order (log ++ log') R.state = order log Q.state ++ more)
    (hreturned : ∀ log Q, Exec sem start log Q → ∀ i answer, (requests i).IsChange →
      Q.threads i = .done (.ok answer) → i ∈ order log Q.state)
    (hfailed : ∀ log Q, Exec sem start log Q → ∀ i e, lossless → (requests i).IsChange →
      Q.threads i = .done (.error e) → i ∉ order log Q.state)
    (hresolve : ∀ i approverId keyId t r, requests i = .resolve approverId keyId →
      Runs (start.threads i) t (.ok (.issuer (some r))) →
        StaticApprovalIssuerRegistry.resolve registry.code approverId keyId = some r ∨
        StaticApprovalIssuerRegistry.resolve registry.code approverId keyId = none ∧
          ∃ e ∈ t, ∀ s s', sem s e s' → ∃ record, (keys s).issuer approverId keyId = some record ∧
            registry.issuer record = some r) :
    KeepsApproverKeys requests registry sem keys lossless start where
  lifecycle log Q h := ApproverKeys.lifecycle_of_run (hrun log Q h) ApproverKeys.lifecycle_empty
  later log Q log' R h h' := by
    have hlater := hrun _ R (h.append h')
    obtain ⟨more, hsame⟩ := hmore log Q log' R h h'
    rw [hsame] at hlater
    exact ApproverKeys.later_of_run (hrun log Q h) hlater
  effects log Q h := ⟨_, hrun log Q h, hreturned log Q h, hfailed log Q h⟩
  resolvedOnce log Q h i j changeId answer answer' hi hj hreturn hreturn' := by
    have hmem := hreturned log Q h i answer (isChange_of_resolves hi) hreturn
    have hmem' := hreturned log Q h j answer' (isChange_of_resolves hj) hreturn'
    exact ApproverKeys.eq_of_resolves (hrun log Q h) hmem hmem' hi hj
  resolve log Q h i approverId keyId r hrequest hreturn hactive := by
    have hsteps := h.steps_of_thread i
    rw [hreturn] at hsteps
    rcases hresolve i approverId keyId _ r hrequest hsteps with hcode | ⟨hcode, e, he, hfound⟩
    · exact .inl hcode
    · obtain ⟨before, after, rfl⟩ := List.append_of_mem (mem_eventsOf.mp he)
      obtain ⟨S, k, s', hbefore, -, hsem, -⟩ := h.split
      obtain ⟨record, hrecord, hissuer⟩ := hfound _ _ hsem
      refine .inr ⟨hcode, before, S, _, record, rfl, hbefore, hrecord, ?_, hissuer⟩
      rw [← registry.issuer_revoked hissuer, hactive]

end Keeps

/-! ## Of the repository in memory -/

namespace MemoryApprovalIssuerRepository
variable {s s' : MemoryApprovalIssuerRepository} {answer : ApprovalIssuerChange}

theorem issuerKey_inj {a k a' k' : JsString} (ha : NulFree a) (hk : NulFree k) :
    issuerKey a k = issuerKey a' k' ↔ a = a' ∧ k = k' := by
  have hunits : ∀ a k : JsString, (issuerKey a k).units = a.units ++ (0 : UInt16) :: k.units := by
    intro a k
    exact List.append_assoc a.units [0] k.units
  have hext : ∀ {x y : JsString}, x = y ↔ x.units = y.units := by
    rintro ⟨x⟩ ⟨y⟩
    exact JsString.mk.injEq x y ▸ Iff.rfl
  rw [hext, hunits, hunits, List.append_cons_inj_of_notMem ha hk, ← hext, ← hext]
  exact and_congr_right fun _ => and_iff_right rfl

/-- What the repository stands for: its records, of pairs without NUL. -/
def keys (s : MemoryApprovalIssuerRepository) : ApproverKeys where
  change := s.changes.get
  issuer a k := if NulFree a ∧ NulFree k then s.findIssuer a k else none

theorem issuer_keys {a k : JsString} (ha : NulFree a) (hk : NulFree k) :
    s.keys.issuer a k = s.findIssuer a k := if_pos ⟨ha, hk⟩

theorem keys_setChange (issuers : Table ApprovalIssuerRecord.slot) (change : ApprovalIssuerChange) :
    keys ⟨issuers, s.changes.set change⟩ =
      (keys ⟨issuers, s.changes⟩).setChange change.changeId change := by
  unfold keys ApproverKeys.setChange
  congr 1
  funext id
  rw [Table.get_set, Function.update_apply]

theorem keys_setIssuer {record : ApprovalIssuerRecord} {a k : JsString} (ha : NulFree a)
    (hk : NulFree k) (hof : a = record.approverId ∧ k = record.keyId) :
    keys ⟨s.issuers.set record, s.changes⟩ = s.keys.setIssuer a k record := by
  obtain ⟨rfl, rfl⟩ := hof
  unfold keys ApproverKeys.setIssuer
  congr 1
  funext a k
  dsimp only [findIssuer]
  rw [Table.get_set]
  by_cases hfree : NulFree a ∧ NulFree k
  · rw [if_pos hfree, if_pos hfree]
    refine if_congr ?_ rfl rfl
    rw [ApprovalIssuerRecord.slot, eq_comm, issuerKey_inj ha hk]
  · rw [if_neg hfree, if_neg hfree, if_neg]
    rintro ⟨rfl, rfl⟩
    exact hfree ⟨ha, hk⟩

theorem keys_empty : empty.keys = .empty := by
  unfold keys ApproverKeys.empty
  congr 1
  funext a k
  exact ite_self none

theorem pending_ok {changeId : JsString} {change : ApprovalIssuerChange}
    (h : s.pending changeId = .ok change) :
    s.changes.get changeId = some change ∧ change.status = .pendingApproval := by
  unfold pending at h
  split at h
  · cases h
  · rename_i found hget
    split at h
    · rename_i hstatus
      cases h
      exact ⟨hget, hstatus⟩
    · cases h

theorem createChange_step {change : ApprovalIssuerChange} (hproposed : change.Proposed)
    (hnew : s.changes.get change.changeId = none) (h : s.createChange change = .ok (answer, s')) :
    ApproverKeys.Step s.keys (.createChange change) s'.keys := by
  unfold createChange at h
  split at h
  · cases h
  · rename_i hnone
    cases h
    rw [keys_setChange]
    refine .create hproposed hnew fun id c hc hpending hof => hnone ?_
    refine List.any_eq_true.mpr ⟨c, Table.mem_of_get hc, ?_⟩
    rw [decide_eq_true hpending, decide_eq_true hof.1, decide_eq_true hof.2]
    rfl

theorem approveChange_step {changeId approvedBy : JsString} {resolvedAt : Int}
    (hs : s.keys.Lifecycle)
    (h : s.approveChange changeId approvedBy resolvedAt = .ok (answer, s')) :
    ApproverKeys.Step s.keys (.approveChange changeId approvedBy resolvedAt) s'.keys := by
  obtain ⟨change, hpending, h⟩ := bind_eq_ok.mp h
  obtain ⟨issuers, happlied, h⟩ := bind_eq_ok.mp h
  cases h
  obtain ⟨hget, hstatus⟩ := pending_ok hpending
  have hwell := hs.wellFormed _ _ hget
  obtain rfl := Table.key_of_get hget
  rw [keys_setChange]
  unfold applied at happlied
  split at happlied
  · cases happlied
  · rename_i haction hnone
    cases happlied
    obtain ⟨publicKeyPem, hkey⟩ := Option.isSome_iff_exists.mp (hwell.publicKey.mpr haction)
    rw [hkey, Option.getD_some, keys_setIssuer hwell.approver hwell.key ⟨rfl, rfl⟩]
    exact .add hget hstatus haction hkey ((issuer_keys hwell.approver hwell.key).trans hnone)
  · cases happlied
  · rename_i current haction hcurrent
    split at happlied
    · cases happlied
    · rename_i hactive
      cases happlied
      have hslot : current.slot = issuerKey change.approverId change.keyId :=
        Table.key_of_get hcurrent
      have hof := (issuerKey_inj hwell.approver hwell.key).mp hslot.symm
      have hset : keys ⟨s.issuers.set (current.revokedBy change.changeId resolvedAt), s.changes⟩ =
          s.keys.setIssuer change.approverId change.keyId
            (current.revokedBy change.changeId resolvedAt) :=
        keys_setIssuer hwell.approver hwell.key hof
      rw [hset]
      have hissuer := (issuer_keys hwell.approver hwell.key).trans hcurrent
      exact .revoke hget hstatus haction hissuer (Bool.eq_false_of_not_eq_true hactive)

theorem rejectChange_step {changeId rejectedBy rejectionReason : JsString} {resolvedAt : Int}
    (h : s.rejectChange changeId rejectedBy rejectionReason resolvedAt = .ok (answer, s')) :
    ApproverKeys.Step s.keys (.rejectChange changeId rejectedBy rejectionReason resolvedAt)
      s'.keys := by
  obtain ⟨change, hpending, h⟩ := bind_eq_ok.mp h
  cases h
  obtain ⟨hget, hstatus⟩ := pending_ok hpending
  obtain rfl := Table.key_of_get hget
  rw [keys_setChange]
  exact .reject hget hstatus

/-! ## Its calls side by side -/

/-- Makes a call. -/
abbrev ask (call : IssuerCall) : Program IssuerCall IssuerCall.Answer Failure call.Answer :=
  perform call

/-- The call a request makes. -/
def callOf : IssuerRequest → IssuerCall
  | .createChange change => .createChange change
  | .approveChange changeId approvedBy resolvedAt => .approveChange changeId approvedBy resolvedAt
  | .rejectChange changeId rejectedBy rejectionReason resolvedAt =>
    .rejectChange changeId rejectedBy rejectionReason resolvedAt
  | .resolve approverId keyId => .findIssuer approverId keyId

section Requests
variable {ι Key : Type} [DecidableEq ι] (registry : GovernedApprovalIssuerRegistry Key)

/-- What the server runs for a request. -/
def program : IssuerRequest → Program IssuerCall IssuerCall.Answer Failure (IssuerAnswer Key)
  | .createChange change => do return .change (← ask (.createChange change))
  | .approveChange changeId approvedBy resolvedAt => do
    return .change (← ask (.approveChange changeId approvedBy resolvedAt))
  | .rejectChange changeId rejectedBy rejectionReason resolvedAt => do
    return .change (← ask (.rejectChange changeId rejectedBy rejectionReason resolvedAt))
  | .resolve approverId keyId => do
    return .issuer (← registry.resolve Failure.logged (ask (.findIssuer approverId keyId))
      approverId keyId)

/-- The requests, over an empty repository. -/
def requestsPool (requests : ι → IssuerRequest) :
    Pool IssuerCall IssuerCall.Answer Failure (fun _ : ι => IssuerAnswer Key)
      MemoryApprovalIssuerRepository :=
  ⟨fun i => program registry (requests i), empty⟩

/-- A request makes its call, and no other. -/
theorem program_ensures (request : IssuerRequest) : (program registry request).Ensures history
    (fun t call => t = [] ∧ call = callOf request) (fun _ _ => True) [] := by
  cases request with
  | resolve approverId keyId =>
    have hprogram : program registry (.resolve approverId keyId) = do
        return .issuer (← registry.resolve Failure.logged (ask (.findIssuer approverId keyId))
          approverId keyId) := rfl
    rw [hprogram]
    unfold GovernedApprovalIssuerRegistry.resolve
    split
    · trivial
    · refine ⟨⟨rfl, rfl⟩, ?_⟩
      rintro (e | record) t ht
      · cases e <;> trivial
      · trivial
  | _ =>
    refine ⟨⟨rfl, rfl⟩, ?_⟩
    rintro (e | change) t ht
    · trivial
    · trivial

variable {registry} {requests : ι → IssuerRequest} {request : IssuerRequest}
  {log : List (ι × Event IssuerCall IssuerCall.Answer Failure)}
  {Q : Pool IssuerCall IssuerCall.Answer Failure (fun _ : ι => IssuerAnswer Key)
    MemoryApprovalIssuerRepository}

/-- The thread of a call that has changed something. -/
def changedBy : ι × Event IssuerCall IssuerCall.Answer Failure → Option ι
  | (_, ⟨.findIssuer .., _⟩) | (_, ⟨_, .error _⟩) => none
  | (i, ⟨_, .ok _⟩) => some i

omit [DecidableEq ι] in
theorem changedBy_error {i : ι} {call : IssuerCall} {e : Failure} :
    changedBy (i, ⟨call, .error e⟩) = none := by
  cases call <;> rfl

theorem of_changed {i : ι} (h : i ∈ log.filterMap changedBy) :
    ∃ e ∈ eventsOf i log, changedBy (i, e) = some i := by
  obtain ⟨⟨j, call, ans⟩, hmem, hchanged⟩ := List.mem_filterMap.mp h
  have hij : j = i := by
    cases ans with
    | error e =>
      rw [changedBy_error] at hchanged
      cases hchanged
    | ok answer => cases call <;> cases hchanged <;> rfl
  subst hij
  exact ⟨⟨call, ans⟩, mem_eventsOf.mpr hmem, hchanged⟩

theorem outcome_cases {α : Type} {r : Except Failure (α × MemoryApprovalIssuerRepository)}
    {ans : Except Failure α} (h : s.outcome r = (ans, s')) :
    (∃ a, r = .ok (a, s') ∧ ans = .ok a) ∨ ∃ e, ans = .error e ∧ s' = s := by
  cases r with
  | ok r =>
    cases h
    exact .inl ⟨r.1, rfl, rfl⟩
  | error e =>
    cases h
    exact .inr ⟨e, rfl, rfl⟩

omit [DecidableEq ι] in
/-- A change is carried out when its request has run its one call, and never before. -/
theorem change_runs {t : List (Event IssuerCall IssuerCall.Answer Failure)}
    {r : Except Failure (IssuerAnswer Key)} (hchange : request.IsChange)
    (h : Runs (program registry request) t r) :
    (∃ answer e, r = .ok answer ∧ t = [e] ∧ ∀ i : ι, changedBy (i, e) = some i) ∨
      ∃ failure e, r = .error failure ∧ t = [e] ∧ ∀ i : ι, changedBy (i, e) = none := by
  cases request with
  | resolve => cases hchange
  | _ =>
    rcases runs_perform_bind.mp h with ⟨e, rfl, rfl⟩ | ⟨change, t', rfl, hreturn⟩
    · exact .inr ⟨e, _, rfl, rfl, fun _ => rfl⟩
    · obtain ⟨rfl, rfl⟩ := runs_done.mp hreturn
      exact .inl ⟨_, _, rfl, rfl, fun _ => rfl⟩

/-- The calls that have changed something are requests carried out one after another. -/
theorem reached_run (hproposed : ∀ i change, requests i = .createChange change → change.Proposed)
    (hfresh : ∀ i j change change', requests i = .createChange change →
      requests j = .createChange change' → change.changeId = change'.changeId → i = j)
    (h : Exec (Handled run) (requestsPool registry requests) log Q) :
    ApproverKeys.Run requests (log.filterMap changedBy) .empty Q.state.keys := by
  refine h.where_true.induction (I := fun log s =>
    ApproverKeys.Run requests (log.filterMap changedBy) .empty s.keys)
    (fun i => program_ensures registry (requests i)) ?_ ?_
  · exact keys_empty
  · rintro log s i ⟨call, ans⟩ s' hrun ⟨hfirst, hcall⟩ - hs
    have hlifecycle := ApproverKeys.lifecycle_of_run hrun ApproverKeys.lifecycle_empty
    rw [List.filterMap_append]
    -- what a call throws changes nothing
    have hthrown : ∀ {e : Failure}, s' = s → ApproverKeys.Run requests
        (log.filterMap changedBy ++ [(i, ⟨call, .error e⟩)].filterMap changedBy) .empty
        s'.keys := by
      rintro e rfl
      rwa [List.filterMap_cons_none changedBy_error, List.filterMap_nil, List.append_nil]
    cases call with
    | findIssuer approverId keyId =>
      cases hs
      rwa [List.filterMap_cons_none rfl, List.filterMap_nil, List.append_nil]
    | createChange change =>
      have hrequest : requests i = .createChange change := by
        cases hrequest : requests i <;> rw [hrequest] at hcall <;> cases hcall
        rfl
      rcases outcome_cases hs with ⟨answer, hok, rfl⟩ | ⟨e, rfl, hsame⟩
      · refine hrun.snoc (i := i) ?_
        rw [hrequest]
        refine createChange_step (hproposed i change hrequest) ?_ hok
        rw [Option.eq_none_iff_forall_not_mem]
        intro c hc
        rcases ApproverKeys.created_of_run hrun hc with ⟨_, ⟨⟩, -⟩ | ⟨j, hj, created, hcreated, hid, -⟩
        obtain rfl := hfresh i j change created hrequest hcreated hid.symm
        obtain ⟨e, he, -⟩ := of_changed hj
        rw [hfirst] at he
        cases he
      · exact hthrown hsame
    | approveChange changeId approvedBy resolvedAt =>
      have hrequest : requests i = .approveChange changeId approvedBy resolvedAt := by
        cases hrequest : requests i <;> rw [hrequest] at hcall <;> cases hcall
        rfl
      rcases outcome_cases hs with ⟨answer, hok, rfl⟩ | ⟨e, rfl, hsame⟩
      · refine hrun.snoc (i := i) ?_
        rw [hrequest]
        exact approveChange_step hlifecycle hok
      · exact hthrown hsame
    | rejectChange changeId rejectedBy rejectionReason resolvedAt =>
      have hrequest : requests i =
          .rejectChange changeId rejectedBy rejectionReason resolvedAt := by
        cases hrequest : requests i <;> rw [hrequest] at hcall <;> cases hcall
        rfl
      rcases outcome_cases hs with ⟨answer, hok, rfl⟩ | ⟨e, rfl, hsame⟩
      · refine hrun.snoc (i := i) ?_
        rw [hrequest]
        exact rejectChange_step hok
      · exact hthrown hsame

/-- **The repository in memory keeps the lifecycle of approver keys.** -/
theorem memory_keeps (hproposed : ∀ i change, requests i = .createChange change → change.Proposed)
    (hfresh : ∀ i j change change', requests i = .createChange change →
      requests j = .createChange change' → change.changeId = change'.changeId → i = j)
    (hresolve : ∀ i approverId keyId, requests i = .resolve approverId keyId →
      NulFree approverId ∧ NulFree keyId) :
    KeepsApproverKeys requests registry (Handled run) keys True
      (requestsPool registry requests) := by
  refine .of_order (fun log _ => log.filterMap changedBy)
    (fun log Q h => reached_run hproposed hfresh h)
    (fun log Q log' R h h' => ⟨log'.filterMap changedBy, List.filterMap_append⟩) ?_ ?_ ?_
  · intro log Q h i answer hchange hreturn
    have hsteps := h.steps_of_thread i
    rw [hreturn] at hsteps
    rcases change_runs hchange hsteps with ⟨_, e, -, ht, hchanged⟩ | ⟨_, _, hfailed, -⟩
    · refine List.mem_filterMap.mpr ⟨(i, e), mem_eventsOf.mp ?_, hchanged i⟩
      rw [ht]
      exact List.mem_singleton_self e
    · cases hfailed
  · rintro log Q h i e - hchange hfail hmem
    have hsteps := h.steps_of_thread i
    rw [hfail] at hsteps
    rcases change_runs hchange hsteps with ⟨_, _, hreturned, -⟩ | ⟨_, e, -, ht, hunchanged⟩
    · cases hreturned
    · obtain ⟨e', he', hchanged⟩ := of_changed hmem
      rw [ht] at he'
      rw [List.mem_singleton.mp he', hunchanged i] at hchanged
      cases hchanged
  · intro i approverId keyId t r hrequest hruns
    obtain ⟨happrover, hkey⟩ := hresolve i approverId keyId hrequest
    have hprogram : (requestsPool registry requests).threads i =
        program registry (.resolve approverId keyId) := congrArg (program registry) hrequest
    rw [hprogram] at hruns
    obtain ⟨found, t₁, t₂, rfl, hfound, hreturn⟩ := runs_bind_ok.mp hruns
    obtain ⟨rfl, hsame⟩ := runs_done.mp hreturn
    cases hsame
    rcases registry.resolve_runs hfound with hcode | ⟨hcode, record, hrecord, hissuer⟩
    · exact .inl hcode
    · obtain rfl := runs_perform.mp hrecord
      refine .inr ⟨hcode, _, List.mem_append_left _ (List.mem_singleton_self _), ?_⟩
      intro s s' hs
      refine ⟨record, (issuer_keys happrover hkey).trans ?_, hissuer⟩
      exact Except.ok.inj (congrArg Prod.fst hs)

end Requests

end MemoryApprovalIssuerRepository

end Parmana.Governance

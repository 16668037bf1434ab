import Parmana.Collections.Table
import Parmana.Interaction.Concurrent
import Parmana.Runtime.Domain

/-! # Pending policy changes

A proposed policy change waits for a checker, and there is at most one pending change
for a policy name and version.  The rules are two pure functions of the repository
interface; `MemoryPendingPolicyChangeRepository` applies them over a `Map`.

A call of that repository runs in blocks: `create` looks for a pending change, gives
up control at its `await`, and inserts when it resumes.  Two creations that overlap can
therefore both insert (`two_pending`).  **Where the lookup still holds at every
insertion, at most one change is pending** (`one_pending`), however the calls are
interleaved; it does where no other creation of the same pair inserts in between
(`lookupHolds_of_unhindered`).
-/
namespace Parmana.Governance
open Js Interaction Interaction.Program

/-! ## Changes -/

/-- `PendingPolicyChangeStatus`. -/
inductive PendingPolicyChangeStatus where
  | pendingApproval
  | approved
  | rejected
  deriving DecidableEq

/-- The text of a status. -/
def PendingPolicyChangeStatus.text : PendingPolicyChangeStatus → JsString
  | .pendingApproval => "PENDING_APPROVAL"
  | .approved => "APPROVED"
  | .rejected => "REJECTED"

/-- `PendingPolicyChange`. -/
structure PendingPolicyChange where
  pendingPolicyChangeId : JsString
  policyName : JsString
  policyVersion : JsString
  proposedContent : Json
  proposedBy : JsString
  proposedAt : Int
  status : PendingPolicyChangeStatus
  reason : JsString
  resolvedBy : Option JsString
  rejectionReason : Option JsString
  deriving DecidableEq

/-- `PendingPolicyChangeResolution`. -/
inductive PendingPolicyChangeResolution where
  | approved (resolvedBy : JsString)
  | rejected (resolvedBy rejectionReason : JsString)
  deriving DecidableEq

/-- `ConflictError`. -/
def conflictError (message : JsString) : Failure := .parmanaError message "CONFLICT"

/-- `PendingPolicyChangeNotFoundError`. -/
def pendingPolicyChangeNotFound (pendingPolicyChangeId : JsString) : Failure :=
  .parmanaError (("Pending Policy Change '" : JsString) ++ pendingPolicyChangeId ++
    ("' not found." : JsString)) "PENDING_POLICY_CHANGE_NOT_FOUND"

/-- `assertNoConflictingPendingChange`. -/
def assertNoConflictingPendingChange (policyName policyVersion : JsString)
    (existingPending : Option PendingPolicyChange) : Except Failure Unit :=
  match existingPending with
  | none => .ok ()
  | some existing => .error (conflictError
      (("A PENDING_APPROVAL change already exists for policy '" : JsString) ++ policyName ++
        ("' version '" : JsString) ++ policyVersion ++
        ("' (pendingPolicyChangeId '" : JsString) ++ existing.pendingPolicyChangeId ++
        JsString.ofString ("'). It must be approved or rejected before a new proposal against the " ++
          "same policy version can be created.")))

/-- `applyPendingPolicyChangeResolution`. -/
def applyPendingPolicyChangeResolution (existing : PendingPolicyChange)
    (resolution : PendingPolicyChangeResolution) : Except Failure PendingPolicyChange :=
  if existing.status = .pendingApproval then
    match resolution with
    | .approved resolvedBy =>
      .ok { existing with status := .approved, resolvedBy := some resolvedBy }
    | .rejected resolvedBy rejectionReason =>
      .ok { existing with
        status := .rejected
        resolvedBy := some resolvedBy
        rejectionReason := some rejectionReason }
  else
    .error (conflictError (("Pending Policy Change '" : JsString) ++
      existing.pendingPolicyChangeId ++ ("' is already '" : JsString) ++ existing.status.text ++
      ("' -- only a PENDING_APPROVAL change can be approved or rejected." : JsString)))

/-- A resolution moves a pending change, and nothing else, to a resolved one. -/
theorem applyResolution_ok {existing updated : PendingPolicyChange}
    {resolution : PendingPolicyChangeResolution}
    (h : applyPendingPolicyChangeResolution existing resolution = .ok updated) :
    existing.status = .pendingApproval ∧ updated.status ≠ .pendingApproval ∧
      updated.pendingPolicyChangeId = existing.pendingPolicyChangeId := by
  unfold applyPendingPolicyChangeResolution at h
  split at h
  · rename_i hpending
    cases resolution with
    | approved resolvedBy =>
      cases h
      exact ⟨hpending, by simp, rfl⟩
    | rejected resolvedBy rejectionReason =>
      cases h
      exact ⟨hpending, by simp, rfl⟩
  · cases h

/-! ## The repository in memory -/

/-- `this.changes`. -/
abbrev PendingPolicyChanges := Table PendingPolicyChange.pendingPolicyChangeId

/-- Whether a change is the pending one of a policy name and version. -/
def PendingPolicyChange.isPendingFor (policyName policyVersion : JsString)
    (change : PendingPolicyChange) : Bool :=
  decide (change.policyName = policyName) && decide (change.policyVersion = policyVersion) &&
    decide (change.status = .pendingApproval)

/-- `findPending`. -/
def findPending (changes : PendingPolicyChanges) (policyName policyVersion : JsString) :
    Option PendingPolicyChange :=
  changes.values.find? (PendingPolicyChange.isPendingFor policyName policyVersion)

/-- `resolve`, which does not pause. -/
def resolvePending (changes : PendingPolicyChanges) (pendingPolicyChangeId : JsString)
    (resolution : PendingPolicyChangeResolution) :
    Except Failure (PendingPolicyChange × PendingPolicyChanges) :=
  match changes.get pendingPolicyChangeId with
  | none => .error (pendingPolicyChangeNotFound pendingPolicyChangeId)
  | some existing =>
    (applyPendingPolicyChangeResolution existing resolution).map fun updated =>
      (updated, changes.set updated)

theorem resolvePending_ok {changes changes' : PendingPolicyChanges} {id : JsString}
    {resolution : PendingPolicyChangeResolution} {updated : PendingPolicyChange}
    (h : resolvePending changes id resolution = .ok (updated, changes')) :
    changes' = changes.set updated ∧ ∃ existing, changes.get id = some existing ∧
      applyPendingPolicyChangeResolution existing resolution = .ok updated := by
  unfold resolvePending at h
  split at h
  · cases h
  · rename_i existing hget
    cases happly : applyPendingPolicyChangeResolution existing resolution with
    | error failure =>
      rw [happly] at h
      cases h
    | ok resolved =>
      rw [happly] at h
      cases h
      exact ⟨rfl, existing, hget, happly⟩

namespace MemoryPendingPolicyChangeRepository

/-- The blocks a call runs in. -/
inductive Block where
  | findPending (policyName policyVersion : JsString)
  | set (change : PendingPolicyChange)
  | resolve (pendingPolicyChangeId : JsString) (resolution : PendingPolicyChangeResolution)
  deriving DecidableEq

/-- What a block answers. -/
abbrev Block.Answer : Block → Type
  | .findPending .. => Option PendingPolicyChange
  | .set _ => Unit
  | .resolve .. => PendingPolicyChange

/-- What a block does. -/
def run : (block : Block) → PendingPolicyChanges → Except Failure block.Answer × PendingPolicyChanges
  | .findPending policyName policyVersion, changes =>
    (.ok (findPending changes policyName policyVersion), changes)
  | .set change, changes => (.ok (), changes.set change)
  | .resolve id resolution, changes =>
    match resolvePending changes id resolution with
    | .ok (updated, changes') => (.ok updated, changes')
    | .error e => (.error e, changes)

/-- Runs one block. -/
abbrev step (block : Block) : Program Block Block.Answer Failure block.Answer := perform block

/-- `create`. -/
def create (change : PendingPolicyChange) :
    Program Block Block.Answer Failure PendingPolicyChange := do
  let existingPending ← step (.findPending change.policyName change.policyVersion)
  .done (assertNoConflictingPendingChange change.policyName change.policyVersion existingPending)
  step (.set change)
  return change

/-- `resolve`. -/
def resolve (pendingPolicyChangeId : JsString) (resolution : PendingPolicyChangeResolution) :
    Program Block Block.Answer Failure PendingPolicyChange :=
  step (.resolve pendingPolicyChangeId resolution)

/-- A call of the repository. -/
inductive Call where
  | create (change : PendingPolicyChange)
  | resolve (pendingPolicyChangeId : JsString) (resolution : PendingPolicyChangeResolution)

/-- What it runs. -/
def Call.program : Call → Program Block Block.Answer Failure PendingPolicyChange
  | .create change => MemoryPendingPolicyChangeRepository.create change
  | .resolve id resolution => MemoryPendingPolicyChangeRepository.resolve id resolution

end MemoryPendingPolicyChangeRepository

/-! ## One pending change -/

/-- At most one change for a policy name and version is pending. -/
def OnePending (changes : PendingPolicyChanges) : Prop :=
  ∀ c ∈ changes.values, ∀ d ∈ changes.values, c.status = .pendingApproval →
    d.status = .pendingApproval → c.policyName = d.policyName →
    c.policyVersion = d.policyVersion → c = d

theorem findPending_none {changes : PendingPolicyChanges} {policyName policyVersion : JsString} :
    findPending changes policyName policyVersion = none ↔
      ∀ c ∈ changes.values, c.policyName = policyName → c.policyVersion = policyVersion →
        c.status ≠ .pendingApproval := by
  unfold findPending PendingPolicyChange.isPendingFor
  rw [List.find?_eq_none]
  simp only [Bool.and_eq_true, decide_eq_true_eq, not_and, and_imp]

open MemoryPendingPolicyChangeRepository

/-- At an insertion of a pending change the lookup still finds nothing. -/
def LookupHolds (changes : PendingPolicyChanges)
    (e : Event Block Block.Answer Failure) (_ : PendingPolicyChanges) : Prop :=
  ∀ change, e.1 = .set change → change.status = .pendingApproval →
    findPending changes change.policyName change.policyVersion = none

/-- A block leaves the changes as they are or writes one, and only an insertion writes one
that is pending. -/
theorem run_effect {changes changes' : PendingPolicyChanges}
    {e : Event Block Block.Answer Failure} (hrun : Handled run changes e changes') :
    changes' = changes ∨ ∃ change, changes' = changes.set change ∧
      (change.status = .pendingApproval → e.1 = .set change) := by
  obtain ⟨block, answer⟩ := e
  unfold Handled at hrun
  cases block with
  | findPending policyName policyVersion =>
    cases hrun
    exact .inl rfl
  | set change =>
    cases hrun
    exact .inr ⟨change, rfl, fun _ => rfl⟩
  | resolve id resolution =>
    dsimp only [run] at hrun
    split at hrun
    · rename_i updated changes'' hresolve
      cases hrun
      obtain ⟨rfl, existing, -, happly⟩ := resolvePending_ok hresolve
      exact .inr ⟨updated, rfl, fun hpending => absurd hpending (applyResolution_ok happly).2.1⟩
    · cases hrun
      exact .inl rfl

/-- A block keeps at most one change pending, where the lookup still holds. -/
theorem onePending_run {changes changes' : PendingPolicyChanges}
    {e : Event Block Block.Answer Failure} (hone : OnePending changes)
    (hrun : Handled run changes e changes') (hlookup : LookupHolds changes e changes') :
    OnePending changes' := by
  rcases run_effect hrun with rfl | ⟨change, rfl, hset⟩
  · exact hone
  have hnew : change.status = .pendingApproval → ∀ d ∈ changes.values,
      d.policyName = change.policyName → d.policyVersion = change.policyVersion →
        d.status ≠ .pendingApproval :=
    fun hpending => findPending_none.mp (hlookup change (hset hpending) hpending)
  intro c hc d hd hcp hdp hname hversion
  rcases Table.mem_set.mp hc with hcnew | ⟨hcold, -⟩
  · rcases Table.mem_set.mp hd with hdnew | ⟨hdold, -⟩
    · exact hcnew.trans hdnew.symm
    · subst hcnew
      exact absurd hdp (hnew hcp d hdold hname.symm hversion.symm)
  · rcases Table.mem_set.mp hd with hdnew | ⟨hdold, -⟩
    · subst hdnew
      exact absurd hcp (hnew hdp c hcold hname hversion)
    · exact hone c hcold d hdold hcp hdp hname hversion

/-- A pending change for a policy name and version is inserted. -/
def InsertsPending (policyName policyVersion : JsString)
    (e : Event Block Block.Answer Failure) : Prop :=
  ∃ change, e.1 = .set change ∧ change.policyName = policyName ∧
    change.policyVersion = policyVersion ∧ change.status = .pendingApproval

/-- What is not found is not found after a block that does not insert it. -/
theorem findPending_none_run {changes changes' : PendingPolicyChanges}
    {e : Event Block Block.Answer Failure} {policyName policyVersion : JsString}
    (hnone : findPending changes policyName policyVersion = none)
    (hrun : Handled run changes e changes') (hinserts : ¬ InsertsPending policyName policyVersion e) :
    findPending changes' policyName policyVersion = none := by
  rcases run_effect hrun with rfl | ⟨change, rfl, hset⟩
  · exact hnone
  refine findPending_none.mpr fun c hc hname hversion hpending => ?_
  rcases Table.mem_set.mp hc with rfl | ⟨hold, -⟩
  · exact hinserts ⟨c, hset hpending, hname, hversion, hpending⟩
  · exact findPending_none.mp hnone c hold hname hversion hpending

/-- What a creation has seen when it inserts. -/
def LookedUp (t : List (Event Block Block.Answer Failure)) (block : Block) : Prop :=
  ∀ change, block = .set change →
    ⟨.findPending change.policyName change.policyVersion, .ok none⟩ ∈ t

/-- A creation inserts after its lookup found nothing. -/
theorem call_lookedUp (call : Call) : call.program.Ensures history LookedUp (fun _ _ => True) [] := by
  cases call with
  | create change =>
    refine Ensures.mono (Traced.bind_perform (R := fun _ _ => True) (fun _ h => nomatch h)
      fun existing => Traced.bind_done fun _ hassert => ?_) fun _ _ _ => trivial
    cases existing with
    | some existing => cases hassert
    | none =>
      refine Traced.bind_perform ?_ fun _ => Traced.pure trivial
      rintro _ ⟨⟩
      exact List.mem_singleton_self _
  | resolve id resolution =>
    exact ensures_perform.mpr ⟨fun _ h => (nomatch h), fun _ _ _ => trivial⟩

section Runs
variable {ι : Type} [DecidableEq ι]

/-- The repository as it is created, with a call in each thread. -/
def startCalls (calls : ι → Call) :
    Pool Block Block.Answer Failure (fun _ : ι => PendingPolicyChange) PendingPolicyChanges where
  threads i := (calls i).program
  state := .empty

/-- Since its lookup no other creation has inserted a pending change for the policy name and
version that a creation inserts one for. -/
def Unhindered (log : List (ι × Event Block Block.Answer Failure)) (i : ι)
    (e : Event Block Block.Answer Failure) : Prop :=
  ∀ change, e.1 = .set change → ∀ before after answer,
    log = before ++ (i, ⟨.findPending change.policyName change.policyVersion, answer⟩) :: after →
      ∀ x ∈ after, ¬ InsertsPending change.policyName change.policyVersion x.2

/-- What a lookup did not find is not there until it is inserted. -/
theorem notFound_stays {log : List (ι × Event Block Block.Answer Failure)}
    {P Q : Pool Block Block.Answer Failure (fun _ : ι => PendingPolicyChange) PendingPolicyChanges}
    {policyName policyVersion : JsString} (h : Exec (Handled run) P log Q)
    (hnone : findPending P.state policyName policyVersion = none)
    (hquiet : ∀ x ∈ log, ¬ InsertsPending policyName policyVersion x.2) :
    findPending Q.state policyName policyVersion = none := by
  induction h with
  | refl => exact hnone
  | step _ _ hs ih =>
    obtain ⟨hbefore, hlast⟩ := List.forall_mem_append.mp hquiet
    exact findPending_none_run (ih hbefore) hs (hlast _ (List.mem_singleton_self _))

/-- **The lookup of every creation still holds** where no creation of the same policy name
and version inserts between another one's lookup and its insertion. -/
theorem lookupHolds_of_unhindered {calls : ι → Call}
    {log : List (ι × Event Block Block.Answer Failure)}
    {Q : Pool Block Block.Answer Failure (fun _ : ι => PendingPolicyChange) PendingPolicyChanges}
    (h : ExecWhere (Handled run) (fun log _ i e => Unhindered log i e) (startCalls calls) log Q) :
    Exec (fun s e s' => Handled run s e s' ∧ LookupHolds s e s') (startCalls calls) log Q := by
  induction h with
  | refl => exact .refl _
  | @step log Q i op k ans s' hrun hi hs hunhindered ih =>
    refine ih.step hi ⟨hs, fun change hset _ => ?_⟩
    have hsteps := hrun.exec.steps_of_thread i
    rw [hi] at hsteps
    have hlooked := pre_of_steps (call_lookedUp _) hsteps change hset
    -- the lookup, and what came after it
    obtain ⟨before, after, rfl⟩ := List.append_of_mem (mem_eventsOf.mp hlooked)
    obtain ⟨R, k', s₁, -, -, hfind, hafter⟩ := hrun.exec.split
    obtain ⟨hfound, rfl⟩ := Prod.mk.inj hfind
    exact notFound_stays hafter (Except.ok.inj hfound) (hunhindered change hset _ _ _ rfl)

/-- **Where the lookup of every creation still holds when it inserts, at most one
change is pending** in every state the repository reaches. -/
theorem one_pending (calls : ι → Call)
    {log : List (ι × Event Block Block.Answer Failure)}
    {Q : Pool Block Block.Answer Failure (fun _ : ι => PendingPolicyChange) PendingPolicyChanges}
    (h : Exec (fun s e s' => Handled run s e s' ∧ LookupHolds s e s') (startCalls calls) log Q) :
    OnePending Q.state := by
  refine h.events_induction (I := fun _ s => OnePending s) ?_ ?_
  · intro c hc
    exact absurd hc (Table.not_mem_empty c)
  · rintro log s i e s' hone ⟨hrun, hlookup⟩
    exact onePending_run hone hrun hlookup

end Runs

/-! ## Two creations that overlap -/

namespace TwoCreations

/-- A proposal against version `1` of one policy. -/
def proposal (id : JsString) : PendingPolicyChange where
  pendingPolicyChangeId := id
  policyName := "refunds"
  policyVersion := "1"
  proposedContent := .obj []
  proposedBy := "maker"
  proposedAt := 1767225600000
  status := .pendingApproval
  reason := "reason"
  resolvedBy := none
  rejectionReason := none

/-- Two proposals are created. -/
def calls : Bool → Call
  | false => .create (proposal "first")
  | true => .create (proposal "second")

/-- They look, and then they insert. -/
def schedule : List Bool := [false, true, false, true]

end TwoCreations

/-- **Two creations that overlap leave two changes pending** for one policy and
version. -/
theorem two_pending : ∃ log Q,
    Exec (Handled run) (startCalls TwoCreations.calls) log Q ∧ ¬ OnePending Q.state := by
  have h := Exec.play run TwoCreations.schedule
    ((startCalls TwoCreations.calls).meets_true run TwoCreations.schedule)
  refine ⟨_, _, h.mono fun _ _ _ hs => hs.1, fun hone => ?_⟩
  have hvalues : ((startCalls TwoCreations.calls).play run TwoCreations.schedule).state.values =
      [TwoCreations.proposal "first", TwoCreations.proposal "second"] := rfl
  have hsame := hone (TwoCreations.proposal "first") (by simp [hvalues])
    (TwoCreations.proposal "second") (by simp [hvalues]) rfl rfl rfl rfl
  exact absurd hsame (by decide)

/-- One creation after the other: the second is refused. -/
theorem one_pending_in_turn : ∃ log Q,
    Exec (fun s e s' => Handled run s e s' ∧ LookupHolds s e s') (startCalls TwoCreations.calls)
      log Q ∧ Q.state.values = [TwoCreations.proposal "first"] ∧ OnePending Q.state := by
  have hmeets : (startCalls TwoCreations.calls).Meets run LookupHolds [false, false, true] := by
    refine ⟨fun _ h => (nomatch h), ?_, fun _ h => (nomatch h), trivial⟩
    rintro change ⟨⟩ -
    rfl
  have h := Exec.play run [false, false, true] hmeets
  exact ⟨_, _, h, rfl, one_pending _ h⟩

end Parmana.Governance

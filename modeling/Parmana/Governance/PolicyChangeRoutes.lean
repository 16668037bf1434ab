import Parmana.Governance.ChangeResolution
import Parmana.Governance.PolicyApprovals
import Parmana.Interaction.Sessions
import Parmana.Policy.Validator

/-! # The routes of policy changes

A policy change is proposed by one request and approved or rejected by another.  The route
that approves has the approval service write the record and the policy first, and resolves
the change after that; the change it hands to the service is the one it found before the
step-up authorization was checked.

`handle_staged` follows every route and says what a request has been answered at each of its
calls: nothing is written before the step-up authorization has been accepted, and then the
record, the policy and the status are written in this order, each once.
-/
namespace Parmana.Governance
open Js Crypto Interaction Interaction.Program

/-! ## Proposals -/

/-- What a proposal is sent with. -/
structure Proposal where
  name : JsString
  version : JsString
  proposedContent : Json
  reason : JsString
  deriving DecidableEq

/-- Why a proposal is refused with status 400. -/
inductive ProposalError where
  | nameOrVersion
  | reason
  | notAnObject
  | policyId (policyId : JsValue) (name : JsString)
  | policyVersion
  | invalid (error : Policy.ValidationError)
  deriving DecidableEq

/-- `typeof candidate.policyVersion === "string" && VALID_NAME_OR_VERSION.test(…)`. -/
def validVersion : JsValue → Bool
  | .json (.str version) => validNameOrVersion version
  | _ => false

/-- What is checked of a proposal. -/
def Proposal.check (re : Policy.RegExp) (proposal : Proposal) : Except ProposalError Unit :=
  let candidate : JsValue := .json proposal.proposedContent
  if (validNameOrVersion proposal.name && validNameOrVersion proposal.version) = false then
    .error .nameOrVersion
  else if proposal.reason.trim.isEmpty then .error .reason
  else match proposal.proposedContent with
    | .obj _ =>
      if JsValue.strictEq (candidate.get "policyId") (.json (.str proposal.name)) = false then
        .error (.policyId (candidate.get "policyId") proposal.name)
      else if validVersion (candidate.get "policyVersion") = false then .error .policyVersion
      else (Policy.validate re proposal.proposedContent).mapError .invalid
    | _ => .error .notAnObject

/-! ## Requests -/

/-- A request of a caller that is authenticated. -/
inductive PolicyChangeRequest where
  | propose (callerId : JsString) (proposal : Proposal)
  | approve (callerId id : JsString)
  | reject (callerId id rejectionReason : JsString)
  deriving DecidableEq

/-- What a request is answered. -/
inductive PolicyChangeResponse where
  | badRequest (error : ProposalError)
  | created (change : PendingPolicyChange)
  | resolved (change : PendingPolicyChange)
  deriving DecidableEq

namespace PolicyChangeRequest

/-- The change a request approves. -/
def approves : PolicyChangeRequest → Option JsString
  | .approve _ id => some id
  | _ => none

/-- The change a request approves or rejects. -/
def resolves : PolicyChangeRequest → Option JsString
  | .propose .. => none
  | .approve _ id | .reject _ id _ => some id

end PolicyChangeRequest

section Routes
variable {Key : Type} (crypto : PolicyChangeCrypto Key) (re : Policy.RegExp)

/-- `POST /policies/:name/:version/pending-changes`. -/
def proposeRoute (callerId : JsString) (proposal : Proposal) :
    GovernanceProgram PolicyChangeResponse :=
  match proposal.check re with
  | .error error => return .badRequest error
  | .ok () => do
    ask (.requireHumanCaller callerId)
    let pendingPolicyChangeId ← ask .randomUUID
    let proposedAt ← ask .now
    let change : PendingPolicyChange := {
      pendingPolicyChangeId, policyName := proposal.name, policyVersion := proposal.version,
      proposedContent := proposal.proposedContent, proposedBy := callerId, proposedAt,
      status := .pendingApproval, reason := proposal.reason, resolvedBy := none
      rejectionReason := none }
    let created ← (MemoryPendingPolicyChangeRepository.create change).relabel
      GovernanceCall.change fun _ answer => answer
    return .created created

/-- What the other two routes begin with: the change, which is the caller's to resolve. -/
def loadChange (callerId id action : JsString) : GovernanceProgram PendingPolicyChange := do
  ask (.requireHumanCaller callerId)
  match ← ask (.findChange id) with
  | none => throw (pendingPolicyChangeNotFound id)
  | some existing =>
    if existing.proposedBy = callerId then
      throw (sameActorCannotApproveOwnChange id ChangeKind.policy.subject)
    else do
      ask (.requireStepUpAuthorization callerId id action)
      return existing

/-- `POST /policies/pending-changes/:id/approve`. -/
def approveRoute (callerId id : JsString) : GovernanceProgram PolicyChangeResponse := do
  let existing ← loadChange callerId id "approve"
  let _ ← approve crypto existing callerId
  return .resolved (← ask (.change (.resolve id (.approved callerId))))

/-- `POST /policies/pending-changes/:id/reject`. -/
def rejectRoute (callerId id rejectionReason : JsString) :
    GovernanceProgram PolicyChangeResponse := do
  let _ ← loadChange callerId id "reject"
  return .resolved (← ask (.change (.resolve id (.rejected callerId rejectionReason))))

/-- The route of a request. -/
def PolicyChangeRequest.handle : PolicyChangeRequest → GovernanceProgram PolicyChangeResponse
  | .propose callerId proposal => proposeRoute re callerId proposal
  | .approve callerId id => approveRoute crypto callerId id
  | .reject callerId id rejectionReason => rejectRoute callerId id rejectionReason

end Routes

/-! ## What a request has been answered at its calls -/

/-- A call that writes a record, a policy or a status. -/
def GovernanceCall.writes : GovernanceCall → Bool
  | .createRecord _ | .save .. | .change (.resolve ..) => true
  | _ => false

/-- Nothing has failed, and nothing has been written. -/
def Quiet (t : List GovernanceEvent) : Prop :=
  ∀ e ∈ t, (∃ answer, e.2 = .ok answer) ∧ e.1.writes = false

/-- The step-up authorization of a caller for a change has been accepted. -/
def PassedStepUp (callerId id action : JsString) (t : List GovernanceEvent) : Prop :=
  (⟨.requireStepUpAuthorization callerId id action, .ok ()⟩ : GovernanceEvent) ∈ t

/-- A change is loaded by somebody who did not propose it, and nothing is written yet. -/
structure Prepared (callerId id action : JsString) (existing : PendingPolicyChange)
    (t : List GovernanceEvent) : Prop where
  found : (⟨.findChange id, .ok (some existing)⟩ : GovernanceEvent) ∈ t
  checker : existing.proposedBy ≠ callerId
  passed : PassedStepUp callerId id action t
  quiet : Quiet t

/-- What a request has been answered when it makes a call. -/
def Staged (request : PolicyChangeRequest) (t : List GovernanceEvent) : GovernanceCall → Prop
  | .requireStepUpAuthorization callerId id action =>
    (request = .approve callerId id ∧ action = "approve" ∨
      (∃ rejectionReason, request = .reject callerId id rejectionReason) ∧ action = "reject") ∧
    Quiet t
  | .createRecord record => ∃ callerId id existing, request = .approve callerId id ∧
    Prepared callerId id "approve" existing t ∧
    record.pendingPolicyChangeId = existing.pendingPolicyChangeId ∧ record.approvedBy = callerId
  | .save .. => ∃ callerId id existing u record created, request = .approve callerId id ∧
    Prepared callerId id "approve" existing u ∧ t = u ++ [⟨.createRecord record, .ok created⟩]
  | .change (.resolve id resolution) =>
    (∃ callerId existing u record created policyName policyVersion content,
      request = .approve callerId id ∧ resolution = .approved callerId ∧
      Prepared callerId id "approve" existing u ∧
      t = u ++ [⟨.createRecord record, .ok created⟩,
        ⟨.save policyName policyVersion content, .ok ()⟩]) ∨
    ∃ callerId existing rejectionReason, request = .reject callerId id rejectionReason ∧
      resolution = .rejected callerId rejectionReason ∧ Prepared callerId id "reject" existing t
  | _ => Quiet t

section Follow
variable {Key : Type} {crypto : PolicyChangeCrypto Key} {re : Policy.RegExp}
  {request : PolicyChangeRequest} {t : List GovernanceEvent}

theorem Quiet.snoc (h : Quiet t) (call : GovernanceCall) (answer : call.Answer)
    (hwrites : call.writes = false) : Quiet (t ++ [⟨call, .ok answer⟩]) := by
  intro e he
  rcases List.mem_append.mp he with hold | hlast
  · exact h e hold
  · rw [List.mem_singleton.mp hlast]
    exact ⟨⟨answer, rfl⟩, hwrites⟩

theorem Prepared.snoc {callerId id action : JsString} {existing : PendingPolicyChange}
    (h : Prepared callerId id action existing t) (call : GovernanceCall) (answer : call.Answer)
    (hwrites : call.writes = false) :
    Prepared callerId id action existing (t ++ [⟨call, .ok answer⟩]) :=
  ⟨List.mem_append_left _ h.found, h.checker, List.mem_append_left _ h.passed,
    h.quiet.snoc call answer hwrites⟩

theorem loadChange_staged {callerId id action : JsString} (ht : Quiet t)
    (hrequest : request = .approve callerId id ∧ action = "approve" ∨
      (∃ rejectionReason, request = .reject callerId id rejectionReason) ∧ action = "reject") :
    Traced (Staged request) (loadChange callerId id action)
      (fun existing t' => Prepared callerId id action existing t') t := by
  unfold loadChange ask
  refine Traced.bind_perform ht fun _ => ?_
  have hhuman := ht.snoc (.requireHumanCaller callerId) () rfl
  refine Traced.bind_perform hhuman fun found => ?_
  have hquiet := hhuman.snoc (.findChange id) found rfl
  cases found with
  | none => exact Traced.throw
  | some existing =>
    dsimp only
    split
    · exact Traced.throw
    · rename_i hchecker
      refine Traced.bind_perform ⟨hrequest, hquiet⟩ fun _ => Traced.pure ⟨?_, hchecker, ?_, ?_⟩
      · simp
      · exact List.mem_append_right _ (List.mem_singleton_self _)
      · exact hquiet.snoc _ _ rfl

/-- An approval, followed from where its change has been loaded. -/
theorem approve_staged {callerId id : JsString} {existing : PendingPolicyChange}
    (ht : Prepared callerId id "approve" existing t) :
    Traced (Staged (.approve callerId id)) (approve crypto existing callerId)
      (fun _ t' => ∃ u record created policyName policyVersion content,
        Prepared callerId id "approve" existing u ∧
        t' = u ++ [⟨.createRecord record, .ok created⟩,
          ⟨.save policyName policyVersion content, .ok ()⟩]) t := by
  unfold approve ask
  refine Traced.bind_perform ht.quiet fun before => Traced.bind_done fun contentHashAfter _ =>
    Traced.bind_done fun contentHashBefore _ => ?_
  have h₁ := ht.snoc (.load existing.policyName existing.writeVersion) before rfl
  refine Traced.bind_perform h₁.quiet fun prior => Traced.bind_done fun previousRecordHash _ => ?_
  have h₂ := h₁.snoc (.findMostRecentFor existing.policyName existing.writeVersion) prior rfl
  refine Traced.bind_perform h₂.quiet fun recordId => ?_
  have h₃ := h₂.snoc .randomUUID recordId rfl
  refine Traced.bind_perform h₃.quiet fun approvedAt => ?_
  have h₃ := h₃.snoc .now approvedAt rfl
  refine Traced.bind_perform h₃.quiet fun signature => ?_
  have h₄ := h₃.snoc (.sign _) signature rfl
  refine Traced.bind_perform ⟨callerId, id, existing, rfl, h₄, rfl, rfl⟩ fun created => ?_
  refine Traced.bind_perform ⟨callerId, id, existing, _, _, created, rfl, h₄, rfl⟩
    fun _ => Traced.pure ⟨_, _, created, existing.policyName, existing.writeVersion,
      existing.proposedContent, h₄, ?_⟩
  exact List.append_assoc _ _ _

/-- A proposal writes no record, no policy and no status. -/
theorem proposeRoute_staged {callerId : JsString} {proposal : Proposal} (ht : Quiet t) :
    Traced (Staged request) (proposeRoute re callerId proposal) (fun _ _ => True) t := by
  unfold proposeRoute ask
  split
  · exact Traced.pure trivial
  · refine Traced.bind_perform ht fun _ => ?_
    have h₁ := ht.snoc (.requireHumanCaller callerId) () rfl
    refine Traced.bind_perform h₁ fun id => ?_
    have h₂ := h₁.snoc .randomUUID id rfl
    refine Traced.bind_perform h₂ fun proposedAt => ?_
    have h₃ := h₂.snoc .now proposedAt rfl
    refine Traced.bind (R := fun _ _ => True) ?_ fun _ _ _ => Traced.pure trivial
    unfold MemoryPendingPolicyChangeRepository.create
    refine Traced.relabel_bind_perform h₃ fun existing => ?_
    have h₄ := h₃.snoc (.change (.findPending proposal.name proposal.version)) existing rfl
    rw [relabel_bind]
    refine Traced.bind_done fun _ _ => ?_
    exact Traced.relabel_bind_perform h₄ fun _ => Traced.pure trivial

/-- **Every route, followed through its calls.** -/
theorem handle_staged : Traced (Staged request) (request.handle crypto re)
    (fun _ _ => True) [] := by
  have hstart : Quiet [] := fun e he => absurd he List.not_mem_nil
  cases request with
  | propose callerId proposal => exact proposeRoute_staged hstart
  | approve callerId id =>
    refine Traced.bind (loadChange_staged hstart (.inl ⟨rfl, rfl⟩)) fun existing t' hprepared => ?_
    refine Traced.bind (approve_staged hprepared) fun record t' h => ?_
    obtain ⟨u, record, created, policyName, policyVersion, content, hprepared, rfl⟩ := h
    exact Traced.bind_perform (.inl ⟨callerId, existing, u, record, created, policyName,
      policyVersion, content, rfl, rfl, hprepared, rfl⟩) fun _ => Traced.pure trivial
  | reject callerId id rejectionReason =>
    refine Traced.bind (loadChange_staged hstart (.inr ⟨⟨_, rfl⟩, rfl⟩))
      fun existing t' hprepared => ?_
    exact Traced.bind_perform (.inr ⟨callerId, existing, rejectionReason, rfl, rfl, hprepared⟩)
      fun _ => Traced.pure trivial

end Follow

end Parmana.Governance

import Parmana.Governance.ChangeResolution
import Parmana.Interaction.Sessions

/-! # Every decision is backed by a step-up authorization

What a route has done when it decides a change is said once, in `Backed`: a human who did
not propose the change was loaded with it, an authorization that names the change and the
action passed every check, and its nonce was new.  `handle_traced` follows all six routes
to this point, whatever they are answered.

In company the answers are those of the stores.  Nobody's proposal is ever rewritten, so the
proposer that was compared is the proposer still (`Settled`), and a nonce is new once.  From
this, in every interleaving, each change of a status is backed, each authorization is
accepted for one request at most, and no nonce is used up for an authorization that fails
another check (`step_up_backed`).
-/
namespace Parmana.Governance
open Js Interaction Interaction.Program Gateway

/-! ## Decisions -/

/-- A change is given an outcome by somebody. -/
structure Decision where
  kind : ChangeKind
  action : ResolutionAction
  id : JsString
  resolvedBy : JsString
  deriving DecidableEq

/-- What a call decides. -/
def ChangeCall.decision {Key : Type} : ChangeCall Key → Option Decision
  | .resolvePolicyChange id (.approved resolvedBy) => some ⟨.policy, .approve, id, resolvedBy⟩
  | .resolvePolicyChange id (.rejected resolvedBy _) => some ⟨.policy, .reject, id, resolvedBy⟩
  | .approveApproverChange id approvedBy _ => some ⟨.approver, .approve, id, approvedBy⟩
  | .rejectApproverChange id rejectedBy _ _ => some ⟨.approver, .reject, id, rejectedBy⟩
  | .connectorBlock (.register change approvedBy) =>
    some ⟨.connector, .approve, change.changeId, approvedBy⟩
  | .connectorBlock (.revoke change _ approvedBy) =>
    some ⟨.connector, .approve, change.changeId, approvedBy⟩
  | .connectorBlock (.rejectChange id rejectedBy _) => some ⟨.connector, .reject, id, rejectedBy⟩
  | .approveConnectorChange id approvedBy => some ⟨.connector, .approve, id, approvedBy⟩
  | _ => none

/-- A call that decides nothing, uses no nonce and rests on no lookup. -/
def ChangeCall.plain {Key : Type} : ChangeCall Key → Bool
  | .recordDenial _ | .now | .find .. | .applyPolicyChange .. | .assertPublic _
  | .stepUp (.verifySignature ..) | .connectorBlock (.lookup _) => true
  | _ => false

/-- A call that applies what a lookup has found. -/
def ChangeCall.applies {Key : Type} : ChangeCall Key → Bool
  | .connectorBlock (.register ..) | .connectorBlock (.revoke ..) => true
  | _ => false

section Evidence
variable {Key : Type} (router : ChangeRouter Key) (request : ResolutionRequest)

/-- The authorization of a request has passed every check but that of its nonce. -/
structure Presented (expected : StepUpExpectation) (t : List (ChangeEvent Key)) : Prop where
  shape : isPolicyChangeStepUpAuthorizationShape request.stepUpAuthorization = true
  matched : ∃ verifier now, router.stepUpVerifier = some verifier ∧
    (⟨.now, .ok now⟩ : ChangeEvent Key) ∈ t ∧
    verifier.Matches router.dateParse request.authorization expected now
  signed : ∃ callerStepUpPublicKey publicKey,
    request.callerStepUpPublicKey = some callerStepUpPublicKey ∧
    router.createPublicKey callerStepUpPublicKey = .ok publicKey ∧
    (⟨.stepUp (.verifySignature request.authorization.payload request.authorization.signature
      publicKey), .ok true⟩ : ChangeEvent Key) ∈ t

/-- Its nonce was new. -/
def Accepted (t : List (ChangeEvent Key)) : Prop :=
  (⟨.stepUp (.checkAndRecord request.authorization.payload.nonce
    request.authorization.payload.expiresAt), .ok true⟩ : ChangeEvent Key) ∈ t

/-- What is asked for by one id is answered with a change of another. -/
inductive Leads (kind : ChangeKind) (t : List (ChangeEvent Key)) : JsString → JsString → Prop where
  | same (id) : Leads kind t id id
  | found {id change} (h : (⟨.find kind id, .ok (some change)⟩ : ChangeEvent Key) ∈ t) :
      Leads kind t id (kind.idOf change)
  | looked {id id' change current} (h : Leads kind t id id')
      (hlooked : (⟨.connectorBlock (.lookup id'), .ok (change, current)⟩ : ChangeEvent Key) ∈ t) :
      Leads kind t id change.changeId

/-- A change that somebody else proposed is loaded, and the authorization for it is
accepted. -/
structure Loaded (kind : ChangeKind) (action : ResolutionAction) (callerId : JsString)
    (change : kind.Change) (t : List (ChangeEvent Key)) : Prop where
  found : (⟨.find kind request.changeId, .ok (some change)⟩ : ChangeEvent Key) ∈ t
  checker : kind.proposedBy change ≠ callerId
  presented : Presented router request ⟨request.changeId, action.text⟩ t
  accepted : Accepted request t

/-- What a request has shown when it makes a decision. -/
structure Backed (d : Decision) (t : List (ChangeEvent Key)) : Prop where
  kind : request.kind = d.kind
  action : request.action = d.action
  caller : request.callerId = some d.resolvedBy
  human : isHumanCaller request.callerCredentialHolderType = true
  loaded : ∃ change, Loaded router request d.kind d.action d.resolvedBy change t
  leads : Leads d.kind t request.changeId d.id

/-- What a request has done when it makes a call. -/
structure Obliged (t : List (ChangeEvent Key)) (call : ChangeCall Key) : Prop where
  decides : ∀ d, call.decision = some d → Backed router request d t
  nonce : ∀ nonce expiresAt, call = .stepUp (.checkAndRecord nonce expiresAt) →
    nonce = request.authorization.payload.nonce ∧
      Presented router request ⟨request.changeId, request.action.text⟩ t
  looked : ∀ change, (∃ approvedBy, call = .connectorBlock (.register change approvedBy)) ∨
      (∃ current approvedBy, call = .connectorBlock (.revoke change current approvedBy)) →
    ∃ id current, (⟨.connectorBlock (.lookup id), .ok (change, current)⟩ : ChangeEvent Key) ∈ t
  creates : ∀ change, call ≠ .connectorBlock (.createChange change)

variable {router request} {t t' : List (ChangeEvent Key)}

theorem Presented.mono {expected : StepUpExpectation} (h : Presented router request expected t)
    (ht : t ⊆ t') : Presented router request expected t' := by
  obtain ⟨hshape, ⟨verifier, now, hverifier, hnow, hmatches⟩, pem, publicKey, hpem, hkey,
    hsigned⟩ := h
  exact ⟨hshape, ⟨verifier, now, hverifier, ht hnow, hmatches⟩, pem, publicKey, hpem, hkey,
    ht hsigned⟩

theorem Loaded.mono {kind : ChangeKind} {action : ResolutionAction} {callerId : JsString}
    {change : kind.Change} (h : Loaded router request kind action callerId change t) (ht : t ⊆ t') :
    Loaded router request kind action callerId change t' :=
  ⟨ht h.found, h.checker, h.presented.mono ht, ht h.accepted⟩

theorem Loaded.snoc {kind : ChangeKind} {action : ResolutionAction} {callerId : JsString}
    {change : kind.Change} {e : ChangeEvent Key}
    (h : Loaded router request kind action callerId change t) :
    Loaded router request kind action callerId change (t ++ [e]) :=
  h.mono (List.subset_append_left _ _)

/-- A plain call obliges to nothing. -/
theorem obliged_plain {call : ChangeCall Key} (h : call.plain = true) :
    Obliged router request t call where
  decides d hd := by
    unfold ChangeCall.decision at hd
    split at hd <;> cases hd <;> cases h
  nonce nonce expiresAt hcall := by
    subst hcall
    cases h
  looked change hcall := by
    rcases hcall with ⟨approvedBy, rfl⟩ | ⟨current, approvedBy, rfl⟩
    · cases h
    · cases h
  creates change hcall := by
    subst hcall
    cases h

/-- A call that decides, and does not rest on a lookup. -/
theorem obliged_decision {call : ChangeCall Key} {d : Decision} (hd : call.decision = some d)
    (happlies : call.applies = false) (h : Backed router request d t) :
    Obliged router request t call where
  decides d' hd' := by
    rw [hd] at hd'
    cases hd'
    exact h
  nonce nonce expiresAt hcall := by
    subst hcall
    cases hd
  looked change hcall := by
    rcases hcall with ⟨approvedBy, rfl⟩ | ⟨current, approvedBy, rfl⟩
    · cases happlies
    · cases happlies
  creates change hcall := by
    subst hcall
    cases hd

/-- A call that applies what was found. -/
theorem obliged_applied {call : ChangeCall Key} {d : Decision} {change : ExternalConnectorChange}
    (hd : call.decision = some d) (h : Backed router request d t)
    (hcall : (∃ approvedBy, call = .connectorBlock (.register change approvedBy)) ∨
      ∃ current approvedBy, call = .connectorBlock (.revoke change current approvedBy))
    (hlooked : ∃ id current,
      (⟨.connectorBlock (.lookup id), .ok (change, current)⟩ : ChangeEvent Key) ∈ t) :
    Obliged router request t call where
  decides d' hd' := by
    rw [hd] at hd'
    cases hd'
    exact h
  nonce nonce expiresAt hnonce := by
    subst hnonce
    cases hd
  looked change' hcall' := by
    rcases hcall with ⟨approvedBy, rfl⟩ | ⟨current, approvedBy, rfl⟩
    · rcases hcall' with ⟨_, hsame⟩ | ⟨_, _, hsame⟩
      · cases hsame
        exact hlooked
      · cases hsame
    · rcases hcall' with ⟨_, hsame⟩ | ⟨_, _, hsame⟩
      · cases hsame
      · cases hsame
        exact hlooked
  creates change' hcreate := by
    subst hcreate
    cases hd

/-- The nonce is looked at once everything else has passed. -/
theorem obliged_nonce (h : Presented router request ⟨request.changeId, request.action.text⟩ t) :
    Obliged router request t (.stepUp (.checkAndRecord request.authorization.payload.nonce
      request.authorization.payload.expiresAt)) where
  decides d hd := by cases hd
  nonce nonce expiresAt hcall := by
    cases hcall
    exact ⟨rfl, h⟩
  looked change hcall := by
    rcases hcall with ⟨approvedBy, hcall⟩ | ⟨current, approvedBy, hcall⟩
    · cases hcall
    · cases hcall
  creates change hcall := by cases hcall

end Evidence

/-! ## Following the routes -/

section Routes
variable {Key : Type} {router : ChangeRouter Key} {request : ResolutionRequest}
  {t : List (ChangeEvent Key)}

theorem requireHumanCaller_traced : Traced (Obliged router request)
    (router.requireHumanCaller request)
    (fun human _ => human = true → isHumanCaller request.callerCredentialHolderType = true) t := by
  unfold ChangeRouter.requireHumanCaller
  split
  · rename_i hhuman
    exact Traced.pure fun _ => hhuman
  · split
    · refine Traced.bind (R := fun _ _ => True) ?_ fun recorded t' _ => ?_
      · refine Traced.tryCatch ?_ fun _ _ => Traced.bind_done fun _ _ => Traced.pure trivial
        exact Traced.bind_perform (obliged_plain rfl) fun _ => Traced.pure trivial
      · split
        · exact Traced.throw
        · exact Traced.pure nofun
    · exact Traced.throw

/-- A route of humans only is followed from where its caller is known to be one. -/
theorem humanOnly_traced {error : JsString}
    {route : JsString → ChangeProgram Key ResolutionResponse}
    (hroute : ∀ callerId t', request.callerId = some callerId →
      isHumanCaller request.callerCredentialHolderType = true →
      Traced (Obliged router request) (route callerId) (fun _ _ => True) t') :
    Traced (Obliged router request) (router.humanOnly request error route) (fun _ _ => True) t := by
  unfold ChangeRouter.humanOnly
  split
  · exact Traced.pure trivial
  · rename_i callerId hcaller
    refine Traced.bind requireHumanCaller_traced fun human t' hhuman => ?_
    split
    · rename_i h
      exact hroute callerId t' hcaller (hhuman h)
    · exact Traced.pure trivial

section Verifier
variable {publicKey : Key} {expected : StepUpExpectation} {now : Int}
  {verifier : PolicyChangeStepUpVerifier} {authorization : PolicyChangeStepUpAuthorization}
  {dateParse : JsString → Option Int}

/-- The checks of the payload: each holds of what it is about, and the signature was found
valid. -/
theorem payload_traced : Traced (Obliged router request)
    ((PolicyChangeStepUpAuthorizationVerifier.verify dateParse authorization publicKey expected
      now).relabel ChangeCall.stepUp fun _ answer => answer)
    (fun checks t' => t ⊆ t' ∧ (checks.versionSupported = true →
      authorization.payload.versionSupported = true ∧
      checks.notExpired = Approval.notExpired dateParse now authorization.payload.expiresAt ∧
      checks.pendingPolicyChangeIdMatches =
        decide (authorization.payload.pendingPolicyChangeId = expected.pendingPolicyChangeId) ∧
      checks.actionMatches = decide (authorization.payload.action = expected.action) ∧
      (checks.signatureVerified = true →
        (⟨.stepUp (.verifySignature authorization.payload authorization.signature publicKey),
          .ok true⟩ : ChangeEvent Key) ∈ t'))) t := by
  unfold PolicyChangeStepUpAuthorizationVerifier.verify
  split
  · rename_i hversion
    refine Traced.relabel_bind_perform (obliged_plain rfl) fun verified =>
      Traced.pure ⟨?_, fun _ => ?_⟩
    · exact List.subset_append_left _ _
    · refine ⟨hversion, rfl, rfl, rfl, ?_⟩
      rintro rfl
      exact List.mem_append_right _ (List.mem_singleton_self _)
  · exact Traced.pure ⟨List.Subset.refl _, nofun⟩

theorem verifyChecks_traced : Traced (Obliged router request)
    ((verifier.verifyChecks dateParse authorization publicKey expected now).relabel
      ChangeCall.stepUp fun _ answer => answer)
    (fun checks t' => t ⊆ t' ∧ (checks.passed = true →
      verifier.Matches dateParse authorization expected now ∧
      (⟨.stepUp (.verifySignature authorization.payload authorization.signature publicKey),
        .ok true⟩ : ChangeEvent Key) ∈ t')) t := by
  unfold PolicyChangeStepUpVerifier.verifyChecks
  rw [relabel_bind]
  refine Traced.bind payload_traced fun checks t' ⟨hsub, hchecks⟩ =>
    Traced.pure ⟨hsub, fun hpassed => ?_⟩
  simp only [StepUpChecks.passed, Bool.and_eq_true] at hpassed
  obtain ⟨⟨⟨⟨⟨hversion, hsigned⟩, hexpiry⟩, hchange⟩, haction⟩, httl⟩ := hpassed
  obtain ⟨hsupported, hexpired, hnames, hacts, hevent⟩ := hchecks hversion
  rw [hexpired] at hexpiry
  rw [hnames] at hchange
  rw [hacts] at haction
  exact ⟨⟨hsupported, hexpiry, of_decide_eq_true hchange, of_decide_eq_true haction, httl⟩,
    hevent hsigned⟩

end Verifier

/-- **The step-up authorization, followed while it is accepted.** -/
theorem requireStepUp_traced : Traced (Obliged router request)
    (router.requireStepUpAuthorization request ⟨request.changeId, request.action.text⟩)
    (fun _ t' => t ⊆ t' ∧ Presented router request ⟨request.changeId, request.action.text⟩ t' ∧
      Accepted request t') t := by
  unfold ChangeRouter.requireStepUpAuthorization
  split
  · rename_i hshape
    split
    · rename_i pem verifier hpem hverifier
      refine Traced.bind_done fun publicKey hkey => ?_
      refine Traced.bind_perform (obliged_plain rfl) fun now => ?_
      unfold PolicyChangeStepUpVerifier.verify
      rw [relabel_bind, bind_bind]
      refine Traced.bind verifyChecks_traced fun checks t' ⟨hsub, hchecks⟩ => ?_
      have hbefore : t ⊆ t' := fun e he => hsub (List.mem_append_left _ he)
      refine Traced.bind (R := fun r t'' => r.valid = true → t ⊆ t'' ∧
        Presented router request ⟨request.changeId, request.action.text⟩ t'' ∧
          Accepted request t'') ?_ fun r t'' hr => ?_
      swap
      · split
        · rename_i hvalid
          exact Traced.pure (hr hvalid)
        · exact Traced.throw
      unfold PolicyChangeStepUpVerifier.consumeIf PolicyChangeStepUpVerifier.consumeNonce
      by_cases hpassed : checks.passed = true
      · obtain ⟨hmatches, hsigned⟩ := hchecks hpassed
        have hpresented : Presented router request
            ⟨request.changeId, request.action.text⟩ t' := by
          refine ⟨hshape, ⟨verifier, now, hverifier, ?_, hmatches⟩, pem, publicKey, hpem, hkey,
            hsigned⟩
          exact hsub (List.mem_append_right _ (List.mem_singleton_self _))
        rw [if_pos hpassed]
        refine Traced.relabel_bind_perform (obliged_nonce hpresented) fun unseen => Traced.pure ?_
        intro hvalid
        obtain ⟨-, rfl⟩ := Bool.and_eq_true_iff.mp hvalid
        refine ⟨List.Subset.trans hbefore (List.subset_append_left _ _), ?_, ?_⟩
        · exact hpresented.mono (List.subset_append_left _ _)
        · exact List.mem_append_right _ (List.mem_singleton_self _)
      · rw [if_neg hpassed]
        refine Traced.pure fun hvalid => ?_
        exact absurd (Bool.and_eq_true_iff.mp hvalid).1 hpassed
    · exact Traced.throw
  · exact Traced.throw

/-- A change, loaded by the request that is to resolve it. -/
theorem load_traced {kind : ChangeKind} {action : ResolutionAction} {callerId : JsString}
    (haction : request.action = action) : Traced (Obliged router request)
    (router.loadForResolution request kind action callerId request.changeId)
    (fun change t' => Loaded router request kind action callerId change t') t := by
  subst haction
  unfold ChangeRouter.loadForResolution
  refine Traced.bind_perform (obliged_plain rfl) fun found => ?_
  cases found with
  | none => exact Traced.throw
  | some existing =>
    dsimp only
    split
    · exact Traced.throw
    · rename_i hchecker
      refine Traced.bind requireStepUp_traced fun _ t' ⟨hsub, hpresented, haccepted⟩ => ?_
      refine Traced.pure ⟨hsub (List.mem_append_right _ (List.mem_singleton_self _)), hchecker,
        hpresented, haccepted⟩

/-- A request that has loaded its change backs the decision on it. -/
theorem Loaded.backed {kind : ChangeKind} {action : ResolutionAction} {callerId id : JsString}
    {change : kind.Change} (h : Loaded router request kind action callerId change t)
    (hkind : request.kind = kind) (haction : request.action = action)
    (hcaller : request.callerId = some callerId)
    (hhuman : isHumanCaller request.callerCredentialHolderType = true)
    (hleads : Leads kind t request.changeId id) :
    Backed router request ⟨kind, action, id, callerId⟩ t :=
  ⟨hkind, haction, hcaller, hhuman, ⟨change, h⟩, hleads⟩

theorem changeId_of_id {id : JsString} (h : request.id = some id) : request.changeId = id := by
  unfold ResolutionRequest.changeId
  rw [h]
  rfl

theorem approvePolicyChange_traced (hkind : request.kind = .policy)
    (haction : request.action = .approve) : Traced (Obliged router request)
    (router.approvePolicyChange request) (fun _ _ => True) t := by
  refine humanOnly_traced fun callerId t' hcaller hhuman => ?_
  split
  · exact Traced.pure trivial
  · rename_i id hid
    obtain rfl := changeId_of_id hid
    refine Traced.bind (load_traced haction) fun existing t₁ hloaded => ?_
    split
    · refine Traced.bind_perform (obliged_plain rfl) fun _ => ?_
      exact Traced.bind_perform (obliged_decision rfl rfl
        (hloaded.snoc.backed hkind haction hcaller hhuman (.same _))) fun _ => Traced.pure trivial
    · exact Traced.throw

theorem rejectPolicyChange_traced (hkind : request.kind = .policy)
    (haction : request.action = .reject) : Traced (Obliged router request)
    (router.rejectPolicyChange request) (fun _ _ => True) t := by
  refine humanOnly_traced fun callerId t' hcaller hhuman => ?_
  split
  · split
    · exact Traced.pure trivial
    · split
      · exact Traced.pure trivial
      · rename_i id hid
        obtain rfl := changeId_of_id hid
        refine Traced.bind (load_traced haction) fun existing t₁ hloaded => ?_
        exact Traced.bind_perform (obliged_decision rfl rfl
          (hloaded.backed hkind haction hcaller hhuman (.same _))) fun _ => Traced.pure trivial
  · exact Traced.pure trivial

theorem approveApproverChange_traced (hkind : request.kind = .approver)
    (haction : request.action = .approve) : Traced (Obliged router request)
    (router.approveApproverChange request) (fun _ _ => True) t := by
  refine humanOnly_traced fun callerId t' hcaller hhuman => ?_
  refine Traced.bind (load_traced haction) fun change t₁ hloaded => ?_
  refine Traced.bind_perform (obliged_plain rfl) fun now => ?_
  exact Traced.bind_perform (obliged_decision rfl rfl
    (hloaded.snoc.backed hkind haction hcaller hhuman (.found hloaded.snoc.found))) fun _ =>
      Traced.pure trivial

theorem rejectApproverChange_traced (hkind : request.kind = .approver)
    (haction : request.action = .reject) : Traced (Obliged router request)
    (router.rejectApproverChange request) (fun _ _ => True) t := by
  refine humanOnly_traced fun callerId t' hcaller hhuman => ?_
  split
  · exact Traced.pure trivial
  · refine Traced.bind (load_traced haction) fun change t₁ hloaded => ?_
    refine Traced.bind_perform (obliged_plain rfl) fun now => ?_
    exact Traced.bind_perform (obliged_decision rfl rfl
      (hloaded.snoc.backed hkind haction hcaller hhuman (.found hloaded.snoc.found))) fun _ =>
        Traced.pure trivial

/-- What a lookup has found is applied. -/
theorem applyChange_traced {callerId : JsString} {change looked : ExternalConnectorChange}
    {current : Option ExternalConnectorRegistration}
    (hkind : request.kind = .connector) (haction : request.action = .approve)
    (hcaller : request.callerId = some callerId)
    (hhuman : isHumanCaller request.callerCredentialHolderType = true)
    (hloaded : Loaded router request .connector .approve callerId change t)
    (hlooked : (⟨.connectorBlock (.lookup change.changeId), .ok (looked, current)⟩ :
      ChangeEvent Key) ∈ t) :
    Traced (Obliged router request)
      ((MemoryExternalConnectorRepository.applyChange callerId looked current).relabel
        ChangeCall.connectorBlock fun _ answer => answer) (fun _ _ => True) t := by
  have hbacked := hloaded.backed hkind haction hcaller hhuman
    (.looked (.found hloaded.found) hlooked)
  unfold MemoryExternalConnectorRepository.applyChange
  split
  · exact Traced.relabel_perform (obliged_applied rfl hbacked (.inl ⟨_, rfl⟩) ⟨_, _, hlooked⟩)
      fun _ => trivial
  · exact Traced.throw
  · exact Traced.relabel_perform (obliged_applied rfl hbacked (.inr ⟨_, _, rfl⟩) ⟨_, _, hlooked⟩)
      fun _ => trivial
  · exact Traced.throw

/-- The repository of connectors is asked to approve a change that was loaded. -/
theorem approveConnector_traced {callerId : JsString} {change : ExternalConnectorChange}
    (hkind : request.kind = .connector) (haction : request.action = .approve)
    (hcaller : request.callerId = some callerId)
    (hhuman : isHumanCaller request.callerCredentialHolderType = true)
    (hloaded : Loaded router request .connector .approve callerId change t) :
    Traced (Obliged router request) (router.approveConnector change.changeId callerId)
      (fun _ _ => True) t := by
  unfold ChangeRouter.approveConnector
  split
  · exact Traced.perform (obliged_decision rfl rfl
      (hloaded.backed hkind haction hcaller hhuman (.found hloaded.found))) fun _ => trivial
  · refine Traced.relabel_bind_perform (obliged_plain rfl) fun (looked, current) => ?_
    exact applyChange_traced hkind haction hcaller hhuman hloaded.snoc
      (List.mem_append_right _ (List.mem_singleton_self _))

theorem approveConnectorChange_traced (hkind : request.kind = .connector)
    (haction : request.action = .approve) : Traced (Obliged router request)
    (router.approveConnectorChange request) (fun _ _ => True) t := by
  refine humanOnly_traced fun callerId t' hcaller hhuman => ?_
  refine Traced.bind (load_traced haction) fun change t₁ hloaded => ?_
  refine Traced.bind (R := fun _ t' => t₁ ⊆ t') ?_ fun _ t₂ hsub => ?_
  · unfold ChangeRouter.checkEndpoint
    split
    · exact Traced.perform (obliged_plain rfl) fun _ => List.subset_append_left _ _
    · exact Traced.pure (List.Subset.refl _)
  · refine Traced.bind (approveConnector_traced hkind haction hcaller hhuman (hloaded.mono hsub))
      fun _ _ _ => Traced.pure trivial

theorem rejectConnectorChange_traced (hkind : request.kind = .connector)
    (haction : request.action = .reject) : Traced (Obliged router request)
    (router.rejectConnectorChange request) (fun _ _ => True) t := by
  refine humanOnly_traced fun callerId t' hcaller hhuman => ?_
  split
  · exact Traced.pure trivial
  · refine Traced.bind (load_traced haction) fun change t₁ hloaded => ?_
    refine Traced.bind (R := fun _ _ => True) ?_ fun _ _ _ => Traced.pure trivial
    exact Traced.relabel_perform (obliged_decision rfl rfl
      (hloaded.backed hkind haction hcaller hhuman (.found hloaded.found))) fun _ => trivial

/-- **Every route, followed to its decision.** -/
theorem handle_traced : Traced (Obliged router request) (router.handle request)
    (fun _ _ => True) t := by
  unfold ChangeRouter.handle
  split
  · rename_i hkind haction
    exact approvePolicyChange_traced hkind haction
  · rename_i hkind haction
    exact rejectPolicyChange_traced hkind haction
  · rename_i hkind haction
    exact approveApproverChange_traced hkind haction
  · rename_i hkind haction
    exact rejectApproverChange_traced hkind haction
  · rename_i hkind haction
    exact approveConnectorChange_traced hkind haction
  · rename_i hkind haction
    exact rejectConnectorChange_traced hkind haction

end Routes
/-! ## What the stores do -/

section Stores
variable {Key : Type} {signed : Key → PolicyChangeStepUpAuthorizationPayload → Prop}
  {s s' : GovernedChanges} {e : ChangeEvent Key}

/-- A change is written over the one with its id. -/
structure Overwritten (s s' : GovernedChanges) (kind : ChangeKind) (change : kind.Change) :
    Prop where
  here : s'.get kind (kind.idOf change) = some change
  elsewhere : ∀ kind' id, kind' ≠ kind ∨ id ≠ kind.idOf change → s'.get kind' id = s.get kind' id

theorem overwritten_policy (change : PendingPolicyChange) :
    Overwritten s { s with policy := s.policy.set change } .policy change where
  here := Table.get_set_self _ _
  elsewhere kind id h := by
    cases kind with
    | policy => exact Table.get_set_of_ne _ (h.resolve_left fun hne => hne rfl)
    | approver => rfl
    | connector => rfl

theorem overwritten_approver (issuers : Table ApprovalIssuerRecord.slot)
    (change : ApprovalIssuerChange) :
    Overwritten s { s with approver := ⟨issuers, s.approver.changes.set change⟩ }
      .approver change where
  here := Table.get_set_self _ _
  elsewhere kind id h := by
    cases kind with
    | policy => rfl
    | approver => exact Table.get_set_of_ne _ (h.resolve_left fun hne => hne rfl)
    | connector => rfl

theorem overwritten_connector (registrations : Table ExternalConnectorRegistration.registrationId)
    (change : ExternalConnectorChange) :
    Overwritten s { s with connector := ⟨registrations, s.connector.changes.set change⟩ }
      .connector change where
  here := Table.get_set_self _ _
  elsewhere kind id h := by
    cases kind with
    | policy => rfl
    | approver => rfl
    | connector => exact Table.get_set_of_ne _ (h.resolve_left fun hne => hne rfl)

/-- A change is resolved, and its proposer is left alone. -/
structure Resolved (d : Decision) (before after : d.kind.Change) : Prop where
  id : d.kind.idOf after = d.id
  status : d.kind.status after = d.action.outcome
  resolvedBy : d.kind.resolvedBy after = some d.resolvedBy
  proposedBy : d.kind.proposedBy after = d.kind.proposedBy before

/-- What a decision does: a change that is there is resolved, and nothing else moves. -/
def Carried (s : GovernedChanges) (d : Decision) (s' : GovernedChanges) : Prop :=
  ∃ before after, s.get d.kind d.id = some before ∧ Resolved d before after ∧
    Overwritten s s' d.kind after

theorem carried_resolve {id : JsString} {resolution : PendingPolicyChangeResolution}
    {answer : Except Failure PendingPolicyChange} {policy : PendingPolicyChanges}
    (h : MemoryPendingPolicyChangeRepository.run (.resolve id resolution) s.policy =
      (answer, policy)) :
    policy = s.policy ∨
      ∃ d, ChangeCall.decision (.resolvePolicyChange id resolution : ChangeCall Key) = some d ∧
        Carried s d { s with policy } := by
  dsimp only [MemoryPendingPolicyChangeRepository.run] at h
  split at h
  · rename_i updated changes' hresolve
    cases h
    obtain ⟨rfl, existing, hget, happly⟩ := resolvePending_ok hresolve
    obtain rfl := Table.key_of_get hget
    unfold applyPendingPolicyChangeResolution at happly
    split at happly
    · cases resolution with
      | approved resolvedBy =>
        cases happly
        refine .inr ⟨_, rfl, existing, _, hget, ?_, overwritten_policy _⟩
        exact ⟨rfl, rfl, rfl, rfl⟩
      | rejected resolvedBy rejectionReason =>
        cases happly
        refine .inr ⟨_, rfl, existing, _, hget, ?_, overwritten_policy _⟩
        exact ⟨rfl, rfl, rfl, rfl⟩
    · cases happly
  · cases h
    exact .inl rfl

theorem carried_approver_approve {changeId approvedBy : JsString} {resolvedAt : Int}
    {answer : Except Failure ApprovalIssuerChange} {approver : MemoryApprovalIssuerRepository}
    (h : s.approver.outcome (s.approver.approveChange changeId approvedBy resolvedAt) =
      (answer, approver)) :
    approver = s.approver ∨
      Carried s ⟨.approver, .approve, changeId, approvedBy⟩ { s with approver } := by
  rcases MemoryApprovalIssuerRepository.outcome_cases h with ⟨a, hok, rfl⟩ | ⟨failure, -, rfl⟩
  · obtain ⟨change, hpending, hok⟩ := Js.bind_eq_ok.mp hok
    obtain ⟨issuers, -, hok⟩ := Js.bind_eq_ok.mp hok
    cases hok
    obtain ⟨hget, -⟩ := MemoryApprovalIssuerRepository.pending_ok hpending
    obtain rfl := Table.key_of_get hget
    refine .inr ⟨change, _, hget, ?_, overwritten_approver _ _⟩
    exact ⟨rfl, rfl, rfl, rfl⟩
  · exact .inl rfl

theorem carried_approver_reject {changeId rejectedBy rejectionReason : JsString} {resolvedAt : Int}
    {answer : Except Failure ApprovalIssuerChange} {approver : MemoryApprovalIssuerRepository}
    (h : s.approver.outcome
      (s.approver.rejectChange changeId rejectedBy rejectionReason resolvedAt) =
      (answer, approver)) :
    approver = s.approver ∨
      Carried s ⟨.approver, .reject, changeId, rejectedBy⟩ { s with approver } := by
  rcases MemoryApprovalIssuerRepository.outcome_cases h with ⟨a, hok, rfl⟩ | ⟨failure, -, rfl⟩
  · obtain ⟨change, hpending, hok⟩ := Js.bind_eq_ok.mp hok
    cases hok
    obtain ⟨hget, -⟩ := MemoryApprovalIssuerRepository.pending_ok hpending
    obtain rfl := Table.key_of_get hget
    refine .inr ⟨change, _, hget, ?_, overwritten_approver _ _⟩
    exact ⟨rfl, rfl, rfl, rfl⟩
  · exact .inl rfl

theorem carried_connector_approve {changeId approvedBy : JsString}
    {answer : Except Failure ExternalConnectorChange} {connector : ExternalConnectors}
    (h : MemoryExternalConnectorRepository.settle s.connector
      (s.connector.approveTransaction changeId approvedBy) = (answer, connector)) :
    connector = s.connector ∨
      Carried s ⟨.connector, .approve, changeId, approvedBy⟩ { s with connector } := by
  rcases MemoryExternalConnectorRepository.settle_cases h with ⟨a, hok, rfl⟩ | ⟨failure, -, -, rfl⟩
  · obtain ⟨change, hpending, happlied⟩ := Js.bind_eq_ok.mp hok
    obtain ⟨hget, -⟩ := pending_ok.mp hpending
    obtain rfl := Table.key_of_get hget
    split at happlied
    · cases happlied
      refine .inr ⟨change, _, hget, ?_, overwritten_connector _ _⟩
      exact ⟨rfl, rfl, rfl, rfl⟩
    · cases happlied
    · cases happlied
      refine .inr ⟨change, _, hget, ?_, overwritten_connector _ _⟩
      exact ⟨rfl, rfl, rfl, rfl⟩
    · cases happlied
  · exact .inl rfl

/-- A block of the repository in memory carries out what it decides, if what it applies was
proposed by whoever proposed what is there. -/
theorem carried_block {block : MemoryExternalConnectorRepository.Block}
    {answer : Except Failure block.Answer} {connector : ExternalConnectors}
    (h : MemoryExternalConnectorRepository.run block s.connector = (answer, connector))
    (hcreates : ∀ change, block ≠ .createChange change)
    (hfound : ∀ change, (∃ approvedBy, block = .register change approvedBy) ∨
        (∃ current approvedBy, block = .revoke change current approvedBy) →
      s.proposer .connector change.changeId = some change.proposedBy) :
    connector = s.connector ∨
      ∃ d, ChangeCall.decision (.connectorBlock block : ChangeCall Key) = some d ∧
        Carried s d { s with connector } := by
  have hthere : ∀ {change : ExternalConnectorChange},
      s.proposer .connector change.changeId = some change.proposedBy →
        ∃ before, s.connector.changes.get change.changeId = some before ∧
          before.proposedBy = change.proposedBy :=
    fun hproposer => Option.map_eq_some_iff.mp hproposer
  cases block with
  | createChange change => exact absurd rfl (hcreates change)
  | lookup changeId =>
    cases h
    exact .inl rfl
  | register change approvedBy =>
    cases h
    obtain ⟨before, hget, hproposer⟩ := hthere (hfound change (.inl ⟨_, rfl⟩))
    refine .inr ⟨_, rfl, before, _, hget, ?_, overwritten_connector _ _⟩
    exact ⟨rfl, rfl, rfl, hproposer.symm⟩
  | revoke change current approvedBy =>
    cases h
    obtain ⟨before, hget, hproposer⟩ := hthere (hfound change (.inr ⟨_, _, rfl⟩))
    refine .inr ⟨_, rfl, before, _, hget, ?_, overwritten_connector _ _⟩
    exact ⟨rfl, rfl, rfl, hproposer.symm⟩
  | rejectChange changeId rejectedBy rejectionReason =>
    rcases MemoryExternalConnectorRepository.settle_cases h with
      ⟨a, hok, rfl⟩ | ⟨failure, -, -, rfl⟩
    · obtain ⟨change, hpending, hok⟩ := Js.map_eq_ok.mp hok
      cases hok
      obtain ⟨hget, -⟩ := pending_ok.mp hpending
      obtain rfl := Table.key_of_get hget
      refine .inr ⟨_, rfl, change, _, hget, ?_, overwritten_connector _ _⟩
      exact ⟨rfl, rfl, rfl, rfl⟩
    · exact .inl rfl

/-- **What a call moves**: the nonces, or nothing, or the change it decides. -/
theorem Answers.carried (h : Answers signed s e s')
    (hcreates : ∀ change, e.1 ≠ .connectorBlock (.createChange change))
    (hfound : ∀ change, (∃ approvedBy, e.1 = .connectorBlock (.register change approvedBy)) ∨
        (∃ current approvedBy, e.1 = .connectorBlock (.revoke change current approvedBy)) →
      s.proposer .connector change.changeId = some change.proposedBy) :
    (∀ kind id, s'.get kind id = s.get kind id) ∨
      ∃ d, e.1.decision = some d ∧ Carried s d s' := by
  induction h with
  | resolvePolicyChange h =>
    rcases carried_resolve h with rfl | hd
    · exact .inl fun _ _ => rfl
    · exact .inr hd
  | approveApproverChange h =>
    rcases carried_approver_approve h with rfl | hd
    · exact .inl fun _ _ => rfl
    · exact .inr ⟨_, rfl, hd⟩
  | rejectApproverChange h =>
    rcases carried_approver_reject h with rfl | hd
    · exact .inl fun _ _ => rfl
    · exact .inr ⟨_, rfl, hd⟩
  | approveConnectorChange h =>
    rcases carried_connector_approve h with rfl | hd
    · exact .inl fun _ _ => rfl
    · exact .inr ⟨_, rfl, hd⟩
  | connectorBlock h =>
    have hsame : ∀ {block block' : MemoryExternalConnectorRepository.Block}, block = block' →
        (ChangeCall.connectorBlock block : ChangeCall Key) = .connectorBlock block' := congrArg _
    rcases carried_block h (fun change hb => hcreates change (hsame hb)) (fun change hb =>
      hfound change (hb.imp (fun ⟨_, hb⟩ => ⟨_, hsame hb⟩) fun ⟨_, _, hb⟩ => ⟨_, _, hsame hb⟩))
      with rfl | hd
    · exact .inl fun _ _ => rfl
    · exact .inr hd
  | lost h ih => exact ih hcreates hfound
  | checkAndRecord =>
    refine .inl fun kind id => ?_
    unfold GovernedChanges.checkAndRecord
    split
    · rfl
    · cases kind <;> rfl
  | _ => exact .inl fun _ _ => rfl

theorem Answers.found {kind : ChangeKind} {id : JsString} {change : kind.Change}
    (h : Answers signed s ⟨.find kind id, .ok (some change)⟩ s') : s.get kind id = some change := by
  generalize he : (⟨.find kind id, .ok (some change)⟩ : ChangeEvent Key) = e at h
  cases h with
  | find =>
    obtain ⟨hcall, hanswer⟩ := Sigma.mk.inj_iff.mp he
    cases hcall
    exact (Except.ok.inj (eq_of_heq hanswer)).symm
  | _ => cases he

theorem Answers.looked {id : JsString} {change : ExternalConnectorChange}
    {current : Option ExternalConnectorRegistration}
    (h : Answers signed s ⟨.connectorBlock (.lookup id), .ok (change, current)⟩ s') :
    s.get .connector id = some change := by
  generalize he : (⟨.connectorBlock (.lookup id), .ok (change, current)⟩ : ChangeEvent Key) = e at h
  cases h with
  | connectorBlock h =>
    cases he
    obtain ⟨hlookup, -⟩ := Prod.mk.inj h
    exact (pending_ok.mp (MemoryExternalConnectorRepository.lookup_ok hlookup).1).1
  | _ => cases he

theorem Answers.genuine {payload : PolicyChangeStepUpAuthorizationPayload} {signature : JsString}
    {publicKey : Key}
    (h : Answers signed s ⟨.stepUp (.verifySignature payload signature publicKey), .ok true⟩ s') :
    signed publicKey payload := by
  cases h with
  | verifySignature h => exact h rfl

theorem Answers.fresh {nonce expiresAt : JsString}
    (h : Answers signed s ⟨.stepUp (.checkAndRecord nonce expiresAt), .ok true⟩ s') :
    nonce ∉ s.nonces ∧ nonce ∈ s'.nonces := by
  generalize he : (⟨.stepUp (.checkAndRecord nonce expiresAt), .ok true⟩ : ChangeEvent Key) = e at h
  cases h with
  | checkAndRecord =>
    obtain ⟨hcall, hanswer⟩ := Sigma.mk.inj_iff.mp he
    cases hcall
    have hnew : true = (s.checkAndRecord nonce).1 := Except.ok.inj (eq_of_heq hanswer)
    unfold GovernedChanges.checkAndRecord at hnew ⊢
    split at hnew
    · cases hnew
    · rename_i hmem
      rw [if_neg hmem]
      exact ⟨hmem, List.mem_cons_self⟩
  | _ => cases he

/-- Only `checkAndRecord` moves the nonces. -/
theorem Answers.nonces (h : Answers signed s e s') : s'.nonces = s.nonces ∨
    ∃ nonce expiresAt, e.1 = .stepUp (.checkAndRecord nonce expiresAt) ∧
      s'.nonces = nonce :: s.nonces := by
  induction h with
  | checkAndRecord =>
    unfold GovernedChanges.checkAndRecord
    split
    · exact .inl rfl
    · exact .inr ⟨_, _, rfl, rfl⟩
  | lost h ih => exact ih
  | _ => exact .inl rfl

theorem Answers.nonces_mono {nonce : JsString} (h : Answers signed s e s')
    (hmem : nonce ∈ s.nonces) : nonce ∈ s'.nonces := by
  rcases h.nonces with hsame | ⟨_, _, -, hcons⟩
  · rwa [hsame]
  · rw [hcons]
    exact List.mem_cons_of_mem _ hmem

theorem Carried.proposer {d : Decision} (h : Carried s d s') (kind : ChangeKind) (id : JsString) :
    s'.proposer kind id = s.proposer kind id := by
  obtain ⟨before, after, hget, hresolved, hover⟩ := h
  unfold GovernedChanges.proposer
  by_cases hhere : kind ≠ d.kind ∨ id ≠ d.kind.idOf after
  · rw [hover.elsewhere kind id hhere]
  · obtain ⟨rfl, rfl⟩ := not_or.mp hhere |>.imp not_not.mp not_not.mp
    rw [hover.here, hresolved.id, hget]
    exact congrArg some hresolved.proposedBy

end Stores

/-! ## In company -/

section Company
variable {Key ι : Type} [DecidableEq ι] (router : ChangeRouter Key)
  (requests : ι → ResolutionRequest)
  (signed : Key → PolicyChangeStepUpAuthorizationPayload → Prop) (start : GovernedChanges)

/-- What holds between the calls of requests side by side. -/
structure Settled (log : List (ι × ChangeEvent Key)) (s : GovernedChanges) : Prop where
  /-- Nobody's proposal becomes somebody else's. -/
  proposer : ∀ kind id, s.proposer kind id = start.proposer kind id
  found : ∀ i kind id change, (i, (⟨.find kind id, .ok (some change)⟩ : ChangeEvent Key)) ∈ log →
    kind.idOf change = id ∧ start.proposer kind id = some (kind.proposedBy change)
  looked : ∀ i id change current,
    (i, (⟨.connectorBlock (.lookup id), .ok (change, current)⟩ : ChangeEvent Key)) ∈ log →
      change.changeId = id ∧ start.proposer .connector id = some change.proposedBy
  genuine : ∀ i payload signature publicKey,
    (i, (⟨.stepUp (.verifySignature payload signature publicKey), .ok true⟩ : ChangeEvent Key)) ∈
      log → signed publicKey payload
  recorded : ∀ i nonce expiresAt,
    (i, (⟨.stepUp (.checkAndRecord nonce expiresAt), .ok true⟩ : ChangeEvent Key)) ∈ log →
      nonce ∈ s.nonces
  once : ∀ i j nonce expiresAt expiresAt',
    (i, (⟨.stepUp (.checkAndRecord nonce expiresAt), .ok true⟩ : ChangeEvent Key)) ∈ log →
    (j, (⟨.stepUp (.checkAndRecord nonce expiresAt'), .ok true⟩ : ChangeEvent Key)) ∈ log → i = j
  used : ∀ nonce ∈ s.nonces, nonce ∈ start.nonces ∨ ∃ i expiresAt answer,
    (i, (⟨.stepUp (.checkAndRecord nonce expiresAt), answer⟩ : ChangeEvent Key)) ∈ log
  asked : ∀ i nonce expiresAt answer,
    (i, (⟨.stepUp (.checkAndRecord nonce expiresAt), answer⟩ : ChangeEvent Key)) ∈ log →
      nonce = (requests i).authorization.payload.nonce ∧ Presented router (requests i)
        ⟨(requests i).changeId, (requests i).action.text⟩ (eventsOf i log)

variable {router requests signed start} {log : List (ι × ChangeEvent Key)} {s s' : GovernedChanges}

omit [DecidableEq ι] in
theorem mem_snoc {i j : ι} {e e' : ChangeEvent Key} (h : (i, e) ∈ log ++ [(j, e')]) :
    (i, e) ∈ log ∨ i = j ∧ e = e' := by
  rcases List.mem_append.mp h with hold | hlast
  · exact .inl hold
  · exact .inr (Prod.mk.inj (List.mem_singleton.mp hlast))

/-- What the stores are told by a thread that is obliged. -/
theorem Settled.carried {i : ι} {e : ChangeEvent Key}
    (h : Settled router requests signed start log s)
    (hpre : Obliged router (requests i) (eventsOf i log) e.1) (hs : Answers signed s e s') :
    (∀ kind id, s'.get kind id = s.get kind id) ∨
      ∃ d, e.1.decision = some d ∧ Carried s d s' := by
  refine hs.carried hpre.creates fun change hcall => ?_
  obtain ⟨id, current, hmem⟩ := hpre.looked change hcall
  obtain ⟨rfl, hproposer⟩ := h.looked i id change current (mem_eventsOf.mp hmem)
  rw [h.proposer]
  exact hproposer

theorem settled_step {i : ι} {e : ChangeEvent Key}
    (h : Settled router requests signed start log s)
    (hpre : Obliged router (requests i) (eventsOf i log) e.1) (hs : Answers signed s e s') :
    Settled router requests signed start (log ++ [(i, e)]) s' where
  proposer kind id := by
    rw [← h.proposer]
    rcases h.carried hpre hs with hsame | ⟨d, -, hd⟩
    · unfold GovernedChanges.proposer
      rw [hsame]
    · exact hd.proposer kind id
  found j kind id change hmem := by
    rcases mem_snoc hmem with hold | ⟨rfl, rfl⟩
    · exact h.found j kind id change hold
    · refine ⟨GovernedChanges.idOf_get _ hs.found, ?_⟩
      rw [← h.proposer]
      exact congrArg (Option.map _) hs.found
  looked j id change current hmem := by
    rcases mem_snoc hmem with hold | ⟨rfl, rfl⟩
    · exact h.looked j id change current hold
    · refine ⟨GovernedChanges.idOf_get _ hs.looked, ?_⟩
      rw [← h.proposer]
      exact congrArg (Option.map _) hs.looked
  genuine j payload signature publicKey hmem := by
    rcases mem_snoc hmem with hold | ⟨rfl, rfl⟩
    · exact h.genuine j payload signature publicKey hold
    · exact hs.genuine
  recorded j nonce expiresAt hmem := by
    rcases mem_snoc hmem with hold | ⟨rfl, rfl⟩
    · exact hs.nonces_mono (h.recorded j nonce expiresAt hold)
    · exact hs.fresh.2
  once j k nonce expiresAt expiresAt' hj hk := by
    rcases mem_snoc hj with hold | ⟨rfl, rfl⟩
    · rcases mem_snoc hk with hold' | ⟨rfl, rfl⟩
      · exact h.once j k nonce expiresAt expiresAt' hold hold'
      · exact absurd (h.recorded j nonce expiresAt hold) hs.fresh.1
    · rcases mem_snoc hk with hold' | ⟨rfl, hsame⟩
      · exact absurd (h.recorded k nonce expiresAt' hold') hs.fresh.1
      · rfl
  used nonce hmem := by
    rcases hs.nonces with hsame | ⟨nonce', expiresAt, hcall, hcons⟩
    · rw [hsame] at hmem
      exact (h.used nonce hmem).imp id fun ⟨j, expiresAt, answer, hj⟩ =>
        ⟨j, expiresAt, answer, List.mem_append_left _ hj⟩
    · rw [hcons] at hmem
      rcases List.mem_cons.mp hmem with rfl | hold
      · obtain ⟨call, answer⟩ := e
        subst hcall
        exact .inr ⟨i, expiresAt, answer, List.mem_append_right _ (List.mem_singleton_self _)⟩
      · exact (h.used nonce hold).imp id fun ⟨j, expiresAt, answer, hj⟩ =>
          ⟨j, expiresAt, answer, List.mem_append_left _ hj⟩
  asked j nonce expiresAt answer hmem := by
    have hgrows : ∀ k, eventsOf k log ⊆ eventsOf k (log ++ [(i, e)]) := fun k e' he' =>
      mem_eventsOf.mpr (List.mem_append_left _ (mem_eventsOf.mp he'))
    rcases mem_snoc hmem with hold | ⟨rfl, rfl⟩
    · obtain ⟨hnonce, hpresented⟩ := h.asked j nonce expiresAt answer hold
      exact ⟨hnonce, hpresented.mono (hgrows j)⟩
    · obtain ⟨hnonce, hpresented⟩ := hpre.nonce nonce expiresAt rfl
      exact ⟨hnonce, hpresented.mono (hgrows j)⟩

theorem settled_start : Settled router requests signed start [] start where
  proposer _ _ := rfl
  found _ _ _ _ h := absurd h List.not_mem_nil
  looked _ _ _ _ h := absurd h List.not_mem_nil
  genuine _ _ _ _ h := absurd h List.not_mem_nil
  recorded _ _ _ h := absurd h List.not_mem_nil
  once _ _ _ _ _ h := absurd h List.not_mem_nil
  used _ h := .inl h
  asked _ _ _ _ h := absurd h List.not_mem_nil

omit [DecidableEq ι] in
theorem requests_ensure (i : ι) :
    ((startResolutions router requests start).threads i).Ensures history
      (Obliged router (requests i)) (fun _ _ => True) [] :=
  Ensures.mono handle_traced fun _ _ _ => trivial

theorem settled_of_exec {Q : Pool (ChangeCall Key) ChangeCall.Answer Failure
      (fun _ : ι => ResolutionResponse) GovernedChanges}
    (h : Exec (Answers signed) (startResolutions router requests start) log Q) :
    Settled router requests signed start log Q.state :=
  h.where_true.induction requests_ensure settled_start fun _ _ _ _ _ hsettled hpre _ hs =>
    settled_step hsettled hpre hs

/-- What leads from the id of a request leads to that id. -/
theorem Settled.leads {i : ι} {kind : ChangeKind} {id id' : JsString}
    (h : Settled router requests signed start log s)
    (hleads : Leads kind (eventsOf i log) id id') : id' = id := by
  induction hleads with
  | same => rfl
  | found hfound => exact (h.found i _ _ _ (mem_eventsOf.mp hfound)).1
  | looked _ hlooked ih => exact ((h.looked i _ _ _ (mem_eventsOf.mp hlooked)).1).trans ih

variable (router signed) in
/-- The request that gave a change its outcome: its caller is not the proposer, and has
presented an authorization that is signed by the key registered for him and names this change
and this action, was not expired when it was checked, and had not been used. -/
structure DecidedBy (request : ResolutionRequest) (kind : ChangeKind) (id : JsString)
    (s s' : GovernedChanges) (t : List (ChangeEvent Key)) : Prop where
  route : request.kind = kind
  change : request.changeId = id
  human : isHumanCaller request.callerCredentialHolderType = true
  checker : ∃ proposer callerId, s.proposer kind id = some proposer ∧
    request.callerId = some callerId ∧ proposer ≠ callerId ∧ s'.resolver kind id = some callerId
  outcome : s'.status kind id = some request.action.outcome
  presented : Presented router request ⟨id, request.action.text⟩ t
  genuine : ∃ callerStepUpPublicKey publicKey,
    request.callerStepUpPublicKey = some callerStepUpPublicKey ∧
    router.createPublicKey callerStepUpPublicKey = .ok publicKey ∧
    signed publicKey request.authorization.payload
  accepted : Accepted request t

/-- What a call of a request decides, it was entitled to decide. -/
theorem Settled.decidedBy {i : ι} {e : ChangeEvent Key} {kind : ChangeKind} {id : JsString}
    (h : Settled router requests signed start log s)
    (hpre : Obliged router (requests i) (eventsOf i log) e.1) (hs : Answers signed s e s')
    (hmoved : s'.get kind id ≠ s.get kind id) :
    DecidedBy router signed (requests i) kind id s s' (eventsOf i log) := by
  rcases h.carried hpre hs with hsame | ⟨d, hd, before, after, hget, hresolved, hover⟩
  · exact absurd (hsame kind id) hmoved
  · have hhere : kind = d.kind ∧ id = d.id := by
      by_contra hne
      refine hmoved (hover.elsewhere kind id ?_)
      rw [hresolved.id]
      exact not_and_or.mp hne
    obtain ⟨rfl, rfl⟩ := hhere
    obtain ⟨hkind, haction, hcaller, hhuman, ⟨change, hloaded⟩, hleads⟩ := hpre.decides d hd
    have hid := h.leads hleads
    have hafter := hover.here
    rw [hresolved.id] at hafter
    obtain ⟨-, hproposer⟩ := h.found i _ _ _ (mem_eventsOf.mp hloaded.found)
    obtain ⟨pem, publicKey, hpem, hkey, hsigned⟩ := hloaded.presented.signed
    refine ⟨hkind, hid.symm, hhuman, ⟨_, d.resolvedBy, ?_, hcaller, hloaded.checker, ?_⟩, ?_, ?_,
      ⟨pem, publicKey, hpem, hkey, h.genuine i _ _ _ (mem_eventsOf.mp hsigned)⟩, hloaded.accepted⟩
    · rw [h.proposer, hid]
      exact hproposer
    · unfold GovernedChanges.resolver
      rw [hafter]
      exact hresolved.resolvedBy
    · unfold GovernedChanges.status
      rw [hafter, haction]
      exact congrArg some hresolved.status
    · rw [haction, hid]
      exact hloaded.presented

/-- **Every decision is backed by a step-up authorization, in any interleaving of requests to
approve and to reject.**  Whenever a change moves, it is by a request that was entitled to
(`DecidedBy`); an authorization is accepted for one request at most, as its nonce is; and
whenever a nonce is asked for, and so possibly used up, it is that of an authorization that has
passed every other check. -/
theorem step_up_backed (router : ChangeRouter Key) (requests : ι → ResolutionRequest)
    (signed : Key → PolicyChangeStepUpAuthorizationPayload → Prop) (start : GovernedChanges)
    {log : List (ι × ChangeEvent Key)}
    {Q : Pool (ChangeCall Key) ChangeCall.Answer Failure (fun _ : ι => ResolutionResponse)
      GovernedChanges}
    (h : Exec (Answers signed) (startResolutions router requests start) log Q) :
    (∀ i call k answer s' kind id, Q.threads i = .call call k →
      Answers signed Q.state ⟨call, answer⟩ s' → s'.get kind id ≠ Q.state.get kind id →
        DecidedBy router signed (requests i) kind id Q.state s' (eventsOf i log)) ∧
    (∀ i j, Accepted (requests i) (eventsOf i log) → Accepted (requests j) (eventsOf j log) →
      (requests i).authorization.payload.nonce = (requests j).authorization.payload.nonce →
        i = j) ∧
    (∀ i nonce expiresAt answer,
      (i, (⟨.stepUp (.checkAndRecord nonce expiresAt), answer⟩ : ChangeEvent Key)) ∈ log →
        nonce = (requests i).authorization.payload.nonce ∧ Presented router (requests i)
          ⟨(requests i).changeId, (requests i).action.text⟩ (eventsOf i log)) ∧
    ∀ nonce ∈ Q.state.nonces, nonce ∈ start.nonces ∨ ∃ i expiresAt answer,
      (i, (⟨.stepUp (.checkAndRecord nonce expiresAt), answer⟩ : ChangeEvent Key)) ∈ log := by
  have hsettled := settled_of_exec h
  refine ⟨?_, ?_, hsettled.asked, hsettled.used⟩
  · intro i call k answer s' kind id hi hs hmoved
    have hsteps := h.steps_of_thread i
    rw [hi] at hsteps
    exact hsettled.decidedBy (pre_of_steps (requests_ensure i) hsteps) hs hmoved
  · intro i j hi hj hnonce
    have hi := mem_eventsOf.mp hi
    rw [hnonce] at hi
    exact hsettled.once i j _ _ _ hi (mem_eventsOf.mp hj)

end Company

/-! ## An authorization that is replayed -/

namespace Replayed

/-- A key of an approver is to be added. -/
def change : ApprovalIssuerChange where
  changeId := "change"
  action := .add
  approverId := "ana"
  keyId := "key"
  publicKeyPem := some "pem"
  reason := "reason"
  proposedBy := "maker"
  proposedAt := 0
  status := .pendingApproval
  resolvedBy := none
  resolvedAt := none
  rejectionReason := none

/-- The authorization of the checker, for two minutes. -/
def stepUpAuthorization : Json :=
  .obj [("payload", .obj [("version", .num (.ofNat 1)), ("nonce", .str "nonce"),
      ("pendingPolicyChangeId", .str "change"), ("action", .str "approve"),
      ("authorizedAt", .str "12:00"), ("expiresAt", .str "12:02")]),
    ("signature", .str "signature"), ("keyId", .str "checker"), ("algorithm", .str "ed25519")]

/-- The checker approves the change, twice. -/
def requests : Bool → ResolutionRequest := fun _ =>
  { kind := .approver
    action := .approve
    callerId := some "checker"
    callerCredentialHolderType := some .user
    callerStepUpPublicKey := some "checker"
    id := some "change"
    stepUpAuthorization := .json stepUpAuthorization
    rejectionReason := .undefined }

/-- Noon, and two minutes later. -/
def dates (text : JsString) : Option Int :=
  if text = "12:00" then some 0 else if text = "12:02" then some 120000 else none

def router : ChangeRouter JsString where
  dateParse := dates
  createPublicKey := .ok
  auditSink := true
  stepUpVerifier := some (.create none)
  policyChangeApprovalService := true
  connectorsInPostgres := false

/-- The checker has signed the approval of the change. -/
def signed (publicKey : JsString) (payload : PolicyChangeStepUpAuthorizationPayload) : Prop :=
  publicKey = "checker" ∧ payload = (requests true).authorization.payload

instance (publicKey : JsString) (payload : PolicyChangeStepUpAuthorizationPayload) :
    Decidable (signed publicKey payload) := inferInstanceAs (Decidable (_ ∧ _))

def start : GovernedChanges where
  policy := .empty
  approver := ⟨.empty, Table.empty.set change⟩
  connector := .empty
  nonces := []

/-- The stores, at noon. -/
abbrev answering := serveChanges (fun publicKey payload _ => decide (signed publicKey payload)) 0

/-- The two requests take turns. -/
def schedule : List Bool := [true, false, true, false, true, false, true, false, true, true]

theorem run_schedule : Exec (Answers signed) (startResolutions router requests start)
    ((startResolutions router requests start).script answering schedule)
    ((startResolutions router requests start).play answering schedule) :=
  (Exec.play answering schedule (Pool.meets_true answering _ schedule)).mono fun _ _ _ h =>
    answers_of_handled (fun _ _ _ h => of_decide_eq_true h) h.1

end Replayed

open Replayed in
/-- The change is approved by the one request and the other is refused: the nonce has been
used, by a request that presented what it is in. -/
theorem step_up_backed_replayed : ∃ log Q,
    Exec (Answers signed) (startResolutions router requests start) log Q ∧
    Q.state.status .approver "change" = some .approved ∧
    (Q.threads true).succeeded = true ∧ (Q.threads false).succeeded = false ∧
    Q.state.nonces = [("nonce" : JsString)] ∧
    ∃ i, Presented router (requests i) ⟨"change", "approve"⟩ (eventsOf i log) := by
  obtain ⟨-, -, hasked, hused⟩ := step_up_backed router requests signed start run_schedule
  have hnonces : ((startResolutions router requests start).play answering schedule).state.nonces =
      [("nonce" : JsString)] := by decide
  refine ⟨_, _, run_schedule, by decide, by decide, by decide, hnonces, ?_⟩
  have hmem := hused "nonce" (by rw [hnonces]; exact List.mem_singleton_self _)
  obtain ⟨i, expiresAt, answer, hlog⟩ := hmem.resolve_left List.not_mem_nil
  exact ⟨i, (hasked i _ _ _ hlog).2⟩

end Parmana.Governance

import Parmana.Policy.ApprovalGate
import Parmana.Runtime.Parts

/-! # What an authorization rests on

Between a request and its authorization the engine asks many collaborators, some
of them optional, and each may refuse or throw.  This module follows one run
through them.  `Cleared` is what the events of a run must show before an
authorization is signed or an action released; every part of the engine adds its
share of it, and any failure on the way ends the run before the signer, with one
exception: the resolver of governance anchors, whose failure is only logged.

What a refusal leaves behind, its record and its notice, is written by calls that
cannot reach the rest of the run, as long as what they throw has a text to log: leaving
them out gives the same run.
-/
namespace Parmana
open Js Policy Interaction Interaction.Program RuntimeProgram

/-- The call threw. -/
def failed (e : RuntimeEvent) : Bool :=
  match e.2 with
  | .error _ => true
  | .ok _ => false

/-! ## What the events must show -/

/-- The one policy that was loaded, and validated. -/
structure Loaded (config : RuntimeConfig) (transaction : BusinessTransaction) (policy : Json)
    (t : List RuntimeEvent) : Prop where
  answered : ⟨.loadPolicy transaction.policy.name transaction.policy.version, .ok policy⟩ ∈ t
  only : ∀ e ∈ t, e.1.isPolicyLoad →
    e = ⟨.loadPolicy transaction.policy.name transaction.policy.version, .ok policy⟩
  accepted : Accepted config.regExp policy

/-- The configured checks of the loaded policy found no violation. -/
structure Checked (config : RuntimeConfig) (transaction : BusinessTransaction) (policy : Json)
    (t : List RuntimeEvent) : Prop where
  execution : config.policyExecutionVerifier → ∃ contentHash,
    ⟨.hash policy, .ok contentHash⟩ ∈ t ∧
    ⟨.verifyPolicyExecution (policyId policy) (policyVersion policy) contentHash, .ok none⟩ ∈ t
  capability : config.capabilityPolicyBinder →
    ⟨.findCapabilityViolation transaction.intent.action transaction.policy, .ok none⟩ ∈ t
  binding : SignalIntentBinder.findViolations policy transaction.presentedSignals
    transaction.intent.snapshot = .ok []

/-- The policy approved the presented signals, and the state behind them was
verified. -/
structure Approved (config : RuntimeConfig) (transaction : BusinessTransaction) (policy : Json)
    (t : List RuntimeEvent) : Prop where
  evaluated : ∃ decision, PolicyEngine.evaluate config.regExp transaction.presentedSignals policy =
    .ok decision ∧ decision.outcome = .approve
  verifier : config.signalStateVerifier = true
  state : ⟨.findStateViolations (RuntimeEngine.authorizeRequest transaction policy)
    transaction.presentedSignals, .ok []⟩ ∈ t

/-- **Cleared for authorization**: one policy was loaded, every configured check of
it passed, it approved, and its approval was verified. -/
def Cleared (config : RuntimeConfig) (transaction : BusinessTransaction) (t : List RuntimeEvent) :
    Prop :=
  ∃ policy, Loaded config transaction policy t ∧ Checked config transaction policy t ∧
    Approved config transaction policy t

/-- Nothing but the resolver of governance anchors has failed. -/
def OnlyAnchorFailed (t : List RuntimeEvent) : Prop :=
  ∀ e ∈ t, failed e → e.1.isAnchorResolution

section Carried
variable {config : RuntimeConfig} {transaction : BusinessTransaction} {policy : Json}
  {t : List RuntimeEvent} {e : RuntimeEvent}

theorem Loaded.snoc (h : Loaded config transaction policy t) (he : e.1.isPolicyLoad = false) :
    Loaded config transaction policy (t ++ [e]) := by
  refine ⟨List.mem_append_left _ h.answered, ?_, h.accepted⟩
  intro e' hmem hload
  rcases List.mem_append.mp hmem with hmem | hmem
  · exact h.only e' hmem hload
  · rw [List.mem_singleton.mp hmem, he] at hload
    exact absurd hload Bool.false_ne_true

theorem Checked.snoc (h : Checked config transaction policy t) :
    Checked config transaction policy (t ++ [e]) := by
  refine ⟨fun hv => ?_, fun hb => List.mem_append_left _ (h.capability hb), h.binding⟩
  obtain ⟨contentHash, hhash, hverify⟩ := h.execution hv
  exact ⟨contentHash, List.mem_append_left _ hhash, List.mem_append_left _ hverify⟩

theorem Approved.snoc (h : Approved config transaction policy t) :
    Approved config transaction policy (t ++ [e]) :=
  ⟨h.evaluated, h.verifier, List.mem_append_left _ h.state⟩

theorem OnlyAnchorFailed.snoc (h : OnlyAnchorFailed t)
    (he : failed e → e.1.isAnchorResolution) : OnlyAnchorFailed (t ++ [e]) := by
  intro e' hmem hfail
  rcases List.mem_append.mp hmem with hmem | hmem
  · exact h e' hmem hfail
  · rw [List.mem_singleton.mp hmem] at hfail ⊢
    exact he hfail

/-- What holds of a history and of each successful ordinary call after it. -/
def Carried (Q : List RuntimeEvent → Prop) : Prop :=
  ∀ t call a, RuntimeCall.isOrdinary call → Q t → Q (t ++ [⟨call, .ok a⟩])

theorem Carried.and {Q Q' : List RuntimeEvent → Prop} (h : Carried Q) (h' : Carried Q') :
    Carried (fun t => Q t ∧ Q' t) :=
  fun t call a ho ht => ⟨h t call a ho ht.1, h' t call a ho ht.2⟩

theorem carried_onlyAnchorFailed : Carried OnlyAnchorFailed := by
  intro t call a _ ht
  refine ht.snoc ?_
  rintro ⟨⟩

theorem carried_loaded : Carried (Loaded config transaction policy) :=
  fun _ _ _ ho ht => ht.snoc (RuntimeCall.not_policyLoad ho)

theorem carried_mem {e : RuntimeEvent} : Carried (fun t => e ∈ t) :=
  fun _ _ _ _ ht => List.mem_append_left _ ht

theorem carried_checked : Carried (Checked config transaction policy) :=
  fun _ _ _ _ ht => ht.snoc

theorem carried_approved : Carried (Approved config transaction policy) :=
  fun _ _ _ _ ht => ht.snoc

theorem Cleared.snoc (h : Cleared config transaction t) (he : e.1.isPolicyLoad = false) :
    Cleared config transaction (t ++ [e]) := by
  obtain ⟨policy, hloaded, hchecked, happroved⟩ := h
  exact ⟨policy, hloaded.snoc he, hchecked.snoc, happroved.snoc⟩

/-- A call that is not a load of a policy and succeeds keeps a run cleared. -/
theorem cleared_snoc_ok {call : RuntimeCall} {a : call.Answer}
    (h : Cleared config transaction t ∧ OnlyAnchorFailed t) (hcall : call.isPolicyLoad = false) :
    Cleared config transaction (t ++ [⟨call, .ok a⟩]) ∧ OnlyAnchorFailed (t ++ [⟨call, .ok a⟩]) :=
  ⟨h.1.snoc hcall, h.2.snoc (fun hfail => nomatch hfail)⟩

theorem carried_cleared :
    Carried (fun t => Cleared config transaction t ∧ OnlyAnchorFailed t) :=
  fun _ _ _ ho ht => cleared_snoc_ok ht (RuntimeCall.not_policyLoad ho)

end Carried

/-! ## One run, part by part -/

/-- The obligation at a call: nothing is signed or executed before the run is
cleared for it. -/
def WhenCleared (config : RuntimeConfig) (transaction : BusinessTransaction)
    (t : List RuntimeEvent) (call : RuntimeCall) : Prop :=
  call.isAuthorizing → Cleared config transaction t ∧ OnlyAnchorFailed t

section Parts
variable {α : Type} {config : RuntimeConfig} {transaction : BusinessTransaction}
  {t : List RuntimeEvent} {policy : Json} {policyContentHash : JsString}

theorem whenCleared_of_ordinary {call : RuntimeCall} (h : call.isAuthorizing = false) :
    WhenCleared config transaction t call := by
  intro hcall
  rw [h] at hcall
  exact absurd hcall Bool.false_ne_true

theorem Plain.traced {p : RuntimeProgram α} {Q : List RuntimeEvent → Prop} (h : Plain p)
    (hQ : Carried Q) (ht : Q t) :
    Traced (WhenCleared config transaction) p (fun _ t' => Q t') t :=
  Straight.traced h (fun _ _ ho _ => whenCleared_of_ordinary (RuntimeCall.not_authorizing ho)) hQ ht

theorem hooks_traced {Q : List RuntimeEvent → Prop} {point : HookPoint}
    (hpoint : ∀ index, RuntimeCall.isOrdinary (.hook index point)) (hQ : Carried Q) (ht : Q t) :
    Traced (WhenCleared config transaction) (hooks config point) (fun _ t' => Q t') t :=
  Plain.traced (plain_hooks hpoint) hQ ht

/-- No policy was loaded yet. -/
def Unloaded (t : List RuntimeEvent) : Prop := ∀ e ∈ t, e.1.isPolicyLoad = false

theorem carried_unloaded : Carried Unloaded := by
  intro t call a ho ht e hmem
  rcases List.mem_append.mp hmem with hmem | hmem
  · exact ht e hmem
  · rw [List.mem_singleton.mp hmem]
    exact RuntimeCall.not_policyLoad ho

theorem load_traced (ht : Unloaded t ∧ OnlyAnchorFailed t) :
    Traced (WhenCleared config transaction)
      (PolicyRouter.load config.regExp transaction.policy.name transaction.policy.version)
      (fun policy t' => Loaded config transaction policy t' ∧ OnlyAnchorFailed t') t := by
  refine Traced.bind (R := fun policy t' =>
    t' = t ++ [⟨.loadPolicy transaction.policy.name transaction.policy.version, .ok policy⟩])
    (Traced.perform (whenCleared_of_ordinary rfl) (fun _ => rfl)) ?_
  rintro policy t₁ rfl
  refine Traced.bind (R := fun _ t' => Loaded config transaction policy t' ∧ OnlyAnchorFailed t')
    (Traced.done ?_) ?_
  · intro u hu
    -- the document was accepted, and it is the first that was loaded
    have haccepted : Accepted config.regExp policy := mapError_eq_ok.mp hu
    refine ⟨⟨List.mem_append_right _ (List.mem_singleton.mpr rfl), ?_, haccepted⟩,
      ht.2.snoc (fun h => nomatch h)⟩
    intro e hmem hload
    rcases List.mem_append.mp hmem with hmem | hmem
    · rw [ht.1 e hmem] at hload
      exact absurd hload Bool.false_ne_true
    · exact List.mem_singleton.mp hmem
  · intro _ t₂ h₂
    refine Traced.bind (Plain.traced (straight_perform.mpr rfl)
      (carried_loaded.and carried_onlyAnchorFailed) h₂) (fun _ _ h₃ => Traced.pure h₃)

theorem loadPolicy_traced :
    Traced (WhenCleared config transaction) (RuntimeEngine.loadPolicy config transaction)
      (fun loaded t' => (Loaded config transaction loaded.1 t' ∧ OnlyAnchorFailed t') ∧
        ⟨.hash loaded.1, .ok loaded.2⟩ ∈ t') [] := by
  refine Traced.bind (hooks_traced (fun _ => rfl) (carried_unloaded.and carried_onlyAnchorFailed)
    ⟨fun e he => absurd he List.not_mem_nil, fun e he => absurd he List.not_mem_nil⟩) ?_
  intro _ t₁ h₁
  refine Traced.bind (load_traced h₁) ?_
  intro policy t₂ h₂
  refine Traced.bind (hooks_traced (fun _ => rfl) (carried_loaded.and carried_onlyAnchorFailed) h₂) ?_
  intro _ t₃ h₃
  refine Traced.bind (R := fun contentHash t' =>
      (Loaded config transaction policy t' ∧ OnlyAnchorFailed t') ∧
        ⟨.hash policy, .ok contentHash⟩ ∈ t')
    (Traced.perform (whenCleared_of_ordinary rfl) ?_) (fun _ _ h => Traced.pure h)
  intro contentHash
  exact ⟨carried_loaded.and carried_onlyAnchorFailed _ _ _ rfl h₃,
    List.mem_append_right _ (List.mem_singleton.mpr rfl)⟩

/-- A failure of the resolver is the one failure that a run survives. -/
theorem resolveAnchor_traced {Q : List RuntimeEvent → Prop} (hQ : Carried Q)
    (ht : Q t ∧ OnlyAnchorFailed t)
    (hfail : ∀ error, Q (t ++ [⟨.resolveGovernanceAnchor (policyId policy) (policyVersion policy)
      policyContentHash, .error error⟩])) :
    Traced (WhenCleared config transaction)
      (RuntimeEngine.resolveAnchor config policy policyContentHash)
      (fun _ t' => Q t' ∧ OnlyAnchorFailed t') t := by
  unfold RuntimeEngine.resolveAnchor whenConfigured
  split
  · refine ensures_tryCatch.mpr ⟨whenCleared_of_ordinary rfl, ?_⟩
    rintro (error | anchor) t' rfl
    · change Ensures history (WhenCleared config transaction)
        (do Program.done error.logged; return none : RuntimeProgram (Option PolicyGovernanceAnchor))
        (fun t' r => ∀ a, r = .ok a → Q t' ∧ OnlyAnchorFailed t') _
      rw [logged_eq]
      cases error.unprinted with
      | none =>
        rintro _ ⟨⟩
        exact ⟨hfail error, ht.2.snoc (fun _ => rfl)⟩
      | some thrown => rintro _ ⟨⟩
    · rintro _ ⟨⟩
      exact (hQ.and carried_onlyAnchorFailed) _ _ _ rfl ht
  · exact Traced.pure ht

/-- When no check finds anything, each configured one was asked and passed. -/
theorem checkPolicy_traced {Q : List RuntimeEvent → Prop} (hQ : Carried Q) (ht : Q t)
    (hhash : ⟨.hash policy, .ok policyContentHash⟩ ∈ t) :
    Traced (WhenCleared config transaction)
      (RuntimeEngine.checkPolicy config transaction policy policyContentHash)
      (fun findings t' => Q t' ∧
        (findings.isClean = true → Checked config transaction policy t')) t := by
  unfold RuntimeEngine.checkPolicy
  -- the policy execution verifier
  refine Traced.bind (R := fun execution t' => Q t' ∧ (execution = none →
    config.policyExecutionVerifier → ⟨.hash policy, .ok policyContentHash⟩ ∈ t' ∧
      ⟨.verifyPolicyExecution (policyId policy) (policyVersion policy) policyContentHash,
        .ok none⟩ ∈ t')) ?_ ?_
  · unfold whenConfigured
    split
    · refine Traced.perform (whenCleared_of_ordinary rfl) ?_
      intro execution
      refine ⟨hQ _ _ _ rfl ht, ?_⟩
      rintro rfl -
      exact ⟨List.mem_append_left _ hhash, List.mem_append_right _ (List.mem_singleton.mpr rfl)⟩
    · rename_i hoff
      exact Traced.pure ⟨ht, fun _ hon => absurd hon hoff⟩
  rintro execution t₁ ⟨hQ₁, hexecution⟩
  -- the capability policy binder, when the verifier found nothing
  refine Traced.bind (R := fun capability t' => Q t' ∧ (execution = none → capability = none →
    (config.policyExecutionVerifier → ⟨.hash policy, .ok policyContentHash⟩ ∈ t' ∧
      ⟨.verifyPolicyExecution (policyId policy) (policyVersion policy) policyContentHash,
        .ok none⟩ ∈ t') ∧
    (config.capabilityPolicyBinder →
      ⟨.findCapabilityViolation transaction.intent.action transaction.policy, .ok none⟩ ∈ t')))
    ?_ ?_
  · unfold whenConfigured
    split
    · refine Traced.perform (whenCleared_of_ordinary rfl) ?_
      intro capability
      refine ⟨hQ _ _ _ rfl hQ₁, ?_⟩
      rintro hnone rfl
      refine ⟨fun hv => ?_, fun _ => List.mem_append_right _ (List.mem_singleton.mpr rfl)⟩
      obtain ⟨h₁, h₂⟩ := hexecution hnone hv
      exact ⟨List.mem_append_left _ h₁, List.mem_append_left _ h₂⟩
    · rename_i hoff
      refine Traced.pure ⟨hQ₁, fun hnone _ => ⟨hexecution hnone, fun hon => ?_⟩⟩
      rw [hnone, hon] at hoff
      exact absurd rfl hoff
  rintro capability t₂ ⟨hQ₂, hcapability⟩
  -- the signal and intent binder, when neither found anything
  refine Traced.bind (R := fun binding t' => t' = t₂ ∧ (execution = none → capability = none →
    SignalIntentBinder.findViolations policy transaction.presentedSignals
      transaction.intent.snapshot = .ok binding)) ?_ ?_
  · unfold whenConfigured
    split
    · exact Traced.done (fun binding hbinding => ⟨rfl, fun _ _ => mapError_eq_ok.mp hbinding⟩)
    · rename_i hoff
      refine Traced.pure ⟨rfl, fun hnone hnone' => ?_⟩
      rw [hnone, hnone'] at hoff
      exact absurd rfl hoff
  rintro binding t' ⟨rfl, hbinding⟩
  refine Traced.pure ⟨hQ₂, fun hclean => ?_⟩
  simp only [PolicyFindings.isClean, Bool.and_eq_true, Option.isNone_iff_eq_none,
    List.isEmpty_iff] at hclean
  obtain ⟨⟨hnone, hnone'⟩, hnil⟩ := hclean
  obtain ⟨hverified, hbound⟩ := hcapability hnone hnone'
  refine ⟨fun hv => ⟨policyContentHash, hverified hv⟩, hbound, ?_⟩
  rw [hbinding hnone hnone', hnil]

/-- Only the policy itself approves, and only when no check found anything. -/
theorem provisionalDecision_approve {re : RegExp} {signals : Fields} {findings : PolicyFindings}
    {decision : PolicyDecision}
    (h : RuntimeEngine.provisionalDecision re policy signals findings = .ok decision)
    (happrove : decision.outcome = .approve) :
    findings.isClean = true ∧ PolicyEngine.evaluate re signals policy = .ok decision := by
  obtain ⟨execution, capability, binding⟩ := findings
  unfold RuntimeEngine.provisionalDecision at h
  rcases execution with _ | violation
  · rcases capability with _ | violation
    · dsimp only at h
      split at h
      · rename_i hempty
        exact ⟨hempty, mapError_eq_ok.mp h⟩
      · cases h
        exact absurd happrove (nomatch ·)
    · cases h
      exact absurd happrove (nomatch ·)
  · cases h
    exact absurd happrove (nomatch ·)

/-- A provisional approval stands only with a verifier that found nothing. -/
theorem finalDecision_approve {provisional : PolicyDecision}
    {stateViolations : List Approval.SignalStateViolation}
    (h : (RuntimeEngine.finalDecision config policy provisional stateViolations).outcome =
      .approve) :
    provisional.outcome = .approve ∧ config.signalStateVerifier = true ∧ stateViolations = [] := by
  unfold RuntimeEngine.finalDecision at h
  split at h
  · exact absurd h (nomatch ·)
  · rename_i hverifier
    split at h
    · rename_i hempty
      refine ⟨h, ?_, List.isEmpty_iff.mp hempty⟩
      simpa [h] using hverifier
    · exact absurd h (nomatch ·)

theorem decide_traced {Q : List RuntimeEvent → Prop} {findings : PolicyFindings}
    (hQ : Carried Q) (ht : Q t)
    (hchecked : findings.isClean = true → Checked config transaction policy t) :
    Traced (WhenCleared config transaction)
      (RuntimeEngine.decide config transaction policy findings)
      (fun decision t' => Q t' ∧ (decision.outcome = .approve →
        Checked config transaction policy t' ∧ Approved config transaction policy t')) t := by
  unfold RuntimeEngine.decide
  have hcarried : Carried (fun t => findings.isClean = true → Checked config transaction policy t) :=
    fun t call a ho h hclean => carried_checked t call a ho (h hclean)
  refine Traced.bind (hooks_traced (fun _ => rfl) (hQ.and hcarried) ⟨ht, hchecked⟩) ?_
  rintro _ t₁ ⟨hQ₁, hchecked₁⟩
  -- the provisional decision
  refine Traced.bind (R := fun provisional t' => t' = t₁ ∧ (provisional.outcome = .approve →
    Checked config transaction policy t₁ ∧ PolicyEngine.evaluate config.regExp
      transaction.presentedSignals policy = .ok provisional)) (Traced.done ?_) ?_
  · intro provisional hprovisional
    refine ⟨rfl, fun happrove => ?_⟩
    obtain ⟨hclean, heval⟩ := provisionalDecision_approve hprovisional happrove
    exact ⟨hchecked₁ hclean, heval⟩
  rintro provisional t' ⟨rfl, hprovisional⟩
  -- the state an approval rests on
  refine Traced.bind (R := fun stateViolations t' => Q t' ∧ (provisional.outcome = .approve →
    config.signalStateVerifier = true → stateViolations = [] →
    Checked config transaction policy t' ∧ Approved config transaction policy t')) ?_ ?_
  · unfold RuntimeEngine.verifySignalState whenConfigured
    split
    · refine Traced.perform (whenCleared_of_ordinary rfl) ?_
      intro stateViolations
      refine ⟨hQ _ _ _ rfl hQ₁, ?_⟩
      rintro happrove hverifier rfl
      obtain ⟨hchecked', heval⟩ := hprovisional happrove
      exact ⟨hchecked'.snoc, ⟨provisional, heval, happrove⟩, hverifier,
        List.mem_append_right _ (List.mem_singleton.mpr rfl)⟩
    · rename_i hoff
      refine Traced.pure ⟨hQ₁, fun happrove hverifier _ => ?_⟩
      rw [happrove, hverifier] at hoff
      exact absurd rfl hoff
  rintro stateViolations t₂ ⟨hQ₂, hstate⟩
  -- the final decision, with the hooks around it
  have hfinal : (RuntimeEngine.finalDecision config policy provisional stateViolations).outcome =
      .approve → Checked config transaction policy t₂ ∧ Approved config transaction policy t₂ := by
    intro happrove
    obtain ⟨hp, hv, hnil⟩ := finalDecision_approve happrove
    exact hstate hp hv hnil
  have hcarried' : Carried (fun t' =>
      (RuntimeEngine.finalDecision config policy provisional stateViolations).outcome = .approve →
        Checked config transaction policy t' ∧ Approved config transaction policy t') :=
    fun t call a ho h happrove =>
      (carried_checked.and carried_approved) t call a ho (h happrove)
  refine Traced.bind (hooks_traced (fun _ => rfl) (hQ.and hcarried') ⟨hQ₂, hfinal⟩) ?_
  intro _ t₃ h₃
  exact Traced.bind (hooks_traced (fun _ => rfl) (hQ.and hcarried') h₃) (fun _ _ h₄ => Traced.pure h₄)

end Parts

/-! ## The whole run -/

section Run
variable {config : RuntimeConfig} {transaction : BusinessTransaction} {t : List RuntimeEvent}

theorem decisionBuilder_traced {Q : List RuntimeEvent → Prop} (hQ : Carried Q) (ht : Q t)
    (policyDecision : PolicyDecision) :
    Traced (WhenCleared config transaction) (DecisionBuilder.build transaction policyDecision)
      (fun decision t' => Q t' ∧ decision.outcome = toDecisionOutcome policyDecision.outcome) t := by
  refine Traced.bind (R := fun _ t' => Q t')
    (Plain.traced (straight_perform.mpr rfl) hQ ht) ?_
  intro decisionId t₁ h₁
  exact Traced.pure ⟨h₁, rfl⟩

theorem enforce_ok {decision : Decision} (h : ExecutionGate.enforce decision = .ok ()) :
    decision.outcome = .approved := by
  unfold ExecutionGate.enforce at h
  split at h
  · rename_i hcan
    simpa [ExecutionGate.canExecute] using hcan
  · split at h
    · cases h
    · cases h
    · obtain ⟨text, -, hthrow⟩ := bind_eq_ok.mp h
      cases hthrow

/-- Refused, the run is over; approved, nothing is recorded and nothing changes. -/
theorem recordRefusal_traced {Q : List RuntimeEvent → Prop} {decision : Decision} {policy : Json}
    {findings : PolicyFindings} (ht : Q t) :
    Traced (WhenCleared config transaction)
      (RuntimeEngine.recordRefusal config transaction decision policy findings)
      (fun _ t' => decision.outcome = .approved → Q t') t := by
  by_cases happroved : decision.outcome = .approved
  · unfold RuntimeEngine.recordRefusal
    rw [if_pos happroved]
    exact Traced.pure (fun _ => ht)
  · refine Traced.mono (Only.traced only_recordRefusal (fun t call h => ?_))
      (fun _ _ _ h => absurd h happroved)
    exact whenCleared_of_ordinary (RuntimeCall.kinds_of_refusalEvidence h).1

/-- The signer is asked only in a run that is cleared. -/
theorem authorize_traced {policyDecision : PolicyDecision} {decision : Decision}
    {policyContentHash : JsString}
    (ht : decision.outcome = .approved → Cleared config transaction t ∧ OnlyAnchorFailed t) :
    Traced (WhenCleared config transaction)
      (RuntimeEngine.authorize config transaction policyDecision decision policyContentHash)
      (fun _ t' => Cleared config transaction t' ∧ OnlyAnchorFailed t') t := by
  unfold RuntimeEngine.authorize
  refine Traced.bind (R := fun _ t' => Cleared config transaction t' ∧ OnlyAnchorFailed t')
    (Traced.done (fun _ henforce => ht (enforce_ok henforce))) ?_
  intro _ t₀ h₀
  refine Traced.bind (R := fun _ t' => Cleared config transaction t' ∧ OnlyAnchorFailed t')
    (Traced.done (fun _ _ => h₀)) ?_
  intro executableContent t₁ h₁
  refine Traced.bind (hooks_traced (fun _ => rfl) carried_cleared h₁) ?_
  intro _ t₂ h₂
  refine Traced.bind (Plain.traced (straight_perform.mpr rfl) carried_cleared h₂) ?_
  intro signalsHash t₃ h₃
  refine Traced.bind (R := fun _ t' => Cleared config transaction t' ∧ OnlyAnchorFailed t')
    (Traced.perform (fun _ => h₃) (fun _ => cleared_snoc_ok h₃ rfl)) ?_
  intro authorization t₄ h₄
  exact Traced.bind (hooks_traced (fun _ => rfl) carried_cleared h₄) (fun _ _ h₅ => Traced.pure h₅)

theorem prepareExecution_traced :
    Traced (WhenCleared config transaction)
      (RuntimeEngine.prepareExecution config transaction)
      (fun _ t' => Cleared config transaction t' ∧ OnlyAnchorFailed t') [] := by
  unfold RuntimeEngine.prepareExecution
  refine Traced.bind loadPolicy_traced ?_
  rintro ⟨policy, policyContentHash⟩ t₁ ⟨h₁, hhash⟩
  have hcarried : Carried (fun t => Loaded config transaction policy t ∧
      ⟨.hash policy, .ok policyContentHash⟩ ∈ t) := carried_loaded.and carried_mem
  refine Traced.bind (resolveAnchor_traced hcarried ⟨⟨h₁.1, hhash⟩, h₁.2⟩
    (fun error => ⟨h₁.1.snoc rfl, List.mem_append_left _ hhash⟩)) ?_
  rintro anchor t₂ ⟨⟨h₂, hhash₂⟩, hfailed₂⟩
  refine Traced.bind (checkPolicy_traced (carried_loaded.and carried_onlyAnchorFailed)
    ⟨h₂, hfailed₂⟩ hhash₂) ?_
  rintro findings t₃ ⟨h₃, hchecked⟩
  refine Traced.bind (decide_traced (carried_loaded.and carried_onlyAnchorFailed) h₃ hchecked) ?_
  rintro policyDecision t₄ ⟨h₄, happroved⟩
  -- from here on a run is cleared when the decision approves
  have hcleared : policyDecision.outcome = .approve →
      Cleared config transaction t₄ ∧ OnlyAnchorFailed t₄ := by
    intro happrove
    exact ⟨⟨policy, h₄.1, (happroved happrove).1, (happroved happrove).2⟩, h₄.2⟩
  have hcarried' : Carried (fun t => policyDecision.outcome = .approve →
      Cleared config transaction t ∧ OnlyAnchorFailed t) :=
    fun t call a ho h happrove => carried_cleared t call a ho (h happrove)
  refine Traced.bind (decisionBuilder_traced hcarried' hcleared policyDecision) ?_
  rintro decision t₅ ⟨h₅, houtcome⟩
  refine Traced.bind (recordRefusal_traced (Q := fun t => policyDecision.outcome = .approve →
    Cleared config transaction t ∧ OnlyAnchorFailed t) h₅) ?_
  intro _ t₆ h₆
  refine Traced.bind (authorize_traced (fun hdecision => h₆ hdecision ?_)) ?_
  · rw [houtcome] at hdecision
    rcases houtcome' : policyDecision.outcome with _ | _
    · rfl
    · rw [houtcome'] at hdecision
      cases hdecision
  intro authorization t₇ h₇
  refine Traced.bind (Plain.traced (plain_executionBuilder decision) carried_cleared h₇) ?_
  intro execution t₈ h₈
  refine Traced.bind (hooks_traced (fun _ => rfl) carried_cleared h₈) ?_
  intro _ t₉ h₉
  exact Traced.bind (hooks_traced (fun _ => rfl) carried_cleared h₉) (fun _ _ h => Traced.pure h)

/-- Only the signer and the pipeline have an obligation. -/
theorem only_traced {α : Type} {p : RuntimeProgram α}
    (h : p.Only (fun call => call.isAuthorizing = false)) :
    Traced (WhenCleared config transaction) p (fun _ _ => True) t :=
  Only.traced h (fun _ _ hcall => whenCleared_of_ordinary hcall)

/-- The pipeline is asked only in a run that is cleared, in which nothing else has
failed. -/
theorem release_traced {context : RuntimeContext}
    (ht : Cleared config transaction t ∧ OnlyAnchorFailed t) :
    Traced (WhenCleared config transaction) (RuntimeEngine.release config context)
      (fun _ _ => True) t := by
  unfold RuntimeEngine.release
  refine Traced.bind (Plain.traced (straight_whenConfigured (straight_perform.mpr rfl))
    carried_cleared ht) ?_
  intro _ t₁ h₁
  refine Traced.bind (Straight.traced
    (S := fun call => call.isPolicyLoad = false ∧ call.isAuthorizing = false)
    (Q := fun t => Cleared config transaction t ∧ OnlyAnchorFailed t)
    (straight_whenConfigured (straight_prepare
      (fun _ ho => ⟨RuntimeCall.not_policyLoad ho, RuntimeCall.not_authorizing ho⟩)
      (fun _ => ⟨rfl, rfl⟩) context))
    (fun _ _ hcall _ => whenCleared_of_ordinary hcall.2)
    (fun _ _ _ hcall ht => cleared_snoc_ok ht hcall.1) h₁) ?_
  intro _ t₂ h₂
  refine Traced.bind (Traced.tryCatch (R := fun _ _ => True)
    (Traced.perform (fun _ => h₂) (fun _ => trivial)) ?_) ?_
  · intro error t₃
    refine Traced.bind (only_traced (only_whenConfigured (only_markErrored fun _ => rfl))) ?_
    exact fun _ _ _ => Traced.bind (R := fun _ _ => True) (Traced.done fun _ _ => trivial)
      fun _ _ _ => Traced.throw
  intro processedContext t₃ _
  refine Traced.bind (only_traced (only_whenConfigured (only_markReleased rfl fun _ => rfl))) ?_
  intro _ t₄ _
  refine Traced.bind (only_traced ((plain_recordExecution processedContext).only.mono
    fun _ ho => RuntimeCall.not_authorizing ho)) ?_
  exact fun _ _ _ => Traced.pure trivial

theorem execute_traced :
    Traced (WhenCleared config transaction) (RuntimeEngine.execute config transaction)
      (fun _ _ => True) [] := by
  unfold RuntimeEngine.execute
  refine Traced.bind prepareExecution_traced ?_
  intro context t₁ h₁
  refine Traced.tryCatch (release_traced h₁) ?_
  intro error t₂
  refine Traced.bind (only_traced (only_hooks fun _ => rfl)) ?_
  exact fun _ _ _ => Traced.throw

end Run

/-! ## The refusal's evidence stays out of the way -/

/-- The same runtime without a recorder of refusals and without a notifier. -/
def RuntimeConfig.withoutRefusalEvidence (config : RuntimeConfig) : RuntimeConfig :=
  { config with refusalRecords := false, approvalNeededNotifier := false }

section Evidence
variable {config : RuntimeConfig} {transaction : BusinessTransaction} {policy : Json}

/-- Without a recorder and a notifier a refusal leaves nothing behind. -/
theorem recordRefusal_without {decision : Decision} {findings : PolicyFindings} :
    RuntimeEngine.recordRefusal config.withoutRefusalEvidence transaction decision policy findings =
      pure () := by
  unfold RuntimeEngine.recordRefusal
  split
  · rfl
  · unfold whenConfigured
    split <;> rfl

/-- What the recorder and the notifier throw has a text. -/
def PrintedEvidence (e : RuntimeEvent) : Prop :=
  e.1.isRefusalEvidence = true → unprintedOf e = none

/-- Where what they throw has a text, recording a refusal never fails. -/
theorem recordRefusal_ok {decision : Decision} {findings : PolicyFindings} {t : List RuntimeEvent}
    {r : Except Failure Unit} (hprinted : ∀ e ∈ t, PrintedEvidence e)
    (h : Runs (RuntimeEngine.recordRefusal config transaction decision policy findings) t r) :
    r = .ok () := by
  have hthrown := recordRefusal_thrown h
  rw [List.filterMap_eq_nil_iff.mpr
    fun e he => hprinted e he (only_recordRefusal.of_runs h e he)] at hthrown
  cases r with
  | ok _ => rfl
  | error failure => cases hthrown

theorem erases_preparing {α : Type} {p : RuntimeProgram α} (h : Preparing p) :
    Erases RuntimeCall.isRefusalEvidence PrintedEvidence p p :=
  Erases.refl (h.mono fun _ hcall =>
    RuntimeCall.not_refusalEvidence_of_releasing (RuntimeCall.isReleasing_of_preparing hcall))

theorem erases_prepareExecution :
    Erases RuntimeCall.isRefusalEvidence PrintedEvidence
      (RuntimeEngine.prepareExecution config transaction)
      (RuntimeEngine.prepareExecution config.withoutRefusalEvidence transaction) := by
  unfold RuntimeEngine.prepareExecution
  refine Erases.bind (erases_preparing preparing_loadPolicy) ?_
  rintro ⟨policy, policyContentHash⟩
  refine Erases.bind (erases_preparing preparing_resolveAnchor) (fun anchor => ?_)
  refine Erases.bind (erases_preparing preparing_checkPolicy) (fun findings => ?_)
  refine Erases.bind (erases_preparing preparing_decide) (fun policyDecision => ?_)
  refine Erases.bind (erases_preparing preparing_decisionBuilder) (fun decision => ?_)
  rw [recordRefusal_without]
  refine Erases.bind (Erases.silent only_recordRefusal (fun _ _ => recordRefusal_ok)) (fun _ => ?_)
  refine Erases.bind (erases_preparing preparing_authorize) (fun authorization => ?_)
  refine Erases.bind (erases_preparing (plain_executionBuilder decision).preparing) (fun execution => ?_)
  refine Erases.bind (erases_preparing (preparing_hooks fun _ => rfl)) (fun _ => ?_)
  exact Erases.bind (erases_preparing (preparing_hooks fun _ => rfl))
    (fun _ => Erases.refl only_done)

/-- **Leaving the recorder and the notifier out changes nothing else**, in the
events or in the result, where what they throw has a text. -/
theorem erases_execute :
    Erases RuntimeCall.isRefusalEvidence PrintedEvidence
      (RuntimeEngine.execute config transaction)
      (RuntimeEngine.execute config.withoutRefusalEvidence transaction) := by
  refine Erases.bind erases_prepareExecution (fun context => Erases.refl ?_)
  refine Only.tryCatch (releasing_release.mono fun _ h =>
    RuntimeCall.not_refusalEvidence_of_releasing h) (fun error => ?_)
  exact Only.bind (only_hooks fun _ => rfl) (fun _ => only_done)

end Evidence

/-! ## The result -/

/-- **Nothing is signed or executed unless every check passed.**  At the call of
the signer and at the call of the pipeline the run is cleared and no collaborator
but the resolver of governance anchors has failed; and two runs that agree on
every call but those of the refusal recorder and the notifier have the same
outcome, where what these throw has a text. -/
theorem RuntimeEngine.execute_authorizes_only_cleared (config : RuntimeConfig)
    (transaction : BusinessTransaction) :
    (∀ t call k, Steps (RuntimeEngine.execute config transaction) t (.call call k) →
      call.isAuthorizing → Cleared config transaction t ∧ OnlyAnchorFailed t) ∧
    (∀ t₁ t₂ r₁ r₂, Runs (RuntimeEngine.execute config transaction) t₁ r₁ →
      Runs (RuntimeEngine.execute config transaction) t₂ r₂ →
      (∀ e ∈ t₁, PrintedEvidence e) → (∀ e ∈ t₂, PrintedEvidence e) →
      keep RuntimeCall.isRefusalEvidence t₁ = keep RuntimeCall.isRefusalEvidence t₂ →
      r₁ = r₂) :=
  ⟨fun _ _ _ hs => pre_of_steps execute_traced hs,
    fun _ _ _ _ h₁ h₂ hprinted₁ hprinted₂ heq =>
      erases_execute.same_result hprinted₁ hprinted₂ h₁ h₂ heq⟩

/-! ## A run whose anchor is not resolved -/

namespace Sample

/-- A request to refund an order, with the approval signal of its policy set. -/
def transaction : BusinessTransaction where
  businessTransactionId := "tx-1"
  metadata := { submittedBy := some "agent", grantedCapability := none, tenantId := none }
  intent := { intentId := "intent-1", action := "refund", target := "order-7", parameters := [] }
  policy := { name := "refunds", version := "1", schemaVersion := "1", contentHash := none,
              governanceAnchor := none }
  signals := some [("approved", .bool true)]
  status := none

/-- A runtime with every optional collaborator and one hook. -/
def config : RuntimeConfig where
  regExp := noPatterns
  authorizationTtlSeconds := .ofNat 300
  hooks := 1
  refusalRecords := true
  signalStateVerifier := true
  capabilityPolicyBinder := true
  policyExecutionVerifier := true
  policyGovernanceAnchorResolver := true
  signingReadiness := true
  executionIntents := true
  approvalNeededNotifier := true

/-- An authorization for the content the signer is given. -/
def authorization (input : AuthorizationInput) : SignedExecutionAuthorization where
  payload := {
    version := .json (.num (.ofNat 1)), authorizationId := "authorization-1", nonce := "nonce-1"
    decisionId := input.decisionId, businessTransactionId := input.businessTransactionId
    policyName := input.policyName, policyVersion := input.policyVersion
    authorizedAt := "2026-01-01T00:00:00.000Z", expiresAt := "2026-01-01T00:05:00.000Z"
    businessTransactionHash := "content-hash", policyContentHash := some input.policyContentHash
    signalsHash := some input.signalsHash, submittedBy := input.submittedBy
    grantedCapability := input.grantedCapability }
  signature := "signature"
  keyId := "default"
  algorithm := "Ed25519"

/-- Collaborators that do what they are asked and find nothing to refuse. -/
def answer : (call : RuntimeCall) → Except Failure call.Answer
  | .randomUUID _ => .ok "id"
  | .now => .ok 0
  | .loadPolicy .. => .ok (singleRulePolicy approvedLeaf)
  | .hash _ => .ok "hash"
  | .resolveGovernanceAnchor .. => .ok ⟨"VERIFIED", some "approval-1"⟩
  | .verifyPolicyExecution .. => .ok none
  | .findCapabilityViolation .. => .ok none
  | .findStateViolations .. => .ok []
  | .seal _ => .ok ⟨"hash", "signature"⟩
  | .signAuthorization input _ => .ok (authorization input)
  | .executePipeline context => .ok context
  | .findIntent _ => .ok none
  | .markResolved .. => .ok false
  | .findTrustRecord _ => .ok none
  | .hook .. | .warnRuleConflicts _ | .createRefusalRecord _ | .notify _ | .assertReady
  | .createIntent _ | .markReleased .. | .markErrored .. | .markFinalized ..
  | .createTrustRecord _ => .ok ()

/-- The same collaborators, of which those in `broken` cannot be reached. -/
def breaking (broken : RuntimeCall → Bool) (call : RuntimeCall) : Except Failure call.Answer :=
  if broken call then .error (.error ("connect ECONNREFUSED" : String)) else answer call

/-- The same request without the approval signal. -/
def unapproved : BusinessTransaction := { transaction with signals := none }

/-- The events of a request, and its result. -/
def events (answers : (call : RuntimeCall) → Except Failure call.Answer)
    (transaction : BusinessTransaction) : List RuntimeEvent :=
  (RuntimeEngine.execute config transaction).events (fun call (_ : Unit) => (answers call, ())) ()

def result (answers : (call : RuntimeCall) → Except Failure call.Answer)
    (transaction : BusinessTransaction) : Except Failure (RuntimeContext × ExecutionTrustRecord) :=
  ((RuntimeEngine.execute config transaction).runState
    (fun call (_ : Unit) => (answers call, ())) ()).1

theorem runs (answers : (call : RuntimeCall) → Except Failure call.Answer)
    (transaction : BusinessTransaction) :
    Runs (RuntimeEngine.execute config transaction) (events answers transaction)
      (result answers transaction) := Program.runs_events _ _ _

theorem printedEvidence {t : List RuntimeEvent}
    (h : t.all (fun e => (unprintedOf e).isNone) = true) : ∀ e ∈ t, PrintedEvidence e := by
  rintro e he -
  exact Option.isNone_iff_eq_none.mp (List.all_eq_true.mp h e he)

/-- The collaborators, with a recorder of refusals that throws an object without a prototype. -/
def unprinting (call : RuntimeCall) : Except Failure call.Answer :=
  if call.isRefusalEvidence then .error (.unprintable .typeError) else answer call

end Sample

/-- The resolver throws, and the action is executed all the same; and a recorder that throws
what has no text puts an error of its own in the place of the refusal. -/
theorem anchorFailure_executed :
    (∃ t call k, Steps (RuntimeEngine.execute Sample.config Sample.transaction) t (.call call k) ∧
      call.isRelease ∧ ∃ e ∈ t, failed e) ∧
    Sample.result Sample.unprinting Sample.unapproved ≠
      Sample.result Sample.answer Sample.unapproved := by
  refine ⟨?_, by decide⟩
  obtain ⟨call, k, hcall, hs⟩ := (Sample.runs (Sample.breaking RuntimeCall.isAnchorResolution)
    Sample.transaction).split_first (S := RuntimeCall.isRelease) (by decide)
  refine ⟨_, call, k, hs, hcall, ?_⟩
  rw [← List.any_eq_true]
  decide

/-- The sample request is cleared when it is signed; refused, it is refused alike
with and without a recorder that can be reached. -/
theorem sample_cleared :
    (∃ t, Cleared Sample.config Sample.transaction t ∧ OnlyAnchorFailed t) ∧
    Sample.result (Sample.breaking RuntimeCall.isRefusalEvidence) Sample.unapproved =
      Sample.result Sample.answer Sample.unapproved := by
  constructor
  · obtain ⟨call, k, hcall, hs⟩ := (Sample.runs (Sample.breaking RuntimeCall.isAnchorResolution)
      Sample.transaction).split_first (S := RuntimeCall.isAuthorizing) (by decide)
    exact ⟨_, (RuntimeEngine.execute_authorizes_only_cleared Sample.config
      Sample.transaction).1 _ call k hs hcall⟩
  · exact (RuntimeEngine.execute_authorizes_only_cleared Sample.config Sample.unapproved).2
      _ _ _ _ (Sample.runs _ _) (Sample.runs _ _) (Sample.printedEvidence (by decide))
      (Sample.printedEvidence (by decide)) rfl

end Parmana

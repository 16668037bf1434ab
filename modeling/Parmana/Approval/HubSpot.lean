import Parmana.Approval.SingleUse

/-! # The HubSpot deal verifier

`HubSpotSignalStateVerifier` fetches the deal an update is about, derives the
facts the policy reads from it, and compares them with the signals the caller
declares.  Under a policy that declares no approval signals it also checks the
approval of a large change of the amount, and uses it.

What it comes to is one of three things, and each has a lemma: it has nothing
against the request (`run_hubSpot_agrees`), it refuses without looking at an
approval (`run_hubSpot_refuses`), or all depends on the approval
(`run_hubSpot_preAuthorization`).
-/
namespace Parmana.Approval
open Js Interaction Interaction.Program

/-! ## The facts of a deal -/

/-- `HUBSPOT_DEFAULT_STAGE_ORDER`. -/
def hubSpotDefaultStageOrder : List JsString :=
  [("appointmentscheduled" : JsString), "qualifiedtobuy", "presentationscheduled",
    "decisionmakerboughtin", "contractsent", "closedwon"]

/-- `HUBSPOT_LOST_STAGE`. -/
def hubSpotLostStage : JsString := "closedlost"

/-- `HUBSPOT_DEFAULT_AMOUNT_CHANGE_THRESHOLD`. -/
def hubSpotDefaultAmountChangeThreshold : JsNumber := .ofNat 10000

/-- `isHubSpotStageTransitionAllowed`. -/
def isHubSpotStageTransitionAllowed (currentStage proposedStage : JsString)
    (stageOrder : List JsString) : Bool :=
  if currentStage = proposedStage then true
  else
    let currentIsTerminal := currentStage == hubSpotLostStage ||
      stageOrder.getLast? == some currentStage
    if proposedStage = hubSpotLostStage then
      !currentIsTerminal && stageOrder.contains currentStage
    else if currentIsTerminal then false
    else match stageOrder.idxOf? currentStage, stageOrder.idxOf? proposedStage with
      | some currentIndex, some proposedIndex => decide (proposedIndex > currentIndex)
      | _, _ => false

/-- `BuildHubSpotDealUpdateSignalsInput`. -/
structure BuildHubSpotDealUpdateSignalsInput where
  currentDeal : HubSpotDeal
  proposedDealStage : Option JsString
  proposedAmount : Option JsNumber
  preAuthorizedForAmountChange : Option Bool
  amountChangeThreshold : Option JsNumber
  stageOrder : Option (List JsString)

/-- `proposedAmount !== currentAmount`, where the deal may have no amount. -/
def amountDiffers (proposedAmount : JsNumber) (currentAmount : Option JsNumber) : Bool :=
  currentAmount.all (fun current => !JsNumber.eq proposedAmount current)

/-- `buildHubSpotDealUpdateSignals`. -/
def buildHubSpotDealUpdateSignals (input : BuildHubSpotDealUpdateSignalsInput) : Fields :=
  let currentDealStage := input.currentDeal.dealstage.getD ""
  let currentAmount := input.currentDeal.amount.map JsNumber.ofText
  let dealStageChangeRequested :=
    input.proposedDealStage.any (fun proposed => proposed != currentDealStage)
  let dealStageTransitionAllowed :=
    !dealStageChangeRequested || input.proposedDealStage.all (fun proposed =>
      isHubSpotStageTransitionAllowed currentDealStage proposed
        (input.stageOrder.getD hubSpotDefaultStageOrder))
  let amountChangeRequested := input.proposedAmount.any (amountDiffers · currentAmount)
  let amountDeltaAbs := match input.proposedAmount with
    | some proposed =>
      if amountChangeRequested then (proposed.sub (currentAmount.getD .zero)).abs else .zero
    | none => .zero
  let threshold := input.amountChangeThreshold.getD hubSpotDefaultAmountChangeThreshold
  let amountChangeExceedsThreshold := amountChangeRequested && threshold.lt amountDeltaAbs
  let stageSignals : Fields := ("currentDealStage", .str currentDealStage) ::
    input.proposedDealStage.toList.map (fun proposed => ("proposedDealStage", .str proposed))
  let changeSignals : Fields := [("dealStageChangeRequested", .bool dealStageChangeRequested),
    ("dealStageTransitionAllowed", .bool dealStageTransitionAllowed),
    ("amountChangeRequested", .bool amountChangeRequested)]
  let amountSignals : Fields :=
    input.proposedAmount.toList.map (fun proposed => ("proposedAmount", .num proposed))
  let thresholdSignals : Fields := [("amountDeltaAbs", .num amountDeltaAbs),
    ("amountChangeExceedsThreshold", .bool amountChangeExceedsThreshold),
    ("preAuthorizedForAmountChange", .bool (input.preAuthorizedForAmountChange.getD false))]
  stageSignals ++ changeSignals ++ amountSignals ++ thresholdSignals

/-! ## The verifier -/

/-- `HUBSPOT_DEAL_UPDATE_CAPABILITY`. -/
def hubSpotDealUpdateCapability : JsString := "hubspot:deal-update"

/-- The options of a `HubSpotSignalStateVerifier` that its checks depend on. -/
structure HubSpotSignalStateVerifierOptions where
  amountChangeThreshold : Option JsNumber
  stageOrder : Option (List JsString)
  /-- Whether an approval verifier is configured. -/
  approvalVerifier : Bool

/-- `HUBSPOT_VERIFIED_SIGNAL_KEYS`. -/
def hubSpotVerifiedSignalKeys : List JsString :=
  [("currentDealStage" : JsString), "dealStageChangeRequested", "dealStageTransitionAllowed",
    "amountChangeRequested", "amountDeltaAbs", "amountChangeExceedsThreshold"]

/-- `error instanceof Error ? error.message : String(error)`. -/
def Thrown.text : Thrown → Except Thrown JsString
  | .typeError message | .error message => .ok message
  | .unprintable thrown => .error thrown

/-- The violation for an update that names no deal. -/
def missingDealId (dealId : JsValue) : SignalStateViolation :=
  ⟨"dealId", dealId,
    .json (.str "<missing: parameters.dealId is required to verify deal state>")⟩

/-- The violation for a deal that cannot be fetched. -/
def unfetchedDeal (text : JsString) : SignalStateViolation :=
  ⟨"hubspot:deal-fetch", .json (.str "<declared signals, unverifiable>"),
    .json (.str ("<verification failed: " ++ text ++ ">"))⟩

/-- The facts of a fetched deal under the proposal in the signals. -/
def verifiedSignals (options : HubSpotSignalStateVerifierOptions) (deal : HubSpotDeal)
    (signals : Fields) : Fields :=
  buildHubSpotDealUpdateSignals {
    currentDeal := deal
    proposedDealStage := match JsValue.getFields signals "proposedDealStage" with
      | .json (.str s) => some s
      | _ => none
    proposedAmount := match JsValue.getFields signals "proposedAmount" with
      | .json (.num n) => some n
      | _ => none
    preAuthorizedForAmountChange := none
    amountChangeThreshold := options.amountChangeThreshold
    stageOrder := options.stageOrder }

/-- The loop over the verified keys: a violation for each signal that is not the
fact. -/
def dealViolations (signals verified : Fields) : List SignalStateViolation :=
  hubSpotVerifiedSignalKeys.filterMap fun key =>
    if JsValue.strictEq (JsValue.getFields signals key) (JsValue.getFields verified key) then none
    else some ⟨key, JsValue.getFields signals key, JsValue.getFields verified key⟩

/-- `request.policy?.approvalSignals`. -/
def policyApprovalSignals (request : SignalStateVerificationRequest) : JsValue :=
  request.policy.elim .undefined (fun policy => (JsValue.json policy).get "approvalSignals")

/-- Whether the facts ask for the approval of a change of the amount. -/
def needsPreAuthorization (options : HubSpotSignalStateVerifierOptions)
    (request : SignalStateVerificationRequest) (verified : Fields) : Bool :=
  options.approvalVerifier && decide (policyApprovalSignals request = .undefined) &&
    (JsValue.getFields verified "amountChangeExceedsThreshold").truthy

/-- What an approval of a change of the amount is checked against. -/
def preAuthorizationRequest (dealId : JsString) (verified : Fields) (consumeNonce : Bool) :
    ApprovalVerificationRequest :=
  ⟨hubSpotDealUpdateCapability, dealId, JsValue.getFields verified "amountDeltaAbs",
    some consumeNonce⟩

/-- The violation of a declared pre-authorization that is not what the artifact
gives. -/
def preAuthorizationViolations (signals : Fields) (actual : Bool) : List SignalStateViolation :=
  let declared := JsValue.getFields signals "preAuthorizedForAmountChange"
  if JsValue.strictEq declared (.json (.bool actual)) then []
  else [⟨"preAuthorizedForAmountChange", declared, .json (.bool actual)⟩]

variable {Key : Type} (dateParse : JsString → Option Int)

/-- `verifyPreAuthorization`, with an approval verifier configured. -/
def verifyPreAuthorization (signals : Fields) (request : ApprovalVerificationRequest) :
    Verification Key (List SignalStateViolation) := do
  let artifact := JsValue.getFields signals "approvalArtifact"
  if h : isSignedApprovalShape artifact then
    let result ← verify dateParse ⟨artifact, h⟩ request
    return preAuthorizationViolations signals result.valid
  else return preAuthorizationViolations signals false

/-- The deal, or the violation that stands for a failed fetch. -/
def fetchForVerification (request : SignalStateVerificationRequest) (dealId : JsString) :
    Verification Key (Except SignalStateViolation (Option HubSpotDeal)) :=
  tryCatch
    (do
      let deal ← fetchDeal (request.businessTransactionId ++ ":state-verify") dealId
      return .ok deal)
    (fun error => do
      let text ← .done error.text
      return .error (unfetchedDeal text))

/-- `HubSpotSignalStateVerifier.findViolations` once the deal is named. -/
def verifyDeal (options : HubSpotSignalStateVerifierOptions)
    (request : SignalStateVerificationRequest) (signals : Fields) (dealId : JsString) :
    Verification Key (List SignalStateViolation) := do
  match ← fetchForVerification request dealId with
  | .error violation => return [violation]
  | .ok none => throw (.typeError "")
  | .ok (some deal) =>
    let verified := verifiedSignals options deal signals
    let violations := dealViolations signals verified
    if violations.isEmpty && needsPreAuthorization options request verified then
      verifyPreAuthorization dateParse signals
        (preAuthorizationRequest dealId verified (request.stage ≠ some .release))
    else return violations

/-- `HubSpotSignalStateVerifier.findViolations`. -/
def hubSpotFindViolations (options : HubSpotSignalStateVerifierOptions)
    (request : SignalStateVerificationRequest) (signals : Fields) :
    Verification Key (List SignalStateViolation) :=
  if request.action ≠ hubSpotDealUpdateCapability then return []
  else match (parametersValue request).get "dealId" with
    | .json (.str dealId) =>
      if dealId.length = 0 then return [missingDealId (.json (.str dealId))]
      else verifyDeal dateParse options request signals dealId
    | dealId => return [missingDealId dealId]

/-! ## In an environment -/

/-- The deal an update names is fetched, and the signals are its facts. -/
structure DealAgrees (env : Environment Key) (options : HubSpotSignalStateVerifierOptions)
    (request : SignalStateVerificationRequest) (signals : Fields) (dealId : JsString)
    (verified : Fields) : Prop where
  named : (parametersValue request).get "dealId" = .json (.str dealId)
  nonempty : dealId.length ≠ 0
  facts : ∃ deal, env.fetchDeal (request.businessTransactionId ++ ":state-verify") dealId =
    .ok (some deal) ∧ verified = verifiedSignals options deal signals
  agree : dealViolations signals verified = []

/-- A request has at most one deal and one set of facts. -/
theorem DealAgrees.unique {env : Environment Key} {options : HubSpotSignalStateVerifierOptions}
    {request : SignalStateVerificationRequest} {signals : Fields} {dealId dealId' : JsString}
    {verified verified' : Fields} (h : DealAgrees env options request signals dealId verified)
    (h' : DealAgrees env options request signals dealId' verified') :
    dealId = dealId' ∧ verified = verified' := by
  have hnamed := h.named.symm.trans h'.named
  cases hnamed
  obtain ⟨deal, hfetch, rfl⟩ := h.facts
  obtain ⟨deal', hfetch', rfl⟩ := h'.facts
  cases hfetch.symm.trans hfetch'
  exact ⟨rfl, rfl⟩

/-- The verifier has nothing to look at, or finds the signals to be the facts of
the deal and no approval to be needed. -/
def HubSpotAgrees (env : Environment Key) (options : HubSpotSignalStateVerifierOptions)
    (request : SignalStateVerificationRequest) (signals : Fields) : Prop :=
  request.action ≠ hubSpotDealUpdateCapability ∨
    ∃ dealId verified, DealAgrees env options request signals dealId verified ∧
      needsPreAuthorization options request verified = false

/-- The signals are the facts of the deal, and they need an approval. -/
def HubSpotAsks (env : Environment Key) (options : HubSpotSignalStateVerifierOptions)
    (request : SignalStateVerificationRequest) (signals : Fields) (dealId : JsString)
    (verified : Fields) : Prop :=
  request.action = hubSpotDealUpdateCapability ∧
    DealAgrees env options request signals dealId verified ∧
    needsPreAuthorization options request verified = true

namespace Environment
variable (env : Environment Key) {options : HubSpotSignalStateVerifierOptions}
  {request : SignalStateVerificationRequest} {signals : Fields}

theorem run_fetchForVerification (request : SignalStateVerificationRequest) (dealId : JsString)
    (w : World) :
    env.run (fetchForVerification request dealId) w =
      (match env.fetchDeal (request.businessTransactionId ++ ":state-verify") dealId with
        | .ok deal => .ok (.ok deal)
        | .error error => error.text.map fun text => .error (unfetchedDeal text), w) := by
  unfold run fetchForVerification
  rw [runState_tryCatch, runState_bind, Approval.fetchDeal, runState_perform]
  dsimp only [answer]
  cases env.fetchDeal (request.businessTransactionId ++ ":state-verify") dealId with
  | ok deal => rfl
  | error error => cases error <;> rfl

/-- The verification of a deal whose signals are its facts. -/
theorem run_verifyDeal {dealId : JsString} {verified : Fields}
    (h : DealAgrees env options request signals dealId verified) (w : World) :
    env.run (verifyDeal env.dateParse options request signals dealId) w =
      if needsPreAuthorization options request verified then
        env.run (verifyPreAuthorization env.dateParse signals
          (preAuthorizationRequest dealId verified (request.stage ≠ some .release))) w
      else (.ok [], w) := by
  obtain ⟨deal, hfetch, rfl⟩ := h.facts
  rw [verifyDeal, run_bind, run_fetchForVerification, hfetch]
  simp only [h.agree, List.isEmpty_nil, Bool.true_and]
  split <;> rfl

theorem run_hubSpot_named {dealId : JsString} (haction : request.action = hubSpotDealUpdateCapability)
    (hnamed : (parametersValue request).get "dealId" = .json (.str dealId))
    (hnonempty : dealId.length ≠ 0) (w : World) :
    env.run (hubSpotFindViolations env.dateParse options request signals) w =
      env.run (verifyDeal env.dateParse options request signals dealId) w := by
  rw [hubSpotFindViolations, if_neg (not_not.mpr haction), hnamed]
  dsimp only
  rw [if_neg hnonempty]

theorem run_hubSpot_agrees (h : HubSpotAgrees env options request signals) (w : World) :
    env.run (hubSpotFindViolations env.dateParse options request signals) w = (.ok [], w) := by
  by_cases haction : request.action = hubSpotDealUpdateCapability
  · obtain ⟨dealId, verified, hdeal, hneeds⟩ := h.resolve_left (not_not.mpr haction)
    rw [env.run_hubSpot_named haction hdeal.named hdeal.nonempty, env.run_verifyDeal hdeal, hneeds]
    rfl
  · rw [hubSpotFindViolations, if_pos haction]
    rfl

theorem run_hubSpot_preAuthorization {dealId : JsString} {verified : Fields}
    (h : HubSpotAsks env options request signals dealId verified) (w : World) :
    env.run (hubSpotFindViolations env.dateParse options request signals) w =
      env.run (verifyPreAuthorization env.dateParse signals
        (preAuthorizationRequest dealId verified (request.stage ≠ some .release))) w := by
  obtain ⟨haction, hdeal, hneeds⟩ := h
  rw [env.run_hubSpot_named haction hdeal.named hdeal.nonempty, env.run_verifyDeal hdeal, hneeds]
  rfl

/-- Otherwise the verifier refuses, or throws, and uses nothing. -/
theorem run_hubSpot_refuses (hagrees : ¬ HubSpotAgrees env options request signals)
    (hasks : ¬ ∃ dealId verified, HubSpotAsks env options request signals dealId verified)
    (w : World) :
    ∃ r, env.run (hubSpotFindViolations env.dateParse options request signals) w = (r, w) ∧
      r ≠ .ok [] := by
  have haction : request.action = hubSpotDealUpdateCapability := by
    by_contra haction
    exact hagrees (.inl haction)
  rw [hubSpotFindViolations, if_neg (not_not.mpr haction)]
  split
  · rename_i dealId hnamed
    split
    · exact ⟨_, rfl, by simp⟩
    rename_i hnonempty
    rw [verifyDeal, run_bind, run_fetchForVerification]
    cases hfetch : env.fetchDeal (request.businessTransactionId ++ ":state-verify") dealId with
    | error error =>
      dsimp only
      cases error.text with
      | error thrown => exact ⟨_, rfl, by simp⟩
      | ok text => exact ⟨_, rfl, by simp⟩
    | ok deal =>
      cases deal with
      | none => exact ⟨_, rfl, by simp⟩
      | some deal =>
        dsimp only
        -- Facts that agree would put the request in one of the two other cases.
        have hdisagree : dealViolations signals (verifiedSignals options deal signals) ≠ [] := by
          intro hagree
          have hdeal : DealAgrees env options request signals dealId _ :=
            ⟨hnamed, hnonempty, ⟨deal, hfetch, rfl⟩, hagree⟩
          cases hneeds : needsPreAuthorization options request (verifiedSignals options deal signals)
          · exact hagrees (.inr ⟨_, _, hdeal, hneeds⟩)
          · exact hasks ⟨_, _, haction, hdeal, hneeds⟩
        rw [if_neg (by simp [hdisagree])]
        exact ⟨_, rfl, by simpa using hdisagree⟩
  · exact ⟨_, rfl, by simp⟩

end Environment
end Parmana.Approval

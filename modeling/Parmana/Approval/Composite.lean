import Parmana.Approval.HubSpot

/-! # The composed signal verifier

Production composes three verifiers: the HubSpot deal verifier, the approval
verifier and the Slack channel verifier, asked in this order until one reports a
violation.  The first two can use an approval, and what comes after a use can
still refuse the request.  **A refusal leaves the nonce store as it was exactly
when none of these orders of events occurs** (`refusal_burns_nothing_iff`): the
HubSpot verifier uses the approval of a change that is then refused; the approval
verifier uses one approval and then refuses or fails on another; all approvals are
used for a message to a channel that is not allowed.
-/
namespace Parmana.Approval
open Js Interaction Interaction.Program

variable {Key : Type} (dateParse : JsString → Option Int)

/-! ## The Slack channel -/

/-- `SLACK_POST_MESSAGE_CAPABILITY`. -/
def slackPostMessageCapability : JsString := "slack:post-message"

/-- `parseAllowedSlackChannelIds`. -/
def parseAllowedSlackChannelIds (value : Option JsString) : List JsString :=
  (((JsString.splitUnits 0x2C (value.getD "").units).map JsString.mk).map JsString.trim).filter
    (fun id => id.length > 0)

/-- Whether the message goes to its target, and the target is on the list. -/
def slackChannelAllowed (allowedChannelIds : List JsString)
    (request : SignalStateVerificationRequest) : Bool :=
  match (parametersValue request).get "channel" with
  | .json (.str channel) =>
    request.intentTarget == some channel && allowedChannelIds.contains channel
  | _ => false

/-- `SlackChannelSignalVerifier.findViolations`. -/
def slackFindViolations (allowedChannelIds : List JsString)
    (request : SignalStateVerificationRequest) (signals : Fields) :
    Verification Key (List SignalStateViolation) :=
  if request.action ≠ slackPostMessageCapability then return []
  else if slackChannelAllowed allowedChannelIds request then return []
  else return [⟨"channelAuthorized", JsValue.getFields signals "channelAuthorized",
    .json (.bool false)⟩]

/-- The request is a message to a channel that is not allowed. -/
def SlackRefuses (allowedChannelIds : List JsString) (request : SignalStateVerificationRequest) :
    Prop :=
  request.action = slackPostMessageCapability ∧
    slackChannelAllowed allowedChannelIds request = false

/-! ## The composition -/

/-- `SignalStateVerifier`. -/
abbrev SignalStateVerifier (Key : Type) :=
  SignalStateVerificationRequest → Fields → Verification Key (List SignalStateViolation)

/-- `CompositeSignalStateVerifier.findViolations`. -/
def compositeFindViolations (request : SignalStateVerificationRequest) (signals : Fields) :
    List (SignalStateVerifier Key) → Verification Key (List SignalStateViolation)
  | [] => return []
  | verifier :: verifiers => do
    let violations ← verifier request signals
    if violations.length > 0 then return violations
    else compositeFindViolations request signals verifiers

/-- The options of `createHubSpotSignalStateVerifier`. -/
def productionHubSpotOptions : HubSpotSignalStateVerifierOptions := ⟨none, none, true⟩

/-- The verifiers of `createApplication`, with the value of
`SLACK_ALLOWED_CHANNEL_IDS`. -/
def productionVerifiers (slackAllowedChannelIds : Option JsString) :
    List (SignalStateVerifier Key) :=
  [hubSpotFindViolations dateParse productionHubSpotOptions, findViolations dateParse,
    slackFindViolations (parseAllowedSlackChannelIds slackAllowedChannelIds)]

/-! ## In an environment -/

/-- The artifact as the approval of a change of the amount. -/
def preAuthorization (dealId : JsString) (verified : Fields) (a : SignedApproval) :
    PendingApproval :=
  ⟨"preAuthorizedForAmountChange", a, preAuthorizationRequest dealId verified true⟩

/-- The artifact is used as the approval of a change of the amount. -/
def UsesPreAuthorization (env : Environment Key) (signals : Fields) (dealId : JsString)
    (verified : Fields) (w : World) : Prop :=
  ∃ a : SignedApproval, JsValue.getFields signals "approvalArtifact" = a.value ∧
    env.Uses (env.moment w.checks) w.consumed (preAuthorization dealId verified a)

/-- The HubSpot verifier uses the approval of a change that is refused all the
same: the store fails after it recorded the nonce, the signals do not declare the
change pre-authorized, or there is no policy to read. -/
def HubSpotBurns (env : Environment Key) (request : SignalStateVerificationRequest)
    (signals : Fields) (w : World) : Prop :=
  ∃ dealId verified,
    HubSpotAsks env productionHubSpotOptions request signals dealId verified ∧
    UsesPreAuthorization env signals dealId verified w ∧
    ((env.moment w.checks).storeFails ≠ none ∨
      JsValue.strictEq (JsValue.getFields signals "preAuthorizedForAmountChange")
        (.json (.bool true)) = false ∨
      request.policy = none ∨ request.policy = some .null)

/-- The approvals all pass the first pass, one of them is used in the second, and
then another fails or is refused, or the channel is. -/
def ApprovalsBurn (env : Environment Key) (allowedChannelIds : List JsString)
    (request : SignalStateVerificationRequest) (signals : Fields) (w : World) : Prop :=
  HubSpotAgrees env productionHubSpotOptions request signals ∧
  ∃ as, Prepared request signals as ∧ env.AllApprove w.checks as ∧
    (∃ i a, as[i]? = some a ∧ env.Reached (w.checks + as.length) as i ∧
      env.Usable (w.checks + as.length) w.consumed as i a ∧
      Environment.Stores (env.moment (w.checks + as.length + i))) ∧
    ((∃ j b, as[j]? = some b ∧ (env.Throws (env.moment (w.checks + as.length + j)) b ∨
        ¬ env.Usable (w.checks + as.length) w.consumed as j b)) ∨
      SlackRefuses allowedChannelIds request)

namespace Environment
variable (env : Environment Key) {request : SignalStateVerificationRequest} {signals : Fields}

/-- The Slack verifier uses nothing. -/
theorem run_slack (allowed : List JsString) (request : SignalStateVerificationRequest)
    (signals : Fields) (w : World) :
    ∃ r, env.run (slackFindViolations allowed request signals) w = (r, w) ∧
      (r = .ok [] ↔ ¬ SlackRefuses allowed request) := by
  unfold slackFindViolations SlackRefuses
  by_cases haction : request.action = slackPostMessageCapability
  · rw [if_neg (not_not.mpr haction)]
    cases hallowed : slackChannelAllowed allowed request with
    | true => exact ⟨.ok [], rfl, by simp⟩
    | false => exact ⟨_, rfl, by simp [haction]⟩
  · rw [if_pos haction]
    exact ⟨.ok [], rfl, by simp [haction]⟩

/-- One verifier of a composition, and the rest when it finds nothing. -/
theorem run_composite_cons (verifier : SignalStateVerifier Key)
    (verifiers : List (SignalStateVerifier Key)) (w : World) :
    env.run (compositeFindViolations request signals (verifier :: verifiers)) w =
      match env.run (verifier request signals) w with
      | (.ok [], w') => env.run (compositeFindViolations request signals verifiers) w'
      | refused => refused := by
  rw [compositeFindViolations, run_bind]
  rcases env.run (verifier request signals) w with ⟨_ | violations, w'⟩
  · rfl
  · cases violations <;> rfl

/-- What using the approval of a change comes to: the store is as it was unless
the approval is used, and a use is in vain when the store fails or the change is
not declared pre-authorized. -/
theorem run_verifyPreAuthorization (signals : Fields) (dealId : JsString) (verified : Fields)
    (w : World) :
    ∃ r w', env.run (verifyPreAuthorization env.dateParse signals
        (preAuthorizationRequest dealId verified true)) w = (r, w') ∧
      (w'.consumed = w.consumed ↔ ¬ UsesPreAuthorization env signals dealId verified w) ∧
      (UsesPreAuthorization env signals dealId verified w →
        (r = .ok [] ↔ (env.moment w.checks).storeFails = none ∧
          JsValue.strictEq (JsValue.getFields signals "preAuthorizedForAmountChange")
            (.json (.bool true)) = true)) := by
  by_cases hshape : isSignedApprovalShape (JsValue.getFields signals "approvalArtifact") = true
  · let a : SignedApproval := ⟨JsValue.getFields signals "approvalArtifact", hshape⟩
    have huses : UsesPreAuthorization env signals dealId verified w ↔
        env.Uses (env.moment w.checks) w.consumed (preAuthorization dealId verified a) := by
      constructor
      · rintro ⟨⟨value, shape⟩, rfl, h⟩
        exact h
      · exact fun h => ⟨a, rfl, h⟩
    obtain ⟨r, w', hrun, hstore, hused⟩ := env.run_use_uses (preAuthorization dealId verified a) w
    rw [huses, verifyPreAuthorization, dif_pos hshape, run_bind, show env.run (verify env.dateParse
      ⟨_, hshape⟩ (preAuthorizationRequest dealId verified true)) w = (r, w') from hrun]
    cases r with
    | error e =>
      refine ⟨_, w', rfl, hstore, fun h => iff_of_false nofun fun hnone => ?_⟩
      have hthrown := hused h
      rw [hnone.1] at hthrown
      exact nomatch hthrown
    | ok result =>
      refine ⟨_, w', rfl, hstore, fun h => ?_⟩
      have hvalid := hused h
      split at hvalid
      · cases hvalid
      · obtain ⟨checks, hresult⟩ := hvalid
        cases hresult
        simp [preAuthorizationViolations, *]
  · have hnot : ¬ UsesPreAuthorization env signals dealId verified w := by
      rintro ⟨a, ha, -⟩
      exact hshape (ha ▸ a.shape)
    rw [verifyPreAuthorization, dif_neg hshape]
    exact ⟨_, w, rfl, iff_of_true rfl hnot, fun h => absurd h hnot⟩

/-- Under a policy that declares no approval signals the approval verifier uses
nothing, and refuses an artifact that no policy asks for. -/
theorem run_findViolations_undeclared (signals : Fields) (hundeclared : policyApprovalSignals request = .undefined)
    (w : World) :
    ∃ r, env.run (findViolations env.dateParse request signals) w = (r, w) ∧
      ((∃ a : SignedApproval, JsValue.getFields signals "approvalArtifact" = a.value) →
        (r = .ok [] ↔ request.policy ≠ none ∧ request.policy ≠ some .null)) := by
  rw [findViolations]
  cases hpolicy : request.policy with
  | none =>
    dsimp only
    split
    · exact ⟨_, rfl, by simp⟩
    · rename_i hnone
      refine ⟨_, rfl, ?_⟩
      rintro ⟨a, ha⟩
      refine absurd ?_ hnone
      obtain ⟨j, hj⟩ := a.value_eq_json
      rw [hj, JsValue.getFields_eq_json] at ha
      exact List.any_eq_true.mpr ⟨_, Fields.mem_entries.mpr ha, hj ▸ a.shape⟩
  | some policy =>
    rw [policyApprovalSignals, hpolicy, Option.elim_some] at hundeclared
    by_cases hnull : policy = .null
    · subst hnull
      exact ⟨_, rfl, by simp⟩
    · dsimp only
      rw [JsValue.member_eq hnull, hundeclared]
      exact ⟨.ok [], rfl, by simp [hnull]⟩

/-- What follows the HubSpot verifier: the approval verifier decides what is used,
and the Slack verifier can only refuse. -/
theorem run_afterHubSpot (allowed : List JsString) (request : SignalStateVerificationRequest)
    (signals : Fields) (w : World) :
    ∃ r, env.run (compositeFindViolations request signals
        [findViolations env.dateParse, slackFindViolations allowed]) w =
        (r, (env.run (findViolations env.dateParse request signals) w).2) ∧
      (r = .ok [] ↔ (env.run (findViolations env.dateParse request signals) w).1 = .ok [] ∧
        ¬ SlackRefuses allowed request) := by
  rw [run_composite_cons]
  rcases env.run (findViolations env.dateParse request signals) w with ⟨_ | violations, w'⟩
  · exact ⟨_, rfl, by simp⟩
  cases violations with
  | cons v vs => exact ⟨_, rfl, by simp⟩
  | nil =>
    obtain ⟨r, hrun, hiff⟩ := env.run_slack allowed request signals w'
    dsimp only
    rw [run_composite_cons, hrun]
    rcases r with _ | _ | _
    · exact ⟨_, rfl, by simpa using hiff⟩
    · exact ⟨_, rfl, by simpa [compositeFindViolations] using hiff⟩
    · exact ⟨_, rfl, by simpa using hiff⟩

/-- The composition when the HubSpot verifier asks for an approval: it burns
exactly when the use is in vain. -/
theorem burnsNothing_asks (allowed : Option JsString) (hstage : request.stage ≠ some .release)
    {dealId : JsString} {verified : Fields} {w : World}
    (hasks : HubSpotAsks env productionHubSpotOptions request signals dealId verified) :
    ((env.run (compositeFindViolations request signals
        (productionVerifiers env.dateParse allowed)) w).1 ≠ .ok [] →
      (env.run (compositeFindViolations request signals
        (productionVerifiers env.dateParse allowed)) w).2.consumed = w.consumed) ↔
    ¬ HubSpotBurns env request signals w := by
  obtain ⟨r, w', hrun, hstore, hused⟩ := env.run_verifyPreAuthorization signals dealId verified w
  have hneeds := hasks.2.2
  simp only [needsPreAuthorization, Bool.and_eq_true, decide_eq_true_eq] at hneeds
  obtain ⟨r', hrun', hartifact⟩ := env.run_findViolations_undeclared signals hneeds.1.2 w'
  obtain ⟨r'', hrest, hiff⟩ := env.run_afterHubSpot (parseAllowedSlackChannelIds allowed) request
    signals w'
  have hslack : ¬ SlackRefuses (parseAllowedSlackChannelIds allowed) request := by
    rintro ⟨haction, -⟩
    rw [hasks.1] at haction
    exact absurd haction (by decide)
  have hburns : HubSpotBurns env request signals w ↔
      UsesPreAuthorization env signals dealId verified w ∧
      ((env.moment w.checks).storeFails ≠ none ∨
        JsValue.strictEq (JsValue.getFields signals "preAuthorizedForAmountChange")
          (.json (.bool true)) = false ∨ request.policy = none ∨ request.policy = some .null) := by
    constructor
    · rintro ⟨dealId', verified', hasks', h⟩
      obtain ⟨rfl, rfl⟩ := hasks.2.1.unique hasks'.2.1
      exact h
    · exact fun h => ⟨dealId, verified, hasks, h⟩
  rw [productionVerifiers, run_composite_cons, env.run_hubSpot_preAuthorization hasks]
  simp only [ne_eq, hstage, not_false_eq_true, decide_true, hrun, hburns]
  have hfinal : ∃ R, (match (r, w') with
      | (.ok [], w') => env.run (compositeFindViolations request signals [findViolations env.dateParse,
        slackFindViolations (parseAllowedSlackChannelIds allowed)]) w'
      | refused => refused) = (R, w') ∧ (R = .ok [] ↔ r = .ok [] ∧ r' = .ok []) := by
    rw [hrun'] at hrest hiff
    rcases r with _ | _ | _
    · exact ⟨_, rfl, by simp⟩
    · exact ⟨r'', hrest, by simpa [hslack] using hiff⟩
    · exact ⟨_, rfl, by simp⟩
  obtain ⟨R, hR, hok⟩ := hfinal
  rw [hR, hok]
  dsimp only
  by_cases huses : UsesPreAuthorization env signals dealId verified w
  · have hshown := huses.imp fun _ h => h.1
    have hchanged : w'.consumed ≠ w.consumed := fun h => hstore.mp h huses
    rw [hused huses, hartifact hshown]
    simp only [hchanged, imp_false, not_not, huses, true_and, not_or, Bool.not_eq_false, and_assoc,
      ne_eq]
  · exact iff_of_true (fun _ => hstore.mpr huses) fun h => huses h.1

/-- The composition when the HubSpot verifier has nothing against the request: the
approval verifier and the channel decide. -/
theorem burnsNothing_agrees (allowed : Option JsString) (hstage : request.stage ≠ some .release)
    {w : World} (hagrees : HubSpotAgrees env productionHubSpotOptions request signals) :
    ((env.run (compositeFindViolations request signals
        (productionVerifiers env.dateParse allowed)) w).1 ≠ .ok [] →
      (env.run (compositeFindViolations request signals
        (productionVerifiers env.dateParse allowed)) w).2.consumed = w.consumed) ↔
    ¬ ApprovalsBurn env (parseAllowedSlackChannelIds allowed) request signals w := by
  obtain ⟨r, hrun, hok⟩ := env.run_afterHubSpot (parseAllowedSlackChannelIds allowed) request
    signals w
  rw [productionVerifiers, run_composite_cons, env.run_hubSpot_agrees hagrees]
  dsimp only
  rw [hrun, ne_eq, hok]
  dsimp only
  constructor
  · rintro hkeeps ⟨-, as, hprepared, hall, ⟨i, a, ha, hreached, husable, hstores⟩, hrefused⟩
    rw [env.run_findViolations_use hstage hprepared hall] at hkeeps
    obtain ⟨-, hnone, hstore⟩ := env.run_usePass as ⟨w.checks + as.length, w.consumed⟩
    refine hstore.mp (hkeeps ?_) i a ha hreached ⟨husable, hstores⟩
    rw [hnone]
    rintro ⟨hpass, hslack⟩
    rcases hrefused with ⟨j, b, hb, hfails⟩ | hslack'
    · obtain ⟨hthrows, husable⟩ := hpass j b hb
      exact hfails.elim hthrows fun h => h husable
    · exact hslack hslack'
  · intro hnot hrefused
    by_cases h : ∃ as, Prepared request signals as ∧ env.AllApprove w.checks as
    · obtain ⟨as, hprepared, hall⟩ := h
      rw [env.run_findViolations_use hstage hprepared hall] at hrefused ⊢
      obtain ⟨-, hnone, hstore⟩ := env.run_usePass as ⟨w.checks + as.length, w.consumed⟩
      refine hstore.mpr fun i a ha hreached hused => hnot ⟨hagrees, as, hprepared, hall,
        ⟨i, a, ha, hreached, hused⟩, ?_⟩
      rw [hnone] at hrefused
      by_contra hall'
      rw [not_or] at hall'
      refine hrefused ⟨fun j b hb => ?_, hall'.2⟩
      by_contra hfails
      rw [not_and_or, not_not] at hfails
      exact hall'.1 ⟨j, b, hb, hfails⟩
    · exact env.run_findViolations_keep h

/-- **A refusal at authorization burns nothing unless an approval is used and what
comes after the use refuses.** -/
theorem refusal_burns_nothing_iff (slackAllowedChannelIds : Option JsString)
    (request : SignalStateVerificationRequest) (signals : Fields) (w : World)
    (hstage : request.stage ≠ some .release) :
    ((env.run (compositeFindViolations request signals
        (productionVerifiers env.dateParse slackAllowedChannelIds)) w).1 ≠ .ok [] →
      (env.run (compositeFindViolations request signals
        (productionVerifiers env.dateParse slackAllowedChannelIds)) w).2.consumed = w.consumed) ↔
    ¬ (HubSpotBurns env request signals w ∨
      ApprovalsBurn env (parseAllowedSlackChannelIds slackAllowedChannelIds) request signals w) := by
  by_cases hasks : ∃ dealId verified,
      HubSpotAsks env productionHubSpotOptions request signals dealId verified
  · obtain ⟨dealId, verified, hasks⟩ := hasks
    rw [env.burnsNothing_asks _ hstage hasks, not_or, iff_self_and]
    -- A policy that leaves the approval to the HubSpot verifier declares no signal.
    rintro - ⟨-, as, ⟨policy, declarations, hpolicy, hmember, hdeclared, -⟩, -⟩
    have hneeds := hasks.2.2
    simp only [needsPreAuthorization, Bool.and_eq_true, decide_eq_true_eq] at hneeds
    rw [policyApprovalSignals, hpolicy, Option.elim_some, JsValue.member_ok hmember] at hneeds
    exact hdeclared hneeds.1.2
  have hnoburn : ¬ HubSpotBurns env request signals w :=
    fun ⟨dealId, verified, h, _⟩ => hasks ⟨dealId, verified, h⟩
  by_cases hagrees : HubSpotAgrees env productionHubSpotOptions request signals
  · rw [env.burnsNothing_agrees _ hstage hagrees, not_or, and_iff_right hnoburn]
  · obtain ⟨r, hrun, hne⟩ := env.run_hubSpot_refuses hagrees hasks w
    rw [productionVerifiers, run_composite_cons, hrun]
    refine iff_of_true (fun _ => ?_) fun h => h.elim hnoburn fun h => hagrees h.1
    rcases r with _ | _ | _
    · rfl
    · exact absurd rfl hne
    · rfl

end Environment

/-! ## A message to a channel that is not allowed -/

/-- A message to a channel, under a policy that wants it approved. -/
def postRequest (channel : JsString) : SignalStateVerificationRequest :=
  ⟨"slack:post-message", "transaction-1", some [("channel", .str channel)], some channel,
    some .authorize,
    some (.obj [("approvalSignals", .obj [("postApproved", .obj [("resourceId", "target")])])])⟩

/-- The signals of a message whose approval is for a given channel. -/
def postSignals (approved : JsString) : Fields :=
  [("postApproved", .bool true), ("channelAuthorized", .bool true),
    ("approvalArtifact", approvalFor "slack:post-message" approved)]

/-- An approved message to a channel outside the allowlist is refused, and its
approval is used up. -/
theorem deniedChannel_burned :
    trustingEnvironment.run (compositeFindViolations (postRequest "C2") (postSignals "C2")
      (productionVerifiers trustingEnvironment.dateParse (some ("C1" : JsString)))) ⟨0, []⟩ =
      (.ok [⟨"channelAuthorized", .json (.bool true), .json (.bool false)⟩],
        ⟨2, [("nonce-1" : JsString)]⟩) := by
  decide

/-- When the approval is for another channel, the message is refused before that. -/
theorem deniedChannel_burns_nothing :
    (trustingEnvironment.run (compositeFindViolations (postRequest "C2") (postSignals "C1")
      (productionVerifiers trustingEnvironment.dateParse (some ("C1" : JsString)))) ⟨0, []⟩).1 =
      .ok [refused "postApproved"] ∧
    (trustingEnvironment.run (compositeFindViolations (postRequest "C2") (postSignals "C1")
      (productionVerifiers trustingEnvironment.dateParse (some ("C1" : JsString))))
      ⟨0, []⟩).2.consumed = [] := by
  have hrefused : (trustingEnvironment.run (compositeFindViolations (postRequest "C2")
      (postSignals "C1") (productionVerifiers trustingEnvironment.dateParse
        (some ("C1" : JsString)))) ⟨0, []⟩).1 =
      .ok [refused "postApproved"] := by
    decide
  refine ⟨hrefused, (trustingEnvironment.refusal_burns_nothing_iff (some "C1") (postRequest "C2")
    (postSignals "C1") ⟨0, []⟩ (by decide)).mpr ?_ (by simp [hrefused])⟩
  rintro (⟨dealId, verified, ⟨haction, -⟩, -⟩ | ⟨-, as, ⟨policy, declarations, hpolicy, hmember,
    -, -, hprepare⟩, hall, -⟩)
  · exact absurd haction (by decide)
  · cases hpolicy
    cases hmember
    -- What the first pass finds of the approval.
    have hchecks : (prepareAll (postRequest "C2") (postSignals "C1")
        (trueEntries (postSignals "C1") (sortedEntries (.json (.obj
          [("postApproved", .obj [("resourceId", "target")])]))))).map
        (fun p => p.2.map fun a => (trustingEnvironment.checksAt (trustingEnvironment.moment 0)
          a.artifact a.request).map ApprovalChecks.priorPassed) = .ok [.ok false] := by
      decide
    erw [hprepare] at hchecks
    have hfirst := congrArg (fun l => l[0]?) (Except.ok.inj hchecks)
    rw [List.getElem?_map] at hfirst
    obtain ⟨approval, happroval, hfails⟩ := Option.map_eq_some_iff.mp hfirst
    have hpassed := Environment.AllApprove.passed _ hall happroval
    exact absurd (hfails.symm.trans hpassed) (by simp)

end Parmana.Approval

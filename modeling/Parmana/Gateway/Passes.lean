import Parmana.Gateway.ExecutionGateway

/-! # When a request passes

What it takes for a request to pass is said once, of the answers of the gateway's
collaborators (`ExecutionGateway.Passes`): the key, the signature, the dates, the
content hash, the policy and the signals.  The code's own account of it, in flags
that are true, false or absent, comes to the same: `priorChecks_passes`.
-/
namespace Parmana.Gateway
open Js Interaction Interaction.Program

variable {Key : Type}

/-- The answers of the gateway's collaborators. -/
abbrev Answers (Key : Type) := (call : GatewayCall Key) → Except Failure call.Answer

/-! ## The envelope -/

section Envelope
variable (v : EnvelopeVerifier Key) (dateParse : JsString → Option Int) (ans : Answers Key)
  (authorization : SignedExecutionAuthorization) (now : Int)

/-- The key an authorization is checked with: the provider's, not known to have
expired, or the only one. -/
def EnvelopeVerifier.KeyFor (key : Key) : Prop :=
  if v.keyProvider = true then
    (v.keyExpiryStore = true → ∃ entry, ans (.getKeyExpiry authorization.keyId) = .ok entry ∧
      ∀ e ∈ entry, e.invalid now = false) ∧
    ans (.getPublicKey authorization.keyId) = .ok key
  else key = v.publicKey

/-- Every check of the envelope passes. -/
structure EnvelopeVerifier.Passes : Prop where
  signature : ∃ key, v.KeyFor ans authorization now key ∧
    ans (.verifySignature authorization.payload authorization.signature key) = .ok true
  version : versionSupported authorization.payload = true
  expiry : Approval.notExpired dateParse now authorization.payload.expiresAt = true
  timeToLive : ttlWithinPolicy v.maxTtlSeconds (dateParse authorization.payload.expiresAt)
    (dateParse authorization.payload.authorizedAt) = true

variable {v dateParse ans authorization now}

theorem keyExpired_result {b : Bool} : (v.keyExpired authorization now).result ans = .ok b ↔
    if v.keyExpiryStore = true then
      ∃ entry, ans (.getKeyExpiry authorization.keyId) = .ok entry ∧ entry.any (·.invalid now) = b
    else b = false := by
  unfold EnvelopeVerifier.keyExpired
  split
  · rw [result_bind, bind_eq_ok]
    refine exists_congr fun entry => and_congr_right fun _ => ?_
    rw [pure_eq, result_done, Except.ok.injEq]
  · rw [pure_eq, result_done, Except.ok.injEq, eq_comm]

theorem resolveKey_result {key : Key} :
    (v.resolveKey authorization now).result ans = .ok (some key) ↔
      v.KeyFor ans authorization now key := by
  unfold EnvelopeVerifier.resolveKey EnvelopeVerifier.KeyFor
  by_cases hprovider : v.keyProvider = true
  · rw [if_pos hprovider, if_pos hprovider, result_bind, bind_eq_ok]
    have hfetch : (tryCatch (do return some (← ask (.getPublicKey authorization.keyId)))
        fun _ => return none : GatewayProgram Key (Option Key)).result ans = .ok (some key) ↔
        ans (.getPublicKey authorization.keyId) = .ok key := by
      rw [result_tryCatch, result_bind, result_perform]
      cases ans (.getPublicKey authorization.keyId) with
      | error e => simp [Bind.bind, Except.bind]
      | ok k => simp [Bind.bind, Except.bind]
    have hfree : (v.keyExpired authorization now).result ans = .ok false ↔
        (v.keyExpiryStore = true → ∃ entry, ans (.getKeyExpiry authorization.keyId) = .ok entry ∧
          ∀ e ∈ entry, e.invalid now = false) := by
      rw [keyExpired_result]
      by_cases hstore : v.keyExpiryStore = true
      · rw [if_pos hstore, forall_prop_of_true hstore]
        refine exists_congr fun entry => and_congr_right fun _ => ?_
        cases entry <;> simp
      · simp [hstore]
    rw [← hfree, ← hfetch]
    constructor
    · rintro ⟨b, hb, hrest⟩
      cases b with
      | true => cases hrest
      | false => exact ⟨hb, hrest⟩
    · rintro ⟨hb, hrest⟩
      exact ⟨false, hb, hrest⟩
  · rw [if_neg hprovider, if_neg hprovider]
    simp [eq_comm]

theorem authorization_result {key : Key} {checks : AuthorizationChecks} :
    (AuthorizationVerifier.verify dateParse authorization key now).result ans = .ok checks →
    (checks.versionSupported && checks.signatureVerified && checks.notExpired) = true →
      versionSupported authorization.payload = true ∧
      ans (.verifySignature authorization.payload authorization.signature key) = .ok true ∧
      Approval.notExpired dateParse now authorization.payload.expiresAt = true := by
  unfold AuthorizationVerifier.verify
  split
  · rename_i hversion
    rw [result_bind, bind_eq_ok]
    rintro ⟨signed, hsigned, hchecks⟩ hpassed
    cases hchecks
    rw [Bool.and_eq_true, Bool.and_eq_true] at hpassed
    obtain ⟨⟨-, hsig⟩, hexpiry⟩ := hpassed
    cases hsig
    exact ⟨hversion, hsigned, hexpiry⟩
  · intro hchecks hpassed
    cases hchecks
    cases hpassed

/-- **The checks of the envelope pass exactly when each of them does.** -/
theorem verifyChecks_passes :
    (∃ r, (v.verifyChecks dateParse authorization now).result ans = .ok r ∧ r.passed = true) ↔
      v.Passes dateParse ans authorization now := by
  constructor
  · rintro ⟨r, hr, hpassed⟩
    unfold EnvelopeVerifier.verifyChecks at hr
    rw [result_bind, bind_eq_ok] at hr
    obtain ⟨resolved, hresolved, hr⟩ := hr
    rw [result_bind, bind_eq_ok] at hr
    obtain ⟨checks, hchecks, hr⟩ := hr
    cases hr
    unfold EnvelopeVerifier.envelopeChecks at hpassed
    simp only [Bool.and_eq_true] at hpassed
    obtain ⟨⟨⟨⟨-, hversion⟩, hsignature⟩, hexpiry⟩, httl⟩ := hpassed
    cases resolved with
    | none =>
      cases hchecks
      cases hversion
    | some key =>
      obtain ⟨hv, hs, he⟩ := authorization_result hchecks (by rw [hversion, hsignature, hexpiry]; rfl)
      exact ⟨⟨key, resolveKey_result.mp hresolved, hs⟩, hv, he, httl⟩
  · rintro ⟨⟨key, hkey, hsigned⟩, hversion, hexpiry, httl⟩
    have hverify : (AuthorizationVerifier.verify dateParse authorization key now).result ans =
        .ok ⟨true, true, true⟩ := by
      unfold AuthorizationVerifier.verify
      rw [if_pos hversion, result_bind, result_perform, hsigned]
      exact congrArg (fun b => Except.ok (AuthorizationChecks.mk true true b)) hexpiry
    refine ⟨v.envelopeChecks dateParse authorization (some key) ⟨true, true, true⟩, ?_, ?_⟩
    · unfold EnvelopeVerifier.verifyChecks
      rw [result_bind, resolveKey_result.mpr hkey]
      change ((AuthorizationVerifier.verify dateParse authorization key now >>= fun checks =>
        pure (v.envelopeChecks dateParse authorization (some key) checks)).result ans) = _
      rw [result_bind, hverify]
      rfl
    · unfold EnvelopeVerifier.envelopeChecks EnvelopeVerifier.keyValid
      simp only [httl]
      cases v.keyProvider <;> rfl

end Envelope

/-! ## The gateway -/

/-- Neither flag of the policy says that it failed. -/
def PolicyCheck.notFailed (policy : PolicyCheck) : Bool :=
  policy.policyStillCurrent != some false && policy.policyGovernanceVerified != some false

namespace ExecutionGateway
variable (g : ExecutionGateway Key) (dateParse : JsString → Option Int)
  (sha256 : List UInt8 → JsString) (ans : Answers Key) (request : ExecutionRequest) (now : Int)

/-- The policy checks pass.  Where binding is required the authorization must name
the content of its policy; where it does, and there is a repository, the live policy
must be that content, and a checker must have approved it. -/
structure PolicyPasses (payload : ExecutionAuthorizationPayload) : Prop where
  named : g.requirePolicyBinding = true → payload.policyContentHash ≠ none
  current : ∀ hash, payload.policyContentHash = some hash → g.policyRepository = true →
    ∃ policy, ans (.loadPolicy payload.policyName payload.policyVersion) = .ok policy ∧
      contentHash sha256 policy = .ok hash ∧
      (g.policyApprovalVerifier = true →
        ans (.verifyPolicyApproval payload.policyName payload.policyVersion hash) = .ok none)

/-- The policy the signal verifier is shown. -/
def shownPolicy (payload : ExecutionAuthorizationPayload) : Option Json :=
  if payload.policyContentHash.isSome && g.policyRepository then
    (ans (.loadPolicy payload.policyName payload.policyVersion)).toOption
  else none

/-- The signal check passes, where it runs. -/
def SignalsPass (content : ExecutableContent) : Prop :=
  ∀ signalsHash signals, request.authorization.payload.signalsHash = some signalsHash →
    request.signals = some signals → g.signalStateVerifier = true →
    contentHash sha256 (.obj signals) = .ok signalsHash ∧
      ans (.findViolations
        (releaseRequest content (g.shownPolicy ans request.authorization.payload)) signals) = .ok []

/-- Every check of the request but the nonce passes. -/
structure Passes (content : ExecutableContent) : Prop where
  wellFormed : toExecutableContent request = .ok content
  envelope : g.envelopeVerifier.Passes dateParse ans request.authorization now
  contentHash : contentHash sha256 (contentJson content) =
    .ok request.authorization.payload.businessTransactionHash
  policy : g.PolicyPasses sha256 ans request.authorization.payload
  signals : g.SignalsPass sha256 ans request content

variable {g dateParse sha256 ans request now}

theorem compareContent_result {content : ExecutableContent}
    {payload : ExecutionAuthorizationPayload} :
    (∃ m, (compareContent sha256 true content payload : GatewayProgram Key _).result ans =
      .ok (true, m)) ↔
      Gateway.contentHash sha256 (contentJson content) = .ok payload.businessTransactionHash := by
  unfold compareContent
  rw [if_pos rfl, result_bind, result_done]
  cases hhash : Gateway.contentHash sha256 (contentJson content) with
  | error e => simp [Bind.bind, Except.bind]
  | ok actual =>
    rw [ok_bind]
    split
    · rename_i heq
      simp [heq]
    · rename_i hne
      simp [hne]

/-- The approval of a policy, unless what the verifier throws has no text. -/
theorem verifyApproval_result (ans : Answers Key) (payload : ExecutionAuthorizationPayload)
    (hash : JsString) :
    (∃ violation, (verifyApproval payload hash : GatewayProgram Key _).result ans = .ok violation ∧
      (violation = none ↔
        ans (.verifyPolicyApproval payload.policyName payload.policyVersion hash) = .ok none)) ∨
    ∃ thrown, (verifyApproval payload hash : GatewayProgram Key _).result ans = .error thrown ∧
      ans (.verifyPolicyApproval payload.policyName payload.policyVersion hash) ≠ .ok none := by
  unfold verifyApproval
  rw [result_tryCatch, result_perform]
  cases ans (.verifyPolicyApproval payload.policyName payload.policyVersion hash) with
  | error failure =>
    dsimp only
    rw [result_bind, result_done]
    cases failure.text with
    | error thrown => exact .inr ⟨thrown, rfl, nofun⟩
    | ok text => exact .inl ⟨_, rfl, by simp⟩
  | ok violation => exact .inl ⟨violation, rfl, by simp⟩

theorem policyBindingOk_changed (expected actual : JsString) :
    g.policyBindingOk (.changed expected actual) = false := by
  unfold policyBindingOk PolicyCheck.changed
  cases g.requirePolicyBinding <;> rfl

/-- The comparison of a policy that was loaded and hashed: a check, or an error where the
approval of the policy throws what has no text. -/
theorem comparePolicy_result {payload : ExecutionAuthorizationPayload} (hash : JsString)
    {actual : JsString} {policy : Json}
    (hload : ans (.loadPolicy payload.policyName payload.policyVersion) = .ok policy)
    (hhash : Gateway.contentHash sha256 policy = .ok actual) :
    (∃ check, (g.comparePolicy sha256 payload hash).result ans = .ok check ∧
      (g.policyBindingOk check = true ↔ actual = hash ∧ (g.policyApprovalVerifier = true →
        ans (.verifyPolicyApproval payload.policyName payload.policyVersion hash) = .ok none)) ∧
      (g.policyBindingOk check = true → check.verifiedPolicy = some policy) ∧
      (check.notFailed = true → g.policyBindingOk check = true)) ∨
    ∃ thrown, (g.comparePolicy sha256 payload hash).result ans = .error thrown ∧
      g.policyApprovalVerifier = true ∧
      ans (.verifyPolicyApproval payload.policyName payload.policyVersion hash) ≠ .ok none := by
  have hresult : (g.comparePolicy sha256 payload hash).result ans =
      (if actual = hash then
        if g.policyApprovalVerifier then do
          let violation ← verifyApproval payload actual
          return ⟨some true, some policy, none, some violation.isNone, violation⟩
        else return ⟨some true, some policy, none, none, none⟩
      else return .changed hash actual : GatewayProgram Key PolicyCheck).result ans := by
    unfold comparePolicy
    rw [result_bind, result_perform, hload]
    change (_ >>= _ : GatewayProgram Key PolicyCheck).result ans = _
    rw [result_bind, result_done, hhash]
    rfl
  rw [hresult]
  by_cases hsame : actual = hash
  · subst hsame
    rw [if_pos rfl]
    by_cases hverifier : g.policyApprovalVerifier = true
    · rw [if_pos hverifier, result_bind]
      rcases verifyApproval_result ans payload actual with
        ⟨violation, hviolation, hnone⟩ | ⟨thrown, hthrown, happroved⟩
      swap
      · rw [hthrown]
        exact .inr ⟨thrown, rfl, hverifier, happroved⟩
      rw [hviolation]
      refine .inl ⟨_, rfl, ?_, fun _ => rfl, ?_⟩
      · rw [← hnone]
        unfold policyBindingOk
        cases violation <;> cases g.requirePolicyBinding <;> simp [hverifier]
      · unfold policyBindingOk PolicyCheck.notFailed
        cases violation <;> cases g.requirePolicyBinding <;> simp
    · have hlegacy : g.requirePolicyBinding = false := by
        by_contra hrequired
        exact hverifier (g.binding (by simpa using hrequired)).2
      rw [if_neg hverifier]
      refine .inl ⟨_, rfl, ?_, fun _ => rfl, fun _ => ?_⟩
      · unfold policyBindingOk
        simp [hlegacy, hverifier]
      · unfold policyBindingOk
        simp [hlegacy]
  · rw [if_neg hsame]
    refine .inl ⟨_, rfl, ?_, ?_, fun hran => (nomatch hran)⟩
    · rw [policyBindingOk_changed]
      simp [hsame]
    · rw [policyBindingOk_changed]
      rintro ⟨⟩

/-- A check that says whether the policy passes, and which policy it was; where it
does not pass, one of its flags says so. -/
structure Decides (g : ExecutionGateway Key) (sha256 : List UInt8 → JsString) (ans : Answers Key)
    (payload : ExecutionAuthorizationPayload) (check : PolicyCheck) : Prop where
  passes : g.policyBindingOk check = true ↔ g.PolicyPasses sha256 ans payload
  shown : g.policyBindingOk check = true → check.verifiedPolicy = g.shownPolicy ans payload
  ran : check.notFailed = true → g.policyBindingOk check = true

theorem decides_changed {payload : ExecutionAuthorizationPayload} {expected actual : JsString}
    (h : ¬ g.PolicyPasses sha256 ans payload) :
    g.Decides sha256 ans payload (.changed expected actual) := by
  have hok := policyBindingOk_changed (g := g) expected actual
  refine ⟨?_, ?_, fun hran => (nomatch hran)⟩
  · rw [hok]
    exact ⟨fun h => (nomatch h), fun h' => absurd h' h⟩
  · rw [hok]
    exact fun h => (nomatch h)

theorem decides_skipped {payload : ExecutionAuthorizationPayload}
    (hrequired : ¬ g.requirePolicyBinding = true)
    (h : payload.policyContentHash = none ∨ ¬ g.policyRepository = true) :
    g.Decides sha256 ans payload .skipped := by
  have hok : g.policyBindingOk .skipped = true := by
    unfold policyBindingOk
    exact if_neg hrequired
  refine ⟨⟨fun _ => ⟨fun h' => absurd h' hrequired, ?_⟩, fun _ => hok⟩, fun _ => ?_, fun _ => hok⟩
  · intro hash hnamed hrepository
    rcases h with h | h
    · rw [h] at hnamed
      cases hnamed
    · exact absurd hrepository h
  · unfold shownPolicy
    rw [if_neg]
    · rfl
    · rw [Bool.and_eq_true]
      rintro ⟨hnamed, hrepository⟩
      rcases h with h | h
      · rw [h] at hnamed
        cases hnamed
      · exact h hrepository

/-- **The policy checks end with a check that decides.** -/
theorem checkPolicy_result (g : ExecutionGateway Key) (sha256 : List UInt8 → JsString)
    (ans : Answers Key) (payload : ExecutionAuthorizationPayload) :
    ∃ check, (g.checkPolicy sha256 true payload).result ans = .ok check ∧
      g.Decides sha256 ans payload check := by
  unfold checkPolicy
  rw [if_pos rfl]
  cases hnamed : payload.policyContentHash with
  | none =>
    dsimp only
    by_cases hrequired : g.requirePolicyBinding = true
    · rw [if_pos hrequired]
      exact ⟨_, rfl, decides_changed fun h => h.named hrequired hnamed⟩
    · rw [if_neg hrequired]
      exact ⟨_, rfl, decides_skipped hrequired (Or.inl hnamed)⟩
  | some hash =>
    dsimp only
    by_cases hrepository : g.policyRepository = true
    · rw [if_pos hrepository, result_tryCatch]
      cases hload : ans (.loadPolicy payload.policyName payload.policyVersion) with
      | error e =>
        have hfailed : (g.comparePolicy sha256 payload hash).result ans = .error e := by
          unfold comparePolicy
          rw [result_bind, result_perform, hload]
          rfl
        rw [hfailed]
        refine ⟨_, rfl, decides_changed fun h => ?_⟩
        obtain ⟨policy, hpolicy, -⟩ := h.current hash hnamed hrepository
        rw [hload] at hpolicy
        cases hpolicy
      | ok policy =>
        cases hhash : Gateway.contentHash sha256 policy with
        | error e =>
          have hfailed : (g.comparePolicy sha256 payload hash).result ans = .error e := by
            unfold comparePolicy
            rw [result_bind, result_perform, hload]
            change (_ >>= _ : GatewayProgram Key PolicyCheck).result ans = _
            rw [result_bind, result_done, hhash]
            rfl
          rw [hfailed]
          refine ⟨_, rfl, decides_changed fun h => ?_⟩
          obtain ⟨policy', hpolicy, hhash', -⟩ := h.current hash hnamed hrepository
          rw [hload] at hpolicy
          cases hpolicy
          rw [hhash] at hhash'
          cases hhash'
        | ok actual =>
          rcases comparePolicy_result hash hload hhash with
            ⟨check, hcheck, hiff, hshown, hran⟩ | ⟨thrown, hthrown, hverifier, happroved⟩
          swap
          · rw [hthrown]
            refine ⟨_, rfl, decides_changed fun h => ?_⟩
            obtain ⟨-, -, -, happroved'⟩ := h.current hash hnamed hrepository
            exact happroved (happroved' hverifier)
          rw [hcheck]
          refine ⟨check, rfl, hiff.trans ⟨?_, ?_⟩, fun hok => ?_, hran⟩
          · rintro ⟨rfl, happroved⟩
            refine ⟨fun _ h => ?_, fun hash' h _ => ?_⟩
            · rw [hnamed] at h
              cases h
            · rw [hnamed] at h
              cases h
              exact ⟨policy, hload, hhash, happroved⟩
          · intro h
            obtain ⟨policy', hpolicy, hhash', happroved⟩ := h.current hash hnamed hrepository
            rw [hload] at hpolicy
            cases hpolicy
            rw [hhash] at hhash'
            exact ⟨Except.ok.inj hhash', happroved⟩
          · rw [hshown hok, shownPolicy, hnamed, hrepository, hload]
            rfl
    · have hlegacy : ¬ g.requirePolicyBinding = true := fun h => hrepository (g.binding h).1
      rw [if_neg hrepository]
      exact ⟨_, rfl, decides_skipped hlegacy (Or.inr hrepository)⟩

theorem notFailed_of_bindingOk {policy : PolicyCheck} (h : g.policyBindingOk policy = true) :
    policy.notFailed = true := by
  unfold PolicyCheck.notFailed
  unfold policyBindingOk at h
  split at h
  · rw [Bool.and_eq_true, beq_iff_eq, beq_iff_eq] at h
    rw [h.1, h.2]
    rfl
  · exact h

theorem compareSignals_result {content : ExecutableContent} {shown : Option Json}
    {signalsHash : JsString} {signals : Fields} :
    (∃ check, (compareSignals sha256 content shown signalsHash signals :
      GatewayProgram Key _).result ans = .ok check ∧ check.signalsStillCurrent ≠ some false) ↔
      Gateway.contentHash sha256 (.obj signals) = .ok signalsHash ∧
        ans (.findViolations (releaseRequest content shown) signals) = .ok [] := by
  unfold compareSignals
  rw [result_bind, result_done]
  cases hhash : Gateway.contentHash sha256 (.obj signals) with
  | error e => simp [Bind.bind, Except.bind]
  | ok actual =>
    rw [ok_bind]
    by_cases hsame : actual = signalsHash
    · rw [if_pos hsame, result_bind, result_perform]
      cases ans (.findViolations (releaseRequest content shown) signals) with
      | error e => simp [Bind.bind, Except.bind]
      | ok violations => cases violations <;> simp [Bind.bind, Except.bind, hsame]
    · rw [if_neg hsame]
      simp [hsame]

/-- **The signal check passes where it runs, exactly when the signals do.** -/
theorem checkSignals_result {content : ExecutableContent} {policy : PolicyCheck}
    (hok : g.policyBindingOk policy = true)
    (hshown : policy.verifiedPolicy = g.shownPolicy ans request.authorization.payload) :
    (∃ check, (g.checkSignals sha256 true content policy request).result ans = .ok check ∧
      check.signalsStillCurrent ≠ some false) ↔ g.SignalsPass sha256 ans request content := by
  have hskipped : ∃ check, (pure SignalsCheck.skipped : GatewayProgram Key _).result ans =
      .ok check ∧ check.signalsStillCurrent ≠ some false := ⟨_, rfl, fun h => nomatch h⟩
  have hran := notFailed_of_bindingOk hok
  unfold checkSignals SignalsPass
  cases hsigned : request.authorization.payload.signalsHash with
  | none => exact ⟨fun _ _ _ h => (nomatch h), fun _ => hskipped⟩
  | some signalsHash =>
    cases hsent : request.signals with
    | none => exact ⟨fun _ _ _ _ h => (nomatch h), fun _ => hskipped⟩
    | some signals =>
      dsimp only
      unfold PolicyCheck.notFailed at hran
      rw [Bool.true_and, hran, Bool.true_and, hshown]
      by_cases hverifier : g.signalStateVerifier = true
      · rw [if_pos hverifier, compareSignals_result]
        constructor
        · rintro h _ _ ⟨⟩ ⟨⟩ -
          exact h
        · intro h
          exact h signalsHash signals rfl rfl hverifier
      · rw [if_neg hverifier]
        exact ⟨fun _ _ _ _ _ h => absurd h hverifier, fun _ => hskipped⟩

/-- **Everything before the nonce passes exactly when each check does.** -/
theorem priorChecks_passes {content : ExecutableContent} :
    (∃ prior, (g.priorChecks dateParse sha256 request now).result ans = .ok prior ∧
      g.priorChecksPassed prior = true ∧ prior.executableContent = content) ↔
      g.Passes dateParse sha256 ans request now content := by
  unfold priorChecks
  rw [result_bind, result_done]
  constructor
  · rintro ⟨prior, hprior, hpassed, rfl⟩
    obtain ⟨content, hcontent, hprior⟩ := bind_eq_ok.mp hprior
    rw [result_bind] at hprior
    obtain ⟨envelope, henvelope, hprior⟩ := bind_eq_ok.mp hprior
    rw [result_bind] at hprior
    obtain ⟨⟨same, mismatch⟩, hcompare, hprior⟩ := bind_eq_ok.mp hprior
    dsimp only at hprior
    rw [result_bind] at hprior
    obtain ⟨policy, hpolicy, hprior⟩ := bind_eq_ok.mp hprior
    rw [result_bind] at hprior
    obtain ⟨signals, hsignals, hprior⟩ := bind_eq_ok.mp hprior
    cases hprior
    unfold priorChecksPassed at hpassed
    simp only [Bool.and_eq_true] at hpassed
    obtain ⟨⟨⟨hpassedEnvelope, rfl⟩, hbinding⟩, hcurrent⟩ := hpassed
    rw [hpassedEnvelope] at hcompare
    rw [hpassedEnvelope, Bool.true_and] at hpolicy hsignals
    obtain ⟨check, hcheck, hdecides⟩ := g.checkPolicy_result sha256 ans
      request.authorization.payload
    rw [hpolicy] at hcheck
    cases hcheck
    exact ⟨hcontent, verifyChecks_passes.mp ⟨envelope, henvelope, hpassedEnvelope⟩,
      compareContent_result.mp ⟨mismatch, hcompare⟩, hdecides.passes.mp hbinding,
      (checkSignals_result hbinding (hdecides.shown hbinding)).mp
        ⟨signals, hsignals, bne_iff_ne.mp hcurrent⟩⟩
  · rintro ⟨hcontent, henvelope, hhash, hpolicy, hsignals⟩
    obtain ⟨envelope, henvelope, hpassed⟩ := verifyChecks_passes.mpr henvelope
    obtain ⟨mismatch, hcompare⟩ := compareContent_result.mpr hhash
    obtain ⟨policy, hcheck, hdecides⟩ := g.checkPolicy_result sha256 ans
      request.authorization.payload
    have hbinding := hdecides.passes.mpr hpolicy
    obtain ⟨signals, hchecked, hcurrent⟩ :=
      (checkSignals_result hbinding (hdecides.shown hbinding)).mpr hsignals
    refine ⟨⟨content, envelope, true, mismatch, policy, signals⟩, ?_, ?_, rfl⟩
    · rw [hcontent]
      change (_ >>= _ : GatewayProgram Key PriorChecks).result ans = _
      rw [result_bind, henvelope]
      change (_ >>= _ : GatewayProgram Key PriorChecks).result ans = _
      rw [result_bind, hpassed, hcompare]
      change (_ >>= _ : GatewayProgram Key PriorChecks).result ans = _
      rw [result_bind, Bool.and_self, hcheck]
      change (_ >>= _ : GatewayProgram Key PriorChecks).result ans = _
      rw [result_bind, hchecked]
      rfl
    · unfold priorChecksPassed
      simp only [hpassed, hbinding, bne_iff_ne.mpr hcurrent, Bool.and_self]

end ExecutionGateway

end Parmana.Gateway

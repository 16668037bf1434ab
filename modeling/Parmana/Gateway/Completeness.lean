import Parmana.Crypto.AuthorizationSigner
import Parmana.Gateway.Passes
import Parmana.Gateway.TimeToLive
import Parmana.Runtime.Grant

/-! # What is authorized is accepted

The runtime builds an authorization and a request, the gateway checks them, and the two
share no code but the hashing of canonical content.  They agree: a request for an
authorization that a run was granted passes every check of the gateway until it
expires, as long as the policy, its approval and the state behind the signals are
still what the run saw (`ExecutionGateway.accepts_authorized`).

The one check that does not follow from these is that of the time to live.  The signer
cuts the expiry to whole milliseconds and the gateway compares seconds, both in
rounded arithmetic, so a time to live that is no greater than the maximum can become a
difference of dates that is (`fraction_refused`).  It cannot where a whole number of
milliseconds lies between them, as it does for every maximum in whole seconds.
-/
namespace Parmana
open Js Interaction Interaction.Program Gateway

/-- `ExecutionRequestBuilder.build`. -/
def ExecutionRequestBuilder.build (transaction : BusinessTransaction)
    (authorization : SignedExecutionAuthorization) : Except Failure ExecutionRequest := do
  let content ← Parmana.toExecutableContent transaction
  return {
    businessTransactionId := content.businessTransactionId
    action := content.action
    target := content.target
    parameters := content.parameters
    signals := transaction.signals
    authorization := authorization }

/-! ## A run and what has changed since -/

section Completeness
variable {Key : Type} (dateParse : JsString → Option Int) (sha256 : List UInt8 → JsString)
  (signBytes : JsString → List UInt8 → Except Failure JsString)
  (verifyBytes : List UInt8 → JsString → Key → Bool)

/-- `Date.parse` reads the dates of an authorization as they were written. -/
def ReadsDates (ttlSeconds : JsNumber) (issuedAt : Int) : Prop :=
  dateParse (toISOString issuedAt) = some issuedAt ∧
    ∀ expiry, AuthorizationSigner.expiresAt ttlSeconds issuedAt = some expiry →
      dateParse (toISOString expiry) = some expiry

/-- The hasher and the signer of a run answered as they do. -/
structure Faithful (t : List RuntimeEvent) : Prop where
  hash : ∀ content text, ⟨.hash content, .ok text⟩ ∈ t → contentHash sha256 content = .ok text
  sign : ∀ input ttlSeconds authorization,
    ⟨.signAuthorization input ttlSeconds, .ok authorization⟩ ∈ t →
    ∃ algorithm keyId issuedAt authorizationId nonce, issuedAt.natAbs ≤ maxTime ∧
      ReadsDates dateParse ttlSeconds issuedAt ∧
      AuthorizationSigner.signWithSigner sha256 signBytes algorithm input keyId ttlSeconds issuedAt
        authorizationId nonce = .ok authorization

/-- What the signal verifier is asked at release, for what it was asked before. -/
def atRelease (g : ExecutionGateway Key) (request : Approval.SignalStateVerificationRequest) :
    Approval.SignalStateVerificationRequest :=
  { request with
    stage := some .release
    policy := if g.policyRepository then request.policy else none }

/-- The gateway finds what the run found: the policies unchanged and approved, and the
state behind the signals as it was. -/
structure Unchanged (g : ExecutionGateway Key) (ans : Answers Key) (t : List RuntimeEvent) :
    Prop where
  policy : ∀ name version policy, ⟨.loadPolicy name version, .ok policy⟩ ∈ t →
    ans (.loadPolicy name version) = .ok policy
  approved : ∀ name version policy hash, ⟨.loadPolicy name version, .ok policy⟩ ∈ t →
    contentHash sha256 policy = .ok hash → ans (.verifyPolicyApproval name version hash) = .ok none
  signals : ∀ request signals violations,
    ⟨.findStateViolations request signals, .ok violations⟩ ∈ t →
    ans (.findViolations (atRelease g request) signals) = .ok violations

/-- A key verifies what is signed under an identifier. -/
def KeyPair (keyId : JsString) (key : Key) : Prop :=
  ∀ bytes signature, signBytes keyId bytes = .ok signature → verifyBytes bytes signature key = true

variable {dateParse sha256 signBytes verifyBytes} {g : ExecutionGateway Key} {ans : Answers Key}
  {config : RuntimeConfig} {transaction : BusinessTransaction} {context : RuntimeContext}
  {t : List RuntimeEvent} {grant : Grant}

/-! ## What the two sides build -/

theorem content_eq {content : ExecutableContent}
    (h : Parmana.toExecutableContent transaction = .ok content) :
    transaction.intent.target.trim.isEmpty = false ∧ content = {
      businessTransactionId := transaction.businessTransactionId
      action := transaction.intent.action
      target := transaction.intent.target
      parameters := transaction.intent.parameters } := by
  unfold Parmana.toExecutableContent at h
  split at h
  · cases h
  · rename_i hblank
    exact ⟨Bool.eq_false_iff.mpr hblank, (Except.ok.inj h).symm⟩

/-- The request of a grant: the gateway reads its content as the signer did. -/
theorem request_of_grant (h : grant.Made config transaction context t) :
    ∃ request, ExecutionRequestBuilder.build context.transaction grant.authorization =
        .ok request ∧
      Gateway.toExecutableContent request = .ok grant.content ∧
      request.signals = transaction.signals ∧ request.authorization = grant.authorization := by
  obtain ⟨hblank, hcontent⟩ := content_eq h.content
  have hrecorded : Parmana.toExecutableContent context.transaction = .ok grant.content := by
    rw [h.transaction, ← h.content]
    rfl
  refine ⟨{
    businessTransactionId := grant.content.businessTransactionId
    action := grant.content.action
    target := grant.content.target
    parameters := grant.content.parameters
    signals := context.transaction.signals
    authorization := grant.authorization }, ?_, ?_, ?_, rfl⟩
  · unfold ExecutionRequestBuilder.build
    rw [hrecorded]
    rfl
  · unfold Gateway.toExecutableContent
    rw [hcontent]
    dsimp only
    rw [hblank]
    rfl
  · rw [h.transaction]
    rfl

/-- The request the verifier is shown at release is the one of the authorization, at its
stage. -/
theorem releaseRequest_eq (h : Parmana.toExecutableContent transaction = .ok grant.content)
    (policy : Json) :
    ExecutionGateway.releaseRequest grant.content (if g.policyRepository then some policy else none) =
      atRelease g (RuntimeEngine.authorizeRequest transaction policy) := by
  rw [(content_eq h).2]
  rfl

/-- A grant names the content of the policy it was made under, and that is still the
approved one. -/
theorem policyPasses_of_grant (h : grant.Made config transaction context t)
    (hfaithful : Faithful dateParse sha256 signBytes t) (hunchanged : Unchanged sha256 g ans t)
    {issuedAt : Int} (hsigned : AuthorizationSigner.Signed sha256 signBytes
      (RuntimeEngine.authorizationInput transaction grant.decision grant.policyContentHash
        grant.signalsHash grant.content) config.authorizationTtlSeconds issuedAt
      grant.authorization) :
    g.PolicyPasses sha256 ans grant.authorization.payload := by
  have hhash := hfaithful.hash _ _ h.policyHash
  refine ⟨fun _ hnone => ?_, fun hash hnamed _ => ?_⟩
  · rw [hsigned.policyContentHash] at hnone
    cases hnone
  · rw [hsigned.policyContentHash] at hnamed
    cases hnamed
    rw [hsigned.policyName, hsigned.policyVersion]
    exact ⟨grant.policy, hunchanged.policy _ _ _ h.loaded, hhash,
      fun _ => hunchanged.approved _ _ _ _ h.loaded hhash⟩

/-- The signals of a grant have their signed hash, and the state behind them is what it
was. -/
theorem signalsPass_of_grant (h : grant.Made config transaction context t)
    (hcleared : Cleared config transaction t) (hfaithful : Faithful dateParse sha256 signBytes t)
    (hunchanged : Unchanged sha256 g ans t) {issuedAt : Int}
    (hsigned : AuthorizationSigner.Signed sha256 signBytes
      (RuntimeEngine.authorizationInput transaction grant.decision grant.policyContentHash
        grant.signalsHash grant.content) config.authorizationTtlSeconds issuedAt
      grant.authorization) {request : ExecutionRequest}
    (hsignals : request.signals = transaction.signals)
    (hauthorization : request.authorization = grant.authorization) :
    g.SignalsPass sha256 ans request grant.content := by
  intro signalsHash signals hnamed hsent _
  rw [hauthorization, hsigned.signalsHash] at hnamed
  cases hnamed
  have hpresented : transaction.presentedSignals = signals := by
    rw [BusinessTransaction.presentedSignals, ← hsignals, hsent, Option.getD_some]
  subst hpresented
  refine ⟨hfaithful.hash _ _ h.signalsHash, ?_⟩
  -- the policy that was loaded is the one the verifier was asked about
  obtain ⟨policy, hloaded, -, happroved⟩ := hcleared
  have hpolicy : grant.policy = policy := by
    have := hloaded.only _ h.loaded rfl
    cases this
    rfl
  have hshown : g.shownPolicy ans request.authorization.payload =
      if g.policyRepository then some policy else none := by
    unfold ExecutionGateway.shownPolicy
    rw [hauthorization, hsigned.policyContentHash, hsigned.policyName, hsigned.policyVersion,
      Option.isSome_some, Bool.true_and]
    have hlive : ans (.loadPolicy transaction.policy.name transaction.policy.version) =
        .ok policy := hpolicy ▸ hunchanged.policy _ _ _ h.loaded
    exact if_congr Iff.rfl (congrArg Except.toOption hlive) rfl
  rw [hshown, releaseRequest_eq h.content]
  exact hunchanged.signals _ _ _ happroved.state

/-- The envelope of a grant passes until it expires. -/
theorem envelopePasses_of_grant (hfits : FitsMilliseconds config.authorizationTtlSeconds
      g.envelopeVerifier.maxTtlSeconds)
    {issuedAt : Int} (hissued : issuedAt.natAbs ≤ maxTime)
    (hdates : ReadsDates dateParse config.authorizationTtlSeconds issuedAt)
    {input : AuthorizationInput}
    (hsigned : AuthorizationSigner.Signed sha256 signBytes input config.authorizationTtlSeconds
      issuedAt grant.authorization)
    (hverify : ∀ payload signature key, ans (.verifySignature payload signature key) =
      SignatureVerifier.verify verifyBytes payload signature key) {now : Int} {key : Key}
    (hkey : g.envelopeVerifier.KeyFor ans grant.authorization now key)
    (hpair : KeyPair signBytes verifyBytes grant.authorization.keyId key)
    (hnow : ∀ expiry, dateParse grant.authorization.payload.expiresAt = some expiry →
      now < expiry) :
    g.envelopeVerifier.Passes dateParse ans grant.authorization now := by
  obtain ⟨bytes, hbytes, hsignature⟩ := hsigned.signature
  obtain ⟨expiry, hexpiry, htext⟩ := hsigned.expiresAt
  have hparsed : dateParse grant.authorization.payload.expiresAt = some expiry := by
    rw [htext]
    exact hdates.2 expiry hexpiry
  refine ⟨⟨key, hkey, ?_⟩, ?_, ?_, ?_⟩
  · rw [hverify]
    unfold SignatureVerifier.verify
    rw [hbytes]
    exact congrArg Except.ok (hpair _ _ hsignature)
  · unfold versionSupported
    rw [hsigned.version]
    decide
  · unfold Approval.notExpired
    rw [hparsed]
    exact decide_eq_true (hnow expiry hparsed)
  · rw [hparsed, hsigned.authorizedAt, hdates.1]
    exact ttlWithinPolicy_of_fits hfits hissued hexpiry

/-- A request is valid exactly when everything before the nonce passes and the nonce is
fresh. -/
theorem ExecutionGateway.verify_valid_iff {request : ExecutionRequest} {now : Int}
    {content : ExecutableContent} :
    (∃ result, (g.verify dateParse sha256 request now).result ans = .ok (result, content) ∧
      result.valid = true) ↔
    g.Passes dateParse sha256 ans request now content ∧
      ans (.checkAndRecord request.authorization.payload.nonce
        request.authorization.payload.expiresAt) = .ok true := by
  have hconsume : ∀ r, (EnvelopeVerifier.consumeIf true request.authorization :
      GatewayProgram Key Bool).result ans = r ↔ ans (.checkAndRecord
        request.authorization.payload.nonce request.authorization.payload.expiresAt) = r := by
    intro r
    unfold EnvelopeVerifier.consumeIf EnvelopeVerifier.consumeNonce
    rw [if_pos rfl, result_perform]
  unfold ExecutionGateway.verify
  rw [← ExecutionGateway.priorChecks_passes, result_bind]
  constructor
  · rintro ⟨result, hresult, hvalid⟩
    obtain ⟨prior, hprior, hresult⟩ := bind_eq_ok.mp hresult
    rw [result_bind] at hresult
    obtain ⟨nonceUnseen, hnonce, hresult⟩ := bind_eq_ok.mp hresult
    cases hresult
    obtain ⟨hpassed, rfl⟩ := Bool.and_eq_true_iff.mp hvalid
    rw [hpassed] at hnonce
    exact ⟨⟨prior, hprior, hpassed, rfl⟩, (hconsume _).mp hnonce⟩
  · rintro ⟨⟨prior, hprior, hpassed, rfl⟩, hnonce⟩
    refine ⟨g.verificationResult prior true, ?_, ?_⟩
    · rw [hprior]
      change (_ >>= _ : GatewayProgram Key _).result ans = _
      rw [result_bind, hpassed, (hconsume _).mpr hnonce]
      rfl
    · show (g.priorChecksPassed prior && true) = true
      rw [hpassed]
      rfl

/-- **The gateway accepts what the runtime authorizes.**  A run that reaches the pipeline
holds an authorization, and the request that is built for it passes every check of the
gateway at every moment before the expiry, when the key is the signer's, the nonce is
fresh, a whole number of milliseconds lies between the time to live and the gateway's
maximum, and nothing has changed since the run. -/
theorem ExecutionGateway.accepts_authorized
    (g : ExecutionGateway Key) (ans : Answers Key) (config : RuntimeConfig)
    (transaction : BusinessTransaction) (context : RuntimeContext) (t : List RuntimeEvent)
    (k : Except Failure RuntimeContext → RuntimeProgram (RuntimeContext × ExecutionTrustRecord))
    (hrun : Steps (RuntimeEngine.execute config transaction) t (.call (.executePipeline context) k))
    (hfaithful : Faithful dateParse sha256 signBytes t)
    (hunchanged : Unchanged sha256 g ans t)
    (hverify : ∀ payload signature key, ans (.verifySignature payload signature key) =
      SignatureVerifier.verify verifyBytes payload signature key)
    (hfits : FitsMilliseconds config.authorizationTtlSeconds g.envelopeVerifier.maxTtlSeconds) :
    ∃ authorization, context.authorization = some authorization ∧
      ∃ request, ExecutionRequestBuilder.build context.transaction authorization = .ok request ∧
      ∀ now key, g.envelopeVerifier.KeyFor ans authorization now key →
        KeyPair signBytes verifyBytes authorization.keyId key →
        (∀ expiry, dateParse authorization.payload.expiresAt = some expiry → now < expiry) →
        ans (.checkAndRecord authorization.payload.nonce authorization.payload.expiresAt) =
          .ok true →
        ∃ result content, (g.verify dateParse sha256 request now).result ans =
          .ok (result, content) ∧ result.valid = true := by
  obtain ⟨grant, hgrant⟩ := grant_of_release hrun
  have hcleared := (pre_of_steps execute_traced hrun rfl).1
  obtain ⟨algorithm, keyId, issuedAt, authorizationId, nonce, hissued, hdates, hsign⟩ :=
    hfaithful.sign _ _ _ hgrant.signed
  have hsigned := AuthorizationSigner.signed_of_signWithSigner hsign
  obtain ⟨request, hbuild, hcontent, hsignals, hauthorization⟩ := request_of_grant hgrant
  refine ⟨grant.authorization, hgrant.authorization, request, hbuild, ?_⟩
  intro now key hkey hpair hnow hnonce
  have hpasses : g.Passes dateParse sha256 ans request now grant.content := by
    refine ⟨hcontent, ?_, ?_, ?_, signalsPass_of_grant hgrant hcleared hfaithful hunchanged hsigned
      hsignals hauthorization⟩
    · rw [hauthorization]
      exact envelopePasses_of_grant hfits hissued hdates hsigned hverify hkey hpair hnow
    · rw [hauthorization]
      exact hsigned.contentHash
    · rw [hauthorization]
      exact policyPasses_of_grant hgrant hfaithful hunchanged hsigned
  rw [← hauthorization] at hnonce
  obtain ⟨result, hresult, hvalid⟩ := ExecutionGateway.verify_valid_iff.mpr ⟨hpasses, hnonce⟩
  exact ⟨result, grant.content, hresult, hvalid⟩

end Completeness
/-! ## Five minutes, and a fraction of a second -/

namespace Sample

/-- The digests of what the sample request hashes: its policy, its content, its signals. -/
def digest (bytes : List UInt8) : JsString :=
  if bytes.length = 255 then "50916b0fc41c6ba01075d4055c17853214e0244e9c1afc0bb3eab2e3098ff12d"
  else if bytes.length = 85 then "aca11e7bf6c86011484a6e543e3d6d27bb789b849372d7d7e2fa2d2ffe62fde4"
  else "20ec2f38fc96bc7d416a9af537493ae0bae26c5ad4c5a0f2d94f56f9c3e04958"

/-- A signature that says which key signed which bytes. -/
def signed (keyId : JsString) (bytes : List UInt8) : Except Failure JsString :=
  .ok (("signed by " : JsString) ++ keyId ++ (": " : JsString) ++ ⟨bytes.map UInt8.toUInt16⟩)

def verified (bytes : List UInt8) (signature keyId : JsString) : Bool :=
  decide (signed keyId bytes = .ok signature)

/-- The first of January 2026. -/
def newYear : Int := 1767225600000

/-- The dates of the new year, a second and five minutes later. -/
def dates (text : JsString) : Option Int :=
  [newYear, newYear + 1000, newYear + 300000].find? fun time => decide (toISOString time = text)

/-- The sample runtime with a time to live. -/
def timed (ttlSeconds : JsNumber) : RuntimeConfig :=
  { config with authorizationTtlSeconds := ttlSeconds }

/-- Its collaborators, with a hasher and a signer that do what they are for. -/
def signing : (call : RuntimeCall) → Except Failure call.Answer
  | .hash content => contentHash digest content
  | .signAuthorization input ttlSeconds =>
    AuthorizationSigner.signWithSigner digest signed "ed25519" input "default" ttlSeconds newYear
      "authorization-1" "nonce-1"
  | other => answer other

/-- A gateway that binds policies, with a maximal time to live. -/
def gateway (maxTtlSeconds : JsNumber) : ExecutionGateway JsString where
  envelopeVerifier := {
    publicKey := "default", keyProvider := true, keyExpiryStore := true
    maxTtlSeconds := maxTtlSeconds }
  policyRepository := true
  policyApprovalVerifier := true
  requirePolicyBinding := true
  signalStateVerifier := true
  executionControl := none
  binding := fun _ => ⟨rfl, rfl⟩

/-- The gateway's collaborators, which find what the run found. -/
def gatewayAnswer : Answers JsString
  | .now => .ok newYear
  | .getKeyExpiry _ => .ok none
  | .getPublicKey keyId => .ok keyId
  | .verifySignature payload signature key => SignatureVerifier.verify verified payload signature key
  | .loadPolicy .. => .ok (Policy.singleRulePolicy Policy.approvedLeaf)
  | .verifyPolicyApproval .. => .ok none
  | .findViolations .. => .ok []
  | .checkAndRecord .. => .ok true
  | .release _ => .ok .null

/-- The events of the sample request, up to its release. -/
def signedEvents (ttlSeconds : JsNumber) : List RuntimeEvent :=
  (RuntimeEngine.execute (timed ttlSeconds) transaction).events
    (fun call (_ : Unit) => (signing call, ())) ()

theorem signedEvents_answered {ttlSeconds : JsNumber} {e : RuntimeEvent}
    (h : e ∈ signedEvents ttlSeconds) : e.2 = signing e.1 :=
  mem_events (fun call => signing call) h

/-- The request is released, and the signer was asked for nothing but its authorization. -/
def Reaches (ttlSeconds : JsNumber) : Prop :=
  (signedEvents ttlSeconds).any (fun e => e.1.isRelease) = true ∧
    ∀ e ∈ signedEvents ttlSeconds, ∀ input ttl, e.1 = .signAuthorization input ttl →
      ttl = ttlSeconds

/-- The time to live of a request to the signer. -/
def askedTtl : RuntimeCall → Option JsNumber
  | .signAuthorization _ ttlSeconds => some ttlSeconds
  | _ => none

theorem reaches_of_check {ttlSeconds : JsNumber}
    (h : ((signedEvents ttlSeconds).any (fun e => e.1.isRelease) &&
      (signedEvents ttlSeconds).all fun e => (askedTtl e.1).all (· == ttlSeconds)) = true) :
    Reaches ttlSeconds := by
  rw [Bool.and_eq_true, List.all_eq_true] at h
  refine ⟨h.1, fun e he input ttl hcall => ?_⟩
  have := h.2 e he
  rw [hcall] at this
  simpa [askedTtl] using this

section Reaches
variable {ttlSeconds : JsNumber}

theorem released (h : Reaches ttlSeconds) : ∃ t context k,
    Steps (RuntimeEngine.execute (timed ttlSeconds) transaction) t
      (.call (.executePipeline context) k) ∧ t ⊆ signedEvents ttlSeconds := by
  obtain ⟨call, k, hcall, hs⟩ := (Program.runs_events
    (fun call (_ : Unit) => (signing call, ())) (RuntimeEngine.execute (timed ttlSeconds)
      transaction) ()).split_first h.1
  cases call with
  | executePipeline context => exact ⟨_, context, k, hs, (List.takeWhile_prefix _).subset⟩
  | _ => cases hcall

theorem faithful (h : Reaches ttlSeconds) (hdates : ReadsDates dates ttlSeconds newYear)
    {t : List RuntimeEvent} (ht : t ⊆ signedEvents ttlSeconds) : Faithful dates digest signed t := by
  constructor
  · intro content text hmem
    exact (signedEvents_answered (ht hmem)).symm
  · intro input ttl authorization hmem
    obtain rfl := h.2 _ (ht hmem) input ttl rfl
    exact ⟨_, _, newYear, _, _, by decide, hdates, (signedEvents_answered (ht hmem)).symm⟩

theorem unchanged {maxTtlSeconds : JsNumber} {t : List RuntimeEvent}
    (ht : t ⊆ signedEvents ttlSeconds) :
    Unchanged digest (gateway maxTtlSeconds) gatewayAnswer t := by
  constructor
  · intro name version policy hmem
    exact (signedEvents_answered (ht hmem)).symm
  · intro name version policy hash _ _
    rfl
  · intro request signals violations hmem
    exact (signedEvents_answered (ht hmem)).symm

/-- The dates of the sample authorization. -/
theorem dates_of_release {t : List RuntimeEvent} {context : RuntimeContext}
    {k : Except Failure RuntimeContext → RuntimeProgram (RuntimeContext × ExecutionTrustRecord)}
    {authorization : SignedExecutionAuthorization}
    (hs : Steps (RuntimeEngine.execute (timed ttlSeconds) transaction) t
      (.call (.executePipeline context) k)) (ht : t ⊆ signedEvents ttlSeconds)
    (hauthorization : context.authorization = some authorization) :
    authorization.payload.authorizedAt = toISOString newYear ∧
      ∃ expiry, AuthorizationSigner.expiresAt ttlSeconds newYear = some expiry ∧
        authorization.payload.expiresAt = toISOString expiry := by
  obtain ⟨grant, hgrant⟩ := grant_of_release hs
  obtain rfl : grant.authorization = authorization :=
    Option.some.inj (hgrant.authorization.symm.trans hauthorization)
  have hanswer : AuthorizationSigner.signWithSigner digest signed "ed25519" _ "default" ttlSeconds
      newYear "authorization-1" "nonce-1" = .ok grant.authorization :=
    (signedEvents_answered (ht hgrant.signed)).symm
  have hsigned := AuthorizationSigner.signed_of_signWithSigner hanswer
  exact ⟨hsigned.authorizedAt, hsigned.expiresAt⟩

end Reaches

/-- A time to live of a little less than a second. -/
def fraction : JsNumber := .ofRatio false 9999999 10000000

theorem reaches_fiveMinutes : Reaches DEFAULT_MAX_TTL_SECONDS :=
  reaches_of_check (by decide +kernel)

theorem reaches_fraction : Reaches fraction := reaches_of_check (by decide +kernel)

theorem expiresAt_fiveMinutes :
    AuthorizationSigner.expiresAt DEFAULT_MAX_TTL_SECONDS newYear = some (newYear + 300000) := by
  decide

theorem expiresAt_fraction :
    AuthorizationSigner.expiresAt fraction newYear = some (newYear + 1000) := by
  decide

theorem dates_read : ∀ time ∈ [newYear, newYear + 1000, newYear + 300000],
    dates (toISOString time) = some time := by
  decide

theorem readsDates_of_expiresAt {ttlSeconds : JsNumber} {expiry : Int}
    (h : AuthorizationSigner.expiresAt ttlSeconds newYear = some expiry)
    (hlisted : expiry ∈ [newYear, newYear + 1000, newYear + 300000]) :
    ReadsDates dates ttlSeconds newYear := by
  refine ⟨dates_read _ List.mem_cons_self, fun other hother => ?_⟩
  rw [h] at hother
  cases hother
  exact dates_read _ hlisted

theorem keyFor (maxTtlSeconds : JsNumber) (authorization : SignedExecutionAuthorization)
    (now : Int) : (gateway maxTtlSeconds).envelopeVerifier.KeyFor gatewayAnswer authorization now
      authorization.keyId := by
  have hprovider : (gateway maxTtlSeconds).envelopeVerifier.keyProvider = true := rfl
  unfold EnvelopeVerifier.KeyFor
  rw [if_pos hprovider]
  exact ⟨fun _ => ⟨none, rfl, fun _ h => absurd h (Option.not_mem_none _)⟩, rfl⟩

theorem keyPair (keyId : JsString) : KeyPair signed verified keyId keyId := by
  intro bytes signature h
  exact decide_eq_true h

end Sample

/-- An authorization for five minutes is accepted in the minute it is made. -/
theorem five_minutes_accepted : ∃ t context k authorization request result content,
    Steps (RuntimeEngine.execute (Sample.timed DEFAULT_MAX_TTL_SECONDS) Sample.transaction) t
      (.call (.executePipeline context) k) ∧ context.authorization = some authorization ∧
    ExecutionRequestBuilder.build context.transaction authorization = .ok request ∧
    ((Sample.gateway DEFAULT_MAX_TTL_SECONDS).verify Sample.dates Sample.digest request
      (Sample.newYear + 60000)).result Sample.gatewayAnswer = .ok (result, content) ∧
    result.valid = true := by
  obtain ⟨t, context, k, hs, ht⟩ := Sample.released Sample.reaches_fiveMinutes
  have hdates : ReadsDates Sample.dates DEFAULT_MAX_TTL_SECONDS Sample.newYear :=
    Sample.readsDates_of_expiresAt Sample.expiresAt_fiveMinutes (by decide)
  have hfits : FitsMilliseconds DEFAULT_MAX_TTL_SECONDS DEFAULT_MAX_TTL_SECONDS :=
    fits_of_seconds (by norm_num) (by decide)
  obtain ⟨authorization, hauthorization, request, hbuild, haccepts⟩ :=
    ExecutionGateway.accepts_authorized (Sample.gateway DEFAULT_MAX_TTL_SECONDS)
      Sample.gatewayAnswer (Sample.timed DEFAULT_MAX_TTL_SECONDS) Sample.transaction context t k hs
      (Sample.faithful Sample.reaches_fiveMinutes hdates ht) (Sample.unchanged ht)
      (fun _ _ _ => rfl) hfits
  obtain ⟨-, expiry, hexpiry, htext⟩ := Sample.dates_of_release hs ht hauthorization
  obtain ⟨result, content, hresult, hvalid⟩ := haccepts (Sample.newYear + 60000)
    authorization.keyId (Sample.keyFor _ _ _) (Sample.keyPair _) (fun expiry' hparsed => by
      rw [htext, hdates.2 expiry hexpiry] at hparsed
      rw [Sample.expiresAt_fiveMinutes] at hexpiry
      cases hexpiry
      cases hparsed
      decide) rfl
  exact ⟨t, context, k, authorization, request, result, content, hs, hauthorization, hbuild,
    hresult, hvalid⟩

/-- A time to live equal to the maximum is refused when it is a fraction of a second
that the dates round up. -/
theorem fraction_refused : ∃ t context k authorization request,
    Steps (RuntimeEngine.execute (Sample.timed Sample.fraction) Sample.transaction) t
      (.call (.executePipeline context) k) ∧
    Faithful Sample.dates Sample.digest Sample.signed t ∧
    Unchanged Sample.digest (Sample.gateway Sample.fraction) Sample.gatewayAnswer t ∧
    context.authorization = some authorization ∧
    ExecutionRequestBuilder.build context.transaction authorization = .ok request ∧
    KeyPair Sample.signed Sample.verified authorization.keyId authorization.keyId ∧
    Sample.fraction.le (Sample.gateway Sample.fraction).envelopeVerifier.maxTtlSeconds = true ∧
    (∀ expiry, Sample.dates authorization.payload.expiresAt = some expiry →
      Sample.newYear < expiry) ∧
    ∀ result content, ((Sample.gateway Sample.fraction).verify Sample.dates Sample.digest request
      Sample.newYear).result Sample.gatewayAnswer = .ok (result, content) →
      result.valid = false := by
  obtain ⟨t, context, k, hs, ht⟩ := Sample.released Sample.reaches_fraction
  have hdates : ReadsDates Sample.dates Sample.fraction Sample.newYear :=
    Sample.readsDates_of_expiresAt Sample.expiresAt_fraction (by decide)
  obtain ⟨grant, hgrant⟩ := grant_of_release hs
  obtain ⟨request, hbuild, -, -, hauthorization⟩ := request_of_grant hgrant
  obtain ⟨hissued, expiry, hexpiry, htext⟩ :=
    Sample.dates_of_release hs ht hgrant.authorization
  obtain rfl : Sample.newYear + 1000 = expiry :=
    Option.some.inj (Sample.expiresAt_fraction.symm.trans hexpiry)
  have hparsed : Sample.dates grant.authorization.payload.expiresAt =
      some (Sample.newYear + 1000) := by
    rw [htext]
    exact hdates.2 _ hexpiry
  refine ⟨t, context, k, grant.authorization, request, hs,
    Sample.faithful Sample.reaches_fraction hdates ht, Sample.unchanged ht, hgrant.authorization,
    hbuild, Sample.keyPair _, by decide, ?_, ?_⟩
  · intro expiry hread
    cases hparsed.symm.trans hread
    decide
  · intro result content hresult
    refine Bool.eq_false_iff.mpr fun hvalid => ?_
    -- a second is more than the fraction
    have httl := (ExecutionGateway.verify_valid_iff.mp ⟨result, hresult, hvalid⟩).1.envelope.timeToLive
    rw [hauthorization, hparsed, hissued, hdates.1] at httl
    have hlong : ttlWithinPolicy Sample.fraction (some (Sample.newYear + 1000))
        (some Sample.newYear) = false := by
      decide
    exact absurd (hlong.symm.trans httl) Bool.false_ne_true

end Parmana

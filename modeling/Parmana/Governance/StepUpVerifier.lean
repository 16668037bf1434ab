import Parmana.Gateway.EnvelopeVerifier

/-! # Step-up authorizations

A checker who approves or rejects a change signs that decision with a key of his own.
`PolicyChangeStepUpVerifier` checks the envelope: its version, its signature under the
checker's key, its expiry, the change and the action it names, and its time to live.  As in
`EnvelopeVerifier` none of these checks changes anything, and the nonce is used up only
after all of them (`verify_valid`).
-/
namespace Parmana.Governance
open Js Interaction Interaction.Program Gateway

/-- `PolicyChangeStepUpAuthorizationPayload`. -/
structure PolicyChangeStepUpAuthorizationPayload where
  version : JsValue
  nonce : JsString
  pendingPolicyChangeId : JsString
  action : JsString
  authorizedAt : JsString
  expiresAt : JsString
  deriving DecidableEq

/-- `PolicyChangeStepUpAuthorization`. -/
structure PolicyChangeStepUpAuthorization where
  payload : PolicyChangeStepUpAuthorizationPayload
  signature : JsString
  keyId : JsString
  algorithm : JsString
  deriving DecidableEq

/-- The change and the action a request is for. -/
structure StepUpExpectation where
  pendingPolicyChangeId : JsString
  action : JsString
  deriving DecidableEq

/-! ## Calls -/

variable {Key : Type}

/-- A call of the verifier. -/
inductive StepUpCall (Key : Type) where
  /-- `SignatureVerifier.verify` -/
  | verifySignature (payload : PolicyChangeStepUpAuthorizationPayload) (signature : JsString)
    (publicKey : Key)
  /-- `nonceStore.checkAndRecord` -/
  | checkAndRecord (nonce expiresAt : JsString)
  deriving DecidableEq

/-- What a call answers. -/
abbrev StepUpCall.Answer : StepUpCall Key → Type := fun _ => Bool

abbrev StepUpProgram (Key : Type) := Program (StepUpCall Key) StepUpCall.Answer Failure

namespace StepUpProgram

/-- Makes a call. -/
abbrev ask (call : StepUpCall Key) : StepUpProgram Key Bool := perform call

end StepUpProgram

/-! ## The checks -/

/-- The checks of a `PolicyChangeStepUpPayloadVerificationResult`. -/
structure StepUpPayloadChecks where
  versionSupported : Bool
  signatureVerified : Bool
  notExpired : Bool
  pendingPolicyChangeIdMatches : Bool
  actionMatches : Bool
  deriving DecidableEq

/-- The checks of a `PolicyChangeStepUpVerificationResult` but that of the nonce. -/
structure StepUpChecks extends StepUpPayloadChecks where
  ttlWithinPolicy : Bool
  deriving DecidableEq

/-- Every check passes. -/
def StepUpChecks.passed (checks : StepUpChecks) : Bool :=
  checks.versionSupported && checks.signatureVerified && checks.notExpired &&
    checks.pendingPolicyChangeIdMatches && checks.actionMatches && checks.ttlWithinPolicy

/-- `PolicyChangeStepUpVerificationResult`. -/
structure PolicyChangeStepUpVerificationResult where
  valid : Bool
  checks : StepUpChecks
  nonceUnseen : Bool
  deriving DecidableEq

/-- `DEFAULT_MAX_TTL_SECONDS`, of step-up authorizations. -/
def DEFAULT_STEP_UP_MAX_TTL_SECONDS : JsNumber := .ofNat 120

/-- `PolicyChangeStepUpVerifier`. -/
structure PolicyChangeStepUpVerifier where
  maxTtlSeconds : JsNumber

/-- `constructor`. -/
def PolicyChangeStepUpVerifier.create (maxTtlSeconds : Option JsNumber) :
    PolicyChangeStepUpVerifier :=
  ⟨maxTtlSeconds.getD DEFAULT_STEP_UP_MAX_TTL_SECONDS⟩

section Checks
variable (dateParse : JsString → Option Int) (authorization : PolicyChangeStepUpAuthorization)
  (publicKey : Key) (expected : StepUpExpectation) (now : Int)

/-- `versionSupported`. -/
def PolicyChangeStepUpAuthorizationPayload.versionSupported
    (payload : PolicyChangeStepUpAuthorizationPayload) : Bool :=
  JsValue.strictEq payload.version SUPPORTED_PAYLOAD_VERSION

/-- `PolicyChangeStepUpAuthorizationVerifier.verify`: an unknown version is not looked
into. -/
def PolicyChangeStepUpAuthorizationVerifier.verify : StepUpProgram Key StepUpPayloadChecks :=
  if authorization.payload.versionSupported then do
    let signatureVerified ← StepUpProgram.ask
      (.verifySignature authorization.payload authorization.signature publicKey)
    return {
      versionSupported := true
      signatureVerified
      notExpired := Approval.notExpired dateParse now authorization.payload.expiresAt
      pendingPolicyChangeIdMatches :=
        authorization.payload.pendingPolicyChangeId = expected.pendingPolicyChangeId
      actionMatches := authorization.payload.action = expected.action }
  else return ⟨false, false, false, false, false⟩

namespace PolicyChangeStepUpVerifier
variable (v : PolicyChangeStepUpVerifier)

/-- `verifyChecks`. -/
def verifyChecks : StepUpProgram Key StepUpChecks := do
  let checks ← PolicyChangeStepUpAuthorizationVerifier.verify dateParse authorization publicKey
    expected now
  return {
    toStepUpPayloadChecks := checks
    ttlWithinPolicy := ttlWithinPolicy v.maxTtlSeconds
      (dateParse authorization.payload.expiresAt) (dateParse authorization.payload.authorizedAt) }

/-- `consumeNonce`. -/
def consumeNonce (authorization : PolicyChangeStepUpAuthorization) : StepUpProgram Key Bool :=
  StepUpProgram.ask (.checkAndRecord authorization.payload.nonce authorization.payload.expiresAt)

/-- The nonce is used up only when everything else has passed. -/
def consumeIf (passed : Bool) (authorization : PolicyChangeStepUpAuthorization) :
    StepUpProgram Key Bool :=
  if passed then consumeNonce authorization else return false

/-- `verify`. -/
def verify : StepUpProgram Key PolicyChangeStepUpVerificationResult := do
  let checks ← v.verifyChecks dateParse authorization publicKey expected now
  let nonceUnseen ← consumeIf checks.passed authorization
  return ⟨checks.passed && nonceUnseen, checks, nonceUnseen⟩

end PolicyChangeStepUpVerifier
end Checks

/-! ## What is accepted -/

section Accepts
variable {dateParse : JsString → Option Int} {authorization : PolicyChangeStepUpAuthorization}
  {publicKey : Key} {expected : StepUpExpectation} {now : Int} {v : PolicyChangeStepUpVerifier}
  {t : List (Event (StepUpCall Key) StepUpCall.Answer Failure)}

namespace PolicyChangeStepUpVerifier

/-- Everything that is checked before the nonce, but the signature. -/
structure Matches (v : PolicyChangeStepUpVerifier) (dateParse : JsString → Option Int)
    (authorization : PolicyChangeStepUpAuthorization) (expected : StepUpExpectation) (now : Int) :
    Prop where
  version : authorization.payload.versionSupported = true
  expiry : Approval.notExpired dateParse now authorization.payload.expiresAt = true
  change : authorization.payload.pendingPolicyChangeId = expected.pendingPolicyChangeId
  action : authorization.payload.action = expected.action
  timeToLive : ttlWithinPolicy v.maxTtlSeconds (dateParse authorization.payload.expiresAt)
    (dateParse authorization.payload.authorizedAt) = true

/-- The checks of the payload, where its version is known. -/
theorem payload_verified {checks : StepUpPayloadChecks}
    (hversion : authorization.payload.versionSupported = true) :
    Runs (PolicyChangeStepUpAuthorizationVerifier.verify dateParse authorization publicKey
        expected now) t (.ok checks) ↔
      t = [⟨.verifySignature authorization.payload authorization.signature publicKey,
        .ok checks.signatureVerified⟩] ∧
      checks = {
        versionSupported := true
        signatureVerified := checks.signatureVerified
        notExpired := Approval.notExpired dateParse now authorization.payload.expiresAt
        pendingPolicyChangeIdMatches :=
          authorization.payload.pendingPolicyChangeId = expected.pendingPolicyChangeId
        actionMatches := authorization.payload.action = expected.action } := by
  unfold PolicyChangeStepUpAuthorizationVerifier.verify
  rw [if_pos hversion, runs_bind_ok]
  constructor
  · rintro ⟨signed, t₁, t₂, rfl, hsigned, hreturn⟩
    obtain ⟨rfl, hchecks⟩ := runs_done.mp hreturn
    cases hchecks
    rw [List.append_nil]
    exact ⟨runs_perform.mp hsigned, rfl⟩
  · rintro ⟨rfl, hchecks⟩
    refine ⟨checks.signatureVerified, _, [], (List.append_nil _).symm, runs_perform.mpr rfl, ?_⟩
    exact runs_done.mpr ⟨rfl, congrArg Except.ok hchecks⟩

theorem payload_unsupported {checks : StepUpPayloadChecks}
    (hversion : ¬ authorization.payload.versionSupported = true)
    (h : Runs (PolicyChangeStepUpAuthorizationVerifier.verify dateParse authorization publicKey
      expected now) t (.ok checks)) : checks.versionSupported = false := by
  unfold PolicyChangeStepUpAuthorizationVerifier.verify at h
  rw [if_neg hversion] at h
  obtain ⟨-, hchecks⟩ := runs_done.mp h
  cases hchecks
  rfl

/-- **What the verifier has done when it accepts**: the signature was verified, everything
matches, and the nonce was not seen before. -/
theorem verify_valid : (∃ r, Runs (v.verify dateParse authorization publicKey expected now) t
      (.ok r) ∧ r.valid = true) ↔
    v.Matches dateParse authorization expected now ∧
      t = [⟨.verifySignature authorization.payload authorization.signature publicKey, .ok true⟩,
        ⟨.checkAndRecord authorization.payload.nonce authorization.payload.expiresAt,
          .ok true⟩] := by
  constructor
  · rintro ⟨r, hr, hvalid⟩
    obtain ⟨checks, t₁, t₂, rfl, hchecks, hr⟩ := runs_bind_ok.mp hr
    obtain ⟨payload, t₃, t₄, rfl, hpayload, hreturn⟩ := runs_bind_ok.mp hchecks
    obtain ⟨rfl, hsame⟩ := runs_done.mp hreturn
    cases hsame
    obtain ⟨unseen, t₅, t₆, rfl, hnonce, hreturn⟩ := runs_bind_ok.mp hr
    obtain ⟨rfl, hsame⟩ := runs_done.mp hreturn
    cases hsame
    obtain ⟨hpassed, rfl⟩ := Bool.and_eq_true_iff.mp hvalid
    unfold consumeIf at hnonce
    rw [if_pos hpassed] at hnonce
    obtain rfl := runs_perform.mp hnonce
    simp only [StepUpChecks.passed, Bool.and_eq_true] at hpassed
    obtain ⟨⟨⟨⟨⟨hversion, hsigned⟩, hexpiry⟩, hchange⟩, haction⟩, httl⟩ := hpassed
    by_cases hsupported : authorization.payload.versionSupported = true
    · obtain ⟨rfl, hsame⟩ := (payload_verified hsupported).mp hpayload
      rw [hsigned] at hsame ⊢
      rw [hsame] at hexpiry hchange haction
      exact ⟨⟨hsupported, hexpiry, of_decide_eq_true hchange, of_decide_eq_true haction, httl⟩, rfl⟩
    · rw [payload_unsupported hsupported hpayload] at hversion
      exact absurd hversion Bool.false_ne_true
  · rintro ⟨hmatches, rfl⟩
    let checks : StepUpChecks := ⟨⟨true, true, true, true, true⟩, true⟩
    refine ⟨⟨true, checks, true⟩, runs_bind_ok.mpr ⟨checks, [_], [_], rfl, ?_, ?_⟩, rfl⟩
    · refine runs_bind_ok.mpr ⟨⟨true, true, true, true, true⟩, [_], [], rfl, ?_, ?_⟩
      · refine (payload_verified hmatches.version).mpr ⟨rfl, ?_⟩
        rw [hmatches.expiry, decide_eq_true hmatches.change, decide_eq_true hmatches.action]
      · rw [hmatches.timeToLive]
        exact .refl _
    · exact runs_bind_ok.mpr ⟨true, [_], [], rfl, runs_perform.mpr rfl, .refl _⟩

end PolicyChangeStepUpVerifier
end Accepts
end Parmana.Governance

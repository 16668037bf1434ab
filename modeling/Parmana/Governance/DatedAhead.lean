import Parmana.Gateway.SingleRelease
import Parmana.Gateway.TimeToLive
import Parmana.Governance.StepUpVerifier

/-! # Authorizations dated ahead

Both verifiers reject an authorization that has expired and one whose dates lie too far
apart, and neither compares `authorizedAt` with the clock.  So what a signer dates no later
than the clock is usable for no longer than the maximum, and what he dates ahead of it may
be usable now and for any longer time: `usable_within_iff` says for which dates that is so.
-/
namespace Parmana
open Js Interaction Interaction.Program Gateway Governance

/-! ## What a signer can have accepted -/

section Accepted
variable {Key : Type} (dateParse : JsString → Option Int) (now : Int)
  (authorizedAt expiresAt : JsString)

/-- Some authorization with these dates is accepted. -/
def Gateway.EnvelopeVerifier.Accepts (v : EnvelopeVerifier Key) : Prop :=
  ∃ (authorization : SignedExecutionAuthorization) (t : List (GatewayEvent Key))
    (r : EnvelopeVerificationResult), authorization.payload.authorizedAt = authorizedAt ∧
      authorization.payload.expiresAt = expiresAt ∧
      Runs (v.verify dateParse authorization now) t (.ok r) ∧ r.valid = true

/-- Some step-up authorization with these dates is accepted. -/
def Governance.PolicyChangeStepUpVerifier.Accepts (v : PolicyChangeStepUpVerifier)
    (publicKey : Key) (expected : StepUpExpectation) : Prop :=
  ∃ (authorization : PolicyChangeStepUpAuthorization)
    (t : List (Event (StepUpCall Key) StepUpCall.Answer Failure))
    (r : PolicyChangeStepUpVerificationResult),
      authorization.payload.authorizedAt = authorizedAt ∧
      authorization.payload.expiresAt = expiresAt ∧
      Runs (v.verify dateParse authorization publicKey expected now) t (.ok r) ∧ r.valid = true

/-- The dates pass: the expiry is ahead, and no further from `authorizedAt` than allowed. -/
def DatesPass (maxTtlSeconds : JsNumber) : Prop :=
  Approval.notExpired dateParse now expiresAt = true ∧
    ttlWithinPolicy maxTtlSeconds (dateParse expiresAt) (dateParse authorizedAt) = true

/-- Whatever is accepted expires within the maximum from now. -/
def UsableWithin (maxTtlSeconds : JsNumber) (accepts : JsString → Prop) : Prop :=
  ∀ expiresAt, accepts expiresAt →
    (ttlSeconds (dateParse expiresAt) (some now)).le maxTtlSeconds = true

variable {dateParse now authorizedAt expiresAt}

/-- A collaborator that finds no fault: it has the key, every signature verifies and every
nonce is new. -/
def faultless (key : Key) : (call : GatewayCall Key) → Except Failure call.Answer
  | .getKeyExpiry _ => .ok none
  | .getPublicKey _ => .ok key
  | .verifySignature .. => .ok true
  | .checkAndRecord .. => .ok true
  | _ => .error default

/-- **Of the dates, an envelope verifier looks at no more than that.** -/
theorem Gateway.EnvelopeVerifier.accepts_iff {v : EnvelopeVerifier Key} :
    v.Accepts dateParse now authorizedAt expiresAt ↔
      DatesPass dateParse now authorizedAt expiresAt v.maxTtlSeconds := by
  constructor
  · rintro ⟨authorization, t, r, rfl, rfl, hr, hvalid⟩
    obtain ⟨⟨passed, checks⟩, t₁, t₂, rfl, hchecks, hr⟩ := runs_bind_ok.mp hr
    obtain ⟨unseen, t₃, t₄, rfl, -, hreturn⟩ := runs_bind_ok.mp hr
    obtain ⟨rfl, hsame⟩ := runs_done.mp hreturn
    cases hsame
    obtain ⟨rfl, -⟩ := Bool.and_eq_true_iff.mp hvalid
    obtain ⟨ans, hanswered, -⟩ := verifyChecks_ascends.answered hchecks
    have hpasses := verifyChecks_passes.mp ⟨_, (hchecks.of_answered hanswered).2.symm, rfl⟩
    exact ⟨hpasses.expiry, hpasses.timeToLive⟩
  · rintro ⟨hexpiry, httl⟩
    let authorization : SignedExecutionAuthorization := {
      payload := {
        version := SUPPORTED_PAYLOAD_VERSION, authorizationId := "", nonce := "",
        decisionId := "", businessTransactionId := "", policyName := "", policyVersion := ""
        authorizedAt, expiresAt, businessTransactionHash := "", policyContentHash := none
        signalsHash := none, submittedBy := none, grantedCapability := none }
      signature := "", keyId := "", algorithm := "" }
    have hkey : v.KeyFor (faultless v.publicKey) authorization now v.publicKey := by
      unfold EnvelopeVerifier.KeyFor
      split
      · exact ⟨fun _ => ⟨none, rfl, nofun⟩, rfl⟩
      · rfl
    obtain ⟨⟨passed, checks⟩, hchecks, rfl⟩ := verifyChecks_passes.mpr
      (⟨⟨v.publicKey, hkey, rfl⟩, rfl, hexpiry, httl⟩ :
        v.Passes dateParse (faultless v.publicKey) authorization now)
    have hrun := runs_answered (faultless v.publicKey)
      (v.verifyChecks dateParse authorization now)
    rw [hchecks] at hrun
    have hnonce : Runs (EnvelopeVerifier.consumeIf true authorization : GatewayProgram Key Bool)
        [⟨.checkAndRecord "" expiresAt, .ok true⟩] (.ok true) := runs_perform.mpr rfl
    have haccepted : Runs (v.verify dateParse authorization now) _ (.ok ⟨true, checks, true⟩) :=
      runs_bind_ok.mpr ⟨_, _, _, rfl, hrun, runs_bind_ok.mpr ⟨_, _, [], rfl, hnonce, .refl _⟩⟩
    exact ⟨authorization, _, _, rfl, rfl, haccepted, rfl⟩

/-- **Nor does a step-up verifier.** -/
theorem Governance.PolicyChangeStepUpVerifier.accepts_iff {v : PolicyChangeStepUpVerifier}
    {publicKey : Key} {expected : StepUpExpectation} :
    v.Accepts dateParse now authorizedAt expiresAt publicKey expected ↔
      DatesPass dateParse now authorizedAt expiresAt v.maxTtlSeconds := by
  constructor
  · rintro ⟨authorization, t, r, rfl, rfl, hr, hvalid⟩
    obtain ⟨hmatches, -⟩ := PolicyChangeStepUpVerifier.verify_valid.mp ⟨r, hr, hvalid⟩
    exact ⟨hmatches.expiry, hmatches.timeToLive⟩
  · rintro ⟨hexpiry, httl⟩
    let authorization : PolicyChangeStepUpAuthorization := {
      payload := {
        version := SUPPORTED_PAYLOAD_VERSION, nonce := ""
        pendingPolicyChangeId := expected.pendingPolicyChangeId, action := expected.action
        authorizedAt, expiresAt }
      signature := "", keyId := "", algorithm := "" }
    have hmatches : v.Matches dateParse authorization expected now :=
      ⟨rfl, hexpiry, rfl, rfl, httl⟩
    have haccepted : ∃ r, Runs (v.verify dateParse authorization publicKey expected now) _
        (.ok r) ∧ r.valid = true :=
      PolicyChangeStepUpVerifier.verify_valid.mpr ⟨hmatches, rfl⟩
    obtain ⟨r, hr, hvalid⟩ := haccepted
    exact ⟨authorization, _, r, rfl, rfl, hr, hvalid⟩

/-! ## How long it is usable -/

/-- Nothing dated then is accepted for longer than the maximum: all of it has expired, or the
last date there is comes before. -/
def Idle (longest now authorizedAt : Int) : Prop :=
  authorizedAt + longest ≤ now ∨ maxTime ≤ now + max longest 0

/-- Without a date there is no time to live. -/
theorem ttlWithinPolicy_undated (maxTtlSeconds : JsNumber) (expiresAt : Option Int) :
    ttlWithinPolicy maxTtlSeconds expiresAt none = false := by
  have hseconds : ttlSeconds expiresAt none = .nan := by
    unfold ttlSeconds
    cases dateNumber expiresAt with
    | _ => rfl
  unfold ttlWithinPolicy
  rw [hseconds]
  rfl

/-- The dates of an accepted authorization bound its use exactly where it is not dated ahead. -/
theorem usableWithin_iff (hbound : ∀ text t, dateParse text = some t → t.natAbs ≤ maxTime)
    (hwritten : ∀ t : Int, t.natAbs ≤ maxTime → ∃ text, dateParse text = some t)
    (hnow : now.natAbs ≤ maxTime) {maxTtlSeconds : JsNumber} {longest : Int}
    (hlongest : Longest maxTtlSeconds longest) :
    UsableWithin dateParse now maxTtlSeconds
        (DatesPass dateParse now authorizedAt · maxTtlSeconds) ↔
      ∀ a, dateParse authorizedAt = some a → a ≤ now ∨ Idle longest now a := by
  constructor
  · intro h a ha
    by_contra hahead
    have hahead : ¬ (a ≤ now) ∧ ¬ (a + longest ≤ now) ∧ ¬ (maxTime ≤ now + max longest 0) :=
      ⟨fun hle => hahead (.inl hle), fun hle => hahead (.inr (.inl hle)),
        fun hle => hahead (.inr (.inr hle))⟩
    have ha' := hbound _ _ ha
    -- the latest expiry that the signer may name
    let e : Int := min (a + longest) maxTime
    have he : e.natAbs ≤ maxTime := by omega
    obtain ⟨expiresAt, hexpiresAt⟩ := hwritten e he
    have httl : ttlWithinPolicy maxTtlSeconds (some e) (some a) = true :=
      (hlongest e a he ha').mpr (by omega)
    have hexpiry : Approval.notExpired dateParse now expiresAt = true := by
      unfold Approval.notExpired
      rw [hexpiresAt]
      exact decide_eq_true (by omega)
    have hlong := h expiresAt ⟨hexpiry, by rw [hexpiresAt, ha]; exact httl⟩
    rw [hexpiresAt, ← ttlWithinPolicy_iff he hnow, hlongest e now he hnow] at hlong
    omega
  · rintro h expiresAt ⟨hexpiry, httl⟩
    obtain ⟨e, he, hexpiry⟩ := Option.any_eq_true _ _ |>.mp hexpiry
    have hexpiry := of_decide_eq_true hexpiry
    have he' := hbound _ _ he
    rw [he] at httl ⊢
    cases ha : dateParse authorizedAt with
    | none =>
      rw [ha, ttlWithinPolicy_undated] at httl
      cases httl
    | some a =>
      rw [ha] at httl
      have hea := (hlongest e a he' (hbound _ _ ha)).mp httl
      rw [← ttlWithinPolicy_iff he' hnow, hlongest e now he' hnow]
      rcases h a ha with hle | hexpired | hlast
      · omega
      · omega
      · omega

/-- **For how long what is accepted stays usable**, of either verifier: no longer than its
maximum from now exactly where `authorizedAt` is no date, or one that is not ahead of the
clock, or one with which nothing is accepted for longer. -/
theorem usable_within_iff (hbound : ∀ text t, dateParse text = some t → t.natAbs ≤ maxTime)
    (hwritten : ∀ t : Int, t.natAbs ≤ maxTime → ∃ text, dateParse text = some t)
    (hnow : now.natAbs ≤ maxTime) (v : EnvelopeVerifier Key) (stepUp : PolicyChangeStepUpVerifier)
    (publicKey : Key) (expected : StepUpExpectation) (authorizedAt : JsString) :
    ∃ longest stepUpLongest,
      Longest v.maxTtlSeconds longest ∧ Longest stepUp.maxTtlSeconds stepUpLongest ∧
      (UsableWithin dateParse now v.maxTtlSeconds (v.Accepts dateParse now authorizedAt) ↔
        ∀ a, dateParse authorizedAt = some a → a ≤ now ∨ Idle longest now a) ∧
      (UsableWithin dateParse now stepUp.maxTtlSeconds
          (stepUp.Accepts dateParse now authorizedAt · publicKey expected) ↔
        ∀ a, dateParse authorizedAt = some a → a ≤ now ∨ Idle stepUpLongest now a) := by
  obtain ⟨longest, hlongest⟩ := exists_longest v.maxTtlSeconds
  obtain ⟨stepUpLongest, hstepUp⟩ := exists_longest stepUp.maxTtlSeconds
  refine ⟨longest, stepUpLongest, hlongest, hstepUp, ?_, ?_⟩
  · rw [← usableWithin_iff hbound hwritten hnow hlongest]
    exact forall_congr' fun _ => imp_congr_left EnvelopeVerifier.accepts_iff
  · rw [← usableWithin_iff hbound hwritten hnow hstepUp]
    exact forall_congr' fun _ => imp_congr_left PolicyChangeStepUpVerifier.accepts_iff

end Accepted

/-! ## An hour ahead -/

namespace Ahead

/-- A time for each number of units: the even ones are the times from the epoch on. -/
def timeOf (n : Nat) : Int := if n % 2 = 0 then (n / 2 : Nat) else -((n + 1) / 2 : Nat)

/-- `Date.parse`: on the texts of the sample what they say, and elsewhere a time for each
length. -/
def dates (text : JsString) : Option Int :=
  if text = "1970-01-01T01:00:00.000Z" then some 3600000
  else if text = "1970-01-01T01:02:00.000Z" then some 3720000
  else if text = "1970-01-01T01:05:00.000Z" then some 3900000
  else if (timeOf text.units.length).natAbs ≤ maxTime then some (timeOf text.units.length)
  else none

theorem dates_bound (text : JsString) (t : Int) (h : dates text = some t) :
    t.natAbs ≤ maxTime := by
  have hmax : maxTime = 8640000000000000 := rfl
  unfold dates at h
  split at h
  · cases h
    omega
  · split at h
    · cases h
      omega
    · split at h
      · cases h
        omega
      · split at h
        · cases h
          assumption
        · cases h

theorem timeOf_surjective (t : Int) : ∃ n, timeOf n = t := by
  by_cases ht : 0 ≤ t
  · refine ⟨2 * t.natAbs, ?_⟩
    unfold timeOf
    rw [if_pos (by omega)]
    omega
  · refine ⟨2 * t.natAbs - 1, ?_⟩
    unfold timeOf
    rw [if_neg (by omega)]
    omega

theorem dates_written (t : Int) (ht : t.natAbs ≤ maxTime) : ∃ text, dates text = some t := by
  obtain ⟨n, rfl⟩ := timeOf_surjective t
  -- a text that begins with no digit is none of the sample's
  have hlength : (JsString.mk (List.replicate n 97)).units.length = n := List.length_replicate
  have hother : ∀ text : JsString, text.units.head? = some 49 →
      (JsString.mk (List.replicate n 97)) ≠ text := by
    rintro text htext rfl
    cases n with
    | zero => cases htext
    | succ n => cases htext
  refine ⟨⟨List.replicate n 97⟩, ?_⟩
  unfold dates
  rw [if_neg (hother _ (by decide)), if_neg (hother _ (by decide)), if_neg (hother _ (by decide)),
    hlength, if_pos ht]

/-- The default verifiers. -/
def verifier : EnvelopeVerifier Unit := ⟨(), false, false, DEFAULT_MAX_TTL_SECONDS⟩

def stepUp : PolicyChangeStepUpVerifier := .create none

/-- The change and the action that are to be authorized. -/
def expected : StepUpExpectation := ⟨"change", "approve"⟩

end Ahead

/-- An hour before the date, an execution authorization of five minutes is accepted that stays
usable for an hour and five minutes, and a step-up authorization of two minutes one that stays
usable for an hour and two. -/
theorem dated_ahead_accepted :
    (Ahead.verifier.Accepts Ahead.dates 0 "1970-01-01T01:00:00.000Z" "1970-01-01T01:05:00.000Z" ∧
      (ttlSeconds (Ahead.dates "1970-01-01T01:05:00.000Z") (some 0)).le
        Ahead.verifier.maxTtlSeconds = false) ∧
    (Ahead.stepUp.Accepts Ahead.dates 0 "1970-01-01T01:00:00.000Z" "1970-01-01T01:02:00.000Z" ()
        Ahead.expected ∧
      (ttlSeconds (Ahead.dates "1970-01-01T01:02:00.000Z") (some 0)).le
        Ahead.stepUp.maxTtlSeconds = false) := by
  have hlong : DatesPass Ahead.dates 0 "1970-01-01T01:00:00.000Z" "1970-01-01T01:05:00.000Z"
      Ahead.verifier.maxTtlSeconds := ⟨by decide, by decide⟩
  have hstepUp : DatesPass Ahead.dates 0 "1970-01-01T01:00:00.000Z" "1970-01-01T01:02:00.000Z"
      Ahead.stepUp.maxTtlSeconds := ⟨by decide, by decide⟩
  exact ⟨⟨EnvelopeVerifier.accepts_iff.mpr hlong, by decide⟩,
    PolicyChangeStepUpVerifier.accepts_iff.mpr hstepUp, by decide⟩

/-- At that date itself they are usable for no longer than their maximum. -/
theorem dated_now_usable_within :
    UsableWithin Ahead.dates 3600000 Ahead.verifier.maxTtlSeconds
      (Ahead.verifier.Accepts Ahead.dates 3600000 "1970-01-01T01:00:00.000Z") ∧
    UsableWithin Ahead.dates 3600000 Ahead.stepUp.maxTtlSeconds
      (Ahead.stepUp.Accepts Ahead.dates 3600000 "1970-01-01T01:00:00.000Z" · ()
        Ahead.expected) := by
  have hnow : (3600000 : Int).natAbs ≤ maxTime := by decide
  have hdated : ∀ a, Ahead.dates "1970-01-01T01:00:00.000Z" = some a → a ≤ 3600000 := by
    intro a ha
    cases ha
    exact le_rfl
  obtain ⟨longest, stepUpLongest, -, -, henvelope, hstepUp⟩ :=
    usable_within_iff Ahead.dates_bound Ahead.dates_written hnow Ahead.verifier Ahead.stepUp ()
      Ahead.expected "1970-01-01T01:00:00.000Z"
  exact ⟨henvelope.mpr fun a ha => .inl (hdated a ha),
    hstepUp.mpr fun a ha => .inl (hdated a ha)⟩

end Parmana

import Parmana.Gateway.Passes
import Parmana.Interaction.History

/-! # The nonce is used last, and the release comes after it

The gateway makes its calls in one order and each of them once, so that every run
of it is answered by a function and what passes for that function
(`ExecutionGateway.Passes`) passes in the run.  The nonce is used up exactly when
the request passes, whatever the collaborators answer or throw.  Only then, and only
if it had not been used before, is the content released, and it is the content whose
hash was signed.
-/
namespace Parmana.Gateway
open Js Interaction Interaction.Program

variable {Key : Type}

/-! ## The order of the calls -/

/-- Where a call stands in the order the gateway makes its calls in. -/
def GatewayCall.rank : GatewayCall Key → Nat
  | .now => 0
  | .getKeyExpiry _ => 1
  | .getPublicKey _ => 2
  | .verifySignature .. => 3
  | .loadPolicy .. => 4
  | .verifyPolicyApproval .. => 5
  | .findViolations .. => 6
  | .checkAndRecord .. => 7
  | .release _ => 8

/-- The call that changes the nonce store. -/
def GatewayCall.usesNonce : GatewayCall Key → Bool
  | .checkAndRecord .. => true
  | _ => false

instance : Inhabited Failure := ⟨.error ""⟩

section Order
variable {v : EnvelopeVerifier Key} {g : ExecutionGateway Key} {dateParse : JsString → Option Int}
  {sha256 : List UInt8 → JsString} {authorization : SignedExecutionAuthorization}
  {payload : ExecutionAuthorizationPayload} {request : ExecutionRequest}
  {content : ExecutableContent} {now : Int}

theorem resolveKey_ascends : Ascends GatewayCall.rank 1 3 (v.resolveKey authorization now) := by
  have hexpired : Ascends GatewayCall.rank 1 2 (v.keyExpired authorization now) := by
    unfold EnvelopeVerifier.keyExpired
    split
    · exact Ascends.bind (Ascends.perform le_rfl (Nat.lt_succ_self _)) le_rfl fun _ => Ascends.done le_rfl
    · exact Ascends.done (by decide)
  unfold EnvelopeVerifier.resolveKey
  split
  · refine Ascends.bind hexpired (by decide) fun expired => ?_
    split
    · exact Ascends.done (by decide)
    · refine Ascends.tryCatch ?_ le_rfl fun _ => Ascends.done le_rfl
      exact Ascends.bind (Ascends.perform le_rfl (Nat.lt_succ_self _)) le_rfl fun _ => Ascends.done le_rfl
  · exact Ascends.done (by decide)

theorem verifyChecks_ascends :
    Ascends GatewayCall.rank 1 4 (v.verifyChecks dateParse authorization now) := by
  have hauthorization : ∀ resolved : Option Key, Ascends GatewayCall.rank 3 4
      (EnvelopeVerifier.authorizationChecks dateParse authorization now resolved) := by
    intro resolved
    unfold EnvelopeVerifier.authorizationChecks AuthorizationVerifier.verify
    split
    · split
      · exact Ascends.bind (Ascends.perform le_rfl (Nat.lt_succ_self _)) le_rfl fun _ => Ascends.done le_rfl
      · exact Ascends.done (by decide)
    · exact Ascends.done (by decide)
  unfold EnvelopeVerifier.verifyChecks
  refine Ascends.bind resolveKey_ascends (by decide) fun resolved => ?_
  exact Ascends.bind (hauthorization resolved) le_rfl fun _ => Ascends.done le_rfl

theorem compareContent_ascends {passed : Bool} : Ascends GatewayCall.rank 4 4
    (ExecutionGateway.compareContent sha256 passed content payload : GatewayProgram Key _) := by
  unfold ExecutionGateway.compareContent
  split
  · refine Ascends.bind (Ascends.done le_rfl) le_rfl fun hash => ?_
    split
    · exact Ascends.done le_rfl
    · exact Ascends.done le_rfl
  · exact Ascends.done le_rfl

theorem checkPolicy_ascends {passed : Bool} :
    Ascends GatewayCall.rank 4 6 (g.checkPolicy sha256 passed payload) := by
  have hcompare : ∀ hash, Ascends GatewayCall.rank 4 6 (g.comparePolicy sha256 payload hash) := by
    intro hash
    unfold ExecutionGateway.comparePolicy
    have hload : Ascends GatewayCall.rank 4 5
        (ask (.loadPolicy payload.policyName payload.policyVersion) : GatewayProgram Key _) :=
      Ascends.perform le_rfl (Nat.lt_succ_self _)
    refine Ascends.bind hload (by decide) fun policy => ?_
    refine Ascends.bind (Ascends.done le_rfl) (by decide) fun actual => ?_
    split
    · split
      · unfold ExecutionGateway.verifyApproval
        refine Ascends.bind ?_ le_rfl fun _ => Ascends.done le_rfl
        exact Ascends.tryCatch (Ascends.perform le_rfl (Nat.lt_succ_self _)) le_rfl fun _ =>
          Ascends.bind (Ascends.done le_rfl) le_rfl fun _ => Ascends.done le_rfl
      · exact Ascends.done (by decide)
    · exact Ascends.done (by decide)
  unfold ExecutionGateway.checkPolicy
  split
  · split
    · split
      · exact Ascends.done (by decide)
      · exact Ascends.done (by decide)
    · split
      · exact Ascends.tryCatch (hcompare _) le_rfl fun _ => Ascends.done le_rfl
      · exact Ascends.done (by decide)
  · exact Ascends.done (by decide)

theorem checkSignals_ascends {passed : Bool} {policy : PolicyCheck} :
    Ascends GatewayCall.rank 6 7 (g.checkSignals sha256 passed content policy request) := by
  unfold ExecutionGateway.checkSignals
  split
  · split
    · unfold ExecutionGateway.compareSignals
      refine Ascends.bind (Ascends.done le_rfl) (by decide) fun hash => ?_
      split
      · exact Ascends.bind (Ascends.perform le_rfl (Nat.lt_succ_self _)) le_rfl fun _ =>
          Ascends.done le_rfl
      · exact Ascends.done (by decide)
    · exact Ascends.done (by decide)
  · exact Ascends.done (by decide)

/-- What is checked before the nonce is asked before the nonce is. -/
theorem priorChecks_ascends :
    Ascends GatewayCall.rank 1 7 (g.priorChecks dateParse sha256 request now) := by
  unfold ExecutionGateway.priorChecks
  refine Ascends.bind (Ascends.done le_rfl) (by decide) fun content => ?_
  refine Ascends.bind verifyChecks_ascends (by decide) fun envelope => ?_
  refine Ascends.bind compareContent_ascends (by decide) ?_
  rintro ⟨same, mismatch⟩
  refine Ascends.bind checkPolicy_ascends (by decide) fun policy => ?_
  exact Ascends.bind checkSignals_ascends le_rfl fun signals => Ascends.done le_rfl

theorem verify_ascends :
    Ascends GatewayCall.rank 1 8 (g.verify dateParse sha256 request now) := by
  unfold ExecutionGateway.verify
  refine Ascends.bind priorChecks_ascends (by decide) fun prior => ?_
  refine Ascends.bind ?_ le_rfl fun _ => Ascends.done le_rfl
  unfold EnvelopeVerifier.consumeIf EnvelopeVerifier.consumeNonce
  split
  · exact Ascends.perform le_rfl (Nat.lt_succ_self _)
  · exact Ascends.done (by decide)

/-- **The gateway makes each of its calls once.** -/
theorem execute_ascends :
    Ascends GatewayCall.rank 0 9 (g.execute dateParse sha256 request) := by
  unfold ExecutionGateway.execute
  have hnow : Ascends GatewayCall.rank 0 1 (ask .now : GatewayProgram Key _) :=
    Ascends.perform le_rfl (Nat.lt_succ_self _)
  refine Ascends.bind hnow (by decide) fun now => ?_
  refine Ascends.bind verify_ascends (by decide) ?_
  rintro ⟨result, content⟩
  dsimp only
  split
  · refine Ascends.bind (Ascends.done le_rfl) (by decide) fun released => ?_
    exact Ascends.perform le_rfl (Nat.lt_succ_self _)
  · split
    · exact Ascends.done (by decide)
    · exact Ascends.done (by decide)

end Order

/-! ## The flags -/

/-- The checks other than the nonce, by their flags.  Where binding is required the
two flags of the policy must be true; elsewhere they need only not be false. -/
def GatewayChecks.othersPassed (requirePolicyBinding : Bool) (checks : GatewayChecks) : Bool :=
  checks.keyValid != some false && checks.versionSupported && checks.signatureVerified &&
    checks.notExpired && checks.ttlWithinPolicy && checks.businessTransactionHashMatches &&
    (if requirePolicyBinding then
      checks.policyStillCurrent == some true && checks.policyGovernanceVerified == some true
    else checks.policyStillCurrent != some false && checks.policyGovernanceVerified != some false) &&
    checks.signalsStillCurrent != some false

theorem otherChecks_all (result : GatewayVerificationResult) :
    (result.otherChecks.all fun p => p.2) = (result.checks.othersPassed false) := by
  have hall : ∀ l : List (JsString × Option Bool),
      ((l.filterMap fun p => p.2.map fun passed => (p.1, passed)).all fun p => p.2) =
        l.all fun p => p.2 != some false := by
    intro l
    induction l with
    | nil => rfl
    | cons p l ih =>
      rcases p with ⟨name, _ | b⟩
      · exact ih
      · simp only [List.filterMap_cons, Option.map_some, List.all_cons, ih]
        cases b <;> rfl
  have hsome : ∀ b : Bool, (some b != some false) = b := by decide
  unfold GatewayVerificationResult.otherChecks GatewayChecks.othersPassed
  rw [hall]
  simp only [List.all_cons, List.all_nil, hsome, Bool.and_true, Bool.and_assoc, Bool.false_eq_true,
    if_false]

section Flags
variable {v : EnvelopeVerifier Key} {g : ExecutionGateway Key} {dateParse : JsString → Option Int}
  {sha256 : List UInt8 → JsString} {authorization : SignedExecutionAuthorization}
  {request : ExecutionRequest} {now : Int} {ans : Answers Key}

theorem verifyChecks_flags {r : EnvelopeChecksResult}
    (h : (v.verifyChecks dateParse authorization now).result ans = .ok r) :
    r.passed = (r.checks.keyValid != some false && r.checks.versionSupported &&
      r.checks.signatureVerified && r.checks.notExpired && r.checks.ttlWithinPolicy) := by
  unfold EnvelopeVerifier.verifyChecks at h
  rw [result_bind, bind_eq_ok] at h
  obtain ⟨resolved, -, h⟩ := h
  rw [result_bind, bind_eq_ok] at h
  obtain ⟨checks, -, h⟩ := h
  cases h
  rfl

/-- The flags of the result say what the gateway went by. -/
theorem priorChecks_flags {prior : PriorChecks} (nonceUnseen : Bool)
    (h : (g.priorChecks dateParse sha256 request now).result ans = .ok prior) :
    g.priorChecksPassed prior =
        (g.verificationResult prior nonceUnseen).checks.othersPassed g.requirePolicyBinding ∧
      g.priorChecksPassed prior =
        (g.verificationResult prior nonceUnseen).checks.othersPassed false := by
  unfold ExecutionGateway.priorChecks at h
  rw [result_bind, bind_eq_ok] at h
  obtain ⟨content, -, h⟩ := h
  rw [result_bind, bind_eq_ok] at h
  obtain ⟨envelope, henvelope, h⟩ := h
  rw [result_bind, bind_eq_ok] at h
  obtain ⟨⟨same, mismatch⟩, -, h⟩ := h
  dsimp only at h
  rw [result_bind, bind_eq_ok] at h
  obtain ⟨policy, hpolicy, h⟩ := h
  rw [result_bind, bind_eq_ok] at h
  obtain ⟨signals, -, h⟩ := h
  cases h
  have hflags := verifyChecks_flags henvelope
  have hbinding : (envelope.passed && same && g.policyBindingOk policy) =
      (envelope.passed && same && policy.notFailed) := by
    cases hpassed : envelope.passed && same with
    | false => rw [Bool.false_and, Bool.false_and]
    | true =>
      rw [hpassed] at hpolicy
      obtain ⟨check, hcheck, hdecides⟩ := g.checkPolicy_result sha256 ans
        request.authorization.payload
      rw [hpolicy] at hcheck
      cases hcheck
      rw [Bool.true_and, Bool.true_and]
      exact Bool.eq_iff_iff.mpr ⟨ExecutionGateway.notFailed_of_bindingOk, hdecides.ran⟩
  unfold ExecutionGateway.priorChecksPassed
  constructor
  · rw [hflags]
    rfl
  · rw [hbinding, hflags]
    rfl

theorem isSoleFailureNonceReplay_eq {prior : PriorChecks} (nonceUnseen : Bool)
    (h : (g.priorChecks dateParse sha256 request now).result ans = .ok prior) :
    (g.verificationResult prior nonceUnseen).isSoleFailureNonceReplay =
      (!nonceUnseen && g.priorChecksPassed prior) := by
  unfold GatewayVerificationResult.isSoleFailureNonceReplay
  rw [otherChecks_all, (priorChecks_flags nonceUnseen h).2]
  rfl

end Flags

/-! ## What a run does -/

/-- The call that uses up the nonce of an authorization. -/
def nonceCall (authorization : SignedExecutionAuthorization) : GatewayCall Key :=
  .checkAndRecord authorization.payload.nonce authorization.payload.expiresAt

section Runs
variable {g : ExecutionGateway Key} {dateParse : JsString → Option Int}
  {sha256 : List UInt8 → JsString} {request : ExecutionRequest} {now : Int}
  {t : List (GatewayEvent Key)}

/-- `verify` fails before the nonce, or ends without using it, or uses it last. -/
theorem verify_runs {r : Except Failure (GatewayVerificationResult × ExecutableContent)}
    (h : Runs (g.verify dateParse sha256 request now) t r) :
    (∃ e, Runs (g.priorChecks dateParse sha256 request now) t (.error e) ∧ r = .error e) ∨
    ∃ prior t₁, Runs (g.priorChecks dateParse sha256 request now) t₁ (.ok prior) ∧
      ((g.priorChecksPassed prior = false ∧ t = t₁ ∧
          r = .ok (g.verificationResult prior false, prior.executableContent)) ∨
        (g.priorChecksPassed prior = true ∧ ∃ answer : Except Failure Bool,
          t = t₁ ++ [⟨nonceCall request.authorization, answer⟩] ∧
          r = answer.map fun nonceUnseen =>
            (g.verificationResult prior nonceUnseen, prior.executableContent))) := by
  unfold ExecutionGateway.verify at h
  rcases runs_bind.mp h with ⟨e, he, rfl⟩ | ⟨prior, t₁, t₂, rfl, hprior, h⟩
  · exact Or.inl ⟨e, he, rfl⟩
  refine Or.inr ⟨prior, t₁, hprior, ?_⟩
  unfold EnvelopeVerifier.consumeIf EnvelopeVerifier.consumeNonce at h
  by_cases hpassed : g.priorChecksPassed prior = true
  · rw [if_pos hpassed] at h
    refine Or.inr ⟨hpassed, ?_⟩
    rcases runs_bind.mp h with ⟨e, he, rfl⟩ | ⟨unseen, t₃, t₄, rfl, hnonce, h⟩
    · exact ⟨.error e, congrArg _ (runs_perform.mp he), rfl⟩
    · obtain ⟨rfl, rfl⟩ := runs_done.mp h
      rw [runs_perform.mp hnonce, List.append_nil]
      exact ⟨.ok unseen, rfl, rfl⟩
  · rw [if_neg hpassed] at h
    obtain ⟨rfl, rfl⟩ := runs_done.mp h
    exact Or.inl ⟨Bool.not_eq_true _ ▸ hpassed, List.append_nil _, rfl⟩

/-- `execute` reads the clock, verifies, and then releases what was verified or
throws. -/
theorem execute_runs {r : Except Failure Json}
    (h : Runs (g.execute dateParse sha256 request) t r) :
    (∃ e, t = [⟨.now, .error e⟩] ∧ r = .error e) ∨
    ∃ (now : Int) (t₁ : List (GatewayEvent Key)),
      (∃ e, Runs (g.verify dateParse sha256 request now) t₁ (.error e) ∧
        t = ⟨.now, .ok now⟩ :: t₁ ∧ r = .error e) ∨
      ∃ result content, Runs (g.verify dateParse sha256 request now) t₁ (.ok (result, content)) ∧
        ((result.valid = true ∧ ∃ e, g.releaseOf request result content = .error e ∧
            t = ⟨.now, .ok now⟩ :: t₁ ∧ r = .error e) ∨
          (result.valid = true ∧ ∃ released, ∃ answer : Except Failure Json,
            g.releaseOf request result content = .ok released ∧
            t = ⟨.now, .ok now⟩ :: t₁ ++ [⟨.release released, answer⟩] ∧ r = answer) ∨
          (result.valid = false ∧ t = ⟨.now, .ok now⟩ :: t₁ ∧
            r = .error (if result.isSoleFailureNonceReplay then
              nonceAlreadyConsumedError content.businessTransactionId
            else .error result.describeFailure))) := by
  unfold ExecutionGateway.execute at h
  rcases runs_bind.mp h with ⟨e, he, rfl⟩ | ⟨now, t₀, t', rfl, hnow, hrest⟩
  · exact Or.inl ⟨e, runs_perform.mp he, rfl⟩
  obtain rfl := runs_perform.mp hnow
  right
  rcases runs_bind.mp hrest with ⟨e, he, rfl⟩ | ⟨⟨result, content⟩, t₁, t₂, rfl, hverify, h⟩
  · exact ⟨now, t', Or.inl ⟨e, he, rfl, rfl⟩⟩
  refine ⟨now, t₁, Or.inr ⟨result, content, hverify, ?_⟩⟩
  dsimp only at h
  by_cases hvalid : result.valid = true
  · rw [if_pos hvalid] at h
    rcases runs_bind.mp h with ⟨e, he, rfl⟩ | ⟨released, t₃, t₄, rfl, hreleased, hlast⟩
    · obtain ⟨rfl, hof⟩ := runs_done.mp he
      refine Or.inl ⟨hvalid, e, hof.symm, ?_, rfl⟩
      rw [List.append_nil]
      rfl
    · obtain ⟨rfl, hof⟩ := runs_done.mp hreleased
      rw [runs_perform.mp hlast]
      exact Or.inr (Or.inl ⟨hvalid, released, r, hof.symm, rfl, rfl⟩)
  · rw [if_neg hvalid] at h
    refine Or.inr (Or.inr ⟨Bool.not_eq_true _ ▸ hvalid, ?_⟩)
    by_cases hreplay : result.isSoleFailureNonceReplay = true
    · rw [if_pos hreplay] at h ⊢
      obtain ⟨rfl, rfl⟩ := runs_done.mp h
      rw [List.append_nil]
      exact ⟨rfl, rfl⟩
    · rw [if_neg hreplay] at h ⊢
      obtain ⟨rfl, rfl⟩ := runs_done.mp h
      rw [List.append_nil]
      exact ⟨rfl, rfl⟩

/-- No call before the nonce uses it or releases anything. -/
theorem priorChecks_calls {r : Except Failure PriorChecks}
    (h : Runs (g.priorChecks dateParse sha256 request now) t r) :
    ∀ e ∈ t, e.1.usesNonce = false ∧ ∀ released, e.1 ≠ .release released := by
  rintro ⟨call, answer⟩ he
  have hrank := priorChecks_ascends.lt h _ he
  constructor
  · cases call with
    | checkAndRecord nonce expiresAt => exact absurd hrank (Nat.lt_irrefl 7)
    | _ => rfl
  · rintro released rfl
    exact absurd hrank (by decide : ¬ 8 < 7)

/-- Where the answers are those of a function, the checks of a run pass exactly when
the request does. -/
theorem priorChecks_runs {ans : Answers Key} {prior : PriorChecks}
    (h : Runs (g.priorChecks dateParse sha256 request now) t (.ok prior)) (ht : Answered ans t)
    (content : ExecutableContent) :
    g.Passes dateParse sha256 ans request now content ↔
      g.priorChecksPassed prior = true ∧ prior.executableContent = content := by
  have hresult := (h.of_answered ht).2
  rw [← ExecutionGateway.priorChecks_passes, ← hresult]
  constructor
  · rintro ⟨_, ⟨⟩, hpassed⟩
    exact hpassed
  · intro hpassed
    exact ⟨prior, rfl, hpassed⟩

end Runs

/-! ## The gateway as a whole -/

/-- The gateway's own failures are plain errors. -/
def plainError (e : Failure) : Prop := ∃ message, e = .error message

theorem contentHash_plain {sha256 : List UInt8 → JsString} {value : Json} {e : Failure}
    (h : contentHash sha256 value = .error e) : plainError e := by
  unfold contentHash at h
  split at h
  · cases h
  · cases h
    exact ⟨_, rfl⟩

section Relays
variable {g : ExecutionGateway Key} {dateParse : JsString → Option Int}
  {sha256 : List UInt8 → JsString} {request : ExecutionRequest} {now : Int}

theorem verifyChecks_relays {v : EnvelopeVerifier Key}
    {authorization : SignedExecutionAuthorization} :
    (v.verifyChecks dateParse authorization now).Relays plainError := by
  have hexpired : (v.keyExpired authorization now).Relays plainError := by
    unfold EnvelopeVerifier.keyExpired
    split
    · exact Relays.perform.bind fun _ => Relays.pure
    · exact Relays.pure
  unfold EnvelopeVerifier.verifyChecks EnvelopeVerifier.resolveKey
  refine Relays.bind ?_ fun resolved => Relays.bind ?_ fun _ => Relays.pure
  · split
    · refine hexpired.bind fun expired => ?_
      split
      · exact Relays.pure
      · exact Relays.tryCatch fun _ => Relays.pure
    · exact Relays.pure
  · unfold EnvelopeVerifier.authorizationChecks AuthorizationVerifier.verify
    split
    · split
      · exact Relays.perform.bind fun _ => Relays.pure
      · exact Relays.pure
    · exact Relays.pure

theorem checkPolicy_relays {passed : Bool} {payload : ExecutionAuthorizationPayload} :
    (g.checkPolicy sha256 passed payload).Relays plainError := by
  unfold ExecutionGateway.checkPolicy
  split
  · split
    · split
      · exact Relays.pure
      · exact Relays.pure
    · split
      · exact Relays.tryCatch fun _ => Relays.pure
      · exact Relays.pure
  · exact Relays.pure

theorem checkSignals_relays {passed : Bool} {content : ExecutableContent} {policy : PolicyCheck} :
    (g.checkSignals sha256 passed content policy request).Relays plainError := by
  unfold ExecutionGateway.checkSignals
  split
  · split
    · unfold ExecutionGateway.compareSignals
      refine Relays.bind (fun e he => contentHash_plain he) fun hash => ?_
      split
      · exact Relays.perform.bind fun _ => Relays.pure
      · exact Relays.pure
    · exact Relays.pure
  · exact Relays.pure

theorem priorChecks_relays :
    (g.priorChecks dateParse sha256 request now).Relays plainError := by
  unfold ExecutionGateway.priorChecks
  refine Relays.bind ?_ fun content => ?_
  · intro e he
    unfold toExecutableContent at he
    split at he
    · cases he
      exact ⟨_, rfl⟩
    · cases he
  refine verifyChecks_relays.bind fun envelope => ?_
  refine Relays.bind ?_ ?_
  · unfold ExecutionGateway.compareContent
    split
    · refine Relays.bind (fun e he => contentHash_plain he) fun hash => ?_
      split
      · exact Relays.pure
      · exact Relays.pure
    · exact Relays.pure
  · rintro ⟨same, mismatch⟩
    refine checkPolicy_relays.bind fun policy => ?_
    exact checkSignals_relays.bind fun signals => Relays.pure

end Relays

/-- A thrown error that says the nonce has been used. -/
def IsReplayError (e : Failure) : Prop := ∃ id, e = nonceAlreadyConsumedError id

theorem not_replay_of_plain {e : Failure} (h : plainError e) : ¬ IsReplayError e := by
  obtain ⟨message, rfl⟩ := h
  rintro ⟨id, h⟩
  cases h

/-- The content of a request is a JSON value: its members have different names and
its numbers are finite. -/
def ExecutableContent.WellFormed (content : ExecutableContent) : Prop :=
  (contentJson content).distinct = true ∧ (contentJson content).finite = true

/-- The same content, up to the order of the members of its parameters. -/
def sameContent (content content' : ExecutableContent) : Prop :=
  content.businessTransactionId = content'.businessTransactionId ∧
    content.action = content'.action ∧ content.target = content'.target ∧
    (Json.obj content.parameters).same (.obj content'.parameters) = true

theorem sameContent_of_same {content content' : ExecutableContent}
    (h : (contentJson content).same (contentJson content') = true) :
    sameContent content content' := by
  rw [contentJson, contentJson, Json.same, Bool.and_eq_true] at h
  have hmember : ∀ k x y, (k, x) ∈ contentFields content →
      (contentFields content').lookup k = some y → x.same y = true := by
    intro k x y hx hy
    obtain ⟨y', hy', hsame⟩ := Json.sameMembers_iff.mp h.2 (k, x) hx
    rw [hy] at hy'
    cases hy'
    exact hsame
  have hid := hmember "businessTransactionId" (.str content.businessTransactionId) _
    (by simp [contentFields]) rfl
  have haction := hmember "action" (.str content.action) _ (by simp [contentFields]) rfl
  have htarget := hmember "target" (.str content.target) _ (by simp [contentFields]) rfl
  have hparameters := hmember "parameters" (.obj content.parameters) _
    (by simp [contentFields]) rfl
  rw [Json.same, beq_iff_eq] at hid haction htarget
  exact ⟨hid, haction, htarget, hparameters⟩

theorem sameContent_of_hash {sha256 : List UInt8 → JsString} (hash : JsString)
    {content content' : ExecutableContent} (hfree : Function.Injective sha256)
    (hwf : ExecutableContent.WellFormed content) (hwf' : ExecutableContent.WellFormed content')
    (h : contentHash sha256 (contentJson content) = .ok hash)
    (h' : contentHash sha256 (contentJson content') = .ok hash) : sameContent content content' := by
  have hbytes : Crypto.serialize (.ofJson (contentJson content)) =
      Crypto.serialize (.ofJson (contentJson content')) := by
    unfold contentHash at h h'
    split at h
    · rename_i bytes hbytes
      split at h'
      · rename_i bytes' hbytes'
        rw [hbytes, hbytes', hfree ((Except.ok.inj h).trans (Except.ok.inj h').symm)]
      · cases h'
    · cases h
  rw [Crypto.serialize_canon hwf.1 hwf'.1, ← Json.same_iff hwf.1 hwf'.1 hwf.2 hwf'.2] at hbytes
  exact sameContent_of_same hbytes

section Safe
variable (g : ExecutionGateway Key) (dateParse : JsString → Option Int)
  (sha256 : List UInt8 → JsString) (request : ExecutionRequest)

/-- What a run of `verify` may do: `t` are its calls and answers, `r` its result. -/
structure ExecutionGateway.VerifySafe (now : Int) (t : List (GatewayEvent Key))
    (r : Except Failure (GatewayVerificationResult × ExecutableContent)) : Prop where
  /-- The collaborators answer as some function does. -/
  answered : ∃ ans : Answers Key, Answered ans t
  /-- The nonce is used up exactly when every other check passes. -/
  consumed : ∀ ans : Answers Key, Answered ans t → ((∃ e ∈ t, e.1.usesNonce = true) ↔
    ∃ content, g.Passes dateParse sha256 ans request now content)
  /-- It is the nonce of the authorization, and used up by the last call. -/
  last : ∀ t₁ e t₂, t = t₁ ++ e :: t₂ → e.1.usesNonce = true →
    e.1 = nonceCall request.authorization ∧ t₂ = []
  /-- The flags of the result say the same. -/
  flags : ∀ result content, r = .ok (result, content) →
    ((∃ e ∈ t, e.1.usesNonce = true) ↔
      result.checks.othersPassed g.requirePolicyBinding = true) ∧
    (result.valid = true ↔ ⟨nonceCall request.authorization, .ok true⟩ ∈ t)
  /-- Nothing is released. -/
  quiet : ∀ e ∈ t, ∀ released, e.1 ≠ .release released

/-- The nonce is the only thing that stands against the request. -/
def ExecutionGateway.OnlyReplayFails (t : List (GatewayEvent Key)) : Prop :=
  ∃ now ans content, ⟨.now, .ok now⟩ ∈ t ∧ Answered ans t ∧
    g.Passes dateParse sha256 ans request now content ∧
    ⟨nonceCall request.authorization, .ok false⟩ ∈ t

/-- What a run of `execute` may do. -/
structure ExecutionGateway.ExecuteSafe (t : List (GatewayEvent Key)) (r : Except Failure Json) :
    Prop where
  /-- A release is the last call, comes after a verification that was valid, and
  hands on the content whose hash was signed. -/
  released : ∀ released answer, ⟨.release released, answer⟩ ∈ t →
    ∃ now t₁ result, t = ⟨.now, .ok now⟩ :: t₁ ++ [⟨.release released, answer⟩] ∧
      Runs (g.verify dateParse sha256 request now) t₁ (.ok (result, released.content)) ∧
      result.valid = true ∧ released.authorization = request.authorization ∧
      toExecutableContent request = .ok released.content ∧
      contentHash sha256 (contentJson released.content) =
        .ok request.authorization.payload.businessTransactionHash
  /-- Without collisions and forged signatures the content is one that was issued.  Both
  contents are JSON values whose numbers are finite: canonical JSON writes an infinite number
  as `null`, so it does not tell one from the other. -/
  issued : ∀ issued : ExecutableContent → ExecutionAuthorizationPayload → Prop,
    Function.Injective sha256 →
    (∀ content payload, issued content payload → ExecutableContent.WellFormed content ∧
      contentHash sha256 (contentJson content) = .ok payload.businessTransactionHash) →
    (∀ payload signature key, ⟨.verifySignature payload signature key, .ok true⟩ ∈ t →
      ∃ content, issued content payload) →
    ∀ released answer, ⟨.release released, answer⟩ ∈ t →
      ExecutableContent.WellFormed released.content →
      ∃ content, issued content request.authorization.payload ∧
        sameContent released.content content
  /-- The replay error is thrown exactly when only the nonce fails; a collaborator
  that throws one itself is left aside. -/
  replay : (∀ e ∈ t, ∀ error, e.2 = .error error → ¬ IsReplayError error) →
    (∀ result content error, g.releaseOf request result content = .error error →
      ¬ IsReplayError error) →
    ((∃ error, r = .error error ∧ IsReplayError error) ↔
      g.OnlyReplayFails dateParse sha256 request t)

end Safe

section Final
variable {g : ExecutionGateway Key} {dateParse : JsString → Option Int}
  {sha256 : List UInt8 → JsString} {request : ExecutionRequest}

theorem not_used {t : List (GatewayEvent Key)}
    (h : ∀ e ∈ t, e.1.usesNonce = false ∧ ∀ released, e.1 ≠ .release released) :
    ¬ ∃ e ∈ t, e.1.usesNonce = true := by
  rintro ⟨e, he, hused⟩
  rw [(h e he).1] at hused
  cases hused

theorem verify_consumed {now : Int} {t : List (GatewayEvent Key)}
    {r : Except Failure (GatewayVerificationResult × ExecutableContent)}
    (h : Runs (g.verify dateParse sha256 request now) t r) {ans : Answers Key}
    (hans : Answered ans t) : (∃ e ∈ t, e.1.usesNonce = true) ↔
      ∃ content, g.Passes dateParse sha256 ans request now content := by
  rcases verify_runs h with ⟨e, hprior, -⟩ | ⟨prior, t₁, hprior, hrest⟩
  · refine iff_of_false (not_used (priorChecks_calls hprior)) ?_
    rintro ⟨content, hpasses⟩
    obtain ⟨prior, hresult, -⟩ := ExecutionGateway.priorChecks_passes.mpr hpasses
    rw [← (hprior.of_answered hans).2] at hresult
    cases hresult
  · rcases hrest with ⟨hfailed, rfl, -⟩ | ⟨hpassed, answer, rfl, -⟩
    · refine iff_of_false (not_used (priorChecks_calls hprior)) ?_
      rintro ⟨content, hpasses⟩
      rw [((priorChecks_runs hprior hans content).mp hpasses).1] at hfailed
      cases hfailed
    · refine iff_of_true ⟨_, List.mem_append_right _ (List.mem_singleton_self _), rfl⟩ ?_
      exact ⟨_, (priorChecks_runs hprior hans.append_left _).mpr ⟨hpassed, rfl⟩⟩

theorem verify_last {now : Int} {t : List (GatewayEvent Key)}
    {r : Except Failure (GatewayVerificationResult × ExecutableContent)}
    (h : Runs (g.verify dateParse sha256 request now) t r) {t₁ t₂ : List (GatewayEvent Key)}
    {e : GatewayEvent Key} (ht : t = t₁ ++ e :: t₂) (hused : e.1.usesNonce = true) :
    e.1 = nonceCall request.authorization ∧ t₂ = [] := by
  have hmem : e ∈ t := ht ▸ List.mem_append_right _ List.mem_cons_self
  have hnone : ∀ {t' : List (GatewayEvent Key)} {r' : Except Failure PriorChecks},
      Runs (g.priorChecks dateParse sha256 request now) t' r' → e ∉ t' := by
    intro t' r' hprior he
    rw [(priorChecks_calls hprior e he).1] at hused
    cases hused
  rcases verify_runs h with ⟨_, hprior, -⟩ | ⟨prior, t', hprior, hrest⟩
  · exact absurd hmem (hnone hprior)
  · rcases hrest with ⟨-, rfl, -⟩ | ⟨-, answer, rfl, -⟩
    · exact absurd hmem (hnone hprior)
    · rcases List.append_eq_append_iff.mp ht with ⟨l, rfl, hl⟩ | ⟨l, rfl, hl⟩
      · cases l with
        | nil =>
          cases hl
          exact ⟨rfl, rfl⟩
        | cons x l => simp at hl
      · cases l with
        | nil =>
          cases hl
          exact ⟨rfl, rfl⟩
        | cons x l =>
          cases hl
          exact absurd (List.mem_append_right _ List.mem_cons_self) (hnone hprior)

theorem verify_flags {now : Int} {t : List (GatewayEvent Key)}
    {result : GatewayVerificationResult} {content : ExecutableContent}
    (h : Runs (g.verify dateParse sha256 request now) t (.ok (result, content))) :
    ((∃ e ∈ t, e.1.usesNonce = true) ↔
        result.checks.othersPassed g.requirePolicyBinding = true) ∧
      (result.valid = true ↔ ⟨nonceCall request.authorization, .ok true⟩ ∈ t) := by
  rcases verify_runs h with ⟨e, -, hr⟩ | ⟨prior, t₁, hprior, hrest⟩
  · cases hr
  obtain ⟨ans, hans, -⟩ := priorChecks_ascends.answered hprior
  have hflags := fun unseen => (priorChecks_flags unseen (hprior.of_answered hans).2.symm).1
  have hfresh : ∀ answer, ⟨nonceCall request.authorization, answer⟩ ∉ t₁ := by
    intro answer he
    exact absurd (priorChecks_calls hprior _ he).1 (by simp [nonceCall, GatewayCall.usesNonce])
  rcases hrest with ⟨hfailed, rfl, hr⟩ | ⟨hpassed, answer, rfl, hr⟩
  · cases hr
    rw [← hflags, hfailed]
    refine ⟨iff_of_false (not_used (priorChecks_calls hprior)) Bool.false_ne_true, ?_⟩
    refine iff_of_false ?_ (hfresh _)
    simp [ExecutionGateway.verificationResult, hfailed]
  · rcases answer with e | unseen
    · cases hr
    · cases hr
      rw [← hflags, hpassed]
      refine ⟨iff_of_true ⟨_, List.mem_append_right _ (List.mem_singleton_self _), rfl⟩ rfl, ?_⟩
      rw [List.mem_append, or_iff_right (hfresh _), List.mem_singleton]
      rw [ExecutionGateway.verificationResult, hpassed, Bool.true_and]
      constructor
      · rintro rfl
        rfl
      · rintro ⟨⟩
        rfl

theorem verify_quiet {now : Int} {t : List (GatewayEvent Key)}
    {r : Except Failure (GatewayVerificationResult × ExecutableContent)}
    (h : Runs (g.verify dateParse sha256 request now) t r) :
    ∀ e ∈ t, ∀ released, e.1 ≠ .release released := by
  rintro ⟨call, answer⟩ he released rfl
  exact absurd (verify_ascends.lt h _ he) (Nat.lt_irrefl 8)

theorem verify_safe {now : Int} {t : List (GatewayEvent Key)}
    {r : Except Failure (GatewayVerificationResult × ExecutableContent)}
    (h : Runs (g.verify dateParse sha256 request now) t r) :
    g.VerifySafe dateParse sha256 request now t r where
  answered := (verify_ascends.answered h).imp fun _ => And.left
  consumed _ := verify_consumed h
  last _ _ _ := verify_last h
  flags := by
    rintro result content rfl
    exact verify_flags h
  quiet := verify_quiet h

theorem releaseOf_ok {result : GatewayVerificationResult} {content : ExecutableContent}
    {released : Release} (h : g.releaseOf request result content = .ok released) :
    released.content = content ∧ released.authorization = request.authorization := by
  unfold ExecutionGateway.releaseOf at h
  split at h
  · cases h
    exact ⟨rfl, rfl⟩
  · split at h
    · obtain ⟨authentication, -, h⟩ := bind_eq_ok.mp h
      cases h
      exact ⟨rfl, rfl⟩
    · split at h
      · obtain ⟨connectorId, -, h⟩ := bind_eq_ok.mp h
        obtain ⟨identity, -, h⟩ := bind_eq_ok.mp h
        cases h
        exact ⟨rfl, rfl⟩
      · cases h

/-- A valid verification has passed every check, answered as the run was. -/
theorem verify_valid {now : Int} {t : List (GatewayEvent Key)}
    {result : GatewayVerificationResult} {content : ExecutableContent}
    (h : Runs (g.verify dateParse sha256 request now) t (.ok (result, content)))
    (hvalid : result.valid = true) {ans : Answers Key} (hans : Answered ans t) :
    g.Passes dateParse sha256 ans request now content := by
  rcases verify_runs h with ⟨e, -, hr⟩ | ⟨prior, t₁, hprior, hrest⟩
  · cases hr
  · rcases hrest with ⟨hfailed, rfl, hr⟩ | ⟨hpassed, answer, rfl, hr⟩
    · cases hr
      rw [ExecutionGateway.verificationResult, hfailed, Bool.false_and] at hvalid
      cases hvalid
    · rcases answer with e | unseen
      · cases hr
      · cases hr
        exact (priorChecks_runs hprior hans.append_left _).mpr ⟨hpassed, rfl⟩

/-- A release comes after a valid verification and is the last call. -/
theorem execute_released {t : List (GatewayEvent Key)} {r : Except Failure Json}
    (h : Runs (g.execute dateParse sha256 request) t r) {released : Release}
    {answer : Except Failure Json} (he : ⟨.release released, answer⟩ ∈ t) :
    ∃ now t₁ result, t = ⟨.now, .ok now⟩ :: t₁ ++ [⟨.release released, answer⟩] ∧
      Runs (g.verify dateParse sha256 request now) t₁ (.ok (result, released.content)) ∧
      result.valid = true ∧ released.authorization = request.authorization := by
  have hquiet : ∀ {now : Int} {t₁ : List (GatewayEvent Key)}
      {r' : Except Failure (GatewayVerificationResult × ExecutableContent)},
      Runs (g.verify dateParse sha256 request now) t₁ r' →
      ⟨.release released, answer⟩ ∉ (⟨.now, .ok now⟩ :: t₁ : List (GatewayEvent Key)) := by
    intro now t₁ r' hverify hmem
    rcases List.mem_cons.mp hmem with hnow | hmem
    · cases hnow
    · exact verify_quiet hverify _ hmem released rfl
  rcases execute_runs h with ⟨e, rfl, -⟩ | ⟨now, t₁, ⟨e, hverify, rfl, -⟩ | hrest⟩
  · cases List.mem_singleton.mp he
  · exact absurd he (hquiet hverify)
  obtain ⟨result, content, hverify, ⟨-, e, -, rfl, -⟩ | hlast | ⟨-, rfl, -⟩⟩ := hrest
  · exact absurd he (hquiet hverify)
  · obtain ⟨hvalid, released', answer', hof, rfl, -⟩ := hlast
    rcases List.mem_append.mp he with he | he
    · exact absurd he (hquiet hverify)
    · cases List.mem_singleton.mp he
      obtain ⟨hcontent, hauthorization⟩ := releaseOf_ok hof
      rw [← hcontent] at hverify
      exact ⟨now, t₁, result, rfl, hverify, hvalid, hauthorization⟩
  · exact absurd he (hquiet hverify)

theorem execute_issued {t : List (GatewayEvent Key)} {r : Except Failure Json}
    (h : Runs (g.execute dateParse sha256 request) t r)
    (issued : ExecutableContent → ExecutionAuthorizationPayload → Prop)
    (hfree : Function.Injective sha256)
    (hissued : ∀ content payload, issued content payload → ExecutableContent.WellFormed content ∧
      contentHash sha256 (contentJson content) = .ok payload.businessTransactionHash)
    (hsigned : ∀ payload signature key, ⟨.verifySignature payload signature key, .ok true⟩ ∈ t →
      ∃ content, issued content payload)
    (released : Release) (answer : Except Failure Json) (he : ⟨.release released, answer⟩ ∈ t)
    (hwf : ExecutableContent.WellFormed released.content) :
    ∃ content, issued content request.authorization.payload ∧
      sameContent released.content content := by
  obtain ⟨now, t₁, result, rfl, hverify, hvalid, -⟩ := execute_released h he
  obtain ⟨ans, hans, honly⟩ := verify_ascends.answered hverify
  have hpasses := verify_valid hverify hvalid hans
  obtain ⟨key, -, hsignature⟩ := hpasses.envelope.signature
  have hevent := List.mem_append_left [⟨.release released, answer⟩]
    (List.mem_cons_of_mem ⟨.now, .ok now⟩ (honly _ _ hsignature))
  obtain ⟨content, hcontent⟩ := hsigned _ _ _ hevent
  obtain ⟨hwf', hhash⟩ := hissued _ _ hcontent
  exact ⟨content, hcontent, sameContent_of_hash _ hfree hwf hwf' hpasses.contentHash hhash⟩

theorem verify_relays {now : Int} : (g.verify dateParse sha256 request now).Relays plainError := by
  unfold ExecutionGateway.verify EnvelopeVerifier.consumeIf EnvelopeVerifier.consumeNonce
  refine priorChecks_relays.bind fun prior => ?_
  split
  · exact Relays.perform.bind fun _ => Relays.pure
  · exact Relays.pure.bind fun _ => Relays.pure

/-- The verification of a request for which only the nonce fails. -/
theorem verify_soleReplay {now : Int} {t : List (GatewayEvent Key)}
    {result : GatewayVerificationResult} {content : ExecutableContent}
    (h : Runs (g.verify dateParse sha256 request now) t (.ok (result, content))) :
    result.isSoleFailureNonceReplay = true ↔
      ⟨nonceCall request.authorization, .ok false⟩ ∈ t := by
  rcases verify_runs h with ⟨e, -, hr⟩ | ⟨prior, t₁, hprior, hrest⟩
  · cases hr
  obtain ⟨ans, hans, -⟩ := priorChecks_ascends.answered hprior
  have hsole := fun unseen => isSoleFailureNonceReplay_eq unseen (hprior.of_answered hans).2.symm
  have hfresh : ∀ answer, ⟨nonceCall request.authorization, answer⟩ ∉ t₁ := by
    intro answer he
    exact absurd (priorChecks_calls hprior _ he).1 (by simp [nonceCall, GatewayCall.usesNonce])
  rcases hrest with ⟨hfailed, rfl, hr⟩ | ⟨hpassed, answer, rfl, hr⟩
  · cases hr
    rw [hsole, hfailed, Bool.and_false]
    exact iff_of_false Bool.false_ne_true (hfresh _)
  · rcases answer with e | unseen
    · cases hr
    · cases hr
      rw [hsole, hpassed, Bool.and_true, List.mem_append, or_iff_right (hfresh _),
        List.mem_singleton, Bool.not_eq_true']
      constructor
      · rintro rfl
        rfl
      · rintro ⟨⟩
        rfl

theorem execute_replay {t : List (GatewayEvent Key)} {r : Except Failure Json}
    (h : Runs (g.execute dateParse sha256 request) t r)
    (hheard : ∀ e ∈ t, ∀ error, e.2 = .error error → ¬ IsReplayError error)
    (hof : ∀ result content error, g.releaseOf request result content = .error error →
      ¬ IsReplayError error) :
    (∃ error, r = .error error ∧ IsReplayError error) ↔
      g.OnlyReplayFails dateParse sha256 request t := by
  obtain ⟨ans, hans, -⟩ := execute_ascends.answered h
  constructor
  · rintro ⟨error, rfl, hreplay⟩
    rcases execute_runs h with ⟨e, rfl, ⟨⟩⟩ | ⟨now, t₁, ⟨e, hverify, rfl, ⟨⟩⟩ | hrest⟩
    · exact absurd hreplay (hheard _ (List.mem_singleton_self _) _ rfl)
    · exfalso
      rcases verify_relays.of_runs hverify with hplain | ⟨event, hevent, he⟩
      · exact not_replay_of_plain hplain hreplay
      · exact hheard event (List.mem_cons_of_mem _ hevent) _ he hreplay
    obtain ⟨result, content, hverify, ⟨-, e, he, -, ⟨⟩⟩ | hlast | ⟨-, rfl, hr⟩⟩ := hrest
    · exact absurd hreplay (hof _ _ _ he)
    · obtain ⟨-, released, answer, -, rfl, rfl⟩ := hlast
      exact absurd hreplay
        (hheard _ (List.mem_append_right _ (List.mem_singleton_self _)) _ rfl)
    · by_cases hsole : result.isSoleFailureNonceReplay = true
      · have hnonce := (verify_soleReplay hverify).mp hsole
        have hans₁ : Answered ans t₁ := fun e he => hans e (List.mem_cons_of_mem _ he)
        obtain ⟨content, hpasses⟩ := (verify_consumed hverify hans₁).mp ⟨_, hnonce, rfl⟩
        exact ⟨now, ans, content, List.mem_cons_self, hans, hpasses,
          List.mem_cons_of_mem _ hnonce⟩
      · rw [if_neg hsole] at hr
        cases hr
        exact absurd hreplay (not_replay_of_plain ⟨_, rfl⟩)
  · rintro ⟨-, -, -, -, -, -, hnonce⟩
    have hfalse : ans (nonceCall request.authorization) = .ok false := hans _ hnonce
    have htrue : ∀ {t' t₂ : List (GatewayEvent Key)} {first : GatewayEvent Key},
        t = first :: t' ++ t₂ → ⟨nonceCall request.authorization, .ok true⟩ ∉ t' := by
      rintro t' t₂ first rfl hmem
      have := hans _ (List.mem_append_left _ (List.mem_cons_of_mem _ hmem))
      rw [hfalse] at this
      cases this
    rcases execute_runs h with ⟨e, rfl, -⟩ | ⟨now, t₁, ⟨e, hverify, rfl, -⟩ | hrest⟩
    · cases List.mem_singleton.mp hnonce
    · exfalso
      rcases List.mem_cons.mp hnonce with hnow | hnonce
      · cases hnow
      rcases verify_runs hverify with ⟨_, hprior, -⟩ | ⟨prior, t₂, hprior, ⟨-, -, hr⟩ | hused⟩
      · exact absurd (priorChecks_calls hprior _ hnonce).1
          (by simp [nonceCall, GatewayCall.usesNonce])
      · cases hr
      · obtain ⟨-, answer, rfl, hr⟩ := hused
        have hanswer := hans _ (List.mem_cons_of_mem _
          (List.mem_append_right t₂ (List.mem_singleton_self _)))
        rw [hfalse] at hanswer
        cases hanswer
        cases hr
    · obtain ⟨result, content, hverify, ⟨hvalid, e, -, rfl, -⟩ | hlast | ⟨-, rfl, rfl⟩⟩ := hrest
      · exact absurd ((verify_flags hverify).2.mp hvalid) (htrue (List.append_nil _).symm)
      · obtain ⟨hvalid, released, answer, -, rfl, -⟩ := hlast
        exact absurd ((verify_flags hverify).2.mp hvalid) (htrue rfl)
      · rcases List.mem_cons.mp hnonce with hnow | hnonce
        · cases hnow
        rw [if_pos ((verify_soleReplay hverify).mpr hnonce)]
        exact ⟨_, rfl, _, rfl⟩

theorem execute_safe {t : List (GatewayEvent Key)} {r : Except Failure Json}
    (h : Runs (g.execute dateParse sha256 request) t r) :
    g.ExecuteSafe dateParse sha256 request t r where
  released released answer he := by
    obtain ⟨now, t₁, result, ht, hverify, hvalid, hauthorization⟩ := execute_released h he
    obtain ⟨ans, hans, -⟩ := verify_ascends.answered hverify
    have hpasses := verify_valid hverify hvalid hans
    exact ⟨now, t₁, result, ht, hverify, hvalid, hauthorization, hpasses.wellFormed,
      hpasses.contentHash⟩
  issued := execute_issued h
  replay := execute_replay h

end Final

/-- **The nonce is used last and the release comes after it**: whatever the
collaborators answer or throw, in every run of `verify` the nonce is used up exactly
when every other check passes, and in every run of `execute` what is released is the
verified content, after a nonce that had not been used. -/
theorem nonce_used_last (g : ExecutionGateway Key) (dateParse : JsString → Option Int)
    (sha256 : List UInt8 → JsString) (request : ExecutionRequest) :
    (∀ now t r, Runs (g.verify dateParse sha256 request now) t r →
      g.VerifySafe dateParse sha256 request now t r) ∧
    ∀ t r, Runs (g.execute dateParse sha256 request) t r →
      g.ExecuteSafe dateParse sha256 request t r :=
  ⟨fun _ _ _ => verify_safe, fun _ _ => execute_safe⟩

end Parmana.Gateway

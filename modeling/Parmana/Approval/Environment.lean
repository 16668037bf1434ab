import Parmana.Approval.Verifier

/-! # Verifications in an environment

Here a verification is run against an `Environment`, and each of its parts gets
one lemma that says what it returns and what it records: `verify_run` for one
artifact, `checkPass_run` for the first pass, `usePass_run` for the second.

Each check of an artifact happens at its own `Moment`, numbered in the order the
checks are made.  What a moment holds (the time, what the registry answers,
whether the store fails) is arbitrary.
-/
namespace Parmana.Approval
open Js Interaction Interaction.Program

/-- What one check of an artifact sees. -/
structure Moment (Key : Type) where
  now : Int
  resolveIssuer : JsString → JsString → Except Thrown (Option (ResolvedApprovalIssuer Key))
  /-- Whether the nonce store throws, what it throws, and whether the nonce was
  recorded all the same. -/
  storeFails : Option (Thrown × Bool)

/-- Everything the verifiers read that is not in the request. -/
structure Environment (Key : Type) where
  dateParse : JsString → Option Int
  verifySignature : JsValue → JsString → Key → Except Thrown Bool
  fetchDeal : JsString → JsString → Except Thrown (Option HubSpotDeal)
  moment : Nat → Moment Key

/-- The checks made so far and the nonces recorded so far. -/
structure World where
  checks : Nat
  consumed : List JsString
  deriving DecidableEq

/-- The store after a nonce is recorded in it. -/
def record (nonce : JsString) (consumed : List JsString) : List JsString :=
  if nonce ∈ consumed then consumed else nonce :: consumed

/-- What holds of every element of a nonempty list with its position. -/
theorem forall_getElem?_cons {α : Type} {P : Nat → α → Prop} {a : α} {as : List α} :
    (∀ i b, (a :: as)[i]? = some b → P i b) ↔
      P 0 a ∧ ∀ i b, as[i]? = some b → P (i + 1) b := by
  constructor
  · exact fun h => ⟨h 0 a rfl, fun i b hb => h (i + 1) b hb⟩
  · rintro ⟨ha, has⟩ i b hb
    cases i with
    | zero =>
      cases hb
      exact ha
    | succ i => exact has i b hb

namespace Environment
variable {Key : Type} (env : Environment Key)

/-- Answers a call, and moves the world. -/
def answer : (call : Call Key) → World → Except Thrown call.Answer × World
  | .now, w => (.ok (env.moment w.checks).now, { w with checks := w.checks + 1 })
  | .resolveIssuer approverId keyId, w =>
    ((env.moment (w.checks - 1)).resolveIssuer approverId keyId, w)
  | .verifySignature payload signature publicKey, w =>
    (env.verifySignature payload signature publicKey, w)
  | .checkAndRecord nonce _, w =>
    match (env.moment (w.checks - 1)).storeFails with
    | some (error, recorded) =>
      (.error error,
        { w with consumed := if recorded then record nonce w.consumed else w.consumed })
    | none => (.ok (nonce ∉ w.consumed), { w with consumed := record nonce w.consumed })
  | .fetchDeal businessTransactionId dealId, w => (env.fetchDeal businessTransactionId dealId, w)

/-- Runs a verification. -/
def run {α : Type} (p : Verification Key α) (w : World) : Except Thrown α × World :=
  p.runState env.answer w

@[simp] theorem run_done {α : Type} (r : Except Thrown α) (w : World) :
    env.run (.done r) w = (r, w) := rfl

theorem run_bind {α β : Type} (p : Verification Key α) (f : α → Verification Key β) (w : World) :
    env.run (p >>= f) w =
      match env.run p w with
      | (.ok a, w') => env.run (f a) w'
      | (.error e, w') => (.error e, w') := by
  unfold run
  rw [runState_bind]
  rcases runState env.answer p w with ⟨_ | _, w'⟩ <;> rfl

@[simp] theorem run_now (w : World) :
    env.run now w = (.ok (env.moment w.checks).now, { w with checks := w.checks + 1 }) := rfl

@[simp] theorem run_resolveIssuer (approverId keyId : JsString) (w : World) :
    env.run (resolveIssuer approverId keyId) w =
      ((env.moment (w.checks - 1)).resolveIssuer approverId keyId, w) := rfl

@[simp] theorem run_verifySignature (payload : JsValue) (signature : JsString) (publicKey : Key)
    (w : World) :
    env.run (Approval.verifySignature payload signature publicKey) w =
      (env.verifySignature payload signature publicKey, w) := rfl

theorem run_checkAndRecord (nonce expiresAt : JsString) (w : World) :
    env.run (checkAndRecord nonce expiresAt) w =
      match (env.moment (w.checks - 1)).storeFails with
      | some (error, recorded) => (.error error,
          { w with consumed := if recorded then record nonce w.consumed else w.consumed })
      | none => (.ok (nonce ∉ w.consumed), { w with consumed := record nonce w.consumed }) := rfl

/-! ## One artifact -/

/-- The checks of an artifact at a moment, apart from its nonce. -/
def checksAt (m : Moment Key) (artifact : SignedApproval)
    (request : ApprovalVerificationRequest) : Except Thrown ApprovalChecks := do
  let resolvedIssuer ← m.resolveIssuer artifact.approverId artifact.keyId
  let signatureVerified ← match resolvedIssuer with
    | some issuer =>
      env.verifySignature artifact.payload artifact.signatureValue issuer.publicKey
    | none => .ok false
  return priorChecks env.dateParse m.now resolvedIssuer signatureVerified artifact request

/-- What a verification comes to once its checks are known. -/
theorem run_verify (artifact : SignedApproval) (request : ApprovalVerificationRequest)
    (w : World) :
    env.run (verify env.dateParse artifact request) w =
      match env.checksAt (env.moment w.checks) artifact request with
      | .error e => (.error e, { w with checks := w.checks + 1 })
      | .ok checks =>
        env.run (attemptNonce artifact request checks) { w with checks := w.checks + 1 } := by
  rw [verify, run_bind, run_now]
  simp only [artifact.version_supported, if_true]
  rw [run_bind, run_resolveIssuer, Nat.add_sub_cancel, checksAt]
  cases (env.moment w.checks).resolveIssuer artifact.approverId artifact.keyId with
  | error e => rfl
  | ok resolved =>
    cases resolved with
    | none => rfl
    | some issuer =>
      simp only [ok_bind]
      rw [run_bind, run_verifySignature]
      cases env.verifySignature artifact.payload artifact.signatureValue issuer.publicKey with
      | error e => rfl
      | ok verified => rfl

/-- The approval passes every check but the nonce at this moment. -/
def Approves (m : Moment Key) (a : PendingApproval) : Prop :=
  ∃ checks, env.checksAt m a.artifact a.request = .ok checks ∧ checks.priorPassed = true

/-! ## The first pass -/

/-- Checking an approval without using it: the store is not looked at. -/
theorem run_check (a : PendingApproval) (w : World) :
    env.run (verify env.dateParse a.artifact { a.request with consumeNonce := some false }) w =
      (match env.checksAt (env.moment w.checks) a.artifact a.request with
        | .error e => .error e
        | .ok checks => .ok ⟨checks.priorPassed, { checks with nonceUnseen := checks.priorPassed }⟩,
      { w with checks := w.checks + 1 }) := by
  rw [run_verify]
  have hchecks : env.checksAt (env.moment w.checks) a.artifact
      { a.request with consumeNonce := some false } =
      env.checksAt (env.moment w.checks) a.artifact a.request := rfl
  rw [hchecks]
  cases env.checksAt (env.moment w.checks) a.artifact a.request with
  | error e => rfl
  | ok checks =>
    dsimp only
    rw [attemptNonce]
    cases checks.priorPassed <;> simp

/-- The approvals of a pass all pass at the moments of the pass, which starts
with check number `n`. -/
def AllApprove (n : Nat) (as : List PendingApproval) : Prop :=
  ∀ i a, as[i]? = some a → env.Approves (env.moment (n + i)) a

/-- What an approval's checks come to in a first pass that every approval passes. -/
theorem AllApprove.passed {n i : Nat} {as : List PendingApproval} {a : PendingApproval}
    (h : env.AllApprove n as) (ha : as[i]? = some a) :
    (env.checksAt (env.moment (n + i)) a.artifact a.request).map ApprovalChecks.priorPassed =
      .ok true := by
  obtain ⟨checks, hok, hpassed⟩ := h i a ha
  rw [hok, Except.map, hpassed]

theorem allApprove_cons {n : Nat} {a : PendingApproval} {as : List PendingApproval} :
    env.AllApprove n (a :: as) ↔ env.Approves (env.moment n) a ∧ env.AllApprove (n + 1) as := by
  unfold AllApprove
  rw [forall_getElem?_cons]
  simp only [Nat.add_zero, Nat.add_assoc, Nat.add_comm 1]

/-- **The first pass** records nothing, and finds no violation exactly when every
approval passes at its moment. -/
theorem run_checkPass (as : List PendingApproval) (w : World) :
    ∃ r k, env.run (verifyAll env.dateParse false as) w = (r, { w with checks := k }) ∧
      (r = .ok [] ↔ env.AllApprove w.checks as) ∧ (∀ vs, r = .ok vs → k = w.checks + as.length) := by
  induction as generalizing w with
  | nil =>
    refine ⟨.ok [], w.checks, rfl, ?_, fun _ _ => rfl⟩
    exact iff_of_true rfl (fun i a ha => by cases ha)
  | cons a as ih =>
    obtain ⟨r, k, hrun, hiff, hk⟩ := ih { w with checks := w.checks + 1 }
    replace hk : ∀ vs, r = .ok vs → k = w.checks + 1 + as.length := hk
    rw [verifyAll, run_bind, run_check, allApprove_cons]
    unfold Approves
    cases hchecks : env.checksAt (env.moment w.checks) a.artifact a.request with
    | error e => exact ⟨.error e, w.checks + 1, rfl, by simp, fun _ h => (nomatch h)⟩
    | ok checks =>
      dsimp only
      rw [run_bind, hrun]
      cases r with
      | error e =>
        refine ⟨.error e, k, rfl, iff_of_false nofun fun h => ?_, fun _ h => (nomatch h)⟩
        cases hiff.mpr h.2
      | ok vs =>
        cases hp : checks.priorPassed with
        | true =>
          refine ⟨.ok vs, k, rfl, ?_, fun _ _ => ?_⟩
          · rw [hiff]
            exact ⟨fun h => ⟨⟨checks, rfl, hp⟩, h⟩, fun h => h.2⟩
          · rw [hk vs rfl, List.length_cons]
            omega
        | false =>
          refine ⟨.ok (refused a.signalKey :: vs), k, rfl, iff_of_false nofun ?_, fun _ _ => ?_⟩
          · rintro ⟨⟨_, hc, hpassed⟩, -⟩
            cases hc
            rw [hp] at hpassed
            cases hpassed
          · rw [hk vs rfl, List.length_cons]
            omega

/-! ## The second pass -/

theorem mem_record {n x : JsString} {consumed : List JsString} :
    x ∈ record n consumed ↔ x = n ∨ x ∈ consumed := by
  unfold record
  split
  · rename_i hn
    exact ⟨.inr, fun h => h.elim (fun he => he ▸ hn) id⟩
  · exact List.mem_cons

/-- Using an approval at a moment throws: a check of it does, or the store. -/
def Throws (m : Moment Key) (a : PendingApproval) : Prop :=
  (∃ e, env.checksAt m a.artifact a.request = .error e) ∨
    (env.Approves m a ∧ m.storeFails ≠ none)

/-- In a second pass that starts with check number `n` and this store, approval
number `i` is the first with its nonce: it is not in the store, and no approval
used before it has it. -/
def Fresh (n : Nat) (consumed : List JsString) (as : List PendingApproval) (i : Nat)
    (a : PendingApproval) : Prop :=
  a.artifact.nonce ∉ consumed ∧
    ∀ k b, k < i → as[k]? = some b → env.Approves (env.moment (n + k)) b →
      b.artifact.nonce ≠ a.artifact.nonce

/-- Approval number `i` of a second pass can be used: its checks pass again, and
it is the first with its nonce. -/
def Usable (n : Nat) (consumed : List JsString) (as : List PendingApproval) (i : Nat)
    (a : PendingApproval) : Prop :=
  env.Approves (env.moment (n + i)) a ∧ env.Fresh n consumed as i a

/-- What using one approval comes to. -/
theorem run_use (a : PendingApproval) (w : World) :
    env.run (verify env.dateParse a.artifact { a.request with consumeNonce := some true }) w =
      match env.checksAt (env.moment w.checks) a.artifact a.request with
      | .error e => (.error e, { w with checks := w.checks + 1 })
      | .ok checks =>
        if checks.priorPassed then
          match (env.moment w.checks).storeFails with
          | some (e, recorded) => (.error e, ⟨w.checks + 1,
              if recorded then record a.artifact.nonce w.consumed else w.consumed⟩)
          | none => (.ok ⟨a.artifact.nonce ∉ w.consumed,
              { checks with nonceUnseen := a.artifact.nonce ∉ w.consumed }⟩,
              ⟨w.checks + 1, record a.artifact.nonce w.consumed⟩)
        else (.ok ⟨false, { checks with nonceUnseen := false }⟩,
          { w with checks := w.checks + 1 }) := by
  rw [run_verify]
  have hchecks : env.checksAt (env.moment w.checks) a.artifact
      { a.request with consumeNonce := some true } =
      env.checksAt (env.moment w.checks) a.artifact a.request := rfl
  rw [hchecks]
  cases env.checksAt (env.moment w.checks) a.artifact a.request with
  | error e => rfl
  | ok checks =>
    dsimp only
    rw [attemptNonce]
    cases checks.priorPassed with
    | false => simp
    | true =>
      simp only [Bool.not_true, Bool.false_eq_true, if_false, if_true, run_bind,
        run_checkAndRecord, Nat.add_sub_cancel, Bool.true_and, ne_eq, Option.some.injEq,
        Bool.true_eq_false, not_false_eq_true]
      rcases (env.moment w.checks).storeFails with _ | ⟨e, recorded⟩ <;> rfl

theorem answer_consumed (call : Call Key) (w : World) :
    (env.answer call w).2.consumed = w.consumed ∨
      ∃ nonce, (env.answer call w).2.consumed = record nonce w.consumed := by
  cases call with
  | checkAndRecord nonce expiresAt =>
    simp only [answer]
    split
    · rename_i e recorded _
      cases recorded
      · exact .inl rfl
      · exact .inr ⟨nonce, rfl⟩
    · exact .inr ⟨nonce, rfl⟩
  | _ => exact .inl rfl

/-- Nothing is ever taken out of the store. -/
theorem mem_run_consumed {α : Type} (p : Verification Key α) {w : World} {x : JsString}
    (hx : x ∈ w.consumed) : x ∈ (env.run p w).2.consumed := by
  induction p generalizing w with
  | done r => exact hx
  | call op k ih =>
    refine ih (env.answer op w).1 ?_
    rcases env.answer_consumed op w with h | ⟨nonce, h⟩
    · rwa [h]
    · rw [h]
      exact mem_record.mpr (.inr hx)

/-- The store after the approval at the head of a pass, when nothing throws. -/
def After (m : Moment Key) (a : PendingApproval) (consumed consumed' : List JsString) : Prop :=
  (∀ x, x ∈ consumed' ↔ x ∈ consumed ∨ (env.Approves m a ∧ x = a.artifact.nonce)) ∧
    (consumed' = consumed ∨ (env.Approves m a ∧ a.artifact.nonce ∉ consumed))

/-- The head of a second pass, when using it does not throw. -/
theorem run_usePass_cons {a : PendingApproval} (as : List PendingApproval) {w : World}
    (h : ¬ env.Throws (env.moment w.checks) a) :
    ∃ consumed' valid, env.After (env.moment w.checks) a w.consumed consumed' ∧
      (valid = true ↔ env.Approves (env.moment w.checks) a ∧ a.artifact.nonce ∉ w.consumed) ∧
      env.run (verifyAll env.dateParse true (a :: as)) w =
        match env.run (verifyAll env.dateParse true as) ⟨w.checks + 1, consumed'⟩ with
        | (.ok vs, w') => (.ok (if valid then vs else refused a.signalKey :: vs), w')
        | (.error e, w') => (.error e, w') := by
  rw [verifyAll, run_bind, run_use]
  unfold Throws Approves at h
  unfold After Approves
  cases hchecks : env.checksAt (env.moment w.checks) a.artifact a.request with
  | error e => exact absurd (.inl ⟨e, hchecks⟩) h
  | ok checks =>
    dsimp only
    cases hp : checks.priorPassed with
    | false =>
      refine ⟨w.consumed, false, ⟨fun x => ?_, .inl rfl⟩, ?_, ?_⟩
      · simp [hp]
      · simp [hp]
      · simp only [Bool.false_eq_true, if_false]
        rw [run_bind]
        rcases env.run (verifyAll env.dateParse true as) ⟨w.checks + 1, w.consumed⟩ with ⟨_ | _, w'⟩
          <;> rfl
    | true =>
      have hstore : (env.moment w.checks).storeFails = none := by
        by_contra hne
        exact h (.inr ⟨⟨checks, hchecks, hp⟩, hne⟩)
      refine ⟨record a.artifact.nonce w.consumed, decide (a.artifact.nonce ∉ w.consumed),
        ⟨fun x => ?_, ?_⟩, ?_, ?_⟩
      · simp [hp, mem_record, or_comm]
      · by_cases hmem : a.artifact.nonce ∈ w.consumed
        · exact .inl (if_pos hmem)
        · exact .inr ⟨⟨checks, rfl, hp⟩, hmem⟩
      · simp [hp]
      · rw [hstore]
        simp only [if_true]
        rw [run_bind]
        rcases env.run (verifyAll env.dateParse true as)
          ⟨w.checks + 1, record a.artifact.nonce w.consumed⟩ with ⟨_ | vs, w'⟩
        · rfl
        · by_cases hmem : a.artifact.nonce ∈ w.consumed <;> simp [hmem]

/-- The store keeps what it is given at this moment, whether or not it throws. -/
def Stores (m : Moment Key) : Prop := ∀ e, m.storeFails ≠ some (e, false)

/-- Using an approval at a moment changes this store: its checks pass, its nonce
is new, and the store keeps it. -/
def Uses (m : Moment Key) (consumed : List JsString) (a : PendingApproval) : Prop :=
  env.Approves m a ∧ a.artifact.nonce ∉ consumed ∧ Stores m

theorem record_eq_self {n : JsString} {consumed : List JsString} :
    record n consumed = consumed ↔ n ∈ consumed := by
  unfold record
  split
  · rename_i hmem
    exact iff_of_true rfl hmem
  · rename_i hmem
    exact iff_of_false (fun h => absurd (congrArg List.length h) (by simp)) hmem

/-- What using one approval leaves in the store, and what it says of an approval
that is used. -/
theorem run_use_uses (a : PendingApproval) (w : World) :
    ∃ r w', env.run (verify env.dateParse a.artifact { a.request with consumeNonce := some true })
        w = (r, w') ∧
      (w'.consumed = w.consumed ↔ ¬ env.Uses (env.moment w.checks) w.consumed a) ∧
      (env.Uses (env.moment w.checks) w.consumed a →
        match (env.moment w.checks).storeFails with
        | some (e, _) => r = .error e
        | none => ∃ checks, r = .ok ⟨true, checks⟩) := by
  rw [run_use]
  unfold Uses Approves Stores
  cases env.checksAt (env.moment w.checks) a.artifact a.request with
  | error e => exact ⟨_, _, rfl, by simp, fun h => (nomatch h.1)⟩
  | ok checks =>
    dsimp only
    cases hp : checks.priorPassed with
    | false =>
      rw [if_neg Bool.false_ne_true]
      exact ⟨_, _, rfl, by simp [hp], by simp [hp]⟩
    | true =>
      rw [if_pos rfl]
      rcases hstore : (env.moment w.checks).storeFails with _ | ⟨e, recorded⟩
      · exact ⟨_, _, rfl, by simp [hp, record_eq_self], fun h => by simp [h.2.1]⟩
      · cases recorded with
        | false => exact ⟨_, _, rfl, by simp, by simp⟩
        | true => exact ⟨_, _, rfl, by simp [hp, record_eq_self], fun _ => rfl⟩

/-- The head of a second pass, when using it throws. -/
theorem run_usePass_throws {a : PendingApproval} (as : List PendingApproval) {w : World}
    (h : env.Throws (env.moment w.checks) a) :
    ∃ e consumed', env.run (verifyAll env.dateParse true (a :: as)) w =
        (.error e, ⟨w.checks + 1, consumed'⟩) ∧
      (consumed' = w.consumed ↔ ¬ (env.Approves (env.moment w.checks) a ∧
        a.artifact.nonce ∉ w.consumed ∧ Stores (env.moment w.checks))) := by
  rw [verifyAll, run_bind, run_use]
  unfold Throws Approves at h
  unfold Approves
  cases hchecks : env.checksAt (env.moment w.checks) a.artifact a.request with
  | error e => exact ⟨e, w.consumed, rfl, by simp⟩
  | ok checks =>
    rw [hchecks] at h
    rcases h with ⟨_, h⟩ | ⟨⟨_, hc, hp⟩, hne⟩
    · cases h
    cases hc
    obtain ⟨⟨e, recorded⟩, hstore⟩ := Option.ne_none_iff_exists'.mp hne
    refine ⟨e, if recorded then record a.artifact.nonce w.consumed else w.consumed,
      by simp only [hp, if_true, hstore], ?_⟩
    unfold Stores record
    cases recorded with
    | false => simp [hstore]
    | true =>
      by_cases hmem : a.artifact.nonce ∈ w.consumed
      · simp [hmem]
      · simp [hmem, hstore, hp]

/-- No approval before number `i` throws. -/
def Reached (n : Nat) (as : List PendingApproval) (i : Nat) : Prop :=
  ∀ k b, as[k]? = some b → k < i → ¬ env.Throws (env.moment (n + k)) b

theorem reached_succ {n i : Nat} {a : PendingApproval} {as : List PendingApproval} :
    env.Reached n (a :: as) (i + 1) ↔
      ¬ env.Throws (env.moment n) a ∧ env.Reached (n + 1) as i := by
  unfold Reached
  rw [forall_getElem?_cons]
  simp only [Nat.add_zero, Nat.add_assoc, Nat.add_comm 1, Nat.zero_lt_succ, forall_const,
    Nat.add_lt_add_iff_right]

section Cons
variable {env} {n : Nat} {consumed consumed' : List JsString} {a : PendingApproval}
  {as : List PendingApproval}

theorem usable_zero : env.Usable n consumed (a :: as) 0 a ↔
    env.Approves (env.moment n) a ∧ a.artifact.nonce ∉ consumed := by
  simp [Usable, Fresh]

/-- What is left to use after the head has been used. -/
theorem usable_succ (hafter : env.After (env.moment n) a consumed consumed') {i : Nat}
    {b : PendingApproval} :
    env.Usable n consumed (a :: as) (i + 1) b ↔ env.Usable (n + 1) consumed' as i b := by
  unfold Usable Fresh
  rw [hafter.1, show n + (i + 1) = n + 1 + i by omega]
  have hbefore : (∀ k c, k < i + 1 → (a :: as)[k]? = some c →
        env.Approves (env.moment (n + k)) c → c.artifact.nonce ≠ b.artifact.nonce) ↔
      (env.Approves (env.moment n) a → a.artifact.nonce ≠ b.artifact.nonce) ∧
        ∀ k c, k < i → as[k]? = some c → env.Approves (env.moment (n + 1 + k)) c →
          c.artifact.nonce ≠ b.artifact.nonce := by
    constructor
    · refine fun h => ⟨h 0 a (Nat.zero_lt_succ i) rfl, fun k c hk hc => ?_⟩
      rw [show n + 1 + k = n + (k + 1) by omega]
      exact h (k + 1) c (Nat.succ_lt_succ hk) hc
    · rintro ⟨hhead, htail⟩ k c hk hc
      cases k with
      | zero =>
        cases hc
        exact hhead
      | succ k =>
        rw [show n + (k + 1) = n + 1 + k by omega]
        exact htail k c (Nat.lt_of_succ_lt_succ hk) hc
  rw [hbefore]
  constructor
  · rintro ⟨happroves, hnot, hhead, htail⟩
    exact ⟨happroves, fun h => h.elim hnot fun ⟨ha, he⟩ => hhead ha he.symm, htail⟩
  · rintro ⟨happroves, hnot, htail⟩
    exact ⟨happroves, fun h => hnot (.inl h), fun ha he => hnot (.inr ⟨ha, he.symm⟩), htail⟩

end Cons

/-- **The second pass.**  It returns unless using an approval throws; it returns
no violation exactly when every approval can be used; and it leaves the store as
it was exactly when no approval it comes to can be used. -/
theorem run_usePass (as : List PendingApproval) (w : World) :
    ((∃ vs, (env.run (verifyAll env.dateParse true as) w).1 = .ok vs) ↔
      ∀ i a, as[i]? = some a → ¬ env.Throws (env.moment (w.checks + i)) a) ∧
    ((env.run (verifyAll env.dateParse true as) w).1 = .ok [] ↔
      ∀ i a, as[i]? = some a → ¬ env.Throws (env.moment (w.checks + i)) a ∧
        env.Usable w.checks w.consumed as i a) ∧
    ((env.run (verifyAll env.dateParse true as) w).2.consumed = w.consumed ↔
      ∀ i a, as[i]? = some a → env.Reached w.checks as i →
        ¬ (env.Usable w.checks w.consumed as i a ∧ Stores (env.moment (w.checks + i)))) := by
  induction as generalizing w with
  | nil => exact ⟨by simp [verifyAll, run], by simp [verifyAll, run], by simp [verifyAll, run]⟩
  | cons a as ih =>
    rw [forall_getElem?_cons, forall_getElem?_cons, forall_getElem?_cons, Nat.add_zero]
    by_cases ht : env.Throws (env.moment w.checks) a
    · obtain ⟨e, consumed', hrun, hconsumed⟩ := env.run_usePass_throws as ht
      rw [hrun, usable_zero]
      refine ⟨iff_of_false nofun fun h => h.1 ht, iff_of_false nofun fun h => h.1.1 ht, ?_⟩
      rw [hconsumed]
      refine ⟨fun h => ⟨fun _ hu => h ⟨hu.1.1, hu.1.2, hu.2⟩, fun i b _ hr => ?_⟩,
        fun h hu => h.1 (fun k _ _ hk => absurd hk (Nat.not_lt_zero k)) ⟨⟨hu.1, hu.2.1⟩, hu.2.2⟩⟩
      exact absurd ht (env.reached_succ.mp hr).1
    · obtain ⟨consumed', valid, hafter, hvalid, hrun⟩ := env.run_usePass_cons as ht
      obtain ⟨hreturns, hnone, hstore⟩ := ih ⟨w.checks + 1, consumed'⟩
      have hshift : ∀ i, env.moment (w.checks + (i + 1)) = env.moment (w.checks + 1 + i) :=
        fun i => congrArg env.moment (by omega)
      simp only [usable_succ hafter, usable_zero, env.reached_succ, ht, not_false_eq_true, true_and,
        hshift]
      rw [hrun, ← hreturns, ← hnone, ← hvalid]
      refine ⟨?_, ?_, ?_⟩
      · rcases env.run (verifyAll env.dateParse true as) ⟨w.checks + 1, consumed'⟩ with ⟨_ | vs, w'⟩
          <;> simp
      · rcases env.run (verifyAll env.dateParse true as) ⟨w.checks + 1, consumed'⟩ with ⟨_ | vs, w'⟩
        · simp
        · cases valid <;> simp
      · have hfinal : (match env.run (verifyAll env.dateParse true as) ⟨w.checks + 1, consumed'⟩ with
            | (.ok vs, w') =>
              ((.ok (if valid then vs else refused a.signalKey :: vs) : Except Thrown _), w')
            | (.error e, w') => (.error e, w')).2.consumed =
            (env.run (verifyAll env.dateParse true as) ⟨w.checks + 1, consumed'⟩).2.consumed := by
          rcases env.run (verifyAll env.dateParse true as) ⟨w.checks + 1, consumed'⟩ with
            ⟨_ | vs, w'⟩ <;> rfl
        rw [hfinal]
        by_cases hused : env.Approves (env.moment w.checks) a ∧ a.artifact.nonce ∉ w.consumed
        · -- The head is used: its nonce is new, and stays in the store.
          have hstores : Stores (env.moment w.checks) := by
            intro e he
            exact ht (.inr ⟨hused.1, by simp [he]⟩)
          refine iff_of_false (fun heq => ?_) fun h => h.1 ?_ ⟨hvalid.mpr hused, hstores⟩
          · have hmem := env.mem_run_consumed (verifyAll env.dateParse true as)
              (w := ⟨w.checks + 1, consumed'⟩) ((hafter.1 _).mpr (.inr ⟨hused.1, rfl⟩))
            rw [heq] at hmem
            exact hused.2 hmem
          · exact fun k _ _ hk => absurd hk (Nat.not_lt_zero k)
        · obtain hsame : consumed' = w.consumed := hafter.2.resolve_right hused
          subst hsame
          rw [hstore]
          exact ⟨fun h => ⟨fun _ hu => hused (hvalid.mp hu.1), h⟩, fun h => h.2⟩

end Environment

end Parmana.Approval

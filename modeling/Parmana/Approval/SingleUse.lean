import Parmana.Approval.Environment

/-! # Refusals and the nonce store

`ApprovalSignalVerifier` checks every approval before it uses any, so that a
request refused for one approval does not use up another.  The first pass does
that.  The second pass uses the approvals one after another, and an approval can
still fail there after another one has been used: its nonce is already in the
store, or is the nonce of an approval used before it, or its checks no longer
pass.  **A refused request leaves the store as it was exactly when the second pass
does not come to that** (`refusal_keeps_store_iff`).
-/
namespace Parmana.Approval
open Js Interaction Interaction.Program

/-- The request gets as far as the first pass with these approvals: the policy
declares approval signals, and each one that is true has a resource, a value and
a well-formed artifact. -/
def Prepared (request : SignalStateVerificationRequest) (signals : Fields)
    (as : List PendingApproval) : Prop :=
  ∃ policy declarations, request.policy = some policy ∧
    (JsValue.json policy).member "approvalSignals" = (.ok declarations : Except Thrown JsValue) ∧
    declarations ≠ .undefined ∧ declarations ≠ .json .null ∧
    prepareAll request signals (trueEntries signals (sortedEntries declarations)) = .ok ([], as)

namespace Environment
variable {Key : Type} (env : Environment Key) {request : SignalStateVerificationRequest}
  {signals : Fields}

/-- Everything up to the end of the first pass records nothing. -/
theorem run_checkApprovals (request : SignalStateVerificationRequest) (signals : Fields)
    {declarations : JsValue} (hnull : declarations ≠ .json .null) (w : World) :
    ∃ r k, env.run (checkApprovals env.dateParse request signals declarations) w =
        (r, { w with checks := k }) ∧
      (∀ as, r = .ok ([], as) ↔
        prepareAll request signals (trueEntries signals (sortedEntries declarations)) =
          .ok ([], as) ∧ env.AllApprove w.checks as) ∧
      (∀ vs as, r = .ok (vs, as) → k = w.checks + as.length) := by
  rw [checkApprovals, if_neg hnull]
  cases hprepare : prepareAll request signals (trueEntries signals (sortedEntries declarations)) with
  | error e => exact ⟨.error e, w.checks, rfl, by simp, by simp⟩
  | ok prepared =>
    obtain ⟨violations, pending⟩ := prepared
    obtain ⟨r, k, hrun, hiff, hk⟩ := env.run_checkPass pending w
    simp only [done_ok_bind]
    rw [run_bind, hrun]
    cases r with
    | error e =>
      refine ⟨.error e, k, rfl, fun as => iff_of_false nofun ?_, by simp⟩
      rintro ⟨h, hall⟩
      cases h
      cases hiff.mpr hall
    | ok refusals =>
      refine ⟨.ok (violations ++ refusals, pending), k, rfl, fun as => ?_, fun vs as h => ?_⟩
      · simp only [Except.ok.injEq, Prod.mk.injEq, List.append_eq_nil_iff] at hiff ⊢
        constructor
        · rintro ⟨⟨rfl, hr⟩, rfl⟩
          exact ⟨⟨rfl, rfl⟩, hiff.mp hr⟩
        · rintro ⟨⟨rfl, rfl⟩, hall⟩
          exact ⟨⟨rfl, hiff.mpr hall⟩, rfl⟩
      · cases h
        exact hk refusals rfl

/-- A request whose approvals all pass goes on to use them. -/
theorem run_findViolations_use (hstage : request.stage ≠ some .release)
    {as : List PendingApproval} {w : World} (hprepared : Prepared request signals as)
    (hall : env.AllApprove w.checks as) :
    env.run (findViolations env.dateParse request signals) w =
      env.run (verifyAll env.dateParse true as) ⟨w.checks + as.length, w.consumed⟩ := by
  obtain ⟨policy, declarations, hpolicy, hmember, hundefined, hnull, hprepare⟩ := hprepared
  obtain ⟨r, k, hrun, hiff, hk⟩ := env.run_checkApprovals request signals hnull w
  have hr := (hiff as).mpr ⟨hprepare, hall⟩
  rw [findViolations, hpolicy]
  simp only [hmember, done_ok_bind, if_neg hundefined]
  rw [run_bind, hrun, hr, hk _ _ hr]
  simp [hstage]

/-- Any other request leaves the store as it was. -/
theorem run_findViolations_keep {w : World}
    (h : ¬ ∃ as, Prepared request signals as ∧ env.AllApprove w.checks as) :
    (env.run (findViolations env.dateParse request signals) w).2.consumed = w.consumed := by
  rw [findViolations]
  split
  · split <;> rfl
  · rename_i policy hpolicy
    cases hmember : ((JsValue.json policy).member "approvalSignals" : Except Thrown JsValue) with
    | error e => rfl
    | ok declarations =>
      simp only [done_ok_bind]
      by_cases hundefined : declarations = .undefined
      · rw [if_pos hundefined]
        rfl
      rw [if_neg hundefined]
      by_cases hnull : declarations = .json .null
      · rw [checkApprovals, if_pos hnull]
        rfl
      obtain ⟨r, k, hrun, hiff, -⟩ := env.run_checkApprovals request signals hnull w
      rw [run_bind, hrun]
      cases r with
      | error e => rfl
      | ok found =>
        obtain ⟨violations, pending⟩ := found
        cases violations with
        | cons v vs => simp
        | nil =>
          obtain ⟨hprepare, hall⟩ := (hiff pending).mp rfl
          exact absurd ⟨pending, ⟨policy, declarations, hpolicy, hmember, hundefined, hnull, hprepare⟩,
            hall⟩ h

/-- The second pass over these approvals, which starts with check number `n` and
this store, runs to its end, uses one approval and refuses another. -/
def UsesAndRefuses (n : Nat) (consumed : List JsString) (as : List PendingApproval) : Prop :=
  (∀ i a, as[i]? = some a → ¬ env.Throws (env.moment (n + i)) a) ∧
    (∃ i a, as[i]? = some a ∧ env.Usable n consumed as i a) ∧
    ∃ j b, as[j]? = some b ∧ ¬ env.Usable n consumed as j b

/-- An approval that can be used without a throw is kept by the store. -/
theorem stores_of_usable {n i : Nat} {consumed : List JsString} {as : List PendingApproval}
    {a : PendingApproval} (h : env.Usable n consumed as i a)
    (ht : ¬ env.Throws (env.moment (n + i)) a) : Stores (env.moment (n + i)) :=
  fun _ he => ht (.inr ⟨h.1, by simp [he]⟩)

/-- **A refusal at authorization leaves the nonce store as it was unless every
approval passes the first pass and the second pass uses one and refuses
another.** -/
theorem refusal_keeps_store_iff (request : SignalStateVerificationRequest) (signals : Fields)
    (w : World) (hstage : request.stage ≠ some .release) :
    (∀ vs, (env.run (findViolations env.dateParse request signals) w).1 = .ok vs → vs ≠ [] →
      (env.run (findViolations env.dateParse request signals) w).2.consumed = w.consumed) ↔
    ¬ ∃ as, Prepared request signals as ∧ env.AllApprove w.checks as ∧
      env.UsesAndRefuses (w.checks + as.length) w.consumed as := by
  constructor
  · rintro hkeeps ⟨as, hprepared, hall, hthrows, ⟨i, a, ha, husable⟩, j, b, hb, hnot⟩
    rw [env.run_findViolations_use hstage hprepared hall] at hkeeps
    obtain ⟨hreturns, hnone, hstore⟩ := env.run_usePass as ⟨w.checks + as.length, w.consumed⟩
    obtain ⟨vs, hvs⟩ := hreturns.mpr hthrows
    have hrefused : vs ≠ [] := by
      rintro rfl
      exact hnot (hnone.mp hvs j b hb).2
    exact hstore.mp (hkeeps vs hvs hrefused) i a ha (fun k c hc _ => hthrows k c hc)
      ⟨husable, env.stores_of_usable husable (hthrows i a ha)⟩
  · intro hnot vs hvs hrefused
    by_cases h : ∃ as, Prepared request signals as ∧ env.AllApprove w.checks as
    · obtain ⟨as, hprepared, hall⟩ := h
      rw [env.run_findViolations_use hstage hprepared hall] at hvs ⊢
      obtain ⟨hreturns, hnone, hstore⟩ := env.run_usePass as ⟨w.checks + as.length, w.consumed⟩
      have hthrows := hreturns.mp ⟨vs, hvs⟩
      refine hstore.mpr fun i a ha _ hused => hnot ⟨as, hprepared, hall, hthrows,
        ⟨i, a, ha, hused.1⟩, ?_⟩
      by_contra hall'
      push Not at hall'
      have hok := hnone.mpr fun j b hb => ⟨hthrows j b hb, hall' j b hb⟩
      rw [hvs] at hok
      exact hrefused (Except.ok.inj hok)
    · exact env.run_findViolations_keep h

end Environment

/-! ## One artifact for two signals -/

/-- An approval, with this nonce, of an action on the resource of this name. -/
def approvalWith (nonce capability resourceId : JsString) : Json :=
  .obj [("payload", .obj [("version", .num (.ofNat 1)), ("approvalId", "approval-1"),
      ("issuer", .obj [("approverId", "manager"), ("keyId", "key-1")]),
      ("issuedAt", "2026-01-01T00:00:00.000Z"), ("expiresAt", "2026-01-02T00:00:00.000Z"),
      ("capability", .str capability), ("resourceId", .str resourceId),
      ("scope", .obj [("field", "order"), ("comparator", "eq"), ("value", .str resourceId)]),
      ("nonce", .str nonce)]),
    ("signature", .obj [("value", "c2lnbmF0dXJl"), ("algorithm", "ed25519"), ("keyId", "key-1")])]

/-- An approval of an action on the resource of this name. -/
def approvalFor (capability resourceId : JsString) : Json :=
  approvalWith "nonce-1" capability resourceId

/-- An approval of a refund for the resource of this name. -/
def refundApprovalFor (resourceId : JsString) : Json := approvalFor "refund" resourceId

/-- An approval of a refund for `order-1`. -/
def refundApproval : Json := refundApprovalFor "order-1"

/-- An environment with a valid signature and a trusted approver, before the
approval expires. -/
def trustingEnvironment : Environment Unit where
  dateParse _ := some 1000
  verifySignature _ _ _ := .ok true
  fetchDeal _ _ := .ok none
  moment _ := ⟨0, fun _ _ => .ok (some ⟨(), false⟩), none⟩

/-- A request for a refund of `order-1` under a policy with these declarations. -/
def refundRequest (declarations : Fields) : SignalStateVerificationRequest :=
  ⟨"refund", "transaction-1", some [], some "order-1", some .authorize,
    some (.obj [("approvalSignals", .obj declarations)])⟩

/-- The approval of the manager and of finance are declared apart. -/
def twoApprovals : Fields :=
  [("financeApproved", .obj [("resourceId", "target"), ("artifact", "financeApproval")]),
    ("managerApproved", .obj [("resourceId", "target"), ("artifact", "managerApproval")])]

/-- One artifact is presented for both: the first signal uses it, the second is
refused, and the request with it. -/
theorem sameArtifact_burned :
    trustingEnvironment.run (findViolations trustingEnvironment.dateParse
      (refundRequest twoApprovals)
      [("financeApproved", .bool true), ("managerApproved", .bool true),
        ("financeApproval", refundApproval), ("managerApproval", refundApproval)]) ⟨0, []⟩ =
      (.ok [refused "managerApproved"], ⟨4, ["nonce-1"]⟩) := by
  decide

/-- Only the approval of the manager is declared. -/
def oneApproval : Fields := [("managerApproved", .obj [("resourceId", "target")])]

/-- The manager's approval and the signal it backs. -/
def managerSignals : Fields := [("managerApproved", .bool true), ("approvalArtifact", refundApproval)]

/-- Finance approves `order-1`, the manager another order. -/
def mixedSignals : Fields :=
  [("financeApproved", .bool true), ("managerApproved", .bool true),
    ("financeApproval", refundApproval),
    ("managerApproval", approvalWith "nonce-2" "refund" "order-2")]

/-- The two approvals of a request are looked at before either is used: the manager's
is refused, and finance's stays unused. -/
theorem mixedApprovals_keep_store :
    (trustingEnvironment.run (findViolations trustingEnvironment.dateParse
      (refundRequest twoApprovals) mixedSignals) ⟨0, []⟩).1 = .ok [refused "managerApproved"] ∧
    (trustingEnvironment.run (findViolations trustingEnvironment.dateParse
      (refundRequest twoApprovals) mixedSignals) ⟨0, []⟩).2.consumed = [] := by
  have hrefused : (trustingEnvironment.run (findViolations trustingEnvironment.dateParse
      (refundRequest twoApprovals) mixedSignals) ⟨0, []⟩).1 = .ok [refused "managerApproved"] := by
    decide
  refine ⟨hrefused, (trustingEnvironment.refusal_keeps_store_iff (refundRequest twoApprovals)
    mixedSignals ⟨0, []⟩ (by decide)).mpr ?_ _ hrefused (List.cons_ne_nil _ _)⟩
  rintro ⟨as, ⟨policy, declarations, hpolicy, hmember, -, -, hprepare⟩, hall, -⟩
  cases hpolicy
  cases hmember
  -- What the first pass finds of each approval.
  have hchecks : (prepareAll (refundRequest twoApprovals) mixedSignals
      (trueEntries mixedSignals (sortedEntries (.json (.obj twoApprovals))))).map
      (fun p => p.2.map fun a => (trustingEnvironment.checksAt (trustingEnvironment.moment 0)
        a.artifact a.request).map ApprovalChecks.priorPassed) = .ok [.ok true, .ok false] := by
    decide
  erw [hprepare] at hchecks
  have hsecond := congrArg (fun l => l[1]?) (Except.ok.inj hchecks)
  rw [List.getElem?_map] at hsecond
  obtain ⟨manager, hmanager, hfails⟩ := Option.map_eq_some_iff.mp hsecond
  have hpassed := Environment.AllApprove.passed _ hall hmanager
  exact absurd (hfails.symm.trans hpassed) (by simp)

end Parmana.Approval

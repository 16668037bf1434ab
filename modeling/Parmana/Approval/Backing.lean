import Parmana.Approval.SingleUse

/-! # What stands behind an approval signal

`ApprovalBacked` says what a signed approval must be for a declared signal that
is true: who issued it, what it was signed over, what it names and how far it
reaches, each read from the artifact, the registry and the Intent, and none from
the signal itself.  The checks that establish it are spread over the shape guard,
the path resolution, the issuer registry, the signature check and the scope
evaluator.  **They establish exactly it** (`noViolation_iff_backed`): a pass over
the approvals that uses none reports no violation if and only if every declared
signal that is true is backed.
-/
namespace Parmana.Approval
open Js Interaction Interaction.Program

variable {Key : Type}

/-! ## The specification -/

/-- The Intent's value at a path: its target, or a value below its parameters. -/
inductive IntentValue (request : SignalStateVerificationRequest) (path : JsString) :
    JsValue → Prop where
  | target (h : path = "target") : IntentValue request path (targetValue request)
  | parameter {keys} (h : path.splitDots = ("parameters" : JsString) :: keys) (hkeys : keys ≠ []) :
      IntentValue request path (keys.foldl JsValue.get (parametersValue request))

/-- The resource a path names: a string that is not empty, or the text of a
finite number. -/
inductive IntentResource (request : SignalStateVerificationRequest) (path resource : JsString) :
    Prop where
  | string (h : IntentValue request path (.json (.str resource))) (hne : resource ≠ "")
  | number {n : JsNumber} (h : IntentValue request path (.json (.num n)))
      (hfinite : n.isFinite = true) (htext : resource = n.toText)

/-- The scope of an approval reaches the request: it covers the number at the
declared value path, or names exactly the resource when none is declared. -/
inductive InScope (request : SignalStateVerificationRequest) (declaration scope : JsValue)
    (resource : JsString) : Prop where
  | value {path : JsString} {n : JsNumber} (h : declaration.get "value" = .json (.str path))
      (hvalue : IntentValue request path (.json (.num n))) (hfinite : n.isFinite = true)
      (hcovers : Covers scope (.json (.num n)))
  | resource (h : declaration.get "value" = .undefined)
      (hcomparator : scope.get "comparator" = .json "eq")
      (hvalue : scope.get "value" = .json (.str resource))

/-- An approval stands behind a declared signal at a moment.  `Resource` says
which resource a path names. -/
structure ApprovalBackedBy (Resource : SignalStateVerificationRequest → JsString → JsString → Prop)
    (env : Environment Key) (m : Moment Key) (request : SignalStateVerificationRequest)
    (signals : Fields) (declaration : Json) (a : SignedApproval) : Prop where
  presented : ∃ name, artifactSignal (.json declaration) = .ok name ∧
    JsValue.getFields signals name = a.value
  issued : ∃ issuer, m.resolveIssuer a.approverId a.keyId = .ok (some issuer) ∧
    issuer.revoked = false ∧
    env.verifySignature a.payload a.signatureValue issuer.publicKey = .ok true
  unexpired : ∃ t, env.dateParse a.expiresAt = some t ∧ m.now < t
  capability : a.capability = request.action
  resource : ∃ path, (JsValue.json declaration).get "resourceId" = .json (.str path) ∧
    Resource request path a.resourceId
  scope : InScope request (.json declaration) a.scope a.resourceId

/-- Some approval stands behind a declared signal at a moment. -/
def ApprovalBacked (env : Environment Key) (m : Moment Key)
    (request : SignalStateVerificationRequest) (signals : Fields) (declaration : Json) : Prop :=
  ∃ a, ApprovalBackedBy IntentResource env m request signals declaration a

/-! ## Paths -/

theorem resolveParameter_iff {request : SignalStateVerificationRequest} {path : JsString}
    {v : JsValue} (hv : v ≠ .undefined) :
    resolveParameter request path = v ↔ IntentValue request path v := by
  unfold resolveParameter
  by_cases htarget : path = "target"
  · rw [if_pos htarget]
    constructor
    · rintro rfl
      exact .target htarget
    · intro h
      cases h with
      | target _ => rfl
      | parameter hsplit _ =>
        have hroots : ("target" : JsString).splitDots.head? ≠ some "parameters" := by decide
        rw [← htarget, hsplit] at hroots
        exact absurd rfl hroots
  · rw [if_neg htarget]
    cases hsplit : path.splitDots with
    | nil =>
      refine iff_of_false (Ne.symm hv) fun h => ?_
      cases h with
      | target h => exact htarget h
      | parameter h _ =>
        rw [hsplit] at h
        cases h
    | cons root keys =>
      by_cases hroot : root = "parameters" ∧ keys ≠ []
      · obtain ⟨rfl, hkeys⟩ := hroot
        simp only [ne_eq, not_true_eq_false, decide_false, Bool.false_or, List.isEmpty_iff, hkeys,
          if_false]
        constructor
        · rintro rfl
          exact .parameter hsplit hkeys
        · intro h
          cases h with
          | target h => exact absurd h htarget
          | parameter h _ =>
            rw [hsplit] at h
            cases h
            rfl
      · have hreject : (decide (root ≠ "parameters") || keys.isEmpty) = true := by
          by_contra hneg
          exact hroot (by simpa using hneg)
        simp only [hreject, if_true]
        refine iff_of_false (Ne.symm hv) fun h => ?_
        cases h with
        | target h => exact htarget h
        | parameter h hkeys =>
          rw [hsplit] at h
          cases h
          exact hroot ⟨rfl, hkeys⟩

theorem resolveResourceId_iff {request : SignalStateVerificationRequest} {path resource : JsString} :
    resolveResourceId request path = .ok resource ↔ IntentResource request path resource := by
  unfold resolveResourceId
  constructor
  · intro h
    split at h
    · rename_i s hs
      split at h
      · rename_i hlength
        cases h
        refine .string ((resolveParameter_iff (by simp)).mp hs) fun hempty => ?_
        rw [hempty] at hlength
        exact absurd hlength (by decide)
      · cases h
    · rename_i n hn
      split at h
      · rename_i hfinite
        cases h
        exact .number ((resolveParameter_iff (by simp)).mp hn) hfinite rfl
      · cases h
    · cases h
  · intro h
    cases h with
    | string h hne =>
      rw [(resolveParameter_iff (by simp)).mpr h]
      refine if_pos ?_
      obtain ⟨units⟩ := resource
      cases units with
      | nil => exact absurd rfl hne
      | cons u us => exact Nat.zero_lt_succ _
    | number h hfinite htext =>
      rw [(resolveParameter_iff (by simp)).mpr h, htext]
      exact if_pos hfinite

theorem resolveNumber_iff {request : SignalStateVerificationRequest} {path : JsString}
    {n : JsNumber} :
    resolveNumber request path = .ok n ↔
      IntentValue request path (.json (.num n)) ∧ n.isFinite = true := by
  rw [← resolveParameter_iff (by simp)]
  unfold resolveNumber
  constructor
  · intro h
    split at h
    · rename_i m hm
      split at h
      · rename_i hfinite
        cases h
        exact ⟨hm, hfinite⟩
      · cases h
    · cases h
  · rintro ⟨h, hfinite⟩
    rw [h]
    exact if_pos hfinite

/-! ## One declaration -/

theorem pathText_ok {v : JsValue} {path : JsString} (h : pathText v = .ok path) :
    v = .json (.str path) := by
  unfold pathText at h
  split at h
  · cases h
    rfl
  · cases h

/-- What preparing an approval establishes. -/
theorem prepare_iff {request : SignalStateVerificationRequest} {signals : Fields}
    {signalKey : JsString} {declaration : Json} {a : PendingApproval} :
    prepare request signals signalKey declaration = .ok (.ok a) ↔
      ∃ path resource v name, (JsValue.json declaration).get "resourceId" = .json (.str path) ∧
        IntentResource request path resource ∧
        requestedValue request resource ((JsValue.json declaration).get "value") = .ok (.ok v) ∧
        artifactSignal (.json declaration) = .ok name ∧
        JsValue.getFields signals name = a.artifact.value ∧
        a.signalKey = signalKey ∧ a.request = ⟨request.action, resource, v, none⟩ := by
  constructor
  · intro h
    simp only [prepare, bind_eq_ok] at h
    obtain ⟨resourceValue, hmember, path, hpath, h⟩ := h
    split at h
    · cases h
    rename_i resource hresource
    obtain ⟨value, hvalue, h⟩ := bind_eq_ok.mp h
    split at h
    · cases h
    rename_i v
    obtain ⟨name, hname, h⟩ := bind_eq_ok.mp h
    split at h
    · rename_i hshape
      cases h
      refine ⟨path, resource, v, name, ?_, resolveResourceId_iff.mp hresource, hvalue, hname, rfl,
        rfl, rfl⟩
      rw [JsValue.member_ok hmember]
      exact pathText_ok hpath
    · cases h
  · rintro ⟨path, resource, v, name, hpath, hresource, hvalue, hname, hartifact, hkey, hrequest⟩
    obtain ⟨key, ⟨value, hshape⟩, arequest⟩ := a
    dsimp only at hartifact hkey hrequest
    subst hartifact hkey hrequest
    have hmember : (JsValue.json declaration).member "resourceId" =
        (.ok (.json (.str path)) : Except Thrown JsValue) := by
      rw [← hpath]
      exact JsValue.member_eq (by rintro rfl; cases hpath)
    simp only [prepare, hmember, ok_bind, pathText, resolveResourceId_iff.mpr hresource, hvalue,
      hname]
    exact dif_pos hshape

/-- The checks that pass, one by one. -/
theorem approves_iff {env : Environment Key} {m : Moment Key} {a : PendingApproval} :
    env.Approves m a ↔
      (∃ issuer, m.resolveIssuer a.artifact.approverId a.artifact.keyId = .ok (some issuer) ∧
        issuer.revoked = false ∧ env.verifySignature a.artifact.payload a.artifact.signatureValue
          issuer.publicKey = .ok true) ∧
      (∃ t, env.dateParse a.artifact.expiresAt = some t ∧ m.now < t) ∧
      a.artifact.capability = a.request.action ∧ a.artifact.resourceId = a.request.resourceId ∧
      Covers a.artifact.scope a.request.requestedValue := by
  unfold Environment.Approves Environment.checksAt
  rw [← evaluateApprovalScope_iff]
  have hexpired : (∃ t, env.dateParse a.artifact.expiresAt = some t ∧ m.now < t) ↔
      notExpired env.dateParse m.now a.artifact.expiresAt = true := by
    unfold notExpired
    cases env.dateParse a.artifact.expiresAt <;> simp
  rw [hexpired]
  constructor
  · rintro ⟨checks, hchecks, hpassed⟩
    obtain ⟨resolved, hresolved, hchecks⟩ := bind_eq_ok.mp hchecks
    cases resolved with
    | none =>
      cases hchecks
      cases hpassed
    | some issuer =>
      obtain ⟨verified, hverified, hchecks⟩ := bind_eq_ok.mp hchecks
      cases hchecks
      simp only [ApprovalChecks.priorPassed, priorChecks, Bool.and_eq_true, beq_iff_eq] at hpassed
      obtain ⟨⟨⟨⟨⟨⟨-, rfl⟩, hunexpired⟩, hrevoked⟩, hcapability⟩, hresource⟩, hscope⟩ := hpassed
      exact ⟨⟨issuer, hresolved, by simpa using hrevoked, hverified⟩, hunexpired, hcapability,
        hresource, hscope⟩
  · rintro ⟨⟨issuer, hresolved, hrevoked, hverified⟩, hunexpired, hcapability, hresource, hscope⟩
    refine ⟨priorChecks env.dateParse m.now (some issuer) true a.artifact a.request, ?_, ?_⟩
    · rw [hresolved, ok_bind]
      simp only [hverified]
      rfl
    · simp [ApprovalChecks.priorPassed, priorChecks, hunexpired, hrevoked, hcapability, hresource,
        hscope]

/-- A scope that covers a string names exactly that string. -/
theorem covers_string_iff {scope : JsValue} {resource : JsString} :
    Covers scope (.json (.str resource)) ↔
      scope.get "comparator" = .json "eq" ∧ scope.get "value" = .json (.str resource) := by
  constructor
  · intro h
    cases h with
    | eq hc holds =>
      refine ⟨hc, ?_⟩
      unfold JsValue.strictEq at holds
      split at holds <;> simp_all
    | lte _ hn => cases hn
    | gte _ hn => cases hn
    | lt _ hn => cases hn
    | gt _ hn => cases hn
    | between _ hn => cases hn
  · rintro ⟨hc, hv⟩
    exact .eq hc (by simp [hv, JsValue.strictEq])

/-- **One declaration.**  An approval is prepared and passes at a moment exactly
when one stands behind the signal. -/
theorem prepared_approves_iff {env : Environment Key} {m : Moment Key}
    {request : SignalStateVerificationRequest} {signals : Fields} (signalKey : JsString)
    {declaration : Json} :
    (∃ a, prepare request signals signalKey declaration = .ok (.ok a) ∧ env.Approves m a) ↔
      ApprovalBacked env m request signals declaration := by
  constructor
  · rintro ⟨a, hprepare, happroves⟩
    obtain ⟨path, resource, v, name, hpath, hresource, hvalue, hname, hartifact, -, hrequest⟩ :=
      prepare_iff.mp hprepare
    obtain ⟨hissued, hunexpired, hcapability, hresourceId, hcovers⟩ := approves_iff.mp happroves
    rw [hrequest] at hcapability hresourceId hcovers
    dsimp only at hcapability hresourceId hcovers
    refine ⟨a.artifact, ⟨name, hname, hartifact⟩, hissued, hunexpired, hcapability,
      ⟨path, hpath, hresourceId ▸ hresource⟩, ?_⟩
    rw [hresourceId]
    unfold requestedValue at hvalue
    split at hvalue
    · rename_i hnone
      cases hvalue
      obtain ⟨hc, hv⟩ := covers_string_iff.mp hcovers
      exact .resource hnone hc hv
    · obtain ⟨valuePath, hvaluePath, hvalue⟩ := bind_eq_ok.mp hvalue
      cases hnumber : resolveNumber request valuePath with
      | error e =>
        rw [hnumber] at hvalue
        cases hvalue
      | ok n =>
        rw [hnumber] at hvalue
        cases hvalue
        obtain ⟨hat, hfinite⟩ := resolveNumber_iff.mp hnumber
        exact .value (pathText_ok hvaluePath) hat hfinite hcovers
  · rintro ⟨a, ⟨name, hname, hartifact⟩, hissued, hunexpired, hcapability, ⟨path, hpath, hresource⟩,
      hscope⟩
    obtain ⟨v, hvalue, hcovers⟩ : ∃ v, requestedValue request a.resourceId
        ((JsValue.json declaration).get "value") = .ok (.ok v) ∧ Covers a.scope v := by
      cases hscope with
      | @value valuePath n hpath' hat hfinite hcovers =>
        refine ⟨.json (.num n), ?_, hcovers⟩
        rw [hpath', requestedValue, if_neg (by simp)]
        simp only [pathText, ok_bind, resolveNumber_iff.mpr ⟨hat, hfinite⟩]
        rfl
      | resource hnone hc hv =>
        refine ⟨.json (.str a.resourceId), ?_, covers_string_iff.mpr ⟨hc, hv⟩⟩
        rw [hnone, requestedValue, if_pos rfl]
    exact ⟨⟨signalKey, a, ⟨request.action, a.resourceId, v, none⟩⟩,
      prepare_iff.mpr ⟨path, a.resourceId, v, name, hpath, hresource, hvalue, hname, hartifact, rfl,
        rfl⟩,
      approves_iff.mpr ⟨hissued, hunexpired, hcapability, rfl, hcovers⟩⟩

/-! ## Every declaration -/

theorem prepareAll_cons_nil {request : SignalStateVerificationRequest} {signals : Fields}
    {e : JsString × Json} {es : Fields} {as : List PendingApproval} :
    prepareAll request signals (e :: es) = .ok ([], as) ↔
      ∃ a as', as = a :: as' ∧ prepare request signals e.1 e.2 = .ok (.ok a) ∧
        prepareAll request signals es = .ok ([], as') := by
  simp only [prepareAll, bind_eq_ok]
  constructor
  · rintro ⟨prepared, hprepare, ⟨violations, pending⟩, hrest, h⟩
    cases prepared with
    | error v => cases h
    | ok a =>
      cases h
      exact ⟨a, pending, rfl, hprepare, hrest⟩
  · rintro ⟨a, as', rfl, hprepare, hrest⟩
    exact ⟨_, hprepare, _, hrest, rfl⟩

theorem allApprove_iff_backed {env : Environment Key} {request : SignalStateVerificationRequest}
    {signals : Fields} (es : Fields) (n : Nat) :
    (∃ as, prepareAll request signals es = .ok ([], as) ∧ env.AllApprove n as) ↔
      ∀ i e, es[i]? = some e → ApprovalBacked env (env.moment (n + i)) request signals e.2 := by
  induction es generalizing n with
  | nil =>
    refine iff_of_true ⟨[], rfl, fun i a ha => by cases ha⟩ fun i e he => by cases he
  | cons e es ih =>
    have hshift : ∀ i, env.moment (n + (i + 1)) = env.moment (n + 1 + i) :=
      fun i => congrArg env.moment (by omega)
    rw [forall_getElem?_cons]
    simp only [hshift, ← ih (n + 1), Nat.add_zero]
    rw [← prepared_approves_iff e.1]
    simp only [prepareAll_cons_nil]
    constructor
    · rintro ⟨_, ⟨a, as', rfl, hprepare, hrest⟩, hall⟩
      obtain ⟨ha, has⟩ := env.allApprove_cons.mp hall
      exact ⟨⟨a, hprepare, ha⟩, as', hrest, has⟩
    · rintro ⟨⟨a, hprepare, ha⟩, as', hrest, has⟩
      exact ⟨a :: as', ⟨a, as', rfl, hprepare, hrest⟩, env.allApprove_cons.mpr ⟨ha, has⟩⟩

/-- `policy.approvalSignals`, in key order: empty when there is none, and no
answer when it is `null`, which no typed policy has. -/
def declaredSignals (policy : Json) : Option Fields :=
  match ((JsValue.json policy).member "approvalSignals" : Except Thrown JsValue) with
  | .error _ | .ok (.json .null) => none
  | .ok .undefined => some []
  | .ok declarations => some (sortedEntries declarations)

/-- Every declared signal that is true is backed, at the moment its approval is
checked. -/
def AllBacked (env : Environment Key) (n : Nat) (request : SignalStateVerificationRequest)
    (signals : Fields) (policy : Json) : Prop :=
  ∃ entries, declaredSignals policy = some entries ∧
    ∀ i e, (trueEntries signals entries)[i]? = some e →
      ApprovalBacked env (env.moment (n + i)) request signals e.2

theorem checkApprovals_iff_backed {env : Environment Key}
    {request : SignalStateVerificationRequest} {signals : Fields} {policy : Json} {w : World}
    {declarations : JsValue}
    (hmember : (JsValue.json policy).member "approvalSignals" =
      (.ok declarations : Except Thrown JsValue)) (hundefined : declarations ≠ .undefined) :
    (∃ as, (env.run (checkApprovals env.dateParse request signals declarations) w).1 =
      .ok ([], as)) ↔ AllBacked env w.checks request signals policy := by
  by_cases hnull : declarations = .json .null
  · refine iff_of_false ?_ ?_
    · rintro ⟨as, has⟩
      rw [checkApprovals, if_pos hnull] at has
      cases has
    · rintro ⟨entries, hentries, -⟩
      rw [declaredSignals, hmember, hnull] at hentries
      cases hentries
  · obtain ⟨r, k, hrun, hiff, -⟩ := env.run_checkApprovals request signals hnull w
    have hdeclared : declaredSignals policy = some (sortedEntries declarations) := by
      rw [declaredSignals, hmember]
      split <;> simp_all
    unfold AllBacked
    rw [hrun, hdeclared]
    simp only [hiff, Option.some.injEq, exists_eq_left', allApprove_iff_backed]

/-- **No violation, exactly when every true signal is backed.**  This is what the
release stage decides, and what the pass at authorization that uses no approval
decides. -/
theorem noViolation_iff_backed (env : Environment Key)
    (request : SignalStateVerificationRequest) (signals : Fields) (policy : Json) (w : World)
    (hpolicy : request.policy = some policy) :
    (request.stage = some .release →
      ((env.run (findViolations env.dateParse request signals) w).1 = .ok [] ↔
        AllBacked env w.checks request signals policy)) ∧
    (∀ declarations, (JsValue.json policy).member "approvalSignals" =
        (.ok declarations : Except Thrown JsValue) → declarations ≠ .undefined →
      ((∃ as, (env.run (checkApprovals env.dateParse request signals declarations) w).1 =
        .ok ([], as)) ↔ AllBacked env w.checks request signals policy)) := by
  refine ⟨fun hstage => ?_, fun declarations => checkApprovals_iff_backed⟩
  rw [findViolations, hpolicy]
  dsimp only
  cases hmember : ((JsValue.json policy).member "approvalSignals" : Except Thrown JsValue) with
  | error e =>
    refine iff_of_false (fun h => by cases h) ?_
    rintro ⟨entries, hentries, -⟩
    rw [declaredSignals, hmember] at hentries
    cases hentries
  | ok declarations =>
    simp only [done_ok_bind]
    by_cases hundefined : declarations = .undefined
    · rw [if_pos hundefined]
      refine iff_of_true rfl ⟨[], by rw [declaredSignals, hmember, hundefined], ?_⟩
      rintro i e he
      cases he
    · rw [if_neg hundefined, ← checkApprovals_iff_backed hmember hundefined, Environment.run_bind]
      rcases env.run (checkApprovals env.dateParse request signals declarations) w with
        ⟨e | ⟨violations, pending⟩, w'⟩
      · simp
      · simp only [hstage]
        cases violations <;> simp

/-! ## An empty resource -/

/-- The resource a path names, with no condition on the string or the number. -/
inductive NamedResource (request : SignalStateVerificationRequest) (path resource : JsString) :
    Prop where
  | string (h : IntentValue request path (.json (.str resource)))
  | number {n : JsNumber} (h : IntentValue request path (.json (.num n)))
      (htext : resource = n.toText)

/-- A release check of a refund for the target of this name. -/
def refundRelease (target : JsString) : SignalStateVerificationRequest :=
  { refundRequest oneApproval with intentTarget := some target, stage := some .release }

/-- The manager's approval for this resource, and the signal it backs. -/
def approvalSignalsFor (resourceId : JsString) : Fields :=
  [("managerApproved", .bool true), ("approvalArtifact", refundApprovalFor resourceId)]

/-- An approval that names the empty resource of an empty target is refused. -/
theorem emptyResource_refused :
    trueEntries (approvalSignalsFor "") (sortedEntries (.json (.obj oneApproval))) = oneApproval ∧
    (∃ a, ApprovalBackedBy NamedResource trustingEnvironment (trustingEnvironment.moment 0)
      (refundRelease "") (approvalSignalsFor "") (.obj [("resourceId", "target")]) a) ∧
    (trustingEnvironment.run (findViolations trustingEnvironment.dateParse (refundRelease "")
      (approvalSignalsFor "")) ⟨0, []⟩).1 ≠ .ok [] :=
  ⟨by decide,
    ⟨⟨.json (refundApprovalFor ""), by decide⟩, ⟨"approvalArtifact", by decide, by decide⟩,
      ⟨⟨(), false⟩, rfl, rfl, rfl⟩, ⟨1000, rfl, by decide⟩, by decide,
      ⟨"target", by decide, .string (.target rfl)⟩,
      .resource (by decide) (by decide) (by decide)⟩,
    by decide⟩

/-- The same approval for a target that has a name is backed. -/
theorem namedResource_backed :
    AllBacked trustingEnvironment 0 (refundRelease "order-1") (approvalSignalsFor "order-1")
      (.obj [("approvalSignals", .obj oneApproval)]) :=
  ((noViolation_iff_backed trustingEnvironment (refundRelease "order-1")
    (approvalSignalsFor "order-1") _ ⟨0, []⟩ rfl).1 rfl).mp (by decide)

end Parmana.Approval

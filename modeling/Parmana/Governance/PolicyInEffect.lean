import Parmana.Governance.PolicyApprovals
import Parmana.Runtime.Call

/-! # The policy version in effect

Two components ask the approval records which version of a policy may be used.
`PolicyGovernanceExecutionVerifier` is given a name, a version and the hash of the content
that is about to be evaluated; it looks for the most recent record of the name and version,
and then for the most recent one of the name.  `CapabilityPolicyBinder`, with
`GovernedPolicyVersionSource`, is given an action and the policy the caller declares; it
looks only for the most recent record of the name that the action is bound to.

Approving an older version again makes it the one in effect, so the two must agree on
histories that come back to a version.  While the approvals of a name come later and later,
the most recent record of any selection of them is the one that was written last
(`mostRecent_of_increasing`), and **both accept exactly the version last approved**
(`in_effect_iff`), wherever the approvals have been stopped.
-/
namespace Parmana.Governance
open Js Crypto Interaction Interaction.Program

/-! ## The verifier -/

section Verifier
variable {Key : Type} (crypto : PolicyChangeCrypto Key)

/-- The policy a text speaks of. -/
def policyText (policyName policyVersion : JsString) : JsString :=
  ("policy \"" : JsString) ++ policyName ++ ("\"@\"" : JsString) ++ policyVersion ++
    ("\"" : JsString)

/-- `PolicyGovernanceExecutionVerifier.verify`. -/
def PolicyGovernanceExecutionVerifier.verify
    (policyName policyVersion policyContentHash : JsString) :
    GovernanceProgram (Option PolicyExecutionViolation) := do
  let record ← ask (.findMostRecentFor policyName policyVersion)
  match record with
  | none =>
    return some ⟨policyText policyName policyVersion ++
      (" has no PolicyChangeApprovalRecord -- " : JsString) ++
      ("it has never completed the Policy Governance approval flow" : JsString)⟩
  | some record =>
    let signatureValid ← .done (crypto.verify record)
    if signatureValid = false then
      return some ⟨policyText policyName policyVersion ++
        ("'s most recent approval record's " : JsString) ++
        ("signature does not verify -- possible tampering with the approval record " : JsString) ++
        ("itself" : JsString)⟩
    else if record.contentHashAfter ≠ policyContentHash then
      return some ⟨policyText policyName policyVersion ++
        ("'s live content does not match its " : JsString) ++
        ("most recent approval record's contentHashAfter -- edited outside " : JsString) ++
        ("the governed approval flow" : JsString)⟩
    else
      let latest ← ask (.findMostRecentForName policyName)
      match latest with
      | none => return none
      | some latest =>
        if latest.policyVersion ≠ policyVersion then
          return some ⟨policyText policyName policyVersion ++
            (" was superseded: the version in effect " : JsString) ++ ("is \"" : JsString) ++
            latest.policyVersion ++
            ("\", the one most recently approved" : JsString)⟩
        else return none

end Verifier

/-! ## The binder -/

/-- A policy reference without what is added to it later. -/
def policyReference (name version schemaVersion : JsString) : PolicyReference :=
  ⟨name, version, schemaVersion, none, none⟩

/-- `CANONICAL_CAPABILITY_POLICY_BINDINGS`. -/
def CANONICAL_CAPABILITY_POLICY_BINDINGS : List (JsString × PolicyReference) :=
  [("hubspot:deal-fetch", policyReference "hubspot-deal-read" "1.0.0" "1.0.0"),
    ("hubspot:deal-update", policyReference "hubspot-deal-update" "1.1.0" "1.0.0"),
    ("github:pr-fetch", policyReference "github-pr-read" "1.1.0" "1.0.0"),
    ("github:pr-merge", policyReference "github-pr-approval" "1.1.0" "1.0.0"),
    ("paytm:refund", policyReference "customer-refund" "1.2.0" "1.0.0"),
    ("slack:post-message", policyReference "slack-post-message" "1.1.0" "1.0.0")]

/-- `EXTERNAL_BINDING_SCHEMA_VERSION`. -/
def EXTERNAL_BINDING_SCHEMA_VERSION : JsString := "1.0.0"

/-- `CANONICAL_CAPABILITY_POLICY_BINDINGS.get(action)`. -/
def canonicalBinding (action : JsString) : Option PolicyReference :=
  (CANONICAL_CAPABILITY_POLICY_BINDINGS.find? fun binding => decide (binding.1 = action)).map
    Prod.snd

/-- `PolicyInEffect`. -/
inductive PolicyInEffect where
  | inEffect (policy : PolicyReference)
  | unavailable (bound : PolicyReference) (noApprovedVersion : Bool) (reason : JsString)
  deriving DecidableEq

/-- `CapabilityPolicyBinder`, with the sources it was given. -/
structure CapabilityPolicyBinder where
  currentVersions : Option (JsString → GovernanceProgram (Option JsString))
  externalBindings : Option (JsString → GovernanceProgram (Option JsString))

namespace CapabilityPolicyBinder

/-- `governedVersion`. -/
def governedVersion (action : JsString) (bound : PolicyReference)
    (currentVersion : JsString → GovernanceProgram (Option JsString)) :
    GovernanceProgram PolicyInEffect := do
  let looked ← attempt (currentVersion bound.name)
  match looked with
  | .error error =>
    let text ← .done error.text
    return .unavailable bound false (("the version of policy \"" : JsString) ++ bound.name ++
      ("\" in effect for capability \"" : JsString) ++ action ++
      ("\" could not be looked up: " : JsString) ++ text)
  | .ok none =>
    return .unavailable bound true (("no version of policy \"" : JsString) ++ bound.name ++
      ("\", which capability \"" : JsString) ++ action ++
      ("\" requires, has been approved through policy governance" : JsString))
  | .ok (some currentVersion) => return .inEffect { bound with version := currentVersion }

/-- `externalPolicyInEffect`. -/
def externalPolicyInEffect (self : CapabilityPolicyBinder) (action : JsString) :
    GovernanceProgram (Option PolicyInEffect) :=
  match self.externalBindings with
  | none => return none
  | some policyFor => do
    let looked ← attempt (policyFor action)
    match looked with
    | .error error =>
      let text ← .done error.text
      return some (.unavailable (policyReference "" "" "") false
        (("whether capability \"" : JsString) ++ action ++
          ("\" is registered as an external connector " : JsString) ++
          ("could not be looked up: " : JsString) ++ text))
    | .ok none => return none
    | .ok (some policyName) =>
      let bound := policyReference policyName "" EXTERNAL_BINDING_SCHEMA_VERSION
      match self.currentVersions with
      | none =>
        return some (.unavailable bound false (("capability \"" : JsString) ++ action ++
          ("\" is an external connector, whose policy version is decided " : JsString) ++
          ("only by policy governance, which is not enabled here" : JsString)))
      | some currentVersion => return some (← governedVersion action bound currentVersion)

/-- `policyInEffect`. -/
def policyInEffect (self : CapabilityPolicyBinder) (action : JsString) :
    GovernanceProgram (Option PolicyInEffect) :=
  match canonicalBinding action with
  | none => self.externalPolicyInEffect action
  | some canonical =>
    match self.currentVersions with
    | none => return some (.inEffect canonical)
    | some currentVersion => do return some (← governedVersion action canonical currentVersion)

/-- What `findViolation` makes of the policy in effect. -/
def judge (action : JsString) (declared : PolicyReference) :
    Option PolicyInEffect → GovernanceProgram (Option CapabilityPolicyBindingViolation)
  | none => return none
  | some (.unavailable bound _ reason) => return some ⟨action, bound, declared, some reason⟩
  | some (.inEffect expected) =>
    if expected.name = declared.name ∧ expected.version = declared.version then return none
    else return some ⟨action, expected, declared, none⟩

/-- `findViolation`. -/
def findViolation (self : CapabilityPolicyBinder) (action : JsString) (declared : PolicyReference) :
    GovernanceProgram (Option CapabilityPolicyBindingViolation) := do
  let inEffect ← self.policyInEffect action
  judge action declared inEffect

end CapabilityPolicyBinder

/-- `GovernedPolicyVersionSource.currentVersion`. -/
def GovernedPolicyVersionSource.currentVersion (policyName : JsString) :
    GovernanceProgram (Option JsString) := do
  let record ← ask (.findMostRecentForName policyName)
  return record.map fun record => record.policyVersion

/-- The policy that a registration names. -/
def ExternalPolicyBindingSource.policyFor (capability : JsString) :
    GovernanceProgram (Option JsString) :=
  ask (.policyFor capability)

/-! ## What the two answer -/

/-- No call failed. -/
def Unfailing (t : List GovernanceEvent) : Prop := ∀ e ∈ t, ∃ answer, e.2 = .ok answer

section Answers
variable {Key : Type} {crypto : PolicyChangeCrypto Key} {s s' : GovernanceStore}
  {t : List GovernanceEvent}

@[simp] theorem unfailing_nil : Unfailing [] := fun _ he => absurd he List.not_mem_nil

@[simp] theorem unfailing_cons_ok {call : GovernanceCall} {answer : call.Answer} :
    Unfailing (⟨call, .ok answer⟩ :: t) ↔ Unfailing t := by
  simp [Unfailing]

@[simp] theorem not_unfailing_cons {call : GovernanceCall} {failure : Failure} :
    ¬ Unfailing (⟨call, .error failure⟩ :: t) := by
  intro h
  obtain ⟨answer, hanswer⟩ := h _ List.mem_cons_self
  cases hanswer

theorem Serves.foundForName {policyName : JsString} {found : Option PolicyChangeApprovalRecord}
    (h : Serves crypto s ⟨.findMostRecentForName policyName, .ok found⟩ s') :
    found = Governance.findMostRecentForName s.records policyName ∧ s' = s := by
  cases h
  exact ⟨rfl, rfl⟩

theorem Serves.policyFor_state {capability : JsString} {policyName : Option JsString}
    (h : Serves crypto s ⟨.policyFor capability, .ok policyName⟩ s') : s' = s := by
  cases h
  rfl

/-- **When the verifier has nothing against a policy**, by what the lookups find. -/
theorem verify_accepts {policyName policyVersion policyContentHash : JsString}
    {r : Except Failure (Option PolicyExecutionViolation)}
    (hruns : Runs (PolicyGovernanceExecutionVerifier.verify crypto policyName policyVersion
      policyContentHash) t r)
    (hs : Along (Serves crypto) s t s') :
    r = .ok none ↔ Unfailing t ∧
      (∃ record, findMostRecentFor s.records policyName policyVersion = some record ∧
        crypto.verify record = .ok true ∧ record.contentHashAfter = policyContentHash) ∧
      ∀ latest, findMostRecentForName s.records policyName = some latest →
        latest.policyVersion = policyVersion := by
  unfold PolicyGovernanceExecutionVerifier.verify ask at hruns
  rcases runs_perform_bind.mp hruns with ⟨e, rfl, rfl⟩ | ⟨found, t₁, rfl, hrest⟩
  · exact iff_of_false (by simp) fun h => not_unfailing_cons h.1
  cases hs with
  | cons hsem htail =>
    obtain ⟨hfound, rfl⟩ := hsem.found
    rw [unfailing_cons_ok, ← hfound]
    cases found with
    | none =>
      obtain ⟨rfl, rfl⟩ := runs_done.mp hrest
      simp
    | some record =>
      dsimp only at hrest
      cases hverify : crypto.verify record with
      | error failure =>
        rw [hverify, done_error_bind] at hrest
        obtain ⟨rfl, rfl⟩ := runs_done.mp hrest
        simp [hverify]
      | ok signatureValid =>
        rw [hverify, done_ok_bind] at hrest
        by_cases hvalid : signatureValid = false
        · rw [if_pos hvalid] at hrest
          obtain ⟨rfl, rfl⟩ := runs_done.mp hrest
          simp [hverify, hvalid]
        rw [if_neg hvalid] at hrest
        rw [Bool.not_eq_false] at hvalid
        by_cases hhash : record.contentHashAfter ≠ policyContentHash
        · rw [if_pos hhash] at hrest
          obtain ⟨rfl, rfl⟩ := runs_done.mp hrest
          simp [hhash]
        rw [if_neg hhash] at hrest
        rw [not_not] at hhash
        rcases runs_perform_bind.mp hrest with ⟨e, rfl, rfl⟩ | ⟨latest, t₂, rfl, hlast⟩
        · exact iff_of_false (by simp) fun h => not_unfailing_cons h.1
        cases htail with
        | cons hsem' htail' =>
          obtain ⟨hlatest, rfl⟩ := hsem'.foundForName
          rw [unfailing_cons_ok, ← hlatest]
          cases latest with
          | none =>
            obtain ⟨rfl, rfl⟩ := runs_done.mp hlast
            simp [hverify, hvalid, hhash]
          | some latest =>
            dsimp only at hlast
            by_cases hversion : latest.policyVersion ≠ policyVersion
            · rw [if_pos hversion] at hlast
              obtain ⟨rfl, rfl⟩ := runs_done.mp hlast
              simp [hversion]
            · rw [if_neg hversion] at hlast
              rw [not_not] at hversion
              obtain ⟨rfl, rfl⟩ := runs_done.mp hlast
              simp [hverify, hvalid, hhash, hversion]

/-- What the binder is told of a governed version; or the lookup threw what has no text. -/
theorem governedVersion_runs {action : JsString} {bound : PolicyReference}
    {r : Except Failure PolicyInEffect}
    (hruns : Runs (CapabilityPolicyBinder.governedVersion action bound
      GovernedPolicyVersionSource.currentVersion) t r)
    (hs : Along (Serves crypto) s t s') :
    (∃ latest, Unfailing t ∧ findMostRecentForName s.records bound.name = some latest ∧
      r = .ok (.inEffect { bound with version := latest.policyVersion })) ∨
    (¬ (Unfailing t ∧ findMostRecentForName s.records bound.name ≠ none) ∧
      ∀ inEffect, r = .ok inEffect →
        ∃ noApprovedVersion reason, inEffect = .unavailable bound noApprovedVersion reason) := by
  unfold CapabilityPolicyBinder.governedVersion at hruns
  rcases runs_bind.mp hruns with ⟨e, hattempt, -⟩ | ⟨looked, t₁, t₂, rfl, hattempt, hrest⟩
  · obtain ⟨x, -, hx⟩ := runs_attempt.mp hattempt
    cases hx
  obtain ⟨x, hcurrent, hx⟩ := runs_attempt.mp hattempt
  cases hx
  unfold GovernedPolicyVersionSource.currentVersion ask at hcurrent
  rcases runs_perform_bind.mp hcurrent with ⟨e, rfl, rfl⟩ | ⟨found, t', rfl, hpure⟩
  · refine .inr ⟨fun h => not_unfailing_cons h.1, ?_⟩
    rintro inEffect rfl
    obtain ⟨text, _, _, -, -, hreturn⟩ := runs_bind_ok.mp hrest
    cases (runs_done.mp hreturn).2
    exact ⟨_, _, rfl⟩
  · obtain ⟨rfl, rfl⟩ := runs_done.mp hpure
    cases hs with
    | cons hsem htail =>
      obtain ⟨hfound, rfl⟩ := hsem.foundForName
      rw [← hfound]
      cases found with
      | none =>
        obtain ⟨rfl, rfl⟩ := runs_done.mp hrest
        refine .inr ⟨by simp, ?_⟩
        rintro _ ⟨⟩
        exact ⟨_, _, rfl⟩
      | some latest =>
        obtain ⟨rfl, rfl⟩ := runs_done.mp hrest
        exact .inl ⟨latest, unfailing_cons_ok.mpr unfailing_nil, rfl, rfl⟩

theorem judge_only {S : GovernanceCall → Prop} {action : JsString} {declared : PolicyReference}
    {inEffect : Option PolicyInEffect} :
    (CapabilityPolicyBinder.judge action declared inEffect).Only S := by
  unfold CapabilityPolicyBinder.judge
  split
  · trivial
  · trivial
  · split
    · trivial
    · trivial

/-- Only the name is looked up. -/
theorem judge_governedVersion_only {action : JsString} {bound declared : PolicyReference} :
    (do
      let inEffect ← CapabilityPolicyBinder.governedVersion action bound
        GovernedPolicyVersionSource.currentVersion
      CapabilityPolicyBinder.judge action declared (some inEffect)).Only
        fun call => ∃ policyName, call = GovernanceCall.findMostRecentForName policyName := by
  refine Only.bind ?_ fun _ => judge_only
  unfold CapabilityPolicyBinder.governedVersion
  refine Only.bind (Only.attempt ?_) fun looked => ?_
  · exact Only.bind (only_perform.mpr ⟨_, rfl⟩) fun _ => trivial
  · rcases looked with _ | _ | _
    · exact Only.bind only_done fun _ => trivial
    · trivial
    · trivial

/-- What the binder makes of a governed version. -/
theorem judge_governedVersion {action : JsString} {bound declared : PolicyReference}
    {r : Except Failure (Option CapabilityPolicyBindingViolation)}
    (hruns : Runs (do
      let inEffect ← CapabilityPolicyBinder.governedVersion action bound
        GovernedPolicyVersionSource.currentVersion
      CapabilityPolicyBinder.judge action declared (some inEffect)) t r)
    (hs : Along (Serves crypto) s t s') :
    r = .ok none ↔ Unfailing t ∧ declared.name = bound.name ∧
      ∃ latest, findMostRecentForName s.records bound.name = some latest ∧
        latest.policyVersion = declared.version := by
  have hjudge : ∀ inEffect t r, Runs (CapabilityPolicyBinder.judge action declared inEffect) t r →
      t = [] := by
    intro inEffect t r h
    exact List.eq_nil_iff_forall_not_mem.mpr ((judge_only (S := fun _ => False)).of_runs h)
  rcases runs_bind.mp hruns with ⟨e, hgoverned, rfl⟩ | ⟨inEffect, t₁, t₂, rfl, hgoverned, hrest⟩
  · rcases governedVersion_runs hgoverned hs with ⟨_, -, -, h⟩ | ⟨hnot, -⟩
    · cases h
    · refine iff_of_false nofun ?_
      rintro ⟨hall, -, latest, hlatest, -⟩
      exact hnot ⟨hall, by simp [hlatest]⟩
  obtain rfl := hjudge _ _ _ hrest
  rw [List.append_nil] at hs ⊢
  rcases governedVersion_runs hgoverned hs with ⟨latest, hall, hlatest, h⟩ | ⟨hnot, hunavailable⟩
  · cases h
    unfold CapabilityPolicyBinder.judge at hrest
    dsimp only at hrest
    by_cases hsame : bound.name = declared.name ∧ latest.policyVersion = declared.version
    · rw [if_pos hsame] at hrest
      obtain ⟨-, rfl⟩ := runs_done.mp hrest
      exact iff_of_true rfl ⟨hall, hsame.1.symm, latest, hlatest, hsame.2⟩
    · rw [if_neg hsame] at hrest
      obtain ⟨-, rfl⟩ := runs_done.mp hrest
      refine iff_of_false (by simp) ?_
      rintro ⟨-, hname, latest', hlatest', hversion⟩
      cases hlatest.symm.trans hlatest'
      exact hsame ⟨hname.symm, hversion⟩
  · obtain ⟨_, _, rfl⟩ := hunavailable inEffect rfl
    obtain ⟨-, rfl⟩ := runs_done.mp hrest
    refine iff_of_false (by simp) ?_
    rintro ⟨hall, -, latest, hlatest, -⟩
    exact hnot ⟨hall, hlatest ▸ Option.some_ne_none latest⟩

end Answers

/-! ## The version last approved -/

/-- The version of a policy name that was approved last, as the records were written. -/
def LastApproved (records : ApprovalRecords) (policyName policyVersion : JsString) : Prop :=
  ∃ latest, (records.values.filter fun record => decide (record.policyName = policyName)).getLast? =
    some latest ∧ latest.policyVersion = policyVersion

/-- The records of a name are approved later and later. -/
def InApprovalOrder (records : ApprovalRecords) : Prop :=
  records.values.Pairwise fun a b => a.policyName = b.policyName → a.approvedAt < b.approvedAt

/-- A record that is created is approved later than those of its name. -/
def ApprovedLater (s : GovernanceStore) (e : GovernanceEvent) : Prop :=
  ∀ created, e.1 = .createRecord created → ∀ record ∈ s.records.values,
    record.policyName = created.policyName → record.approvedAt < created.approvedAt

section Order
variable {records : ApprovalRecords} {policyName policyVersion : JsString}

theorem findMostRecentForName_eq (h : InApprovalOrder records) :
    findMostRecentForName records policyName =
      (records.values.filter fun record => decide (record.policyName = policyName)).getLast? := by
  refine mostRecent_of_increasing (List.pairwise_filter.mpr (h.imp fun {a b} hab ha hb => ?_))
  exact hab ((of_decide_eq_true ha).trans (of_decide_eq_true hb).symm)

theorem findMostRecentFor_eq (h : InApprovalOrder records) :
    findMostRecentFor records policyName policyVersion =
      (recordsFor records policyName policyVersion).getLast? := by
  refine mostRecent_of_increasing (List.pairwise_filter.mpr (h.imp fun {a b} hab ha hb => ?_))
  rw [PolicyChangeApprovalRecord.isFor, Bool.and_eq_true] at ha hb
  exact hab ((of_decide_eq_true ha.1).trans (of_decide_eq_true hb.1).symm)

theorem lastApproved_iff (h : InApprovalOrder records) :
    LastApproved records policyName policyVersion ↔
      ∃ latest, findMostRecentForName records policyName = some latest ∧
        latest.policyVersion = policyVersion := by
  rw [findMostRecentForName_eq h]
  rfl

end Order

section Runs
variable {Key : Type} {crypto : PolicyChangeCrypto Key} {ι : Type} [DecidableEq ι]
  {approvals : ι → Approval} {policies : LivePolicies} {clock : Int}
  {log : List (ι × GovernanceEvent)}
  {Q : Pool GovernanceCall GovernanceCall.Answer Failure (fun _ : ι => PolicyChangeApprovalRecord)
    GovernanceStore}

/-- Approvals that come later and later leave their records in order. -/
theorem inApprovalOrder (h : ExecWhere (Serves crypto) (fun _ s _ e => ApprovedLater s e)
    (startApprovals crypto approvals policies clock) log Q) : InApprovalOrder Q.state.records := by
  refine h.induction (I := fun _ s => InApprovalOrder s.records) approvals_ensure ?_ ?_
  · exact List.Pairwise.nil
  · intro log s i e s' horder _ hlater hs
    rcases hs.records with hsame | ⟨created, hcreate, hnew, rfl⟩
    · rw [hsame]
      exact horder
    · unfold InApprovalOrder
      rw [GovernanceStore.addRecord_records, Table.values_set_of_get_none hnew]
      refine List.pairwise_append.mpr ⟨horder, List.pairwise_singleton _ _, ?_⟩
      intro record hrecord last hlast hname
      rw [List.mem_singleton.mp hlast] at hname ⊢
      exact hlater created hcreate record hrecord hname

/-- **The verifier and the binder accept the version last approved, and nothing else**,
after any approvals that come later and later, wherever they have been stopped: the
verifier with the content of the last record of the version, and the binder for the name
that the action is bound to.  Neither accepts anything when a lookup fails. -/
theorem in_effect_iff (h : ExecWhere (Serves crypto) (fun _ s _ e => ApprovedLater s e)
    (startApprovals crypto approvals policies clock) log Q) :
    (∀ policyName policyVersion policyContentHash t r s',
      Runs (PolicyGovernanceExecutionVerifier.verify crypto policyName policyVersion
        policyContentHash) t r →
      Along (Serves crypto) Q.state t s' →
      (r = .ok none ↔ Unfailing t ∧ LastApproved Q.state.records policyName policyVersion ∧
        ∃ record, (recordsFor Q.state.records policyName policyVersion).getLast? = some record ∧
          crypto.verify record = .ok true ∧ record.contentHashAfter = policyContentHash)) ∧
    (∀ action bound externalBindings declared t r s', canonicalBinding action = some bound →
      Runs (CapabilityPolicyBinder.findViolation
        ⟨some GovernedPolicyVersionSource.currentVersion, externalBindings⟩ action declared) t r →
      Along (Serves crypto) Q.state t s' →
      (r = .ok none ↔ Unfailing t ∧ declared.name = bound.name ∧
        LastApproved Q.state.records bound.name declared.version)) ∧
    (∀ action declared t r s', canonicalBinding action = none →
      Runs (CapabilityPolicyBinder.findViolation ⟨some GovernedPolicyVersionSource.currentVersion,
        some ExternalPolicyBindingSource.policyFor⟩ action declared) t r →
      Along (Serves crypto) Q.state t s' →
      (r = .ok none ↔ Unfailing t ∧
        ∀ policyName, ⟨.policyFor action, .ok (some policyName)⟩ ∈ t →
          declared.name = policyName ∧
            LastApproved Q.state.records policyName declared.version)) := by
  have horder := inApprovalOrder h
  refine ⟨?_, ?_, ?_⟩
  · intro policyName policyVersion policyContentHash t r s' hruns hs
    rw [verify_accepts hruns hs, findMostRecentFor_eq horder, lastApproved_iff horder]
    refine and_congr_right fun _ => ⟨?_, ?_⟩
    · rintro ⟨⟨record, hrecord, hverify, hhash⟩, hlatest⟩
      have hmem := mem_recordsFor.mp (List.mem_of_getLast? hrecord)
      have hsome : findMostRecentForName Q.state.records policyName ≠ none := by
        unfold findMostRecentForName
        rw [Ne, mostRecent_eq_none]
        exact List.ne_nil_of_mem
          (List.mem_filter.mpr ⟨hmem.1, decide_eq_true hmem.2.1⟩)
      obtain ⟨latest, hfound⟩ := Option.ne_none_iff_exists'.mp hsome
      exact ⟨⟨latest, hfound, hlatest latest hfound⟩, record, hrecord, hverify, hhash⟩
    · rintro ⟨⟨latest, hfound, hversion⟩, hrecord⟩
      refine ⟨hrecord, fun latest' hfound' => ?_⟩
      cases hfound.symm.trans hfound'
      exact hversion
  · intro action bound externalBindings declared t r s' hbound hruns hs
    rw [lastApproved_iff horder]
    unfold CapabilityPolicyBinder.findViolation CapabilityPolicyBinder.policyInEffect at hruns
    rw [hbound] at hruns
    dsimp only at hruns
    rw [bind_bind] at hruns
    exact judge_governedVersion hruns hs
  · intro action declared t r s' hunbound hruns hs
    unfold CapabilityPolicyBinder.findViolation CapabilityPolicyBinder.policyInEffect
      CapabilityPolicyBinder.externalPolicyInEffect at hruns
    rw [hunbound] at hruns
    dsimp only at hruns
    rw [bind_bind] at hruns
    rcases runs_bind.mp hruns with ⟨e, hattempt, -⟩ | ⟨looked, t₁, t₂, rfl, hattempt, hrest⟩
    · obtain ⟨x, -, hx⟩ := runs_attempt.mp hattempt
      cases hx
    obtain ⟨x, hpolicyFor, hx⟩ := runs_attempt.mp hattempt
    cases hx
    obtain rfl := runs_perform.mp hpolicyFor
    rw [List.singleton_append] at hs ⊢
    cases looked with
    | error failure =>
      refine iff_of_false ?_ fun h => not_unfailing_cons h.1
      rintro rfl
      -- a lookup that failed is a policy that is not available
      obtain ⟨inEffect, t₃, t₄, rfl, htext, hjudge⟩ := runs_bind_ok.mp hrest
      obtain ⟨text, _, _, -, -, hreturn⟩ := runs_bind_ok.mp htext
      obtain ⟨-, hsome⟩ := runs_done.mp hreturn
      cases hsome
      cases (runs_done.mp hjudge).2
    | ok registered =>
      cases hs with
      | cons hsem htail =>
        obtain rfl := hsem.policyFor_state
        rw [unfailing_cons_ok]
        cases registered with
        | none =>
          obtain ⟨rfl, rfl⟩ := runs_done.mp hrest
          refine iff_of_true rfl ⟨unfailing_nil, fun policyName hmem => ?_⟩
          cases List.mem_singleton.mp hmem
        | some policyName =>
          dsimp only at hrest
          rw [bind_bind] at hrest
          rw [judge_governedVersion hrest htail, ← lastApproved_iff horder]
          constructor
          · rintro ⟨hall, hname, hlast⟩
            refine ⟨hall, fun policyName' hmem => ?_⟩
            rcases List.mem_cons.mp hmem with heq | hlater
            · cases heq
              exact ⟨hname, hlast⟩
            · obtain ⟨name, hcall⟩ := judge_governedVersion_only.of_runs hrest _ hlater
              cases hcall
          · rintro ⟨hall, hnamed⟩
            obtain ⟨hname, hlast⟩ := hnamed policyName List.mem_cons_self
            exact ⟨hall, hname, hlast⟩

end Runs

/-! ### Back to the first version -/

instance (s : GovernanceStore) (e : GovernanceEvent) : Decidable (ApprovedLater s e) :=
  match e with
  | ⟨.createRecord created, _⟩ =>
    decidable_of_iff (∀ record ∈ s.records.values,
        record.policyName = created.policyName → record.approvedAt < created.approvedAt)
      ⟨fun h _ heq => by cases heq; exact h, fun h => h created rfl⟩
  | ⟨.findChange _, _⟩ | ⟨.change _, _⟩ | ⟨.requireHumanCaller _, _⟩
  | ⟨.requireStepUpAuthorization _ _ _, _⟩ | ⟨.load _ _, _⟩ | ⟨.save _ _ _, _⟩
  | ⟨.findMostRecentFor _ _, _⟩ | ⟨.findMostRecentForName _, _⟩ | ⟨.policyFor _, _⟩
  | ⟨.listRecords, _⟩ | ⟨.randomUUID, _⟩ | ⟨.now, _⟩
  | ⟨.sign _, _⟩ => .isTrue fun _ heq => nomatch heq

namespace Versions
open Refunds (minute inTurn CreatesNew)

/-- A policy of refunds, in a version that rejects them for a reason. -/
def policy (version reason : JsString) : Json :=
  .obj [("policyId", "customer-refund"), ("policyVersion", .str version), ("schemaVersion", "1.0.0"),
    ("rules", .arr [.obj [("id", "refuse"), ("condition", .obj [("always", .bool true)]),
      ("outcome", .obj [("action", "reject"), ("reason", .str reason)])]])]

def change (id version reason : JsString) : PendingPolicyChange where
  pendingPolicyChangeId := id
  policyName := "customer-refund"
  policyVersion := version
  proposedContent := policy version reason
  proposedBy := "maker"
  proposedAt := 1767225600000
  status := .pendingApproval
  reason := "reason"
  resolvedBy := none
  rejectionReason := none

/-- A version, the next one, and the first one again. -/
def approvals : Fin 3 → Approval
  | 0 => ⟨change "change-0" "1.1.0" "opening", "checker"⟩
  | 1 => ⟨change "change-1" "1.2.0" "review", "checker"⟩
  | 2 => ⟨change "change-2" "1.1.0" "audit", "director"⟩

/-- The hash of the content of each change. -/
def contentHash : Nat → JsString
  | 0 => "0cd2262dfa7656eb5fbb65063c9d942cde3f18f66ff79fbabc09497c7981fd5c"
  | 1 => "ac931f8acc13e0796f083b03d56a6735e2d0f7d8fddb50997884f8dea606ed52"
  | _ => "8bdc39336561228464cdecd79fb9660401f52e0b4233149a13d7e4184445f0e6"

/-- The hash of the first record. -/
def recordHash : JsString := "efbe35aeada4dbcec58371f1c313cfc515a7049ee88a230674e0ee833aaa33df"

/-- SHA-256 of the values that are hashed here, which all differ in length. -/
def digest (bytes : List UInt8) : JsString :=
  match bytes.length with
  | 181 => contentHash 0
  | 180 => contentHash 1
  | 179 => contentHash 2
  | 458 => recordHash
  | _ => ""

def crypto : PolicyChangeCrypto Unit := { Refunds.crypto with sha256 := digest }

def start : Pool GovernanceCall GovernanceCall.Answer Failure
    (fun _ : Fin 3 => PolicyChangeApprovalRecord) GovernanceStore :=
  startApprovals crypto approvals .empty 1767225600000

/-- The stores after that. -/
def approved : GovernanceStore := (start.play (serve crypto minute) inTurn).state

/-- The last of the three records. -/
def lastRecord : PolicyChangeApprovalRecord where
  policyChangeApprovalRecordId := "record-2"
  pendingPolicyChangeId := "change-2"
  policyName := "customer-refund"
  policyVersion := "1.1.0"
  proposedBy := "maker"
  approvedBy := "director"
  proposedAt := 1767225600000
  approvedAt := 1767225780000
  contentHashBefore := some (contentHash 0)
  contentHashAfter := contentHash 2
  previousRecordHash := some recordHash
  signature := ⟨"ed25519", "default", "c2lnbmF0dXJl".toList, 1767225780000⟩

/-- The approvals one after the other, and what they leave. -/
theorem inTurn_creates :
    start.MeetsWhere (serve crypto minute) (fun _ s _ e => CreatesNew s e ∧ ApprovedLater s e)
        [] inTurn ∧
      (approved.records.values.filter fun record =>
        decide (record.policyName = ("customer-refund" : JsString))).getLast? = some lastRecord ∧
      (recordsFor approved.records "customer-refund" "1.1.0").getLast? = some lastRecord ∧
      crypto.verify lastRecord = .ok true := by
  decide +kernel

theorem later_inTurn : ExecWhere (Serves crypto) (fun _ s _ e => ApprovedLater s e) start
    (start.script (serve crypto minute) inTurn) (start.play (serve crypto minute) inTurn) :=
  (ExecWhere.play (serve crypto minute) inTurn inTurn_creates.1).mono
    (fun _ _ _ _ _ hnew h => serves_of_handled h hnew.1) fun _ _ _ _ h => h.2

theorem verify_lastRecord : crypto.verify lastRecord = .ok true := inTurn_creates.2.2.2

theorem lastApproved_approved {version : JsString} :
    LastApproved approved.records "customer-refund" version ↔ version = "1.1.0" := by
  unfold LastApproved
  rw [inTurn_creates.2.1]
  constructor
  · rintro ⟨_, ⟨⟩, hversion⟩
    exact hversion.symm
  · rintro rfl
    exact ⟨_, rfl, rfl⟩

/-- The verifier finds the last record twice. -/
def lookups : List GovernanceEvent :=
  [⟨.findMostRecentFor "customer-refund" "1.1.0", .ok (some lastRecord)⟩,
    ⟨.findMostRecentForName "customer-refund", .ok (some lastRecord)⟩]

end Versions

open Versions in
/-- After the three approvals the verifier accepts the content of the third and the binder
its version, and neither accepts the version between. -/
theorem in_effect_inTurn :
    Runs (PolicyGovernanceExecutionVerifier.verify crypto "customer-refund" "1.1.0" (contentHash 2))
        lookups (.ok none) ∧
      (∀ version t r s', Runs (PolicyGovernanceExecutionVerifier.verify crypto "customer-refund"
          version (contentHash 2)) t r → Along (Serves crypto) approved t s' →
        (r = .ok none ↔ Unfailing t ∧ version = "1.1.0")) ∧
      ∀ version t r s', Runs (CapabilityPolicyBinder.findViolation
          ⟨some GovernedPolicyVersionSource.currentVersion, none⟩ "paytm:refund"
          (policyReference "customer-refund" version "1.0.0")) t r →
        Along (Serves crypto) approved t s' → (r = .ok none ↔ Unfailing t ∧ version = "1.1.0") := by
  refine ⟨?_, fun version t r s' hruns hs => ?_, fun version t r s' hruns hs => ?_⟩
  · unfold PolicyGovernanceExecutionVerifier.verify ask
    refine runs_perform_bind.mpr (.inr ⟨_, _, rfl, ?_⟩)
    dsimp only
    rw [verify_lastRecord]
    exact runs_perform_bind.mpr (.inr ⟨_, _, rfl, runs_done.mpr ⟨rfl, rfl⟩⟩)
  -- the version between was approved and is in effect no more
  · rw [(in_effect_iff later_inTurn).1 _ _ _ t r s' hruns hs]
    refine and_congr_right fun _ => (and_congr_left' lastApproved_approved).trans
      ⟨And.left, ?_⟩
    rintro rfl
    exact ⟨rfl, lastRecord, inTurn_creates.2.2.1, verify_lastRecord, rfl⟩
  · rw [(in_effect_iff later_inTurn).2.1 "paytm:refund"
      (policyReference "customer-refund" "1.2.0" "1.0.0") none _ t r s' (by decide) hruns hs]
    exact and_congr_right fun _ => (and_iff_right rfl).trans lastApproved_approved

end Parmana.Governance

import Parmana.Governance.PolicyChangeRoutes

/-! # The effects of a policy change

An approved policy change is to have one record and one write of the live policy, and a
change that ends otherwise none (`SingleEffect`).  The route that approves a change looks at
its status only after both have been written, when it resolves it.  So **an approval that is
repeated writes a second record and the policy again, and is refused only then**
(`approved_twice`).

Where a step-up authorization is accepted for an approval only while its change is pending
and no other request for it is under way, and what an approval writes is written, the status
that is looked at too late is the one that was there all along.  **Every run of this kind has
the effects it should have** (`single_effect_of_uncontested`), in any interleaving with
proposals and with requests for other changes.
-/
namespace Parmana.Governance
open Js Crypto Interaction Interaction.Program

/-! ## Requests under way -/

section UnderWay
variable {ι : Type} [DecidableEq ι]

/-- A call that ends its request: one that fails, or the one that resolves the change. -/
def Ends (e : GovernanceEvent) : Prop :=
  (∃ failure, e.2 = .error failure) ∨ ∃ id resolution, e.1 = .change (.resolve id resolution)

/-- A step-up authorization has been accepted, and the request has not ended since. -/
structure UnderWay (log : List (ι × GovernanceEvent)) (i : ι) : Prop where
  passed : ∃ callerId id action, PassedStepUp callerId id action (eventsOf i log)
  going : ∀ e ∈ eventsOf i log, ¬ Ends e

/-- A record or a policy that was written. -/
def Effect (e : GovernanceEvent) : Prop :=
  (∃ record created, e = ⟨.createRecord record, .ok created⟩) ∨
    ∃ policyName policyVersion content, e.1 = .save policyName policyVersion content

/-- A write of the live policy. -/
def GovernanceCall.isSave : GovernanceCall → Bool
  | .save .. => true
  | _ => false

/-- The writes of the live policy that approvals of a change have made. -/
def writesOf (requests : ι → PolicyChangeRequest) (id : JsString)
    (log : List (ι × GovernanceEvent)) : List (ι × GovernanceEvent) :=
  log.filter fun x => decide ((requests x.1).approves = some id) && x.2.1.isSave

variable {log : List (ι × GovernanceEvent)} {i j : ι} {e : GovernanceEvent}

omit [DecidableEq ι] in
theorem mem_writesOf {requests : ι → PolicyChangeRequest} {id : JsString}
    {x : ι × GovernanceEvent} : x ∈ writesOf requests id log ↔
      x ∈ log ∧ (requests x.1).approves = some id ∧ x.2.1.isSave = true := by
  unfold writesOf
  rw [List.mem_filter, Bool.and_eq_true, decide_eq_true_eq]

theorem effect_of_isSave (h : e.1.isSave = true) : Effect e := by
  obtain ⟨call, answer⟩ := e
  cases call with
  | save policyName policyVersion content => exact .inr ⟨_, _, _, rfl⟩
  | _ => cases h

theorem underWay_other (h : j ≠ i) : UnderWay (log ++ [(i, e)]) j ↔ UnderWay log j := by
  have hsame : eventsOf j (log ++ [(i, e)]) = eventsOf j log :=
    eventsOf_append_other (Ne.symm h) log e
  constructor
  · rintro ⟨hpassed, hgoing⟩
    rw [hsame] at hpassed hgoing
    exact ⟨hpassed, hgoing⟩
  · rintro ⟨hpassed, hgoing⟩
    rw [← hsame] at hpassed hgoing
    exact ⟨hpassed, hgoing⟩

/-- A request is under way after a call if it was before, or has just been let through. -/
theorem UnderWay.before (h : UnderWay (log ++ [(i, e)]) i) : ¬ Ends e ∧ (UnderWay log i ∨
    ∃ callerId id action, e = ⟨.requireStepUpAuthorization callerId id action, .ok ()⟩) := by
  obtain ⟨⟨callerId, id, action, hpassed⟩, hgoing⟩ := h
  unfold PassedStepUp at hpassed
  rw [eventsOf_append_self] at hpassed hgoing
  refine ⟨hgoing e (List.mem_append_right _ (List.mem_singleton_self _)), ?_⟩
  rcases List.mem_append.mp hpassed with hold | hlast
  · exact .inl ⟨⟨callerId, id, action, hold⟩, fun e' he' => hgoing e' (List.mem_append_left _ he')⟩
  · exact .inr ⟨callerId, id, action, (List.mem_singleton.mp hlast).symm⟩

theorem UnderWay.after (h : UnderWay log i) (he : ¬ Ends e) : UnderWay (log ++ [(i, e)]) i := by
  obtain ⟨⟨callerId, id, action, hpassed⟩, hgoing⟩ := h
  refine ⟨⟨callerId, id, action, ?_⟩, ?_⟩
  · unfold PassedStepUp
    rw [eventsOf_append_self]
    exact List.mem_append_left _ hpassed
  · rw [eventsOf_append_self]
    intro e' he'
    rcases List.mem_append.mp he' with hold | hlast
    · exact hgoing e' hold
    · rw [List.mem_singleton.mp hlast]
      exact he

/-- A request that has loaded its change and written nothing is under way. -/
theorem Prepared.underWay {callerId id action : JsString} {existing : PendingPolicyChange}
    {u v : List GovernanceEvent} (h : Prepared callerId id action existing u)
    (ht : eventsOf i log = u ++ v) (hv : ∀ e ∈ v, ¬ Ends e) : UnderWay log i := by
  refine ⟨⟨callerId, id, action, ?_⟩, ?_⟩
  · rw [ht]
    exact List.mem_append_left _ h.passed
  · rw [ht]
    intro e he
    rcases List.mem_append.mp he with hu | hv'
    · obtain ⟨⟨answer, hanswer⟩, hwrites⟩ := h.quiet e hu
      rintro (⟨failure, hfailure⟩ | ⟨id, resolution, hresolve⟩)
      · rw [hanswer] at hfailure
        cases hfailure
      · rw [hresolve] at hwrites
        cases hwrites
    · exact hv e hv'

theorem Quiet.no_effect {t : List GovernanceEvent} (h : Quiet t) (he : e ∈ t) : ¬ Effect e := by
  rintro (⟨record, created, rfl⟩ | ⟨policyName, policyVersion, content, hsave⟩)
  · cases (h _ he).2
  · have hwrites := (h e he).2
    rw [hsave] at hwrites
    cases hwrites

end UnderWay

/-! ## The property and its condition -/

section Property
variable {Key ι : Type} [DecidableEq ι] (crypto : PolicyChangeCrypto Key) (re : Policy.RegExp)
  (requests : ι → PolicyChangeRequest)

/-- A change that was approved, by somebody who did not propose it. -/
def ApprovedBy (s : GovernanceStore) (id approvedBy : JsString) : Prop :=
  ∃ change, s.changes.get id = some change ∧ change.status = .approved ∧
    change.resolvedBy = some approvedBy ∧ change.proposedBy ≠ approvedBy

/-- A change has at most one record and one write of the live policy; and once no approval of
it is under way, it has them only if it was approved, by a checker who did not propose it. -/
structure SingleEffect (log : List (ι × GovernanceEvent)) (s : GovernanceStore) : Prop where
  oneRecord : ∀ r ∈ s.records.values, ∀ r' ∈ s.records.values,
    r.pendingPolicyChangeId = r'.pendingPolicyChangeId → r = r'
  oneWrite : ∀ id, (writesOf requests id log).length ≤ 1
  recorded : ∀ r ∈ s.records.values,
    (∀ i, (requests i).approves = some r.pendingPolicyChangeId → ¬ UnderWay log i) →
      ApprovedBy s r.pendingPolicyChangeId r.approvedBy
  written : ∀ i callerId id, requests i = .approve callerId id → ¬ UnderWay log i →
    (∃ e, (i, e) ∈ log ∧ Effect e) → ApprovedBy s id callerId

/-- How a call is answered where every identifier is new, a record that cannot be written
leaves nothing behind, the live policy can be written, and so can the status of a change that
is approved. -/
structure ServesWrites (s : GovernanceStore) (e : GovernanceEvent) (s' : GovernanceStore) :
    Prop where
  serves : Serves crypto s e s'
  newId : ∀ change, e.1 = .change (.set change) →
    s.changes.get change.pendingPolicyChangeId = none
  createRecord : ∀ record failure, e = ⟨.createRecord record, .error failure⟩ → s' = s
  save : ∀ policyName policyVersion content failure,
    e ≠ ⟨.save policyName policyVersion content, .error failure⟩
  resolve : ∀ id resolvedBy, e.1 = .change (.resolve id (.approved resolvedBy)) → s'.changes =
    (MemoryPendingPolicyChangeRepository.run (.resolve id (.approved resolvedBy)) s.changes).2

/-- A step-up authorization that is accepted for an approval finds the change pending and no
other request for it under way; one that is accepted for a rejection finds no approval of the
change under way. -/
def Uncontested (log : List (ι × GovernanceEvent)) (s : GovernanceStore) (i : ι)
    (e : GovernanceEvent) : Prop :=
  ∀ callerId id action, e = ⟨.requireStepUpAuthorization callerId id action, .ok ()⟩ →
    ((requests i).approves = some id →
      ∃ change, s.changes.get id = some change ∧ change.status = .pendingApproval) ∧
    ∀ j, j ≠ i → (requests j).resolves = some id → UnderWay log j →
      (requests i).approves = none ∧ (requests j).approves = none

/-- Requests side by side, over changes there may be already, none of which has a record. -/
def startPolicyChanges (changes : PendingPolicyChanges) (policies : LivePolicies) (clock : Int) :
    Pool GovernanceCall GovernanceCall.Answer Failure (fun _ : ι => PolicyChangeResponse)
      GovernanceStore where
  threads i := (requests i).handle crypto re
  state := { GovernanceStore.new policies clock with changes }

end Property

/-! ## How changes move -/

section Changes
variable {Key : Type} {crypto : PolicyChangeCrypto Key} {s s' : GovernanceStore}
  {e : GovernanceEvent}

theorem Serves.changes (h : Serves crypto s e s') : s'.changes = s.changes ∨
    ∃ block, e.1 = .change block ∧
      s'.changes = (MemoryPendingPolicyChangeRepository.run block s.changes).2 := by
  cases h with
  | change h => exact .inr ⟨_, rfl, by rw [h]⟩
  | failedChange => exact .inr ⟨_, rfl, rfl⟩
  | _ => exact .inl rfl

theorem Serves.foundChange {id : JsString} {change : PendingPolicyChange}
    (h : Serves crypto s ⟨.findChange id, .ok (some change)⟩ s') :
    s.changes.get id = some change ∧ s' = s := by
  generalize he : (⟨.findChange id, .ok (some change)⟩ : GovernanceEvent) = e at h
  cases h with
  | findChange =>
    obtain ⟨hcall, hanswer⟩ := Sigma.mk.inj_iff.mp he
    cases hcall
    exact ⟨(Except.ok.inj (eq_of_heq hanswer)).symm, rfl⟩
  | _ => cases he

/-- A change stays as it is, or it was pending and is resolved. -/
theorem ServesWrites.change (h : ServesWrites crypto s e s') {id : JsString}
    {change : PendingPolicyChange} (hget : s.changes.get id = some change) :
    s'.changes.get id = some change ∨ change.status = .pendingApproval ∧
      ∃ resolution updated, e.1 = .change (.resolve id resolution) ∧
        applyPendingPolicyChangeResolution change resolution = .ok updated ∧
        s'.changes.get id = some updated := by
  rcases h.serves.changes with hsame | ⟨block, hblock, hchanges⟩
  · rw [hsame]
    exact .inl hget
  · rw [hchanges]
    cases block with
    | findPending policyName policyVersion => exact .inl hget
    | set created =>
      left
      have hne : id ≠ created.pendingPolicyChangeId := by
        rintro rfl
        rw [h.newId created hblock] at hget
        cases hget
      exact (Table.get_set_of_ne _ hne).trans hget
    | resolve id' resolution =>
      dsimp only [MemoryPendingPolicyChangeRepository.run]
      split
      · rename_i updated changes' hresolve
        obtain ⟨rfl, existing, hexisting, happly⟩ := resolvePending_ok hresolve
        obtain ⟨hpending, -, hid⟩ := applyResolution_ok happly
        obtain rfl := Table.key_of_get hexisting
        by_cases hhere : id = existing.pendingPolicyChangeId
        · subst hhere
          rw [hexisting] at hget
          cases hget
          refine .inr ⟨hpending, resolution, updated, hblock, happly, ?_⟩
          rw [← hid]
          exact Table.get_set_self _ _
        · left
          rw [← hid] at hhere
          exact (Table.get_set_of_ne _ hhere).trans hget
      · exact .inl hget

/-- An approval that is carried out approves what is pending. -/
theorem ServesWrites.approves (h : ServesWrites crypto s e s') {id resolvedBy : JsString}
    (he : e.1 = .change (.resolve id (.approved resolvedBy))) {change : PendingPolicyChange}
    (hget : s.changes.get id = some change) (hpending : change.status = .pendingApproval) :
    s'.changes.get id =
      some { change with status := .approved, resolvedBy := some resolvedBy } := by
  rw [h.resolve id resolvedBy he]
  obtain rfl := Table.key_of_get hget
  have hresolve : resolvePending s.changes change.pendingPolicyChangeId (.approved resolvedBy) =
      .ok ({ change with status := .approved, resolvedBy := some resolvedBy },
        s.changes.set { change with status := .approved, resolvedBy := some resolvedBy }) := by
    unfold resolvePending
    rw [hget]
    dsimp only
    unfold applyPendingPolicyChangeResolution
    rw [if_pos hpending]
    rfl
  dsimp only [MemoryPendingPolicyChangeRepository.run]
  rw [hresolve]
  exact Table.get_set_self _ _

theorem proposedBy_of_apply {change updated : PendingPolicyChange}
    {resolution : PendingPolicyChangeResolution}
    (h : applyPendingPolicyChangeResolution change resolution = .ok updated) :
    updated.proposedBy = change.proposedBy := by
  unfold applyPendingPolicyChangeResolution at h
  split at h
  · cases resolution with
    | approved resolvedBy =>
      cases h
      rfl
    | rejected resolvedBy rejectionReason =>
      cases h
      rfl
  · cases h

/-- The proposer of a change stays. -/
theorem ServesWrites.proposedBy (h : ServesWrites crypto s e s') {id : JsString}
    {change : PendingPolicyChange} (hget : s.changes.get id = some change) :
    ∃ change', s'.changes.get id = some change' ∧ change'.proposedBy = change.proposedBy := by
  rcases h.change hget with hsame | ⟨-, resolution, updated, -, happly, hupdated⟩
  · exact ⟨change, hsame, rfl⟩
  · exact ⟨updated, hupdated, proposedBy_of_apply happly⟩

/-- What is approved stays approved. -/
theorem ServesWrites.approvedBy (h : ServesWrites crypto s e s') {id approvedBy : JsString}
    (happroved : ApprovedBy s id approvedBy) : ApprovedBy s' id approvedBy := by
  obtain ⟨change, hget, hstatus, hby, hchecker⟩ := happroved
  rcases h.change hget with hsame | ⟨hpending, -⟩
  · exact ⟨change, hsame, hstatus, hby, hchecker⟩
  · rw [hstatus] at hpending
    cases hpending

end Changes

/-! ## Uncontested requests -/

section Uncontested
variable {Key ι : Type} [DecidableEq ι] {crypto : PolicyChangeCrypto Key} {re : Policy.RegExp}

/-- What holds between the calls of requests that are not contested. -/
structure Exclusive (requests : ι → PolicyChangeRequest) (log : List (ι × GovernanceEvent))
    (s : GovernanceStore) : Prop where
  found : ∀ i id change, (i, (⟨.findChange id, .ok (some change)⟩ : GovernanceEvent)) ∈ log →
    change.pendingPolicyChangeId = id ∧
      ∃ now, s.changes.get id = some now ∧ now.proposedBy = change.proposedBy
  pending : ∀ i id, (requests i).approves = some id → UnderWay log i →
    ∃ change, s.changes.get id = some change ∧ change.status = .pendingApproval
  alone : ∀ i j id, (requests i).approves = some id → UnderWay log i →
    (requests j).resolves = some id → UnderWay log j → i = j
  effects : ∀ i e, (i, e) ∈ log → Effect e → ∃ callerId id, requests i = .approve callerId id ∧
    (ApprovedBy s id callerId ∨ UnderWay log i)
  records : ∀ record ∈ s.records.values, ∃ i created,
    (i, (⟨.createRecord record, .ok created⟩ : GovernanceEvent)) ∈ log ∧
      requests i = .approve record.approvedBy record.pendingPolicyChangeId
  oneRecord : ∀ r ∈ s.records.values, ∀ r' ∈ s.records.values,
    r.pendingPolicyChangeId = r'.pendingPolicyChangeId → r = r'
  oneWrite : ∀ id, (writesOf requests id log).length ≤ 1

variable {requests : ι → PolicyChangeRequest} {log : List (ι × GovernanceEvent)}
  {s s' : GovernanceStore} {i : ι} {e : GovernanceEvent}

theorem approves_eq {request : PolicyChangeRequest} {callerId id : JsString}
    (h : request = .approve callerId id) : request.approves = some id := by
  rw [h]
  rfl

theorem resolves_of_approves {request : PolicyChangeRequest} {id : JsString}
    (h : request.approves = some id) : request.resolves = some id := by
  cases request with
  | approve => exact h
  | _ => cases h

/-- Nobody else has had an effect on the change of an approval under way. -/
theorem Exclusive.effect_own {j : ι} {e' : GovernanceEvent} {id : JsString}
    (h : Exclusive requests log s) (hi : (requests i).approves = some id) (hway : UnderWay log i)
    (hj : (requests j).approves = some id) (hmem : (j, e') ∈ log) (heffect : Effect e') :
    j = i := by
  obtain ⟨callerId, id', hrequest, happroved | hway'⟩ := h.effects j e' hmem heffect
  · rw [approves_eq hrequest] at hj
    cases hj
    obtain ⟨change, hget, hstatus, -⟩ := happroved
    obtain ⟨change', hget', hpending⟩ := h.pending i id hi hway
    rw [hget] at hget'
    cases hget'
    rw [hstatus] at hpending
    cases hpending
  · exact (h.alone i j id hi hway (resolves_of_approves hj) hway').symm

theorem not_ends_createRecord {record created : PolicyChangeApprovalRecord} :
    ¬ Ends ⟨.createRecord record, .ok created⟩ := by
  rintro (⟨failure, hfailure⟩ | ⟨id, resolution, hresolve⟩)
  · cases hfailure
  · cases hresolve

theorem not_ends_save {policyName policyVersion : JsString} {content : Json} :
    ¬ Ends ⟨.save policyName policyVersion content, .ok ()⟩ := by
  rintro (⟨failure, hfailure⟩ | ⟨id, resolution, hresolve⟩)
  · cases hfailure
  · cases hresolve

/-- A request is under way when it writes a record, a policy or a status. -/
theorem Staged.underWay (hpre : Staged (requests i) (eventsOf i log) e.1)
    (hwrites : e.1.writes = true) : UnderWay log i := by
  obtain ⟨call, answer⟩ := e
  have hnone : ∀ e ∈ ([] : List GovernanceEvent), ¬ Ends e :=
    fun e he => absurd he List.not_mem_nil
  cases call with
  | createRecord record =>
    obtain ⟨callerId, id, existing, -, hprepared, -⟩ := hpre
    exact hprepared.underWay (List.append_nil _).symm hnone
  | save policyName policyVersion content =>
    obtain ⟨callerId, id, existing, u, record, created, -, hprepared, ht⟩ := hpre
    refine hprepared.underWay ht fun e he => ?_
    rw [List.mem_singleton.mp he]
    exact not_ends_createRecord
  | change block =>
    cases block with
    | resolve id resolution =>
      rcases hpre with ⟨callerId, existing, u, record, created, n, v, c, -, -, hprepared, ht⟩ |
        ⟨callerId, existing, rejectionReason, -, -, hprepared⟩
      · refine hprepared.underWay ht fun e he => ?_
        rcases List.mem_cons.mp he with rfl | he
        · exact not_ends_createRecord
        · rw [List.mem_singleton.mp he]
          exact not_ends_save
      · exact hprepared.underWay (List.append_nil _).symm hnone
    | _ => cases hwrites
  | _ => cases hwrites

/-- The request that resolves a change is about it. -/
theorem Staged.resolves {id : JsString} {resolution : PendingPolicyChangeResolution}
    (hpre : Staged (requests i) (eventsOf i log) (.change (.resolve id resolution))) :
    (requests i).resolves = some id := by
  rcases hpre with ⟨callerId, existing, u, record, created, n, v, c, hrequest, -⟩ |
    ⟨callerId, existing, rejectionReason, hrequest, -⟩
  · rw [hrequest]
    rfl
  · rw [hrequest]
    rfl

theorem Exclusive.found_step (h : Exclusive requests log s) (hs : ServesWrites crypto s e s')
    (j : ι) (id : JsString) (change : PendingPolicyChange)
    (hmem : (j, (⟨.findChange id, .ok (some change)⟩ : GovernanceEvent)) ∈ log ++ [(i, e)]) :
    change.pendingPolicyChangeId = id ∧
      ∃ now, s'.changes.get id = some now ∧ now.proposedBy = change.proposedBy := by
  rcases List.mem_append.mp hmem with hold | hlast
  · obtain ⟨hid, now, hget, hproposer⟩ := h.found j id change hold
    obtain ⟨now', hget', hproposer'⟩ := hs.proposedBy hget
    exact ⟨hid, now', hget', hproposer'.trans hproposer⟩
  · obtain ⟨-, rfl⟩ := Prod.mk.inj (List.mem_singleton.mp hlast)
    obtain ⟨hget, hsame⟩ := hs.serves.foundChange
    rw [hsame]
    exact ⟨Table.key_of_get hget, change, hget, rfl⟩

/-- The request that was let through is about the change that was checked. -/
theorem Staged.letThrough {callerId id action : JsString} (hpre : Staged (requests i)
    (eventsOf i log) (.requireStepUpAuthorization callerId id action)) :
    (requests i).resolves = some id := by
  obtain ⟨⟨hrequest, -⟩ | ⟨⟨rejectionReason, hrequest⟩, -⟩, -⟩ := hpre
  · rw [hrequest]
    rfl
  · rw [hrequest]
    rfl

theorem Exclusive.pending_step (h : Exclusive requests log s)
    (hpre : Staged (requests i) (eventsOf i log) e.1) (hC : Uncontested requests log s i e)
    (hs : ServesWrites crypto s e s') (j : ι) (id : JsString)
    (hj : (requests j).approves = some id) (hway : UnderWay (log ++ [(i, e)]) j) :
    ∃ change, s'.changes.get id = some change ∧ change.status = .pendingApproval := by
  by_cases hji : j = i
  · subst hji
    obtain ⟨hends, hbefore | ⟨callerId, id', action, rfl⟩⟩ := hway.before
    · obtain ⟨change, hget, hpending⟩ := h.pending j id hj hbefore
      rcases hs.change hget with hsame | ⟨-, resolution, updated, hresolve, -⟩
      · exact ⟨change, hsame, hpending⟩
      · exact absurd (.inr ⟨_, _, hresolve⟩) hends
    · obtain ⟨hpending, -⟩ := hC callerId id' action rfl
      have hid := hpre.letThrough
      rw [resolves_of_approves hj] at hid
      cases hid
      obtain ⟨change, hget, hstatus⟩ := hpending hj
      rcases hs.change hget with hsame | ⟨-, resolution, updated, hresolve, -⟩
      · exact ⟨change, hsame, hstatus⟩
      · cases hresolve
  · have hbefore := (underWay_other hji).mp hway
    obtain ⟨change, hget, hpending⟩ := h.pending j id hj hbefore
    rcases hs.change hget with hsame | ⟨-, resolution, updated, hresolve, -⟩
    · exact ⟨change, hsame, hpending⟩
    · -- the request that resolves the change would be under way as well
      have hi : UnderWay log i := hpre.underWay (by rw [hresolve]; rfl)
      rw [hresolve] at hpre
      exact absurd (h.alone j i id hj hbefore hpre.resolves hi) hji

theorem Exclusive.alone_step (h : Exclusive requests log s)
    (hpre : Staged (requests i) (eventsOf i log) e.1) (hC : Uncontested requests log s i e)
    (j k : ι) (id : JsString) (hj : (requests j).approves = some id)
    (hwayj : UnderWay (log ++ [(i, e)]) j) (hk : (requests k).resolves = some id)
    (hwayk : UnderWay (log ++ [(i, e)]) k) : j = k := by
  by_cases hjk : j = k
  · exact hjk
  · by_cases hji : j = i
    · subst hji
      have hother := (underWay_other (Ne.symm hjk)).mp hwayk
      obtain ⟨-, hbefore | ⟨callerId, id', action, rfl⟩⟩ := hwayj.before
      · exact h.alone j k id hj hbefore hk hother
      · have hid := hpre.letThrough
        rw [resolves_of_approves hj] at hid
        cases hid
        have hnone := ((hC callerId id action rfl).2 k (Ne.symm hjk) hk hother).1
        rw [hj] at hnone
        cases hnone
    · have hother := (underWay_other hji).mp hwayj
      by_cases hki : k = i
      · subst hki
        obtain ⟨-, hbefore | ⟨callerId, id', action, rfl⟩⟩ := hwayk.before
        · exact h.alone j k id hj hother hk hbefore
        · have hid := hpre.letThrough
          rw [hk] at hid
          cases hid
          have hnone := ((hC callerId id action rfl).2 j hjk (resolves_of_approves hj) hother).2
          rw [hj] at hnone
          cases hnone
      · exact h.alone j k id hj hother hk ((underWay_other hki).mp hwayk)

/-- An approval that has had an effect and ends has resolved its change. -/
theorem Exclusive.approved_of_ends {callerId id : JsString} {e' : GovernanceEvent}
    (h : Exclusive requests log s) (hpre : Staged (requests i) (eventsOf i log) e.1)
    (hs : ServesWrites crypto s e s') (hrequest : requests i = .approve callerId id)
    (hway : UnderWay log i) (hmem : (i, e') ∈ log) (heffect : Effect e') (hends : Ends e) :
    ApprovedBy s' id callerId := by
  obtain ⟨call, answer⟩ := e
  have hnotQuiet : ¬ Quiet (eventsOf i log) := fun hquiet =>
    hquiet.no_effect (mem_eventsOf.mpr hmem) heffect
  cases call with
  | requireStepUpAuthorization => exact absurd hpre.2 hnotQuiet
  | createRecord record =>
    obtain ⟨_, _, _, -, hprepared, -⟩ := hpre
    exact absurd hprepared.quiet hnotQuiet
  | save policyName policyVersion content =>
    rcases hends with ⟨failure, hfailure⟩ | ⟨_, _, hresolve⟩
    · obtain rfl : answer = .error failure := hfailure
      exact absurd rfl (hs.save _ _ _ failure)
    · cases hresolve
  | change block =>
    cases block with
    | resolve id' resolution =>
      rcases hpre with ⟨callerId', existing, u, record, created, n, v, c, hsame, rfl, hprepared, ht⟩
        | ⟨_, _, _, hsame, -⟩
      · rw [hrequest] at hsame
        cases hsame
        obtain ⟨change, hget, hpending⟩ := h.pending i id (approves_eq hrequest) hway
        have hfound : (i, (⟨.findChange id, .ok (some existing)⟩ : GovernanceEvent)) ∈ log := by
          refine mem_eventsOf.mp ?_
          rw [ht]
          exact List.mem_append_left _ hprepared.found
        obtain ⟨-, now, hnow, hproposer⟩ := h.found i id existing hfound
        rw [hget] at hnow
        cases hnow
        refine ⟨_, hs.approves rfl hget hpending, rfl, rfl, ?_⟩
        exact fun hsame => hprepared.checker (hproposer.symm.trans hsame)
      · rw [hrequest] at hsame
        cases hsame
    | findPending => exact absurd hpre hnotQuiet
    | set => exact absurd hpre hnotQuiet
  | _ => exact absurd hpre hnotQuiet


/-- What a request writes, it writes as an approval that is under way. -/
theorem Exclusive.effect_step (hpre : Staged (requests i) (eventsOf i log) e.1)
    (hs : ServesWrites crypto s e s') (heffect : Effect e) :
    ∃ callerId id, requests i = .approve callerId id ∧ UnderWay log i ∧ ¬ Ends e := by
  rcases heffect with ⟨record, created, rfl⟩ | ⟨policyName, policyVersion, content, hsave⟩
  · have hway : UnderWay log i := hpre.underWay rfl
    obtain ⟨callerId, id, -, hrequest, -⟩ := hpre
    exact ⟨callerId, id, hrequest, hway, not_ends_createRecord⟩
  · obtain ⟨call, answer⟩ := e
    subst hsave
    have hway : UnderWay log i := hpre.underWay rfl
    obtain ⟨callerId, id, -, -, -, -, hrequest, -⟩ := hpre
    refine ⟨callerId, id, hrequest, hway, ?_⟩
    cases answer with
    | error failure => exact absurd rfl (hs.save _ _ _ failure)
    | ok answer => exact not_ends_save

theorem Exclusive.effects_step (h : Exclusive requests log s)
    (hpre : Staged (requests i) (eventsOf i log) e.1) (hs : ServesWrites crypto s e s') (j : ι)
    (e' : GovernanceEvent) (hmem : (j, e') ∈ log ++ [(i, e)]) (heffect : Effect e') :
    ∃ callerId id, requests j = .approve callerId id ∧
      (ApprovedBy s' id callerId ∨ UnderWay (log ++ [(i, e)]) j) := by
  rcases List.mem_append.mp hmem with hold | hlast
  · obtain ⟨callerId, id, hrequest, happroved | hway⟩ := h.effects j e' hold heffect
    · exact ⟨callerId, id, hrequest, .inl (hs.approvedBy happroved)⟩
    · refine ⟨callerId, id, hrequest, ?_⟩
      by_cases hji : j = i
      · subst hji
        by_cases hends : Ends e
        · exact .inl (h.approved_of_ends hpre hs hrequest hway hold heffect hends)
        · exact .inr (hway.after hends)
      · exact .inr ((underWay_other hji).mpr hway)
  · obtain ⟨rfl, rfl⟩ := Prod.mk.inj (List.mem_singleton.mp hlast)
    obtain ⟨callerId, id, hrequest, hway, hends⟩ := Exclusive.effect_step hpre hs heffect
    exact ⟨callerId, id, hrequest, .inr (hway.after hends)⟩

/-- A record that is there is an old one, or it was just written. -/
theorem ServesWrites.records (hs : ServesWrites crypto s e s') {record : PolicyChangeApprovalRecord}
    (hmem : record ∈ s'.records.values) : record ∈ s.records.values ∨
      ∃ created, e = ⟨.createRecord record, .ok created⟩ := by
  rcases hs.serves.records with hsame | ⟨written, hcreate, hnew, rfl⟩
  · rw [hsame] at hmem
    exact .inl hmem
  · obtain ⟨call, answer⟩ := e
    subst hcreate
    cases answer with
    | error failure =>
      rw [hs.createRecord written failure rfl] at hmem
      exact .inl hmem
    | ok created =>
      rw [GovernanceStore.addRecord_records, Table.values_set_of_get_none hnew] at hmem
      rcases List.mem_append.mp hmem with hold | hlast
      · exact .inl hold
      · rw [List.mem_singleton.mp hlast]
        exact .inr ⟨created, rfl⟩

/-- The change a record is written for. -/
theorem Exclusive.record_of (h : Exclusive requests log s) {record : PolicyChangeApprovalRecord}
    (hpre : Staged (requests i) (eventsOf i log) (.createRecord record)) :
    requests i = .approve record.approvedBy record.pendingPolicyChangeId := by
  obtain ⟨callerId, id, existing, hrequest, hprepared, hid, rfl⟩ := hpre
  obtain ⟨hsame, -⟩ := h.found i id existing (mem_eventsOf.mp hprepared.found)
  rw [hid, hsame]
  exact hrequest

theorem Exclusive.records_step (h : Exclusive requests log s)
    (hpre : Staged (requests i) (eventsOf i log) e.1) (hs : ServesWrites crypto s e s')
    (record : PolicyChangeApprovalRecord) (hmem : record ∈ s'.records.values) :
    ∃ j created, (j, (⟨.createRecord record, .ok created⟩ : GovernanceEvent)) ∈
        log ++ [(i, e)] ∧
      requests j = .approve record.approvedBy record.pendingPolicyChangeId := by
  rcases hs.records hmem with hold | ⟨created, rfl⟩
  · obtain ⟨j, created, hlog, hrequest⟩ := h.records record hold
    exact ⟨j, created, List.mem_append_left _ hlog, hrequest⟩
  · exact ⟨i, created, List.mem_append_right _ (List.mem_singleton_self _), h.record_of hpre⟩

/-- When an approval writes its record there is none of its change. -/
theorem Exclusive.no_record (h : Exclusive requests log s) {record r : PolicyChangeApprovalRecord}
    (hpre : Staged (requests i) (eventsOf i log) (.createRecord record))
    (hr : r ∈ s.records.values) : r.pendingPolicyChangeId ≠ record.pendingPolicyChangeId := by
  intro hsame
  obtain ⟨j, created, hlog, hrequest⟩ := h.records r hr
  rw [hsame] at hrequest
  have heffect : Effect ⟨.createRecord r, .ok created⟩ := .inl ⟨r, created, rfl⟩
  obtain rfl := h.effect_own (approves_eq (h.record_of hpre))
    (Staged.underWay (e := ⟨.createRecord record, .ok record⟩) hpre rfl) (approves_eq hrequest)
    hlog heffect
  obtain ⟨callerId, id, existing, -, hprepared, -⟩ := hpre
  exact hprepared.quiet.no_effect (mem_eventsOf.mpr hlog) heffect

theorem Exclusive.oneRecord_step (h : Exclusive requests log s)
    (hpre : Staged (requests i) (eventsOf i log) e.1) (hs : ServesWrites crypto s e s') :
    ∀ r ∈ s'.records.values, ∀ r' ∈ s'.records.values,
      r.pendingPolicyChangeId = r'.pendingPolicyChangeId → r = r' := by
  intro r hr r' hr' hsame
  rcases hs.records hr with hold | ⟨created, rfl⟩
  · rcases hs.records hr' with hold' | ⟨created, rfl⟩
    · exact h.oneRecord r hold r' hold' hsame
    · exact absurd hsame (h.no_record hpre hold)
  · rcases hs.records hr' with hold' | ⟨created', hsame'⟩
    · exact absurd hsame.symm (h.no_record hpre hold')
    · cases hsame'
      rfl

/-- When an approval writes the live policy there is no such write before. -/
theorem Exclusive.no_write {id : JsString} (h : Exclusive requests log s)
    (hpre : Staged (requests i) (eventsOf i log) e.1) (happroves : (requests i).approves = some id)
    (hsave : e.1.isSave = true) : writesOf requests id log = [] := by
  obtain ⟨call, answer⟩ := e
  cases call with
  | save policyName policyVersion content =>
    refine List.eq_nil_iff_forall_not_mem.mpr ?_
    rintro ⟨j, e'⟩ hx
    obtain ⟨hlog, hj, hsave'⟩ := mem_writesOf.mp hx
    have heffect := effect_of_isSave hsave'
    obtain rfl := h.effect_own happroves
      (Staged.underWay (e := ⟨.save policyName policyVersion content, answer⟩) hpre rfl) hj hlog
      heffect
    obtain ⟨callerId, id', existing, u, record, created, -, hprepared, ht⟩ := hpre
    have hevent := mem_eventsOf.mpr hlog
    rw [ht] at hevent
    rcases List.mem_append.mp hevent with hu | hlast
    · exact hprepared.quiet.no_effect hu heffect
    · rw [List.mem_singleton.mp hlast] at hsave'
      cases hsave'
  | _ => cases hsave

theorem Exclusive.oneWrite_step (h : Exclusive requests log s)
    (hpre : Staged (requests i) (eventsOf i log) e.1) (id : JsString) :
    (writesOf requests id (log ++ [(i, e)])).length ≤ 1 := by
  have happend : writesOf requests id (log ++ [(i, e)]) =
      writesOf requests id log ++ writesOf requests id [(i, e)] := List.filter_append _ _
  by_cases hwrite : writesOf requests id [(i, e)] = []
  · rw [happend, hwrite, List.append_nil]
    exact h.oneWrite id
  · obtain ⟨x, hx⟩ := List.exists_mem_of_ne_nil _ hwrite
    obtain ⟨hmem, happroves, hsave⟩ := mem_writesOf.mp hx
    obtain rfl := List.mem_singleton.mp hmem
    have hnone := h.no_write hpre happroves hsave
    rw [happend, hnone, List.nil_append]
    exact List.length_filter_le _ [(i, e)]

theorem exclusive_step (h : Exclusive requests log s)
    (hpre : Staged (requests i) (eventsOf i log) e.1) (hC : Uncontested requests log s i e)
    (hs : ServesWrites crypto s e s') : Exclusive requests (log ++ [(i, e)]) s' where
  found := h.found_step hs
  pending := h.pending_step hpre hC hs
  alone := h.alone_step hpre hC
  effects := h.effects_step hpre hs
  records := h.records_step hpre hs
  oneRecord := h.oneRecord_step hpre hs
  oneWrite := h.oneWrite_step hpre

variable {changes : PendingPolicyChanges} {policies : LivePolicies} {clock : Int}
  {Q : Pool GovernanceCall GovernanceCall.Answer Failure (fun _ : ι => PolicyChangeResponse)
    GovernanceStore}

theorem exclusive_start :
    Exclusive requests [] { GovernanceStore.new policies clock with changes } where
  found _ _ _ h := absurd h List.not_mem_nil
  pending _ _ _ h := absurd h.passed (by rintro ⟨_, _, _, h⟩; exact absurd h List.not_mem_nil)
  alone _ _ _ _ h := absurd h.passed (by rintro ⟨_, _, _, h⟩; exact absurd h List.not_mem_nil)
  effects _ _ h := absurd h List.not_mem_nil
  records record h := absurd h (Table.not_mem_empty record)
  oneRecord r h := absurd h (Table.not_mem_empty r)
  oneWrite _ := Nat.zero_le 1

omit [DecidableEq ι] in
theorem policyRequests_ensure (i : ι) :
    ((startPolicyChanges crypto re requests changes policies clock).threads i).Ensures history
      (Staged (requests i)) (fun _ _ => True) [] :=
  Ensures.mono handle_staged fun _ _ _ => trivial

/-- **Where no step-up authorization is accepted for a contested change, and what an approval
writes is written, every change has the effects it should have**, in every state of every
interleaving; and the live policy is written only while the change is pending. -/
theorem single_effect_of_uncontested (crypto : PolicyChangeCrypto Key) (re : Policy.RegExp)
    (requests : ι → PolicyChangeRequest) (changes : PendingPolicyChanges)
    (policies : LivePolicies) (clock : Int) {log : List (ι × GovernanceEvent)}
    {Q : Pool GovernanceCall GovernanceCall.Answer Failure (fun _ : ι => PolicyChangeResponse)
      GovernanceStore}
    (h : ExecWhere (ServesWrites crypto) (Uncontested requests)
      (startPolicyChanges crypto re requests changes policies clock) log Q) :
    SingleEffect requests log Q.state ∧
    ∀ i policyName policyVersion content k,
      Q.threads i = .call (.save policyName policyVersion content) k →
        ∃ callerId id change, requests i = .approve callerId id ∧
          Q.state.changes.get id = some change ∧ change.status = .pendingApproval := by
  have hexclusive : Exclusive requests log Q.state :=
    h.induction policyRequests_ensure exclusive_start fun _ _ _ _ _ hinv hpre hC hs =>
      exclusive_step hinv hpre hC hs
  refine ⟨⟨hexclusive.oneRecord, hexclusive.oneWrite, ?_, ?_⟩, ?_⟩
  · intro record hrecord hidle
    obtain ⟨i, created, hlog, hrequest⟩ := hexclusive.records record hrecord
    obtain ⟨callerId, id, hrequest', happroved | hway⟩ :=
      hexclusive.effects i _ hlog (.inl ⟨_, _, rfl⟩)
    · rw [hrequest] at hrequest'
      cases hrequest'
      exact happroved
    · exact absurd hway (hidle i (approves_eq hrequest))
  · rintro i callerId id hrequest hidle ⟨e, hlog, heffect⟩
    obtain ⟨callerId', id', hrequest', happroved | hway⟩ := hexclusive.effects i e hlog heffect
    · rw [hrequest] at hrequest'
      cases hrequest'
      exact happroved
    · exact absurd hway hidle
  · intro i policyName policyVersion content k hi
    have hsteps := h.exec.steps_of_thread i
    rw [hi] at hsteps
    have hpre := pre_of_steps (policyRequests_ensure i) hsteps
    have hway : UnderWay log i :=
      Staged.underWay (e := ⟨.save policyName policyVersion content, .ok ()⟩) hpre rfl
    obtain ⟨callerId, id, -, -, -, -, hrequest, -⟩ := hpre
    obtain ⟨change, hget, hpending⟩ := hexclusive.pending i id (approves_eq hrequest) hway
    exact ⟨callerId, id, change, hrequest, hget, hpending⟩

end Uncontested

/-! ## An approval that is repeated -/

/-- Where nothing fails the stores write what they are to write. -/
theorem servesWrites_of_handled {Key : Type} {crypto : PolicyChangeCrypto Key} {tick : Int → Int}
    {s s' : GovernanceStore} {e : GovernanceEvent} (h : Handled (serve crypto tick) s e s')
    (hrecord : ∀ record, e.1 = .createRecord record →
      s.records.get record.policyChangeApprovalRecordId = none)
    (hchange : ∀ change, e.1 = .change (.set change) →
      s.changes.get change.pendingPolicyChangeId = none)
    (hsave : ∀ policyName policyVersion content, e.1 = .save policyName policyVersion content →
      validNameOrVersion policyName = true ∧ validNameOrVersion policyVersion = true) :
    ServesWrites crypto s e s' where
  serves := serves_of_handled h hrecord
  newId := hchange
  createRecord record failure he := by
    subst he
    cases h
  save policyName policyVersion content failure he := by
    subst he
    obtain ⟨hname, hversion⟩ := hsave _ _ _ rfl
    unfold Handled at h
    dsimp only [serve] at h
    rw [hname, hversion] at h
    cases h
  resolve id resolvedBy he := by
    obtain ⟨call, answer⟩ := e
    subst he
    cases h
    rfl

namespace Repeated
open Refunds

/-- A change, which the checker approves, and somebody else after him. -/
def repeated (secondRequest : PolicyChangeRequest) : Bool → PolicyChangeRequest
  | false => .approve "checker" "change-0"
  | true => secondRequest

/-- The director approves it again. -/
def again : PolicyChangeRequest := .approve "director" "change-0"

/-- The director rejects it. -/
def against : PolicyChangeRequest := .reject "director" "change-0" "too late"

/-- There is no pattern. -/
def re : Policy.RegExp := ⟨fun _ => false, fun _ _ => false⟩

def start (secondRequest : PolicyChangeRequest) :
    Pool GovernanceCall GovernanceCall.Answer Failure (fun _ : Bool => PolicyChangeResponse)
      GovernanceStore :=
  startPolicyChanges crypto re (repeated secondRequest)
    (Table.empty.set (change "change-0" "opening")) .empty 1767225600000

/-- One request after the other. -/
def schedule : List Bool := List.replicate 11 false ++ List.replicate 11 true

/-- The call that resolves a change. -/
def isResolution : GovernanceCall → Bool
  | .change (.resolve ..) => true
  | _ => false

/-- The checker's authorization is accepted while the change is pending, before anything else
is; and the director's after the change has been resolved. -/
def After (log : List (Bool × GovernanceEvent)) (s : GovernanceStore) (i : Bool) :
    GovernanceCall → Prop
  | .change (.set _) => False
  | .save policyName policyVersion _ =>
    validNameOrVersion policyName = true ∧ validNameOrVersion policyVersion = true
  | .requireStepUpAuthorization .. =>
    if i then ∃ x ∈ log, x.1 = false ∧ isResolution x.2.1 = true
    else (∀ x ∈ log, x.1 = false) ∧
      (s.changes.get "change-0").map PendingPolicyChange.status = some .pendingApproval
  | _ => True

instance (log : List (Bool × GovernanceEvent)) (s : GovernanceStore) (i : Bool) :
    ∀ call, Decidable (After log s i call)
  | .change (.set _) => inferInstanceAs (Decidable False)
  | .save .. => inferInstanceAs (Decidable (_ ∧ _))
  | .requireStepUpAuthorization .. => inferInstanceAs (Decidable (if i then _ else _))
  | .change (.findPending ..) | .change (.resolve ..) | .findChange _ | .requireHumanCaller _
  | .load .. | .findMostRecentFor .. | .findMostRecentForName _ | .policyFor _ | .listRecords
  | .createRecord _ | .randomUUID | .now | .sign _ => inferInstanceAs (Decidable True)

theorem After.uncontested {log : List (Bool × GovernanceEvent)} {s : GovernanceStore} {i : Bool}
    {e : GovernanceEvent} (h : After log s i e.1) : Uncontested (repeated against) log s i e := by
  rintro callerId id action rfl
  cases i with
  | false =>
    obtain ⟨hlog, hpending⟩ := h
    refine ⟨?_, ?_⟩
    · intro happroves
      obtain rfl := Option.some.inj happroves
      obtain ⟨change, hget, hstatus⟩ := Option.map_eq_some_iff.mp hpending
      exact ⟨change, hget, hstatus⟩
    · rintro (_ | _) hj - hway
      · exact absurd rfl hj
      · obtain ⟨_, _, _, hpassed⟩ := hway.passed
        exact absurd (hlog _ (mem_eventsOf.mp hpassed)) (by rintro ⟨⟩)
  | true =>
    obtain ⟨⟨i, call, answer⟩, hmem, rfl, hresolution⟩ := h
    refine ⟨fun happroves => absurd happroves (by rintro ⟨⟩), ?_⟩
    rintro (_ | _) hj - hway
    · refine absurd ?_ (hway.going _ (mem_eventsOf.mpr hmem))
      cases call with
      | change block =>
        cases block with
        | resolve id resolution => exact .inr ⟨id, resolution, rfl⟩
        | _ => cases hresolution
      | _ => cases hresolution
    · exact absurd rfl hj

theorem After.serves {log : List (Bool × GovernanceEvent)} {s s' : GovernanceStore} {i : Bool}
    {e : GovernanceEvent} (hnew : CreatesNew s e) (h : After log s i e.1)
    (hs : Handled (serve crypto minute) s e s') : ServesWrites crypto s e s' := by
  obtain ⟨call, answer⟩ := e
  refine servesWrites_of_handled hs hnew ?_ ?_
  · rintro change hcall
    subst hcall
    exact h.elim
  · rintro policyName policyVersion content hcall
    subst hcall
    exact h

theorem run_schedule : ExecWhere (ServesWrites crypto) (Uncontested (repeated against))
    (start against) ((start against).script (serve crypto minute) schedule)
    ((start against).play (serve crypto minute) schedule) :=
  (ExecWhere.play (serve crypto minute) (C := fun log s i e => CreatesNew s e ∧ After log s i e.1)
    schedule (by decide)).mono
      (fun _ _ _ _ _ hC h => After.serves hC.1 hC.2 h) fun _ _ _ _ hC => hC.2.uncontested

end Repeated

open Repeated Refunds in
/-- **A second approval of a change writes a second record and the live policy once more**,
of a change that has been approved already, and only then it is refused. -/
theorem approved_twice : ∃ log Q, Exec (Serves crypto) (start again) log Q ∧
    (Q.threads false).succeeded = true ∧ (Q.threads true).succeeded = false ∧
    (writesOf (repeated again) "change-0" log).length = 2 ∧
    ¬ SingleEffect (repeated again) log Q.state := by
  have hplay := ExecWhere.play (serve crypto minute) (C := fun _ s _ e => CreatesNew s e)
    (P := start again) schedule (by decide +kernel)
  have hwrites : (writesOf (repeated again) "change-0"
      ((start again).script (serve crypto minute) schedule)).length = 2 := by decide +kernel
  refine ⟨_, _, (hplay.mono (fun _ _ _ _ _ hnew h => serves_of_handled h hnew)
    fun _ _ _ _ h => h).exec, by decide +kernel, by decide +kernel, hwrites, fun h => ?_⟩
  have hone := h.oneWrite "change-0"
  rw [hwrites] at hone
  exact absurd hone (by decide)

open Repeated Refunds in
/-- The change is approved, and the director's rejection after that refused: the change has
its one record, and was approved. -/
theorem single_effect_in_turn : ∃ log Q,
    ExecWhere (ServesWrites crypto) (Uncontested (repeated against)) (start against) log Q ∧
    (Q.threads false).succeeded = true ∧ (Q.threads true).succeeded = false ∧
    Q.state.records.values.map (fun record => record.pendingPolicyChangeId) =
      [("change-0" : JsString)] ∧
    SingleEffect (repeated against) log Q.state :=
  ⟨_, _, run_schedule, by decide, by decide, by decide,
    (single_effect_of_uncontested crypto re (repeated against)
      (Table.empty.set (change "change-0" "opening")) .empty 1767225600000 run_schedule).1⟩

end Parmana.Governance

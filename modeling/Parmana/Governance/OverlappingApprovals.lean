import Parmana.Governance.Integrity
import Mathlib.Data.List.Pairwise

/-! # Approvals that overlap

The check is to raise no alarm over what the service itself has written.  The service
links a record to the most recent one it finds, and the check follows the records in the
order of `approvedAt`; it saves a policy after its record, and the check compares the
policy with the most recent record.

Both can come apart.  Another approval may write its record, or save its policy, between
the steps of this one; and of records written in one millisecond the service takes the
first for the most recent and the check the last.  **Where every record is written while
the record its approval has found is still the last of its policy name and version, and
no save replaces what the most recent record approved, nothing is reported**
(`no_false_alarm`).  Two approvals in one millisecond are enough for an alarm
(`same_millisecond`).
-/
namespace Parmana.Governance
open Js Crypto Interaction Interaction.Program

/-! ## Names and keys -/

theorem not_space_of_valid {text : JsString} (h : validNameOrVersion text = true) :
    (0x20 : UInt16) ∉ text.units := by
  unfold validNameOrVersion at h
  rw [Bool.and_eq_true, List.all_eq_true] at h
  intro hspace
  exact absurd (h.2 _ hspace) (by decide)

/-- The key of a name and version that may be used says which they are. -/
theorem pairKey_injective {policyName policyVersion policyName' policyVersion' : JsString}
    (hname : validNameOrVersion policyName = true)
    (hversion : validNameOrVersion policyVersion = true)
    (h : pairKey policyName policyVersion = pairKey policyName' policyVersion') :
    policyName = policyName' ∧ policyVersion = policyVersion' := by
  have hspace : (" " : JsString).units = [0x20] := by decide
  have hunits : ∀ a b : JsString, (pairKey a b).units = a.units ++ 0x20 :: b.units := by
    intro a b
    show (a.units ++ (" " : JsString).units) ++ b.units = _
    rw [hspace, List.append_assoc, List.singleton_append]
  have heq := congrArg JsString.units h
  rw [hunits, hunits] at heq
  obtain ⟨hn, -, hv⟩ := (List.append_cons_inj_of_notMem (not_space_of_valid hname)
    (not_space_of_valid hversion)).mp heq
  cases policyName
  cases policyVersion
  exact ⟨congrArg JsString.mk hn, congrArg JsString.mk hv⟩

/-! ## Records in order -/

/-- Records that are in the order of `approvedAt` already are left so. -/
theorem sortByApprovedAt_of_pairwise {records : List PolicyChangeApprovalRecord}
    (h : records.Pairwise fun a b => a.approvedAt ≤ b.approvedAt) :
    sortByApprovedAt records = records :=
  List.Pairwise.insertionSort_eq h

theorem recordsFor_set {records : ApprovalRecords} {record : PolicyChangeApprovalRecord}
    (hnew : records.get record.policyChangeApprovalRecordId = none)
    (policyName policyVersion : JsString) :
    recordsFor (records.set record) policyName policyVersion =
      recordsFor records policyName policyVersion ++
        if record.policyName = policyName ∧ record.policyVersion = policyVersion then [record]
        else [] := by
  unfold recordsFor
  rw [Table.values_set_of_get_none hnew, List.filter_append]
  congr 1
  by_cases hpair : record.policyName = policyName ∧ record.policyVersion = policyVersion
  · simp [PolicyChangeApprovalRecord.isFor, hpair]
  · rw [if_neg hpair]
    refine List.filter_eq_nil_iff.mpr fun r hr => ?_
    rw [List.mem_singleton.mp hr]
    simpa [PolicyChangeApprovalRecord.isFor] using hpair

/-- After a record is added, the most recent one is it or the one before. -/
theorem findMostRecentFor_set {records : ApprovalRecords} {record latest : PolicyChangeApprovalRecord}
    {policyName policyVersion : JsString}
    (hnew : records.get record.policyChangeApprovalRecordId = none)
    (h : findMostRecentFor (records.set record) policyName policyVersion = some latest) :
    latest = record ∨ findMostRecentFor records policyName policyVersion = some latest := by
  unfold findMostRecentFor at h ⊢
  rw [recordsFor_set hnew] at h
  split at h
  · rw [mostRecent_concat] at h
    cases hbefore : mostRecent (recordsFor records policyName policyVersion) with
    | none =>
      rw [hbefore] at h
      exact Or.inl (Option.some.inj h).symm
    | some before =>
      rw [hbefore] at h
      change some (laterRecord before record) = some latest at h
      unfold laterRecord at h
      split at h
      · exact Or.inl (Option.some.inj h).symm
      · exact Or.inr h
  · rw [List.append_nil] at h
    exact Or.inr h

/-! ## Approvals that do not disturb one another -/

section Orderly
variable {Key : Type} (crypto : PolicyChangeCrypto Key) {ι : Type} [DecidableEq ι]

/-- What a lookup of the most recent record found. -/
def lookup : GovernanceEvent → Option (Option PolicyChangeApprovalRecord)
  | ⟨.findMostRecentFor _ _, .ok found⟩ => some found
  | _ => none

/-- The record an approval has found is still the last of its name and version when its
own is written, and a save does not replace what the most recent record approved by
something else. -/
def Orderly (log : List (ι × GovernanceEvent)) (s : GovernanceStore) (i : ι) :
    GovernanceEvent → Prop
  | ⟨.createRecord record, _⟩ =>
    ∀ prior ∈ (eventsOf i log).filterMap lookup, prior =
      (sortByApprovedAt (recordsFor s.records record.policyName record.policyVersion)).getLast?
  | ⟨.save policyName policyVersion content, _⟩ =>
    match findMostRecentFor s.records policyName policyVersion,
        s.policies.get (policyName, policyVersion) with
    | some latest, some live =>
      crypto.hashPolicyContent (.ofJson live.content) = .ok latest.contentHashAfter →
        crypto.hashPolicyContent (.ofJson content) = .ok latest.contentHashAfter
    | _, _ => True
  | _ => True

/-- Calls are answered by the stores, and the clock does not go back. -/
def ServesInTime (s : GovernanceStore) (e : GovernanceEvent) (s' : GovernanceStore) : Prop :=
  Serves crypto s e s' ∧ s.clock ≤ s'.clock

/-- The content and the times of what is written. -/
structure InOrder (log : List (ι × GovernanceEvent)) (s : GovernanceStore) : Prop where
  found : FoundIsThere log s
  times : ∀ i time, (i, ⟨.now, .ok time⟩) ∈ log → time ≤ s.clock
  approvedAt : ∀ record ∈ s.records.values, record.approvedAt ≤ s.clock
  later : ∀ i policyName policyVersion prior time,
    (i, ⟨.findMostRecentFor policyName policyVersion, .ok (some prior)⟩) ∈ log →
      (i, ⟨.now, .ok time⟩) ∈ log → prior.approvedAt ≤ time
  sorted : ∀ policyName policyVersion, (recordsFor s.records policyName policyVersion).Pairwise
    fun a b => a.approvedAt ≤ b.approvedAt
  linked : ∀ policyName policyVersion,
    crypto.Linked none (recordsFor s.records policyName policyVersion)

instance (log : List (ι × GovernanceEvent)) (s : GovernanceStore) (i : ι) (e : GovernanceEvent) :
    Decidable (Orderly crypto log s i e) := by
  unfold Orderly
  split
  · infer_instance
  · split
    · infer_instance
    · infer_instance
  · infer_instance

variable {crypto} {approvals : ι → Approval} {policies : LivePolicies} {clock : Int}
  {log : List (ι × GovernanceEvent)} {s s' : GovernanceStore}

omit [DecidableEq ι] in
/-- In records that are in order none is later than the last. -/
theorem le_of_getLast? {records : List PolicyChangeApprovalRecord}
    {last : PolicyChangeApprovalRecord}
    (h : records.Pairwise fun a b => a.approvedAt ≤ b.approvedAt)
    (hlast : records.getLast? = some last) : ∀ record ∈ records, record.approvedAt ≤ last.approvedAt := by
  obtain ⟨init, rfl⟩ := List.getLast?_eq_some_iff.mp hlast
  intro record hrecord
  rcases List.mem_append.mp hrecord with hinit | hmem
  · exact (List.pairwise_append.mp h).2.2 record hinit last (List.mem_singleton_self _)
  · rw [List.mem_singleton.mp hmem]

/-- **A record that is written in order keeps the records in order, and the chain.** -/
theorem inOrder_create {i : ι} {record : PolicyChangeApprovalRecord}
    {answer : Except Failure PolicyChangeApprovalRecord}
    (h : InOrder crypto log s)
    (hdrafted : Drafted crypto (approvals i).change (approvals i).approvedBy (eventsOf i log)
      (.createRecord record))
    (horderly : Orderly crypto log s i ⟨.createRecord record, answer⟩) :
    (recordsFor s.records record.policyName record.policyVersion ++ [record]).Pairwise
        (fun a b => a.approvedAt ≤ b.approvedAt) ∧
      crypto.Linked none (recordsFor s.records record.policyName record.policyVersion ++ [record]) := by
  obtain ⟨⟨prior, hlookup, hrecord⟩, hnow, -⟩ := hdrafted
  have hprior := horderly prior (List.mem_filterMap.mpr ⟨_, hlookup, rfl⟩)
  have hsorted := h.sorted record.policyName record.policyVersion
  rw [sortByApprovedAt_of_pairwise hsorted] at hprior
  constructor
  · refine List.pairwise_append.mpr ⟨hsorted, List.pairwise_singleton _ _, fun r hr r' hr' => ?_⟩
    rw [List.mem_singleton.mp hr']
    cases prior with
    | none =>
      rw [List.getLast?_eq_none_iff.mp hprior.symm] at hr
      exact absurd hr List.not_mem_nil
    | some prior =>
      exact (le_of_getLast? hsorted hprior.symm r hr).trans
        (h.later i _ _ prior _ (mem_eventsOf.mp hlookup) (mem_eventsOf.mp hnow))
  · refine HashChain.linked_concat.mpr ⟨h.linked _ _, ?_⟩
    show record.previousRecordHash = _
    rw [hrecord.previousRecordHash, hprior]
    unfold HashChain.lastHash
    rw [Option.or_none]
    rfl

theorem Serves.now_clock {time : Int} (h : Serves crypto s ⟨.now, .ok time⟩ s') : s'.clock = time := by
  cases h
  rfl

/-- **One call keeps what is written in order**, where it is orderly. -/
theorem inOrder_step {i : ι} {e : GovernanceEvent} (h : InOrder crypto log s)
    (hdrafted : Drafted crypto (approvals i).change (approvals i).approvedBy (eventsOf i log) e.1)
    (horderly : Orderly crypto log s i e) (hs : ServesInTime crypto s e s') :
    InOrder crypto (log ++ [(i, e)]) s' where
  found := foundIsThere_step h.found hs.1
  times := by
    intro j time hmem
    rcases List.mem_append.mp hmem with hold | hlast
    · exact (h.times j time hold).trans hs.2
    · cases List.mem_singleton.mp hlast
      exact hs.1.now_clock.ge
  approvedAt := by
    intro record hrecord
    rcases hs.1.records with hsame | ⟨created, hcreate, hnew, rfl⟩
    · rw [hsame] at hrecord
      exact (h.approvedAt record hrecord).trans hs.2
    · rw [GovernanceStore.addRecord_records, Table.values_set_of_get_none hnew] at hrecord
      rcases List.mem_append.mp hrecord with hold | hlast
      · exact h.approvedAt record hold
      · rw [List.mem_singleton.mp hlast]
        rw [hcreate] at hdrafted
        exact h.times i _ (mem_eventsOf.mp hdrafted.2.1)
  later := by
    intro j policyName policyVersion prior time hfound hnow
    rcases List.mem_append.mp hfound with hfoundold | hfoundlast
    · rcases List.mem_append.mp hnow with hnowold | hnowlast
      · exact h.later j _ _ prior time hfoundold hnowold
      · cases List.mem_singleton.mp hnowlast
        have hthere := (mem_recordsFor.mp (h.found _ _ _ prior hfoundold)).1
        exact ((h.approvedAt prior hthere).trans hs.2).trans_eq hs.1.now_clock
    · cases List.mem_singleton.mp hfoundlast
      rcases List.mem_append.mp hnow with hnowold | hnowlast
      · exact absurd rfl (hdrafted.2.2 _ (mem_eventsOf.mpr hnowold))
      · cases List.mem_singleton.mp hnowlast
  sorted := by
    intro policyName policyVersion
    rcases hs.1.records with hsame | ⟨created, hcreate, hnew, rfl⟩
    · rw [hsame]
      exact h.sorted _ _
    · rw [GovernanceStore.addRecord_records, recordsFor_set hnew]
      obtain ⟨call, answer⟩ := e
      subst hcreate
      split
      · rename_i hpair
        obtain ⟨rfl, rfl⟩ := hpair
        exact (inOrder_create h hdrafted horderly).1
      · rw [List.append_nil]
        exact h.sorted _ _
  linked := by
    intro policyName policyVersion
    rcases hs.1.records with hsame | ⟨created, hcreate, hnew, rfl⟩
    · rw [hsame]
      exact h.linked _ _
    · rw [GovernanceStore.addRecord_records, recordsFor_set hnew]
      obtain ⟨call, answer⟩ := e
      subst hcreate
      split
      · rename_i hpair
        obtain ⟨rfl, rfl⟩ := hpair
        exact (inOrder_create h hdrafted horderly).2
      · rw [List.append_nil]
        exact h.linked _ _

/-! ## Records and the policies they approved -/

/-- What was made of each record. -/
structure Applied (crypto : PolicyChangeCrypto Key) (approvals : ι → Approval)
    (log : List (ι × GovernanceEvent)) (s : GovernanceStore) : Prop where
  signed : ∀ i draft signature, (i, ⟨.sign draft, .ok signature⟩) ∈ log →
    ∃ now, crypto.sign draft now = .ok signature
  written : ∀ record ∈ s.records.values, ∃ i answer, (i, ⟨.createRecord record, answer⟩) ∈ log
  there : ∀ i record created, (i, ⟨.createRecord record, .ok created⟩) ∈ log →
    record ∈ s.records.values
  made : ∀ i record answer, (i, ⟨.createRecord record, answer⟩) ∈ log →
    (∃ prior, RecordOf crypto (approvals i).change (approvals i).approvedBy prior record) ∧
      ∃ now, crypto.sign record.toPolicyChangeApprovalDraft now = .ok record.signature
  live : ∀ i policyName policyVersion content latest created,
    findMostRecentFor s.records policyName policyVersion = some latest →
    (i, ⟨.createRecord latest, .ok created⟩) ∈ log →
    (i, ⟨.save policyName policyVersion content, .ok ()⟩) ∈ log →
    ∃ live, s.policies.get (policyName, policyVersion) = some live ∧
      crypto.hashPolicyContent (.ofJson live.content) = .ok latest.contentHashAfter

/-- **One call keeps the live policies at what the most recent records approved**, where it
is orderly. -/
theorem applied_step {i : ι} {e : GovernanceEvent} (h : Applied crypto approvals log s)
    (hdrafted : Drafted crypto (approvals i).change (approvals i).approvedBy (eventsOf i log) e.1)
    (horderly : Orderly crypto log s i e) (hs : Serves crypto s e s') :
    Applied crypto approvals (log ++ [(i, e)]) s' where
  signed := by
    intro j draft signature hmem
    rcases List.mem_append.mp hmem with hold | hlast
    · exact h.signed j draft signature hold
    · cases List.mem_singleton.mp hlast
      cases hs with
      | sign hsign => exact ⟨_, hsign⟩
  written := by
    intro record hrecord
    rcases hs.records with hsame | ⟨created, hcreate, hnew, rfl⟩
    · rw [hsame] at hrecord
      obtain ⟨j, answer, hmem⟩ := h.written record hrecord
      exact ⟨j, answer, List.mem_append_left _ hmem⟩
    · rw [GovernanceStore.addRecord_records, Table.values_set_of_get_none hnew] at hrecord
      rcases List.mem_append.mp hrecord with hold | hlast
      · obtain ⟨j, answer, hmem⟩ := h.written record hold
        exact ⟨j, answer, List.mem_append_left _ hmem⟩
      · obtain ⟨call, answer⟩ := e
        subst hcreate
        rw [List.mem_singleton.mp hlast]
        exact ⟨i, answer, List.mem_append_right _ (List.mem_singleton_self _)⟩
  there := by
    intro j record created hmem
    rcases List.mem_append.mp hmem with hold | hlast
    · exact hs.records_mono (h.there j record created hold)
    · cases List.mem_singleton.mp hlast
      cases hs with
      | createRecord hnew hanswer =>
        rw [GovernanceStore.addRecord_records]
        exact Table.mem_set.mpr (Or.inl rfl)
  made := by
    intro j record answer hmem
    rcases List.mem_append.mp hmem with hold | hlast
    · exact h.made j record answer hold
    · cases List.mem_singleton.mp hlast
      obtain ⟨⟨prior, -, hrecord⟩, -, hsign, -⟩ := hdrafted
      exact ⟨⟨prior, hrecord⟩, h.signed i _ _ (mem_eventsOf.mp hsign)⟩
  live := by
    intro j policyName policyVersion content latest created hlatest hcreated hsaved
    rcases hs.policies with ⟨hpolicies, hnotsave⟩ | ⟨savedName, savedVersion, saved, hsave, rfl⟩
    · have hsavedold : (j, ⟨.save policyName policyVersion content, .ok ()⟩) ∈ log := by
        rcases List.mem_append.mp hsaved with hold | hlast
        · exact hold
        · exact absurd (congrArg Prod.snd (List.mem_singleton.mp hlast)).symm (hnotsave _ _ _)
      rw [hpolicies]
      rcases List.mem_append.mp hcreated with hcreatedold | hcreatedlast
      · rcases hs.records with hsame | ⟨record, hcreate, hnew, rfl⟩
        · rw [hsame] at hlatest
          exact h.live j _ _ content latest created hlatest hcreatedold hsavedold
        · rcases findMostRecentFor_set hnew hlatest with rfl | hold
          · have hthere := Table.mem_iff.mp (h.there j _ created hcreatedold)
            rw [hnew] at hthere
            cases hthere
          · exact h.live j _ _ content latest created hold hcreatedold hsavedold
      · -- an approval has not saved when it writes its record
        cases List.mem_singleton.mp hcreatedlast
        exact absurd rfl (hdrafted.2.2.2 _ (mem_eventsOf.mpr hsavedold) _ _ _)
    · obtain ⟨call, answer⟩ := e
      subst hsave
      rw [GovernanceStore.writePolicy_records] at hlatest
      have hcreatedold : (j, ⟨.createRecord latest, .ok created⟩) ∈ log := by
        rcases List.mem_append.mp hcreated with hold | hlast
        · exact hold
        · cases List.mem_singleton.mp hlast
      show ∃ live, (s.policies.set ⟨savedName, savedVersion, saved⟩).get _ = some live ∧ _
      by_cases hpair : (policyName, policyVersion) = (savedName, savedVersion)
      · obtain ⟨rfl, rfl⟩ := Prod.mk.inj hpair
        refine ⟨_, Table.get_set_self _ _, ?_⟩
        rcases List.mem_append.mp hsaved with hsavedold | hsavedlast
        · obtain ⟨live, hlive, hhash⟩ :=
            h.live j _ _ content latest created hlatest hcreatedold hsavedold
          dsimp only [Orderly] at horderly
          rw [hlatest, hlive] at horderly
          exact horderly hhash
        · -- the save of the approval that wrote the most recent record
          cases List.mem_singleton.mp hsavedlast
          obtain ⟨⟨prior, hrecord⟩, -⟩ := h.made _ latest _ hcreatedold
          obtain ⟨-, -, hcontent, -⟩ := hdrafted
          rw [hcontent]
          exact hrecord.contentHashAfter
      · have hsavedold : (j, ⟨.save policyName policyVersion content, .ok ()⟩) ∈ log := by
          rcases List.mem_append.mp hsaved with hold | hlast
          · exact hold
          · cases List.mem_singleton.mp hlast
            exact absurd rfl hpair
        have hget : (s.policies.set ⟨savedName, savedVersion, saved⟩).get (policyName, policyVersion) =
            s.policies.get (policyName, policyVersion) := Table.get_set_of_ne _ hpair
        rw [hget]
        exact h.live j _ _ content latest created hlatest hcreatedold hsavedold

/-! ## No false alarm -/

theorem approve_straight {change : PendingPolicyChange} {approvedBy : JsString} :
    (approve crypto change approvedBy).Straight fun _ => True := by
  unfold approve ask
  refine Straight.bind (straight_perform.mpr trivial) fun before =>
    Straight.bind straight_done fun contentHashAfter =>
    Straight.bind straight_done fun contentHashBefore =>
    Straight.bind (straight_perform.mpr trivial) fun prior =>
    Straight.bind straight_done fun previousRecordHash =>
    Straight.bind (straight_perform.mpr trivial) fun id =>
    Straight.bind (straight_perform.mpr trivial) fun approvedAt =>
    Straight.bind (straight_perform.mpr trivial) fun signature =>
    Straight.bind (straight_perform.mpr trivial) fun created =>
    Straight.bind (straight_perform.mpr trivial) fun _ => trivial

variable {Q : Pool GovernanceCall GovernanceCall.Answer Failure
  (fun _ : ι => PolicyChangeApprovalRecord) GovernanceStore}

/-- Where approvals are orderly, what is written is in order and applied. -/
theorem orderly_runs
    (h : ExecWhere (ServesInTime crypto) (Orderly crypto)
      (startApprovals crypto approvals policies clock) log Q) :
    InOrder crypto log Q.state ∧ Applied crypto approvals log Q.state := by
  refine h.induction (I := fun log s => InOrder crypto log s ∧
    Applied crypto approvals log s) approvals_ensure ⟨⟨?_, ?_, ?_, ?_, ?_, ?_⟩, ⟨?_, ?_, ?_, ?_, ?_⟩⟩ ?_
  · exact fun _ _ _ _ hmem => absurd hmem List.not_mem_nil
  · exact fun _ _ hmem => absurd hmem List.not_mem_nil
  · exact fun record hrecord => absurd hrecord (Table.not_mem_empty record)
  · exact fun _ _ _ _ _ hmem => absurd hmem List.not_mem_nil
  · exact fun _ _ => List.Pairwise.nil
  · exact fun _ _ => trivial
  · exact fun _ _ _ hmem => absurd hmem List.not_mem_nil
  · exact fun record hrecord => absurd hrecord (Table.not_mem_empty record)
  · exact fun _ _ _ hmem => absurd hmem List.not_mem_nil
  · exact fun _ _ _ hmem => absurd hmem List.not_mem_nil
  · exact fun _ _ _ _ _ _ _ hmem => absurd hmem List.not_mem_nil
  · rintro log s i e s' ⟨hinorder, happlied⟩ hdrafted horderly hs
    exact ⟨inOrder_step hinorder hdrafted horderly hs,
      applied_step happlied hdrafted horderly hs.1⟩

/-- An approval that is done has created its records and saved its policy. -/
theorem done_approved (h : Exec (Serves crypto) (startApprovals crypto approvals policies clock) log Q)
    {i : ι} {result : PolicyChangeApprovalRecord} (hdone : Q.threads i = .done (.ok result)) :
    (∀ e, (i, e) ∈ log → ∃ answer, e.2 = .ok answer) ∧
      (i, ⟨.save (approvals i).change.policyName (approvals i).change.writeVersion
        (approvals i).change.proposedContent, .ok ()⟩) ∈ log := by
  have hruns := h.steps_of_thread i
  rw [hdone] at hruns
  have htraced : Traced (Drafted crypto (approvals i).change (approvals i).approvedBy) _ _ [] :=
    approve_traced fun _ he => absurd he List.not_mem_nil
  have hsaved := post_of_runs htraced hruns result rfl
  exact ⟨fun e he => approve_straight.answers_ok hruns e (mem_eventsOf.mpr he),
    mem_eventsOf.mp hsaved.2⟩

omit [DecidableEq ι] in
/-- Where names and versions may be used, what is collected under the key of a pair are
the records of the pair. -/
theorem collected_eq {records : ApprovalRecords} {record : PolicyChangeApprovalRecord}
    (hvalid : ∀ record ∈ records.values, validNameOrVersion record.policyName = true ∧
      validNameOrVersion record.policyVersion = true) :
    collected records.values (pairKey record.policyName record.policyVersion) =
      recordsFor records record.policyName record.policyVersion := by
  refine List.filter_congr fun r hr => ?_
  unfold PolicyChangeApprovalRecord.isFor
  rw [← Bool.decide_and]
  refine decide_eq_decide.mpr ⟨fun hkey => ?_, fun hpair => by rw [hpair.1, hpair.2]⟩
  exact pairKey_injective (hvalid r hr).1 (hvalid r hr).2 hkey

/-- **No false alarm**: once orderly approvals are done, each most recent record is
verified and is what is live, and each chain is intact. -/
theorem no_false_alarm (hsigns : crypto.Signs)
    (hproposable : ∀ i, (approvals i).change.Proposable)
    (h : ExecWhere (ServesInTime crypto) (Orderly crypto)
      (startApprovals crypto approvals policies clock) log Q)
    (hdone : ∀ i, ∃ record, Q.threads i = .done (.ok record)) :
    Reports crypto Q.state [] := by
  obtain ⟨hinorder, happlied⟩ := orderly_runs h
  have hexec : Exec (Serves crypto) (startApprovals crypto approvals policies clock) log Q :=
    h.exec.mono fun _ _ _ hs => hs.1
  have hmade : ∀ record ∈ Q.state.records.values, ∃ i created prior now,
      (i, ⟨.createRecord record, .ok created⟩) ∈ log ∧
      RecordOf crypto (approvals i).change (approvals i).approvedBy prior record ∧
      crypto.sign record.toPolicyChangeApprovalDraft now = .ok record.signature := by
    intro record hrecord
    obtain ⟨i, answer, hcreated⟩ := happlied.written record hrecord
    obtain ⟨result, hresult⟩ := hdone i
    obtain ⟨created, hok⟩ := (done_approved hexec hresult).1 _ hcreated
    obtain ⟨⟨prior, hof⟩, now, hsign⟩ := happlied.made i record answer hcreated
    have hanswer : answer = .ok created := hok
    rw [hanswer] at hcreated
    exact ⟨i, created, prior, now, hcreated, hof, hsign⟩
  have hvalid : ∀ record ∈ Q.state.records.values, validNameOrVersion record.policyName = true ∧
      validNameOrVersion record.policyVersion = true := by
    intro record hrecord
    obtain ⟨i, -, prior, -, -, hof, -⟩ := hmade record hrecord
    rw [hof.policyName, hof.policyVersion]
    exact hproposable i
  refine reports_iff.mpr (List.append_eq_nil_iff.mpr ⟨?_, ?_⟩)
  · refine List.filterMap_eq_nil_iff.mpr fun pair hpair => ?_
    obtain ⟨first, hfirst, rfl⟩ := mem_distinctVersions hpair
    dsimp only
    cases hlatest : findMostRecentFor Q.state.records first.policyName first.policyVersion with
    | none => rfl
    | some latest =>
      obtain ⟨hlatestmem, hname, hversion⟩ := mem_recordsFor.mp (mostRecent_spec hlatest).1
      obtain ⟨i, created, prior, now, hcreated, hof, hsign⟩ := hmade latest hlatestmem
      obtain ⟨result, hresult⟩ := hdone i
      have hsaved := (done_approved hexec hresult).2
      rw [← hof.policyName, ← hof.policyVersion, hname, hversion] at hsaved
      obtain ⟨live, hlive, hhash⟩ :=
        happlied.live i _ _ _ latest created hlatest hcreated hsaved
      have hload : loadPolicy Q.state.policies first.policyName first.policyVersion =
          some live.content := by
        unfold loadPolicy
        rw [(hvalid first hfirst).1, (hvalid first hfirst).2, hlive]
        rfl
      have hverify : crypto.verify latest = .ok true := PolicyChangeCrypto.verify_sign hsigns hsign
      unfold liveMismatch
      simp only [hload, hverify, hhash, Bind.bind, Except.bind]
      simp [pure, Except.pure, Except.toOption]
  · refine List.filterMap_eq_nil_iff.mpr fun group hgroup => ?_
    cases hmismatch : chainMismatch crypto group with
    | none => rfl
    | some mismatch =>
      obtain ⟨hbroken, -⟩ := chainMismatch_eq_some.mp hmismatch
      rw [group_records hgroup] at hbroken
      cases hrecords : collected Q.state.records.values
          (pairKey group.policyName group.policyVersion) with
      | nil =>
        rw [hrecords] at hbroken
        cases hbroken
      | cons first rest =>
        have hfirst : first ∈ collected Q.state.records.values
            (pairKey group.policyName group.policyVersion) := by
          rw [hrecords]
          exact List.mem_cons_self
        obtain ⟨hmem, hkey⟩ := List.mem_filter.mp hfirst
        rw [← of_decide_eq_true hkey, collected_eq hvalid,
          sortByApprovedAt_of_pairwise (hinorder.sorted _ _)] at hbroken
        have hintact := chainBroken_eq_false.mpr ⟨none, hinorder.linked first.policyName
          first.policyVersion⟩
        rw [hbroken] at hintact
        cases hintact

end Orderly

/-! ## Two approvals in one millisecond -/

namespace Refunds

/-- The first two of the three approvals. -/
def firstTwo (second : Bool) : Approval := if second then approvals ⟨1, by decide⟩ else approvals ⟨0, by decide⟩

/-- They are approved as the others are. -/
def startTwo : Pool GovernanceCall GovernanceCall.Answer Failure
    (fun _ : Bool => PolicyChangeApprovalRecord) GovernanceStore :=
  startApprovals crypto firstTwo .empty 1767225600000

/-- A clock that shows one time, whenever it is read. -/
def oneMillisecond (_ : Int) : Int := 1767225660000

/-- The second approval begins when the first is done. -/
def firstThenSecond : List Bool := List.replicate 7 false ++ List.replicate 7 true

/-- Every record that is created is new, and the clock does not go back. -/
def NewInTime (tick : Int → Int) (s : GovernanceStore) (e : GovernanceEvent) : Prop :=
  CreatesNew s e ∧ s.clock ≤ (serve crypto tick e.1 s).2.clock

instance (tick : Int → Int) (s : GovernanceStore) (e : GovernanceEvent) :
    Decidable (NewInTime tick s e) := instDecidableAnd

theorem servesInTime {tick : Int → Int} {s s' : GovernanceStore} {e : GovernanceEvent}
    (hnew : NewInTime tick s e) (h : Handled (serve crypto tick) s e s') :
    ServesInTime crypto s e s' := by
  refine ⟨serves_of_handled h hnew.1, ?_⟩
  have hclock := hnew.2
  rw [h] at hclock
  exact hclock

/-- What the two approvals leave. -/
def approvedTwo : GovernanceStore :=
  (startTwo.play (serve crypto oneMillisecond) firstThenSecond).state

/-- The two approvals, and what is reported after them. -/
theorem firstThenSecond_creates :
    startTwo.MeetsWhere (serve crypto oneMillisecond)
        (fun _ s _ e => NewInTime oneMillisecond s e) [] firstThenSecond ∧
      (∀ i, ((startTwo.play (serve crypto oneMillisecond) firstThenSecond).threads
        i).succeeded = true) ∧
      (integrityResult crypto approvedTwo).mismatches =
        [⟨"refunds", "1", .contentMismatch⟩] := by
  decide +kernel

theorem runs_firstThenSecond : Exec (ServesInTime crypto) startTwo
    (startTwo.script (serve crypto oneMillisecond) firstThenSecond)
    (startTwo.play (serve crypto oneMillisecond) firstThenSecond) := by
  have hplay := ExecWhere.play (serve crypto oneMillisecond) firstThenSecond
    firstThenSecond_creates.1
  exact (hplay.mono (fun _ _ _ _ _ => servesInTime) fun _ _ _ _ h => h).exec

end Refunds

open Refunds in
/-- **Two approvals in one millisecond**, the second begun when the first was done: the
policy that is live is reported not to be the approved one. -/
theorem same_millisecond : ∃ log Q,
    Exec (ServesInTime crypto) startTwo log Q ∧
      (∀ i, ∃ record, Q.threads i = .done (.ok record)) ∧
      Reports crypto Q.state [⟨"refunds", "1", .contentMismatch⟩] := by
  obtain ⟨-, hdone, hmismatch⟩ := firstThenSecond_creates
  exact ⟨_, _, runs_firstThenSecond, fun i => Program.succeeded_iff.mp (hdone i),
    reports_iff.mpr hmismatch⟩

open Refunds in
/-- Three approvals in turn raise no alarm. -/
theorem no_false_alarm_inTurn : ∃ log Q,
    ExecWhere (ServesInTime crypto) (Orderly crypto) start log Q ∧
      (∀ i, ∃ record, Q.threads i = .done (.ok record)) ∧ Reports crypto Q.state [] := by
  obtain ⟨hmeets, hdone⟩ : start.MeetsWhere (serve crypto minute)
        (fun log s i e => NewInTime minute s e ∧ Orderly crypto log s i e) [] inTurn ∧
      ∀ i, ((start.play (serve crypto minute) inTurn).threads i).succeeded = true := by
    decide +kernel
  have hrun := (ExecWhere.play (serve crypto minute) inTurn hmeets).mono
    (fun _ _ _ _ _ hC => servesInTime hC.1) fun _ _ _ _ hC => hC.2
  refine ⟨_, _, hrun, fun i => Program.succeeded_iff.mp (hdone i), ?_⟩
  refine no_false_alarm ?_ ?_ hrun fun i => Program.succeeded_iff.mp (hdone i)
  · rintro bytes value ⟨⟩
    exact ⟨_, rfl, rfl⟩
  · unfold PendingPolicyChange.Proposable
    decide

end Parmana.Governance

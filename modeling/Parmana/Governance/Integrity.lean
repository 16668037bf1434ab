import Parmana.Governance.PolicyApprovals

/-! # The integrity check at startup

When the server starts, `verifyPolicyGovernanceIntegrityAtStartup` goes through every
policy name and version with an approval record: is the most recent record verified, is
the live policy what it approved, and does each record, in the order of `approvedAt`,
name the one before it?  The check never throws and never blocks: where a read or a hash
fails it goes on without the answer.

The chain is checked from the second record on.  That a record names nothing is never
asked of the first, and **a chain is reported broken exactly when what is left of it is
not the end of the chain that was written** (`chain_broken_iff`): the oldest records can
be taken away without a report (`oldest_removed`).
-/
namespace Parmana.Governance
open Js Crypto Interaction Interaction.Program

/-! ## The check -/

/-- `PolicyGovernanceIntegrityMismatchReason`. -/
inductive MismatchReason where
  | missing
  | contentMismatch
  | signatureInvalid
  | chainBroken
  deriving DecidableEq

/-- `PolicyGovernanceIntegrityMismatch`. -/
structure PolicyGovernanceIntegrityMismatch where
  policyName : JsString
  policyVersion : JsString
  reason : MismatchReason
  deriving DecidableEq

/-- `PolicyGovernanceIntegrityResult`. -/
structure PolicyGovernanceIntegrityResult where
  checked : Nat
  mismatches : List PolicyGovernanceIntegrityMismatch
  deriving DecidableEq

/-- The key a policy name and version are collected under. -/
def pairKey (policyName policyVersion : JsString) : JsString :=
  policyName ++ (" " : JsString) ++ policyVersion

/-- An entry of `distinctVersions`. -/
structure PolicyVersion where
  policyName : JsString
  policyVersion : JsString
  deriving DecidableEq

/-- An entry of `recordsByPair`. -/
structure PairGroup where
  policyName : JsString
  policyVersion : JsString
  records : List PolicyChangeApprovalRecord

/-- `distinctVersions`. -/
abbrev DistinctVersions := Table fun pair : PolicyVersion => pairKey pair.policyName pair.policyVersion

/-- `recordsByPair`. -/
abbrev RecordsByPair := Table fun group : PairGroup => pairKey group.policyName group.policyVersion

/-- The loop that fills `distinctVersions`. -/
def distinctVersions (records : List PolicyChangeApprovalRecord) : DistinctVersions :=
  records.foldl (fun pairs record => pairs.set ⟨record.policyName, record.policyVersion⟩) .empty

/-- One round of the loop that fills `recordsByPair`. -/
def collect (groups : RecordsByPair) (record : PolicyChangeApprovalRecord) : RecordsByPair :=
  match groups.get (pairKey record.policyName record.policyVersion) with
  | some existing => groups.set { existing with records := existing.records ++ [record] }
  | none => groups.set ⟨record.policyName, record.policyVersion, [record]⟩

/-- The loop that fills `recordsByPair`. -/
def recordsByPair (records : List PolicyChangeApprovalRecord) : RecordsByPair :=
  records.foldl collect .empty

section Check
variable {Key : Type} (crypto : PolicyChangeCrypto Key)

/-- What is found for a pair, given its live policy and its most recent record. -/
def liveMismatch (pair : PolicyVersion) (live : Option Json)
    (mostRecent : Option PolicyChangeApprovalRecord) :
    Except Failure (Option PolicyGovernanceIntegrityMismatch) := do
  match mostRecent with
  | none => return none
  | some mostRecent =>
    let signatureValid ← crypto.verify mostRecent
    if !signatureValid then
      return some ⟨pair.policyName, pair.policyVersion, .signatureInvalid⟩
    match live with
    | none => return some ⟨pair.policyName, pair.policyVersion, .missing⟩
    | some live =>
      let liveContentHash ← crypto.hashPolicyContent (.ofJson live)
      if liveContentHash ≠ mostRecent.contentHashAfter then
        return some ⟨pair.policyName, pair.policyVersion, .contentMismatch⟩
      else return none

/-- One round of the loop over `distinctVersions`. -/
def checkLive (pair : PolicyVersion) :
    GovernanceProgram (Option PolicyGovernanceIntegrityMismatch) :=
  tryCatch
    (do
      let live ← ask (.load pair.policyName pair.policyVersion)
      let mostRecent ← ask (.findMostRecentFor pair.policyName pair.policyVersion)
      .done (liveMismatch crypto pair live mostRecent))
    fun error => do
      .done error.logged
      return none

/-- The loop over `distinctVersions`. -/
def checkEach : List PolicyVersion → GovernanceProgram (List PolicyGovernanceIntegrityMismatch)
  | [] => return []
  | pair :: pairs => do
    let found ← checkLive crypto pair
    let others ← checkEach pairs
    return found.toList ++ others

/-- The loop over the sorted records of a pair: whether a record does not name the one
before it.  Where the one before cannot be hashed the loop ends. -/
def chainBroken : List PolicyChangeApprovalRecord → Bool
  | previous :: current :: rest =>
    match crypto.hashPolicyContent previous.data with
    | .error _ => false
    | .ok expectedHash =>
      if current.previousRecordHash ≠ some expectedHash then true
      else chainBroken (current :: rest)
  | _ => false

/-- What is found of the chain of a pair. -/
def chainMismatch (group : PairGroup) : Option PolicyGovernanceIntegrityMismatch :=
  if group.records.length < 2 then none
  else if chainBroken crypto (sortByApprovedAt group.records) then
    some ⟨group.policyName, group.policyVersion, .chainBroken⟩
  else none

/-- `verifyPolicyGovernanceIntegrityAtStartup`. -/
def verifyPolicyGovernanceIntegrityAtStartup : GovernanceProgram PolicyGovernanceIntegrityResult := do
  let records ← tryCatch (do return some (← ask .listRecords)) fun error => do
    .done error.logged
    return none
  match records with
  | none => return ⟨0, []⟩
  | some records =>
    let pairs := (distinctVersions records).values
    let mismatches ← checkEach crypto pairs
    let broken := (recordsByPair records).values.filterMap (chainMismatch crypto)
    return ⟨pairs.length, mismatches ++ broken⟩

/-- What the check finds over stores that answer. -/
def integrityResult (s : GovernanceStore) : PolicyGovernanceIntegrityResult :=
  let pairs := (distinctVersions s.records.values).values
  let mismatches := pairs.filterMap fun pair =>
    (liveMismatch crypto pair (loadPolicy s.policies pair.policyName pair.policyVersion)
      (findMostRecentFor s.records pair.policyName pair.policyVersion)).toOption.join
  let broken := (recordsByPair s.records.values).values.filterMap (chainMismatch crypto)
  ⟨pairs.length, mismatches ++ broken⟩

/-- What the comparison of a live policy throws has a text. -/
theorem liveMismatch_logged {pair : PolicyVersion} {live : Option Json}
    {mostRecent : Option PolicyChangeApprovalRecord} {failure : Failure}
    (h : liveMismatch crypto pair live mostRecent = .error failure) : failure.logged = .ok () := by
  have hmapped : ∀ {α : Type} {x : Except JsString α},
      x.mapError Failure.error = .error failure → failure.logged = .ok () := by
    intro α x hx
    cases x with
    | error message =>
      cases hx
      rfl
    | ok a => cases hx
  unfold liveMismatch at h
  cases mostRecent with
  | none => cases h
  | some mostRecent =>
    dsimp only at h
    cases hverify : crypto.verify mostRecent with
    | error thrown =>
      rw [hverify] at h
      cases h
      exact hmapped hverify
    | ok valid =>
      rw [hverify] at h
      cases valid with
      | false => cases h
      | true =>
        cases live with
        | none => cases h
        | some live =>
          cases hhash : crypto.hashPolicyContent (.ofJson live) with
          | error thrown =>
            rw [ok_bind, if_neg (by simp)] at h
            dsimp only at h
            rw [hhash] at h
            cases h
            exact hmapped hhash
          | ok hash =>
            rw [ok_bind, if_neg (by simp)] at h
            dsimp only at h
            rw [hhash, ok_bind] at h
            split at h <;> cases h

theorem checkLive_runState (tick : Int → Int) (pair : PolicyVersion) (s : GovernanceStore) :
    (checkLive crypto pair).runState (serve crypto tick) s =
      (.ok (liveMismatch crypto pair (loadPolicy s.policies pair.policyName pair.policyVersion)
        (findMostRecentFor s.records pair.policyName pair.policyVersion)).toOption.join, s) := by
  unfold checkLive ask
  rw [runState_tryCatch, runState_bind, runState_perform]
  dsimp only [serve]
  rw [runState_bind, runState_perform]
  dsimp only [serve]
  rw [runState_done]
  cases hfound : liveMismatch crypto pair
    (loadPolicy s.policies pair.policyName pair.policyVersion)
    (findMostRecentFor s.records pair.policyName pair.policyVersion) with
  | error failure =>
    dsimp only
    rw [runState_bind, runState_done, liveMismatch_logged crypto hfound]
    rfl
  | ok found => rfl

theorem checkEach_runState (tick : Int → Int) (pairs : List PolicyVersion) (s : GovernanceStore) :
    (checkEach crypto pairs).runState (serve crypto tick) s =
      (.ok (pairs.filterMap fun pair =>
        (liveMismatch crypto pair (loadPolicy s.policies pair.policyName pair.policyVersion)
          (findMostRecentFor s.records pair.policyName pair.policyVersion)).toOption.join), s) := by
  induction pairs with
  | nil => rfl
  | cons pair pairs ih =>
    rw [checkEach, runState_bind, checkLive_runState]
    dsimp only
    rw [runState_bind, ih, List.filterMap_cons]
    dsimp only
    cases (liveMismatch crypto pair (loadPolicy s.policies pair.policyName pair.policyVersion)
      (findMostRecentFor s.records pair.policyName pair.policyVersion)).toOption.join with
    | none => rfl
    | some found => rfl

/-- **The check reads, and finds what it reads.** -/
theorem verify_runState (tick : Int → Int) (s : GovernanceStore) :
    (verifyPolicyGovernanceIntegrityAtStartup crypto).runState (serve crypto tick) s =
      (.ok (integrityResult crypto s), s) := by
  unfold verifyPolicyGovernanceIntegrityAtStartup ask
  rw [runState_bind, runState_tryCatch, runState_bind, runState_perform]
  dsimp only [serve]
  rw [pure_eq, runState_done]
  dsimp only
  rw [runState_bind, checkEach_runState]
  rfl

end Check

/-! ## What is collected -/

/-- The records that are collected under a key. -/
def collected (records : List PolicyChangeApprovalRecord) (key : JsString) :
    List PolicyChangeApprovalRecord :=
  records.filter fun record => decide (pairKey record.policyName record.policyVersion = key)

section Collect
variable {records : List PolicyChangeApprovalRecord} {record : PolicyChangeApprovalRecord}
  {key : JsString}

theorem collected_concat : collected (records ++ [record]) key =
    collected records key ++
      if pairKey record.policyName record.policyVersion = key then [record] else [] := by
  unfold collected
  rw [List.filter_append]
  congr 1
  by_cases hkey : pairKey record.policyName record.policyVersion = key
  · simp [hkey]
  · simp [hkey]

theorem recordsByPair_concat : recordsByPair (records ++ [record]) =
    collect (recordsByPair records) record := by
  unfold recordsByPair
  rw [List.foldl_append]
  rfl

theorem get_collect {groups : RecordsByPair} :
    ((collect groups record).get key).map PairGroup.records =
      if key = pairKey record.policyName record.policyVersion then
        some (((groups.get key).map PairGroup.records).getD [] ++ [record])
      else (groups.get key).map PairGroup.records := by
  unfold collect
  by_cases hkey : key = pairKey record.policyName record.policyVersion
  · subst hkey
    rw [if_pos rfl]
    cases hget : groups.get (pairKey record.policyName record.policyVersion) with
    | none =>
      dsimp only
      rw [Table.get_set, if_pos rfl]
      rfl
    | some existing =>
      have hexisting := Table.key_of_get hget
      dsimp only at hexisting ⊢
      rw [Table.get_set, if_pos hexisting.symm]
      rfl
  · rw [if_neg hkey]
    cases hget : groups.get (pairKey record.policyName record.policyVersion) with
    | none =>
      dsimp only
      rw [Table.get_set, if_neg hkey]
    | some existing =>
      have hexisting := Table.key_of_get hget
      dsimp only at hexisting ⊢
      rw [Table.get_set, if_neg (hexisting ▸ hkey)]

/-- What is under a key is what is collected under it. -/
theorem get_recordsByPair : ((recordsByPair records).get key).map PairGroup.records =
    if collected records key = [] then none else some (collected records key) := by
  induction records using List.reverseRecOn with
  | nil => rfl
  | append_singleton records record ih =>
    rw [recordsByPair_concat, collected_concat, get_collect, ih]
    by_cases hkey : key = pairKey record.policyName record.policyVersion
    · have hne : collected records key ++ [record] ≠ [] := by simp
      rw [if_pos hkey, if_pos hkey.symm, if_neg hne]
      by_cases hnone : collected records key = []
      · simp [hnone]
      · simp [hnone]
    · rw [if_neg hkey, if_neg (Ne.symm hkey), List.append_nil]

theorem group_records {group : PairGroup} (h : group ∈ (recordsByPair records).values) :
    group.records = collected records (pairKey group.policyName group.policyVersion) := by
  have hget := @get_recordsByPair records (pairKey group.policyName group.policyVersion)
  rw [Table.mem_iff.mp h] at hget
  split at hget
  · cases hget
  · exact Option.some.inj hget

/-- A pair that is checked is that of a record. -/
theorem mem_distinctVersions {pair : PolicyVersion} (h : pair ∈ (distinctVersions records).values) :
    ∃ record ∈ records, pair = ⟨record.policyName, record.policyVersion⟩ := by
  induction records using List.reverseRecOn with
  | nil => exact absurd h (Table.not_mem_empty pair)
  | append_singleton records record ih =>
    unfold distinctVersions at h ih
    rw [List.foldl_append] at h
    rcases Table.mem_set.mp h with rfl | ⟨hold, -⟩
    · exact ⟨record, by simp, rfl⟩
    · obtain ⟨record', hrecord', rfl⟩ := ih hold
      exact ⟨record', List.mem_append_left _ hrecord', rfl⟩

end Collect

/-! ## What is reported of a chain -/

section Chain
variable {Key : Type} {crypto : PolicyChangeCrypto Key}

theorem chainBroken_eq_false {records : List PolicyChangeApprovalRecord} :
    chainBroken crypto records = false ↔ ∃ p, crypto.Linked p records := by
  induction records with
  | nil => exact ⟨fun _ => ⟨none, trivial⟩, fun _ => rfl⟩
  | cons previous rest ih =>
    cases rest with
    | nil => exact ⟨fun _ => ⟨_, rfl, trivial⟩, fun _ => rfl⟩
    | cons current rest =>
      rw [chainBroken, PolicyChangeCrypto.hash_record]
      dsimp only
      by_cases hprevious : current.previousRecordHash = some (crypto.recordHash previous)
      · rw [if_neg (not_not.mpr hprevious), ih]
        constructor
        · rintro ⟨p, hcurrent, hrest⟩
          exact ⟨_, rfl, hprevious, hrest⟩
        · rintro ⟨p, -, hlinked⟩
          exact ⟨_, hlinked⟩
      · rw [if_pos hprevious]
        constructor
        · rintro ⟨⟩
        · rintro ⟨p, -, hcurrent, -⟩
          exact absurd hcurrent hprevious

theorem chainMismatch_eq_some {group : PairGroup} {mismatch : PolicyGovernanceIntegrityMismatch} :
    chainMismatch crypto group = some mismatch ↔
      chainBroken crypto (sortByApprovedAt group.records) = true ∧
        mismatch = ⟨group.policyName, group.policyVersion, .chainBroken⟩ := by
  unfold chainMismatch
  by_cases hlength : group.records.length < 2
  · rw [if_pos hlength]
    have hshort : chainBroken crypto (sortByApprovedAt group.records) = false := by
      match group.records, hlength with
      | [], _ => rfl
      | [_], _ => rfl
    rw [hshort]
    simp
  · rw [if_neg hlength]
    by_cases hbroken : chainBroken crypto (sortByApprovedAt group.records) = true
    · simp [hbroken, eq_comm]
    · simp [hbroken]

/-- What is found of a live policy is not that a chain is broken. -/
theorem liveMismatch_reason {pair : PolicyVersion} {live : Option Json}
    {mostRecent : Option PolicyChangeApprovalRecord} {mismatch : PolicyGovernanceIntegrityMismatch}
    (h : liveMismatch crypto pair live mostRecent = .ok (some mismatch)) :
    mismatch.reason ≠ .chainBroken := by
  unfold liveMismatch at h
  cases mostRecent with
  | none => cases h
  | some mostRecent =>
    dsimp only at h
    cases hverify : crypto.verify mostRecent with
    | error failure =>
      rw [hverify] at h
      cases h
    | ok signatureValid =>
      rw [hverify] at h
      cases signatureValid with
      | false =>
        cases h
        simp
      | true =>
        cases live with
        | none =>
          cases h
          simp
        | some live =>
          cases hhash : crypto.hashPolicyContent (.ofJson live) with
          | error failure =>
            simp only [hhash, Bind.bind, Except.bind] at h
            cases h
          | ok liveContentHash =>
            simp only [hhash, Bind.bind, Except.bind] at h
            by_cases hsame : liveContentHash = mostRecent.contentHashAfter
            · simp [hsame, pure, Except.pure] at h
            · simp only [hsame, Bool.not_true, Bool.false_eq_true, if_false, ne_eq, not_false_eq_true,
                if_true, pure, Except.pure, Except.ok.injEq, Option.some.injEq] at h
              rw [← h]
              simp

theorem join_eq_some {found : Except Failure (Option PolicyGovernanceIntegrityMismatch)}
    {mismatch : PolicyGovernanceIntegrityMismatch} (h : found.toOption.join = some mismatch) :
    found = .ok (some mismatch) := by
  cases found with
  | error failure => cases h
  | ok found => exact congrArg Except.ok h

/-- Over stores that answer, the check reports these mismatches. -/
def Reports (crypto : PolicyChangeCrypto Key) (s : GovernanceStore)
    (mismatches : List PolicyGovernanceIntegrityMismatch) : Prop :=
  ∃ result, ((verifyPolicyGovernanceIntegrityAtStartup crypto).runState (serve crypto id) s).1 =
    .ok result ∧ result.mismatches = mismatches

theorem reports_iff {s : GovernanceStore} {mismatches : List PolicyGovernanceIntegrityMismatch} :
    Reports crypto s mismatches ↔ (integrityResult crypto s).mismatches = mismatches := by
  unfold Reports
  rw [verify_runState]
  constructor
  · rintro ⟨result, ⟨⟩, hmismatches⟩
    exact hmismatches
  · exact fun hmismatches => ⟨_, rfl, hmismatches⟩

/-- The check reports a reason for a policy name and version. -/
def Reported (crypto : PolicyChangeCrypto Key) (s : GovernanceStore) (reason : MismatchReason)
    (policyName policyVersion : JsString) : Prop :=
  ∃ mismatches, Reports crypto s mismatches ∧ ∃ mismatch ∈ mismatches, mismatch.reason = reason ∧
    pairKey mismatch.policyName mismatch.policyVersion = pairKey policyName policyVersion

/-- The records of a policy name and version, as the check goes through them. -/
def sortedRecords (s : GovernanceStore) (policyName policyVersion : JsString) :
    List PolicyChangeApprovalRecord :=
  sortByApprovedAt (collected s.records.values (pairKey policyName policyVersion))

/-- A broken chain is reported where the loop finds one. -/
theorem reported_chainBroken {s : GovernanceStore} {policyName policyVersion : JsString} :
    Reported crypto s .chainBroken policyName policyVersion ↔
      chainBroken crypto (sortedRecords s policyName policyVersion) = true := by
  have hgroup : ∀ group ∈ (recordsByPair s.records.values).values,
      pairKey group.policyName group.policyVersion = pairKey policyName policyVersion →
      group.records = collected s.records.values (pairKey policyName policyVersion) := by
    intro group hmem hkey
    rw [group_records hmem, hkey]
  constructor
  · rintro ⟨mismatches, hreports, mismatch, hmem, hreason, hkey⟩
    rw [← reports_iff.mp hreports] at hmem
    rcases List.mem_append.mp hmem with hlive | hchain
    · obtain ⟨pair, -, hfound⟩ := List.mem_filterMap.mp hlive
      exact absurd hreason (liveMismatch_reason (join_eq_some hfound))
    · obtain ⟨group, hgroupmem, hfound⟩ := List.mem_filterMap.mp hchain
      obtain ⟨hbroken, rfl⟩ := chainMismatch_eq_some.mp hfound
      unfold sortedRecords
      rw [← hgroup group hgroupmem hkey]
      exact hbroken
  · intro hbroken
    have hget := @get_recordsByPair s.records.values (pairKey policyName policyVersion)
    cases hfind : (recordsByPair s.records.values).get (pairKey policyName policyVersion) with
    | none =>
      rw [hfind] at hget
      split at hget
      · rename_i hnone
        unfold sortedRecords at hbroken
        rw [hnone] at hbroken
        cases hbroken
      · cases hget
    | some group =>
      have hmem := Table.mem_of_get hfind
      have hkey := Table.key_of_get hfind
      refine ⟨_, reports_iff.mpr rfl, ⟨group.policyName, group.policyVersion, .chainBroken⟩, ?_,
        rfl, hkey⟩
      refine List.mem_append_right _ (List.mem_filterMap.mpr ⟨group, hmem, ?_⟩)
      refine chainMismatch_eq_some.mpr ⟨?_, rfl⟩
      rw [hgroup group hmem hkey]
      exact hbroken

/-- What is left of the history of `latest` is the end of a chain that was written, and
after it at most records that were altered to come later. -/
def LeavesEnd (crypto : PolicyChangeCrypto Key) (written : ApprovalRecords)
    (latest : PolicyChangeApprovalRecord) (left : List PolicyChangeApprovalRecord) : Prop :=
  ∃ lineage before after, Lineage crypto written lineage latest ∧
    left = before ++ latest :: after ∧
    (before ++ [latest]).map PolicyChangeApprovalRecord.bytes <:+
      (lineage ++ [latest]).map PolicyChangeApprovalRecord.bytes ∧
    crypto.Linked (some (crypto.recordHash latest)) after

variable {ι : Type} [DecidableEq ι] {approvals : ι → Approval} {policies : LivePolicies}
  {clock : Int} {log : List (ι × GovernanceEvent)}

/-- **A chain whose most recent record was left as it was is reported broken exactly when
what is left of it is not the end of the chain that was written.** -/
theorem chain_broken_iff
    {Q : Pool GovernanceCall GovernanceCall.Answer Failure
      (fun _ : ι => PolicyChangeApprovalRecord) GovernanceStore}
    (h : Exec (Serves crypto) (startApprovals crypto approvals policies clock) log Q)
    {policyName policyVersion : JsString} {latest : PolicyChangeApprovalRecord}
    (hlatest : findMostRecentFor Q.state.records policyName policyVersion = some latest)
    {tampered : GovernanceStore} (hkept : latest ∈ tampered.records.values)
    (hcollision : Set.InjOn crypto.sha256 (PolicyChangeApprovalRecord.bytes ''
      {record | record ∈ Q.state.records.values ∨ record ∈ tampered.records.values})) :
    Reported crypto tampered .chainBroken policyName policyVersion ↔
      ¬ LeavesEnd crypto Q.state.records latest
        (sortedRecords tampered policyName policyVersion) := by
  obtain ⟨hwritten, hname, hversion⟩ := mem_recordsFor.mp (mostRecent_spec hlatest).1
  obtain ⟨lineage, hlineage⟩ := lineages h latest hwritten
  have hsorted : ∀ record, record ∈ sortedRecords tampered policyName policyVersion ↔
      record ∈ tampered.records.values ∧
        pairKey record.policyName record.policyVersion = pairKey policyName policyVersion := by
    intro record
    unfold sortedRecords sortByApprovedAt collected
    rw [List.mem_insertionSort, List.mem_filter, decide_eq_true_eq]
  rw [reported_chainBroken, ← Bool.not_eq_false, chainBroken_eq_false, not_iff_not]
  constructor
  · rintro ⟨p, hlinked⟩
    have hmem := (hsorted latest).mpr ⟨hkept, by rw [hname, hversion]⟩
    obtain ⟨before, after, hsplit⟩ := List.append_of_mem hmem
    refine ⟨lineage, before, after, hlineage, hsplit, ?_, ?_⟩
    · rw [hsplit, List.append_cons] at hlinked
      refine (HashChain.linked_append.mp hlinked).1.suffix_of_last PolicyChangeApprovalRecord.named
        hcollision ?_ ?_ hlineage.linked rfl
      · intro record hrecord
        refine Or.inr ((hsorted record).mp ?_).1
        rw [hsplit, List.append_cons]
        exact List.mem_append_left _ hrecord
      · exact fun record hrecord => Or.inl (hlineage.written record hrecord).1
    · rw [hsplit, List.append_cons] at hlinked
      have hafter := (HashChain.linked_append.mp hlinked).2
      rw [HashChain.lastHash_concat] at hafter
      exact hafter
  · rintro ⟨lineage', before, after, hlineage', hsplit, hsuffix, hafter⟩
    obtain ⟨p, hbefore⟩ :=
      HashChain.Linked.of_suffix PolicyChangeApprovalRecord.named hsuffix hlineage'.linked
    refine ⟨p, ?_⟩
    rw [hsplit, List.append_cons]
    refine HashChain.linked_append.mpr ⟨hbefore, ?_⟩
    rw [HashChain.lastHash_concat]
    exact hafter

end Chain

/-! ## Records that are taken away -/

namespace Refunds

/-- The stores after the three approvals, without one of the records. -/
def without (policyChangeApprovalRecordId : JsString) : GovernanceStore :=
  { approved with records := approved.records.delete policyChangeApprovalRecordId }

theorem without_records (id : JsString) : (without id).records.values =
    records.filter fun record => decide (record.policyChangeApprovalRecordId ≠ id) := by
  rw [← approved_records]
  rfl

theorem latest_record : findMostRecentFor approved.records "refunds" "1" = records.getLast? := by
  rw [findMostRecentFor, recordsFor, approved_records]
  decide

theorem sorted_without (id : JsString) : sortedRecords (without id) "refunds" "1" =
    sortByApprovedAt (collected (records.filter fun record =>
      decide (record.policyChangeApprovalRecordId ≠ id)) (pairKey "refunds" "1")) := by
  rw [sortedRecords, without_records]

end Refunds

open Refunds in
/-- **The oldest of three records is taken away**, and no broken chain is reported. -/
theorem oldest_removed : ∃ log Q,
    Exec (Serves crypto) start log Q ∧ Q.state.records.values.length = 3 ∧
      ∃ tampered : GovernanceStore, tampered.records.values = Q.state.records.values.tail ∧
        ¬ Reported crypto tampered .chainBroken "refunds" "1" := by
  refine ⟨_, start.play (serve crypto minute) inTurn, runs_inTurn, ?_, without "record-0", ?_, ?_⟩
  · rw [← approved, approved_records]
    rfl
  · rw [without_records, ← approved, approved_records]
    decide
  · have hleft : sortedRecords (without "record-0") "refunds" "1" = records.tail := by
      rw [sorted_without]
      decide
    rw [reported_chainBroken, hleft, Bool.not_eq_true]
    exact chainBroken_eq_false.mpr ⟨_, records_linked.2⟩

open Refunds in
/-- The second of them is taken away, and that is reported. -/
theorem chain_broken_second : ∃ latest, records.getLast? = some latest ∧
    Reported crypto (without "record-1") .chainBroken "refunds" "1" ∧
      (Reported crypto (without "record-1") .chainBroken "refunds" "1" ↔
        ¬ LeavesEnd crypto approved.records latest
          (sortedRecords (without "record-1") "refunds" "1")) := by
  have hreported : Reported crypto (without "record-1") .chainBroken "refunds" "1" := by
    have hleft : sortedRecords (without "record-1") "refunds" "1" =
        [record 0 none none, record 2 (some (contentHash 1)) (some (recordHash 1))] := by
      rw [sorted_without]
      decide
    rw [reported_chainBroken, hleft, ← Bool.not_eq_false, chainBroken_eq_false]
    rintro ⟨p, -, hnames, -⟩
    -- the third record names the second, which is not the one before it any more
    have hsame := Option.some.inj hnames
    rw [show crypto.sha256 (record 0 none none).bytes = recordHash 0 from
      (List.cons.inj records_hash).1] at hsame
    exact absurd hsame (by decide)
  refine ⟨_, rfl, hreported, chain_broken_iff runs_inTurn latest_record ?_ ?_⟩
  · rw [without_records]
    decide
  · refine records_collisionFree.mono (Set.image_mono ?_)
    rintro record (hrecord | hrecord)
    · rw [← approved, approved_records] at hrecord
      exact hrecord
    · rw [without_records] at hrecord
      exact List.mem_of_mem_filter hrecord

end Parmana.Governance

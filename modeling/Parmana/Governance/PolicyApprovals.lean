import Parmana.Governance.ApprovalRecords
import Parmana.Governance.PendingPolicyChanges

/-! # Approving a policy change

`PolicyChangeApprovalService.approve` gives an approved change its two effects: it
writes a signed record, which names the most recent one there is, and then the live
policy.  Reading that record, writing the new one and saving the policy are separate
steps, and other approvals move between them.

`Serves` says how each call is answered.  A call may always fail, and a write that fails
may have taken effect.  What an approval has done when it makes each of its calls is said
once, in `Drafted`; from it, every record there is ends a chain of records of its policy
name and version (`lineages`), in whatever company the approvals run.
-/
namespace Parmana.Governance
open Js Crypto Interaction Interaction.Program

/-! ## Live policies -/

/-- A policy at the version it is live at. -/
structure LivePolicy where
  policyName : JsString
  policyVersion : JsString
  content : Json
  deriving DecidableEq

/-- The policies of `PolicyRepository`. -/
abbrev LivePolicies := Table fun policy : LivePolicy => (policy.policyName, policy.policyVersion)

/-- `VALID_NAME_OR_VERSION.test(text)`: `^[A-Za-z0-9._-]+$`. -/
def validNameOrVersion (text : JsString) : Bool :=
  !text.isEmpty && text.units.all fun u =>
    (0x41 ≤ u && u ≤ 0x5A) || (0x61 ≤ u && u ≤ 0x7A) || (0x30 ≤ u && u ≤ 0x39) ||
      u = 0x2E || u = 0x5F || u = 0x2D

/-- `load`, with nothing where it throws `PolicyNotFoundError`. -/
def loadPolicy (policies : LivePolicies) (policyName policyVersion : JsString) : Option Json :=
  if validNameOrVersion policyName && validNameOrVersion policyVersion then
    (policies.get (policyName, policyVersion)).map LivePolicy.content
  else none

/-- `proposedContent.policyVersion`: the version the change is written at.  The route that
proposes a change takes only a text here. -/
def PendingPolicyChange.writeVersion (change : PendingPolicyChange) : JsString :=
  match change.proposedContent with
  | .obj fs =>
    match Fields.own? fs "policyVersion" with
    | some (.str version) => version
    | _ => ""
  | _ => ""

/-- What the route that proposes a change checks of its name and version. -/
def PendingPolicyChange.Proposable (change : PendingPolicyChange) : Prop :=
  validNameOrVersion change.policyName = true ∧ validNameOrVersion change.writeVersion = true

/-! ## Calls -/

/-- A call of the governance of policies. -/
inductive GovernanceCall where
  /-- `pendingPolicyChangeRepository.findById` -/
  | findChange (pendingPolicyChangeId : JsString)
  /-- A block of the repository of pending changes. -/
  | change (block : MemoryPendingPolicyChangeRepository.Block)
  | requireHumanCaller (callerId : JsString)
  | requireStepUpAuthorization (callerId pendingPolicyChangeId action : JsString)
  | load (policyName policyVersion : JsString)
  | save (policyName policyVersion : JsString) (content : Json)
  | findMostRecentFor (policyName policyVersion : JsString)
  | findMostRecentForName (policyName : JsString)
  /-- `externalBindings.policyFor` -/
  | policyFor (capability : JsString)
  /-- `policyChangeApprovalRecordRepository.list` -/
  | listRecords
  /-- `policyChangeApprovalRecordRepository.create` -/
  | createRecord (record : PolicyChangeApprovalRecord)
  | randomUUID
  /-- `new Date()` -/
  | now
  | sign (draft : PolicyChangeApprovalDraft)
  deriving DecidableEq

/-- What a call answers. -/
abbrev GovernanceCall.Answer : GovernanceCall → Type
  | .findChange _ => Option PendingPolicyChange
  | .change block => block.Answer
  | .requireHumanCaller _ | .requireStepUpAuthorization .. | .save .. => Unit
  | .load .. => Option Json
  | .findMostRecentFor .. | .findMostRecentForName _ => Option PolicyChangeApprovalRecord
  | .policyFor _ => Option JsString
  | .listRecords => List PolicyChangeApprovalRecord
  | .createRecord _ => PolicyChangeApprovalRecord
  | .randomUUID => JsString
  | .now => Int
  | .sign _ => RecordSignature

/-- A program of the governance of policies. -/
abbrev GovernanceProgram := Program GovernanceCall GovernanceCall.Answer Failure

/-- A call of it, answered. -/
abbrev GovernanceEvent := Event GovernanceCall GovernanceCall.Answer Failure

/-- Makes a call. -/
def ask (call : GovernanceCall) : GovernanceProgram call.Answer := perform call

/-! ## The service -/

section Service
variable {Key : Type} (crypto : PolicyChangeCrypto Key)

/-- The hash of a value there may be. -/
def hashIfAny (content : Option Data) : Except Failure (Option JsString) :=
  match content with
  | none => .ok none
  | some content => (crypto.hashPolicyContent content).map some

/-- `PolicyChangeApprovalService.approve`. -/
def approve (change : PendingPolicyChange) (approvedBy : JsString) :
    GovernanceProgram PolicyChangeApprovalRecord := do
  let before ← ask (.load change.policyName change.writeVersion)
  let contentHashAfter ← .done (crypto.hashPolicyContent (.ofJson change.proposedContent))
  let contentHashBefore ← .done (hashIfAny crypto (before.map .ofJson))
  let priorRecord ← ask (.findMostRecentFor change.policyName change.writeVersion)
  let previousRecordHash ←
    .done (hashIfAny crypto (priorRecord.map PolicyChangeApprovalRecord.data))
  let policyChangeApprovalRecordId ← ask .randomUUID
  let approvedAt ← ask .now
  let draft : PolicyChangeApprovalDraft := {
    policyChangeApprovalRecordId, pendingPolicyChangeId := change.pendingPolicyChangeId,
    policyName := change.policyName, policyVersion := change.writeVersion,
    proposedBy := change.proposedBy, approvedBy, proposedAt := change.proposedAt, approvedAt,
    contentHashBefore, contentHashAfter, previousRecordHash }
  let signature ← ask (.sign draft)
  let created ← ask (.createRecord ⟨draft, signature⟩)
  ask (.save change.policyName change.writeVersion change.proposedContent)
  return created

end Service

/-! ## The stores -/

/-- What the repositories hold, the last time that was read, and how many identifiers
have been drawn. -/
structure GovernanceStore where
  changes : PendingPolicyChanges
  records : ApprovalRecords
  policies : LivePolicies
  clock : Int
  drawn : Nat

/-- No changes and no records. -/
def GovernanceStore.new (policies : LivePolicies) (clock : Int) : GovernanceStore :=
  ⟨.empty, .empty, policies, clock, 0⟩

namespace GovernanceStore
variable (s : GovernanceStore)

/-- With a record added. -/
def addRecord (record : PolicyChangeApprovalRecord) : GovernanceStore :=
  { s with records := s.records.set record }

/-- With a policy written. -/
def writePolicy (policyName policyVersion : JsString) (content : Json) : GovernanceStore :=
  { s with policies := s.policies.set ⟨policyName, policyVersion, content⟩ }

@[simp] theorem addRecord_records (record : PolicyChangeApprovalRecord) :
    (s.addRecord record).records = s.records.set record := rfl

@[simp] theorem addRecord_policies (record : PolicyChangeApprovalRecord) :
    (s.addRecord record).policies = s.policies := rfl

@[simp] theorem addRecord_clock (record : PolicyChangeApprovalRecord) :
    (s.addRecord record).clock = s.clock := rfl

@[simp] theorem addRecord_changes (record : PolicyChangeApprovalRecord) :
    (s.addRecord record).changes = s.changes := rfl

@[simp] theorem writePolicy_records (policyName policyVersion : JsString) (content : Json) :
    (s.writePolicy policyName policyVersion content).records = s.records := rfl

@[simp] theorem writePolicy_clock (policyName policyVersion : JsString) (content : Json) :
    (s.writePolicy policyName policyVersion content).clock = s.clock := rfl

@[simp] theorem writePolicy_changes (policyName policyVersion : JsString) (content : Json) :
    (s.writePolicy policyName policyVersion content).changes = s.changes := rfl

end GovernanceStore

section Serves
variable {Key : Type} (crypto : PolicyChangeCrypto Key)

/-- How a call is answered.  A record that is created is new.  Which policy a registered
connector names is not up to these stores. -/
inductive Serves : GovernanceStore → GovernanceEvent → GovernanceStore → Prop where
  | findChange {s id} : Serves s ⟨.findChange id, .ok (s.changes.get id)⟩ s
  | change {s block answer changes}
      (h : MemoryPendingPolicyChangeRepository.run block s.changes = (answer, changes)) :
      Serves s ⟨.change block, answer⟩ { s with changes }
  | requireHumanCaller {s callerId} : Serves s ⟨.requireHumanCaller callerId, .ok ()⟩ s
  | requireStepUpAuthorization {s callerId id action} :
      Serves s ⟨.requireStepUpAuthorization callerId id action, .ok ()⟩ s
  | load {s policyName policyVersion} :
      Serves s ⟨.load policyName policyVersion,
        .ok (loadPolicy s.policies policyName policyVersion)⟩ s
  /-- A file that cannot be read is taken for one that is not there. -/
  | unread {s policyName policyVersion} : Serves s ⟨.load policyName policyVersion, .ok none⟩ s
  | findMostRecentFor {s policyName policyVersion} :
      Serves s ⟨.findMostRecentFor policyName policyVersion,
        .ok (findMostRecentFor s.records policyName policyVersion)⟩ s
  | findMostRecentForName {s policyName} :
      Serves s ⟨.findMostRecentForName policyName,
        .ok (findMostRecentForName s.records policyName)⟩ s
  | policyFor {s capability policyName} : Serves s ⟨.policyFor capability, .ok policyName⟩ s
  | listRecords {s} : Serves s ⟨.listRecords, .ok s.records.values⟩ s
  | createRecord {s record answer} (hnew : s.records.get record.policyChangeApprovalRecordId = none)
      (hanswer : answer = .ok record ∨ ∃ failure, answer = .error failure) :
      Serves s ⟨.createRecord record, answer⟩ (s.addRecord record)
  | save {s policyName policyVersion content answer}
      (hname : validNameOrVersion policyName = true)
      (hversion : validNameOrVersion policyVersion = true)
      (hanswer : answer = .ok () ∨ ∃ failure, answer = .error failure) :
      Serves s ⟨.save policyName policyVersion content, answer⟩
        (s.writePolicy policyName policyVersion content)
  | randomUUID {s id} : Serves s ⟨.randomUUID, .ok id⟩ { s with drawn := s.drawn + 1 }
  | now {s time} : Serves s ⟨.now, .ok time⟩ { s with clock := time }
  | sign {s draft now signature} (h : crypto.sign draft now = .ok signature) :
      Serves s ⟨.sign draft, .ok signature⟩ s
  | failed {s call failure} : Serves s ⟨call, .error failure⟩ s
  /-- A write of a change that fails and has taken effect. -/
  | failedChange {s block failure} : Serves s ⟨.change block, .error failure⟩
      { s with changes := (MemoryPendingPolicyChangeRepository.run block s.changes).2 }

/-- The stores where nothing fails, the clock moving on by `tick` when it is read and
identifiers being numbered. -/
def serve (tick : Int → Int) :
    (call : GovernanceCall) → GovernanceStore → Except Failure call.Answer × GovernanceStore
  | .findChange id, s => (.ok (s.changes.get id), s)
  | .change block, s =>
    let (answer, changes) := MemoryPendingPolicyChangeRepository.run block s.changes
    (answer, { s with changes })
  | .requireHumanCaller _, s => (.ok (), s)
  | .requireStepUpAuthorization _ _ _, s => (.ok (), s)
  | .load policyName policyVersion, s => (.ok (loadPolicy s.policies policyName policyVersion), s)
  | .save policyName policyVersion content, s =>
    if validNameOrVersion policyName && validNameOrVersion policyVersion then
      (.ok (), s.writePolicy policyName policyVersion content)
    else (.error (.policyError (("Refusing to write policy '" : JsString) ++ policyName ++
      ("' version '" : JsString) ++ policyVersion ++
      ("': name and version must match ^[A-Za-z0-9._-]+$." : JsString))), s)
  | .findMostRecentFor policyName policyVersion, s =>
    (.ok (findMostRecentFor s.records policyName policyVersion), s)
  | .findMostRecentForName policyName, s => (.ok (findMostRecentForName s.records policyName), s)
  | .policyFor _, s => (.ok none, s)
  | .listRecords, s => (.ok s.records.values, s)
  | .createRecord record, s => (.ok record, s.addRecord record)
  | .randomUUID, s => (.ok (("record-" : JsString) ++ JsString.ofNat s.drawn),
      { s with drawn := s.drawn + 1 })
  | .now, s => (.ok (tick s.clock), { s with clock := tick s.clock })
  | .sign draft, s => (crypto.sign draft s.clock, s)

variable {crypto} {s s' : GovernanceStore} {e : GovernanceEvent}

/-- Where identifiers are new, these stores are stores. -/
theorem serves_of_handled {tick : Int → Int} (h : Handled (serve crypto tick) s e s')
    (hnew : ∀ record, e.1 = .createRecord record →
      s.records.get record.policyChangeApprovalRecordId = none) : Serves crypto s e s' := by
  obtain ⟨call, answer⟩ := e
  unfold Handled at h
  cases call with
  | findChange id =>
    cases h
    exact .findChange
  | change block =>
    cases h
    exact .change rfl
  | requireHumanCaller callerId =>
    cases h
    exact .requireHumanCaller
  | requireStepUpAuthorization callerId id action =>
    cases h
    exact .requireStepUpAuthorization
  | load policyName policyVersion =>
    cases h
    exact .load
  | save policyName policyVersion content =>
    dsimp only [serve] at h
    split at h
    · rename_i hvalid
      cases h
      rw [Bool.and_eq_true] at hvalid
      exact .save hvalid.1 hvalid.2 (.inl rfl)
    · cases h
      exact .failed
  | findMostRecentFor policyName policyVersion =>
    cases h
    exact .findMostRecentFor
  | findMostRecentForName policyName =>
    cases h
    exact .findMostRecentForName
  | policyFor capability =>
    cases h
    exact .policyFor
  | listRecords =>
    cases h
    exact .listRecords
  | createRecord record =>
    cases h
    exact .createRecord (hnew record rfl) (.inl rfl)
  | randomUUID =>
    cases h
    exact .randomUUID
  | now =>
    cases h
    exact .now
  | sign draft =>
    obtain ⟨hanswer, rfl⟩ := Prod.mk.inj h
    subst hanswer
    show Serves crypto s ⟨.sign draft, crypto.sign draft s.clock⟩ s
    cases hsign : crypto.sign draft s.clock with
    | error failure => exact .failed
    | ok signature => exact .sign hsign

/-- Only the creation of a record changes the records. -/
theorem Serves.records (h : Serves crypto s e s') : s'.records = s.records ∨
    ∃ record, e.1 = .createRecord record ∧
      s.records.get record.policyChangeApprovalRecordId = none ∧ s' = s.addRecord record := by
  cases h with
  | createRecord hnew hanswer => exact Or.inr ⟨_, rfl, hnew, rfl⟩
  | _ => exact Or.inl rfl

/-- Only a save changes the policies. -/
theorem Serves.policies (h : Serves crypto s e s') :
    (s'.policies = s.policies ∧
      ∀ policyName policyVersion content, e ≠ ⟨.save policyName policyVersion content, .ok ()⟩) ∨
    ∃ policyName policyVersion content, e.1 = .save policyName policyVersion content ∧
      s' = s.writePolicy policyName policyVersion content := by
  cases h with
  | save hname hversion hanswer => exact Or.inr ⟨_, _, _, rfl, rfl⟩
  | _ =>
    refine Or.inl ⟨rfl, ?_⟩
    rintro policyName policyVersion content ⟨⟩

/-- Only the clock moves the time. -/
theorem Serves.clock (h : Serves crypto s e s') : s'.clock = s.clock ∨
    ∃ time, e = ⟨.now, .ok time⟩ ∧ s' = { s with clock := time } := by
  cases h with
  | now => exact Or.inr ⟨_, rfl, rfl⟩
  | _ => exact Or.inl rfl

theorem Serves.found {policyName policyVersion : JsString}
    {found : Option PolicyChangeApprovalRecord}
    (h : Serves crypto s ⟨.findMostRecentFor policyName policyVersion, .ok found⟩ s') :
    found = Governance.findMostRecentFor s.records policyName policyVersion ∧ s' = s := by
  cases h
  exact ⟨rfl, rfl⟩

/-- The records there are stay. -/
theorem Serves.records_mono (h : Serves crypto s e s') {record : PolicyChangeApprovalRecord}
    (hrecord : record ∈ s.records.values) : record ∈ s'.records.values := by
  rcases h.records with hsame | ⟨created, -, hnew, rfl⟩
  · rw [hsame]
    exact hrecord
  · rw [GovernanceStore.addRecord_records, Table.values_set_of_get_none hnew]
    exact List.mem_append_left _ hrecord

end Serves

/-! ## What an approval has done at its calls -/

section Approval
variable {Key : Type} (crypto : PolicyChangeCrypto Key) (change : PendingPolicyChange)
  (approvedBy : JsString)

/-- The record an approval writes once it has read `prior`. -/
structure RecordOf (prior : Option PolicyChangeApprovalRecord)
    (record : PolicyChangeApprovalRecord) : Prop where
  pendingPolicyChangeId : record.pendingPolicyChangeId = change.pendingPolicyChangeId
  policyName : record.policyName = change.policyName
  policyVersion : record.policyVersion = change.writeVersion
  approver : record.approvedBy = approvedBy
  contentHashAfter :
    crypto.hashPolicyContent (.ofJson change.proposedContent) = .ok record.contentHashAfter
  previousRecordHash : record.previousRecordHash = prior.map crypto.recordHash

/-- What an approval has done when it makes a call. -/
def Drafted (t : List GovernanceEvent) : GovernanceCall → Prop
  | .findMostRecentFor policyName policyVersion =>
    policyName = change.policyName ∧ policyVersion = change.writeVersion ∧ ∀ e ∈ t, e.1 ≠ .now
  | .createRecord record =>
    (∃ prior, ⟨.findMostRecentFor change.policyName change.writeVersion, .ok prior⟩ ∈ t ∧
      RecordOf crypto change approvedBy prior record) ∧
    ⟨.now, .ok record.approvedAt⟩ ∈ t ∧
    ⟨.sign record.toPolicyChangeApprovalDraft, .ok record.signature⟩ ∈ t ∧
    ∀ e ∈ t, ∀ policyName policyVersion content, e.1 ≠ .save policyName policyVersion content
  | .save policyName policyVersion content =>
    policyName = change.policyName ∧ policyVersion = change.writeVersion ∧
      content = change.proposedContent ∧
      ∃ record created, ⟨.createRecord record, .ok created⟩ ∈ t
  | _ => True

variable {crypto change approvedBy}

theorem hashIfAny_record {prior : Option PolicyChangeApprovalRecord} {hash : Option JsString}
    (h : hashIfAny crypto (prior.map PolicyChangeApprovalRecord.data) = .ok hash) :
    hash = prior.map crypto.recordHash := by
  cases prior with
  | none => exact (Except.ok.inj h).symm
  | some record =>
    change (crypto.hashPolicyContent record.data).map some = .ok hash at h
    rw [PolicyChangeCrypto.hash_record] at h
    exact (Except.ok.inj h).symm

/-- A history without the calls that matter. -/
def Untouched (t : List GovernanceEvent) : Prop :=
  ∀ e ∈ t, e.1 ≠ .now ∧ ∀ policyName policyVersion content,
    e.1 ≠ .save policyName policyVersion content

theorem Untouched.snoc {t : List GovernanceEvent} {e : GovernanceEvent} (h : Untouched t)
    (hnow : e.1 ≠ .now) (hsave : ∀ n v c, e.1 ≠ .save n v c) : Untouched (t ++ [e]) := by
  intro e' he'
  rcases List.mem_append.mp he' with hold | hlast
  · exact h e' hold
  · rw [List.mem_singleton.mp hlast]
    exact ⟨hnow, hsave⟩

/-- **An approval, followed while it succeeds.** -/
theorem approve_traced {t : List GovernanceEvent} (ht : Untouched t) :
    Traced (Drafted crypto change approvedBy) (approve crypto change approvedBy)
      (fun _ t' => (∃ record created, ⟨.createRecord record, .ok created⟩ ∈ t') ∧
        ⟨.save change.policyName change.writeVersion change.proposedContent, .ok ()⟩ ∈ t') t := by
  unfold approve ask
  refine Traced.bind_perform trivial fun before => Traced.bind_done fun contentHashAfter hafter =>
    Traced.bind_done fun contentHashBefore _ => ?_
  have h₁ := ht.snoc (e := ⟨.load change.policyName change.writeVersion, .ok before⟩) (by simp) (by simp)
  refine Traced.bind_perform ⟨rfl, rfl, fun e he => (h₁ e he).1⟩ fun prior =>
    Traced.bind_done fun previousRecordHash hprevious => ?_
  refine Traced.bind_perform trivial fun id => Traced.bind_perform trivial fun approvedAt =>
    Traced.bind_perform trivial fun signature => ?_
  refine Traced.bind_perform ⟨⟨prior, by simp, rfl, rfl, rfl, rfl, hafter, hashIfAny_record hprevious⟩,
    by simp, by simp, ?_⟩ fun created => ?_
  · intro e he
    simp only [List.mem_append, List.mem_singleton, List.append_assoc] at he
    rcases he with he | rfl | rfl | rfl | rfl | rfl
    · exact (ht e he).2
    all_goals simp
  · refine Traced.bind_perform ⟨rfl, rfl, rfl, _, created, by simp⟩ fun _ => Traced.pure ?_
    exact ⟨⟨_, created, by simp⟩, by simp⟩

end Approval

/-! ## Approvals in company -/

section Company
variable {Key : Type} (crypto : PolicyChangeCrypto Key) {ι : Type} [DecidableEq ι]

/-- An approval: a change, and who approves it. -/
structure Approval where
  change : PendingPolicyChange
  approvedBy : JsString
  deriving DecidableEq

/-- The records `before` lead up to `record`: the first of them names none, and each one
after names the one before it. -/
structure Lineage (records : ApprovalRecords) (before : List PolicyChangeApprovalRecord)
    (record : PolicyChangeApprovalRecord) : Prop where
  linked : crypto.Linked none (before ++ [record])
  written : ∀ r ∈ before ++ [record], r ∈ records.values ∧ r.policyName = record.policyName ∧
    r.policyVersion = record.policyVersion

/-- Approvals side by side, before any record is written. -/
def startApprovals (approvals : ι → Approval) (policies : LivePolicies) (clock : Int) :
    Pool GovernanceCall GovernanceCall.Answer Failure (fun _ : ι => PolicyChangeApprovalRecord)
      GovernanceStore where
  threads i := approve crypto (approvals i).change (approvals i).approvedBy
  state := .new policies clock

variable {crypto} {approvals : ι → Approval} {policies : LivePolicies} {clock : Int}
  {log : List (ι × GovernanceEvent)} {s s' : GovernanceStore}

omit [DecidableEq ι] in
theorem approvals_ensure (i : ι) :
    ((startApprovals crypto approvals policies clock).threads i).Ensures history
      (Drafted crypto (approvals i).change (approvals i).approvedBy) (fun _ _ => True) [] :=
  Ensures.mono (approve_traced fun _ he => absurd he List.not_mem_nil) fun _ _ _ => trivial

/-- What was found is there. -/
def FoundIsThere (log : List (ι × GovernanceEvent)) (s : GovernanceStore) : Prop :=
  ∀ i policyName policyVersion record,
    (i, ⟨.findMostRecentFor policyName policyVersion, .ok (some record)⟩) ∈ log →
      record ∈ recordsFor s.records policyName policyVersion

omit [DecidableEq ι] in
theorem foundIsThere_step {i : ι} {e : GovernanceEvent} (h : FoundIsThere log s)
    (hs : Serves crypto s e s') : FoundIsThere (log ++ [(i, e)]) s' := by
  intro j policyName policyVersion record hmem
  rcases List.mem_append.mp hmem with hold | hlast
  · obtain ⟨hrecord, hpair⟩ := mem_recordsFor.mp (h j _ _ _ hold)
    exact mem_recordsFor.mpr ⟨hs.records_mono hrecord, hpair⟩
  · cases List.mem_singleton.mp hlast
    obtain ⟨hfound, rfl⟩ := hs.found
    exact (mostRecent_spec hfound.symm).1

theorem Lineage.mono {records records' : ApprovalRecords}
    {before : List PolicyChangeApprovalRecord} {record : PolicyChangeApprovalRecord}
    (h : Lineage crypto records before record)
    (hmono : ∀ r ∈ records.values, r ∈ records'.values) :
    Lineage crypto records' before record :=
  ⟨h.linked, fun r hr => ⟨hmono r (h.written r hr).1, (h.written r hr).2⟩⟩

/-- A record that names one of its own policy name and version ends a longer chain. -/
theorem Lineage.concat {records : ApprovalRecords} {before : List PolicyChangeApprovalRecord}
    {prior record : PolicyChangeApprovalRecord} (h : Lineage crypto records before prior)
    (hrecord : record ∈ records.values) (hname : prior.policyName = record.policyName)
    (hversion : prior.policyVersion = record.policyVersion)
    (hprevious : record.previousRecordHash = some (crypto.recordHash prior)) :
    Lineage crypto records (before ++ [prior]) record where
  linked := by
    refine HashChain.linked_concat.mpr ⟨h.linked, ?_⟩
    rw [HashChain.lastHash_concat]
    exact hprevious
  written := by
    intro r hr
    rcases List.mem_append.mp hr with hold | hlast
    · obtain ⟨hmem, hrname, hrversion⟩ := h.written r hold
      exact ⟨hmem, hrname.trans hname, hrversion.trans hversion⟩
    · rw [List.mem_singleton.mp hlast]
      exact ⟨hrecord, rfl, rfl⟩

/-- **Every record ends a chain of records of its policy name and version.** -/
theorem lineages {Q : Pool GovernanceCall GovernanceCall.Answer Failure
      (fun _ : ι => PolicyChangeApprovalRecord) GovernanceStore}
    (h : Exec (Serves crypto) (startApprovals crypto approvals policies clock) log Q) :
    ∀ record ∈ Q.state.records.values, ∃ before, Lineage crypto Q.state.records before record := by
  have hinv := h.where_true.induction (I := fun log s => FoundIsThere log s ∧
    ∀ record ∈ s.records.values, ∃ before, Lineage crypto s.records before record)
    approvals_ensure ⟨?_, ?_⟩ ?_
  · exact hinv.2
  · exact fun _ _ _ _ hmem => absurd hmem List.not_mem_nil
  · exact fun record hrecord => absurd hrecord (Table.not_mem_empty record)
  · rintro log s i e s' ⟨hfound, hlineages⟩ hdrafted - hs
    refine ⟨foundIsThere_step hfound hs, ?_⟩
    rcases hs.records with hsame | ⟨created, hcreate, hnew, rfl⟩
    · rw [hsame]
      exact hlineages
    · have hgrows : ∀ r ∈ s.records.values, r ∈ (s.addRecord created).records.values :=
        fun r hr => hs.records_mono hr
      have hcreated : created ∈ (s.addRecord created).records.values := by
        rw [GovernanceStore.addRecord_records, Table.values_set_of_get_none hnew]
        exact List.mem_append_right _ (List.mem_singleton_self _)
      rw [hcreate] at hdrafted
      obtain ⟨⟨prior, hlookup, hrecord⟩, -⟩ := hdrafted
      intro record hmem
      rw [GovernanceStore.addRecord_records, Table.values_set_of_get_none hnew] at hmem
      rcases List.mem_append.mp hmem with hold | hlast
      · obtain ⟨before, hbefore⟩ := hlineages record hold
        exact ⟨before, hbefore.mono hgrows⟩
      · rw [List.mem_singleton.mp hlast]
        have hprevious := hrecord.previousRecordHash
        cases prior with
        | none =>
          refine ⟨[], ⟨hprevious, trivial⟩, fun r hr => ?_⟩
          rw [List.nil_append] at hr
          rw [List.mem_singleton.mp hr]
          exact ⟨hcreated, rfl, rfl⟩
        | some prior =>
          obtain ⟨hthere, hname, hversion⟩ :=
            mem_recordsFor.mp (hfound i _ _ prior (mem_eventsOf.mp hlookup))
          obtain ⟨before, hbefore⟩ := hlineages prior hthere
          exact ⟨_, (hbefore.mono hgrows).concat hcreated (hname.trans hrecord.policyName.symm)
            (hversion.trans hrecord.policyVersion.symm) hprevious⟩

end Company

/-! ## Three approvals of one policy -/

namespace Refunds

/-- A policy that rejects every refund, for a reason. -/
def policy (reason : JsString) : Json :=
  .obj [("policyId", "refunds"), ("policyVersion", "1"), ("schemaVersion", "1"),
    ("rules", .arr [.obj [("id", "refuse"), ("condition", .obj [("always", .bool true)]),
      ("outcome", .obj [("action", "reject"), ("reason", .str reason)])]])]

/-- A change of it. -/
def change (id reason : JsString) : PendingPolicyChange where
  pendingPolicyChangeId := id
  policyName := "refunds"
  policyVersion := "1"
  proposedContent := policy reason
  proposedBy := "maker"
  proposedAt := 1767225600000
  status := .pendingApproval
  reason := "reason"
  resolvedBy := none
  rejectionReason := none

/-- Three changes of it, one of them approved by the director. -/
def approvals : Fin 3 → Approval
  | 0 => ⟨change "change-0" "opening", "checker"⟩
  | 1 => ⟨change "change-1" "review", "checker"⟩
  | 2 => ⟨change "change-2" "audit", "director"⟩

/-- SHA-256 of the values that are hashed here, which all differ in length. -/
def digest (bytes : List UInt8) : JsString :=
  match bytes.length with
  | 165 => "4889a33cfdb49db16cd952c5f3cf2f4e960ae2016075d631efd11a89d1efd6ce"
  | 446 => "9622a9684eb0469642c29f846205d2d523cda324000b55db33262cd8f4f3e5f6"
  | 164 => "57c484af253f4f9a2f9a7b98b4e9b7d26748b172a9b8580a7b1c52a7bfc0c18e"
  | 621 => "50631c2ca6c3d3adc77f8654907079cd7c7637f5fbf7f20e3c9911c13a0482ee"
  | 163 => "237e6a93a11d8d1ecd9c9092456112ae8cae2e48fb5cbe10ad101a6f9e8d65f5"
  | 622 => "ad5afa31d0cd8c6ef2f0cff86d249c210d86554ca9e4f8ade56294f73af0b1b4"
  | _ => ""

/-- A signer with one signature. -/
def crypto : PolicyChangeCrypto Unit where
  sha256 := digest
  signature := ⟨"ed25519", fun _ value _ => .ok (decide (value = "c2lnbmF0dXJl".toList))⟩
  signer _ _ := .ok "c2lnbmF0dXJl".toList
  getPublicKey _ := .ok ⟨"ed25519", ()⟩

/-- They are approved from the start of the year on. -/
def start : Pool GovernanceCall GovernanceCall.Answer Failure
    (fun _ : Fin 3 => PolicyChangeApprovalRecord) GovernanceStore :=
  startApprovals crypto approvals .empty 1767225600000

/-- A minute passes whenever the clock is read. -/
def minute (time : Int) : Int := time + 60000

/-- One approval after the other. -/
def inTurn : List (Fin 3) := List.replicate 7 0 ++ List.replicate 7 1 ++ List.replicate 7 2

/-- Every record that is created is new. -/
def CreatesNew (s : GovernanceStore) (e : GovernanceEvent) : Prop :=
  ∀ record, e.1 = .createRecord record → s.records.get record.policyChangeApprovalRecordId = none

instance (s : GovernanceStore) (e : GovernanceEvent) : Decidable (CreatesNew s e) :=
  match e with
  | ⟨.createRecord record, _⟩ =>
    decidable_of_iff (s.records.get record.policyChangeApprovalRecordId = none)
      ⟨fun h _ heq => by cases heq; exact h, fun h => h record rfl⟩
  | ⟨.findChange _, _⟩ | ⟨.change _, _⟩ | ⟨.requireHumanCaller _, _⟩
  | ⟨.requireStepUpAuthorization _ _ _, _⟩ | ⟨.load _ _, _⟩ | ⟨.save _ _ _, _⟩
  | ⟨.findMostRecentFor _ _, _⟩ | ⟨.findMostRecentForName _, _⟩ | ⟨.policyFor _, _⟩
  | ⟨.listRecords, _⟩
  | ⟨.randomUUID, _⟩ | ⟨.now, _⟩ | ⟨.sign _, _⟩ => .isTrue fun _ heq => nomatch heq

/-- The stores after that. -/
def approved : GovernanceStore := (start.play (serve crypto minute) inTurn).state

/-- The hash of the content of each change. -/
def contentHash : Fin 3 → JsString
  | 0 => "4889a33cfdb49db16cd952c5f3cf2f4e960ae2016075d631efd11a89d1efd6ce"
  | 1 => "57c484af253f4f9a2f9a7b98b4e9b7d26748b172a9b8580a7b1c52a7bfc0c18e"
  | 2 => "237e6a93a11d8d1ecd9c9092456112ae8cae2e48fb5cbe10ad101a6f9e8d65f5"

/-- The record of a change, given the hashes of what was there before. -/
def record (i : Fin 3) (contentHashBefore previousRecordHash : Option JsString) :
    PolicyChangeApprovalRecord where
  policyChangeApprovalRecordId := ("record-" : JsString) ++ JsString.ofNat i
  pendingPolicyChangeId := (approvals i).change.pendingPolicyChangeId
  policyName := "refunds"
  policyVersion := "1"
  proposedBy := "maker"
  approvedBy := (approvals i).approvedBy
  proposedAt := 1767225600000
  approvedAt := 1767225600000 + 60000 * (i + 1)
  contentHashBefore := contentHashBefore
  contentHashAfter := contentHash i
  previousRecordHash := previousRecordHash
  signature := ⟨"ed25519", "default", "c2lnbmF0dXJl".toList, 1767225600000 + 60000 * (i + 1)⟩

/-- The hash of each record. -/
def recordHash : Fin 3 → JsString
  | 0 => "9622a9684eb0469642c29f846205d2d523cda324000b55db33262cd8f4f3e5f6"
  | 1 => "50631c2ca6c3d3adc77f8654907079cd7c7637f5fbf7f20e3c9911c13a0482ee"
  | 2 => "ad5afa31d0cd8c6ef2f0cff86d249c210d86554ca9e4f8ade56294f73af0b1b4"

/-- The three records. -/
def records : List PolicyChangeApprovalRecord :=
  [record 0 none none, record 1 (some (contentHash 0)) (some (recordHash 0)),
    record 2 (some (contentHash 1)) (some (recordHash 1))]

/-- The approvals one after the other, and the records they leave. -/
theorem inTurn_creates :
    start.MeetsWhere (serve crypto minute) (fun _ s _ e => CreatesNew s e) [] inTurn ∧
      approved.records.values = records := by
  decide +kernel

theorem runs_inTurn : Exec (Serves crypto) start (start.script (serve crypto minute) inTurn)
    (start.play (serve crypto minute) inTurn) := by
  have hplay := ExecWhere.play (serve crypto minute) inTurn inTurn_creates.1
  exact (hplay.mono (fun _ _ _ _ _ hnew h => serves_of_handled h hnew) fun _ _ _ _ h => h).exec

theorem approved_records : approved.records.values = records := inTurn_creates.2

theorem records_hash :
    records.map crypto.recordHash = [recordHash 0, recordHash 1, recordHash 2] := by
  decide +kernel

theorem records_collisionFree : Set.InjOn crypto.sha256 (PolicyChangeApprovalRecord.bytes ''
    {record | record ∈ records}) := by
  have hnodup : (records.map crypto.recordHash).Nodup := by
    rw [records_hash]
    decide
  rintro _ ⟨a, ha, rfl⟩ _ ⟨b, hb, rfl⟩ h
  rw [List.inj_on_of_nodup_map hnodup ha hb h]

theorem records_linked : crypto.Linked none records := by
  obtain ⟨hfirst, hrest⟩ := List.cons.inj records_hash
  exact ⟨rfl, congrArg some hfirst.symm, congrArg some (List.cons.inj hrest).1.symm, trivial⟩

end Refunds

end Parmana.Governance

import Parmana.Challenges.Records
import Parmana.Interaction.Concurrent

/-! # The repositories of challenge records

`MemoryChallengeRecordRepository` keeps the records in a map, and an append there is code that
runs without a pause.  `PostgresChallengeRecordRepository` reads the row of a record, computes
what the append makes of it and writes the columns back, with no transaction around the two.

Both are to keep a ledger: what is stored comes about by the changes that were asked for, each
made once and one after another, and a change that was answered is among them (`Accounted`).
In memory this holds as long as no record is created under an identifier that is taken, since
`create` replaces what is there (`memory_accounted`).  Over Postgres it holds as long as the
row that an append writes is the one it has read (`postgres_accounted`); where another append
comes between the two, one that was answered is lost (`append_lost`).
-/
namespace Parmana
open Js

/-! ## Rows -/

/-- `ChallengeRecordRow`, of texts and times that its columns hold: a JSON column is what its
text stands for, and a time is read back from the text it is written as.  A lone surrogate in
a text would be read back as `U+FFFD`, and an invalid time is refused. -/
structure ChallengeRecordRow where
  challengeRecordId : JsString
  status : ChallengeRecordStatus
  claimChallenged : JsString
  sourceJson : ChallengeRecordSource
  investigationStepsJson : List ChallengeRecordInvestigationStep
  findingJson : Option ChallengeRecordFinding
  outcomeJson : Option ChallengeRecordOutcome
  disclosureJson : Option ChallengeRecordDisclosure
  supersedes : Option JsString
  createdAt : Int
  updatedAt : Int
  deriving DecidableEq

/-- The columns that `UPDATE_CHALLENGE_RECORD_SQL` sets. -/
structure ChallengeRecordColumns where
  status : ChallengeRecordStatus
  investigationStepsJson : List ChallengeRecordInvestigationStep
  findingJson : Option ChallengeRecordFinding
  outcomeJson : Option ChallengeRecordOutcome
  disclosureJson : Option ChallengeRecordDisclosure
  updatedAt : Int

/-- The values of `INSERT_CHALLENGE_RECORD_SQL`. -/
def ChallengeRecord.row (record : ChallengeRecord) : ChallengeRecordRow where
  challengeRecordId := record.challengeRecordId
  status := record.status
  claimChallenged := record.claimChallenged
  sourceJson := record.source
  investigationStepsJson := record.investigationSteps
  findingJson := record.finding
  outcomeJson := record.outcome
  disclosureJson := record.disclosure
  supersedes := record.supersedes
  createdAt := record.createdAt
  updatedAt := record.updatedAt

/-- The values of `UPDATE_CHALLENGE_RECORD_SQL`. -/
def ChallengeRecord.columns (record : ChallengeRecord) : ChallengeRecordColumns where
  status := record.status
  investigationStepsJson := record.investigationSteps
  findingJson := record.finding
  outcomeJson := record.outcome
  disclosureJson := record.disclosure
  updatedAt := record.updatedAt

namespace ChallengeRecordRow
variable (row : ChallengeRecordRow)

/-- `rowToChallengeRecord`.  An empty `supersedes` is read as none. -/
def toChallengeRecord : ChallengeRecord where
  challengeRecordId := row.challengeRecordId
  status := row.status
  claimChallenged := row.claimChallenged
  source := row.sourceJson
  investigationSteps := row.investigationStepsJson
  finding := row.findingJson
  outcome := row.outcomeJson
  disclosure := row.disclosureJson
  supersedes := row.supersedes.filter (· ≠ "")
  createdAt := row.createdAt
  updatedAt := row.updatedAt

/-- The row with its columns set. -/
def write (columns : ChallengeRecordColumns) : ChallengeRecordRow :=
  { row with
    status := columns.status
    investigationStepsJson := columns.investigationStepsJson
    findingJson := columns.findingJson
    outcomeJson := columns.outcomeJson
    disclosureJson := columns.disclosureJson
    updatedAt := columns.updatedAt }

variable {row}

/-- What extends the record of a row is read back once its columns are written. -/
theorem toChallengeRecord_write {updated : ChallengeRecord}
    (h : row.toChallengeRecord.Extends updated) :
    (row.write updated.columns).toChallengeRecord = updated := by
  obtain ⟨hid, hclaim, hsource, hsupersedes, hcreated, -, -, -, -, -⟩ := h
  cases updated
  dsimp only at hid hclaim hsource hsupersedes hcreated
  subst hid hclaim hsource hsupersedes hcreated
  rfl

end ChallengeRecordRow

/-- A record as it is read back. -/
def ChallengeRecord.readBack (record : ChallengeRecord) : ChallengeRecord :=
  record.row.toChallengeRecord

end Parmana

namespace Parmana.Challenges
open Js Edits Interaction Interaction.Program

/-! ## Requests -/

/-- A call of `ChallengeRecordRepository`. -/
inductive ChallengeRequest where
  | create (record : ChallengeRecord)
  | append (challengeRecordId : JsString) (operation : ChallengeRecordAppendOperation)
  | findById (challengeRecordId : JsString)
  | list

/-- What it returns. -/
inductive ChallengeAnswer where
  | record (record : ChallengeRecord)
  | found (record : Option ChallengeRecord)
  | records (records : List ChallengeRecord)

/-- `ChallengeRecordNotFoundError`. -/
def challengeRecordNotFound (challengeRecordId : JsString) : Failure :=
  .parmanaError (("Challenge Record '" : JsString) ++ challengeRecordId ++
    ("' not found." : JsString)) "CHALLENGE_RECORD_NOT_FOUND"

namespace ChallengeRequest

/-- The request changes something. -/
def isWrite : ChallengeRequest → Bool
  | .create _ | .append .. => true
  | _ => false

/-- The change that a request asks for, where a record that is created is kept as `keep`
makes it. -/
def Asks (keep : ChallengeRecord → ChallengeRecord) :
    ChallengeRequest → Change JsString ChallengeRecord TimedAppend → Prop
  | .create record, change => change = .create record.challengeRecordId (keep record)
  | .append challengeRecordId operation, change =>
    ∃ now, change = .edit challengeRecordId (operation, now)
  | _, _ => False

end ChallengeRequest

/-! ## Keeping a ledger -/

section Account
variable {ι : Type} {Op : Type} {Ret : Op → Type}
  {keep : ChallengeRecord → ChallengeRecord} {requests : ι → ChallengeRequest}
  {records records' records'' : JsString → Option ChallengeRecord}

/-- What is stored is accounted for: it comes from what was stored before by changes that were
asked for, one of each client at most, and those of the clients that were `answered` are among
them. -/
structure Accounted (keep : ChallengeRecord → ChallengeRecord) (requests : ι → ChallengeRequest)
    (answered : ι → Prop) (records records' : JsString → Option ChallengeRecord) : Prop where
  /-- The ledger. -/
  ledger : ∃ changes, Ledger TimedAppend.apply records changes records' ∧
    (changes.map Prod.fst).Nodup ∧ (∀ x ∈ changes, (requests x.1).Asks keep x.2) ∧
    ∀ i, answered i → (requests i).isWrite = true → i ∈ changes.map Prod.fst
  /-- Nothing is taken back. -/
  kept : ∀ challengeRecordId record, records challengeRecordId = some record →
    ∃ now, records' challengeRecordId = some now ∧ record.Extends now
  /-- No append that was answered is lost. -/
  shown : ∀ i challengeRecordId operation, answered i →
    requests i = .append challengeRecordId operation →
    ∃ now, records' challengeRecordId = some now ∧ now.Shows operation

/-- What an edit of a ledger adds is there at its end. -/
theorem shows_of_mem {changes : List (ι × Change JsString ChallengeRecord TimedAppend)} {i : ι}
    {challengeRecordId : JsString} {append : TimedAppend}
    (h : Ledger TimedAppend.apply records changes records')
    (hmem : (i, .edit challengeRecordId append) ∈ changes) :
    ∃ now, records' challengeRecordId = some now ∧ now.Shows append.1 := by
  obtain ⟨items₁, items₂, later, hmakes, hlater⟩ := h.of_mem hmem
  cases hmakes with
  | @edit _ _ _ item edited hfound happly =>
    obtain ⟨now, hnow, hextends⟩ := extends_of_ledger hlater (Function.update_self ..)
    exact ⟨now, hnow, hextends.shows (ChallengeRecord.shows_of_apply happly)⟩

theorem Accounted.of_ledger {answered : ι → Prop}
    {changes : List (ι × Change JsString ChallengeRecord TimedAppend)}
    (h : Ledger TimedAppend.apply records changes records') (hnodup : (changes.map Prod.fst).Nodup)
    (hasked : ∀ x ∈ changes, (requests x.1).Asks keep x.2)
    (hanswered : ∀ i, answered i → (requests i).isWrite = true → i ∈ changes.map Prod.fst) :
    Accounted keep requests answered records records' where
  ledger := ⟨changes, h, hnodup, hasked, hanswered⟩
  kept _ _ hrecord := extends_of_ledger h hrecord
  shown i challengeRecordId operation hi hrequest := by
    obtain ⟨⟨j, change⟩, hmem, rfl⟩ := List.mem_map.mp (hanswered i hi (by rw [hrequest]; rfl))
    have hasks := hasked _ hmem
    rw [hrequest] at hasks
    obtain ⟨now, rfl⟩ := hasks
    exact shows_of_mem h hmem

/-- The ledger of a run: its changes are of clients whose write is in the log, and the clients
whose write was answered have one. -/
def Tallied [DecidableEq ι] (keep : ChallengeRecord → ChallengeRecord)
    (requests : ι → ChallengeRequest) (write : Op → Bool)
    (records : JsString → Option ChallengeRecord) (log : List (ι × Event Op Ret Failure))
    (records' : JsString → Option ChallengeRecord) : Prop :=
  ∃ changes, Ledger TimedAppend.apply records changes records' ∧
    (changes.map Prod.fst).Nodup ∧ (∀ x ∈ changes, (requests x.1).Asks keep x.2) ∧
    (∀ i ∈ changes.map Prod.fst, ∃ e ∈ eventsOf i log, write e.1 = true) ∧
    ∀ i e, (i, e) ∈ log → write e.1 = true → (∃ answer, e.2 = .ok answer) →
      i ∈ changes.map Prod.fst

variable [DecidableEq ι] {write : Op → Bool} {log : List (ι × Event Op Ret Failure)} {i : ι}
  {e : Event Op Ret Failure}

theorem eventsOf_subset (j : ι) (x : ι × Event Op Ret Failure) {e : Event Op Ret Failure}
    (h : e ∈ eventsOf j log) : e ∈ eventsOf j (log ++ [x]) :=
  mem_eventsOf.mpr (List.mem_append_left _ (mem_eventsOf.mp h))

theorem tallied_start :
    Tallied keep requests write records ([] : List (ι × Event Op Ret Failure)) records :=
  ⟨[], .nil _, List.nodup_nil, fun _ h => absurd h List.not_mem_nil,
    fun _ h => absurd h List.not_mem_nil, fun _ _ h => absurd h List.not_mem_nil⟩

/-- A call that changes nothing, and was not to or has failed. -/
theorem Tallied.unchanged (h : Tallied keep requests write records log records')
    (hquiet : write e.1 = true → ∀ answer, e.2 ≠ .ok answer) :
    Tallied keep requests write records (log ++ [(i, e)]) records' := by
  obtain ⟨changes, hledger, hnodup, hasked, hwritten, htaken⟩ := h
  refine ⟨changes, hledger, hnodup, hasked, fun j hj => ?_, fun j e' hmem hwrite hok => ?_⟩
  · obtain ⟨e', he', hwrite⟩ := hwritten j hj
    exact ⟨e', eventsOf_subset j _ he', hwrite⟩
  · rcases List.mem_append.mp hmem with hmem | hmem
    · exact htaken j e' hmem hwrite hok
    · obtain ⟨rfl, rfl⟩ := Prod.mk.inj (List.mem_singleton.mp hmem)
      obtain ⟨answer, hanswer⟩ := hok
      exact absurd hanswer (hquiet hwrite answer)

/-- A call that makes the change its client has asked for, which has made none before. -/
theorem Tallied.changed (change : Change JsString ChallengeRecord TimedAppend)
    (h : Tallied keep requests write records log records') (hwrite : write e.1 = true)
    (hfirst : ∀ e' ∈ eventsOf i log, write e'.1 = false)
    (hasks : (requests i).Asks keep change)
    (hmakes : Makes TimedAppend.apply change records' records'') :
    Tallied keep requests write records (log ++ [(i, e)]) records'' := by
  obtain ⟨changes, hledger, hnodup, hasked, hwritten, htaken⟩ := h
  -- a client that is in the ledger has a write in the log, and this one has none
  have hnew : i ∉ changes.map Prod.fst := by
    intro hmem
    obtain ⟨e', he', hwrite'⟩ := hwritten i hmem
    rw [hfirst e' he'] at hwrite'
    cases hwrite'
  refine ⟨changes ++ [(i, change)], hledger.snoc hmakes, ?_, ?_, ?_, ?_⟩
  · rw [List.map_append]
    exact hnodup.append (List.nodup_singleton _) (by simpa using hnew)
  · rintro x hx
    rcases List.mem_append.mp hx with hx | hx
    · exact hasked x hx
    · rw [List.mem_singleton.mp hx]
      exact hasks
  · rintro j hj
    rw [List.map_append, List.mem_append] at hj
    rcases hj with hj | hj
    · obtain ⟨e', he', hwrite'⟩ := hwritten j hj
      exact ⟨e', eventsOf_subset j _ he', hwrite'⟩
    · obtain rfl : j = i := by simpa using hj
      exact ⟨e, mem_eventsOf.mpr (List.mem_append_right _ (List.mem_singleton_self _)), hwrite⟩
  · rintro j e' hmem hwrite' hok
    rw [List.map_append]
    rcases List.mem_append.mp hmem with hmem | hmem
    · exact List.mem_append_left _ (htaken j e' hmem hwrite' hok)
    · obtain ⟨rfl, -⟩ := Prod.mk.inj (List.mem_singleton.mp hmem)
      exact List.mem_append_right _ (List.mem_singleton_self _)

/-- A run that keeps its ledger accounts for what is stored. -/
theorem Tallied.accounted {answered : ι → Prop}
    (h : Tallied keep requests write records log records')
    (hanswered : ∀ i, answered i → (requests i).isWrite = true →
      ∃ e ∈ eventsOf i log, write e.1 = true ∧ ∃ answer, e.2 = .ok answer) :
    Accounted keep requests answered records records' := by
  obtain ⟨changes, hledger, hnodup, hasked, -, htaken⟩ := h
  refine Accounted.of_ledger hledger hnodup hasked fun i hi hwrites => ?_
  obtain ⟨e, he, hwrite, hok⟩ := hanswered i hi hwrites
  exact htaken i e (mem_eventsOf.mp he) hwrite hok

end Account

/-! ## In memory -/

/-- The map of `MemoryChallengeRecordRepository`. -/
abbrev MemoryRecords := Table ChallengeRecord.challengeRecordId

/-- A call of `MemoryChallengeRecordRepository` and its answer. -/
abbrev MemoryEvent := Event ChallengeRequest (fun _ => ChallengeAnswer) Failure

/-- `MemoryChallengeRecordRepository`, where `new Date()` is `now`. -/
def MemoryRecords.handle (records : MemoryRecords) (now : Int) :
    ChallengeRequest → Except Failure ChallengeAnswer × MemoryRecords
  | .create record => (.ok (.record record), records.set record)
  | .append challengeRecordId operation =>
    match records.get challengeRecordId with
    | none => (.error (challengeRecordNotFound challengeRecordId), records)
    | some existing =>
      match applyChallengeRecordAppend existing operation now with
      | .error failure => (.error failure, records)
      | .ok updated => (.ok (.record updated), records.set updated)
  | .findById challengeRecordId => (.ok (.found (records.get challengeRecordId)), records)
  | .list => (.ok (.records records.values), records)

/-- A call is answered at some time. -/
def MemoryRecords.Serves (records : MemoryRecords) (e : MemoryEvent) (records' : MemoryRecords) :
    Prop := ∃ now, records.handle now e.1 = (e.2, records')

section Memory
variable {ι : Type} {requests : ι → ChallengeRequest} {records : MemoryRecords}

/-- No record is created under an identifier that is taken. -/
def Fresh (_ : List (ι × MemoryEvent)) (records : MemoryRecords) (_ : ι) (e : MemoryEvent) : Prop :=
  ∀ record, e.1 = .create record → records.get record.challengeRecordId = none

theorem get_set_eq (record : ChallengeRecord) :
    (records.set record).get =
      Function.update records.get record.challengeRecordId (some record) := by
  funext challengeRecordId
  rw [Table.get_set, Function.update_apply]

/-- An append that succeeds in memory makes its change. -/
theorem makes_append {challengeRecordId : JsString} {operation : ChallengeRecordAppendOperation}
    {now : Int} {existing updated : ChallengeRecord}
    (hfound : records.get challengeRecordId = some existing)
    (happly : applyChallengeRecordAppend existing operation now = .ok updated) :
    Makes TimedAppend.apply (.edit challengeRecordId (operation, now)) records.get
      (records.set updated).get := by
  have hid : updated.challengeRecordId = challengeRecordId :=
    (ChallengeRecord.extends_of_apply (show TimedAppend.apply (operation, now) existing = _ from
      happly)).challengeRecordId.trans (Table.key_of_get hfound)
  rw [get_set_eq, hid]
  exact .edit hfound happly

variable [DecidableEq ι]

/-- A call in memory keeps the ledger. -/
theorem memory_step {log : List (ι × MemoryEvent)} {before after : MemoryRecords} {i : ι}
    {e : MemoryEvent}
    (htallied : Tallied id requests ChallengeRequest.isWrite records.get log before.get)
    (howes : eventsOf i log = [] ∧ e.1 = requests i) (hfresh : Fresh log before i e)
    (hserves : before.Serves e after) :
    Tallied id requests ChallengeRequest.isWrite records.get (log ++ [(i, e)]) after.get := by
  obtain ⟨request, answer⟩ := e
  obtain ⟨hnone, rfl⟩ := howes
  have hfirst : ∀ e' ∈ eventsOf i log, e'.1.isWrite = false := by
    rw [hnone]
    exact fun _ h => absurd h List.not_mem_nil
  obtain ⟨now, hhandle⟩ := hserves
  dsimp only at hhandle
  -- the map changes with a creation and with an append that neither error ends
  cases hrequest : requests i with
  | create record =>
    rw [hrequest] at hhandle
    cases hhandle
    refine htallied.changed (.create record.challengeRecordId record) rfl hfirst
      (by rw [hrequest]; rfl) ?_
    rw [get_set_eq]
    exact .create (hfresh record hrequest)
  | append challengeRecordId operation =>
    rw [hrequest] at hhandle
    unfold MemoryRecords.handle at hhandle
    dsimp only at hhandle
    split at hhandle
    · cases hhandle
      exact htallied.unchanged fun _ answer h => by cases h
    · rename_i existing hfound
      split at hhandle
      · cases hhandle
        exact htallied.unchanged fun _ answer h => by cases h
      · rename_i updated happly
        cases hhandle
        exact htallied.changed (.edit challengeRecordId (operation, now)) rfl hfirst
          (by rw [hrequest]; exact ⟨now, rfl⟩) (makes_append hfound happly)
  | findById challengeRecordId =>
    rw [hrequest] at hhandle
    cases hhandle
    exact htallied.unchanged fun h => absurd h Bool.false_ne_true
  | list =>
    rw [hrequest] at hhandle
    cases hhandle
    exact htallied.unchanged fun h => absurd h Bool.false_ne_true

/-- **In memory everything is accounted for**, in any order of calls, as long as no record is
created under an identifier that is taken. -/
theorem memory_accounted {log : List (ι × MemoryEvent)}
    {Q : Pool ChallengeRequest (fun _ => ChallengeAnswer) Failure (fun _ : ι => ChallengeAnswer)
      MemoryRecords}
    (h : ExecWhere MemoryRecords.Serves Fresh ⟨fun i => perform (requests i), records⟩ log Q) :
    Accounted id requests (fun i => ∃ answer, Q.threads i = .done (.ok answer)) records.get
      Q.state.get := by
  have hthreads : ∀ i, (perform (requests i) : Program ChallengeRequest (fun _ => ChallengeAnswer)
      Failure ChallengeAnswer).Ensures history (fun t request => t = [] ∧ request = requests i)
      (fun _ _ => True) [] := fun i => ⟨⟨rfl, rfl⟩, fun _ _ _ => trivial⟩
  have htallied : Tallied id requests ChallengeRequest.isWrite records.get log Q.state.get :=
    h.induction (I := fun log s => Tallied id requests ChallengeRequest.isWrite records.get
      log s.get) hthreads tallied_start fun _ _ _ _ _ htallied howes hfresh hserves =>
        memory_step htallied howes hfresh hserves
  refine htallied.accounted ?_
  rintro i ⟨answer, hdone⟩ hwrites
  have hrun := h.exec.steps_of_thread i
  rw [hdone] at hrun
  rw [runs_perform.mp hrun]
  exact ⟨_, List.mem_singleton_self _, hwrites, answer, rfl⟩

end Memory

/-! ## Over Postgres -/

/-- The rows of `challenge_records`. -/
abbrev ChallengeTable := List ChallengeRecordRow

/-- The row with an identifier, and the record it is read as. -/
def ChallengeTable.row (rows : ChallengeTable) (challengeRecordId : JsString) :
    Option ChallengeRecordRow :=
  Keyed.find ChallengeRecordRow.challengeRecordId rows challengeRecordId

def ChallengeTable.record (rows : ChallengeTable) (challengeRecordId : JsString) :
    Option ChallengeRecord :=
  (rows.row challengeRecordId).map ChallengeRecordRow.toChallengeRecord

/-- What `PostgresChallengeRecordRepository` calls: its statements, and `new Date()`. -/
inductive ChallengeQuery where
  | insert (row : ChallengeRecordRow)
  | update (columns : ChallengeRecordColumns) (challengeRecordId : JsString)
  | selectById (challengeRecordId : JsString)
  | selectAll
  | newDate

/-- What a call answers: of the rows of `SELECT_BY_ID_SQL`, the first. -/
abbrev ChallengeQuery.Answer : ChallengeQuery → Type
  | .insert _ | .update .. => Unit
  | .selectById _ => Option ChallengeRecordRow
  | .selectAll => List ChallengeRecordRow
  | .newDate => Int

abbrev ChallengeProgram (α : Type) := Program ChallengeQuery ChallengeQuery.Answer Failure α

abbrev ChallengeEvent := Event ChallengeQuery ChallengeQuery.Answer Failure

namespace PostgresChallengeRecordRepository

/-- `create`. -/
def create (record : ChallengeRecord) : ChallengeProgram ChallengeRecord := do
  perform (ChallengeQuery.insert record.row)
  return record

/-- `findById`. -/
def findById (challengeRecordId : JsString) : ChallengeProgram (Option ChallengeRecord) := do
  let row ← perform (ChallengeQuery.selectById challengeRecordId)
  return row.map ChallengeRecordRow.toChallengeRecord

/-- `append`. -/
def append (challengeRecordId : JsString) (operation : ChallengeRecordAppendOperation) :
    ChallengeProgram ChallengeRecord := do
  match ← findById challengeRecordId with
  | none => throw (challengeRecordNotFound challengeRecordId)
  | some existing =>
    let now ← perform ChallengeQuery.newDate
    let updated ← Program.done (applyChallengeRecordAppend existing operation now)
    perform (ChallengeQuery.update updated.columns challengeRecordId)
    return updated

/-- `list`. -/
def list : ChallengeProgram (List ChallengeRecord) := do
  let rows ← perform ChallengeQuery.selectAll
  return rows.map ChallengeRecordRow.toChallengeRecord

/-- A request. -/
def handle : ChallengeRequest → ChallengeProgram ChallengeAnswer
  | .create record => do return .record (← create record)
  | .append challengeRecordId operation => do return .record (← append challengeRecordId operation)
  | .findById challengeRecordId => do return .found (← findById challengeRecordId)
  | .list => do return .records (← list)

end PostgresChallengeRecordRepository

/-- The statement changes a row. -/
def ChallengeQuery.isWrite : ChallengeQuery → Bool
  | .insert _ | .update .. => true
  | _ => false

namespace ChallengeTable
variable (rows : ChallengeTable)

/-- What `UPDATE_CHALLENGE_RECORD_SQL` makes of the table. -/
def update (columns : ChallengeRecordColumns) (challengeRecordId : JsString) : ChallengeTable :=
  Keyed.update ChallengeRecordRow.challengeRecordId rows challengeRecordId
    (ChallengeRecordRow.write · columns)

/-- How a call is answered.  The identifier is the primary key.  A statement that fails may have
taken effect, its answer lost. -/
def Serves : ChallengeEvent → ChallengeTable → Prop
  | ⟨.insert row, .ok _⟩, rows' => rows.row row.challengeRecordId = none ∧ rows' = rows ++ [row]
  | ⟨.insert row, .error _⟩, rows' =>
    rows' = rows ∨ rows.row row.challengeRecordId = none ∧ rows' = rows ++ [row]
  | ⟨.update columns challengeRecordId, .ok _⟩, rows' =>
    rows' = rows.update columns challengeRecordId
  | ⟨.update columns challengeRecordId, .error _⟩, rows' =>
    rows' = rows ∨ rows' = rows.update columns challengeRecordId
  | ⟨.selectById challengeRecordId, .ok found⟩, rows' =>
    rows' = rows ∧ found = rows.row challengeRecordId
  | ⟨.selectAll, .ok found⟩, rows' =>
    rows' = rows ∧ found.Perm rows ∧ found.Pairwise fun row later => row.createdAt ≤ later.createdAt
  | _, rows' => rows' = rows

end ChallengeTable

section Postgres
variable {ι : Type} [DecidableEq ι] {requests : ι → ChallengeRequest} {rows : ChallengeTable}

/-- The row that an append writes is the one it has read. -/
def Undisturbed (log : List (ι × ChallengeEvent)) (rows : ChallengeTable) (i : ι)
    (e : ChallengeEvent) : Prop :=
  ∀ columns challengeRecordId, e.1 = .update columns challengeRecordId →
    (⟨.selectById challengeRecordId, .ok (rows.row challengeRecordId)⟩ : ChallengeEvent) ∈
      eventsOf i log

/-- What a request owes at a call that changes a row: it is the request's only one, and an
append writes what it has computed of the row it has read. -/
def Owes (request : ChallengeRequest) (t : List ChallengeEvent) : ChallengeQuery → Prop
  | .insert row => t = [] ∧ ∃ record, request = .create record ∧ row = record.row
  | .update columns challengeRecordId => ∃ operation row now updated,
      request = .append challengeRecordId operation ∧
      t = [⟨.selectById challengeRecordId, .ok (some row)⟩, ⟨.newDate, .ok now⟩] ∧
      applyChallengeRecordAppend row.toChallengeRecord operation now = .ok updated ∧
      columns = updated.columns
  | _ => True

/-- The write of a request that succeeds was answered. -/
def Wrote (request : ChallengeRequest) (t : List ChallengeEvent) : Prop :=
  request.isWrite = true → ∃ e ∈ t, e.1.isWrite = true ∧ ∃ answer, e.2 = .ok answer

theorem handle_traced (request : ChallengeRequest) :
    Traced (Owes request) (PostgresChallengeRecordRepository.handle request)
      (fun _ t => Wrote request t) [] := by
  cases request with
  | create record =>
    refine Traced.bind (R := fun _ t => Wrote (.create record) t) ?_ fun _ _ h => Traced.pure h
    exact Traced.bind_perform ⟨rfl, record, rfl, rfl⟩ fun _ => Traced.pure fun _ =>
      ⟨_, List.mem_singleton_self _, rfl, _, rfl⟩
  | append challengeRecordId operation =>
    refine Traced.bind (R := fun _ t => Wrote (.append challengeRecordId operation) t) ?_
      fun _ _ h => Traced.pure h
    refine Traced.bind (R := fun existing t => ∃ row : Option ChallengeRecordRow,
      existing = row.map ChallengeRecordRow.toChallengeRecord ∧
      t = [⟨.selectById challengeRecordId, .ok row⟩]) ?_ ?_
    · exact Traced.bind_perform trivial fun row => Traced.pure ⟨row, rfl, rfl⟩
    rintro existing t ⟨row, rfl, rfl⟩
    cases row with
    | none => exact Traced.throw
    | some row =>
      refine Traced.bind_perform trivial fun now => Traced.bind_done fun updated hupdated => ?_
      refine Traced.bind_perform ⟨operation, row, now, updated, rfl, rfl, hupdated, rfl⟩ fun _ => ?_
      exact Traced.pure fun _ =>
        ⟨_, List.mem_append_right _ (List.mem_singleton_self _), rfl, _, rfl⟩
  | findById challengeRecordId =>
    refine Traced.bind (R := fun _ _ => True) ?_ fun _ _ _ => Traced.pure nofun
    exact Traced.bind_perform trivial fun _ => Traced.pure trivial
  | list =>
    refine Traced.bind (R := fun _ _ => True) ?_ fun _ _ _ => Traced.pure nofun
    exact Traced.bind_perform trivial fun _ => Traced.pure trivial

/-- An insertion that takes effect creates the record. -/
theorem makes_insert {record : ChallengeRecord}
    (hnone : rows.row record.row.challengeRecordId = none) :
    Makes TimedAppend.apply (.create record.challengeRecordId record.readBack)
      rows.record (ChallengeTable.record (rows ++ [record.row])) := by
  have hrecords : ChallengeTable.record (rows ++ [record.row]) =
      Function.update rows.record record.challengeRecordId
        (some record.readBack) := by
    funext challengeRecordId
    unfold ChallengeTable.record ChallengeTable.row
    rw [Keyed.find_append_singleton, Function.update_apply]
    by_cases hid : challengeRecordId = record.challengeRecordId
    · subst hid
      have hfree : Keyed.find ChallengeRecordRow.challengeRecordId rows record.challengeRecordId =
        none := hnone
      rw [if_pos rfl, hfree, Option.none_or]
      exact congrArg (Option.map ChallengeRecordRow.toChallengeRecord) (if_pos rfl)
    · rw [if_neg hid, if_neg fun h => hid h.symm, Option.or_none]
  rw [hrecords]
  refine .create ?_
  unfold ChallengeTable.record
  rw [show rows.row record.challengeRecordId = none from hnone]
  rfl

/-- An update of a row that is as it was read makes the edit. -/
theorem makes_update {challengeRecordId : JsString} {operation : ChallengeRecordAppendOperation}
    {row : ChallengeRecordRow} {now : Int} {updated : ChallengeRecord}
    (hrow : rows.row challengeRecordId = some row)
    (happly : applyChallengeRecordAppend row.toChallengeRecord operation now = .ok updated) :
    Makes TimedAppend.apply (.edit challengeRecordId (operation, now)) rows.record
      (rows.update updated.columns challengeRecordId).record := by
  have hextends := ChallengeRecord.extends_of_apply
    (show TimedAppend.apply (operation, now) row.toChallengeRecord = _ from happly)
  have hrecords : (rows.update updated.columns challengeRecordId).record =
      Function.update rows.record challengeRecordId (some updated) := by
    funext challengeRecordId'
    unfold ChallengeTable.record ChallengeTable.row ChallengeTable.update
    rw [Keyed.find_update (fun row h =>
      show (row.write updated.columns).challengeRecordId = _ from h), Function.update_apply]
    by_cases hid : challengeRecordId' = challengeRecordId
    · subst hid
      have hfound : Keyed.find ChallengeRecordRow.challengeRecordId rows challengeRecordId' =
        some row := hrow
      rw [if_pos rfl, if_pos rfl, hfound, Option.map_some, Option.map_some,
        ChallengeRecordRow.toChallengeRecord_write hextends]
    · rw [if_neg hid, if_neg hid]
  rw [hrecords]
  refine .edit ?_ happly
  unfold ChallengeTable.record
  rw [hrow]
  rfl

/-- A statement over Postgres keeps the ledger. -/
theorem postgres_step {log : List (ι × ChallengeEvent)} {before after : ChallengeTable} {i : ι}
    {e : ChallengeEvent}
    (htallied : Tallied ChallengeRecord.readBack requests ChallengeQuery.isWrite rows.record log
      before.record)
    (howes : Owes (requests i) (eventsOf i log) e.1) (hundisturbed : Undisturbed log before i e)
    (hserves : before.Serves e after) :
    Tallied ChallengeRecord.readBack requests ChallengeQuery.isWrite rows.record
      (log ++ [(i, e)]) after.record := by
  obtain ⟨query, answer⟩ := e
  cases query with
  | insert row =>
    obtain ⟨hnone, record, hrequest, rfl⟩ := howes
    have hfirst : ∀ e' ∈ eventsOf i log, e'.1.isWrite = false := by
      rw [hnone]
      exact fun _ h => absurd h List.not_mem_nil
    have hinserts : before.row record.row.challengeRecordId = none →
        Tallied ChallengeRecord.readBack requests ChallengeQuery.isWrite rows.record
          (log ++ [(i, ⟨.insert record.row, answer⟩)])
          (ChallengeTable.record (before ++ [record.row])) := fun hfree =>
      htallied.changed (.create record.challengeRecordId record.readBack) rfl hfirst
        (by rw [hrequest]; rfl) (makes_insert hfree)
    cases answer with
    | ok _ =>
      obtain ⟨hfree, rfl⟩ := hserves
      exact hinserts hfree
    | error _ =>
      -- the client is told of a failure, and the row may be there all the same
      rcases hserves with rfl | ⟨hfree, rfl⟩
      · exact htallied.unchanged fun _ _ h => by cases h
      · exact hinserts hfree
  | update columns challengeRecordId =>
    obtain ⟨operation, row, now, updated, hrequest, ht, happly, rfl⟩ := howes
    -- of the two calls before the update only the read can be the one that `Undisturbed` gives
    have hread := hundisturbed _ _ rfl
    have hfirst : ∀ e' ∈ eventsOf i log, e'.1.isWrite = false := by
      rw [ht]
      intro e' he'
      rcases List.mem_cons.mp he' with rfl | he'
      · rfl
      · rw [List.mem_singleton.mp he']
        rfl
    rw [ht] at hread
    have hrow : before.row challengeRecordId = some row := by
      rcases List.mem_cons.mp hread with heq | hread
      · exact Except.ok.inj (eq_of_heq (Sigma.mk.inj_iff.mp heq).2)
      · cases (Sigma.mk.inj_iff.mp (List.mem_singleton.mp hread)).1
    have hupdates : Tallied ChallengeRecord.readBack requests ChallengeQuery.isWrite rows.record
        (log ++ [(i, ⟨.update updated.columns challengeRecordId, answer⟩)])
        (before.update updated.columns challengeRecordId).record :=
      htallied.changed (.edit challengeRecordId (operation, now)) rfl hfirst
        (by rw [hrequest]; exact ⟨now, rfl⟩) (makes_update hrow happly)
    cases answer with
    | ok _ =>
      obtain rfl := hserves
      exact hupdates
    | error _ =>
      rcases hserves with rfl | rfl
      · exact htallied.unchanged fun _ _ h => by cases h
      · exact hupdates
  | selectById challengeRecordId =>
    cases answer with
    | ok found =>
      obtain ⟨rfl, -⟩ := hserves
      exact htallied.unchanged fun h => absurd h Bool.false_ne_true
    | error _ =>
      obtain rfl := hserves
      exact htallied.unchanged fun h => absurd h Bool.false_ne_true
  | selectAll =>
    cases answer with
    | ok found =>
      obtain ⟨rfl, -⟩ := hserves
      exact htallied.unchanged fun h => absurd h Bool.false_ne_true
    | error _ =>
      obtain rfl := hserves
      exact htallied.unchanged fun h => absurd h Bool.false_ne_true
  | newDate =>
    obtain rfl : after = before := by cases answer <;> exact hserves
    exact htallied.unchanged fun h => absurd h Bool.false_ne_true

/-- **Over Postgres everything is accounted for**, in any interleaving of requests, as long as
the row that an append writes is the one it has read. -/
theorem postgres_accounted {log : List (ι × ChallengeEvent)}
    {Q : Pool ChallengeQuery ChallengeQuery.Answer Failure (fun _ : ι => ChallengeAnswer)
      ChallengeTable}
    (h : ExecWhere ChallengeTable.Serves Undisturbed
      ⟨fun i => PostgresChallengeRecordRepository.handle (requests i), rows⟩ log Q) :
    Accounted ChallengeRecord.readBack requests
      (fun i => ∃ answer, Q.threads i = .done (.ok answer)) rows.record Q.state.record := by
  have hthreads : ∀ i, (PostgresChallengeRecordRepository.handle (requests i)).Ensures history
      (Owes (requests i)) (fun _ _ => True) [] :=
    fun i => Ensures.mono (handle_traced (requests i)) fun _ _ _ => trivial
  have htallied : Tallied ChallengeRecord.readBack requests ChallengeQuery.isWrite rows.record log
      Q.state.record :=
    h.induction (I := fun log s => Tallied ChallengeRecord.readBack requests
      ChallengeQuery.isWrite rows.record log s.record) hthreads tallied_start
      fun _ _ _ _ _ htallied howes hundisturbed hserves =>
        postgres_step htallied howes hundisturbed hserves
  refine htallied.accounted ?_
  rintro i ⟨answer, hdone⟩ hwrites
  have hrun := h.exec.steps_of_thread i
  rw [hdone] at hrun
  exact post_of_runs (handle_traced (requests i)) hrun answer rfl hwrites

end Postgres

/-! ## A sample challenge -/

namespace Sample

/-- A challenge that was just raised. -/
def record : ChallengeRecord where
  challengeRecordId := "challenge-1"
  status := .opened
  claimChallenged := "docs/CLAIMS.md"
  source := ⟨.internalReview, none, 0⟩
  investigationSteps := []
  createdAt := 0
  updatedAt := 0

/-- What each of two clients has examined. -/
def step (i : Bool) : ChallengeRecordInvestigationStep where
  performedAt := 0
  method := if i then "a test" else "a log query"
  observation := "nothing"

/-- One creates the record, and the other appends to it. -/
def creating : Bool → ChallengeRequest
  | true => .create record
  | false => .append "challenge-1" (.investigationStep (step false))

/-- Both append to it. -/
def appending (i : Bool) : ChallengeRequest := .append "challenge-1" (.investigationStep (step i))

/-- No record of the identifier is there when one is created. -/
def isFresh (records : MemoryRecords) (e : MemoryEvent) : Bool :=
  match e.1 with
  | .create record => records.get record.challengeRecordId = none
  | _ => true

theorem fresh_of_isFresh {log : List (Bool × MemoryEvent)} {records : MemoryRecords} {i : Bool}
    {e : MemoryEvent} (h : isFresh records e = true) : Fresh log records i e := by
  intro record hcreate
  unfold isFresh at h
  rw [hcreate] at h
  exact of_decide_eq_true h

/-- The two clients in memory. -/
def inMemory : Pool ChallengeRequest (fun _ => ChallengeAnswer) Failure
    (fun _ : Bool => ChallengeAnswer) MemoryRecords :=
  ⟨fun i => perform (creating i), .empty⟩

/-- Each call is answered at the time `1`. -/
def remembering (request : ChallengeRequest) (records : MemoryRecords) :
    Except Failure ChallengeAnswer × MemoryRecords := records.handle 1 request

theorem inMemory_run : ExecWhere MemoryRecords.Serves Fresh inMemory
    (inMemory.script remembering [true, false]) (inMemory.play remembering [true, false]) :=
  (ExecWhere.play (C := fun _ s _ e => isFresh s e = true) remembering [true, false]
    (by decide)).mono (fun _ _ _ _ _ _ h => ⟨1, h⟩) fun _ _ _ _ h => fresh_of_isFresh h

/-- The table does what it is asked. -/
def tableHandler : (query : ChallengeQuery) → ChallengeTable →
    Except Failure query.Answer × ChallengeTable
  | .insert row, rows =>
    if rows.row row.challengeRecordId = none then (.ok (), rows ++ [row])
    else (.error (.error "duplicate key"), rows)
  | .update columns challengeRecordId, rows => (.ok (), rows.update columns challengeRecordId)
  | .selectById challengeRecordId, rows => (.ok (rows.row challengeRecordId), rows)
  | .selectAll, rows => (.error (.error "not called"), rows)
  | .newDate, rows => (.ok 1, rows)

theorem serves_tableHandler {rows rows' : ChallengeTable} {e : ChallengeEvent}
    (h : Handled tableHandler rows e rows') : rows.Serves e rows' := by
  obtain ⟨query, answer⟩ := e
  unfold Handled at h
  dsimp only at h
  cases query with
  | insert row =>
    unfold tableHandler at h
    dsimp only at h
    split at h
    · rename_i hnone
      cases h
      exact ⟨hnone, rfl⟩
    · cases h
      exact .inl rfl
  | selectById challengeRecordId =>
    cases h
    exact ⟨rfl, rfl⟩
  | _ =>
    cases h
    rfl

/-- The row that is written was read. -/
def isUndisturbed (log : List (Bool × ChallengeEvent)) (rows : ChallengeTable) (i : Bool)
    (e : ChallengeEvent) : Bool :=
  match e.1 with
  | .update _ challengeRecordId => (eventsOf i log).any fun
    | ⟨.selectById challengeRecordId', .ok found⟩ =>
      decide (challengeRecordId' = challengeRecordId) && decide (found = rows.row challengeRecordId)
    | _ => false
  | _ => true

theorem undisturbed_of_isUndisturbed {log : List (Bool × ChallengeEvent)} {rows : ChallengeTable}
    {i : Bool} {e : ChallengeEvent} (h : isUndisturbed log rows i e = true) :
    Undisturbed log rows i e := by
  intro columns challengeRecordId hupdate
  unfold isUndisturbed at h
  rw [hupdate] at h
  obtain ⟨⟨query, answer⟩, hmem, hread⟩ := List.any_eq_true.mp h
  cases query with
  | selectById challengeRecordId' =>
    cases answer with
    | ok found =>
      obtain ⟨hid, hfound⟩ := (Bool.and_eq_true _ _).mp hread
      obtain rfl : challengeRecordId' = challengeRecordId := of_decide_eq_true hid
      obtain rfl : found = rows.row challengeRecordId' := of_decide_eq_true hfound
      exact hmem
    | error _ => cases hread
  | _ => cases hread

/-- The two appends over a table with the record. -/
def appends : Pool ChallengeQuery ChallengeQuery.Answer Failure (fun _ : Bool => ChallengeAnswer)
    ChallengeTable :=
  ⟨fun i => PostgresChallengeRecordRepository.handle (appending i), [record.row]⟩

/-- One append after the other, and one within the other. -/
def apart : List Bool := [true, true, true, false, false, false]

def overlapping : List Bool := [true, false, true, true, false, false]

theorem apart_run : ExecWhere ChallengeTable.Serves Undisturbed appends
    (appends.script tableHandler apart) (appends.play tableHandler apart) :=
  (ExecWhere.play (C := fun log s i e => isUndisturbed log s i e = true) tableHandler apart
    (by decide)).mono (fun _ _ _ _ _ _ h => serves_tableHandler h)
    fun _ _ _ _ h => undisturbed_of_isUndisturbed h

theorem overlapping_run : Exec ChallengeTable.Serves appends
    (appends.script tableHandler overlapping) (appends.play tableHandler overlapping) :=
  (Exec.play tableHandler overlapping (appends.meets_true tableHandler overlapping)).mono
    fun _ _ _ h => serves_tableHandler h.1

end Sample

/-- A record that is created in memory and appended to is accounted for. -/
theorem created_in_memory :
    Accounted id Sample.creating
      (fun i => ∃ answer, (Sample.inMemory.play Sample.remembering [true, false]).threads i =
        .done (.ok answer))
      (Table.empty : MemoryRecords).get
      (Sample.inMemory.play Sample.remembering [true, false]).state.get ∧
    ∀ i, ((Sample.inMemory.play Sample.remembering [true, false]).threads i).succeeded = true :=
  ⟨memory_accounted Sample.inMemory_run, by decide⟩

/-- Two appends over Postgres, one after the other, are accounted for. -/
theorem appended_apart :
    Accounted ChallengeRecord.readBack Sample.appending
      (fun i => ∃ answer, (Sample.appends.play Sample.tableHandler Sample.apart).threads i =
        .done (.ok answer))
      (ChallengeTable.record [Sample.record.row])
      (Sample.appends.play Sample.tableHandler Sample.apart).state.record ∧
    ∀ i, ((Sample.appends.play Sample.tableHandler Sample.apart).threads i).succeeded = true :=
  ⟨postgres_accounted Sample.apart_run, by decide⟩

/-- **An append that was answered is lost** where another comes between its read and its
write. -/
theorem append_lost : ∃ log Q, Exec ChallengeTable.Serves Sample.appends log Q ∧
    (∀ i, (Q.threads i).succeeded = true) ∧
    ¬ Accounted ChallengeRecord.readBack Sample.appending
      (fun i => ∃ answer, Q.threads i = .done (.ok answer))
      (ChallengeTable.record [Sample.record.row]) Q.state.record := by
  refine ⟨_, _, Sample.overlapping_run, by decide, fun h => ?_⟩
  obtain ⟨now, hnow, hshows⟩ := h.shown true _ _
    (Program.succeeded_iff.mp (by decide)) rfl
  have hsteps : ((Sample.appends.play Sample.tableHandler Sample.overlapping).state.record
      "challenge-1").map ChallengeRecord.investigationSteps = some [Sample.step false] := by
    decide
  rw [hnow] at hsteps
  have hmem : Sample.step true ∈ [Sample.step false] := Option.some.inj hsteps ▸ hshows
  exact absurd hmem (by decide)

end Parmana.Challenges

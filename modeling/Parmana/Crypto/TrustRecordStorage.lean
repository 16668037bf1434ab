import Parmana.Crypto.CanonicalSerializer
import Parmana.Js.WellFormed
import Mathlib.Data.List.Sort

/-! # The rows of a trust record

A trust record is hashed and signed while its times are dates and its absent
parts `undefined`; it is verified after a round trip through JSON columns.  What
is hashed is a view of the record, made of reads of its members, so it is enough
that each stored part agrees with what was stored: the view of the reloaded
record then has the bytes of the view (`reload_serialize`, `load_store`).

The artifacts of a record are rows of their own, and are read in the order of
their times.
-/
namespace Parmana.Crypto

open Js

/-! ## Reloading -/

/-- A value of the program: no object lists a name twice, and it is not
`undefined` itself. -/
structure Value where
  data : Data
  distinct : data.distinct = true
  written : data.toJson? ≠ none

/-- `value[k₁][k₂]…`. -/
def valueAt (d : Data) (path : List JsString) : Data := path.foldl Data.get d

mutual

/-- What has a normal form has valid dates only. -/
theorem datesValid_of_normalize : ∀ {d n : Data}, normalize d = .ok n → d.datesValid = true
  | .undefined, _, _ => rfl
  | .null, _, _ => rfl
  | .bool _, _, _ => rfl
  | .num _, _, _ => rfl
  | .str _, _, _ => rfl
  | .date none, _, h => by cases h
  | .date (some _), _, _ => rfl
  | .arr xs, n, h => by
    rw [normalize] at h
    cases hxs : normalizeEach xs with
    | error e =>
      rw [hxs] at h
      cases h
    | ok ys => exact datesValid_of_normalizeEach hxs
  | .obj fs, n, h => by
    rw [normalize] at h
    cases hfs : normalizeMembers fs with
    | error e =>
      rw [hfs] at h
      cases h
    | ok gs => exact datesValid_of_normalizeMembers hfs

theorem datesValid_of_normalizeEach : ∀ {xs ys : List Data}, normalizeEach xs = .ok ys →
    Data.datesValidEach xs = true
  | [], _, _ => rfl
  | x :: xs, ys, h => by
    rw [normalizeEach] at h
    cases hx : normalize x with
    | error e =>
      rw [hx] at h
      cases h
    | ok y =>
      cases hxs : normalizeEach xs with
      | error e =>
        rw [hx, hxs] at h
        cases h
      | ok zs =>
        rw [Data.datesValidEach, Bool.and_eq_true]
        exact ⟨datesValid_of_normalize hx, datesValid_of_normalizeEach hxs⟩

theorem datesValid_of_normalizeMembers : ∀ {fs gs : List (JsString × Data)},
    normalizeMembers fs = .ok gs → Data.datesValidMembers fs = true
  | [], _, _ => rfl
  | (k, v) :: fs, gs, h => by
    rw [normalizeMembers] at h
    cases hv : normalize v with
    | error e =>
      rw [hv] at h
      cases h
    | ok w =>
      cases hfs : normalizeMembers fs with
      | error e =>
        rw [hv, hfs] at h
        cases h
      | ok ms =>
        rw [Data.datesValidMembers, Bool.and_eq_true]
        exact ⟨datesValid_of_normalize hv, datesValid_of_normalizeMembers hfs⟩

end

theorem datesValid_of_serialize {d : Data} {bytes : List UInt8} (h : serialize d = .ok bytes) :
    d.datesValid = true := by
  unfold serialize at h
  cases hn : normalize d with
  | error e =>
    rw [hn] at h
    cases h
  | ok n => exact datesValid_of_normalize hn

/-- Values that are written, and with the same bytes, agree. -/
theorem serialize_agree {d e : Data} (hd : d.distinct = true) (he : e.distinct = true)
    (hwritten : d.toJson? ≠ none) (hwritten' : e.toJson? ≠ none) {bytes : List UInt8}
    (h : serialize d = .ok bytes) (h' : serialize e = .ok bytes) : Data.Agree d e := by
  obtain ⟨j, hj⟩ := Option.ne_none_iff_exists'.mp hwritten
  obtain ⟨l, hl⟩ := Option.ne_none_iff_exists'.mp hwritten'
  have hbytes : ∀ {d : Data} {j : Json}, d.distinct = true → d.toJson? = some j →
      serialize d = .ok bytes → bytes = j.sortKeys.stringify.encode := by
    intro d j hd hj h
    rw [serialize_eq hd (datesValid_of_serialize h), Data.canon?, hj, Option.map_some,
      Option.map_some, ← Json.stringify_sortKeys] at h
    exact (Except.ok.inj h).symm
  have hcanon : j.canon = l.canon := by
    rw [← Json.sorted_stringify_iff (Data.toJson?_distinct hd hj) (Data.toJson?_distinct he hl)]
    refine JsString.encode_injective (paired_stringify _) (paired_stringify _) ?_
    rw [← hbytes hd hj h, ← hbytes he hl h']
  rw [Data.Agree, Data.canon?, Data.canon?, hj, hl, Option.map_some, Option.map_some, hcanon]

theorem at_distinct {d : Data} (h : d.distinct = true) (path : List JsString) :
    (valueAt d path).distinct = true := by
  induction path generalizing d with
  | nil => exact h
  | cons k path ih => exact ih (Data.get_distinct h k)

theorem at_datesValid {d : Data} (h : d.datesValid = true) (path : List JsString) :
    (valueAt d path).datesValid = true := by
  induction path generalizing d with
  | nil => exact h
  | cons k path ih => exact ih (Data.get_datesValid h k)

/-- Agreement goes down every path. -/
theorem agree_at {d e : Data} (hd : d.distinct = true) (he : e.distinct = true)
    (h : Data.Agree d e) (path : List JsString) : Data.Agree (valueAt d path) (valueAt e path) := by
  induction path generalizing d e with
  | nil => exact h
  | cons k path ih =>
    exact ih (Data.get_distinct hd k) (Data.get_distinct he k) (h.get hd he k)

/-- **A reloaded value has the bytes of the value**, and so has every part of
it. -/
theorem reload_serialize (v : Value) (hdates : v.data.datesValid = true) :
    ∃ j : Json, v.data.reload = some (.ofJson j) ∧
      ∀ path, serialize (valueAt (.ofJson j) path) = serialize (valueAt v.data path) := by
  obtain ⟨j, hreload, hdistinct, hagree⟩ := Data.reload_agrees v.distinct v.written
  have hj : (Data.ofJson j).distinct = true := by rw [Data.distinct_ofJson, hdistinct]
  refine ⟨j, hreload, fun path => ?_⟩
  exact serialize_congr (at_distinct hj path) (at_datesValid (Data.datesValid_ofJson j) path)
    (at_distinct v.distinct path) (at_datesValid hdates path)
    (agree_at hj v.distinct hagree path)

/-! ## Views -/

/-- The members of an object. -/
abbrev DataFields := List (JsString × Data)

/-- A view of a value: some of its members, under their names. -/
def view (names : List JsString) (d : Data) : DataFields := names.map fun k => (k, d.get k)

/-- The members of a trust record that are hashed and signed. -/
def canonicalMembers : List JsString :=
  ["trustRecordId", "businessTransactionId", "transaction", "authorization", "overrides",
    "executions", "createdAt"]

/-- `canonicalExecutionTrustRecord`. -/
def canonicalExecutionTrustRecord (trustRecord : Data) : Data :=
  .obj (view canonicalMembers trustRecord)

/-- `hybridCanonicalExecutionTrustRecord`. -/
def hybridCanonicalExecutionTrustRecord (trustRecord : Data) (schemaVersion : JsNumber) : Data :=
  .obj (view canonicalMembers trustRecord ++ ([("schemaVersion", .num schemaVersion)] : DataFields))

/-- The members of an intent that are hashed and signed. -/
def intentMembers : List JsString :=
  ["intentId", "businessTransactionId", "decisionId", "authorizationId", "policyName",
    "policyVersion", "policyContentHash", "signalsHash", "businessTransactionHash", "action",
    "target", "submittedBy", "grantedCapability", "createdAt"]

/-- `canonicalExecutionIntent`. -/
def canonicalExecutionIntent (intent : Data) : Data := .obj (view intentMembers intent)

/-- `value ?? null`. -/
def orNull : Data → Data
  | .undefined => .null
  | d => d

/-- The members of an execution a chain entry copies. -/
def chainMembers : List JsString :=
  ["executionId", "businessTransactionId", "decision", "status", "mode", "startedAt"]

/-- The members a chain entry writes as `null` when they are absent. -/
def nullableChainMembers : List JsString := ["completedAt", "evidence", "metadata"]

/-- `canonicalChainEntry`. -/
def canonicalChainEntry (execution : Data) (previousChainHash : Option JsString) : Data :=
  .obj (view chainMembers execution ++
    nullableChainMembers.map (fun k => (k, orNull (execution.get k))) ++
    ([("previousChainHash", previousChainHash.elim .null .str)] : DataFields))

/-! ## The trust record and its rows -/

/-- An object the program stores: its members, no two of one name. -/
structure Entity where
  members : DataFields
  distinct : (Data.obj members).distinct = true

/-- The value an entity is. -/
def Entity.data (e : Entity) : Data := .obj e.members

/-- `JSON.stringify` of an entity. -/
def Entity.text (e : Entity) : JsString := (Json.obj (Data.members e.members)).stringify

/-- The time of a date among the members; `none` where `toISOString` throws. -/
def Entity.time (e : Entity) (k : JsString) : Option Int :=
  match e.data.get k with
  | .date time => time
  | _ => none

/-- The elements as an array. -/
def arrayOf (es : List Entity) : Data := .arr (es.map Entity.data)

/-- The members of a trust record, the optional ones absent or present. -/
structure TrustRecordMembers where
  trustRecordId : Data
  businessTransactionId : Data
  transaction : Data
  executions : Data
  overrides : Data
  verifications : Data
  receipts : Data
  trustRecordHash : Data
  signature : Data
  authorization : Option Data
  schemaVersion : Option Data
  signatures : Option Data
  evidenceAnchor : Option Data
  createdAt : Data
  updatedAt : Data

/-- An optional member, spread into an object literal. -/
def spread (k : JsString) (v : Option Data) : DataFields := (v.map fun d => (k, d)).toList

/-- The object that has the members. -/
def TrustRecordMembers.data (m : TrustRecordMembers) : Data :=
  .obj (([("trustRecordId", m.trustRecordId),
      ("businessTransactionId", m.businessTransactionId),
      ("transaction", m.transaction),
      ("executions", m.executions),
      ("overrides", m.overrides),
      ("verifications", m.verifications),
      ("receipts", m.receipts),
      ("trustRecordHash", m.trustRecordHash),
      ("signature", m.signature)] : DataFields) ++
    spread "authorization" m.authorization ++
    spread "schemaVersion" m.schemaVersion ++
    spread "signatures" m.signatures ++
    spread "evidenceAnchor" m.evidenceAnchor ++
    ([("createdAt", m.createdAt), ("updatedAt", m.updatedAt)] : DataFields))

/-- An Execution Trust Record.  A date is its time value, or invalid; the
identifier is drawn and the hash is of digits, and the record and its executions
are named. -/
structure ExecutionTrustRecord where
  trustRecordId : JsString
  businessTransactionId : JsString
  transaction : Entity
  overrides : List Entity
  executions : List Entity
  verifications : List Entity
  receipts : List Entity
  trustRecordHash : JsString
  signature : Entity
  authorization : Option Entity
  schemaVersion : Option JsNumber
  signatures : Option (List Entity)
  evidenceAnchor : Option Entity
  createdAt : Option Int
  updatedAt : Option Int
  drawn : JsString.paired trustRecordId.units = true
  digits : JsString.paired trustRecordHash.units = true
  named : transaction.data.get "businessTransactionId" = .str businessTransactionId
  identified : ∀ execution ∈ executions, ∃ executionId,
    execution.data.get "executionId" = .str executionId

/-- The members of the record. -/
def ExecutionTrustRecord.members (r : ExecutionTrustRecord) : TrustRecordMembers where
  trustRecordId := .str r.trustRecordId
  businessTransactionId := .str r.businessTransactionId
  transaction := r.transaction.data
  executions := arrayOf r.executions
  overrides := arrayOf r.overrides
  verifications := arrayOf r.verifications
  receipts := arrayOf r.receipts
  trustRecordHash := .str r.trustRecordHash
  signature := r.signature.data
  authorization := r.authorization.map Entity.data
  schemaVersion := r.schemaVersion.map .num
  signatures := r.signatures.map arrayOf
  evidenceAnchor := r.evidenceAnchor.map Entity.data
  createdAt := .date r.createdAt
  updatedAt := .date r.updatedAt

/-- The record as the object the views read. -/
def ExecutionTrustRecord.data (r : ExecutionTrustRecord) : Data := r.members.data

/-- A `jsonb` column: the document that is read back of one that is written, if it
is not refused.  It holds no text it could not give back, and only the order of
the members is its own. -/
structure Jsonb where
  read : Json → Option Json
  holds : ∀ {j stored}, read j = some stored → stored.Storable
  keeps : ∀ {j stored}, j.distinct = true → read j = some stored →
    stored.distinct = true ∧ stored.canon = j.canon

/-- What a `jsonb` column gives back of a text. -/
def Jsonb.column (jsonb : Jsonb) (text : JsString) : Option Json :=
  (Json.parse text).bind jsonb.read

/-- What a `TEXT` column gives back of a text: it is kept in UTF-8, and a NUL is
refused. -/
def textColumn (text : JsString) : Option JsString :=
  if (0 : UInt16) ∈ text.units then none else some text.toWellFormed

/-- A row of a table of artifacts: the artifact, and the time it is ordered by. -/
structure TimedRow where
  json : Json
  time : Int

/-- The rows a trust record is stored in: its header, and a row for each artifact
in the order of `seq`. -/
structure TrustRecordRows where
  trust_record_id : JsString
  business_transaction_id : JsString
  transaction_json : Json
  trust_record_hash : JsString
  signature_json : Json
  created_at : Int
  updated_at : Int
  authorization_json : Option Json
  schema_version : Option JsNumber
  signatures_json : Option Json
  executions : List TimedRow
  overrides : List TimedRow
  verifications : List TimedRow
  receipts : List TimedRow

section
variable (jsonb : Jsonb)

/-- `INSERT` of an artifact, with the time that is read of one of its members. -/
def insertRow (timeName : JsString) (artifact : Entity) : Option TimedRow := do
  return ⟨← jsonb.column artifact.text, ← artifact.time timeName⟩

/-- A column that may be null. -/
def optionalColumn : Option JsString → Option (Option Json)
  | none => some none
  | some text => (jsonb.column text).map some

/-- `create`, and the append of each artifact, the last one at `touchedAt`; `none`
where a date throws or a column refuses. -/
def store (r : ExecutionTrustRecord) (touchedAt : Option Int) : Option TrustRecordRows := do
  let trust_record_id ← textColumn r.trustRecordId
  let business_transaction_id ← textColumn r.businessTransactionId
  let transaction_json ← jsonb.column r.transaction.text
  let trust_record_hash ← textColumn r.trustRecordHash
  let signature_json ← jsonb.column r.signature.text
  let created_at ← r.createdAt
  let updated_at ← r.updatedAt
  let authorization_json ← optionalColumn jsonb (r.authorization.map Entity.text)
  let signatures_json ← optionalColumn jsonb (r.signatures.map fun es =>
    (Json.arr (Data.elements (es.map Entity.data))).stringify)
  let executions ← r.executions.mapM (insertRow jsonb "startedAt")
  let overrides ← r.overrides.mapM (insertRow jsonb "approvedAt")
  let verifications ← r.verifications.mapM (insertRow jsonb "verifiedAt")
  let receipts ← r.receipts.mapM (insertRow jsonb "issuedAt")
  return {
    trust_record_id
    business_transaction_id
    transaction_json
    trust_record_hash
    signature_json
    created_at
    updated_at := touchedAt.getD updated_at
    authorization_json
    schema_version := r.schemaVersion
    signatures_json
    executions
    overrides
    verifications
    receipts }

end

/-- `SELECT … ORDER BY …_at ASC, seq ASC`. -/
def select (rows : List TimedRow) : Data :=
  .arr ((rows.insertionSort fun a b => a.time ≤ b.time).map fun row => .ofJson row.json)

/-- A column that is not null, as the member it becomes. -/
def present : Json → Option Data
  | .null => none
  | j => some (.ofJson j)

/-- `findByTransactionId`: no column keeps an evidence anchor. -/
def load (rows : TrustRecordRows) : TrustRecordMembers where
  trustRecordId := .str rows.trust_record_id
  businessTransactionId := .str rows.business_transaction_id
  transaction := .ofJson rows.transaction_json
  executions := select rows.executions
  overrides := select rows.overrides
  verifications := select rows.verifications
  receipts := select rows.receipts
  trustRecordHash := .str rows.trust_record_hash
  signature := .ofJson rows.signature_json
  authorization := rows.authorization_json.bind present
  schemaVersion := rows.schema_version.map .num
  signatures := rows.signatures_json.bind present
  evidenceAnchor := none
  createdAt := .date (some rows.created_at)
  updatedAt := .date (some rows.updated_at)

/-! ## What is read back -/

/-- A value that was read back: it agrees with the one that was stored, and
nothing in it can make the serializer throw. -/
structure ReadBack (read stored : Data) : Prop where
  agree : Data.Agree read stored
  distinct : read.distinct = true
  datesValid : read.datesValid = true

/-- The members of an object read back. -/
def MembersReadBack (fs gs : DataFields) : Prop :=
  List.Forall₂ (fun p q => p.1 = q.1 ∧ ReadBack p.2 q.2) fs gs

theorem ReadBack.refl {d : Data} (hd : d.distinct = true) (hv : d.datesValid = true) :
    ReadBack d d := ⟨rfl, hd, hv⟩

theorem ReadBack.arr {ds es : List Data} (h : List.Forall₂ ReadBack ds es) :
    ReadBack (.arr ds) (.arr es) := by
  refine ⟨.arr (h.imp fun _ _ hd => hd.agree), ?_, ?_⟩
  · rw [Data.distinct, Data.distinctEach_iff]
    exact ((List.forall₂_and_left _ _).mp (h.imp fun _ _ hd => ⟨hd.distinct, hd.agree⟩)).1
  · rw [Data.datesValid, Data.datesValidEach_iff]
    exact ((List.forall₂_and_left _ _).mp (h.imp fun _ _ hd => ⟨hd.datesValid, hd.agree⟩)).1

theorem MembersReadBack.names {fs gs : DataFields} (h : MembersReadBack fs gs) :
    fs.map Prod.fst = gs.map Prod.fst := by
  induction h with
  | nil => rfl
  | cons hp _ ih => rw [List.map_cons, List.map_cons, hp.1, ih]

theorem MembersReadBack.append {fs gs fs' gs' : DataFields} (h : MembersReadBack fs gs)
    (h' : MembersReadBack fs' gs') : MembersReadBack (fs ++ fs') (gs ++ gs') :=
  List.rel_append h h'

/-- Members that are read back make an object that is read back. -/
theorem MembersReadBack.obj {fs gs : DataFields} (h : MembersReadBack fs gs)
    (hnames : (gs.map Prod.fst).Nodup) : ReadBack (.obj fs) (.obj gs) := by
  refine ⟨.obj (h.imp fun _ _ hp => ⟨hp.1, hp.2.agree⟩), ?_, ?_⟩
  · rw [Data.distinct, Bool.and_eq_true, decide_eq_true_eq, h.names, Data.distinctMembers_iff]
    exact ⟨hnames, ((List.forall₂_and_left _ _).mp (h.imp fun _ _ hp => ⟨hp.2.distinct, hp.1⟩)).1⟩
  · rw [Data.datesValid, Data.datesValidMembers_iff]
    exact ((List.forall₂_and_left _ _).mp (h.imp fun _ _ hp => ⟨hp.2.datesValid, hp.1⟩)).1

theorem ReadBack.of_reload {d : Data} (hd : d.distinct = true) (hwritten : d.toJson? ≠ none) :
    ∃ e, d.reload = some e ∧ ReadBack e d := by
  obtain ⟨j, hreload, hdistinct, hagree⟩ := Data.reload_agrees hd hwritten
  exact ⟨.ofJson j, hreload, hagree, by rw [Data.distinct_ofJson, hdistinct],
    Data.datesValid_ofJson j⟩

theorem Jsonb.readBack {jsonb : Jsonb} {d : Data} {j stored : Json} (hj : d.toJson? = some j)
    (hd : d.distinct = true) (h : jsonb.column j.stringify = some stored) :
    ReadBack (.ofJson stored) d := by
  have hdistinct := Data.toJson?_distinct hd hj
  rw [Jsonb.column, Json.parse_stringify hdistinct, Option.bind_some] at h
  obtain ⟨hstored, hcanon⟩ :=
    jsonb.keeps (Json.settle_distinct (Json.ordered_distinct hdistinct)) h
  refine ⟨?_, by rw [Data.distinct_ofJson, hstored], Data.datesValid_ofJson _⟩
  rw [Data.Agree, Data.canon?_ofJson, hcanon, Json.canon_settle_ordered hdistinct, Data.canon?, hj,
    Option.map_some]

theorem arrayOf_distinct (es : List Entity) : (arrayOf es).distinct = true := by
  rw [arrayOf, Data.distinct, Data.distinctEach_iff]
  rintro d hd
  obtain ⟨e, -, rfl⟩ := List.mem_map.mp hd
  exact e.distinct

/-- The artifacts are in the order of their times. -/
def InOrder (timeName : JsString) (es : List Entity) : Prop :=
  es.Pairwise fun a b =>
    ∀ s ∈ a.time timeName, ∀ t ∈ b.time timeName, s ≤ t

/-- The rows of artifacts in the order of their times are read in that order. -/
theorem select_readBack {jsonb : Jsonb} {timeName : JsString} {es : List Entity}
    {rows : List TimedRow} (h : es.mapM (insertRow jsonb timeName) = some rows)
    (horder : InOrder timeName es) :
    ∃ documents : List Json, select rows = .arr (documents.map .ofJson) ∧
      List.Forall₂ (fun document e => ReadBack (.ofJson document) e.data) documents es := by
  have hrows : List.Forall₂ (fun row e => ReadBack (.ofJson row.json) (Entity.data e) ∧
      Entity.time e timeName = some row.time) rows es := by
    clear horder
    induction es generalizing rows with
    | nil =>
      cases h
      exact .nil
    | cons e es ih =>
      rw [List.mapM_cons] at h
      obtain ⟨row, hrow, h⟩ := Option.bind_eq_some_iff.mp h
      obtain ⟨rest, hrest, h⟩ := Option.bind_eq_some_iff.mp h
      cases h
      obtain ⟨json, hjson, hrow⟩ := Option.bind_eq_some_iff.mp hrow
      obtain ⟨time, htime, hrow⟩ := Option.bind_eq_some_iff.mp hrow
      cases hrow
      exact .cons ⟨Jsonb.readBack rfl e.distinct hjson, htime⟩ (ih hrest)
  have htimes : es.map (Entity.time · timeName) = rows.map fun row => some row.time := by
    clear h horder
    induction hrows with
    | nil => rfl
    | cons hrow _ ih => rw [List.map_cons, List.map_cons, hrow.2, ih]
  have hsorted : rows.Pairwise fun a b => a.time ≤ b.time := by
    have htimed : (es.map (Entity.time · timeName)).Pairwise
        fun s t => ∀ a ∈ s, ∀ b ∈ t, a ≤ b := List.pairwise_map.mpr horder
    rw [htimes, List.pairwise_map] at htimed
    exact htimed.imp fun h => h _ rfl _ rfl
  refine ⟨rows.map TimedRow.json, ?_, ?_⟩
  · rw [select, List.Pairwise.insertionSort_eq hsorted, List.map_map]
    rfl
  · rw [List.forall₂_map_left_iff]
    exact hrows.imp fun _ _ hrow => hrow.1

/-- The columns that may be null: what is stored is an object or an array. -/
theorem optionalColumn_readBack {α : Type} {jsonb : Jsonb} {o : Option α} {data : α → Data}
    {json : α → Json} {read : Option Json} (hjson : ∀ a, (data a).toJson? = some (json a))
    (hdistinct : ∀ a, (data a).distinct = true) (hnull : ∀ a, (data a).canon? ≠ some .null)
    (h : optionalColumn jsonb (o.map fun a => (json a).stringify) = some read) :
    Option.Rel ReadBack (read.bind present) (o.map data) := by
  cases o with
  | none =>
    cases h
    exact .none
  | some a =>
    rw [Option.map_some, optionalColumn, Option.map_eq_some_iff] at h
    obtain ⟨stored, hstored, rfl⟩ := h
    have hread := Jsonb.readBack (hjson a) (hdistinct a) hstored
    have hpresent : present stored = some (.ofJson stored) := by
      cases stored with
      | null => exact absurd hread.agree.symm (hnull a)
      | _ => rfl
    rw [Option.bind_some, hpresent]
    exact .some hread

/-- A member of a document is a document, or there is none. -/
theorem get_ofJson (j : Json) (k : JsString) : (Data.ofJson j).get k = .undefined ∨
    ∃ v fs, j = .obj fs ∧ (k, v) ∈ fs ∧ (Data.ofJson j).get k = .ofJson v := by
  cases j with
  | obj fs =>
    rw [Data.ofJson, Data.get]
    cases hlookup : (Data.ofMembers fs).lookup k with
    | none => exact .inl rfl
    | some d =>
      have hmember := Members.mem_of_lookup hlookup
      rw [Data.ofMembers_eq] at hmember
      obtain ⟨⟨k', v⟩, hv, heq⟩ := List.mem_map.mp hmember
      cases heq
      exact .inr ⟨v, fs, rfl, hv, rfl⟩
  | _ => exact .inl rfl

/-- A member that agrees with a text is the text, and stands in the document. -/
theorem get_ofJson_text {j : Json} {k text : JsString}
    (h : Data.Agree ((Data.ofJson j).get k) (.str text)) :
    (Data.ofJson j).get k = .str text ∧ text ∈ j.texts := by
  rcases get_ofJson j k with hget | ⟨v, fs, rfl, hmem, hget⟩
  · rw [hget] at h
    cases h
  · rw [hget, Data.Agree, Data.canon?_ofJson] at h
    have hvalue : v = .str text := by
      cases v with
      | str s =>
        cases h
        rfl
      | num n =>
        rw [Json.canon_num] at h
        split at h <;> cases h
      | arr xs =>
        rw [Json.canon_arr] at h
        cases h
      | obj fs =>
        rw [Json.canon_obj] at h
        cases h
      | _ => cases h
    subst hvalue
    refine ⟨hget, ?_⟩
    clear hget
    rw [Json.texts]
    induction fs with
    | nil => cases hmem
    | cons member fs ih =>
      rw [Json.textsMembers, List.mem_append]
      rcases List.mem_cons.mp hmem with rfl | hmem
      · exact .inl (List.mem_cons_of_mem _ (List.mem_singleton_self _))
      · exact .inr (ih hmem)

/-- What is read back of a record. -/
structure TrustRecordMembers.Holds (m : TrustRecordMembers) (r : ExecutionTrustRecord) : Prop where
  trustRecordId : m.trustRecordId = .str r.trustRecordId
  businessTransactionId : m.businessTransactionId = .str r.businessTransactionId
  transaction : ReadBack m.transaction r.transaction.data
  executions : ∃ documents : List Json, m.executions = .arr (documents.map .ofJson) ∧
    List.Forall₂ (fun document e => ReadBack (.ofJson document) e.data) documents r.executions
  overrides : ReadBack m.overrides (arrayOf r.overrides)
  trustRecordHash : m.trustRecordHash = .str r.trustRecordHash
  signature : ReadBack m.signature r.signature.data
  authorization : Option.Rel ReadBack m.authorization (r.authorization.map Entity.data)
  schemaVersion : m.schemaVersion = r.schemaVersion.map .num
  signatures : Option.Rel ReadBack m.signatures (r.signatures.map arrayOf)
  createdAt : ∃ time, r.createdAt = some time ∧ m.createdAt = .date (some time)

theorem textColumn_paired {text read : JsString} (h : textColumn text = some read)
    (hpaired : JsString.paired text.units = true) : read = text := by
  unfold textColumn at h
  split at h
  · cases h
  · rw [JsString.toWellFormed_of_paired hpaired] at h
    exact (Option.some.inj h).symm

theorem arrayOf_readBack {documents : List Json} {es : List Entity}
    (h : List.Forall₂ (fun document e => ReadBack (.ofJson document) (Entity.data e))
      documents es) :
    ReadBack (.arr (documents.map .ofJson)) (arrayOf es) := by
  refine .arr ?_
  rw [List.forall₂_map_left_iff, List.forall₂_map_right_iff]
  exact h

/-- **A trust record is read back from its rows** when its artifacts are in the order of
their times. -/
theorem load_store {jsonb : Jsonb} {r : ExecutionTrustRecord} {touchedAt : Option Int}
    {rows : TrustRecordRows} (h : store jsonb r touchedAt = some rows)
    (hexecutions : InOrder "startedAt" r.executions)
    (hoverrides : InOrder "approvedAt" r.overrides) :
    (load rows).Holds r := by
  -- every column took what was written to it
  unfold store at h
  obtain ⟨trust_record_id, hid, h⟩ := Option.bind_eq_some_iff.mp h
  obtain ⟨business_transaction_id, hname, h⟩ := Option.bind_eq_some_iff.mp h
  obtain ⟨transaction_json, htransaction, h⟩ := Option.bind_eq_some_iff.mp h
  obtain ⟨trust_record_hash, hhash, h⟩ := Option.bind_eq_some_iff.mp h
  obtain ⟨signature_json, hsignature, h⟩ := Option.bind_eq_some_iff.mp h
  obtain ⟨created_at, hcreated, h⟩ := Option.bind_eq_some_iff.mp h
  obtain ⟨updated_at, -, h⟩ := Option.bind_eq_some_iff.mp h
  obtain ⟨authorization_json, hauthorization, h⟩ := Option.bind_eq_some_iff.mp h
  obtain ⟨signatures_json, hsignatures, h⟩ := Option.bind_eq_some_iff.mp h
  obtain ⟨executions, hexecutionRows, h⟩ := Option.bind_eq_some_iff.mp h
  obtain ⟨overrides, hoverrideRows, h⟩ := Option.bind_eq_some_iff.mp h
  obtain ⟨verifications, -, h⟩ := Option.bind_eq_some_iff.mp h
  obtain ⟨receipts, -, h⟩ := Option.bind_eq_some_iff.mp h
  cases h
  have hread : ReadBack (.ofJson transaction_json) r.transaction.data :=
    Jsonb.readBack rfl r.transaction.distinct htransaction
  -- the transaction is held, so the name in it has no half of a pair
  have hpaired : JsString.paired r.businessTransactionId.units = true := by
    have hget : Data.Agree (Data.get _ _) (r.transaction.data.get _) :=
      hread.agree.get hread.distinct r.transaction.distinct "businessTransactionId"
    rw [r.named] at hget
    obtain ⟨_, -, hheld⟩ := Option.bind_eq_some_iff.mp htransaction
    exact (jsonb.holds hheld _ (get_ofJson_text hget).2).2
  obtain ⟨documents, hselect, hdocuments⟩ := select_readBack hexecutionRows hexecutions
  obtain ⟨overriding, hselected, hoverriding⟩ := select_readBack hoverrideRows hoverrides
  exact {
    trustRecordId := congrArg Data.str (textColumn_paired hid r.drawn)
    businessTransactionId := congrArg Data.str (textColumn_paired hname hpaired)
    transaction := hread
    executions := ⟨documents, hselect, hdocuments⟩
    overrides := by
      show ReadBack (select overrides) _
      rw [hselected]
      exact arrayOf_readBack hoverriding
    trustRecordHash := congrArg Data.str (textColumn_paired hhash r.digits)
    signature := Jsonb.readBack rfl r.signature.distinct hsignature
    authorization := optionalColumn_readBack (fun _ => rfl) (fun e => e.distinct)
      (fun e => by rw [Entity.data, Data.canon?_obj]; simp) hauthorization
    schemaVersion := rfl
    signatures := optionalColumn_readBack (fun _ => rfl) arrayOf_distinct
      (fun es => by rw [arrayOf, Data.canon?_arr]; simp) hsignatures
    createdAt := ⟨created_at, hcreated, rfl⟩ }

/-! ## Views of what is read back -/

theorem view_readBack {d e : Data} (h : ReadBack d e) (he : e.distinct = true)
    (names : List JsString) : MembersReadBack (view names d) (view names e) := by
  induction names with
  | nil => exact .nil
  | cons k names ih =>
    exact .cons ⟨rfl, h.agree.get h.distinct he k, Data.get_distinct h.distinct k,
      Data.get_datesValid h.datesValid k⟩ ih

theorem view_names (names : List JsString) (d : Data) : (view names d).map Prod.fst = names := by
  rw [view, List.map_map]
  exact List.map_id names

theorem orNull_distinct {d : Data} (h : d.distinct = true) : (orNull d).distinct = true := by
  cases d with
  | undefined => rfl
  | _ => exact h

theorem orNull_readBack {d e : Data} (h : ReadBack d e) : ReadBack (orNull d) (orNull e) := by
  have hvalue : ∀ d : Data, (orNull d).canon? = some (d.canon?.getD .null) := by
    intro d
    cases d with
    | undefined => rfl
    | date t => cases t <;> rfl
    | _ => rfl
  refine ⟨?_, ?_, ?_⟩
  · rw [Data.Agree, hvalue, hvalue, show d.canon? = e.canon? from h.agree]
  · exact orNull_distinct h.distinct
  · cases d with
    | undefined => rfl
    | _ => exact h.datesValid

/-- A view of what is read back has the bytes of the view of what was stored. -/
theorem MembersReadBack.serialize_eq {fs gs : DataFields} (h : MembersReadBack fs gs)
    (hnames : (gs.map Prod.fst).Nodup) (hg : Data.distinctMembers gs = true)
    (hdates : Data.datesValidMembers gs = true) :
    Crypto.serialize (.obj fs) = Crypto.serialize (.obj gs) := by
  have hread := h.obj hnames
  have hdistinct : (Data.obj gs).distinct = true := by
    rw [Data.distinct, Bool.and_eq_true, decide_eq_true_eq]
    exact ⟨hnames, hg⟩
  exact serialize_congr hread.distinct hread.datesValid hdistinct hdates hread.agree

theorem view_distinct {d : Data} (hd : d.distinct = true) (names : List JsString) :
    ∀ p ∈ view names d, p.2.distinct = true := by
  rintro p hp
  obtain ⟨k, -, rfl⟩ := List.mem_map.mp hp
  exact Data.get_distinct hd k

theorem view_datesValid {d : Data} (hd : d.datesValid = true) (names : List JsString) :
    Data.datesValidMembers (view names d) = true := by
  rw [Data.datesValidMembers_iff]
  rintro p hp
  obtain ⟨k, -, rfl⟩ := List.mem_map.mp hp
  exact Data.get_datesValid hd k

/-- A view of a value that is read back has the bytes of the view of the value. -/
theorem serialize_view {d e : Data} (h : ReadBack d e) (he : e.distinct = true)
    (hdates : e.datesValid = true) {names : List JsString} (hnames : names.Nodup) :
    serialize (.obj (view names d)) = serialize (.obj (view names e)) :=
  (view_readBack h he names).serialize_eq (by rwa [view_names])
    (Data.distinctMembers_iff.mpr (view_distinct he names)) (view_datesValid hdates names)

theorem canonicalChainEntry_readBack {d e : Data} (h : ReadBack d e) (he : e.distinct = true)
    {previousChainHash : Option JsString}
    (hdates : (canonicalChainEntry e previousChainHash).datesValid = true) :
    serialize (canonicalChainEntry d previousChainHash) =
      serialize (canonicalChainEntry e previousChainHash) := by
  have hnull : ∀ names : List JsString, MembersReadBack
      (names.map fun k => (k, orNull (d.get k))) (names.map fun k => (k, orNull (e.get k))) := by
    intro names
    induction names with
    | nil => exact .nil
    | cons k names ih =>
      exact .cons ⟨rfl, orNull_readBack ⟨h.agree.get h.distinct he k,
        Data.get_distinct h.distinct k, Data.get_datesValid h.datesValid k⟩⟩ ih
  have hlast : ReadBack (previousChainHash.elim .null .str) (previousChainHash.elim .null .str) := by
    cases previousChainHash <;> exact .refl rfl rfl
  refine MembersReadBack.serialize_eq (((view_readBack h he chainMembers).append
    (hnull nullableChainMembers)).append (.cons ⟨rfl, hlast⟩ .nil)) ?_ ?_ hdates
  · rw [List.map_append, List.map_append, view_names, List.map_map]
    exact (by decide : (chainMembers ++ nullableChainMembers ++ [("previousChainHash" : JsString)]).Nodup)
  · rw [Data.distinctMembers_iff]
    rintro p hp
    rcases List.mem_append.mp hp with hp | hp
    · rcases List.mem_append.mp hp with hp | hp
      · exact view_distinct he _ p hp
      · obtain ⟨k, -, rfl⟩ := List.mem_map.mp hp
        exact orNull_distinct (Data.get_distinct he k)
    · rw [List.mem_singleton.mp hp]
      exact hlast.distinct

theorem canonicalChainEntry_datesValid {e : Data} (h : e.datesValid = true)
    (previousChainHash : Option JsString) :
    (canonicalChainEntry e previousChainHash).datesValid = true := by
  have hnull : ∀ {d : Data}, d.datesValid = true → (orNull d).datesValid = true := by
    intro d hd
    cases d with
    | undefined => rfl
    | _ => exact hd
  rw [canonicalChainEntry, Data.datesValid, Data.datesValidMembers_iff]
  rintro p hp
  rcases List.mem_append.mp hp with hp | hp
  · rcases List.mem_append.mp hp with hp | hp
    · exact Data.datesValidMembers_iff.mp (view_datesValid h _) p hp
    · obtain ⟨k, -, rfl⟩ := List.mem_map.mp hp
      exact hnull (Data.get_datesValid h k)
  · rw [List.mem_singleton.mp hp]
    cases previousChainHash <;> rfl

/-! ## The signed views of a trust record -/

/-- The members that are hashed and signed, of a record that has them. -/
def TrustRecordMembers.signed (m : TrustRecordMembers) : DataFields :=
  [("trustRecordId", m.trustRecordId),
    ("businessTransactionId", m.businessTransactionId),
    ("transaction", m.transaction),
    ("authorization", m.authorization.getD .undefined),
    ("overrides", m.overrides),
    ("executions", m.executions),
    ("createdAt", m.createdAt)]

theorem TrustRecordMembers.view_data (m : TrustRecordMembers) :
    view canonicalMembers m.data = m.signed := by
  obtain ⟨_, _, _, _, _, _, _, _, _, authorization, schemaVersion, signatures, evidenceAnchor,
    _, _⟩ := m
  cases authorization <;> cases schemaVersion <;> cases signatures <;> cases evidenceAnchor <;> rfl

theorem TrustRecordMembers.canonical_data (m : TrustRecordMembers) :
    canonicalExecutionTrustRecord m.data = .obj m.signed := by
  rw [canonicalExecutionTrustRecord, m.view_data]

/-- The members that are hashed and signed, and the version they are signed for. -/
def TrustRecordMembers.hybridSigned (m : TrustRecordMembers) (schemaVersion : JsNumber) :
    DataFields :=
  m.signed ++ ([("schemaVersion", .num schemaVersion)] : DataFields)

theorem TrustRecordMembers.hybrid_data (m : TrustRecordMembers) (schemaVersion : JsNumber) :
    hybridCanonicalExecutionTrustRecord m.data schemaVersion =
      .obj (m.hybridSigned schemaVersion) := by
  rw [hybridCanonicalExecutionTrustRecord, m.view_data, hybridSigned]

section
variable {m m' : TrustRecordMembers} (h : MembersReadBack m.signed m'.signed)
  (hdistinct : Data.distinctMembers m'.signed = true)
  (hdates : Data.datesValidMembers m'.signed = true)
include h hdistinct hdates

theorem serialize_signed : serialize (.obj m.signed) = serialize (.obj m'.signed) :=
  h.serialize_eq (by decide : canonicalMembers.Nodup) hdistinct hdates

theorem serialize_hybridSigned (schemaVersion : JsNumber) :
    serialize (.obj (m.hybridSigned schemaVersion)) =
      serialize (.obj (m'.hybridSigned schemaVersion)) := by
  have hversion : MembersReadBack [("schemaVersion", .num schemaVersion)]
      [("schemaVersion", .num schemaVersion)] := .cons ⟨rfl, .refl rfl rfl⟩ .nil
  refine (h.append hversion).serialize_eq ?_ ?_ ?_
  · rw [List.map_append]
    exact (by decide : (canonicalMembers ++ [("schemaVersion" : JsString)]).Nodup)
  · rw [Data.distinctMembers_iff] at hdistinct ⊢
    rintro p hp
    rcases List.mem_append.mp hp with hp | hp
    · exact hdistinct p hp
    · rw [List.mem_singleton.mp hp]
      rfl
  · rw [Data.datesValidMembers_iff] at hdates ⊢
    rintro p hp
    rcases List.mem_append.mp hp with hp | hp
    · exact hdates p hp
    · rw [List.mem_singleton.mp hp]
      rfl

end

theorem ExecutionTrustRecord.signed_distinct (r : ExecutionTrustRecord) :
    Data.distinctMembers r.members.signed = true := by
  rw [Data.distinctMembers_iff]
  rintro p hp
  simp only [TrustRecordMembers.signed, List.mem_cons, List.not_mem_nil, or_false] at hp
  rcases hp with rfl | rfl | rfl | rfl | rfl | rfl | rfl
  · rfl
  · rfl
  · exact r.transaction.distinct
  · unfold ExecutionTrustRecord.members
    cases r.authorization with
    | none => rfl
    | some authorization => exact authorization.distinct
  · exact arrayOf_distinct _
  · exact arrayOf_distinct _
  · rfl

theorem getD_readBack {o stored : Option Data} (h : Option.Rel ReadBack o stored) :
    ReadBack (o.getD .undefined) (stored.getD .undefined) := by
  cases h with
  | none => exact .refl rfl rfl
  | some hread => exact hread

theorem TrustRecordMembers.Holds.signed {m : TrustRecordMembers} {r : ExecutionTrustRecord}
    (h : m.Holds r) : MembersReadBack m.signed r.members.signed := by
  have hexecutions : ReadBack m.executions (arrayOf r.executions) := by
    obtain ⟨documents, hdocuments, hread⟩ := h.executions
    rw [hdocuments]
    exact arrayOf_readBack hread
  have hcreated : ReadBack m.createdAt (.date r.createdAt) := by
    obtain ⟨time, htime, hread⟩ := h.createdAt
    rw [htime, hread]
    exact .refl rfl rfl
  have htext : ∀ {d : Data} {text : JsString}, d = .str text → ReadBack d (.str text) := by
    rintro _ text rfl
    exact .refl rfl rfl
  exact .cons ⟨rfl, htext h.trustRecordId⟩ (.cons ⟨rfl, htext h.businessTransactionId⟩
    (.cons ⟨rfl, h.transaction⟩ (.cons ⟨rfl, getD_readBack h.authorization⟩
      (.cons ⟨rfl, h.overrides⟩ (.cons ⟨rfl, hexecutions⟩ (.cons ⟨rfl, hcreated⟩ .nil))))))

theorem ExecutionTrustRecord.signed_datesValid {r : ExecutionTrustRecord}
    (hdates : r.data.datesValid = true) : Data.datesValidMembers r.members.signed = true := by
  rw [← TrustRecordMembers.view_data]
  exact view_datesValid hdates canonicalMembers

section
variable {m : TrustRecordMembers} {r : ExecutionTrustRecord} (h : m.Holds r)
  (hdates : r.data.datesValid = true)
include h hdates

/-- **The signed view of a record that is read back has the bytes of the view of the
record**, and so has the hybrid view. -/
theorem canonicalExecutionTrustRecord_readBack :
    serialize (canonicalExecutionTrustRecord m.data) =
      serialize (canonicalExecutionTrustRecord r.data) := by
  rw [m.canonical_data, ExecutionTrustRecord.data, r.members.canonical_data]
  exact serialize_signed h.signed r.signed_distinct (r.signed_datesValid hdates)

theorem hybridCanonicalExecutionTrustRecord_readBack (schemaVersion : JsNumber) :
    serialize (hybridCanonicalExecutionTrustRecord m.data schemaVersion) =
      serialize (hybridCanonicalExecutionTrustRecord r.data schemaVersion) := by
  rw [m.hybrid_data, ExecutionTrustRecord.data, r.members.hybrid_data]
  exact serialize_hybridSigned h.signed r.signed_distinct (r.signed_datesValid hdates)
    schemaVersion

end

end Parmana.Crypto

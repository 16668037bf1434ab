import Parmana.Js.Data

/-! # The canonical serializer

Every hash and every signature is over the bytes of `CanonicalSerializer`: the
value with the keys of its objects sorted at every depth and its dates written
out, as a JSON text in UTF-8.

The bytes say exactly which document a value is written as, up to the order of
its members: `serialize_eq` computes them from the canonical document alone, and
`serialize_injective` reads the canonical document back from them, through the
text encoder, the JSON text and the order `JSON.stringify` lists keys in, which
is not the sorted one.
-/
namespace Parmana.Crypto

open Js

mutual

/-- `normalize`: an invalid date throws. -/
def normalize : Data → Except JsString Data
  | .date none => .error "Invalid time value"
  | .date (some t) => .ok (.str (toISOString t))
  | .arr xs => (normalizeEach xs).map .arr
  | .obj fs => (normalizeMembers fs).map fun ms => .obj (Members.sortByName ms)
  | d => .ok d

def normalizeEach : List Data → Except JsString (List Data)
  | [] => .ok []
  | x :: xs => do
    let y ← normalize x
    let ys ← normalizeEach xs
    return y :: ys

def normalizeMembers : List (JsString × Data) → Except JsString (List (JsString × Data))
  | [] => .ok []
  | (k, v) :: fs => do
    let w ← normalize v
    let gs ← normalizeMembers fs
    return (k, w) :: gs

end

/-- `serialize`.  `TextEncoder` writes nothing for `undefined`. -/
def serialize (value : Data) : Except JsString (List UInt8) :=
  (normalize value).map fun canonical => (canonical.stringify.map JsString.encode).getD []

/-! ## What is serialized -/

theorem normalizeMembers_names : ∀ {fs gs : List (JsString × Data)},
    normalizeMembers fs = .ok gs → gs.map Prod.fst = fs.map Prod.fst
  | [], _, h => by
    cases h
    rfl
  | (k, v) :: fs, gs, h => by
    rw [normalizeMembers] at h
    cases hv : normalize v with
    | error e =>
      rw [hv] at h
      cases h
    | ok w =>
      cases hfs : normalizeMembers fs with
      | error e =>
        rw [hv, hfs] at h
        cases h
      | ok ms =>
        rw [hv, hfs] at h
        cases h
        rw [List.map_cons, List.map_cons, normalizeMembers_names hfs]

mutual

/-- **`normalize` writes the sorted document.** -/
theorem normalize_spec : ∀ {d : Data}, d.distinct = true → d.datesValid = true →
    ∃ n, normalize d = .ok n ∧ n.toJson? = d.toJson?.map Json.sortKeys
  | .undefined, _, _ => ⟨_, rfl, rfl⟩
  | .null, _, _ => ⟨_, rfl, rfl⟩
  | .bool _, _, _ => ⟨_, rfl, rfl⟩
  | .num _, _, _ => ⟨_, rfl, rfl⟩
  | .str _, _, _ => ⟨_, rfl, rfl⟩
  | .date none, _, h => by cases h
  | .date (some _), _, _ => ⟨_, rfl, rfl⟩
  | .arr xs, hd, hv => by
    rw [Data.distinct] at hd
    rw [Data.datesValid] at hv
    obtain ⟨ys, hys, helements⟩ := normalizeEach_spec hd hv
    refine ⟨.arr ys, by rw [normalize, hys]; rfl, ?_⟩
    rw [Data.toJson?, Data.toJson?, helements, Option.map_some, Json.sortKeys]
  | .obj fs, hd, hv => by
    rw [Data.distinct, Bool.and_eq_true, decide_eq_true_eq] at hd
    rw [Data.datesValid] at hv
    obtain ⟨gs, hgs, hmembers⟩ := normalizeMembers_spec hd.2 hv
    refine ⟨.obj (Members.sortByName gs), by rw [normalize, hgs]; rfl, ?_⟩
    have hnames : (gs.map Prod.fst).Nodup := by
      rw [normalizeMembers_names hgs]
      exact hd.1
    rw [Data.toJson?, Data.toJson?, Option.map_some, Json.sortKeys, Data.members_eq,
      ← Members.sortByName_filterValues _ hnames, ← Data.members_eq, hmembers]

theorem normalizeEach_spec : ∀ {xs : List Data}, Data.distinctEach xs = true →
    Data.datesValidEach xs = true →
    ∃ ys, normalizeEach xs = .ok ys ∧ Data.elements ys = Json.sortKeysEach (Data.elements xs)
  | [], _, _ => ⟨[], rfl, rfl⟩
  | x :: xs, hd, hv => by
    rw [Data.distinctEach, Bool.and_eq_true] at hd
    rw [Data.datesValidEach, Bool.and_eq_true] at hv
    obtain ⟨y, hy, hx⟩ := normalize_spec hd.1 hv.1
    obtain ⟨ys, hys, hxs⟩ := normalizeEach_spec hd.2 hv.2
    refine ⟨y :: ys, by rw [normalizeEach, hy, hys]; rfl, ?_⟩
    rw [Data.elements, Data.elements, Json.sortKeysEach, hx, hxs]
    congr 1
    cases x.toJson? <;> rfl

theorem normalizeMembers_spec : ∀ {fs : List (JsString × Data)}, Data.distinctMembers fs = true →
    Data.datesValidMembers fs = true →
    ∃ gs, normalizeMembers fs = .ok gs ∧ Data.members gs = Json.sortKeysMembers (Data.members fs)
  | [], _, _ => ⟨[], rfl, rfl⟩
  | (k, v) :: fs, hd, hv => by
    rw [Data.distinctMembers, Bool.and_eq_true] at hd
    rw [Data.datesValidMembers, Bool.and_eq_true] at hv
    obtain ⟨w, hw, hx⟩ := normalize_spec hd.1 hv.1
    obtain ⟨gs, hgs, hxs⟩ := normalizeMembers_spec hd.2 hv.2
    refine ⟨(k, w) :: gs, by rw [normalizeMembers, hw, hgs]; rfl, ?_⟩
    rw [Data.members, Data.members, hx]
    cases v.toJson? with
    | none => exact hxs
    | some j => rw [Option.map_some, Json.sortKeysMembers, hxs]

end

/-- **The bytes are those of the canonical document.** -/
theorem serialize_eq {d : Data} (hd : d.distinct = true) (hv : d.datesValid = true) :
    serialize d = .ok ((d.canon?.map fun j => j.stringify.encode).getD []) := by
  obtain ⟨n, hn, hjson⟩ := normalize_spec hd hv
  have htext : n.stringify.map JsString.encode = d.canon?.map fun j => j.stringify.encode := by
    rw [Data.stringify, hjson, Data.canon?]
    simp only [Option.map_map]
    refine congrArg (d.toJson?.map ·) (funext fun j => ?_)
    exact congrArg JsString.encode (Json.stringify_sortKeys j)
  rw [serialize, hn, ← htext]
  rfl

/-- Values that agree have the same bytes. -/
theorem serialize_congr {d e : Data} (hd : d.distinct = true) (hv : d.datesValid = true)
    (he : e.distinct = true) (hv' : e.datesValid = true) (h : Data.Agree d e) :
    serialize d = serialize e := by
  rw [serialize_eq hd hv, serialize_eq he hv', h]

/-! ## JSON values -/

/-- A JSON value as the program holds one: no object lists a name twice, and every
number is finite. -/
structure JsonValue where
  json : Json
  distinct : json.distinct = true
  finite : json.finite = true

/-- The value handed to the serializer. -/
def JsonValue.value (v : JsonValue) : Data := .ofJson v.json

theorem serialize_json {j : Json} (h : j.distinct = true) :
    serialize (.ofJson j) = .ok j.sortKeys.stringify.encode := by
  rw [serialize_eq (by rw [Data.distinct_ofJson, h]) (Data.datesValid_ofJson j), Data.canon?_ofJson,
    Json.stringify_sortKeys]
  rfl

theorem paired_stringify (j : Json) : JsString.paired j.stringify.units = true := by
  rw [Json.stringify_eq]
  exact Json.paired_render _

/-- The bytes of a document say which canonical document it has. -/
theorem serialize_canon {j l : Json} (hj : j.distinct = true) (hl : l.distinct = true) :
    serialize (.ofJson j) = serialize (.ofJson l) ↔ j.canon = l.canon := by
  rw [serialize_json hj, serialize_json hl, ← Json.sorted_stringify_iff hj hl, Except.ok.injEq]
  exact ⟨JsString.encode_injective (paired_stringify _) (paired_stringify _),
    congrArg JsString.encode⟩

/-- **Two JSON values have the same canonical bytes exactly when they are the same
value, up to the order of object keys.** -/
theorem serialize_injective (v w : JsonValue) :
    serialize v.value = serialize w.value ↔ v.json.same w.json = true := by
  rw [JsonValue.value, JsonValue.value, serialize_canon v.distinct w.distinct,
    Json.same_iff v.distinct w.distinct v.finite w.finite]

end Parmana.Crypto

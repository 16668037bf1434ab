import Parmana.Js.Sameness

/-! # Values that are written as documents

What the program hashes and stores is not yet a document: a member may be
`undefined`, and a time is a `Date`.  `Data` is such a value, and `toJson?` the
document `JSON.stringify` writes of it: dates as their ISO strings and invalid
ones as `null`, members that are `undefined` left out, elements that are
`undefined` as `null`, nothing at all for `undefined` itself.

Two values agree when they are written as the same document (`Agree`).  Agreeing
values stay so in objects and arrays and under a member read, so a view built
from reads agrees whenever what it reads from does.
-/
namespace Js

/-- A value the program keeps: a document, or one with dates and `undefined` in
it.  A date is its time value in milliseconds, or invalid. -/
inductive Data where
  | undefined
  | null
  | bool (b : Bool)
  | num (n : JsNumber)
  | str (s : JsString)
  | date (time : Option Int)
  | arr (xs : List Data)
  | obj (fs : List (JsString × Data))

/-! ## Dates -/

/-- A number in at least `width` decimal digits. -/
def padded (width n : Nat) : String :=
  String.ofList (List.replicate (width - (Nat.toDigits 10 n).length) '0' ++ Nat.toDigits 10 n)

/-- The year, month and day of a day counted from the first of January 1970, in
the proleptic Gregorian calendar. -/
def civil (day : Int) : Int × Nat × Nat :=
  let z := day + 719468
  let era := z / 146097
  let dayOfEra := (z % 146097).toNat
  let yearOfEra := (dayOfEra - dayOfEra / 1460 + dayOfEra / 36524 - dayOfEra / 146096) / 365
  let dayOfYear := dayOfEra - (365 * yearOfEra + yearOfEra / 4 - yearOfEra / 100)
  let shifted := (5 * dayOfYear + 2) / 153
  let month := if shifted < 10 then shifted + 3 else shifted - 9
  let year := (yearOfEra : Int) + era * 400
  (if month ≤ 2 then year + 1 else year, month, dayOfYear - (153 * shifted + 2) / 5 + 1)

/-- `date.toISOString()` of a valid date. -/
def toISOString (time : Int) : JsString :=
  let (year, month, day) := civil (time / 86400000)
  let ms := (time % 86400000).toNat
  let yearText := if 0 ≤ year ∧ year ≤ 9999 then padded 4 year.toNat
    else (if year < 0 then "-" else "+") ++ padded 6 year.natAbs
  JsString.ofString (yearText ++ "-" ++ padded 2 month ++ "-" ++ padded 2 day ++ "T" ++
    padded 2 (ms / 3600000) ++ ":" ++ padded 2 (ms / 60000 % 60) ++ ":" ++
    padded 2 (ms / 1000 % 60) ++ "." ++ padded 3 (ms % 1000) ++ "Z")

example : toISOString 951827696789 = "2000-02-29T12:34:56.789Z" := by decide

namespace Data

/-! ## What `JSON.stringify` writes -/

mutual

/-- The document a value is written as, if it is written at all. -/
def toJson? : Data → Option Json
  | .undefined => none
  | .null => some .null
  | .bool b => some (.bool b)
  | .num n => some (.num n)
  | .str s => some (.str s)
  | .date none => some .null
  | .date (some t) => some (.str (toISOString t))
  | .arr xs => some (.arr (elements xs))
  | .obj fs => some (.obj (members fs))

def elements : List Data → List Json
  | [] => []
  | x :: xs => x.toJson?.getD .null :: elements xs

def members : List (JsString × Data) → List (JsString × Json)
  | [] => []
  | (k, v) :: fs =>
    match v.toJson? with
    | some j => (k, j) :: members fs
    | none => members fs

end

/-- `JSON.stringify(value)`, `none` where it returns `undefined`. -/
def stringify (d : Data) : Option JsString := d.toJson?.map Json.stringify

mutual

/-- A document is a value. -/
def ofJson : Json → Data
  | .null => .null
  | .bool b => .bool b
  | .num n => .num n
  | .str s => .str s
  | .arr xs => .arr (ofEach xs)
  | .obj fs => .obj (ofMembers fs)

def ofEach : List Json → List Data
  | [] => []
  | x :: xs => ofJson x :: ofEach xs

def ofMembers : List (JsString × Json) → List (JsString × Data)
  | [] => []
  | (k, v) :: fs => (k, ofJson v) :: ofMembers fs

end

/-- `JSON.parse(JSON.stringify(value))`, `none` where it throws. -/
def reload (d : Data) : Option Data := (d.stringify.bind Json.parse).map ofJson

mutual

/-- Whether no object lists a name twice. -/
def distinct : Data → Bool
  | .arr xs => distinctEach xs
  | .obj fs => decide (fs.map Prod.fst).Nodup && distinctMembers fs
  | _ => true

def distinctEach : List Data → Bool
  | [] => true
  | x :: xs => x.distinct && distinctEach xs

def distinctMembers : List (JsString × Data) → Bool
  | [] => true
  | (_, v) :: fs => v.distinct && distinctMembers fs

end

mutual

/-- Whether every date is valid. -/
def datesValid : Data → Bool
  | .date none => false
  | .arr xs => datesValidEach xs
  | .obj fs => datesValidMembers fs
  | _ => true

def datesValidEach : List Data → Bool
  | [] => true
  | x :: xs => x.datesValid && datesValidEach xs

def datesValidMembers : List (JsString × Data) → Bool
  | [] => true
  | (_, v) :: fs => v.datesValid && datesValidMembers fs

end

/-- `value[name]`, for a name no prototype has. -/
def get : Data → JsString → Data
  | .obj fs, k => (fs.lookup k).getD .undefined
  | _, _ => .undefined

theorem elements_eq (xs : List Data) : elements xs = xs.map fun x => x.toJson?.getD .null := by
  induction xs with
  | nil => rfl
  | cons x xs ih => rw [elements, ih, List.map_cons]

theorem members_eq (fs : List (JsString × Data)) :
    members fs = Members.filterValues toJson? fs := by
  induction fs with
  | nil => rfl
  | cons p fs ih =>
    obtain ⟨k, v⟩ := p
    rw [members, Members.filterValues, List.filterMap_cons]
    rw [Members.filterValues] at ih
    cases h : v.toJson? with
    | none => simp [ih]
    | some j => simp [ih]

theorem distinctMembers_iff {fs : List (JsString × Data)} :
    distinctMembers fs = true ↔ ∀ p ∈ fs, p.2.distinct = true := by
  induction fs with
  | nil => simp [distinctMembers]
  | cons p fs ih =>
    obtain ⟨k, v⟩ := p
    rw [distinctMembers, Bool.and_eq_true, ih, List.forall_mem_cons]

theorem datesValidMembers_iff {fs : List (JsString × Data)} :
    datesValidMembers fs = true ↔ ∀ p ∈ fs, p.2.datesValid = true := by
  induction fs with
  | nil => simp [datesValidMembers]
  | cons p fs ih =>
    obtain ⟨k, v⟩ := p
    rw [datesValidMembers, Bool.and_eq_true, ih, List.forall_mem_cons]

theorem distinctEach_iff {xs : List Data} :
    distinctEach xs = true ↔ ∀ x ∈ xs, x.distinct = true := by
  induction xs with
  | nil => simp [distinctEach]
  | cons x xs ih => rw [distinctEach, Bool.and_eq_true, ih, List.forall_mem_cons]

theorem datesValidEach_iff {xs : List Data} :
    datesValidEach xs = true ↔ ∀ x ∈ xs, x.datesValid = true := by
  induction xs with
  | nil => simp [datesValidEach]
  | cons x xs ih => rw [datesValidEach, Bool.and_eq_true, ih, List.forall_mem_cons]

/-! ## Documents as values -/

mutual

theorem toJson?_ofJson : ∀ j : Json, (ofJson j).toJson? = some j
  | .null => rfl
  | .bool _ => rfl
  | .num _ => rfl
  | .str _ => rfl
  | .arr xs => by rw [ofJson, toJson?, elements_ofEach xs]
  | .obj fs => by rw [ofJson, toJson?, members_ofMembers fs]

theorem elements_ofEach : ∀ xs : List Json, elements (ofEach xs) = xs
  | [] => rfl
  | x :: xs => by
    rw [ofEach, elements, toJson?_ofJson x, elements_ofEach xs]
    rfl

theorem members_ofMembers : ∀ fs : List (JsString × Json), members (ofMembers fs) = fs
  | [] => rfl
  | (k, v) :: fs => by
    rw [ofMembers, members, toJson?_ofJson v, members_ofMembers fs]

end

theorem ofMembers_eq (fs : List (JsString × Json)) :
    ofMembers fs = Members.mapValues ofJson fs := by
  induction fs with
  | nil => rfl
  | cons p fs ih =>
    obtain ⟨k, v⟩ := p
    rw [ofMembers, ih]
    rfl

mutual

theorem datesValid_ofJson : ∀ j : Json, (ofJson j).datesValid = true
  | .null => rfl
  | .bool _ => rfl
  | .num _ => rfl
  | .str _ => rfl
  | .arr xs => datesValid_ofEach xs
  | .obj fs => datesValid_ofMembers fs

theorem datesValid_ofEach : ∀ xs : List Json, datesValidEach (ofEach xs) = true
  | [] => rfl
  | x :: xs => by
    rw [ofEach, datesValidEach, datesValid_ofJson x, datesValid_ofEach xs]
    rfl

theorem datesValid_ofMembers : ∀ fs : List (JsString × Json), datesValidMembers (ofMembers fs) = true
  | [] => rfl
  | (k, v) :: fs => by
    rw [ofMembers, datesValidMembers, datesValid_ofJson v, datesValid_ofMembers fs]
    rfl

end

mutual

theorem distinct_ofJson : ∀ j : Json, (ofJson j).distinct = j.distinct
  | .null => rfl
  | .bool _ => rfl
  | .num _ => rfl
  | .str _ => rfl
  | .arr xs => by rw [ofJson, distinct, Json.distinct, distinct_ofEach xs]
  | .obj fs => by
    rw [ofJson, distinct, Json.distinct, distinct_ofMembers fs, ofMembers_eq,
      Members.mapValues_names]

theorem distinct_ofEach : ∀ xs : List Json, distinctEach (ofEach xs) = Json.distinctEach xs
  | [] => rfl
  | x :: xs => by
    rw [ofEach, distinctEach, Json.distinctEach, distinct_ofJson x, distinct_ofEach xs]

theorem distinct_ofMembers : ∀ fs : List (JsString × Json),
    distinctMembers (ofMembers fs) = Json.distinctMembers fs
  | [] => rfl
  | (k, v) :: fs => by
    rw [ofMembers, distinctMembers, Json.distinctMembers, distinct_ofJson v, distinct_ofMembers fs]

end

mutual

/-- What a value is written as lists no name twice either. -/
theorem toJson?_distinct : ∀ {d : Data}, d.distinct = true → ∀ {j : Json}, d.toJson? = some j →
    j.distinct = true
  | .undefined, _, _, h => by cases h
  | .null, _, _, h => by cases h; rfl
  | .bool _, _, _, h => by cases h; rfl
  | .num _, _, _, h => by cases h; rfl
  | .str _, _, _, h => by cases h; rfl
  | .date none, _, _, h => by cases h; rfl
  | .date (some _), _, _, h => by cases h; rfl
  | .arr xs, hd, _, h => by
    cases h
    exact elements_distinct hd
  | .obj fs, hd, _, h => by
    cases h
    rw [distinct, Bool.and_eq_true, decide_eq_true_eq] at hd
    rw [Json.distinct, Bool.and_eq_true, decide_eq_true_eq, members_eq]
    refine ⟨Members.filterValues_nodup hd.1, ?_⟩
    rw [← members_eq]
    exact members_distinct hd.2

theorem elements_distinct : ∀ {xs : List Data}, distinctEach xs = true →
    Json.distinctEach (elements xs) = true
  | [], _ => rfl
  | x :: xs, h => by
    rw [distinctEach, Bool.and_eq_true] at h
    rw [elements, Json.distinctEach, Bool.and_eq_true]
    refine ⟨?_, elements_distinct h.2⟩
    cases hx : x.toJson? with
    | none => rfl
    | some j => exact toJson?_distinct h.1 hx

theorem members_distinct : ∀ {fs : List (JsString × Data)}, distinctMembers fs = true →
    Json.distinctMembers (members fs) = true
  | [], _ => rfl
  | (k, v) :: fs, h => by
    rw [distinctMembers, Bool.and_eq_true] at h
    rw [members]
    cases hv : v.toJson? with
    | none => exact members_distinct h.2
    | some j =>
      rw [Json.distinctMembers, Bool.and_eq_true]
      exact ⟨toJson?_distinct h.1 hv, members_distinct h.2⟩

end

/-! ## Agreement -/

/-- The canonical document of a value. -/
def canon? (d : Data) : Option Json := d.toJson?.map Json.canon

/-- Whether two values are written as the same document. -/
def Agree (d e : Data) : Prop := d.canon? = e.canon?

theorem canon?_arr (xs : List Data) :
    (arr xs).canon? = some (.arr (xs.map fun x => x.canon?.getD .null)) := by
  rw [canon?, toJson?, Option.map_some, Json.canon_arr, elements_eq, List.map_map]
  refine congrArg (fun ys => some (Json.arr ys)) (List.map_congr_left fun x _ => ?_)
  unfold canon?
  simp only [Function.comp]
  cases x.toJson? <;> rfl

theorem canon?_obj (fs : List (JsString × Data)) :
    (obj fs).canon? = some (.obj (Members.sortByName (Members.filterValues canon? fs))) := by
  have hvalues : Members.mapValues Json.canon (Members.filterValues toJson? fs) =
      Members.filterValues canon? fs := by
    unfold Members.mapValues Members.filterValues canon?
    rw [List.map_filterMap]
    simp only [Option.map_map]
    rfl
  rw [canon?, toJson?, Option.map_some, Json.canon_obj, members_eq, hvalues]

theorem canon?_ofJson (j : Json) : (ofJson j).canon? = some j.canon := by
  rw [canon?, toJson?_ofJson, Option.map_some]

/-- **A value reloaded from its text agrees with it.** -/
theorem reload_agrees {d : Data} (hd : d.distinct = true) (hwritten : d.toJson? ≠ none) :
    ∃ j : Json, d.reload = some (ofJson j) ∧ j.distinct = true ∧ Agree (ofJson j) d := by
  obtain ⟨j, hj⟩ := Option.ne_none_iff_exists'.mp hwritten
  have hdistinct := toJson?_distinct hd hj
  refine ⟨j.ordered.settle, ?_, ?_, ?_⟩
  · rw [reload, stringify, hj, Option.map_some, Option.bind_some, Json.parse_stringify hdistinct,
      Option.map_some]
  · exact Json.settle_distinct (Json.ordered_distinct hdistinct)
  · rw [Agree, canon?_ofJson, Json.canon_settle_ordered hdistinct, canon?, hj, Option.map_some]

theorem Agree.arr {xs ys : List Data} (h : List.Forall₂ Agree xs ys) : Agree (.arr xs) (.arr ys) := by
  rw [Agree, canon?_arr, canon?_arr]
  congr 2
  induction h with
  | nil => rfl
  | cons hx _ ih =>
    rw [Agree] at hx
    rw [List.map_cons, List.map_cons, hx, ih]

theorem Agree.obj {fs gs : List (JsString × Data)}
    (h : List.Forall₂ (fun p q => p.1 = q.1 ∧ Agree p.2 q.2) fs gs) : Agree (.obj fs) (.obj gs) := by
  have hvalues : Members.filterValues canon? fs = Members.filterValues canon? gs := by
    unfold Members.filterValues
    induction h with
    | nil => rfl
    | cons hp _ ih =>
      obtain ⟨hname, hvalue⟩ := hp
      rw [Agree] at hvalue
      rw [List.filterMap_cons, List.filterMap_cons, hname, hvalue, ih]
  rw [Agree, canon?_obj, canon?_obj, hvalues]

theorem canon?_get {fs : List (JsString × Data)} (h : (fs.map Prod.fst).Nodup) (k : JsString) :
    ((Data.obj fs).get k).canon? = (Members.filterValues canon? fs).lookup k := by
  rw [Members.lookup_filterValues _ h, Data.get]
  cases fs.lookup k <;> rfl

/-- A value that is no object agrees with none. -/
theorem canon?_ne_obj {d : Data} (h : ∀ fs, d ≠ .obj fs) (gs : List (JsString × Json)) :
    d.canon? ≠ some (.obj gs) := by
  cases d with
  | obj fs => exact absurd rfl (h fs)
  | arr xs => simp [canon?_arr]
  | num n =>
    rw [canon?, toJson?, Option.map_some, Json.canon_num]
    split <;> simp
  | date t => cases t <;> simp [canon?, toJson?, Json.canon_null, Json.canon_str]
  | _ => simp [canon?, toJson?, Json.canon_null, Json.canon_bool, Json.canon_str]

theorem get_of_not_obj {d : Data} (h : ∀ fs, d ≠ .obj fs) (k : JsString) : d.get k = .undefined := by
  cases d with
  | obj fs => exact absurd rfl (h fs)
  | _ => rfl

theorem filterValues_canon_lookup {fs gs : List (JsString × Data)} (hf : (fs.map Prod.fst).Nodup)
    (hg : (gs.map Prod.fst).Nodup)
    (h : Members.sortByName (Members.filterValues canon? fs) =
      Members.sortByName (Members.filterValues canon? gs)) (k : JsString) :
    (Members.filterValues canon? fs).lookup k = (Members.filterValues canon? gs).lookup k := by
  have hperm := (Members.sortByName_eq_iff (Members.filterValues_nodup hf)).mp h
  ext v
  rw [Members.lookup_eq_some (Members.filterValues_nodup hf),
    Members.lookup_eq_some (Members.filterValues_nodup hg)]
  exact hperm.mem_iff

/-- **Agreeing values have agreeing members.** -/
theorem Agree.get {d e : Data} (hd : d.distinct = true) (he : e.distinct = true) (h : Agree d e)
    (k : JsString) : Agree (d.get k) (e.get k) := by
  by_cases hobj : ∃ fs, d = .obj fs
  · obtain ⟨fs, rfl⟩ := hobj
    by_cases hobj' : ∃ gs, e = .obj gs
    · obtain ⟨gs, rfl⟩ := hobj'
      rw [distinct, Bool.and_eq_true, decide_eq_true_eq] at hd he
      rw [Agree, canon?_obj, canon?_obj, Option.some.injEq, Json.obj.injEq] at h
      rw [Agree, canon?_get hd.1, canon?_get he.1]
      exact filterValues_canon_lookup hd.1 he.1 h k
    · rw [Agree, canon?_obj] at h
      exact absurd h.symm (canon?_ne_obj (fun gs he => hobj' ⟨gs, he⟩) _)
  · have hnot : ∀ fs, d ≠ .obj fs := fun fs hd => hobj ⟨fs, hd⟩
    have hnot' : ∀ gs, e ≠ .obj gs := by
      rintro gs rfl
      rw [Agree, canon?_obj] at h
      exact canon?_ne_obj hnot _ h
    rw [get_of_not_obj hnot, get_of_not_obj hnot']
    rfl

theorem get_distinct {d : Data} (hd : d.distinct = true) (k : JsString) :
    (d.get k).distinct = true := by
  cases d with
  | obj fs =>
    rw [distinct, Bool.and_eq_true] at hd
    rw [Data.get]
    cases h : fs.lookup k with
    | none => rfl
    | some v => exact distinctMembers_iff.mp hd.2 _ (Members.mem_of_lookup h)
  | _ => rfl

theorem get_datesValid {d : Data} (hd : d.datesValid = true) (k : JsString) :
    (d.get k).datesValid = true := by
  cases d with
  | obj fs =>
    rw [Data.get]
    cases h : fs.lookup k with
    | none => rfl
    | some v => exact datesValidMembers_iff.mp hd _ (Members.mem_of_lookup h)
  | _ => rfl

end Data
end Js

import Parmana.Js.Encoding

/-! # Documents that are the same

Two documents are the same when they differ at most in the order their objects
list the members in, and in the sign of a zero (`same`).  `canon` is one document
of each such class: the members sorted by name, the numbers settled.  Sameness is
equality of canonical documents (`same_iff`), and what `JSON.parse` gets back from
a text has the canonical document of what was written (`canon_settle_ordered`).
-/
namespace Js
namespace Json

mutual

/-- A document with the members of every object sorted by name. -/
def sortKeys : Json → Json
  | .arr xs => .arr (sortKeysEach xs)
  | .obj fs => .obj (Members.sortByName (sortKeysMembers fs))
  | j => j

def sortKeysEach : List Json → List Json
  | [] => []
  | x :: xs => x.sortKeys :: sortKeysEach xs

def sortKeysMembers : List (JsString × Json) → List (JsString × Json)
  | [] => []
  | (k, v) :: fs => (k, v.sortKeys) :: sortKeysMembers fs

end

/-- The canonical document. -/
def canon (j : Json) : Json := j.sortKeys.settle

mutual

/-- Whether two documents are the same up to the order of their members. -/
def same : Json → Json → Bool
  | .null, .null => true
  | .bool a, .bool b => a == b
  | .num a, .num b => a.merge == b.merge
  | .str s, .str t => s == t
  | .arr xs, .arr ys => sameEach xs ys
  | .obj fs, .obj gs => fs.length == gs.length && sameMembers fs gs
  | _, _ => false

def sameEach : List Json → List Json → Bool
  | [], [] => true
  | x :: xs, y :: ys => same x y && sameEach xs ys
  | _, _ => false

/-- Whether every member is there in the other object, and the same. -/
def sameMembers : List (JsString × Json) → List (JsString × Json) → Bool
  | [], _ => true
  | (k, x) :: fs, gs =>
    (match gs.lookup k with
      | some y => same x y
      | none => false) && sameMembers fs gs

end

mutual

/-- Whether every number of the document is finite. -/
def finite : Json → Bool
  | .num n => n.isFinite
  | .arr xs => finiteEach xs
  | .obj fs => finiteMembers fs
  | _ => true

def finiteEach : List Json → Bool
  | [] => true
  | x :: xs => x.finite && finiteEach xs

def finiteMembers : List (JsString × Json) → Bool
  | [] => true
  | (_, v) :: fs => v.finite && finiteMembers fs

end

/-! ## Members by name -/

theorem sortKeysMembers_eq (fs : List (JsString × Json)) :
    sortKeysMembers fs = Members.mapValues sortKeys fs := by
  induction fs with
  | nil => rfl
  | cons p fs ih =>
    obtain ⟨k, v⟩ := p
    rw [sortKeysMembers, ih]
    rfl

theorem settleMembers_eq (fs : List (JsString × Json)) :
    settleMembers fs = Members.mapValues settle fs := by
  induction fs with
  | nil => rfl
  | cons p fs ih =>
    obtain ⟨k, v⟩ := p
    rw [settleMembers, ih]
    rfl

theorem finiteMembers_iff {fs : List (JsString × Json)} :
    finiteMembers fs = true ↔ ∀ p ∈ fs, p.2.finite = true := by
  induction fs with
  | nil => simp [finiteMembers]
  | cons p fs ih =>
    obtain ⟨k, v⟩ := p
    rw [finiteMembers, Bool.and_eq_true, ih, List.forall_mem_cons]

theorem canon_null : canon .null = .null := rfl

theorem canon_bool (b : Bool) : canon (.bool b) = .bool b := rfl

theorem canon_str (s : JsString) : canon (.str s) = .str s := rfl

theorem canon_num (n : JsNumber) : canon (.num n) = if n.isFinite then .num n.merge else .null := rfl

theorem canon_arr (xs : List Json) : canon (.arr xs) = .arr (xs.map canon) := by
  have heach : settleEach (sortKeysEach xs) = xs.map canon := by
    induction xs with
    | nil => rfl
    | cons x xs ih => rw [sortKeysEach, settleEach, ih, List.map_cons, canon]
  rw [canon, sortKeys, settle, heach]

theorem canon_obj (fs : List (JsString × Json)) :
    canon (.obj fs) = .obj (Members.sortByName (Members.mapValues canon fs)) := by
  rw [canon, sortKeys, settle, settleMembers_eq, sortKeysMembers_eq, ← Members.sortByName_mapValues,
    Members.mapValues_mapValues]
  rfl

/-! ## What a text keeps -/

mutual

/-- **A text keeps the canonical document.** -/
theorem canon_settle_ordered : ∀ {j : Json}, j.distinct = true → j.ordered.settle.canon = j.canon
  | .null, _ => rfl
  | .bool _, _ => rfl
  | .str _, _ => rfl
  | .num n, _ => by
    cases n <;> rfl
  | .arr xs, h => by
    rw [distinct] at h
    rw [ordered, settle, canon_arr, canon_arr, canon_settleEach h]
  | .obj fs, h => by
    rw [distinct, Bool.and_eq_true, decide_eq_true_eq] at h
    have hnames : ((orderedMembers fs).map Prod.fst).Nodup := by
      rw [orderedMembers_eq, Members.mapValues_names]
      exact h.1
    have hperm := Members.enumerate_perm hnames
    rw [ordered, settle, canon_obj, canon_obj, settleMembers_eq, Members.mapValues_mapValues]
    refine congrArg Json.obj ((Members.sortByName_congr ?_ (hperm.map _)).trans ?_)
    · rw [← Members.mapValues, Members.mapValues_names]
      exact Members.enumerate_nodup hnames
    · rw [← Members.mapValues, ← Members.mapValues_mapValues, ← settleMembers_eq,
        canon_settleMembers h.2]

theorem canon_settleEach : ∀ {xs : List Json}, distinctEach xs = true →
    (settleEach (orderedEach xs)).map canon = xs.map canon
  | [], _ => rfl
  | x :: xs, h => by
    rw [distinctEach, Bool.and_eq_true] at h
    rw [orderedEach, settleEach, List.map_cons, List.map_cons, canon_settle_ordered h.1,
      canon_settleEach h.2]

theorem canon_settleMembers : ∀ {fs : List (JsString × Json)}, distinctMembers fs = true →
    Members.mapValues canon (settleMembers (orderedMembers fs)) = Members.mapValues canon fs
  | [], _ => rfl
  | (k, v) :: fs, h => by
    rw [distinctMembers, Bool.and_eq_true] at h
    have hrest := canon_settleMembers h.2
    unfold Members.mapValues at hrest ⊢
    rw [orderedMembers, settleMembers, List.map_cons, List.map_cons, canon_settle_ordered h.1, hrest]

end

mutual

/-- Settling and ordering commute. -/
theorem settle_ordered : ∀ j : Json, j.ordered.settle = j.settle.ordered
  | .null => rfl
  | .bool _ => rfl
  | .str _ => rfl
  | .num n => by cases n <;> rfl
  | .arr xs => by rw [ordered, settle, settle, ordered, settleEach_ordered xs]
  | .obj fs => by
    rw [ordered, settle, settle, ordered, settleMembers_eq, ← Members.enumerate_mapValues,
      ← settleMembers_eq, settleMembers_ordered fs]

theorem settleEach_ordered : ∀ xs : List Json,
    settleEach (orderedEach xs) = orderedEach (settleEach xs)
  | [] => rfl
  | x :: xs => by
    rw [orderedEach, settleEach, settleEach, orderedEach, settle_ordered x, settleEach_ordered xs]

theorem settleMembers_ordered : ∀ fs : List (JsString × Json),
    settleMembers (orderedMembers fs) = orderedMembers (settleMembers fs)
  | [] => rfl
  | (k, v) :: fs => by
    rw [orderedMembers, settleMembers, settleMembers, orderedMembers, settle_ordered v,
      settleMembers_ordered fs]

end

mutual

theorem stringify_settle : ∀ j : Json, j.settle.stringify = j.stringify
  | .null => rfl
  | .bool _ => rfl
  | .str _ => rfl
  | .num n => by cases n <;> rfl
  | .arr xs => by rw [settle, stringify, stringify, stringifyEach_settle xs]
  | .obj fs => by rw [settle, stringify, stringify, stringifyMembers_settle fs]

theorem stringifyEach_settle : ∀ xs : List Json, stringifyEach (settleEach xs) = stringifyEach xs
  | [] => rfl
  | x :: xs => by
    rw [settleEach, stringifyEach, stringifyEach, stringify_settle x, stringifyEach_settle xs]

theorem stringifyMembers_settle : ∀ fs : List (JsString × Json),
    stringifyMembers (settleMembers fs) = stringifyMembers fs
  | [] => rfl
  | (k, v) :: fs => by
    rw [settleMembers, stringifyMembers, stringifyMembers, stringify_settle v,
      stringifyMembers_settle fs]

end

/-- The text of the sorted document is that of the canonical one. -/
theorem stringify_sortKeys (j : Json) : j.sortKeys.stringify = j.canon.stringify :=
  (stringify_settle j.sortKeys).symm

/-! ## Sorting twice -/

mutual

theorem sortKeys_distinct : ∀ {j : Json}, j.distinct = true → j.sortKeys.distinct = true
  | .null, _ => rfl
  | .bool _, _ => rfl
  | .num _, _ => rfl
  | .str _, _ => rfl
  | .arr xs, h => by
    rw [distinct] at h
    rw [sortKeys, distinct]
    exact sortKeysEach_distinct h
  | .obj fs, h => by
    rw [distinct, Bool.and_eq_true, decide_eq_true_eq] at h
    have hnames : ((sortKeysMembers fs).map Prod.fst).Nodup := by
      rw [sortKeysMembers_eq, Members.mapValues_names]
      exact h.1
    rw [sortKeys, distinct, Bool.and_eq_true, decide_eq_true_eq]
    refine ⟨Members.sortByName_nodup hnames, ?_⟩
    rw [distinctMembers_iff]
    intro p hp
    exact (distinctMembers_iff.mp (sortKeysMembers_distinct h.2)) p
      ((Members.sortByName_perm _).mem_iff.mp hp)

theorem sortKeysEach_distinct : ∀ {xs : List Json}, distinctEach xs = true →
    distinctEach (sortKeysEach xs) = true
  | [], _ => rfl
  | x :: xs, h => by
    rw [distinctEach, Bool.and_eq_true] at h
    rw [sortKeysEach, distinctEach, Bool.and_eq_true]
    exact ⟨sortKeys_distinct h.1, sortKeysEach_distinct h.2⟩

theorem sortKeysMembers_distinct : ∀ {fs : List (JsString × Json)}, distinctMembers fs = true →
    distinctMembers (sortKeysMembers fs) = true
  | [], _ => rfl
  | (k, v) :: fs, h => by
    rw [distinctMembers, Bool.and_eq_true] at h
    rw [sortKeysMembers, distinctMembers, Bool.and_eq_true]
    exact ⟨sortKeys_distinct h.1, sortKeysMembers_distinct h.2⟩

end

mutual

theorem canon_sortKeys : ∀ {j : Json}, j.distinct = true → j.sortKeys.canon = j.canon
  | .null, _ => rfl
  | .bool _, _ => rfl
  | .num _, _ => rfl
  | .str _, _ => rfl
  | .arr xs, h => by
    rw [distinct] at h
    rw [sortKeys, canon_arr, canon_arr, canon_sortKeysEach h]
  | .obj fs, h => by
    rw [distinct, Bool.and_eq_true, decide_eq_true_eq] at h
    have hperm := Members.sortByName_perm (sortKeysMembers fs)
    have hnames : ((sortKeysMembers fs).map Prod.fst).Nodup := by
      rw [sortKeysMembers_eq, Members.mapValues_names]
      exact h.1
    rw [sortKeys, canon_obj, canon_obj]
    refine congrArg Json.obj ((Members.sortByName_congr ?_ (hperm.map _)).trans ?_)
    · rw [← Members.mapValues, Members.mapValues_names]
      exact Members.sortByName_nodup hnames
    · rw [← Members.mapValues, canon_sortKeysMembers h.2]

theorem canon_sortKeysEach : ∀ {xs : List Json}, distinctEach xs = true →
    (sortKeysEach xs).map canon = xs.map canon
  | [], _ => rfl
  | x :: xs, h => by
    rw [distinctEach, Bool.and_eq_true] at h
    rw [sortKeysEach, List.map_cons, List.map_cons, canon_sortKeys h.1, canon_sortKeysEach h.2]

theorem canon_sortKeysMembers : ∀ {fs : List (JsString × Json)}, distinctMembers fs = true →
    Members.mapValues canon (sortKeysMembers fs) = Members.mapValues canon fs
  | [], _ => rfl
  | (k, v) :: fs, h => by
    rw [distinctMembers, Bool.and_eq_true] at h
    have hrest := canon_sortKeysMembers h.2
    unfold Members.mapValues at hrest ⊢
    rw [sortKeysMembers, List.map_cons, List.map_cons, canon_sortKeys h.1, hrest]

end

/-- **The canonical text says which canonical document it is of.** -/
theorem sorted_stringify_iff {j l : Json} (hj : j.distinct = true) (hl : l.distinct = true) :
    j.sortKeys.stringify = l.sortKeys.stringify ↔ j.canon = l.canon := by
  constructor
  · intro h
    have hread := congrArg Json.parse h
    rw [parse_stringify (sortKeys_distinct hj), parse_stringify (sortKeys_distinct hl),
      Option.some.injEq] at hread
    have hcanon := congrArg canon hread
    rwa [canon_settle_ordered (sortKeys_distinct hj), canon_settle_ordered (sortKeys_distinct hl),
      canon_sortKeys hj, canon_sortKeys hl] at hcanon
  · intro h
    rw [stringify_sortKeys, stringify_sortKeys, h]

/-! ## Sameness -/

theorem sameMembers_iff {fs gs : List (JsString × Json)} :
    sameMembers fs gs = true ↔ ∀ p ∈ fs, ∃ y, gs.lookup p.1 = some y ∧ same p.2 y = true := by
  induction fs with
  | nil => simp [sameMembers]
  | cons p fs ih =>
    obtain ⟨k, x⟩ := p
    rw [sameMembers, Bool.and_eq_true, ih, List.forall_mem_cons]
    refine and_congr_left fun _ => ?_
    cases gs.lookup k with
    | none => simp
    | some y => simp

/-- The members of two objects are the same when their canonical documents are
the same members. -/
theorem perm_iff {fs gs : List (JsString × Json)} (hf : (fs.map Prod.fst).Nodup)
    (hg : (gs.map Prod.fst).Nodup) :
    (Members.mapValues canon fs).Perm (Members.mapValues canon gs) ↔
      fs.length = gs.length ∧
        ∀ p ∈ fs, ∃ y, gs.lookup p.1 = some y ∧ p.2.canon = y.canon := by
  constructor
  · intro hperm
    refine ⟨by simpa [Members.mapValues] using hperm.length_eq, fun p hp => ?_⟩
    have hmem : (p.1, p.2.canon) ∈ Members.mapValues canon gs :=
      hperm.mem_iff.mp (List.mem_map_of_mem (f := fun q : JsString × Json => (q.1, canon q.2)) hp)
    obtain ⟨q, hq, he⟩ := List.mem_map.mp hmem
    rw [Prod.mk.injEq] at he
    exact ⟨q.2, he.1 ▸ Members.lookup_of_mem hg hq, he.2.symm⟩
  · rintro ⟨hlen, hall⟩
    have hnodup : (Members.mapValues canon fs).Nodup :=
      List.Nodup.of_map Prod.fst (by rwa [Members.mapValues_names])
    refine (List.subperm_of_subset hnodup ?_).perm_of_length_le (by simp [Members.mapValues, hlen])
    intro q hq
    obtain ⟨p, hp, rfl⟩ := List.mem_map.mp hq
    obtain ⟨y, hy, hcanon⟩ := hall p hp
    exact List.mem_map.mpr ⟨(p.1, y), Members.mem_of_lookup hy, by rw [hcanon]⟩

mutual

/-- **Two documents are the same when their canonical documents are equal.** -/
theorem same_iff : ∀ {j l : Json}, j.distinct = true → l.distinct = true → j.finite = true →
    l.finite = true → (same j l = true ↔ j.canon = l.canon)
  | .null, l, _, _, _, hl => by
    cases l with
    | num b => simp [same, canon_null, canon_num, show b.isFinite = true from hl]
    | _ => simp [same, canon_null, canon_bool, canon_str, canon_arr, canon_obj]
  | .bool a, l, _, _, _, hl => by
    cases l with
    | num b => simp [same, canon_bool, canon_num, show b.isFinite = true from hl]
    | _ => simp [same, canon_null, canon_bool, canon_str, canon_arr, canon_obj]
  | .num a, l, _, _, ha, hl => by
    have ha' : a.isFinite = true := ha
    cases l with
    | num b => simp [same, canon_num, ha', show b.isFinite = true from hl]
    | _ => simp [same, canon_null, canon_bool, canon_num, canon_str, canon_arr, canon_obj, ha']
  | .str s, l, _, _, _, hl => by
    cases l with
    | num b => simp [same, canon_str, canon_num, show b.isFinite = true from hl]
    | _ => simp [same, canon_null, canon_bool, canon_str, canon_arr, canon_obj]
  | .arr xs, l, hj, hl, hfj, hfl => by
    cases l with
    | arr ys => rw [same, canon_arr, canon_arr, Json.arr.injEq, sameEach_iff hj hl hfj hfl]
    | num b => simp [same, canon_arr, canon_num, show b.isFinite = true from hfl]
    | _ => simp [same, canon_null, canon_bool, canon_str, canon_arr, canon_obj]
  | .obj fs, l, hj, hl, hfj, hfl => by
    cases l with
    | obj gs =>
      rw [distinct, Bool.and_eq_true, decide_eq_true_eq] at hj hl
      have hnames : ((Members.mapValues canon fs).map Prod.fst).Nodup := by
        rw [Members.mapValues_names]
        exact hj.1
      rw [same, Bool.and_eq_true, beq_iff_eq, sameMembers_iff, canon_obj, canon_obj, Json.obj.injEq,
        Members.sortByName_eq_iff hnames, perm_iff hj.1 hl.1]
      exact and_congr_right fun _ => forall₂_congr (same_members hj.2 hfj hl.2 hfl)
    | num b => simp [same, canon_obj, canon_num, show b.isFinite = true from hfl]
    | _ => simp [same, canon_null, canon_bool, canon_str, canon_arr, canon_obj]

theorem sameEach_iff : ∀ {xs ys : List Json}, distinctEach xs = true → distinctEach ys = true →
    finiteEach xs = true → finiteEach ys = true →
    (sameEach xs ys = true ↔ xs.map canon = ys.map canon)
  | [], ys, _, _, _, _ => by cases ys <;> simp [sameEach]
  | x :: xs, [], _, _, _, _ => by simp [sameEach]
  | x :: xs, y :: ys, hxs, hys, hfx, hfy => by
    rw [distinctEach, Bool.and_eq_true] at hxs hys
    rw [finiteEach, Bool.and_eq_true] at hfx hfy
    rw [sameEach, Bool.and_eq_true, same_iff hxs.1 hys.1 hfx.1 hfy.1,
      sameEach_iff hxs.2 hys.2 hfx.2 hfy.2, List.map_cons, List.map_cons, List.cons.injEq]

/-- Of members that are there, the same ones have the same canonical document. -/
theorem same_members : ∀ {fs : List (JsString × Json)}, distinctMembers fs = true →
    finiteMembers fs = true → ∀ {gs : List (JsString × Json)}, distinctMembers gs = true →
    finiteMembers gs = true → ∀ p ∈ fs,
    ((∃ y, gs.lookup p.1 = some y ∧ same p.2 y = true) ↔
      ∃ y, gs.lookup p.1 = some y ∧ p.2.canon = y.canon)
  | [], _, _, _, _, _, p, hp => by cases hp
  | (k, x) :: fs, hfs, hff, gs, hgs, hfg, p, hp => by
    rw [distinctMembers, Bool.and_eq_true] at hfs
    rw [finiteMembers, Bool.and_eq_true] at hff
    rcases List.mem_cons.mp hp with rfl | hp
    · refine exists_congr fun y => and_congr_right fun hy => ?_
      have hmem := Members.mem_of_lookup hy
      exact same_iff hfs.1 (distinctMembers_iff.mp hgs _ hmem) hff.1 (finiteMembers_iff.mp hfg _ hmem)
    · exact same_members hfs.2 hff.2 hgs hfg p hp

end

/-! ## Numbers that are too large -/

mutual

/-- What is the same as a document of finite numbers is one. -/
theorem finite_of_same : ∀ {j l : Json}, same j l = true → l.finite = true → j.finite = true
  | .null, _, _, _ => rfl
  | .bool _, _, _, _ => rfl
  | .str _, _, _, _ => rfl
  | .num a, l, h, hl => by
    cases l with
    | num b =>
      rw [same, beq_iff_eq] at h
      have hmerge : ∀ n : JsNumber, n.merge.isFinite = n.isFinite := fun n => by cases n <;> rfl
      show a.isFinite = true
      rw [← hmerge a, h, hmerge b]
      exact hl
    | _ => cases h
  | .arr xs, l, h, hl => by
    cases l with
    | arr ys => exact finiteEach_of_same h hl
    | _ => cases h
  | .obj fs, l, h, hl => by
    cases l with
    | obj gs =>
      rw [same, Bool.and_eq_true] at h
      exact finiteMembers_of_same h.2 hl
    | _ => cases h

theorem finiteEach_of_same : ∀ {xs ys : List Json}, sameEach xs ys = true →
    finiteEach ys = true → finiteEach xs = true
  | [], _, _, _ => rfl
  | x :: xs, [], h, _ => by cases h
  | x :: xs, y :: ys, h, hy => by
    rw [sameEach, Bool.and_eq_true] at h
    rw [finiteEach, Bool.and_eq_true] at hy ⊢
    exact ⟨finite_of_same h.1 hy.1, finiteEach_of_same h.2 hy.2⟩

theorem finiteMembers_of_same : ∀ {fs gs : List (JsString × Json)}, sameMembers fs gs = true →
    finiteMembers gs = true → finiteMembers fs = true
  | [], _, _, _ => rfl
  | (k, x) :: fs, gs, h, hg => by
    rw [sameMembers, Bool.and_eq_true] at h
    rw [finiteMembers, Bool.and_eq_true]
    refine ⟨?_, finiteMembers_of_same h.2 hg⟩
    have hfirst := h.1
    split at hfirst
    · rename_i y hy
      exact finite_of_same hfirst (finiteMembers_iff.mp hg _ (Members.mem_of_lookup hy))
    · cases hfirst

end

mutual

theorem settle_finite : ∀ j : Json, j.settle.finite = true
  | .null => rfl
  | .bool _ => rfl
  | .str _ => rfl
  | .num n => by cases n <;> rfl
  | .arr xs => settleEach_finite xs
  | .obj fs => settleMembers_finite fs

theorem settleEach_finite : ∀ xs : List Json, finiteEach (settleEach xs) = true
  | [] => rfl
  | x :: xs => by
    rw [settleEach, finiteEach, Bool.and_eq_true]
    exact ⟨settle_finite x, settleEach_finite xs⟩

theorem settleMembers_finite : ∀ fs : List (JsString × Json), finiteMembers (settleMembers fs) = true
  | [] => rfl
  | (k, v) :: fs => by
    rw [settleMembers, finiteMembers, Bool.and_eq_true]
    exact ⟨settle_finite v, settleMembers_finite fs⟩

end

/-- A document is the same as one that was read when it has its canonical document and no
number that is too large. -/
theorem same_settle_iff {j l : Json} (hj : j.distinct = true) (hl : l.settle.distinct = true) :
    same j l.settle = true ↔ j.finite = true ∧ j.canon = l.settle.canon := by
  constructor
  · intro h
    have hfinite := finite_of_same h (settle_finite l)
    exact ⟨hfinite, (same_iff hj hl hfinite (settle_finite l)).mp h⟩
  · rintro ⟨hfinite, hcanon⟩
    exact (same_iff hj hl hfinite (settle_finite l)).mpr hcanon

end Json
end Js

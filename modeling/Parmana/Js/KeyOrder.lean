import Parmana.Js.Sameness

/-! # The order keys are listed in

`Object.keys` lists the keys that are array indices first, by number, and the
others after them as they were written.  A document whose keys are sorted is
therefore written in another order as soon as one of its objects has two keys
that the sort and the listing order differently (`10` before `9`, or any key
before an index).  `keysAgree` is the condition that no object has; under it, and
only under it, listing leaves a sorted document as it stands.
-/
namespace Js

/-- Whether JavaScript lists `k` before `l`, when both are keys of an object that
were written in that order. -/
def listedBefore (k l : JsString) : Bool :=
  match k.arrayIndex?, l.arrayIndex? with
  | _, none => true
  | none, some _ => false
  | some i, some j => i ≤ j

/-- Whether JavaScript lists the keys in their sorted order: of any two of them,
the first is an array index whenever the second is one, and the smaller one. -/
def listedSorted (names : List JsString) : Bool :=
  names.all fun k => names.all fun l => !k.lt l || listedBefore k l

theorem listedBefore_refl (k : JsString) : listedBefore k k = true := by
  unfold listedBefore
  cases k.arrayIndex? <;> simp

/-- The order of `Object.keys` lists keys one before another. -/
theorem orderedNames_pairwise (names : List JsString) :
    (orderedNames names).Pairwise (fun k l => listedBefore k l = true) := by
  unfold orderedNames
  rw [List.pairwise_append]
  have hindices : ∀ k ∈ (names.filter (fun k => k.arrayIndex?.isSome)).insertionSort
      (fun k l => k.arrayIndex?.getD 0 ≤ l.arrayIndex?.getD 0), ∃ i, k.arrayIndex? = some i := by
    intro k hk
    rw [List.mem_insertionSort, List.mem_filter] at hk
    exact Option.isSome_iff_exists.mp hk.2
  have hothers : ∀ k ∈ names.filter (fun k => k.arrayIndex?.isNone), k.arrayIndex? = none := by
    intro k hk
    exact Option.isNone_iff_eq_none.mp (List.mem_filter.mp hk).2
  refine ⟨?_, ?_, ?_⟩
  · have : Std.Total (fun k l : JsString => k.arrayIndex?.getD 0 ≤ l.arrayIndex?.getD 0) :=
      ⟨fun k l => Nat.le_total _ _⟩
    have : IsTrans JsString (fun k l => k.arrayIndex?.getD 0 ≤ l.arrayIndex?.getD 0) :=
      ⟨fun _ _ _ h h' => Nat.le_trans h h'⟩
    refine (List.pairwise_insertionSort _ _).imp_of_mem ?_
    intro k l hk hl hkl
    obtain ⟨i, hi⟩ := hindices k hk
    obtain ⟨j, hj⟩ := hindices l hl
    rw [hi, hj] at hkl
    simpa [listedBefore, hi, hj] using hkl
  · refine List.pairwise_iff_getElem.mpr fun i j hi hj hij => ?_
    unfold listedBefore
    rw [hothers _ (List.getElem_mem hj)]
  · intro k hk l hl
    unfold listedBefore
    rw [hothers l hl]

/-- Keys that stand in the order of `Object.keys` are left where they are. -/
theorem orderedNames_of_pairwise {names : List JsString}
    (h : names.Pairwise (fun k l => listedBefore k l = true)) : orderedNames names = names := by
  have hsorted : (names.filter (fun k => k.arrayIndex?.isSome)).Pairwise
      (fun k l => k.arrayIndex?.getD 0 ≤ l.arrayIndex?.getD 0) := by
    refine (h.filter _).imp_of_mem ?_
    intro k l hk hl hkl
    obtain ⟨i, hi⟩ := Option.isSome_iff_exists.mp (List.mem_filter.mp hk).2
    obtain ⟨j, hj⟩ := Option.isSome_iff_exists.mp (List.mem_filter.mp hl).2
    simpa [listedBefore, hi, hj] using hkl
  unfold orderedNames
  rw [hsorted.insertionSort_eq]
  clear hsorted
  induction names with
  | nil => rfl
  | cons k names ih =>
    rw [List.pairwise_cons] at h
    cases hk : k.arrayIndex? with
    | some i =>
      rw [List.filter_cons_of_pos (by rw [hk]; rfl), List.filter_cons_of_neg (by simp [hk]),
        List.cons_append, ih h.2]
    | none =>
      -- behind a key that is no array index there is none
      have hall : ∀ l ∈ names, l.arrayIndex? = none := by
        intro l hl
        have hbefore := h.1 l hl
        unfold listedBefore at hbefore
        rw [hk] at hbefore
        cases hl' : l.arrayIndex? with
        | none => rfl
        | some j =>
          rw [hl'] at hbefore
          cases hbefore
      rw [List.filter_cons_of_neg (by rw [hk]; decide), List.filter_cons_of_pos (by rw [hk]; rfl),
        List.filter_eq_nil_iff.mpr (fun l hl => by rw [hall l hl]; decide),
        List.filter_eq_self.mpr (fun l hl => by rw [hall l hl]; rfl), List.nil_append]

theorem lt_iff {k l : JsString} : k.lt l = true ↔ ¬ l.le k = true := by
  simp [JsString.le]

/-- **Two keys decide**: sorted keys stand in the order of `Object.keys` exactly
when any two of them do. -/
theorem orderedNames_sorted_iff {names sorted : List JsString} (hperm : sorted.Perm names)
    (hnodup : names.Nodup) (hsorted : sorted.Pairwise (fun k l => k.le l = true)) :
    orderedNames sorted = sorted ↔ listedSorted names = true := by
  have hmem : ∀ k, k ∈ sorted ↔ k ∈ names := fun k => hperm.mem_iff
  have hlisted : listedSorted names = true ↔
      ∀ k ∈ sorted, ∀ l ∈ sorted, k.lt l = true → listedBefore k l = true := by
    unfold listedSorted
    rw [List.all_eq_true]
    simp only [List.all_eq_true, Bool.or_eq_true, Bool.not_eq_true', hmem]
    refine forall₂_congr fun k _ => forall₂_congr fun l _ => ?_
    cases k.lt l <;> simp
  rw [hlisted]
  constructor
  · intro h
    have hbefore : sorted.Pairwise (fun k l => listedBefore k l = true) :=
      h ▸ orderedNames_pairwise sorted
    have hboth : sorted.Pairwise (fun k l =>
        (k.lt l = true → listedBefore k l = true) ∧ (l.lt k = true → listedBefore l k = true)) := by
      refine (hbefore.and hsorted).imp ?_
      rintro k l ⟨hkl, hle⟩
      exact ⟨fun _ => hkl, fun hlt => absurd hle (lt_iff.mp hlt)⟩
    intro k hk l hl hlt
    have : Std.Symm (fun k l : JsString => (k.lt l = true → listedBefore k l = true) ∧
        (l.lt k = true → listedBefore l k = true)) := ⟨fun _ _ hs => ⟨hs.2, hs.1⟩⟩
    exact (hboth.forall_of_forall
      (fun k _ => ⟨fun _ => listedBefore_refl k, fun _ => listedBefore_refl k⟩) hk hl).1 hlt
  · intro h
    refine orderedNames_of_pairwise ((hsorted.and (hperm.nodup_iff.mpr hnodup)).imp_of_mem ?_)
    rintro k l hk hl ⟨hle, hne⟩
    exact h k hk l hl (lt_iff.mpr fun hle' => hne (JsString.le_antisymm hle hle'))

namespace Json

mutual

/-- Whether JavaScript lists the keys of every object, at every depth, in their
sorted order. -/
def keysAgree : Json → Bool
  | .arr xs => keysAgreeEach xs
  | .obj fs => listedSorted (fs.map Prod.fst) && keysAgreeMembers fs
  | _ => true

def keysAgreeEach : List Json → Bool
  | [] => true
  | x :: xs => x.keysAgree && keysAgreeEach xs

def keysAgreeMembers : List (JsString × Json) → Bool
  | [] => true
  | (_, v) :: fs => v.keysAgree && keysAgreeMembers fs

end

/-- The members of an object stay where they are when its names do and the values
do. -/
theorem ordered_obj_iff {fs : List (JsString × Json)} (h : (fs.map Prod.fst).Nodup) :
    (Json.obj fs).ordered = .obj fs ↔
      orderedNames (fs.map Prod.fst) = fs.map Prod.fst ∧ ∀ p ∈ fs, p.2.ordered = p.2 := by
  have hnames : ((Members.mapValues ordered fs).map Prod.fst).Nodup := by
    rwa [Members.mapValues_names]
  rw [ordered, orderedMembers_eq, Json.obj.injEq]
  constructor
  · intro he
    have horder : orderedNames (fs.map Prod.fst) = fs.map Prod.fst := by
      rw [← Members.mapValues_names ordered fs, ← Members.enumerate_names, he,
        Members.mapValues_names]
    have hself : Members.mapValues ordered fs = fs := by
      rw [← (Members.enumerate_eq_self hnames).mpr (by rw [Members.mapValues_names, horder]), he]
    refine ⟨horder, fun p hp => ?_⟩
    have hmap : fs.map (fun p => (p.1, p.2.ordered)) = fs.map id := by
      rw [List.map_id]
      exact hself
    exact congrArg Prod.snd (List.map_inj_left.mp hmap p hp)
  · rintro ⟨horder, hvalues⟩
    rw [(Members.enumerate_eq_self hnames).mpr (by rw [Members.mapValues_names, horder])]
    have hmap : fs.map (fun p => (p.1, p.2.ordered)) = fs.map id :=
      List.map_congr_left fun p hp => Prod.ext rfl (hvalues p hp)
    exact hmap.trans (List.map_id fs)

mutual

/-- **A sorted document is listed as it stands exactly when its keys agree.** -/
theorem ordered_sortKeys_iff : ∀ {j : Json}, j.distinct = true →
    (j.sortKeys.ordered = j.sortKeys ↔ j.keysAgree = true)
  | .null, _ => by simp [sortKeys, ordered, keysAgree]
  | .bool _, _ => by simp [sortKeys, ordered, keysAgree]
  | .num _, _ => by simp [sortKeys, ordered, keysAgree]
  | .str _, _ => by simp [sortKeys, ordered, keysAgree]
  | .arr xs, h => by
    rw [distinct] at h
    rw [sortKeys, ordered, keysAgree, Json.arr.injEq, orderedEach_sortKeys_iff h]
  | .obj fs, h => by
    rw [distinct, Bool.and_eq_true, decide_eq_true_eq] at h
    have hnames : ((sortKeysMembers fs).map Prod.fst).Nodup := by
      rw [sortKeysMembers_eq, Members.mapValues_names]
      exact h.1
    have hperm := Members.sortByName_perm (sortKeysMembers fs)
    have hfst : (sortKeysMembers fs).map Prod.fst = fs.map Prod.fst := by
      rw [sortKeysMembers_eq, Members.mapValues_names]
    rw [sortKeys, ordered_obj_iff (Members.sortByName_nodup hnames), keysAgree, Bool.and_eq_true,
      ← orderedMembers_sortKeys_iff h.2]
    refine and_congr ?_ (forall_congr' fun p => imp_congr hperm.mem_iff Iff.rfl)
    rw [← hfst]
    exact orderedNames_sorted_iff (hperm.map Prod.fst) hnames
      (List.pairwise_map.mpr (Members.sortByName_sorted _))

theorem orderedEach_sortKeys_iff : ∀ {xs : List Json}, distinctEach xs = true →
    (orderedEach (sortKeysEach xs) = sortKeysEach xs ↔ keysAgreeEach xs = true)
  | [], _ => by simp [sortKeysEach, orderedEach, keysAgreeEach]
  | x :: xs, h => by
    rw [distinctEach, Bool.and_eq_true] at h
    rw [sortKeysEach, orderedEach, keysAgreeEach, List.cons.injEq, Bool.and_eq_true,
      ordered_sortKeys_iff h.1, orderedEach_sortKeys_iff h.2]

theorem orderedMembers_sortKeys_iff : ∀ {fs : List (JsString × Json)}, distinctMembers fs = true →
    ((∀ p ∈ sortKeysMembers fs, p.2.ordered = p.2) ↔ keysAgreeMembers fs = true)
  | [], _ => by simp [sortKeysMembers, keysAgreeMembers]
  | (k, v) :: fs, h => by
    rw [distinctMembers, Bool.and_eq_true] at h
    rw [sortKeysMembers, List.forall_mem_cons, keysAgreeMembers, Bool.and_eq_true,
      ordered_sortKeys_iff h.1, orderedMembers_sortKeys_iff h.2]

end

end Json
end Js

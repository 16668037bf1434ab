import Parmana.Js.Stringify

/-! # Members in an order

Two orders of the members of an object: by name, in code units, as
`Object.keys(object).sort()` lists them, and the order of `Object.keys` itself,
which puts array indices first.  Both only rearrange members of distinct names,
so sorting by name forgets any order they stood in before.  Object literals define one
member after the other, and what is spread into one takes the place of what stands before it.
-/
namespace Js

namespace JsString

theorem le_iff {s t : JsString} : s.le t = true ↔ s.units ≤ t.units := by
  unfold le lt
  rw [Bool.not_eq_true', decide_eq_false_iff_not]
  exact Iff.rfl

theorem le_antisymm {s t : JsString} (h : s.le t = true) (h' : t.le s = true) : s = t := by
  rw [le_iff] at h h'
  cases s
  cases t
  exact congrArg JsString.mk (List.le_antisymm h h')

theorem le_total (s t : JsString) : s.le t = true ∨ t.le s = true := by
  rw [le_iff, le_iff]
  exact List.le_total s.units t.units

theorem le_trans {s t r : JsString} (h : s.le t = true) (h' : t.le r = true) : s.le r = true := by
  rw [le_iff] at h h' ⊢
  exact List.le_trans h h'

end JsString

namespace Members

variable {α β : Type}

/-- The members sorted by name. -/
def sortByName (fs : List (JsString × β)) : List (JsString × β) :=
  fs.insertionSort (fun p q => p.1.le q.1)

/-- The members in the order of `Object.keys`. -/
def enumerate (fs : List (JsString × β)) : List (JsString × β) :=
  (orderedNames (fs.map Prod.fst)).filterMap fun k => (fs.lookup k).map fun v => (k, v)

/-- A change of the values. -/
def mapValues (f : α → β) (fs : List (JsString × α)) : List (JsString × β) :=
  fs.map fun p => (p.1, f p.2)

/-- The members whose value `f` keeps, with what it makes of it. -/
def filterValues (f : α → Option β) (fs : List (JsString × α)) : List (JsString × β) :=
  fs.filterMap fun p => (f p.2).map fun v => (p.1, v)

@[simp] theorem mapValues_names (f : α → β) (fs : List (JsString × α)) :
    (mapValues f fs).map Prod.fst = fs.map Prod.fst := by
  rw [mapValues, List.map_map]
  rfl

theorem mapValues_mapValues {γ : Type} (f : α → β) (g : β → γ) (fs : List (JsString × α)) :
    mapValues g (mapValues f fs) = mapValues (g ∘ f) fs := by
  unfold mapValues
  rw [List.map_map]
  rfl

/-! ## Sorting by name -/

theorem sortByName_perm (fs : List (JsString × β)) : (sortByName fs).Perm fs :=
  List.perm_insertionSort _ fs

theorem sortByName_sorted (fs : List (JsString × β)) :
    (sortByName fs).Pairwise (fun p q => p.1.le q.1 = true) := by
  have : Std.Total (fun p q : JsString × β => p.1.le q.1 = true) :=
    ⟨fun p q => JsString.le_total p.1 q.1⟩
  have : IsTrans (JsString × β) (fun p q => p.1.le q.1 = true) :=
    ⟨fun _ _ _ h h' => JsString.le_trans h h'⟩
  exact List.pairwise_insertionSort _ fs

/-- A value stands under one name only. -/
theorem eq_of_name {fs : List (JsString × β)} (h : (fs.map Prod.fst).Nodup) {p q : JsString × β}
    (hp : p ∈ fs) (hq : q ∈ fs) (hname : p.1 = q.1) : p = q :=
  List.inj_on_of_nodup_map h hp hq hname

/-- **Sorting by name forgets the order.** -/
theorem sortByName_congr {fs gs : List (JsString × β)} (h : (fs.map Prod.fst).Nodup)
    (hperm : fs.Perm gs) : sortByName fs = sortByName gs := by
  refine List.Perm.eq_of_pairwise ?_ (sortByName_sorted fs) (sortByName_sorted gs)
    (((sortByName_perm fs).trans hperm).trans (sortByName_perm gs).symm)
  intro p q hp hq hpq hqp
  exact eq_of_name h ((sortByName_perm fs).mem_iff.mp hp)
    (hperm.mem_iff.mpr ((sortByName_perm gs).mem_iff.mp hq)) (JsString.le_antisymm hpq hqp)

theorem sortByName_eq_iff {fs gs : List (JsString × β)} (hf : (fs.map Prod.fst).Nodup) :
    sortByName fs = sortByName gs ↔ fs.Perm gs := by
  constructor
  · intro h
    exact ((sortByName_perm fs).symm.trans (List.Perm.of_eq h)).trans
      (sortByName_perm gs)
  · exact sortByName_congr hf

theorem sortByName_mapValues (f : α → β) (fs : List (JsString × α)) :
    sortByName (mapValues f fs) = mapValues f (sortByName fs) :=
  (List.map_insertionSort _ _ (fun p : JsString × α => (p.1, f p.2)) fs
    (fun _ _ _ _ => Iff.rfl)).symm

theorem sortByName_nodup {fs : List (JsString × β)} (h : (fs.map Prod.fst).Nodup) :
    ((sortByName fs).map Prod.fst).Nodup :=
  (((sortByName_perm fs).map Prod.fst).nodup_iff).mpr h

theorem mem_filterValues {f : α → Option β} {fs : List (JsString × α)} {q : JsString × β} :
    q ∈ filterValues f fs ↔ ∃ v, (q.1, v) ∈ fs ∧ f v = some q.2 := by
  unfold filterValues
  rw [List.mem_filterMap]
  constructor
  · rintro ⟨⟨k, v⟩, hp, he⟩
    obtain ⟨w, hw, rfl⟩ := Option.map_eq_some_iff.mp he
    exact ⟨v, hp, hw⟩
  · rintro ⟨v, hv, hw⟩
    exact ⟨(q.1, v), hv, by rw [hw]; rfl⟩

theorem filterValues_sublist (f : α → Option β) (fs : List (JsString × α)) :
    ((filterValues f fs).map Prod.fst).Sublist (fs.map Prod.fst) := by
  induction fs with
  | nil => exact List.Sublist.refl []
  | cons p fs ih =>
    unfold filterValues at ih ⊢
    rw [List.filterMap_cons, List.map_cons]
    cases f p.2 with
    | none => exact ih.cons p.1
    | some v => exact ih.cons_cons p.1

theorem filterValues_nodup {f : α → Option β} {fs : List (JsString × α)}
    (h : (fs.map Prod.fst).Nodup) : ((filterValues f fs).map Prod.fst).Nodup :=
  h.sublist (filterValues_sublist f fs)

/-- Leaving members out and sorting the rest is sorting first. -/
theorem sortByName_filterValues (f : α → Option β) {fs : List (JsString × α)}
    (h : (fs.map Prod.fst).Nodup) :
    sortByName (filterValues f fs) = filterValues f (sortByName fs) := by
  refine List.Perm.eq_of_pairwise ?_ (sortByName_sorted _) ?_ ((sortByName_perm _).trans
    ((sortByName_perm fs).symm.filterMap _))
  · intro p q hp hq hpq hqp
    have hq' : q ∈ filterValues f fs :=
      ((sortByName_perm fs).filterMap (fun p => (f p.2).map fun v => (p.1, v))).mem_iff.mp hq
    exact eq_of_name (filterValues_nodup h) ((sortByName_perm _).mem_iff.mp hp) hq'
      (JsString.le_antisymm hpq hqp)
  · unfold filterValues
    refine (sortByName_sorted fs).filterMap _ ?_
    intro p q hpq p' hp' q' hq'
    obtain ⟨v, -, rfl⟩ := Option.map_eq_some_iff.mp hp'
    obtain ⟨w, -, rfl⟩ := Option.map_eq_some_iff.mp hq'
    exact hpq

/-! ## The order of `Object.keys` -/

theorem orderedNames_perm (names : List JsString) : (orderedNames names).Perm names := by
  unfold orderedNames
  refine ((List.perm_insertionSort _ _).append_right _).trans ?_
  have hsplit := List.filter_append_perm (fun k : JsString => k.arrayIndex?.isSome) names
  simpa using hsplit

theorem lookup_mapValues (f : α → β) (fs : List (JsString × α)) (k : JsString) :
    (mapValues f fs).lookup k = (fs.lookup k).map f := by
  induction fs with
  | nil => rfl
  | cons p fs ih =>
    obtain ⟨l, w⟩ := p
    simp only [mapValues, List.map_cons, List.lookup_cons] at ih ⊢
    by_cases h : k == l
    · simp [h]
    · simp [h, ih]

theorem lookup_of_mem {fs : List (JsString × β)} (h : (fs.map Prod.fst).Nodup) {p : JsString × β}
    (hp : p ∈ fs) : fs.lookup p.1 = some p.2 := by
  induction fs with
  | nil => cases hp
  | cons q fs ih =>
    rw [List.map_cons, List.nodup_cons] at h
    rw [List.lookup_cons]
    rcases List.mem_cons.mp hp with rfl | hp
    · simp
    · have hne : p.1 ≠ q.1 := fun he => h.1 (he ▸ List.mem_map_of_mem hp)
      simp only [beq_eq_false_iff_ne.mpr hne]
      exact ih h.2 hp

theorem mem_of_lookup {fs : List (JsString × β)} {k : JsString} {v : β}
    (h : fs.lookup k = some v) : (k, v) ∈ fs := by
  induction fs with
  | nil => cases h
  | cons q fs ih =>
    obtain ⟨l, w⟩ := q
    rw [List.lookup_cons] at h
    by_cases hk : k = l
    · subst hk
      simp only [BEq.rfl, Option.some.injEq] at h
      exact h ▸ List.mem_cons_self
    · simp only [beq_eq_false_iff_ne.mpr hk] at h
      exact List.mem_cons_of_mem _ (ih h)

theorem lookup_eq_some {fs : List (JsString × β)} (h : (fs.map Prod.fst).Nodup) {k : JsString}
    {v : β} : fs.lookup k = some v ↔ (k, v) ∈ fs :=
  ⟨mem_of_lookup, lookup_of_mem h⟩

theorem lookup_filterValues (f : α → Option β) {fs : List (JsString × α)}
    (h : (fs.map Prod.fst).Nodup) (k : JsString) :
    (filterValues f fs).lookup k = (fs.lookup k).bind f := by
  ext v
  rw [lookup_eq_some (filterValues_nodup h), mem_filterValues, Option.bind_eq_some_iff]
  exact exists_congr fun w => and_congr_left fun _ => (lookup_eq_some h).symm

theorem enumerate_mapValues (f : α → β) (fs : List (JsString × α)) :
    enumerate (mapValues f fs) = mapValues f (enumerate fs) := by
  unfold enumerate
  rw [mapValues_names]
  conv_rhs => rw [mapValues, List.map_filterMap]
  simp only [lookup_mapValues, Option.map_map]
  rfl

theorem filterMap_lookup {fs : List (JsString × β)} (h : (fs.map Prod.fst).Nodup) :
    (fs.map Prod.fst).filterMap (fun k => (fs.lookup k).map fun v => (k, v)) = fs := by
  rw [List.filterMap_map]
  conv_rhs => rw [← List.filterMap_some (l := fs)]
  refine List.filterMap_congr fun p hp => ?_
  simp [lookup_of_mem h hp]

/-- **The order of `Object.keys` rearranges members of distinct names.** -/
theorem enumerate_perm {fs : List (JsString × β)} (h : (fs.map Prod.fst).Nodup) :
    (enumerate fs).Perm fs :=
  ((orderedNames_perm _).filterMap _).trans (List.Perm.of_eq (filterMap_lookup h))

theorem enumerate_names (fs : List (JsString × β)) :
    (enumerate fs).map Prod.fst = orderedNames (fs.map Prod.fst) := by
  have hfound : ∀ k ∈ orderedNames (fs.map Prod.fst), (fs.lookup k).isSome = true := by
    intro k hk
    obtain ⟨p, hp, rfl⟩ := List.mem_map.mp ((orderedNames_perm _).mem_iff.mp hk)
    exact List.lookup_isSome_iff.mpr ⟨p, hp, BEq.rfl⟩
  unfold enumerate
  generalize orderedNames (fs.map Prod.fst) = names at hfound ⊢
  induction names with
  | nil => rfl
  | cons k names ih =>
    obtain ⟨v, hv⟩ := Option.isSome_iff_exists.mp (hfound k List.mem_cons_self)
    rw [List.filterMap_cons, hv, Option.map_some, List.map_cons,
      ih fun l hl => hfound l (List.mem_cons_of_mem k hl)]

/-- Members stay where they are when their names do. -/
theorem enumerate_eq_self {fs : List (JsString × β)} (h : (fs.map Prod.fst).Nodup) :
    enumerate fs = fs ↔ orderedNames (fs.map Prod.fst) = fs.map Prod.fst := by
  constructor
  · intro he
    rw [← enumerate_names, he]
  · intro he
    unfold enumerate
    rw [he, filterMap_lookup h]

theorem enumerate_nodup {fs : List (JsString × β)} (h : (fs.map Prod.fst).Nodup) :
    ((enumerate fs).map Prod.fst).Nodup :=
  (((enumerate_perm h).map Prod.fst).nodup_iff).mpr h

theorem memberList_eq (texts : List (JsString × JsString)) :
    memberList texts =
      JsString.join "," ((enumerate texts).map fun p => p.1.quote ++ ":" ++ p.2) := by
  unfold memberList enumerate
  rw [List.map_filterMap]
  simp only [Option.map_map]
  rfl

/-! ## Object literals -/

/-- What an object literal does with a member: one of that name keeps its place. -/
def define (fs : List (JsString × β)) (k : JsString) (v : β) : List (JsString × β) :=
  if k ∈ fs.map Prod.fst then fs.map fun p => if p.1 = k then (k, v) else p else fs ++ [(k, v)]

/-- The members of `gs` defined over those of `fs`, as in `{ ...fs, ...gs }`. -/
def spread (fs gs : List (JsString × β)) : List (JsString × β) :=
  gs.foldl (fun fs p => define fs p.1 p.2) fs

theorem lookup_cons_self (fs : List (JsString × β)) (k : JsString) (v : β) :
    List.lookup k ((k, v) :: fs) = some v := by
  rw [List.lookup_cons, BEq.rfl]

theorem lookup_cons_ne {k l : JsString} (h : l ≠ k) (fs : List (JsString × β)) (v : β) :
    List.lookup l ((k, v) :: fs) = fs.lookup l := by
  rw [List.lookup_cons, beq_false_of_ne h]

theorem lookup_replace {fs : List (JsString × β)} {k : JsString} (h : k ∈ fs.map Prod.fst)
    (l : JsString) (v : β) : (fs.map fun p => if p.1 = k then (k, v) else p).lookup l =
      if l = k then some v else fs.lookup l := by
  induction fs with
  | nil => cases h
  | cons p fs ih =>
    obtain ⟨name, w⟩ := p
    rw [List.map_cons]
    by_cases hname : name = k
    · subst hname
      rw [if_pos rfl]
      by_cases hl : l = name
      · rw [if_pos hl, hl, lookup_cons_self]
      · rw [if_neg hl, lookup_cons_ne hl, lookup_cons_ne hl]
        by_cases hmem : name ∈ fs.map Prod.fst
        · rw [ih hmem, if_neg hl]
        · congr 1
          refine (List.map_congr_left fun p hp => if_neg fun heq => hmem ?_).trans (List.map_id' _)
          exact heq ▸ List.mem_map_of_mem hp
    · have hmem : k ∈ fs.map Prod.fst := (List.mem_cons.mp h).resolve_left fun heq => hname heq.symm
      rw [if_neg hname]
      by_cases hl : l = name
      · rw [hl, if_neg hname, lookup_cons_self, lookup_cons_self]
      · rw [lookup_cons_ne hl, lookup_cons_ne hl, ih hmem]

theorem lookup_eq_none {fs : List (JsString × β)} {k : JsString} (h : k ∉ fs.map Prod.fst) :
    fs.lookup k = none := by
  cases hfound : fs.lookup k with
  | none => rfl
  | some v => exact absurd (List.mem_map_of_mem (mem_of_lookup hfound)) h

theorem lookup_define (fs : List (JsString × β)) (k l : JsString) (v : β) :
    (define fs k v).lookup l = if l = k then some v else fs.lookup l := by
  unfold define
  by_cases hmem : k ∈ fs.map Prod.fst
  · rw [if_pos hmem, lookup_replace hmem]
  · rw [if_neg hmem, List.lookup_append]
    by_cases hl : l = k
    · rw [hl, if_pos rfl, lookup_eq_none hmem, lookup_cons_self]
      rfl
    · rw [if_neg hl, lookup_cons_ne hl]
      exact Option.or_none

/-- A member of the result is the one that was spread, if there is one of that name. -/
theorem lookup_spread {gs : List (JsString × β)} (h : ∀ p ∈ gs, ∀ q ∈ gs, p.1 = q.1 → p.2 = q.2)
    (fs : List (JsString × β)) (l : JsString) :
    (spread fs gs).lookup l = (gs.lookup l).or (fs.lookup l) := by
  induction gs generalizing fs with
  | nil => rfl
  | cons p gs ih =>
    obtain ⟨name, w⟩ := p
    have hrest : ∀ p ∈ gs, ∀ q ∈ gs, p.1 = q.1 → p.2 = q.2 := fun p hp q hq =>
      h p (List.mem_cons_of_mem _ hp) q (List.mem_cons_of_mem _ hq)
    show (spread (define fs name w) gs).lookup l = _
    rw [ih hrest, lookup_define]
    by_cases hl : l = name
    · rw [hl, if_pos rfl, lookup_cons_self]
      cases hfound : gs.lookup name with
      | none => rfl
      | some v =>
        exact congrArg some (h _ (List.mem_cons_of_mem _ (mem_of_lookup hfound)) _
          (List.mem_cons_self ..) rfl)
    · rw [if_neg hl, lookup_cons_ne hl]

theorem lookup_spread_of_not_mem {gs : List (JsString × β)} {l : JsString}
    (h : l ∉ gs.map Prod.fst) (fs : List (JsString × β)) :
    (spread fs gs).lookup l = fs.lookup l := by
  induction gs generalizing fs with
  | nil => rfl
  | cons p gs ih =>
    rw [List.map_cons, List.mem_cons, not_or] at h
    show (spread (define fs p.1 p.2) gs).lookup l = _
    rw [ih h.2, lookup_define, if_neg h.1]

theorem lookup_entries (fs : Fields) (k : JsString) :
    (Fields.entries fs).lookup k = Fields.own? fs k := by
  cases hfound : (Fields.entries fs).lookup k with
  | some v => exact (Fields.mem_entries.mp (mem_of_lookup hfound)).symm
  | none =>
    cases hown : Fields.own? fs k with
    | none => rfl
    | some v =>
      have hmem := List.mem_map_of_mem (f := Prod.fst) (Fields.mem_entries.mpr hown)
      rw [List.lookup_eq_none_iff] at hfound
      have hne := hfound _ (Fields.mem_entries.mpr hown)
      simp at hne

theorem own?_spread_entries (fs gs : Fields) (k : JsString) :
    Fields.own? (spread fs (Fields.entries gs)) k =
      (Fields.own? gs k).or (Fields.own? fs k) := by
  rw [← lookup_entries gs k]
  refine lookup_spread (fun p hp q hq heq => ?_) fs k
  have hp' := Fields.mem_entries.mp hp
  rw [heq, Fields.mem_entries.mp hq] at hp'
  exact (Option.some.inj hp').symm

end Members
end Js

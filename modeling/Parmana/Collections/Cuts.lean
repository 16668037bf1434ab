import Mathlib.Data.List.Basic

/-! # Cutting a list into fields

Texts that are joined with a separator and not escaped can be read back in as many ways as
the list of the pieces between separators can be cut into consecutive fields.  Here a list
is cut at a mark, and what is behind the mark into two fields, or into three of which the
last is one piece.  Which pieces may not be a field by themselves is a parameter (`lone`),
and so is what may stand before the mark (`opens`).

For either form **the exact condition for a cut to be the only one** is given (`onlyCut_iff`,
`onlyCutBefore_iff`): the mark is not found where a beginning could end, and a field of more
than one piece is made of two that could not be fields.
-/
namespace Cuts

variable {β : Type} (lone : β → Prop) (mark : β) (opens : List β → Prop)

/-- A list of pieces that may be a field. -/
def Field (xs : List β) : Prop := xs ≠ [] ∧ ∀ x, xs = [x] → ¬ lone x

variable {lone mark opens}

theorem field_cons_cons {x y : β} {xs : List β} : Field lone (x :: y :: xs) :=
  ⟨List.cons_ne_nil _ _, fun _ h => by simp at h⟩

theorem field_singleton {x : β} : Field lone [x] ↔ ¬ lone x := by
  simp [Field]

theorem field_append {xs ys : List β} (hx : xs ≠ []) (hy : ys ≠ []) : Field lone (xs ++ ys) := by
  obtain ⟨x, xs, rfl⟩ := List.exists_cons_of_ne_nil hx
  obtain ⟨y, ys, rfl⟩ := List.exists_cons_of_ne_nil hy
  cases xs with
  | nil => exact field_cons_cons
  | cons x' xs => exact field_cons_cons

/-- The mark cuts a list only where the beginning is as given, or behind it. -/
theorem cut_mark {B B' R R' : List β} (hB' : opens B')
    (hmark : ∀ a b, B = a ++ mark :: b → ¬ opens a) (h : B' ++ mark :: R' = B ++ mark :: R) :
    (B' = B ∧ R' = R) ∨ ∃ c, B' = B ++ mark :: c ∧ R = c ++ mark :: R' := by
  rcases List.append_eq_append_iff.mp h with ⟨c, hB, hc⟩ | ⟨c, hB, hc⟩
  · cases c with
    | nil =>
      rw [List.append_nil] at hB
      exact .inl ⟨hB.symm, (List.cons.inj hc).2⟩
    | cons x c =>
      obtain ⟨rfl, -⟩ := List.cons.inj hc
      exact absurd hB' (hmark B' c hB)
  · cases c with
    | nil =>
      rw [List.append_nil] at hB
      exact .inl ⟨hB, (List.cons.inj hc).2.symm⟩
    | cons x c =>
      obtain ⟨rfl, hR⟩ := List.cons.inj hc
      exact .inr ⟨c, hB, hR⟩

/-! ## Two fields -/

/-- What a field in front is made of when its cut is the only one. -/
def Front (lone : β → Prop) (xs : List β) : Prop :=
  (∃ x, xs = [x]) ∨ ∃ x y, xs = [x, y] ∧ lone x

/-- What the field behind it is made of. -/
def Back (lone : β → Prop) (xs : List β) : Prop :=
  (∃ x, xs = [x]) ∨ ∃ x y, xs = [x, y] ∧ lone y

theorem fields_eq {O T O' T' : List β} (hO : Front lone O) (hT : Back lone T)
    (hO' : Field lone O') (hT' : Field lone T') (h : O' ++ T' = O ++ T) : O' = O ∧ T' = T := by
  obtain ⟨hO'ne, hO'lone⟩ := hO'
  obtain ⟨hT'ne, hT'lone⟩ := hT'
  rcases hO with ⟨o, rfl⟩ | ⟨o₁, o₂, rfl, ho⟩ <;> rcases hT with ⟨t, rfl⟩ | ⟨t₁, t₂, rfl, ht⟩ <;>
    rcases O' with _ | ⟨a, _ | ⟨b, _ | ⟨c, _ | ⟨d, O'⟩⟩⟩⟩ <;> simp_all

/-- The mark is not found in what is behind it. -/
theorem no_later_mark {O T O' T' c : List β} (hmark : ¬ lone mark) (hO : Front lone O)
    (hT : Back lone T) (hO' : Field lone O') (hT' : Field lone T') :
    O ++ T ≠ c ++ mark :: (O' ++ T') := by
  intro h
  obtain ⟨hO'ne, hO'lone⟩ := hO'
  obtain ⟨hT'ne, hT'lone⟩ := hT'
  rcases hO with ⟨o, rfl⟩ | ⟨o₁, o₂, rfl, ho⟩ <;> rcases hT with ⟨t, rfl⟩ | ⟨t₁, t₂, rfl, ht⟩ <;>
    rcases c with _ | ⟨c₁, _ | ⟨c₂, _ | ⟨c₃, _ | ⟨c₄, c⟩⟩⟩⟩ <;>
    rcases O' with _ | ⟨a, _ | ⟨b, O'⟩⟩ <;> simp_all

/-- **When a cut into two fields behind a mark is the only one.** -/
theorem onlyCut_iff {B O T : List β} (hmark : ¬ lone mark) (hO : Field lone O)
    (hT : Field lone T) (hB : opens B) :
    (∀ B' O' T', opens B' → Field lone O' → Field lone T' →
      B' ++ mark :: (O' ++ T') = B ++ mark :: (O ++ T) → B' = B ∧ O' = O ∧ T' = T) ↔
    (∀ a b, B = a ++ mark :: b → ¬ opens a) ∧ Front lone O ∧ Back lone T := by
  constructor
  · intro honly
    refine ⟨?_, ?_, ?_⟩
    · rintro a b rfl ha
      -- what is behind the earlier mark is a longer first field
      have hlonger := honly a (b ++ mark :: O) T ha ?_ hT (by simp)
      · exact absurd hlonger.1 (by simp)
      · cases b with
        | nil =>
          obtain ⟨o, O, rfl⟩ := List.exists_cons_of_ne_nil hO.1
          exact field_cons_cons
        | cons x b => exact field_append (List.cons_ne_nil _ _) (List.cons_ne_nil _ _)
    · rcases O with _ | ⟨o₁, _ | ⟨o₂, O⟩⟩
      · exact absurd rfl hO.1
      · exact .inl ⟨o₁, rfl⟩
      · by_cases hlone : lone o₁
        · cases O with
          | nil => exact .inr ⟨o₁, o₂, rfl, hlone⟩
          | cons o₃ O =>
            have hcut := honly B [o₁, o₂] (o₃ :: O ++ T) hB field_cons_cons
              (field_append (List.cons_ne_nil _ _) hT.1) (by simp)
            exact absurd hcut.2.1 (by simp)
        · have hcut := honly B [o₁] (o₂ :: O ++ T) hB (field_singleton.mpr hlone)
            (field_append (List.cons_ne_nil _ _) hT.1) (by simp)
          exact absurd hcut.2.1 (by simp)
    · rcases T with _ | ⟨t₁, _ | ⟨t₂, T⟩⟩
      · exact absurd rfl hT.1
      · exact .inl ⟨t₁, rfl⟩
      · by_cases hback : T = [] ∧ lone t₂
        · exact .inr ⟨t₁, t₂, by rw [hback.1], hback.2⟩
        · have hfield : Field lone (t₂ :: T) := by
            refine ⟨List.cons_ne_nil _ _, fun x hx hlone => ?_⟩
            obtain ⟨rfl, rfl⟩ := List.cons.inj hx
            exact hback ⟨rfl, hlone⟩
          have hcut := honly B (O ++ [t₁]) (t₂ :: T) hB
            (field_append hO.1 (List.cons_ne_nil _ _)) hfield (by simp)
          exact absurd hcut.2.2 (by simp)
  · rintro ⟨hopens, hfront, hback⟩ B' O' T' hB' hO' hT' h
    rcases cut_mark hB' hopens h with ⟨rfl, hfields⟩ | ⟨c, -, hlater⟩
    · exact ⟨rfl, fields_eq hfront hback hO' hT' hfields⟩
    · exact absurd hlater (no_later_mark hmark hfront hback hO' hT')

/-! ## Three fields -/

/-- What a field between two others is made of when the cuts are the only ones. -/
def Between (lone : β → Prop) (xs : List β) : Prop :=
  (∃ x, xs = [x]) ∨ ∃ x y, xs = [x, y] ∧ lone x ∧ lone y

theorem Between.back {xs : List β} (h : Between lone xs) : Back lone xs := by
  rcases h with hone | ⟨x, y, rfl, -, hy⟩
  · exact .inl hone
  · exact .inr ⟨x, y, rfl, hy⟩

/-- A list of pieces before a last one is cut behind the fields, or the last field is
longer. -/
theorem last_field {X A R : List β} {last : β} (hA : A ≠ []) (h : X ++ A = R ++ [last]) :
    ∃ d, A = d ++ [last] ∧ X ++ d = R := by
  rcases List.eq_nil_or_concat A with rfl | ⟨d, x, rfl⟩
  · exact absurd rfl hA
  · rw [List.concat_eq_append, ← List.append_assoc] at h
    obtain ⟨hX, hx⟩ := List.append_inj' h rfl
    exact ⟨d, by rw [List.concat_eq_append, hx], hX⟩

theorem threeFields_eq {O T O' T' A' : List β} {last : β} (hO : Front lone O) (hT : Between lone T)
    (hO' : Field lone O') (hT' : Field lone T') (hA' : Field lone A')
    (h : O' ++ (T' ++ A') = O ++ (T ++ [last])) : O' = O ∧ T' = T ∧ A' = [last] := by
  rw [← List.append_assoc, ← List.append_assoc] at h
  obtain ⟨d, rfl, hd⟩ := last_field hA'.1 h
  cases d with
  | nil =>
    rw [List.append_nil] at hd
    obtain ⟨rfl, rfl⟩ := fields_eq hO hT.back hO' hT' hd
    exact ⟨rfl, rfl, rfl⟩
  | cons x d =>
    -- a longer last field leaves a piece that cannot be one
    exfalso
    obtain ⟨hO'ne, hO'lone⟩ := hO'
    obtain ⟨hT'ne, hT'lone⟩ := hT'
    rcases hO with ⟨o, rfl⟩ | ⟨o₁, o₂, rfl, ho⟩ <;>
      rcases hT with ⟨t, rfl⟩ | ⟨t₁, t₂, rfl, ht₁, ht₂⟩ <;>
      rcases O' with _ | ⟨a, _ | ⟨b, _ | ⟨c, _ | ⟨c', O'⟩⟩⟩⟩ <;>
      rcases T' with _ | ⟨a', _ | ⟨b', _ | ⟨d', T'⟩⟩⟩ <;> simp_all

/-- **When a cut into three fields behind a mark, the last of them one piece, is the only
one.** -/
theorem onlyCutBefore_iff {B O T : List β} {last : β} (hmark : ¬ lone mark)
    (hO : Field lone O) (hT : Field lone T) (hB : opens B) (hlast : ¬ lone last) :
    (∀ B' O' T' A', opens B' → Field lone O' → Field lone T' → Field lone A' →
      B' ++ mark :: (O' ++ (T' ++ A')) = B ++ mark :: (O ++ (T ++ [last])) →
      B' = B ∧ O' = O ∧ T' = T ∧ A' = [last]) ↔
    (∀ a b, B = a ++ mark :: b → ¬ opens a) ∧ Front lone O ∧ Between lone T := by
  constructor
  · intro honly
    have htwo : ∀ B' O' T', opens B' → Field lone O' → Field lone T' →
        B' ++ mark :: (O' ++ T') = B ++ mark :: (O ++ T) → B' = B ∧ O' = O ∧ T' = T := by
      intro B' O' T' hB' hO' hT' h
      have hcut := honly B' O' T' [last] hB' hO' hT' (field_singleton.mpr hlast) ?_
      · exact ⟨hcut.1, hcut.2.1, hcut.2.2.1⟩
      · have hlonger := congrArg (fun xs => xs ++ [last]) h
        simpa using hlonger
    obtain ⟨hopens, hfront, hback⟩ := (onlyCut_iff hmark hO hT hB).mp htwo
    refine ⟨hopens, hfront, ?_⟩
    rcases hback with hone | ⟨t₁, t₂, rfl, ht₂⟩
    · exact .inl hone
    · by_cases ht₁ : lone t₁
      · exact .inr ⟨t₁, t₂, rfl, ht₁, ht₂⟩
      · have hcut := honly B O [t₁] [t₂, last] hB hO (field_singleton.mpr ht₁) field_cons_cons
          (by simp)
        exact absurd hcut.2.2.1 (by simp)
  · rintro ⟨hopens, hfront, hbetween⟩ B' O' T' A' hB' hO' hT' hA' h
    rcases cut_mark hB' hopens h with ⟨rfl, hfields⟩ | ⟨c, -, hlater⟩
    · exact ⟨rfl, threeFields_eq hfront hbetween hO' hT' hA' hfields⟩
    · rw [← List.append_assoc] at hlater
      rw [← List.append_assoc O', ← List.cons_append, ← List.append_assoc] at hlater
      obtain ⟨d, rfl, hd⟩ := last_field hA'.1 hlater.symm
      rw [List.append_assoc c, List.cons_append, List.append_assoc O'] at hd
      refine absurd hd.symm (no_later_mark hmark hfront hbetween.back hO' ?_)
      exact ⟨fun h => hT'.1 (List.append_eq_nil_iff.mp h).1, fun x hx => by
        rcases List.append_eq_singleton_iff.mp hx with ⟨hnil, -⟩ | ⟨hone, -⟩
        · exact absurd hnil hT'.1
        · exact hT'.2 x hone⟩

end Cuts

import Parmana.Js.Encoding
import Parmana.Js.Pieces

/-! # What is left of a text in UTF-8

A signature, a digest and a `TEXT` column are of the UTF-8 bytes of a string, and those do not
tell a lone surrogate from `U+FFFD`.  What can be read back is the string with every lone
surrogate replaced (`toWellFormed`): two strings have the same bytes exactly when they are
read back as one (`encode_eq_iff`), and a string is the only one with its bytes exactly when
it holds neither a lone surrogate nor `U+FFFD` (`encodedOnce_iff`).  A `jsonb` column refuses such
a text, wherever it stands in a document (`Json.Storable`).
-/
namespace Js
namespace JsString

/-! ## Scalar values -/

theorem scalars_append {us vs : List UInt16} (h : ∀ v ∈ vs.head?, isLowSurrogate v = false) :
    scalars (us ++ vs) = scalars us ++ scalars vs := by
  induction us using scalars.induct with
  | case1 => rfl
  | case2 u =>
    cases vs with
    | nil => rfl
    | cons v vs =>
      have hpair : ¬ (isHighSurrogate u && isLowSurrogate v) = true := by
        rw [h v rfl, Bool.and_false]
        exact Bool.false_ne_true
      exact if_neg hpair
  | case3 u v us hpair ih =>
    rw [List.cons_append, List.cons_append, scalars, if_pos hpair, ih, scalars, if_pos hpair]
    rfl
  | case4 u v us hpair ih =>
    rw [List.cons_append] at ih
    rw [List.cons_append, List.cons_append, scalars, if_neg hpair, ih, scalars, if_neg hpair]
    rfl

theorem scalars_cons {u : UInt16} (h : isHighSurrogate u = false) (us : List UInt16) :
    scalars (u :: us) = unitChar u :: scalars us := by
  cases us with
  | nil => rfl
  | cons v us =>
    refine if_neg ?_
    rw [h, Bool.false_and]
    exact Bool.false_ne_true

theorem paired_flatMap_utf16 (cs : List Char) : paired (cs.flatMap utf16) = true := by
  induction cs with
  | nil => rfl
  | cons c cs ih =>
    rw [List.flatMap_cons]
    refine paired_append ?_ ih
    by_cases hc : c.toNat < 0x10000
    · have hone : utf16 c = [UInt16.ofNat c.toNat] := if_pos hc
      rw [hone, paired, Bool.not_eq_true', Bool.eq_false_iff]
      exact utf16_not_surrogate hc
    · obtain ⟨u, v, huv, hpair⟩ := utf16_pair hc
      rw [huv]
      exact if_pos hpair

/-- A lone surrogate is written as `U+FFFD`. -/
theorem replacement_mem {us : List UInt16} (h : paired us = false) :
    Char.ofNat 0xFFFD ∈ scalars us := by
  have hlone : ∀ u : UInt16, (!(isHighSurrogate u || isLowSurrogate u)) = false →
      unitChar u = Char.ofNat 0xFFFD := fun u hu => if_pos ((Bool.not_eq_false' _).mp hu)
  -- as the units are read: two where they are a pair, and one otherwise
  induction us using paired.induct with
  | case1 => cases h
  | case2 u =>
    rw [scalars, hlone u h]
    exact List.mem_singleton_self _
  | case3 u v us hpair ih =>
    rw [paired, if_pos hpair] at h
    rw [scalars, if_pos hpair]
    exact List.mem_cons_of_mem _ (ih h)
  | case4 u v us hpair ih =>
    rw [paired, if_neg hpair, Bool.and_eq_false_iff] at h
    rw [scalars, if_neg hpair]
    rcases h with h | h
    · rw [hlone u h]
      exact List.mem_cons_self
    · exact List.mem_cons_of_mem _ (ih h)

/-! ## Pairs -/

/-- Paired code units do not begin with the second half of a pair. -/
theorem head_not_low {us : List UInt16} (h : paired us = true) :
    ∀ u ∈ us.head?, isLowSurrogate u = false := by
  rintro u hu
  by_contra hlow
  rw [Bool.not_eq_false] at hlow
  have hhigh : isHighSurrogate u = false := by
    rw [Bool.eq_false_iff, ne_eq, highSurrogate_iff]
    rw [lowSurrogate_iff] at hlow
    omega
  match us, hu with
  | [u], rfl =>
    rw [paired, hhigh, hlow] at h
    cases h
  | u :: v :: us, rfl =>
    rw [paired, hhigh, hlow] at h
    cases h

theorem paired_of_append {us vs : List UInt16} (hhead : ∀ v ∈ vs.head?, isLowSurrogate v = false)
    (h : paired (us ++ vs) = true) : paired vs = true := by
  -- no pair reaches from the first part into the second
  induction us using paired.induct with
  | case1 => exact h
  | case2 u =>
    cases vs with
    | nil => rfl
    | cons v vs =>
      have hpair : ¬ (isHighSurrogate u && isLowSurrogate v) = true := by
        rw [hhead v rfl, Bool.and_false]
        exact Bool.false_ne_true
      rw [List.singleton_append, paired, if_neg hpair, Bool.and_eq_true] at h
      exact h.2
  | case3 u v us hpair ih =>
    rw [List.cons_append, List.cons_append, paired, if_pos hpair] at h
    exact ih h
  | case4 u v us hpair ih =>
    rw [List.cons_append, List.cons_append, paired, if_neg hpair, Bool.and_eq_true] at h
    exact ih h.2

theorem paired_tail {u : UInt16} {us : List UInt16} (hu : isHighSurrogate u = false)
    (h : paired (u :: us) = true) : paired us = true := by
  cases us with
  | nil => rfl
  | cons v us =>
    have hpair : ¬ (isHighSurrogate u && isLowSurrogate v) = true := by
      rw [hu, Bool.false_and]
      exact Bool.false_ne_true
    rw [paired, if_neg hpair, Bool.and_eq_true] at h
    exact h.2

/-- Code units that are no surrogates are paired. -/
theorem paired_of_forall {us : List UInt16}
    (h : ∀ u ∈ us, (isHighSurrogate u || isLowSurrogate u) = false) : paired us = true := by
  induction us with
  | nil => rfl
  | cons u us ih =>
    have hu : paired [u] = true := (Bool.not_eq_true' _).mpr (h u List.mem_cons_self)
    exact paired_append hu (ih fun v hv => h v (List.mem_cons_of_mem u hv))

/-! ## Reading the bytes back -/

/-- `s.toWellFormed()`: what a string is read back as that was written as UTF-8. -/
def toWellFormed (s : JsString) : JsString := ⟨(scalars s.units).flatMap utf16⟩

section
variable {s t : JsString}

theorem encode_toWellFormed (s : JsString) : s.toWellFormed.encode = s.encode := encode_utf16 _

theorem paired_toWellFormed (s : JsString) : paired s.toWellFormed.units = true :=
  paired_flatMap_utf16 _

/-- **Two strings have the same bytes exactly when they are read back as one.** -/
theorem encode_eq_iff : s.encode = t.encode ↔ s.toWellFormed = t.toWellFormed := by
  constructor
  · intro h
    exact congrArg (fun cs => JsString.mk (List.flatMap utf16 cs)) (utf8_injective h)
  · intro h
    rw [← encode_toWellFormed s, h, encode_toWellFormed]

theorem toWellFormed_of_paired (h : paired s.units = true) : s.toWellFormed = s :=
  congrArg JsString.mk (utf16_scalars h)

theorem toWellFormed_eq_self_iff : s.toWellFormed = s ↔ paired s.units = true := by
  refine ⟨fun h => ?_, toWellFormed_of_paired⟩
  rw [← h]
  exact paired_toWellFormed s

@[simp] theorem toWellFormed_toWellFormed (s : JsString) :
    s.toWellFormed.toWellFormed = s.toWellFormed := toWellFormed_of_paired (paired_toWellFormed s)

/-- What is read back without `U+FFFD` is what was written. -/
theorem toWellFormed_of_not_mem (h : 0xFFFD ∉ s.toWellFormed.units) : s.toWellFormed = s := by
  refine toWellFormed_of_paired ?_
  by_contra hlone
  rw [Bool.not_eq_true] at hlone
  exact h (List.mem_flatMap.mpr ⟨_, replacement_mem hlone, by decide⟩)

theorem toWellFormed_append (h : ∀ v ∈ t.units.head?, isLowSurrogate v = false) :
    (s ++ t).toWellFormed = s.toWellFormed ++ t.toWellFormed := by
  have hscalars : scalars (s.units ++ t.units) = scalars s.units ++ scalars t.units :=
    scalars_append h
  show JsString.mk ((scalars (s.units ++ t.units)).flatMap utf16) = _
  rw [hscalars, List.flatMap_append]
  rfl

theorem toWellFormed_units_eq_nil : s.toWellFormed.units = [] ↔ s.units = [] := by
  constructor
  · intro h
    have hsame : s.toWellFormed = s := toWellFormed_of_not_mem (by rw [h]; exact List.not_mem_nil)
    rw [← hsame, h]
  · intro h
    unfold toWellFormed
    rw [h]
    rfl

/-- A separator that is no surrogate stays where it is. -/
theorem toWellFormed_joined {c : UInt16} (hhigh : isHighSurrogate c = false)
    (hlow : isLowSurrogate c = false) :
    (s ++ ⟨[c]⟩ ++ t).toWellFormed = s.toWellFormed ++ ⟨[c]⟩ ++ t.toWellFormed := by
  have hunit : utf16 (unitChar c) = [c] := by
    refine utf16_unitChar ?_
    rw [hhigh, hlow]
    exact Bool.false_ne_true
  have hassoc : s ++ ⟨[c]⟩ ++ t = s ++ (⟨c :: t.units⟩ : JsString) :=
    congrArg JsString.mk (List.append_assoc s.units [c] t.units)
  have hcons : (⟨c :: t.units⟩ : JsString).toWellFormed = ⟨c :: t.toWellFormed.units⟩ := by
    unfold toWellFormed
    dsimp only
    rw [scalars_cons hhigh, List.flatMap_cons, hunit]
    rfl
  rw [hassoc, toWellFormed_append (by rintro _ ⟨⟩; exact hlow), hcons]
  exact congrArg JsString.mk (List.append_assoc s.toWellFormed.units [c] t.toWellFormed.units).symm

theorem toWellFormed_join {c : UInt16} (hhigh : isHighSurrogate c = false)
    (hlow : isLowSurrogate c = false) (texts : List JsString) :
    (join ⟨[c]⟩ texts).toWellFormed = join ⟨[c]⟩ (texts.map toWellFormed) := by
  induction texts with
  | nil => rfl
  | cons s texts ih =>
    cases texts with
    | nil => rfl
    | cons t rest =>
      rw [join_cons_cons, toWellFormed_joined hhigh hlow, ih]
      rfl

end

/-! ## White space -/

/-- White space is no half of a surrogate pair. -/
theorem paired_of_blank {us : List UInt16} (h : Blank us) : paired us = true := by
  have hspaces : ([0x9, 0xA, 0xB, 0xC, 0xD, 0x20, 0xA0, 0x1680, 0x2028, 0x2029, 0x202F,
      0x205F, 0x3000, 0xFEFF] : List UInt16).all
        (fun u => !(isHighSurrogate u || isLowSurrogate u)) = true := by
    decide
  refine paired_of_forall fun u hu => ?_
  have hspace := h u hu
  unfold isSpace at hspace
  rw [Bool.or_eq_true, decide_eq_true_eq, Bool.and_eq_true, decide_eq_true_eq,
    decide_eq_true_eq] at hspace
  rcases hspace with hmem | ⟨-, hle⟩
  · exact Bool.not_eq_eq_eq_not.mp (List.all_eq_true.mp hspaces u hmem)
  · have hlt : u.toNat < 0xD800 := Nat.lt_of_le_of_lt (UInt16.le_iff_toNat_le.mp hle) (by decide)
    rw [Bool.or_eq_false_iff, Bool.eq_false_iff, Bool.eq_false_iff, ne_eq, ne_eq,
      highSurrogate_iff, lowSurrogate_iff]
    omega

/-- A text is blank as it is read back exactly when it was written blank. -/
theorem blank_toWellFormed_iff {s : JsString} : Blank s.toWellFormed.units ↔ Blank s.units := by
  constructor
  · intro h
    have hsame : s.toWellFormed = s :=
      toWellFormed_of_not_mem fun hmem => absurd (h _ hmem) (by decide)
    rwa [hsame] at h
  · intro h
    rwa [toWellFormed_of_paired (paired_of_blank h)]

/-! ## Texts with bytes of their own -/

section
variable {s : JsString}

/-- Neither a lone surrogate nor what is written in its place. -/
def EncodedOnce (s : JsString) : Prop := paired s.units = true ∧ 0xFFFD ∉ s.units

instance (s : JsString) : Decidable (EncodedOnce s) :=
  inferInstanceAs (Decidable (paired s.units = true ∧ 0xFFFD ∉ s.units))

/-- **A string is the only one with its bytes exactly when it is encoded once.** -/
theorem encodedOnce_iff : EncodedOnce s ↔ ∀ t : JsString, t.encode = s.encode → t = s := by
  constructor
  · rintro ⟨hpaired, hfree⟩ t h
    rw [encode_eq_iff, toWellFormed_of_paired hpaired] at h
    rw [← h] at hfree
    rw [← toWellFormed_of_not_mem hfree, h]
  · intro hall
    have hself : s.toWellFormed = s := hall _ (encode_toWellFormed s)
    have hpaired : paired s.units = true := toWellFormed_eq_self_iff.mp hself
    refine ⟨hpaired, fun hmem => ?_⟩
    -- a lone surrogate in its place gives the same bytes
    obtain ⟨us, vs, hunits⟩ := List.append_of_mem hmem
    have hafter : paired vs = true := by
      rw [hunits] at hpaired
      exact paired_tail (by decide) (paired_of_append (by rintro _ ⟨⟩; decide) hpaired)
    have hread : ∀ u : UInt16, isLowSurrogate u = false →
        scalars (us ++ u :: vs) = scalars us ++ scalars (u :: vs) := fun u hu =>
      scalars_append (by rintro _ ⟨⟩; exact hu)
    have hlone : scalars (0xD800 :: vs) = Char.ofNat 0xFFFD :: scalars vs := by
      have happend := @scalars_append [0xD800] vs (head_not_low hafter)
      exact happend
    have hbytes : encode ⟨us ++ 0xD800 :: vs⟩ = s.encode := by
      unfold encode
      rw [hunits, hread _ (by decide), hread _ (by decide), hlone, scalars_cons (by decide)]
      rfl
    have heq := congrArg JsString.units (hall _ hbytes)
    rw [hunits] at heq
    have hhead := (List.cons.inj (List.append_cancel_left heq)).1
    exact absurd hhead (by decide)

end

end JsString

namespace Json

/-! ## What a database can hold of a document -/

mutual

/-- The texts in a document, the names of members among them. -/
def texts : Json → List JsString
  | .str s => [s]
  | .arr xs => textsEach xs
  | .obj fs => textsMembers fs
  | _ => []

def textsEach : List Json → List JsString
  | [] => []
  | x :: xs => texts x ++ textsEach xs

def textsMembers : Fields → List JsString
  | [] => []
  | (k, v) :: fs => k :: texts v ++ textsMembers fs

end

/-- What `jsonb` can hold: no text with a NUL or with half of a surrogate pair. -/
def Storable (content : Json) : Prop :=
  ∀ text ∈ texts content, (0 : UInt16) ∉ text.units ∧ JsString.paired text.units = true

instance (content : Json) : Decidable (Storable content) :=
  decidable_of_iff ((texts content).all fun text =>
    decide ((0 : UInt16) ∉ text.units ∧ JsString.paired text.units = true) = true)
    (by simp [Storable, List.all_eq_true])

end Json
end Js

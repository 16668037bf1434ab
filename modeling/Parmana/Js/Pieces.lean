import Parmana.Js.Text
import Mathlib.Data.List.TakeWhile

/-! # The pieces of a joined text

`splitUnits` cuts a text at every separator and `glue` joins pieces again.  The two are
inverse to each other where no piece holds the separator, so a text is its pieces; the
pieces of `join` are those of the texts that were joined, one list after the other.
-/
namespace Js.JsString

variable {sep : UInt16} {us vs : List UInt16}

/-- Joins pieces. -/
def glue (sep : UInt16) : List (List UInt16) → List UInt16
  | [] => []
  | [piece] => piece
  | piece :: next :: rest => piece ++ sep :: glue sep (next :: rest)

theorem glue_cons {piece : List UInt16} {rest : List (List UInt16)} (h : rest ≠ []) :
    glue sep (piece :: rest) = piece ++ sep :: glue sep rest := by
  obtain ⟨next, rest, rfl⟩ := List.exists_cons_of_ne_nil h
  rfl

theorem splitUnits_cons_ne {u : UInt16} (h : u ≠ sep) {piece : List UInt16}
    {rest : List (List UInt16)} (hus : splitUnits sep us = piece :: rest) :
    splitUnits sep (u :: us) = (u :: piece) :: rest := by
  rw [splitUnits, if_neg h, hus]

theorem splitUnits_append : splitUnits sep (us ++ sep :: vs) =
    splitUnits sep us ++ splitUnits sep vs := by
  induction us with
  | nil =>
    show splitUnits sep (sep :: vs) = [] :: splitUnits sep vs
    rw [splitUnits, if_pos rfl]
  | cons u us ih =>
    by_cases hu : u = sep
    · rw [List.cons_append, splitUnits, if_pos hu, ih, splitUnits, if_pos hu]
      rfl
    · obtain ⟨piece, rest, hpieces⟩ := List.exists_cons_of_ne_nil (splitUnits_ne_nil sep us)
      rw [List.cons_append, splitUnits_cons_ne hu (by rw [ih, hpieces, List.cons_append]),
        splitUnits_cons_ne hu hpieces]
      rfl

theorem splitUnits_of_not_mem (h : sep ∉ us) : splitUnits sep us = [us] := by
  induction us with
  | nil => rfl
  | cons u us ih =>
    obtain ⟨hu, hus⟩ := List.ne_and_not_mem_of_not_mem_cons h
    exact splitUnits_cons_ne (Ne.symm hu) (ih hus)

/-- No piece holds the separator. -/
theorem not_mem_of_mem_splitUnits {piece : List UInt16} (h : piece ∈ splitUnits sep us) :
    sep ∉ piece := by
  induction us generalizing piece with
  | nil =>
    rw [List.mem_singleton.mp h]
    exact List.not_mem_nil
  | cons u us ih =>
    by_cases hu : u = sep
    · rw [splitUnits, if_pos hu] at h
      rcases List.mem_cons.mp h with rfl | h
      · exact List.not_mem_nil
      · exact ih h
    · obtain ⟨first, rest, hpieces⟩ := List.exists_cons_of_ne_nil (splitUnits_ne_nil sep us)
      rw [splitUnits_cons_ne hu hpieces] at h
      rcases List.mem_cons.mp h with rfl | h
      · exact List.not_mem_cons_of_ne_of_not_mem (Ne.symm hu) (ih (hpieces ▸ List.mem_cons_self))
      · exact ih (hpieces ▸ List.mem_cons_of_mem _ h)

@[simp] theorem glue_splitUnits : glue sep (splitUnits sep us) = us := by
  induction us with
  | nil => rfl
  | cons u us ih =>
    by_cases hu : u = sep
    · rw [splitUnits, if_pos hu, glue_cons (splitUnits_ne_nil sep us), ih, hu]
      rfl
    · obtain ⟨piece, rest, hpieces⟩ := List.exists_cons_of_ne_nil (splitUnits_ne_nil sep us)
      rw [splitUnits_cons_ne hu hpieces]
      rw [hpieces] at ih
      cases rest with
      | nil => exact congrArg (u :: ·) ih
      | cons next rest => exact congrArg (u :: ·) ih

theorem splitUnits_glue {pieces : List (List UInt16)} (hne : pieces ≠ [])
    (h : ∀ piece ∈ pieces, sep ∉ piece) : splitUnits sep (glue sep pieces) = pieces := by
  induction pieces with
  | nil => exact absurd rfl hne
  | cons piece pieces ih =>
    cases pieces with
    | nil => exact splitUnits_of_not_mem (h piece List.mem_cons_self)
    | cons next rest =>
      rw [glue, splitUnits_append, splitUnits_of_not_mem (h piece List.mem_cons_self),
        ih (List.cons_ne_nil _ _) fun piece hmem => h piece (List.mem_cons_of_mem _ hmem)]
      rfl

/-- **A text is its pieces.** -/
theorem splitUnits_injective (h : splitUnits sep us = splitUnits sep vs) : us = vs := by
  calc us = glue sep (splitUnits sep us) := glue_splitUnits.symm
    _ = glue sep (splitUnits sep vs) := by rw [h]
    _ = vs := glue_splitUnits

/-- The pieces of texts that are joined. -/
theorem splitUnits_join {texts : List JsString} (h : texts ≠ []) :
    splitUnits sep (join ⟨[sep]⟩ texts).units =
      texts.flatMap fun text => splitUnits sep text.units := by
  induction texts with
  | nil => exact absurd rfl h
  | cons text texts ih =>
    cases texts with
    | nil => exact (List.append_nil _).symm
    | cons next rest =>
      rw [List.flatMap_cons, ← ih (List.cons_ne_nil _ _), ← splitUnits_append]
      show splitUnits sep (text.units ++ [sep] ++ (join ⟨[sep]⟩ (next :: rest)).units) = _
      rw [List.append_assoc, List.singleton_append]

/-! ## Blank texts -/

/-- A text of white space alone. -/
def Blank (us : List UInt16) : Prop := ∀ u ∈ us, isSpace u = true

instance (us : List UInt16) : Decidable (Blank us) :=
  decidable_of_iff (us.all isSpace = true) List.all_eq_true

/-- `s.trim() === ""`. -/
theorem trim_eq_empty {s : JsString} : s.trim = "" ↔ Blank s.units := by
  have hunits : s.trim = "" ↔ s.trim.units = [] :=
    ⟨fun h => by rw [h]; rfl, fun h => by cases hs : s.trim; rw [hs] at h; exact congrArg _ h⟩
  rw [hunits]
  unfold trim
  dsimp only
  rw [List.reverse_eq_nil_iff, List.dropWhile_eq_nil_iff]
  constructor
  · intro h u hu
    by_contra hspace
    -- the text is not white space up to `u`, so something is left after the first trim
    have hleft : s.units.dropWhile isSpace ≠ [] := by
      rw [Ne, List.dropWhile_eq_nil_iff]
      exact fun hall => hspace (hall u hu)
    have hhead := List.head_dropWhile_not isSpace hleft
    have hall := h (List.head _ hleft) (List.mem_reverse.mpr (List.head_mem hleft))
    rw [hhead] at hall
    cases hall
  · intro h u hu
    exact h u (List.dropWhile_subset _ (List.mem_reverse.mp hu))

end Js.JsString

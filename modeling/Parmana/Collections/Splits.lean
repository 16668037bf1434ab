import Mathlib.Algebra.Ring.Nat
import Mathlib.Data.List.Basic

/-! # The pieces of a list

`List.splitOnP` cuts a list at every element of a kind.  No piece holds such an element, the
pieces and the cuts between them account for the whole length, and pieces put together
behind a cut each are the pieces again.
-/
namespace Splits

variable {α : Type} {p : α → Bool} {xs piece : List α}

/-- What is in a piece was in the list, and is not cut at. -/
theorem of_mem_splitOnP (h : piece ∈ xs.splitOnP p) : ∀ x ∈ piece, x ∈ xs ∧ p x = false := by
  induction xs generalizing piece with
  | nil =>
    rw [List.splitOnP_nil, List.mem_singleton] at h
    rw [h]
    exact fun _ hx => absurd hx List.not_mem_nil
  | cons c xs ih =>
    rw [List.splitOnP_cons_eq_if_modifyHead] at h
    have hskip : ∀ {piece}, piece ∈ xs.splitOnP p → ∀ x ∈ piece, x ∈ c :: xs ∧ p x = false :=
      fun hpiece x hx => ⟨List.mem_cons_of_mem _ (ih hpiece x hx).1, (ih hpiece x hx).2⟩
    split at h
    · rcases List.mem_cons.mp h with rfl | h
      · exact fun _ hx => absurd hx List.not_mem_nil
      · exact hskip h
    next hc =>
      cases hsplit : xs.splitOnP p with
      | nil => exact absurd hsplit (List.splitOnP_ne_nil _ _)
      | cons first rest =>
        rw [hsplit] at h hskip
        rcases List.mem_cons.mp h with rfl | h
        · intro x hx
          rcases List.mem_cons.mp hx with rfl | hx
          · exact ⟨List.mem_cons_self, Bool.eq_false_iff.mpr hc⟩
          · exact hskip List.mem_cons_self x hx
        · exact hskip (List.mem_cons_of_mem _ h)

/-- Every element is in a piece or a cut between two. -/
theorem length_splitOnP :
    ((xs.splitOnP p).map fun piece => piece.length + 1).sum = xs.length + 1 := by
  induction xs with
  | nil => rfl
  | cons c xs ih =>
    rw [List.splitOnP_cons_eq_if_modifyHead]
    split
    · rw [List.map_cons, List.sum_cons, ih, List.length_cons, List.length_nil]
      omega
    · cases hsplit : xs.splitOnP p with
      | nil => exact absurd hsplit (List.splitOnP_ne_nil _ _)
      | cons first rest =>
        rw [hsplit, List.map_cons, List.sum_cons] at ih
        rw [List.modifyHead_cons, List.map_cons, List.sum_cons, List.length_cons, List.length_cons]
        omega

/-- Pieces behind a cut each. -/
theorem splitOnP_flatMap {sep : α} (hsep : p sep = true) {first : List α}
    {pieces : List (List α)} (h : ∀ piece ∈ first :: pieces, ∀ x ∈ piece, p x = false) :
    (first ++ pieces.flatMap (sep :: ·)).splitOnP p = first :: pieces := by
  induction pieces generalizing first with
  | nil =>
    rw [List.flatMap_nil, List.append_nil]
    exact List.splitOnP_eq_singleton (h first List.mem_cons_self)
  | cons next pieces ih =>
    rw [List.flatMap_cons, List.cons_append,
      List.splitOnP_append_cons_of_forall_mem (h first List.mem_cons_self) sep hsep,
      ih fun piece hpiece => h piece (List.mem_cons_of_mem _ hpiece)]

end Splits

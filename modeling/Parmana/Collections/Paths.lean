import Mathlib.Data.List.Induction
import Mathlib.Tactic.Common

/-! # Walking paths

A path is a list of steps: stay, go up, or go down to a name.  `walk` follows it from a
directory, which is the list of the names that lead to it; going up from the root stays
there.  `normalize` shortens a path without following it, and where going up at its
beginning is kept, or the walk begins at the root, it leads to the same place
(`walk_normalize`, `walk_normalize_root`).

A walk goes down at most as often as its path does (`length_walk_le`), so a path of three
steps that are not all steps down never leads three names down.
-/
namespace Paths

/-- One step. -/
inductive Step (α : Type) where
  | stay
  | up
  | down (name : α)
  deriving DecidableEq

variable {α : Type}

/-- One step from a directory. -/
def Step.from (dir : List α) : Step α → List α
  | .stay => dir
  | .up => dir.dropLast
  | .down name => dir ++ [name]

/-- The steps of a path, from a directory. -/
def walk (dir : List α) (steps : List (Step α)) : List α := steps.foldl Step.from dir

@[simp] theorem walk_nil (dir : List α) : walk dir [] = dir := rfl

@[simp] theorem walk_cons (dir : List α) (step : Step α) (steps : List (Step α)) :
    walk dir (step :: steps) = walk (step.from dir) steps := rfl

theorem walk_append (dir : List α) (steps steps' : List (Step α)) :
    walk dir (steps ++ steps') = walk (walk dir steps) steps' := List.foldl_append

/-- One more step on a normalized path.  `above` says whether going up at its beginning is
kept. -/
def extend (above : Bool) (path : List (Step α)) : Step α → List (Step α)
  | .stay => path
  | .up =>
    match path.getLast? with
    | some (.down _) => path.dropLast
    | _ => if above then path ++ [.up] else path
  | .down name => path ++ [.down name]

/-- A path without steps that lead nowhere. -/
def normalize (above : Bool) (steps : List (Step α)) : List (Step α) :=
  steps.foldl (extend above) []

theorem normalize_concat (above : Bool) (steps : List (Step α)) (step : Step α) :
    normalize above (steps ++ [step]) = extend above (normalize above steps) step := by
  unfold normalize
  rw [List.foldl_append]
  rfl

/-- **A normalized path leads to the same place.** -/
theorem walk_normalize (dir : List α) (steps : List (Step α)) :
    walk dir (normalize true steps) = walk dir steps := by
  induction steps using List.reverseRecOn with
  | nil => rfl
  | append_singleton steps step ih =>
    rw [normalize_concat, walk_append, ← ih]
    cases step with
    | stay => rfl
    | down name => exact walk_append ..
    | up =>
      rcases List.eq_nil_or_concat (normalize true steps) with hnil | ⟨before, last, hlast⟩
      · rw [hnil]
        rfl
      · rw [hlast, List.concat_eq_append]
        unfold extend
        rw [List.getLast?_concat]
        cases last with
        | down name =>
          dsimp only
          rw [List.dropLast_concat, walk_append]
          exact List.dropLast_concat.symm
        | stay => exact walk_append ..
        | up => exact walk_append ..

/-- Without going up at its beginning, a normalized path has only steps down. -/
theorem normalize_false (steps : List (Step α)) :
    ∃ names : List α, normalize false steps = names.map Step.down := by
  induction steps using List.reverseRecOn with
  | nil => exact ⟨[], rfl⟩
  | append_singleton steps step ih =>
    obtain ⟨names, hnames⟩ := ih
    rw [normalize_concat, hnames]
    cases step with
    | stay => exact ⟨names, rfl⟩
    | down name => exact ⟨names ++ [name], by simp [extend]⟩
    | up =>
      rcases List.eq_nil_or_concat names with rfl | ⟨before, last, rfl⟩
      · exact ⟨[], rfl⟩
      · exact ⟨before, by simp [extend]⟩

theorem walk_down (dir names : List α) : walk dir (names.map Step.down) = dir ++ names := by
  induction names generalizing dir with
  | nil => simp
  | cons name names ih =>
    rw [List.map_cons, walk_cons, ih]
    exact List.append_assoc ..

/-- From the root it leads there also where going up at its beginning is left out. -/
theorem walk_normalize_root (steps : List (Step α)) :
    walk [] (normalize false steps) = walk [] steps := by
  induction steps using List.reverseRecOn with
  | nil => rfl
  | append_singleton steps step ih =>
    obtain ⟨names, hnames⟩ := normalize_false steps
    rw [hnames, walk_down, List.nil_append] at ih
    rw [normalize_concat, hnames, walk_append, ← ih]
    cases step with
    | stay => exact (walk_down [] names).trans (List.nil_append _)
    | down name =>
      show walk [] (names.map Step.down ++ [.down name]) = names ++ [name]
      rw [walk_append, walk_down, List.nil_append]
      rfl
    | up =>
      rcases List.eq_nil_or_concat names with rfl | ⟨before, last, rfl⟩
      · rfl
      · have hshort : extend false ((before.concat last).map Step.down) .up =
            before.map Step.down := by simp [extend]
        rw [hshort, walk_down, List.nil_append]
        simp [Step.from]

/-- Whether a step goes down. -/
def Step.isDown : Step α → Bool
  | .down _ => true
  | _ => false

/-- **A walk ends at most as deep as it goes down.** -/
theorem length_walk_le (dir : List α) (steps : List (Step α)) :
    (walk dir steps).length ≤ dir.length + (steps.filter Step.isDown).length := by
  induction steps generalizing dir with
  | nil => exact Nat.le_add_right ..
  | cons step steps ih =>
    have hstep : (step.from dir).length ≤ dir.length + if step.isDown then 1 else 0 := by
      cases step with
      | stay => exact Nat.le_add_right ..
      | up =>
        show dir.dropLast.length ≤ _
        rw [List.length_dropLast]
        omega
      | down name =>
        show (dir ++ [name]).length ≤ _
        rw [List.length_append]
        exact Nat.le_refl _
    have hrest := ih (step.from dir)
    rw [walk_cons, List.filter_cons]
    by_cases hdown : step.isDown = true
    · rw [if_pos hdown] at hstep ⊢
      rw [List.length_cons]
      omega
    · rw [if_neg hdown] at hstep ⊢
      omega

end Paths

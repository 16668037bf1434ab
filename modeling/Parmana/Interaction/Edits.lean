import Mathlib.Data.List.Nodup
import Mathlib.Logic.Function.Basic

/-! # Items that are created once and edited

An item is kept under a key.  It is created when there is none, and edited by operations that
may refuse: an operation is applied to the item as it is.  A store refines this when what it
holds comes about by some sequence of such changes, whatever its clients did in between.

`Ledger` is that sequence, each change with the client that made it.  What one operation keeps
of an item, every ledger keeps (`Ledger.kept`).
-/
namespace Edits

variable {ι κ R O ε : Type} [DecidableEq κ]

/-- A change of the items. -/
inductive Change (κ R O : Type) where
  | create (key : κ) (item : R)
  | edit (key : κ) (operation : O)

/-- What a change makes of the items. -/
inductive Makes (apply : O → R → Except ε R) :
    Change κ R O → (κ → Option R) → (κ → Option R) → Prop where
  | create {items : κ → Option R} {key : κ} {item : R} (h : items key = none) :
      Makes apply (.create key item) items (Function.update items key (some item))
  | edit {items : κ → Option R} {key : κ} {operation : O} {item edited : R}
      (h : items key = some item) (happly : apply operation item = .ok edited) :
      Makes apply (.edit key operation) items (Function.update items key (some edited))

/-- `Ledger apply items changes items'`: the changes, one after another, take the items to
`items'`.  Each is recorded with the client that made it. -/
inductive Ledger (apply : O → R → Except ε R) :
    (κ → Option R) → List (ι × Change κ R O) → (κ → Option R) → Prop where
  | nil (items) : Ledger apply items [] items
  | snoc {items changes items₁ i change items₂} (h : Ledger apply items changes items₁)
      (hmakes : Makes apply change items₁ items₂) :
      Ledger apply items (changes ++ [(i, change)]) items₂

variable {apply : O → R → Except ε R} {items items' : κ → Option R}
  {changes : List (ι × Change κ R O)}

/-- What a change leaves of the item under a key: it is there, and the item itself or an edit
of it. -/
theorem Makes.kept {change : Change κ R O} {key : κ} {item : R}
    (h : Makes apply change items items') (hitem : items key = some item) :
    items' key = some item ∨ ∃ operation edited, apply operation item = .ok edited ∧
      items' key = some edited := by
  cases h with
  | @create _ key' item' hnone =>
    have hne : key ≠ key' := by
      rintro rfl
      rw [hnone] at hitem
      cases hitem
    exact .inl (by rw [Function.update_of_ne hne, hitem])
  | @edit _ key' operation item' edited hfound happly =>
    by_cases hkey : key = key'
    · subst hkey
      obtain rfl : item' = item := Option.some.inj (hfound.symm.trans hitem)
      exact .inr ⟨operation, edited, happly, Function.update_self ..⟩
    · exact .inl (by rw [Function.update_of_ne hkey, hitem])

/-- **What every operation keeps of an item is kept.** -/
theorem Ledger.kept {le : R → R → Prop} (hrefl : ∀ a, le a a)
    (htrans : ∀ a b c, le a b → le b c → le a c)
    (hstep : ∀ operation a b, apply operation a = .ok b → le a b)
    (h : Ledger apply items changes items') {key : κ} {item : R} (hitem : items key = some item) :
    ∃ now, items' key = some now ∧ le item now := by
  induction h with
  | nil => exact ⟨item, hitem, hrefl item⟩
  | snoc _ hmakes ih =>
    obtain ⟨now, hnow, hle⟩ := ih
    rcases hmakes.kept hnow with hsame | ⟨operation, edited, happly, hedited⟩
    · exact ⟨now, hsame, hle⟩
    · exact ⟨edited, hedited, htrans _ _ _ hle (hstep _ _ _ happly)⟩

/-- **A change of a ledger was made.** -/
theorem Ledger.of_mem (h : Ledger apply items changes items') {i : ι} {change : Change κ R O}
    (hmem : (i, change) ∈ changes) :
    ∃ items₁ items₂, ∃ later : List (ι × Change κ R O), Makes apply change items₁ items₂ ∧
      Ledger apply items₂ later items' := by
  induction h with
  | nil => cases hmem
  | @snoc changes items₁ j change' items₂ _ hmakes ih =>
    rcases List.mem_append.mp hmem with hmem | hmem
    · obtain ⟨items₃, items₄, later, hmakes', hlater⟩ := ih hmem
      exact ⟨items₃, items₄, later ++ [(j, change')], hmakes', hlater.snoc hmakes⟩
    · obtain ⟨rfl, rfl⟩ := Prod.mk.inj (List.mem_singleton.mp hmem)
      exact ⟨items₁, items₂, [], hmakes, .nil _⟩

end Edits

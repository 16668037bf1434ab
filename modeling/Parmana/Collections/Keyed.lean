import Mathlib.Data.List.Basic

/-! # Lists with a key

A map that remembers the order its keys were first put in, as the list of its
values: each value carries its own key, and a lookup finds the first value under
one.  Putting a value whose key is there replaces it in place.  What the three
operations do is said by what a lookup finds after them.
-/
namespace Keyed

variable {α κ : Type} [DecidableEq κ] (key : α → κ)

/-- The value under a key. -/
def find (xs : List α) (k : κ) : Option α := xs.find? (fun x => key x = k)

/-- Applies `f` to the value under a key. -/
def update (xs : List α) (k : κ) (f : α → α) : List α :=
  xs.map fun x => if key x = k then f x else x

/-- Puts a value under its key. -/
def put (xs : List α) (a : α) : List α :=
  if (find key xs (key a)).isSome then update key xs (key a) (fun _ => a) else xs ++ [a]

variable {key} {xs : List α} {k k' : κ} {a : α} {f : α → α}

theorem key_of_find (h : find key xs k = some a) : key a = k := by
  simpa using List.find?_some h

theorem mem_of_find (h : find key xs k = some a) : a ∈ xs := List.mem_of_find?_eq_some h

theorem find_append_singleton :
    find key (xs ++ [a]) k = (find key xs k).or (if key a = k then some a else none) := by
  unfold find
  rw [List.find?_append, List.find?_singleton]
  simp only [decide_eq_true_eq]

/-- An update that keeps the key changes what is found under it, and nothing else. -/
theorem find_update (hf : ∀ a, key a = k → key (f a) = k) :
    find key (update key xs k f) k' =
      if k' = k then (find key xs k').map f else find key xs k' := by
  induction xs with
  | nil => simp [find, update]
  | cons x xs ih =>
    have hcons : ∀ (y : α) (ys : List α),
        find key (y :: ys) k' = if key y = k' then some y else find key ys k' := by
      intro y ys
      unfold find
      rw [List.find?_cons]
      by_cases hy : key y = k' <;> simp [hy]
    have hupdate : update key (x :: xs) k f =
        (if key x = k then f x else x) :: update key xs k f := rfl
    rw [hupdate, hcons, hcons, ih]
    by_cases hx : key x = k
    · rw [if_pos hx, hf x hx]
      by_cases hk : k' = k
      · subst hk
        simp [hx]
      · simp [hk, hx, Ne.symm hk]
    · rw [if_neg hx]
      by_cases hk : k' = k
      · subst hk
        simp [hx]
      · simp [hk]

theorem find_put : find key (put key xs a) k = if k = key a then some a else find key xs k := by
  unfold put
  split
  · rename_i hsome
    rw [find_update (fun _ _ => rfl)]
    by_cases hk : k = key a
    · subst hk
      obtain ⟨b, hb⟩ := Option.isSome_iff_exists.mp hsome
      simp [hb]
    · rw [if_neg hk, if_neg hk]
  · rename_i hnone
    rw [Option.not_isSome_iff_eq_none] at hnone
    rw [find_append_singleton]
    by_cases hk : k = key a
    · subst hk
      simp [hnone]
    · rw [if_neg hk, if_neg (Ne.symm hk), Option.or_none]

end Keyed

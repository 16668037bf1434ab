import Parmana.Collections.Keyed
import Mathlib.Data.List.Nodup

/-! # Maps that remember their order

A `Table` is a list of values with different keys: what a `Map` holds when each
value carries its own key.  Setting a value replaces the one under its key where it
stands, or adds it at the end; deleting leaves the others where they are.  All that
is used of a table is what it gets under a key and which values it has, and each
operation has one lemma for each.
-/
variable {α κ : Type} [DecidableEq κ]

/-- Values with different keys, in the order the keys were first set. -/
structure Table (key : α → κ) where
  values : List α
  nodup : (values.map key).Nodup

namespace Table
variable {key : α → κ}

/-- No values. -/
def empty : Table key := ⟨[], List.nodup_nil⟩

/-- The value under a key. -/
def get (t : Table key) (k : κ) : Option α := Keyed.find key t.values k

theorem nodup_put {xs : List α} (h : (xs.map key).Nodup) (a : α) :
    ((Keyed.put key xs a).map key).Nodup := by
  unfold Keyed.put
  split
  · have hkeys : (Keyed.update key xs (key a) fun _ => a).map key = xs.map key := by
      unfold Keyed.update
      rw [List.map_map]
      refine List.map_congr_left fun x _ => ?_
      by_cases hx : key x = key a
      · simp [hx]
      · simp [hx]
    rw [hkeys]
    exact h
  · rename_i hnone
    rw [List.map_append]
    refine List.nodup_append.mpr ⟨h, List.nodup_singleton _, fun k hk k' hk' => ?_⟩
    rw [List.map_singleton, List.mem_singleton] at hk'
    rintro rfl
    obtain ⟨x, hx, hkey⟩ := List.mem_map.mp hk
    refine hnone ?_
    unfold Keyed.find
    rw [List.find?_isSome]
    exact ⟨x, hx, decide_eq_true (hkey.trans hk')⟩

/-- Puts a value under its key. -/
def set (t : Table key) (a : α) : Table key := ⟨Keyed.put key t.values a, nodup_put t.nodup a⟩

/-- Takes the value under a key out. -/
def delete (t : Table key) (k : κ) : Table key where
  values := t.values.filter fun a => decide (key a ≠ k)
  nodup := t.nodup.sublist (List.filter_sublist.map key)

/-- Changes the value under a key, which keeps its key. -/
def amend (t : Table key) (k : κ) (f : α → α) (hf : ∀ a, key (f a) = key a) : Table key where
  values := Keyed.update key t.values k f
  nodup := by
    have hkeys : (Keyed.update key t.values k f).map key = t.values.map key := by
      unfold Keyed.update
      rw [List.map_map]
      refine List.map_congr_left fun x _ => ?_
      by_cases hx : key x = k
      · simp [hx, hf]
      · simp [hx]
    rw [hkeys]
    exact t.nodup

@[simp] theorem get_empty (k : κ) : (empty : Table key).get k = none := rfl

omit [DecidableEq κ] in
@[simp] theorem not_mem_empty (a : α) : a ∉ (empty : Table key).values := List.not_mem_nil

theorem get_set (t : Table key) (a : α) (k : κ) :
    (t.set a).get k = if k = key a then some a else t.get k := Keyed.find_put

@[simp] theorem get_set_self (t : Table key) (a : α) : (t.set a).get (key a) = some a := by
  rw [get_set, if_pos rfl]

theorem get_set_of_ne (t : Table key) {a : α} {k : κ} (h : k ≠ key a) :
    (t.set a).get k = t.get k := by
  rw [get_set, if_neg h]

theorem get_amend (t : Table key) (k k' : κ) {f : α → α} (hf : ∀ a, key (f a) = key a) :
    (t.amend k f hf).get k' = if k' = k then (t.get k').map f else t.get k' :=
  Keyed.find_update fun a ha => (hf a).trans ha

/-- A value with a new key comes last. -/
theorem values_set_of_get_none {t : Table key} {a : α} (h : t.get (key a) = none) :
    (t.set a).values = t.values ++ [a] := by
  have hnone : ¬ (Keyed.find key t.values (key a)).isSome = true := by
    rw [← get, h]
    exact Bool.false_ne_true
  show Keyed.put key t.values a = t.values ++ [a]
  unfold Keyed.put
  rw [if_neg hnone]

theorem key_of_get {t : Table key} {k : κ} {a : α} (h : t.get k = some a) : key a = k :=
  Keyed.key_of_find h

/-- A table has the values it gets. -/
theorem mem_iff {t : Table key} {a : α} : a ∈ t.values ↔ t.get (key a) = some a := by
  constructor
  · intro h
    unfold get Keyed.find
    cases hfind : t.values.find? fun x => key x = key a with
    | none =>
      have hne := List.find?_eq_none.mp hfind a h
      simp at hne
    | some b =>
      have hb : key b = key a := by simpa using List.find?_some hfind
      rw [List.inj_on_of_nodup_map t.nodup (List.mem_of_find?_eq_some hfind) h hb]
  · exact Keyed.mem_of_find

theorem mem_of_get {t : Table key} {k : κ} {a : α} (h : t.get k = some a) : a ∈ t.values :=
  Keyed.mem_of_find h

omit [DecidableEq κ] in
/-- Values with the same key are the same. -/
theorem eq_of_key {t : Table key} {a b : α} (ha : a ∈ t.values) (hb : b ∈ t.values)
    (h : key a = key b) : a = b := List.inj_on_of_nodup_map t.nodup ha hb h

theorem mem_set {t : Table key} {a b : α} :
    b ∈ (t.set a).values ↔ b = a ∨ b ∈ t.values ∧ key b ≠ key a := by
  rw [mem_iff, get_set, mem_iff]
  by_cases hkey : key b = key a
  · rw [if_pos hkey]
    simp [hkey, eq_comm]
  · rw [if_neg hkey]
    constructor
    · intro h
      exact Or.inr ⟨h, hkey⟩
    · rintro (rfl | ⟨h, -⟩)
      · exact absurd rfl hkey
      · exact h

end Table

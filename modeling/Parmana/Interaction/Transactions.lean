import Mathlib.Data.Sigma.Basic
import Mathlib.Logic.Function.Basic

/-! # Transactions with row locks

A database keeps a value under each key.  A client locks the keys it reads for update and
stages what it writes; at the end all its writes take effect or none does.  A key is locked
by one client at a time, and nothing is staged under a key that is not locked.  So what a
client has read under a lock is there until it commits, whatever the others do in between:
that is `Unmoved`, and each step of another client is shown to be one.
-/
namespace Interaction

/-- The committed values, the client that has each key locked, what each client has staged,
and the clients whose writes have taken effect, in their order. -/
structure Database (κ : Type) (V : κ → Type) (ι : Type) where
  rows : (k : κ) → V k
  holder : κ → Option ι
  staged : ι → List (Sigma V)
  journal : List ι

namespace Database
variable {κ ι : Type} {V : κ → Type} [DecidableEq κ] [DecidableEq ι]

/-- The values after some writes, one after another. -/
def apply (rows : (k : κ) → V k) (writes : List (Sigma V)) : (k : κ) → V k :=
  writes.foldl (fun rows w => Function.update rows w.1 w.2) rows

omit [DecidableEq ι] in
@[simp] theorem apply_nil (rows : (k : κ) → V k) : apply rows [] = rows := rfl

omit [DecidableEq ι] in
@[simp] theorem apply_cons (rows : (k : κ) → V k) (w : Sigma V) (writes : List (Sigma V)) :
    apply rows (w :: writes) = apply (Function.update rows w.1 w.2) writes := rfl

section Steps
variable (db : Database κ V ι) (i : ι)

/-- No other client has the key locked. -/
def Free (k : κ) : Prop := db.holder k = none ∨ db.holder k = some i

/-- Locks a key. -/
def lock (k : κ) : Database κ V ι := { db with holder := Function.update db.holder k (some i) }

/-- Stages a write. -/
def stage (w : Sigma V) : Database κ V ι :=
  { db with staged := Function.update db.staged i (db.staged i ++ [w]) }

/-- Gives up the locks, and what is staged. -/
def rollback : Database κ V ι :=
  { db with
    holder := fun k => if db.holder k = some i then none else db.holder k
    staged := Function.update db.staged i [] }

/-- Makes what is staged take effect. -/
def commit : Database κ V ι :=
  { db.rollback i with
    rows := apply db.rows (db.staged i)
    journal := db.journal ++ [i] }

/-- One write outside a transaction. -/
def write (w : Sigma V) : Database κ V ι :=
  { db with rows := apply db.rows [w], journal := db.journal ++ [i] }

/-- Nothing is staged under a key that is not locked. -/
def Guarded : Prop := ∀ i, ∀ w ∈ db.staged i, db.holder w.1 = some i

end Steps

/-! ## What the others do -/

/-- What a client can count on while others move: its locks and what is under them, what it
has staged, and whether its writes have taken effect. -/
structure Unmoved (i : ι) (db db' : Database κ V ι) : Prop where
  holder : ∀ k, db.holder k = some i → db'.holder k = some i
  rows : ∀ k, db.holder k = some i → db'.rows k = db.rows k
  staged : db'.staged i = db.staged i
  journal : i ∈ db'.journal ↔ i ∈ db.journal

variable {db db' db'' : Database κ V ι} {i j : ι} {k : κ} {w : Sigma V}

omit [DecidableEq κ] [DecidableEq ι] in
theorem Unmoved.refl : Unmoved i db db := ⟨fun _ => id, fun _ _ => rfl, rfl, Iff.rfl⟩

omit [DecidableEq κ] [DecidableEq ι] in
theorem Unmoved.trans (h : Unmoved i db db') (h' : Unmoved i db' db'') : Unmoved i db db'' :=
  ⟨fun k hk => h'.holder k (h.holder k hk),
    fun k hk => (h'.rows k (h.holder k hk)).trans (h.rows k hk),
    h'.staged.trans h.staged, h'.journal.trans h.journal⟩

omit [DecidableEq ι] in
theorem apply_of_not_written {rows : (k : κ) → V k} {writes : List (Sigma V)}
    (h : ∀ w ∈ writes, w.1 ≠ k) : apply rows writes k = rows k := by
  induction writes generalizing rows with
  | nil => rfl
  | cons w writes ih =>
    refine (ih fun w' hw' => h w' (List.mem_cons_of_mem _ hw')).trans ?_
    exact Function.update_of_ne (Ne.symm (h w List.mem_cons_self)) _ _

omit [DecidableEq κ] [DecidableEq ι] in
theorem ne_of_free (hfree : db.Free j k) (hij : i ≠ j) {k' : κ} (hk : db.holder k' = some i) :
    k' ≠ k := by
  rintro rfl
  rcases hfree with hnone | hheld
  · rw [hnone] at hk
    cases hk
  · rw [hheld] at hk
    exact hij (Option.some.inj hk).symm

omit [DecidableEq ι] in
theorem unmoved_lock (hfree : db.Free j k) (hij : i ≠ j) : Unmoved i db (db.lock j k) := by
  refine ⟨fun k' hk => ?_, fun _ _ => rfl, rfl, Iff.rfl⟩
  exact (Function.update_of_ne (ne_of_free hfree hij hk) _ _).trans hk

omit [DecidableEq κ] in
theorem unmoved_stage (hij : i ≠ j) : Unmoved i db (db.stage j w) :=
  ⟨fun _ => id, fun _ _ => rfl, Function.update_of_ne hij _ _, Iff.rfl⟩

omit [DecidableEq κ] in
theorem unmoved_rollback (hij : i ≠ j) : Unmoved i db (db.rollback j) := by
  refine ⟨fun k hk => ?_, fun _ _ => rfl, Function.update_of_ne hij _ _, Iff.rfl⟩
  refine (if_neg ?_).trans hk
  rw [hk]
  exact fun h => hij (Option.some.inj h)

omit [DecidableEq ι] in
theorem mem_snoc_iff {order : List ι} (hij : i ≠ j) : i ∈ order ++ [j] ↔ i ∈ order := by
  rw [List.mem_append, List.mem_singleton, or_iff_left hij]

theorem unmoved_commit (hguarded : db.Guarded) (hij : i ≠ j) : Unmoved i db (db.commit j) := by
  have hback : Unmoved i db (db.rollback j) := unmoved_rollback hij
  refine ⟨hback.holder, fun k hk => apply_of_not_written ?_, hback.staged, mem_snoc_iff hij⟩
  rintro w hw rfl
  rw [hguarded j w hw] at hk
  exact hij (Option.some.inj hk).symm

omit [DecidableEq ι] in
theorem unmoved_write (hnone : db.holder w.1 = none) (hij : i ≠ j) :
    Unmoved i db (db.write j w) := by
  refine ⟨fun _ => id, fun k hk => apply_of_not_written ?_, rfl, mem_snoc_iff hij⟩
  rintro w' hw' rfl
  rw [List.mem_singleton.mp hw', hnone] at hk
  cases hk

/-! ## A client's own steps -/

omit [DecidableEq ι] in
@[simp] theorem holder_lock : (db.lock i k).holder k = some i := Function.update_self ..

omit [DecidableEq ι] in
theorem holder_lock_of_held {k' : κ} (h : db.holder k' = some i) :
    (db.lock i k).holder k' = some i := by
  by_cases hk : k' = k
  · rw [hk, holder_lock]
  · exact (Function.update_of_ne hk _ _).trans h

omit [DecidableEq κ] in
@[simp] theorem staged_stage : (db.stage i w).staged i = db.staged i ++ [w] :=
  Function.update_self ..

omit [DecidableEq κ] in
@[simp] theorem staged_rollback : (db.rollback i).staged i = [] := Function.update_self ..

/-! ## Nothing unlocked is staged -/

omit [DecidableEq ι] in
theorem Guarded.lock (h : db.Guarded) (hfree : db.Free j k) : (db.lock j k).Guarded := by
  intro i w hw
  have hheld := h i w hw
  by_cases hij : i = j
  · subst hij
    by_cases hk : w.1 = k
    · rw [hk]
      exact Function.update_self ..
    · exact (Function.update_of_ne hk _ _).trans hheld
  · exact (unmoved_lock hfree hij).holder w.1 hheld

omit [DecidableEq κ] in
theorem Guarded.stage (h : db.Guarded) (hheld : db.holder w.1 = some j) :
    (db.stage j w).Guarded := by
  intro i w' hw'
  by_cases hij : i = j
  · subst hij
    rw [staged_stage, List.mem_append, List.mem_singleton] at hw'
    rcases hw' with hw' | rfl
    · exact h i w' hw'
    · exact hheld
  · rw [(unmoved_stage hij).staged] at hw'
    exact h i w' hw'

omit [DecidableEq κ] in
theorem Guarded.rollback (h : db.Guarded) : (db.rollback j).Guarded := by
  intro i w hw
  by_cases hij : i = j
  · subst hij
    rw [staged_rollback] at hw
    cases hw
  · have hback : Unmoved i db (db.rollback j) := unmoved_rollback hij
    rw [hback.staged] at hw
    exact hback.holder w.1 (h i w hw)

theorem Guarded.commit (h : db.Guarded) : (db.commit j).Guarded := h.rollback

omit [DecidableEq ι] in
theorem Guarded.write (h : db.Guarded) : (db.write j w).Guarded := h

end Database
end Interaction

import Mathlib.Data.List.Basic
import Mathlib.Logic.Function.Basic
import Mathlib.Tactic.Common

/-! # A table that rows are added to

A client adds rows to a table in a transaction: they are there for the others when it commits.
Each row gets the next number of a sequence when it is inserted, so that in general numbers are
not given out in the order of the commits.

Some rows have a key, and a client that inserts such a row has the key locked until its
transaction ends.  Then the rows of a key are committed in the order of their numbers
(`Ordered`), and what a client has read of them under its lock is still all there is when it
commits (`Unmoved`).  Rows without a key may be added at any time.
-/
namespace Interaction

/-- The committed rows, each with its number, the next number, the client that has each key
locked, and what each client has inserted. -/
structure LockedTable (κ R ι : Type) where
  rows : List (Nat × R)
  nextId : Nat
  holder : κ → Option ι
  staged : ι → List (Nat × R)

namespace LockedTable
variable {κ R ι : Type} [DecidableEq κ] [DecidableEq ι]

section Steps
variable (t : LockedTable κ R ι) (i : ι)

/-- No other client has the key locked. -/
def Free (k : κ) : Prop := t.holder k = none ∨ t.holder k = some i

/-- Locks a key. -/
def lock (k : κ) : LockedTable κ R ι := { t with holder := Function.update t.holder k (some i) }

/-- Inserts a row in a transaction. -/
def insert (row : R) : LockedTable κ R ι :=
  { t with
    nextId := t.nextId + 1
    staged := Function.update t.staged i (t.staged i ++ [(t.nextId, row)]) }

/-- Gives up the locks, and what was inserted. -/
def rollback : LockedTable κ R ι :=
  { t with
    holder := fun k => if t.holder k = some i then none else t.holder k
    staged := Function.update t.staged i [] }

/-- Commits what was inserted, and gives up the locks. -/
def commit : LockedTable κ R ι := { t.rollback i with rows := t.rows ++ t.staged i }

/-- Adds a row outside a transaction. -/
def add (row : R) : LockedTable κ R ι :=
  { t with
    nextId := t.nextId + 1
    rows := t.rows ++ [(t.nextId, row)] }

end Steps

variable (key : R → Option κ)

/-- The rows of a key. -/
def under (k : κ) (rows : List (Nat × R)) : List (Nat × R) :=
  rows.filter fun row => key row.2 = some k

/-- The rows of a key, and those that the client that has it locked has inserted. -/
def line (t : LockedTable κ R ι) (k : κ) : List (Nat × R) :=
  under key k t.rows ++ (t.holder k).elim [] fun i => under key k (t.staged i)

/-- Only a client that has a key locked has inserted rows of it, and the rows of each key have
increasing numbers. -/
structure Ordered (t : LockedTable κ R ι) : Prop where
  locked : ∀ i, ∀ row ∈ t.staged i, ∃ k, key row.2 = some k ∧ t.holder k = some i
  before : ∀ k, ∀ row ∈ t.line key k, row.1 < t.nextId
  increasing : ∀ k, (t.line key k).Pairwise fun a b => a.1 < b.1

/-- What a client can count on while others move: its locks, the rows under them, and what it
has inserted. -/
structure Unmoved (i : ι) (t t' : LockedTable κ R ι) : Prop where
  holder : ∀ k, t.holder k = some i → t'.holder k = some i
  rows : ∀ k, t.holder k = some i → under key k t'.rows = under key k t.rows
  staged : t'.staged i = t.staged i

variable {key} {t t' t'' : LockedTable κ R ι} {i j : ι} {k : κ} {row : R}

omit [DecidableEq ι] in
@[simp] theorem under_append (rows more : List (Nat × R)) :
    under key k (rows ++ more) = under key k rows ++ under key k more := List.filter_append ..

omit [DecidableEq ι] in
theorem under_eq_nil {rows : List (Nat × R)} (h : ∀ row ∈ rows, key row.2 ≠ some k) :
    under key k rows = [] := by
  refine List.filter_eq_nil_iff.mpr fun row hrow => ?_
  rw [decide_eq_true_eq]
  exact h row hrow

omit [DecidableEq ι] in
theorem under_singleton {n : Nat} (h : key row = some k) : under key k [(n, row)] = [(n, row)] :=
  List.filter_eq_self.mpr fun r hr => by
    rw [List.mem_singleton.mp hr]
    exact decide_eq_true h

omit [DecidableEq κ] in
@[simp] theorem staged_insert : (t.insert i row).staged i = t.staged i ++ [(t.nextId, row)] :=
  Function.update_self ..

omit [DecidableEq κ] in
@[simp] theorem staged_rollback : (t.rollback i).staged i = [] := Function.update_self ..

omit [DecidableEq ι] in
@[simp] theorem holder_lock : (t.lock i k).holder k = some i := Function.update_self ..

omit [DecidableEq ι] in
/-- A row without a key is under none. -/
theorem under_add (hkey : key row = none) : under key k (t.add row).rows = under key k t.rows := by
  have hnew : under key k [(t.nextId, row)] = [] := by
    refine under_eq_nil fun r hr => ?_
    rw [List.mem_singleton.mp hr, hkey]
    exact (Option.some_ne_none k).symm
  exact (under_append ..).trans (by rw [hnew, List.append_nil])

/-! ## What the others do -/

section
omit [DecidableEq ι]

theorem Unmoved.refl : Unmoved key i t t := ⟨fun _ => id, fun _ _ => rfl, rfl⟩

theorem Unmoved.trans (h : Unmoved key i t t') (h' : Unmoved key i t' t'') :
    Unmoved key i t t'' :=
  ⟨fun k hk => h'.holder k (h.holder k hk),
    fun k hk => (h'.rows k (h.holder k hk)).trans (h.rows k hk), h'.staged.trans h.staged⟩

omit [DecidableEq κ] in
theorem ne_of_free (hfree : t.Free j k) (hij : i ≠ j) {k' : κ} (hk : t.holder k' = some i) :
    k' ≠ k := by
  rintro rfl
  rcases hfree with hnone | hheld
  · rw [hnone] at hk
    cases hk
  · rw [hheld] at hk
    exact hij (Option.some.inj hk).symm

theorem unmoved_lock (hfree : t.Free j k) (hij : i ≠ j) : Unmoved key i t (t.lock j k) := by
  refine ⟨fun k' hk => ?_, fun _ _ => rfl, rfl⟩
  exact (Function.update_of_ne (ne_of_free hfree hij hk) _ _).trans hk

end

theorem unmoved_insert (hij : i ≠ j) : Unmoved key i t (t.insert j row) :=
  ⟨fun _ => id, fun _ _ => rfl, Function.update_of_ne hij _ _⟩

theorem unmoved_rollback (hij : i ≠ j) : Unmoved key i t (t.rollback j) := by
  refine ⟨fun k hk => ?_, fun _ _ => rfl, Function.update_of_ne hij _ _⟩
  refine (if_neg ?_).trans hk
  rw [hk]
  exact fun h => hij (Option.some.inj h)

omit [DecidableEq ι] in
/-- A client has inserted nothing of a key that it has not locked. -/
theorem Ordered.under_staged (h : t.Ordered key) (hheld : t.holder k ≠ some i) :
    under key k (t.staged i) = [] := by
  refine under_eq_nil fun row hrow hkey => hheld ?_
  obtain ⟨k', hkey', hholder⟩ := h.locked i row hrow
  rw [hkey] at hkey'
  rwa [Option.some.inj hkey']

theorem unmoved_commit (h : t.Ordered key) (hij : i ≠ j) : Unmoved key i t (t.commit j) := by
  have hback : Unmoved key i t (t.rollback j) := unmoved_rollback hij
  refine ⟨hback.holder, fun k hk => ?_, hback.staged⟩
  have hheld : t.holder k ≠ some j := by
    rw [hk]
    exact fun h => hij (Option.some.inj h)
  exact (under_append ..).trans (by rw [h.under_staged hheld, List.append_nil])

omit [DecidableEq ι] in
theorem unmoved_add (hkey : key row = none) : Unmoved key i t (t.add row) := by
  refine ⟨fun _ => id, fun k _ => ?_, rfl⟩
  exact under_add hkey

/-! ## The order of the rows -/

omit [DecidableEq ι] in
theorem line_of_holder (hheld : t.holder k = some i) :
    t.line key k = under key k t.rows ++ under key k (t.staged i) := by
  unfold line
  rw [hheld]
  rfl

omit [DecidableEq ι] in
theorem line_of_none (hnone : t.holder k = none) : t.line key k = under key k t.rows := by
  unfold line
  rw [hnone]
  exact List.append_nil _

omit [DecidableEq ι] in
/-- The committed rows of a key are in the order of their numbers. -/
theorem Ordered.rows (h : t.Ordered key) (k : κ) :
    (under key k t.rows).Pairwise fun a b => a.1 < b.1 :=
  (List.pairwise_append.mp (h.increasing k)).1

omit [DecidableEq ι] in
theorem Ordered.of_line (h : t.Ordered key)
    (hlocked : ∀ i, ∀ row ∈ t'.staged i, ∃ k, key row.2 = some k ∧ t'.holder k = some i)
    (hnext : t.nextId ≤ t'.nextId) (hline : ∀ k, (t'.line key k).Sublist (t.line key k)) :
    t'.Ordered key :=
  ⟨hlocked, fun k row hrow => Nat.lt_of_lt_of_le (h.before k row ((hline k).subset hrow)) hnext,
    fun k => (h.increasing k).sublist (hline k)⟩

omit [DecidableEq ι] in
/-- A line that is the same is no longer. -/
theorem sublist_of_line {k' : κ} (h : t'.line key k' = t.line key k') :
    (t'.line key k').Sublist (t.line key k') := by rw [h]

omit [DecidableEq ι] in
theorem Ordered.lock (h : t.Ordered key) (hfree : t.Free j k) : (t.lock j k).Ordered key := by
  have hholder : ∀ k' i, t.holder k' = some i → (t.lock j k).holder k' = some i := by
    intro k' i hk'
    by_cases hk : k' = k
    · subst hk
      have hij : i = j := by
        rcases hfree with hnone | hheld
        · rw [hnone] at hk'
          cases hk'
        · rw [hheld] at hk'
          exact (Option.some.inj hk').symm
      rw [hij]
      exact Function.update_self ..
    · exact (Function.update_of_ne hk _ _).trans hk'
  refine h.of_line (fun i row hrow => ?_) (Nat.le_refl _) fun k' => sublist_of_line ?_
  · obtain ⟨k', hkey, hk'⟩ := h.locked i row hrow
    exact ⟨k', hkey, hholder k' i hk'⟩
  · by_cases hk : k' = k
    · subst hk
      rw [line_of_holder (Function.update_self ..)]
      rcases hfree with hnone | hheld
      · have hstaged : under key k' (t.staged j) = [] := by
          refine h.under_staged ?_
          rw [hnone]
          exact (Option.some_ne_none j).symm
        rw [line_of_none hnone]
        exact (congrArg (under key k' t.rows ++ ·) hstaged).trans (List.append_nil _)
      · rw [line_of_holder hheld]
        rfl
    · unfold line
      rw [show (t.lock j k).holder k' = t.holder k' from Function.update_of_ne hk _ _]
      rfl

theorem Ordered.rollback (h : t.Ordered key) : (t.rollback j).Ordered key := by
  refine h.of_line (fun i row hrow => ?_) (Nat.le_refl _) fun k => ?_
  · by_cases hij : i = j
    · subst hij
      rw [staged_rollback] at hrow
      cases hrow
    · have hback : Unmoved key i t (t.rollback j) := unmoved_rollback hij
      rw [hback.staged] at hrow
      obtain ⟨k, hkey, hk⟩ := h.locked i row hrow
      exact ⟨k, hkey, hback.holder k hk⟩
  · by_cases hheld : t.holder k = some j
    · have hnone : (t.rollback j).holder k = none := if_pos hheld
      rw [line_of_none hnone, line_of_holder hheld]
      exact List.sublist_append_left ..
    · have hsame : (t.rollback j).holder k = t.holder k := if_neg hheld
      unfold line
      rw [hsame]
      cases hi : t.holder k with
      | none => exact List.Sublist.refl _
      | some i =>
        have hij : i ≠ j := fun hij => hheld (by rw [hi, hij])
        have hback : Unmoved key i t (t.rollback j) := unmoved_rollback hij
        show (under key k t.rows ++ under key k ((t.rollback j).staged i)).Sublist _
        rw [hback.staged]
        exact List.Sublist.refl _

theorem Ordered.commit (h : t.Ordered key) : (t.commit j).Ordered key := by
  have hback := h.rollback (j := j)
  refine h.of_line hback.locked (Nat.le_refl _) fun k => sublist_of_line ?_
  by_cases hheld : t.holder k = some j
  · have hnone : (t.commit j).holder k = none := if_pos hheld
    rw [line_of_none hnone, line_of_holder hheld]
    exact under_append ..
  · have hsame : (t.commit j).holder k = t.holder k := if_neg hheld
    have hrows : under key k (t.commit j).rows = under key k t.rows :=
      (under_append ..).trans (by rw [h.under_staged hheld, List.append_nil])
    unfold line
    rw [hsame, hrows]
    cases hi : t.holder k with
    | none => rfl
    | some i =>
      have hij : i ≠ j := fun hij => hheld (by rw [hi, hij])
      have hback : Unmoved key i t (t.rollback j) := unmoved_rollback hij
      exact congrArg (fun staged => under key k t.rows ++ under key k staged) hback.staged

omit [DecidableEq ι] in
theorem Ordered.add (h : t.Ordered key) (hkey : key row = none) : (t.add row).Ordered key := by
  refine h.of_line h.locked (Nat.le_succ _) fun k => sublist_of_line ?_
  unfold line
  rw [under_add hkey]
  rfl

theorem Ordered.insert (h : t.Ordered key) (hkey : key row = some k)
    (hheld : t.holder k = some j) : (t.insert j row).Ordered key := by
  have hline : (t.insert j row).line key k = t.line key k ++ [(t.nextId, row)] := by
    rw [line_of_holder hheld,
      line_of_holder (t := t.insert j row) (k := k) (i := j) hheld, staged_insert,
      under_append, under_singleton hkey, List.append_assoc]
    rfl
  have hother : ∀ k', k' ≠ k → (t.insert j row).line key k' = t.line key k' := by
    intro k' hk
    unfold line
    show under key k' t.rows ++ (t.holder k').elim [] _ = _
    cases hi : t.holder k' with
    | none => rfl
    | some i =>
      refine congrArg (under key k' t.rows ++ ·) ?_
      by_cases hij : i = j
      · subst hij
        show under key k' ((t.insert i row).staged i) = under key k' (t.staged i)
        have hnew : under key k' [(t.nextId, row)] = [] := by
          refine under_eq_nil fun r hr => ?_
          rw [List.mem_singleton.mp hr, hkey]
          exact fun h => hk (Option.some.inj h).symm
        rw [staged_insert, under_append, hnew, List.append_nil]
      · have hinsert : Unmoved key i t (t.insert j row) := unmoved_insert hij
        exact congrArg (under key k') hinsert.staged
  refine ⟨fun i r hr => ?_, fun k' r hr => ?_, fun k' => ?_⟩
  · by_cases hij : i = j
    · subst hij
      rw [staged_insert, List.mem_append, List.mem_singleton] at hr
      rcases hr with hr | rfl
      · exact h.locked i r hr
      · exact ⟨k, hkey, hheld⟩
    · have hinsert : Unmoved key i t (t.insert j row) := unmoved_insert hij
      rw [hinsert.staged] at hr
      exact h.locked i r hr
  · by_cases hk : k' = k
    · subst hk
      rw [hline, List.mem_append, List.mem_singleton] at hr
      rcases hr with hr | rfl
      · exact Nat.lt_succ_of_lt (h.before k' r hr)
      · exact Nat.lt_succ_self _
    · rw [hother k' hk] at hr
      exact Nat.lt_succ_of_lt (h.before k' r hr)
  · by_cases hk : k' = k
    · subst hk
      rw [hline, List.pairwise_append]
      refine ⟨h.increasing k', List.pairwise_singleton _ _, fun a ha b hb => ?_⟩
      rw [List.mem_singleton.mp hb]
      exact h.before k' a ha
    · rw [hother k' hk]
      exact h.increasing k'

end LockedTable
end Interaction

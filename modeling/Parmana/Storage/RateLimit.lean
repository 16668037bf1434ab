import Mathlib.Algebra.Order.Ring.Int
import Mathlib.Tactic.Common

/-! # The rate limit of a fleet

Every process counts the calls of a caller in one row of one table, with one statement for
an increment: it makes the row, or counts up, or starts a new window when the row's is
over.  The statement reads the clock of the database; the time at which the window of a
new row ends is handed to it, and was read from the clock of the process.

A window that follows another lasts as long as it should on the database's clock, whatever
the clocks of the processes say.  The first one does exactly when the clock of the process
that makes the row agrees (`counts_iff`).

Times are microseconds of the database's clock, and the clock of a process gives
milliseconds.
-/
namespace Parmana.RateLimit

/-! ## The store -/

/-- A row of `rate_limit_counters`.  The count is an `INTEGER` column of 32 bits, in which an
increment past the largest fails; it is a number without a bound here. -/
structure RateLimitRow where
  count : Nat
  resetTime : Int
  deriving DecidableEq

/-- An increment: what `Date.now()` gives its process, and what `now()` gives the
statement.  Nothing relates the two. -/
structure Increment where
  clock : Int
  now : Int

/-- `INCREMENT_SQL` on the row of the key: what the row becomes, which is what is
returned. -/
def incrementSql (row : Option RateLimitRow) (resetTime : Int) (windowMs : Nat) (now : Int) :
    RateLimitRow :=
  match row with
  | none => { count := 1, resetTime := resetTime }
  | some row =>
    { count := if row.resetTime ≤ now then 1 else row.count + 1
      resetTime := if row.resetTime ≤ now then now + windowMs * 1000 else row.resetTime }

/-- `PostgresRateLimitStore.increment`. -/
def increment (windowMs : Nat) (row : Option RateLimitRow) (call : Increment) : RateLimitRow :=
  incrementSql row ((call.clock + windowMs) * 1000) windowMs call.now

/-- What the increments of a key return, in the order in which the database runs their
statements. -/
def answers (windowMs : Nat) (row : Option RateLimitRow) : List Increment → List RateLimitRow
  | [] => []
  | call :: calls =>
    increment windowMs row call :: answers windowMs (some (increment windowMs row call)) calls

/-! ## Counting windows -/

/-- A counting window: when the increment that opened it ran, and how many are in it. -/
structure Window where
  openedAt : Int
  count : Nat

namespace Window
variable (windowMs : Nat)

def endsAt (window : Window) : Int := window.openedAt + windowMs * 1000

/-- What an increment in the window should return. -/
def row (window : Window) : RateLimitRow where
  count := window.count
  resetTime := window.endsAt windowMs

/-- The window an increment at the time `now` is in, and how many are in it then: the last
window, or a new one when there is none or it is over. -/
def next (last : Option Window) (now : Int) : Window :=
  match last with
  | none => { openedAt := now, count := 1 }
  | some window =>
    if window.endsAt windowMs ≤ now then { openedAt := now, count := 1 }
    else { window with count := window.count + 1 }

/-- The windows of the increments at the given times. -/
def each (last : Option Window) : List Int → List Window
  | [] => []
  | now :: nows => next windowMs last now :: each (some (next windowMs last now)) nows

end Window

/-! ## The store counts windows -/

section
variable {windowMs : Nat}

/-- With a row, an increment reads no clock but the database's. -/
theorem increment_some (window : Window) (call : Increment) :
    increment windowMs (some (window.row windowMs)) call =
      (Window.next windowMs (some window) call.now).row windowMs := by
  unfold increment incrementSql Window.next
  dsimp only
  by_cases hover : window.endsAt windowMs ≤ call.now
  · have hreset : (window.row windowMs).resetTime ≤ call.now := hover
    rw [if_pos hreset, if_pos hreset, if_pos hover]
    rfl
  · have hreset : ¬ (window.row windowMs).resetTime ≤ call.now := hover
    rw [if_neg hreset, if_neg hreset, if_neg hover]
    rfl

/-- From a row that counts a window, every increment is counted. -/
theorem answers_some (window : Window) (calls : List Increment) :
    answers windowMs (some (window.row windowMs)) calls =
      (Window.each windowMs (some window) (calls.map Increment.now)).map (Window.row windowMs) := by
  induction calls generalizing window with
  | nil => rfl
  | cons call calls ih =>
    rw [answers, increment_some, ih]
    rfl

/-- The first increment opens the window that should be opened when its process has the
database's time. -/
theorem increment_none_iff (call : Increment) :
    increment windowMs none call = (Window.next windowMs none call.now).row windowMs ↔
      call.clock * 1000 = call.now := by
  have hrow : increment windowMs none call = { count := 1, resetTime := (call.clock + windowMs) * 1000 } :=
    rfl
  have hopened : (Window.next windowMs none call.now).row windowMs =
      { count := 1, resetTime := call.now + windowMs * 1000 } := rfl
  rw [hrow, hopened, RateLimitRow.mk.injEq]
  omega

/-- **Every counting window lasts `windowMs` of database time from the increment that opened
it, and the `k`-th increment inside it returns `k`, exactly when the process of the increment
that makes the row has the database's time.** -/
theorem counts_iff (calls : List Increment) :
    answers windowMs none calls =
        (Window.each windowMs none (calls.map Increment.now)).map (Window.row windowMs) ↔
      ∀ first ∈ calls.head?, first.clock * 1000 = first.now := by
  cases calls with
  | nil =>
    constructor
    · rintro - first ⟨⟩
    · rintro -
      rfl
  | cons call calls =>
    have hhead : (∀ first ∈ (call :: calls).head?, first.clock * 1000 = first.now) ↔
        call.clock * 1000 = call.now := by
      simp
    rw [hhead, ← @increment_none_iff windowMs, answers, List.map_cons, Window.each,
      List.map_cons, List.cons.injEq]
    constructor
    · exact And.left
    · intro hfirst
      exact ⟨hfirst, by rw [hfirst, answers_some]⟩

end

/-- Two increments within a microsecond, of processes whose clocks are a minute behind the
database's. -/
def behind : List Increment := [⟨0, 60000000⟩, ⟨0, 60000001⟩]

/-- The window of a minute is over at once, and the second increment is counted as the first
of another. -/
theorem behind_not_counted :
    (answers 60000 none behind).map RateLimitRow.count = [1, 1] ∧
      (Window.each 60000 none (behind.map Increment.now)).map Window.count = [1, 2] ∧
      answers 60000 none behind ≠
        (Window.each 60000 none (behind.map Increment.now)).map (Window.row 60000) := by
  decide

end Parmana.RateLimit

import Mathlib.Order.WithBot
import Parmana.Js.Order

/-! # Comparing numbers

`<`, `<=` and `===` on numbers other than `NaN` are the order of a line: the finite
numbers at the rationals they denote, the two zeros at the same place, and an infinity
at either end (`rank`).  What holds of a line holds of them (`lt_iff`, `le_iff`,
`eq_iff`).

A `Ray` is the part of the line on one side of a number.  Two rays that point the same
way meet, at the infinity they point to if nowhere else; two that point towards each
other meet when one bound is beyond the other, unless both bounds are left out and no
number lies between them (`Neighbours`), and when the bounds are one number and both
rays hold it.
-/
namespace Js
namespace JsNumber

/-- Where a number stands on the line. -/
def rank : JsNumber → WithBot (WithTop ℚ)
  | .nan | .negZero => ((0 : ℚ) : WithTop ℚ)
  | .posInf => (⊤ : WithTop ℚ)
  | .negInf => ⊥
  | .finite d => ((d.val.toRat : ℚ) : WithTop ℚ)

theorem rank_merge (a : JsNumber) : a.merge.rank = a.rank := by
  cases a <;> rfl

theorem below_iff {a b : JsNumber} (ha : a ≠ .negZero) (hb : b ≠ .negZero) :
    below a b = true ↔ a ≠ .nan ∧ b ≠ .nan ∧ a.rank < b.rank := by
  have hhigh (q : ℚ) : ((q : WithTop ℚ) : WithBot (WithTop ℚ)) < ⊤ :=
    WithBot.coe_lt_coe.mpr (WithTop.coe_lt_top q)
  cases a <;> cases b <;>
    simp [below, rank, Dyadic.toRat_lt_toRat_iff, hhigh] at ha hb ⊢

theorem merge_ne_negZero (a : JsNumber) : a.merge ≠ .negZero := by
  cases a <;> simp [merge, zero]

theorem lt_iff {a b : JsNumber} : lt a b = true ↔ a ≠ .nan ∧ b ≠ .nan ∧ a.rank < b.rank := by
  unfold lt
  rw [below_iff (merge_ne_negZero a) (merge_ne_negZero b), rank_merge, rank_merge]
  simp only [ne_eq, merge_eq_nan]

theorem eq_of_rank {a b : JsNumber} (ha : a ≠ .nan ∧ a ≠ .negZero) (hb : b ≠ .nan ∧ b ≠ .negZero)
    (h : a.rank = b.rank) : a = b := by
  cases a <;> cases b <;> simp [rank, Dyadic.toRat_inj] at ha hb h ⊢
  rename_i x y
  cases x
  cases y
  cases h
  rfl

/-- Two numbers at one place are one number, up to the sign of a zero. -/
theorem rank_inj {a b : JsNumber} (ha : a ≠ .nan) (hb : b ≠ .nan) :
    a.merge = b.merge ↔ a.rank = b.rank := by
  constructor
  · intro h
    rw [← rank_merge a, ← rank_merge b, h]
  · intro h
    rw [← rank_merge a, ← rank_merge b] at h
    exact eq_of_rank ⟨fun hnan => ha (merge_eq_nan.mp hnan), merge_ne_negZero a⟩
      ⟨fun hnan => hb (merge_eq_nan.mp hnan), merge_ne_negZero b⟩ h

theorem eq_iff {a b : JsNumber} : eq a b = true ↔ a ≠ .nan ∧ b ≠ .nan ∧ a.rank = b.rank := by
  unfold eq
  simp only [ne_eq, decide_not, Bool.and_eq_true, Bool.not_eq_true', decide_eq_false_iff_not,
    beq_iff_eq]
  refine ⟨fun ⟨ha, h⟩ => ?_, fun ⟨ha, hb, h⟩ => ⟨ha, (rank_inj ha hb).mpr h⟩⟩
  have hb : b ≠ .nan := fun hb => ha (merge_eq_nan.mp (h.trans (merge_eq_nan.mpr hb)))
  exact ⟨ha, hb, (rank_inj ha hb).mp h⟩

theorem le_iff {a b : JsNumber} : le a b = true ↔ a ≠ .nan ∧ b ≠ .nan ∧ a.rank ≤ b.rank := by
  unfold le
  rw [Bool.or_eq_true, lt_iff, eq_iff, le_iff_lt_or_eq]
  tauto

/-! ## Rays -/

/-- The way a ray points: to the numbers below its bound, or to those above it. -/
inductive Direction where
  | upper
  | lower
  deriving DecidableEq, Repr

/-- The numbers on one side of a bound, which is one of them when it is inclusive. -/
structure Ray where
  direction : Direction
  bound : JsNumber
  inclusive : Bool

/-- Whether a number is on the ray. -/
def Ray.contains (r : Ray) (n : JsNumber) : Bool :=
  match r.direction, r.inclusive with
  | .upper, false => lt n r.bound
  | .upper, true => le n r.bound
  | .lower, false => lt r.bound n
  | .lower, true => le r.bound n

/-- The second number is the next after the first: none lies between them. -/
def Neighbours (a b : JsNumber) : Prop := lt a b = true ∧ ∀ n, ¬ (lt a n = true ∧ lt n b = true)

/-- Two open rays that point towards each other, with nothing between their bounds. -/
def Ray.Apart (upper lower : Ray) : Prop :=
  upper.direction = .upper ∧ lower.direction = .lower ∧ upper.inclusive = false ∧
    lower.inclusive = false ∧ Neighbours lower.bound upper.bound

theorem Ray.contains_upper {r : Ray} (h : r.direction = .upper) {n : JsNumber} :
    r.contains n = true ↔ n ≠ .nan ∧ r.bound ≠ .nan ∧ n.rank ≤ r.bound.rank ∧
      (r.inclusive = false → n.rank < r.bound.rank) := by
  unfold contains
  rw [h]
  cases r.inclusive with
  | false =>
    rw [lt_iff]
    exact ⟨fun ⟨hn, hb, hlt⟩ => ⟨hn, hb, hlt.le, fun _ => hlt⟩,
      fun ⟨hn, hb, _, hlt⟩ => ⟨hn, hb, hlt rfl⟩⟩
  | true =>
    rw [le_iff]
    exact ⟨fun ⟨hn, hb, hle⟩ => ⟨hn, hb, hle, fun h => absurd h (by simp)⟩,
      fun ⟨hn, hb, hle, _⟩ => ⟨hn, hb, hle⟩⟩

theorem Ray.contains_lower {r : Ray} (h : r.direction = .lower) {n : JsNumber} :
    r.contains n = true ↔ n ≠ .nan ∧ r.bound ≠ .nan ∧ r.bound.rank ≤ n.rank ∧
      (r.inclusive = false → r.bound.rank < n.rank) := by
  unfold contains
  rw [h]
  cases r.inclusive with
  | false =>
    rw [lt_iff]
    exact ⟨fun ⟨hb, hn, hlt⟩ => ⟨hn, hb, hlt.le, fun _ => hlt⟩,
      fun ⟨hn, hb, _, hlt⟩ => ⟨hb, hn, hlt rfl⟩⟩
  | true =>
    rw [le_iff]
    exact ⟨fun ⟨hb, hn, hle⟩ => ⟨hn, hb, hle, fun h => absurd h (by simp)⟩,
      fun ⟨hn, hb, hle, _⟩ => ⟨hb, hn, hle⟩⟩

/-- A finite number is on the line, between the infinities. -/
theorem finite_rank {n : JsNumber} (h : n.isFinite = true) :
    n ≠ .nan ∧ JsNumber.negInf.rank < n.rank ∧ n.rank < JsNumber.posInf.rank := by
  have hlow (q : ℚ) : (⊥ : WithBot (WithTop ℚ)) < ((q : WithTop ℚ) : WithBot (WithTop ℚ)) :=
    WithBot.bot_lt_coe _
  have hhigh (q : ℚ) : ((q : WithTop ℚ) : WithBot (WithTop ℚ)) < ((⊤ : WithTop ℚ)) :=
    WithBot.coe_lt_coe.mpr (WithTop.coe_lt_top q)
  cases n with
  | finite d => exact ⟨by simp, hlow _, hhigh _⟩
  | negZero => exact ⟨by simp, hlow _, hhigh _⟩
  | nan => cases h
  | posInf => cases h
  | negInf => cases h

/-- **Two rays that point the same way meet.** -/
theorem Ray.meet_of_direction {a b : Ray} (ha : a.bound.isFinite = true)
    (hb : b.bound.isFinite = true) (h : a.direction = b.direction) :
    ∃ n, a.contains n = true ∧ b.contains n = true := by
  obtain ⟨hanan, halow, hahigh⟩ := finite_rank ha
  obtain ⟨hbnan, hblow, hbhigh⟩ := finite_rank hb
  cases hd : a.direction with
  | upper =>
    exact ⟨.negInf, (contains_upper hd).mpr ⟨by simp, hanan, halow.le, fun _ => halow⟩,
      (contains_upper (h ▸ hd)).mpr ⟨by simp, hbnan, hblow.le, fun _ => hblow⟩⟩
  | lower =>
    exact ⟨.posInf, (contains_lower hd).mpr ⟨by simp, hanan, hahigh.le, fun _ => hahigh⟩,
      (contains_lower (h ▸ hd)).mpr ⟨by simp, hbnan, hbhigh.le, fun _ => hbhigh⟩⟩

section Facing
variable {upper lower : Ray} (hupper : upper.direction = .upper) (hlower : lower.direction = .lower)
include hupper hlower

/-- A number on two rays that point towards each other is between their bounds. -/
theorem Ray.bounds_of_meet {n : JsNumber} (hu : upper.contains n = true)
    (hl : lower.contains n = true) : lt lower.bound upper.bound = true ∨
      (lt upper.bound lower.bound = false ∧ upper.inclusive = true ∧ lower.inclusive = true) := by
  obtain ⟨-, hunan, hule, hult⟩ := (contains_upper hupper).mp hu
  obtain ⟨-, hlnan, hlle, hllt⟩ := (contains_lower hlower).mp hl
  by_cases hlt : lower.bound.rank < upper.bound.rank
  · exact .inl (lt_iff.mpr ⟨hlnan, hunan, hlt⟩)
  · refine .inr ⟨?_, ?_, ?_⟩
    · rw [← Bool.not_eq_true]
      intro h
      exact absurd (hlle.trans hule) (not_le.mpr (lt_iff.mp h).2.2)
    · by_contra hopen
      exact hlt (hlle.trans_lt (hult (by simpa using hopen)))
    · by_contra hopen
      exact hlt ((hllt (by simpa using hopen)).trans_le hule)

/-- **Two rays that point towards each other meet** when one bound is beyond the other,
unless they are apart. -/
theorem Ray.meet_of_lt (hlt : lt lower.bound upper.bound = true) (hapart : ¬ Apart upper lower) :
    ∃ n, upper.contains n = true ∧ lower.contains n = true := by
  obtain ⟨hlnan, hunan, hrank⟩ := lt_iff.mp hlt
  by_cases hu : upper.inclusive = true
  · exact ⟨upper.bound,
      (contains_upper hupper).mpr ⟨hunan, hunan, le_rfl, fun h => by simp [hu] at h⟩,
      (contains_lower hlower).mpr ⟨hunan, hlnan, hrank.le, fun _ => hrank⟩⟩
  by_cases hl : lower.inclusive = true
  · exact ⟨lower.bound, (contains_upper hupper).mpr ⟨hlnan, hunan, hrank.le, fun _ => hrank⟩,
      (contains_lower hlower).mpr ⟨hlnan, hlnan, le_rfl, fun h => by simp [hl] at h⟩⟩
  obtain ⟨n, hn⟩ : ∃ n, lt lower.bound n = true ∧ lt n upper.bound = true := by
    by_contra hnone
    exact hapart ⟨hupper, hlower, by simpa using hu, by simpa using hl, hlt,
      fun n hn => hnone ⟨n, hn⟩⟩
  obtain ⟨-, hnnan, hln⟩ := lt_iff.mp hn.1
  obtain ⟨-, -, hnu⟩ := lt_iff.mp hn.2
  exact ⟨n, (contains_upper hupper).mpr ⟨hnnan, hunan, hnu.le, fun _ => hnu⟩,
    (contains_lower hlower).mpr ⟨hnnan, hlnan, hln.le, fun _ => hln⟩⟩

/-- Two closed rays with one bound meet there. -/
theorem Ray.meet_of_inclusive (hu : upper.bound ≠ .nan) (hl : lower.bound ≠ .nan)
    (hupperIn : upper.inclusive = true) (hlowerIn : lower.inclusive = true)
    (hlt : ¬ lt upper.bound lower.bound = true) :
    ∃ n, upper.contains n = true ∧ lower.contains n = true := by
  have hle : lower.bound.rank ≤ upper.bound.rank := by
    by_contra h
    exact hlt (lt_iff.mpr ⟨hu, hl, not_le.mp h⟩)
  exact ⟨upper.bound,
    (contains_upper hupper).mpr ⟨hu, hu, le_rfl, fun h => by simp [hupperIn] at h⟩,
    (contains_lower hlower).mpr ⟨hu, hl, hle, fun h => by simp [hlowerIn] at h⟩⟩

/-- No number is on both of two rays that are apart. -/
theorem Ray.Apart.no_meet (h : Apart upper lower) (n : JsNumber) :
    ¬ (upper.contains n = true ∧ lower.contains n = true) := by
  obtain ⟨-, -, hu, hl, -, hnone⟩ := h
  rintro ⟨hupperIn, hlowerIn⟩
  obtain ⟨hn, hunan, -, hult⟩ := (contains_upper hupper).mp hupperIn
  obtain ⟨-, hlnan, -, hllt⟩ := (contains_lower hlower).mp hlowerIn
  exact hnone n ⟨lt_iff.mpr ⟨hlnan, hn, hllt hl⟩, lt_iff.mpr ⟨hn, hunan, hult hu⟩⟩

end Facing

end JsNumber
end Js

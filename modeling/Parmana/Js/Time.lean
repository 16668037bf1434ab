import Parmana.Js.NumberText

/-! # Times as numbers

A `Date` is a whole number of milliseconds within a hundred million days of the
epoch, or invalid.  Whatever number a date is made from, `timeClip` is the time it
holds.  A date made from the lesser of a number and a time is no later than that
time (`timeClip_min_le`), however the number came about.
-/
namespace Js

namespace JsNumber

/-- `a + b`. -/
def add : JsNumber → JsNumber → JsNumber
  | .nan, _ | _, .nan => .nan
  | .posInf, .negInf | .negInf, .posInf => .nan
  | .posInf, _ | _, .posInf => .posInf
  | .negInf, _ | _, .negInf => .negInf
  | .negZero, b => b
  | .finite a, .negZero => .finite a
  | .finite a, .finite b => round (a.val + b.val)

/-- `a * n`, for a positive integer `n`. -/
def mulNat : JsNumber → Nat → JsNumber
  | .finite d, n => round (d.val * n)
  | a, _ => a

/-- `Math.min(a, b)`. -/
def min (a b : JsNumber) : JsNumber :=
  if a = .nan ∨ b = .nan then .nan
  else if lt b a || (b = .negZero && eq a b) then b
  else a

end JsNumber

/-- The latest time of a date. -/
def maxTime : Nat := 8640000000000000

/-- The whole part of a dyadic. -/
def truncate : Dyadic → Int
  | .zero => 0
  | .ofOdd n k _ => if k ≤ 0 then n * 2 ^ (-k).toNat else n.tdiv (2 ^ k.toNat)

/-- The time of `new Date(a)`. -/
def timeClip : JsNumber → Option Int
  | .negZero => some 0
  | .finite d => if (truncate d.val).natAbs ≤ maxTime then some (truncate d.val) else none
  | _ => none

example : timeClip ((JsNumber.ofInt 1767225600000).add (.ofNat 30000)) = some 1767225630000 := by
  decide

/-- The whole part of a number is no greater than a whole number it is no greater than. -/
theorem truncate_le {d : Dyadic} {n : Int} (h : d.toRat ≤ n) : truncate d ≤ n := by
  cases d with
  | zero =>
    rw [Dyadic.zero_eq, Dyadic.toRat_zero] at h
    exact_mod_cast h
  | ofOdd m k hm =>
    rw [Dyadic.toRat_ofOdd_eq_mul_two_pow] at h
    show (if k ≤ 0 then m * 2 ^ (-k).toNat else m.tdiv (2 ^ k.toNat)) ≤ n
    by_cases hk : k ≤ 0
    · obtain ⟨j, rfl⟩ : ∃ j : Nat, k = -j := ⟨(-k).toNat, by omega⟩
      rw [if_pos hk, neg_neg, Int.toNat_natCast]
      rw [neg_neg, zpow_natCast] at h
      exact_mod_cast h
    · obtain ⟨j, rfl⟩ : ∃ j : Nat, k = j := ⟨k.toNat, by omega⟩
      rw [if_neg hk, Int.toNat_natCast]
      rw [zpow_neg, zpow_natCast, ← div_eq_mul_inv, div_le_iff₀ (by positivity)] at h
      have hmul : m ≤ n * 2 ^ j := by exact_mod_cast h
      have hpow : (0 : Int) < 2 ^ j := by positivity
      exact (Int.tdiv_le_tdiv hpow hmul).trans_eq (Int.mul_tdiv_cancel n hpow.ne')

/-- A number that is no greater than a time makes no later date. -/
theorem timeClip_le {x : JsNumber} {a t : Int} (ha : a.natAbs ≤ maxTime)
    (hle : x.le (JsNumber.ofInt a) = true) (h : timeClip x = some t) : t ≤ a := by
  obtain ⟨d, hd, hval⟩ := JsNumber.ofInt_finite (ha.trans_lt (by decide : maxTime < 2 ^ 53))
  rw [hd] at hle
  have hcompare : ∀ e : Double, JsNumber.le (.finite e) (.finite d) = true →
      e.val.toRat ≤ a := by
    intro e he
    rw [← Dyadic.toRat_intCast, ← hval]
    unfold JsNumber.le JsNumber.lt JsNumber.eq at he
    simp only [JsNumber.merge, JsNumber.below, Bool.or_eq_true, decide_eq_true_eq,
      Bool.and_eq_true, beq_iff_eq, JsNumber.finite.injEq] at he
    rcases he with hlt | ⟨-, rfl⟩
    · exact (Dyadic.toRat_lt_toRat_iff.mpr hlt).le
    · exact le_refl _
  cases x with
  | finite e =>
    have hclip : timeClip (.finite e) =
        if (truncate e.val).natAbs ≤ maxTime then some (truncate e.val) else none := rfl
    rw [hclip] at h
    split at h
    · cases h
      exact truncate_le (hcompare e hle)
    · cases h
  | negZero =>
    have hzero : t = 0 := (Option.some.inj h).symm
    rw [hzero]
    rw [← JsNumber.le_merge_left] at hle
    exact truncate_le (hcompare ⟨.zero, trivial⟩ hle)
  | nan => cases h
  | posInf => cases h
  | negInf => cases h

theorem eq_self {x : JsNumber} (h : x ≠ .nan) : x.eq x = true := by
  rw [JsNumber.eq, decide_eq_true h, Bool.true_and, beq_self_eq_true]

/-- Of two numbers neither of which is `NaN`, one is less or they are equal. -/
theorem trichotomy {x y : JsNumber} (hx : x ≠ .nan) (hy : y ≠ .nan) :
    x.lt y = true ∨ x.eq y = true ∨ y.lt x = true := by
  unfold JsNumber.lt JsNumber.eq
  rw [decide_eq_true hx, Bool.true_and, beq_iff_eq]
  have hx' : x.merge ≠ .nan := fun h => hx (JsNumber.merge_eq_nan.mp h)
  have hy' : y.merge ≠ .nan := fun h => hy (JsNumber.merge_eq_nan.mp h)
  have hzero : ∀ z : JsNumber, z.merge ≠ .negZero := by
    intro z
    cases z <;> simp [JsNumber.merge, JsNumber.zero]
  have hxz := hzero x
  have hyz := hzero y
  generalize x.merge = a, y.merge = b at *
  cases a with
  | nan => exact absurd rfl hx'
  | negZero => exact absurd rfl hxz
  | posInf =>
    cases b with
    | nan => exact absurd rfl hy'
    | negZero => exact absurd rfl hyz
    | posInf => exact .inr (.inl rfl)
    | negInf => exact .inr (.inr rfl)
    | finite => exact .inr (.inr rfl)
  | negInf =>
    cases b with
    | nan => exact absurd rfl hy'
    | negZero => exact absurd rfl hyz
    | posInf => exact .inl rfl
    | negInf => exact .inr (.inl rfl)
    | finite => exact .inl rfl
  | finite d =>
    cases b with
    | nan => exact absurd rfl hy'
    | negZero => exact absurd rfl hyz
    | posInf => exact .inl rfl
    | negInf => exact .inr (.inr rfl)
    | finite e =>
      rcases lt_trichotomy d.val.toRat e.val.toRat with hlt | heq | hlt
      · exact .inl (decide_eq_true (Dyadic.toRat_lt_toRat_iff.mp hlt))
      · obtain ⟨d, hd⟩ := d
        obtain ⟨e, he⟩ := e
        cases Dyadic.toRat_inj.mp heq
        exact .inr (.inl rfl)
      · exact .inr (.inr (decide_eq_true (Dyadic.toRat_lt_toRat_iff.mp hlt)))

theorem below_asymm {a b : JsNumber} (h : JsNumber.below a b = true) :
    JsNumber.below b a = false := by
  cases a with
  | finite x =>
    cases b with
    | finite y =>
      have hlt := Dyadic.toRat_lt_toRat_iff.mpr (of_decide_eq_true h)
      exact decide_eq_false fun hgt => lt_asymm hlt (Dyadic.toRat_lt_toRat_iff.mpr hgt)
    | posInf => rfl
    | _ => cases h
  | negInf =>
    cases b with
    | finite y => rfl
    | posInf => rfl
    | _ => cases h
  | _ => cases h

/-- Of two numbers neither of which is `NaN`, one is at most the other when the other is not
less. -/
theorem le_iff_not_lt {x y : JsNumber} (hx : x ≠ .nan) (hy : y ≠ .nan) :
    x.le y = true ↔ ¬ y.lt x = true := by
  constructor
  · intro hle hlt
    unfold JsNumber.le at hle
    rcases Bool.or_eq_true_iff.mp hle with h | h
    · exact Bool.false_ne_true ((below_asymm h).symm.trans hlt)
    · unfold JsNumber.eq at h
      unfold JsNumber.lt at hlt
      rw [Bool.and_eq_true, beq_iff_eq] at h
      rw [h.2] at hlt
      exact Bool.false_ne_true ((below_asymm hlt).symm.trans hlt)
  · intro hnot
    unfold JsNumber.le
    rcases trichotomy hx hy with h | h | h
    · rw [h, Bool.true_or]
    · rw [h, Bool.or_true]
    · exact absurd h hnot

/-- The lesser of a number and another is no greater than the other. -/
theorem min_le {x y : JsNumber} (h : JsNumber.min x y ≠ .nan) :
    (JsNumber.min x y).le y = true := by
  unfold JsNumber.min at h ⊢
  by_cases hnan : x = .nan ∨ y = .nan
  · rw [if_pos hnan] at h
    exact absurd rfl h
  · rw [if_neg hnan]
    obtain ⟨hx, hy⟩ := not_or.mp hnan
    unfold JsNumber.le
    split
    · rw [eq_self hy, Bool.or_true]
    · rename_i hnot
      rcases trichotomy hx hy with hlt | heq | hlt
      · rw [hlt, Bool.true_or]
      · rw [heq, Bool.or_true]
      · rw [hlt, Bool.true_or] at hnot
        exact absurd rfl hnot

/-- **A date made from the lesser of a number and a time is no later than the time.** -/
theorem timeClip_min_le {x : JsNumber} {a t : Int} (ha : a.natAbs ≤ maxTime)
    (h : timeClip (x.min (JsNumber.ofInt a)) = some t) : t ≤ a := by
  refine timeClip_le ha (min_le ?_) h
  intro hnan
  rw [hnan] at h
  cases h

end Js

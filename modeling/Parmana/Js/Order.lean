import Mathlib.Algebra.Order.Field.Power
import Parmana.Js.Time

/-! # Rounding keeps the order

A ratio that is no greater than another is rounded to a number that is no greater.
The magnitude a ratio is rounded to (`rounded`) is a whole number of units, and the
unit grows with the ratio: within one unit the order of the ratios is that of the
whole numbers, and a ratio with a smaller unit stays below the least number of the
larger one.  What no double can hold becomes an infinity, on the side it is on.

So `ofRatio` is monotone in the signed ratio (`ofRatio_le_ofRatio`), and with it the
rounding of an exact result (`round_le_round`) and a division (`divNat_le_divNat`).
-/
namespace Js
namespace JsNumber

/-! ## Rounding to an integer -/

section Half
variable {a b c d : Nat}

theorem div_le_roundHalfEven (a b : Nat) : a / b ≤ roundHalfEven a b := by
  unfold roundHalfEven
  dsimp only
  split_ifs <;> omega

theorem roundHalfEven_le (a b : Nat) : roundHalfEven a b ≤ a / b + 1 := by
  unfold roundHalfEven
  dsimp only
  split_ifs <;> omega

theorem roundHalfEven_one (a : Nat) : roundHalfEven a 1 = a := by
  simpa using roundHalfEven_of_exact (c := a) Nat.one_pos

/-- A ratio that is no greater is rounded to an integer that is no greater. -/
theorem roundHalfEven_mono (hb : 0 < b) (hd : 0 < d) (h : (a : ℚ) / b ≤ c / d) :
    roundHalfEven a b ≤ roundHalfEven c d := by
  have hle : a * d ≤ c * b := by
    rw [div_le_div_iff₀ (by exact_mod_cast hb) (by exact_mod_cast hd)] at h
    exact_mod_cast h
  rw [← roundHalfEven_mul_right hd, ← roundHalfEven_mul_right (a := c) hb, Nat.mul_comm d b]
  generalize a * d = x at hle ⊢
  generalize c * b = y at hle ⊢
  have hpos : 0 < b * d := Nat.mul_pos hb hd
  generalize b * d = n at hpos ⊢
  rcases (Nat.div_le_div_right hle).lt_or_eq with hlt | heq
  · exact (roundHalfEven_le x n).trans (Nat.succ_le_of_lt hlt |>.trans (div_le_roundHalfEven y n))
  · -- with the same whole part, the remainders decide
    have hmod : x % n ≤ y % n := by
      have hx := Nat.div_add_mod x n
      have hy := Nat.div_add_mod y n
      rw [heq] at hx
      omega
    unfold roundHalfEven
    dsimp only
    rw [heq]
    split_ifs <;> omega

end Half

/-! ## What a ratio is rounded to -/

/-- The exponent of the unit a ratio is rounded to. -/
def unit (a b : Nat) : Int := max (floorLog2 a b - 52) (-1074)

/-- The whole number of units a ratio is rounded to. -/
def significand (a b : Nat) : Nat :=
  if a = 0 ∨ b = 0 then 0
  else if unit a b < 0 then roundHalfEven (a <<< (-unit a b).toNat) b
  else roundHalfEven a (b <<< (unit a b).toNat)

/-- The magnitude a ratio is rounded to. -/
def rounded (a b : Nat) : Dyadic := Dyadic.ofIntWithPrec (significand a b) (-unit a b)

section Rounded
variable {a b c d n : Nat}

theorem toRat_rounded (a b : Nat) : (rounded a b).toRat = significand a b * 2 ^ unit a b := by
  unfold rounded
  rw [Dyadic.toRat_ofIntWithPrec_eq_mul_two_pow, neg_neg, Int.cast_natCast]

theorem rounded_nonneg (a b : Nat) : 0 ≤ (rounded a b).toRat := by
  rw [toRat_rounded]
  positivity

theorem ofRatio_merge (negative : Bool) (a b : Nat) :
    (ofRatio negative a b).merge =
      (ofDyadic (if negative then -rounded a b else rounded a b)).merge := by
  have hm : ofRatio negative a b = if significand a b = 0 then if negative then .negZero else zero
      else ofDyadic (Dyadic.ofIntWithPrec (if negative then -significand a b else significand a b)
        (-unit a b)) := rfl
  rw [hm]
  by_cases hzero : significand a b = 0
  · have hrounded : rounded a b = 0 := by
      rw [← Dyadic.toRat_inj, toRat_rounded, hzero, Dyadic.toRat_zero, Nat.cast_zero, zero_mul]
    rw [if_pos hzero, hrounded]
    cases negative <;> decide
  · rw [if_neg hzero]
    unfold rounded
    cases negative
    · rfl
    · rw [if_pos rfl, if_pos rfl, Dyadic.neg_ofIntWithPrec]

/-- The significand is the ratio in units, rounded. -/
theorem significand_eq (ha : 0 < a) (hb : 0 < b) : ∃ x y : Nat, 0 < y ∧
    significand a b = roundHalfEven x y ∧ (x : ℚ) / y = a / b / 2 ^ unit a b := by
  have hne : ¬ (a = 0 ∨ b = 0) := by omega
  unfold significand
  rw [if_neg hne]
  by_cases hneg : unit a b < 0
  · obtain ⟨j, hj⟩ : ∃ j : Nat, unit a b = -j := ⟨(-unit a b).toNat, by omega⟩
    refine ⟨_, _, hb, if_pos hneg, ?_⟩
    rw [hj, neg_neg, Int.toNat_natCast, Nat.shiftLeft_eq, zpow_neg, zpow_natCast, div_inv_eq_mul]
    push_cast
    ring
  · obtain ⟨j, hj⟩ : ∃ j : Nat, unit a b = j := ⟨(unit a b).toNat, by omega⟩
    refine ⟨_, _, ?_, if_neg hneg, ?_⟩
    · rw [Nat.shiftLeft_eq]
      exact Nat.mul_pos hb (Nat.two_pow_pos _)
    · rw [hj, Int.toNat_natCast, Nat.shiftLeft_eq, zpow_natCast]
      push_cast
      rw [div_div]

theorem significand_le (ha : 0 < a) (hb : 0 < b) (h : (a : ℚ) / b ≤ n * 2 ^ unit a b) :
    significand a b ≤ n := by
  obtain ⟨x, y, hy, hm, hratio⟩ := significand_eq ha hb
  rw [hm, ← roundHalfEven_one n]
  refine roundHalfEven_mono hy Nat.one_pos ?_
  rw [hratio, Nat.cast_one, div_one]
  exact (div_le_iff₀ (by positivity)).mpr h

theorem le_significand (ha : 0 < a) (hb : 0 < b) (h : (n : ℚ) * 2 ^ unit a b ≤ a / b) :
    n ≤ significand a b := by
  obtain ⟨x, y, hy, hm, hratio⟩ := significand_eq ha hb
  rw [hm, ← roundHalfEven_one n]
  refine roundHalfEven_mono Nat.one_pos hy ?_
  rw [hratio, Nat.cast_one, div_one]
  exact (le_div_iff₀ (by positivity)).mpr h

theorem ratio_pos (ha : 0 < a) (hb : 0 < b) : (0 : ℚ) < a / b :=
  div_pos (by exact_mod_cast ha) (by exact_mod_cast hb)

theorem significand_le_two_pow (ha : 0 < a) (hb : 0 < b) : significand a b ≤ 2 ^ 53 := by
  refine significand_le ha hb ?_
  have hlog : Int.log 2 ((a : ℚ) / b) < unit a b + 53 := by
    rw [← floorLog2_eq ha hb]
    unfold unit
    omega
  have hlt : (a : ℚ) / b < (2 : ℚ) ^ (unit a b + 53) := by
    exact_mod_cast (Int.lt_zpow_iff_log_lt (b := 2) (by norm_num) (ratio_pos ha hb)).mpr hlog
  rw [zpow_add₀ two_ne_zero, mul_comm] at hlt
  exact_mod_cast hlt.le

theorem two_pow_le_significand (ha : 0 < a) (hb : 0 < b) (hunit : -1074 < unit a b) :
    2 ^ 52 ≤ significand a b := by
  refine le_significand ha hb ?_
  have hlog : unit a b + 52 ≤ Int.log 2 ((a : ℚ) / b) := by
    rw [← floorLog2_eq ha hb]
    unfold unit at hunit ⊢
    omega
  have hle : (2 : ℚ) ^ (unit a b + 52) ≤ (a : ℚ) / b := by
    exact_mod_cast (Int.zpow_le_iff_le_log (b := 2) (by norm_num) (ratio_pos ha hb)).mpr hlog
  rw [zpow_add₀ two_ne_zero, mul_comm] at hle
  exact_mod_cast hle

theorem unit_mono (ha : 0 < a) (hb : 0 < b) (hd : 0 < d) (h : (a : ℚ) / b ≤ c / d) :
    unit a b ≤ unit c d := by
  have hc : 0 < c := by
    rcases Nat.eq_zero_or_pos c with rfl | hc
    · rw [Nat.cast_zero, zero_div] at h
      exact absurd (ratio_pos ha hb) (not_lt.mpr h)
    · exact hc
  have hlog := Int.log_mono_right (b := 2) (ratio_pos ha hb) h
  rw [← floorLog2_eq ha hb, ← floorLog2_eq hc hd] at hlog
  unfold unit
  omega

/-- **A ratio that is no greater is rounded to a magnitude that is no greater.** -/
theorem rounded_mono (hb : 0 < b) (hd : 0 < d) (h : (a : ℚ) / b ≤ c / d) :
    (rounded a b).toRat ≤ (rounded c d).toRat := by
  rcases Nat.eq_zero_or_pos a with rfl | ha
  · have hzero : significand 0 b = 0 := if_pos (.inl rfl)
    rw [toRat_rounded, hzero, Nat.cast_zero, zero_mul]
    exact rounded_nonneg c d
  have hc : 0 < c := by
    rcases Nat.eq_zero_or_pos c with rfl | hc
    · rw [Nat.cast_zero, zero_div] at h
      exact absurd (ratio_pos ha hb) (not_lt.mpr h)
    · exact hc
  rw [toRat_rounded, toRat_rounded]
  rcases (unit_mono ha hb hd h).lt_or_eq with hlt | heq
  · -- the least number of a larger unit is no less than the greatest of a smaller one
    have hunit : -1074 < unit c d := lt_of_le_of_lt (le_max_right _ _) hlt
    have hlow : ((2 ^ 52 : Nat) : ℚ) ≤ significand c d := by
      exact_mod_cast two_pow_le_significand hc hd hunit
    have hhigh : (significand a b : ℚ) ≤ ((2 ^ 53 : Nat) : ℚ) := by
      exact_mod_cast significand_le_two_pow ha hb
    have hpow : (2 : ℚ) ^ (unit a b + 1) ≤ 2 ^ unit c d :=
      zpow_le_zpow_right₀ (by norm_num) (by omega)
    calc (significand a b : ℚ) * 2 ^ unit a b ≤ ((2 ^ 53 : Nat) : ℚ) * 2 ^ unit a b := by gcongr
      _ = ((2 ^ 52 : Nat) : ℚ) * 2 ^ (unit a b + 1) := by
        rw [zpow_add₀ two_ne_zero]
        push_cast
        ring
      _ ≤ significand c d * 2 ^ unit c d := by gcongr
  · obtain ⟨x, y, hy, hm, hratio⟩ := significand_eq ha hb
    obtain ⟨x', y', hy', hm', hratio'⟩ := significand_eq hc hd
    have hle : significand a b ≤ significand c d := by
      rw [hm, hm']
      refine roundHalfEven_mono hy hy' ?_
      rw [hratio, hratio', heq]
      gcongr
    rw [heq]
    gcongr

end Rounded

/-! ## What is too large -/

/-- The least magnitude that is too large for a double. -/
def tooLarge : ℚ := 2 ^ (1024 : Int)

theorem tooLarge_pos : 0 < tooLarge := zpow_pos two_pos _

theorem toRat_lt_of_isDouble {x : Dyadic} (h : IsDouble x) : x.toRat < tooLarge := by
  cases x with
  | zero =>
    rw [Dyadic.zero_eq, Dyadic.toRat_zero]
    exact tooLarge_pos
  | ofOdd n k hn =>
    obtain ⟨-, -, hlog⟩ := h
    rw [Dyadic.toRat_ofOdd_eq_mul_two_pow]
    have hn' : (n : ℚ) ≤ n.natAbs := by
      rw [← Int.cast_natCast]
      exact_mod_cast (by omega : n ≤ n.natAbs)
    have hlt : (n.natAbs : ℚ) < 2 ^ ((n.natAbs.log2 : Int) + 1) := by
      exact_mod_cast Nat.lt_log2_self (n := n.natAbs)
    calc (n : ℚ) * 2 ^ (-k) ≤ n.natAbs * 2 ^ (-k) := by gcongr
      _ < 2 ^ ((n.natAbs.log2 : Int) + 1) * 2 ^ (-k) := by gcongr
      _ = 2 ^ ((n.natAbs.log2 : Int) + 1 + -k) := (zpow_add₀ two_ne_zero _ _).symm
      _ ≤ tooLarge := zpow_le_zpow_right₀ (by norm_num) (by omega)

/-- A whole number of units of at most 53 bits is a double, unless it is too large. -/
theorem isDouble_of_units {x : Dyadic} {m : Nat} {u : Int} (hx : x.toRat = m * 2 ^ u)
    (hm : m ≤ 2 ^ 53) (hu : -1074 ≤ u) (hlt : x.toRat < tooLarge) : IsDouble x := by
  cases x with
  | zero => trivial
  | ofOdd n k hn =>
    rw [Dyadic.toRat_ofOdd_eq_mul_two_pow] at hx hlt
    have hpow : (0 : ℚ) < 2 ^ (-k) := zpow_pos two_pos _
    have hpos : 0 < n := by
      have hnonneg : (0 : ℚ) ≤ n * 2 ^ (-k) := by
        rw [hx]
        exact mul_nonneg (Nat.cast_nonneg m) (zpow_pos two_pos u).le
      have hn0 : (0 : ℚ) ≤ n := nonneg_of_mul_nonneg_left hnonneg hpow
      have hn1 : 0 ≤ n := by exact_mod_cast hn0
      omega
    have hnatAbs : ((n.natAbs : Nat) : Int) = n := by omega
    -- an odd number of units `2 ^ (-k)` is no whole number of larger ones
    have hscaled : (n : ℚ) * 2 ^ (-(k + u)) = (m : Int) := by
      rw [neg_add, zpow_add₀ two_ne_zero, ← mul_assoc, hx, mul_assoc, ← zpow_add₀ two_ne_zero,
        add_neg_cancel, zpow_zero, mul_one, Int.cast_natCast]
    have hk : k + u ≤ 0 := precision_nonpos hn hscaled
    obtain ⟨j, hj⟩ : ∃ j : Nat, k + u = -j := ⟨(-(k + u)).toNat, by omega⟩
    rw [hj, neg_neg, zpow_natCast] at hscaled
    have hnm : n * 2 ^ j = m := by exact_mod_cast hscaled
    have hle : n.natAbs ≤ 2 ^ 53 := by
      have hone : (1 : Int) ≤ 2 ^ j := one_le_pow₀ (by norm_num)
      have : n ≤ m := by
        calc n = n * 1 := (mul_one n).symm
          _ ≤ n * 2 ^ j := by gcongr
          _ = m := hnm
      omega
    have hlog : (n.natAbs.log2 : Int) - k < 1024 := by
      have hself : ((2 : ℚ) ^ (n.natAbs.log2 : Int)) ≤ n := by
        have := Nat.log2_self_le (n := n.natAbs) (by omega)
        rw [zpow_natCast]
        have hcast : ((2 ^ n.natAbs.log2 : Nat) : Int) ≤ n := by omega
        exact_mod_cast hcast
      have hlt' : (2 : ℚ) ^ ((n.natAbs.log2 : Int) - k) < tooLarge :=
        calc (2 : ℚ) ^ ((n.natAbs.log2 : Int) - k)
            = 2 ^ (n.natAbs.log2 : Int) * 2 ^ (-k) := by
              rw [sub_eq_add_neg, zpow_add₀ two_ne_zero]
          _ ≤ n * 2 ^ (-k) := by gcongr
          _ < tooLarge := hlt
      exact (zpow_lt_zpow_iff_right₀ (by norm_num)).mp hlt'
    exact ⟨by omega, by omega, hlog⟩

/-- A dyadic that is a double unless its magnitude is too large. -/
def Fits (x : Dyadic) : Prop := |x.toRat| < tooLarge → IsDouble x

theorem fits_rounded {a b : Nat} (hb : 0 < b) : Fits (rounded a b) := by
  intro hlt
  rw [abs_of_nonneg (rounded_nonneg a b)] at hlt
  rcases Nat.eq_zero_or_pos a with rfl | ha
  · have hzero : significand 0 b = 0 := if_pos (.inl rfl)
    refine isDouble_of_units (toRat_rounded 0 b) ?_ (le_max_right _ _) hlt
    rw [hzero]
    exact Nat.zero_le _
  · exact isDouble_of_units (toRat_rounded a b) (significand_le_two_pow ha hb)
      (le_max_right _ _) hlt

theorem Fits.neg {x : Dyadic} (h : Fits x) : Fits (-x) := by
  intro hlt
  rw [Dyadic.toRat_neg, abs_neg] at hlt
  exact isDouble_neg.mpr (h hlt)

theorem le_finite {x y : Double} :
    JsNumber.le (.finite x) (.finite y) = true ↔ x.val.toRat ≤ y.val.toRat := by
  unfold le lt eq
  simp only [merge, below, Bool.or_eq_true, decide_eq_true_eq, Bool.and_eq_true, beq_iff_eq,
    JsNumber.finite.injEq]
  rw [le_iff_lt_or_eq, ← Dyadic.toRat_lt_toRat_iff]
  refine or_congr Iff.rfl ⟨?_, ?_⟩
  · rintro ⟨-, rfl⟩
    rfl
  · intro h
    obtain ⟨x, hx⟩ := x
    obtain ⟨y, hy⟩ := y
    cases Dyadic.toRat_inj.mp h
    refine ⟨?_, rfl⟩
    rintro ⟨⟩

/-- Numbers are ordered as the dyadics they are of. -/
theorem ofDyadic_le {x y : Dyadic} (hx : Fits x) (hy : Fits y) (h : x.toRat ≤ y.toRat) :
    (ofDyadic x).le (ofDyadic y) = true := by
  unfold ofDyadic
  by_cases hdx : IsDouble x
  · rw [dif_pos hdx]
    by_cases hdy : IsDouble y
    · rw [dif_pos hdy]
      exact le_finite.mpr h
    · rw [dif_neg hdy]
      -- a dyadic no less than a double is too large, not too small
      by_cases hneg : y < 0
      · exfalso
        have hlow : -tooLarge < x.toRat := by
          have := toRat_lt_of_isDouble (isDouble_neg.mpr hdx)
          rw [Dyadic.toRat_neg] at this
          linarith
        rw [← Dyadic.toRat_lt_toRat_iff, Dyadic.toRat_zero] at hneg
        refine hdy (hy ?_)
        rw [abs_of_neg hneg]
        linarith
      · rw [if_neg hneg]
        rfl
  · rw [dif_neg hdx]
    by_cases hneg : x < 0
    · rw [if_pos hneg]
      by_cases hdy : IsDouble y
      · rw [dif_pos hdy]
        rfl
      · rw [dif_neg hdy]
        split <;> rfl
    · rw [if_neg hneg]
      rw [← Dyadic.toRat_lt_toRat_iff, Dyadic.toRat_zero, not_lt] at hneg
      have hlarge : tooLarge ≤ x.toRat := by
        by_contra hlt
        rw [not_le] at hlt
        refine hdx (hx ?_)
        rwa [abs_of_nonneg hneg]
      have hdy : ¬ IsDouble y := fun hdy => by
        have := toRat_lt_of_isDouble hdy
        linarith
      have hypos : ¬ y < 0 := by
        rw [← Dyadic.toRat_lt_toRat_iff, Dyadic.toRat_zero, not_lt]
        exact hneg.trans h
      rw [dif_neg hdy, if_neg hypos]
      rfl

/-! ## Signed ratios -/

/-- A ratio with its sign. -/
def signed (negative : Bool) (a b : Nat) : ℚ := if negative then -(a / b) else a / b

/-- **A signed ratio that is no greater is rounded to a number that is no greater.** -/
theorem ofRatio_le_ofRatio {n m : Bool} {a b c d : Nat} (hb : 0 < b) (hd : 0 < d)
    (h : signed n a b ≤ signed m c d) : (ofRatio n a b).le (ofRatio m c d) = true := by
  have hfits : ∀ (n : Bool) {a b : Nat}, 0 < b →
      Fits (if n then -rounded a b else rounded a b) := by
    intro n a b hb
    cases n
    · exact fits_rounded hb
    · exact (fits_rounded hb).neg
  rw [← le_merge_left, ← le_merge_right, ofRatio_merge n, ofRatio_merge m, le_merge_left,
    le_merge_right]
  refine ofDyadic_le (hfits n hb) (hfits m hd) ?_
  have hab := rounded_nonneg a b
  have hcd := rounded_nonneg c d
  unfold signed at h
  cases n <;> cases m
  · exact rounded_mono hb hd h
  · -- a ratio no greater than the negative of one is zero, and so is that one
    have hapos : (0 : ℚ) ≤ a / b := by positivity
    have hcpos : (0 : ℚ) ≤ c / d := by positivity
    simp only [Bool.false_eq_true, if_false, if_true] at h ⊢
    have hzero : ((0 : Nat) : ℚ) / (1 : Nat) = 0 := by norm_num
    have ha := rounded_mono hb Nat.one_pos (hzero ▸ h.trans (neg_nonpos.mpr hcpos))
    have hc := rounded_mono hd Nat.one_pos (hzero ▸ neg_nonneg.mp (hapos.trans h))
    have hnone : (rounded 0 1).toRat = 0 := by
      rw [toRat_rounded, show significand 0 1 = 0 from rfl, Nat.cast_zero, zero_mul]
    rw [hnone] at ha hc
    rw [Dyadic.toRat_neg]
    linarith
  · simp only [Bool.false_eq_true, if_false, if_true, Dyadic.toRat_neg]
    linarith
  · simp only [if_true, neg_le_neg_iff] at h
    simp only [if_true, Dyadic.toRat_neg, neg_le_neg_iff]
    exact rounded_mono hd hb h

/-- The result of exact arithmetic is rounded as a signed ratio. -/
theorem round_eq (x : Dyadic) : ∃ (n : Bool) (a b : Nat), 0 < b ∧ round x = ofRatio n a b ∧
    signed n a b = x.toRat := by
  cases x with
  | zero =>
    refine ⟨false, 0, 1, Nat.one_pos, by decide, ?_⟩
    rw [Dyadic.zero_eq, Dyadic.toRat_zero, signed, Nat.cast_zero, zero_div]
    rfl
  | ofOdd n k hn =>
    rw [Dyadic.toRat_ofOdd_eq_mul_two_pow]
    have hround : round (.ofOdd n k hn) = if k < 0 then
        ofRatio (decide (n < 0)) (n.natAbs <<< (-k).toNat) 1
      else ofRatio (decide (n < 0)) n.natAbs (2 ^ k.toNat) := rfl
    have hsign : ∀ q : ℚ, (if decide (n < 0) = true then -(n.natAbs * q) else n.natAbs * q) =
        n * q := by
      intro q
      by_cases hneg : n < 0
      · have habs : (n.natAbs : ℚ) = -n := by
          rw [← Int.cast_natCast, ← Int.cast_neg]
          congr 1
          omega
        rw [if_pos (decide_eq_true hneg), habs, neg_mul, neg_neg]
      · have habs : (n.natAbs : ℚ) = n := by
          rw [← Int.cast_natCast]
          congr 1
          omega
        rw [if_neg (by simpa using hneg), habs]
    rw [hround]
    by_cases hk : k < 0
    · obtain ⟨j, rfl⟩ : ∃ j : Nat, k = -j := ⟨(-k).toNat, by omega⟩
      refine ⟨_, _, _, Nat.one_pos, if_pos hk, ?_⟩
      unfold signed
      rw [← hsign, neg_neg, Int.toNat_natCast, Nat.shiftLeft_eq, zpow_natCast]
      push_cast
      rw [div_one]
    · obtain ⟨j, rfl⟩ : ∃ j : Nat, k = j := ⟨k.toNat, by omega⟩
      refine ⟨_, _, _, Nat.two_pow_pos _, if_neg hk, ?_⟩
      unfold signed
      rw [← hsign, Int.toNat_natCast, zpow_neg, zpow_natCast]
      push_cast
      rw [div_eq_mul_inv]

/-- **The result of exact arithmetic keeps its order in the rounding.** -/
theorem round_le_round {x y : Dyadic} (h : x.toRat ≤ y.toRat) : (round x).le (round y) = true := by
  obtain ⟨n, a, b, hb, hx, hvalue⟩ := round_eq x
  obtain ⟨m, c, d, hd, hy, hvalue'⟩ := round_eq y
  rw [hx, hy]
  exact ofRatio_le_ofRatio hb hd (by rw [hvalue, hvalue']; exact h)

/-! ## Division -/

theorem signed_magnitude (d : Double) (n : Nat) :
    signed (decide (d.val < 0)) (magnitude d).1 ((magnitude d).2 * n) = d.val.toRat / n := by
  by_cases hzero : d.val = 0
  · obtain ⟨d, hd⟩ := d
    subst hzero
    have hmagnitude : magnitude ⟨0, hd⟩ = (0, 1) := rfl
    rw [hmagnitude, Dyadic.toRat_zero, zero_div, signed, Nat.cast_zero, zero_div, neg_zero]
    split <;> rfl
  · obtain ⟨m, k, hm, hval, -, hq⟩ := magnitude_value hzero
    unfold signed
    rw [Nat.cast_mul, ← div_div, hq, hval, Dyadic.toRat_ofOdd_eq_mul_two_pow]
    have hsign : Dyadic.ofOdd m k hm < 0 ↔ m < 0 := by
      rw [← Dyadic.toRat_lt_toRat_iff, Dyadic.toRat_zero, Dyadic.toRat_ofOdd_eq_mul_two_pow,
        ← zero_mul ((2 : ℚ) ^ (-k)), mul_lt_mul_iff_left₀ (zpow_pos two_pos _)]
      exact_mod_cast Iff.rfl
    have hcast : (m.natAbs : ℚ) = if m < 0 then -(m : ℚ) else m := by
      rw [← Int.cast_natCast]
      split
      · rw [← Int.cast_neg]
        congr 1
        omega
      · congr 1
        omega
    rw [hcast]
    by_cases hneg : m < 0
    · rw [if_pos (decide_eq_true (hsign.mpr hneg)), if_pos hneg, neg_mul, neg_div, neg_neg]
    · rw [if_neg (by rw [decide_eq_true_eq, hsign]; exact hneg), if_neg hneg]

theorem divNat_merge (x : JsNumber) (n : Nat) : (x.merge.divNat n).merge = (x.divNat n).merge := by
  cases x with
  | negZero =>
    show (ofRatio (decide ((0 : Dyadic) < 0)) 0 (1 * n)).merge = zero
    rfl
  | _ => rfl

/-- **A double that is no greater has a quotient that is no greater.** -/
theorem divNat_le_divNat {d e : Double} {n : Nat} (hn : 0 < n)
    (h : JsNumber.le (.finite d) (.finite e) = true) :
    (divNat (.finite d) n).le (divNat (.finite e) n) = true := by
  refine ofRatio_le_ofRatio (Nat.mul_pos (magnitude_den_pos d) hn)
    (Nat.mul_pos (magnitude_den_pos e) hn) ?_
  rw [signed_magnitude, signed_magnitude]
  have hle := le_finite.mp h
  gcongr

/-! ## The order -/

/-- What lies between two doubles is one, or the other zero. -/
theorem finite_of_between {x : JsNumber} {lo hi : Double} (hlo : JsNumber.le (.finite lo) x = true)
    (hhi : x.le (.finite hi) = true) : ∃ d : Double, x.merge = .finite d := by
  cases x with
  | finite d => exact ⟨d, rfl⟩
  | negZero => exact ⟨_, rfl⟩
  | nan => simp [le, lt, eq, below, merge] at hlo
  | posInf => simp [le, lt, eq, below, merge] at hhi
  | negInf => simp [le, lt, eq, below, merge] at hlo

theorem isFinite_of_merge {x : JsNumber} {d : Double} (h : x.merge = .finite d) :
    x.isFinite = true := by
  cases x with
  | finite => rfl
  | negZero => rfl
  | nan => cases h
  | posInf => cases h
  | negInf => cases h

/-- The quotient of a double is a double, or the other zero. -/
theorem divNat_finite (d : Double) {n : Nat} (hn : 0 < n) :
    ∃ e : Double, (divNat (.finite d) n).merge = .finite e := by
  by_cases hzero : d.val = 0
  · obtain ⟨d, hd⟩ := d
    subst hzero
    exact ⟨⟨.zero, trivial⟩, rfl⟩
  · have hden := magnitude_den_pos d
    have hquotient : divNat (.finite d) n =
        ofRatio (decide (d.val < 0)) (magnitude d).1 ((magnitude d).2 * n) := rfl
    have hmagnitude : ∀ negative : Bool, ∃ e : Double,
        ofRatio negative (magnitude d).1 (magnitude d).2 = .finite e := by
      intro negative
      rw [ofRatio_magnitude hzero]
      cases negative
      · exact ⟨⟨_, Double.isDouble_abs d⟩, ofDyadic_of_isDouble _⟩
      · exact ⟨⟨_, isDouble_neg.mpr (Double.isDouble_abs d)⟩, ofDyadic_of_isDouble _⟩
    obtain ⟨lo, hlo⟩ := hmagnitude true
    obtain ⟨hi, hhi⟩ := hmagnitude false
    have hx : (0 : ℚ) ≤ (magnitude d).1 / (magnitude d).2 := by positivity
    have hle : ((magnitude d).1 : ℚ) / ((magnitude d).2 * n : Nat) ≤
        (magnitude d).1 / (magnitude d).2 := by
      rw [Nat.cast_mul, ← div_div]
      exact div_le_self hx (by exact_mod_cast hn)
    have hx' : (0 : ℚ) ≤ (magnitude d).1 / ((magnitude d).2 * n : Nat) := by positivity
    rw [hquotient]
    generalize decide (d.val < 0) = negative
    refine finite_of_between (?_ : JsNumber.le (.finite lo) _ = true)
      (?_ : JsNumber.le _ (.finite hi) = true)
    · rw [← hlo]
      refine ofRatio_le_ofRatio hden (Nat.mul_pos hden hn) ?_
      cases negative <;> simp only [signed, Bool.false_eq_true, if_false, if_true] <;>
        linarith only [hx, hx', hle]
    · rw [← hhi]
      refine ofRatio_le_ofRatio (Nat.mul_pos hden hn) hden ?_
      cases negative <;> simp only [signed, Bool.false_eq_true, if_false, if_true] <;>
        linarith only [hx, hx', hle]

theorem le_trans {x y z : JsNumber} (h : x.le y = true) (h' : y.le z = true) : x.le z = true := by
  rw [← le_merge_left, ← le_merge_right] at h h' ⊢
  generalize x.merge = a, y.merge = b, z.merge = c at *
  cases a <;> cases b <;> cases c <;>
    first
    | exact le_finite.mpr ((le_finite.mp h).trans (le_finite.mp h'))
    | simp [le, lt, eq, below, merge, zero] at h h' ⊢

/-! ## Times -/

theorem signed_int (n : Int) : signed (decide (n < 0)) n.natAbs 1 = n := by
  unfold signed
  rw [Nat.cast_one, div_one, ← Int.cast_natCast]
  by_cases hneg : n < 0
  · rw [if_pos (decide_eq_true hneg), ← Int.cast_neg]
    congr 1
    omega
  · rw [if_neg (by simpa using hneg)]
    congr 1
    omega

theorem round_le_ofInt {x : Dyadic} {n : Int} (h : x.toRat ≤ n) :
    (round x).le (ofInt n) = true := by
  obtain ⟨m, a, b, hb, hx, hvalue⟩ := round_eq x
  rw [hx]
  exact ofRatio_le_ofRatio hb Nat.one_pos (by rw [hvalue, signed_int]; exact h)

theorem ofInt_le_round {x : Dyadic} {n : Int} (h : n ≤ x.toRat) :
    (ofInt n).le (round x) = true := by
  obtain ⟨m, a, b, hb, hx, hvalue⟩ := round_eq x
  rw [hx]
  exact ofRatio_le_ofRatio Nat.one_pos hb (by rw [hvalue, signed_int]; exact h)

/-! ## Numbers that are not `NaN` -/

theorem ofDyadic_ne_nan (x : Dyadic) : ofDyadic x ≠ .nan := by
  unfold ofDyadic
  split
  · simp
  · split <;> simp

theorem ofRatio_ne_nan (negative : Bool) (a b : Nat) : ofRatio negative a b ≠ .nan := by
  unfold ofRatio
  extract_lets u m
  by_cases hm : m = 0
  · rw [if_pos hm]
    cases negative <;> simp [zero]
  · rw [if_neg hm]
    exact ofDyadic_ne_nan _

theorem round_ne_nan (x : Dyadic) : round x ≠ .nan := by
  obtain ⟨negative, a, b, -, h, -⟩ := round_eq x
  rw [h]
  exact ofRatio_ne_nan negative a b

theorem add_ne_nan {d : Double} {x : JsNumber} (h : x ≠ .nan) :
    (finite d).add x ≠ .nan := by
  cases x with
  | nan => exact absurd rfl h
  | finite e => exact round_ne_nan _
  | negZero => exact fun h => nomatch h
  | posInf => exact fun h => nomatch h
  | negInf => exact fun h => nomatch h

theorem mulNat_ne_nan {x : JsNumber} (h : x ≠ .nan) (n : Nat) : x.mulNat n ≠ .nan := by
  cases x with
  | nan => exact absurd rfl h
  | finite e => exact round_ne_nan _
  | negZero => exact fun h => nomatch h
  | posInf => exact fun h => nomatch h
  | negInf => exact fun h => nomatch h

end JsNumber

open JsNumber

theorem timeClip_bound {x : JsNumber} {t : Int} (h : timeClip x = some t) :
    t.natAbs ≤ maxTime := by
  cases x with
  | finite d =>
    have hclip : timeClip (.finite d) =
        if (truncate d.val).natAbs ≤ maxTime then some (truncate d.val) else none := rfl
    rw [hclip] at h
    split at h
    · cases h
      assumption
    · cases h
  | negZero =>
    cases h
    exact Nat.zero_le _
  | nan => cases h
  | posInf => cases h
  | negInf => cases h

/-- **A date that many milliseconds after another is no later than that**, however the
number of milliseconds came about. -/
theorem timeClip_add_le {x : JsNumber} {start expiry : Int} {n : Nat}
    (hstart : start.natAbs ≤ maxTime) (hn : n < 2 ^ 53) (hx : x.le (ofInt n) = true)
    (h : timeClip ((ofInt start).add x) = some expiry) : expiry ≤ start + n := by
  by_cases hlate : maxTime < start + n
  · have := timeClip_bound h
    omega
  have hend : (start + n).natAbs ≤ maxTime := by omega
  obtain ⟨d, hd, hval⟩ := ofInt_finite (hstart.trans_lt (by decide : maxTime < 2 ^ 53))
  obtain ⟨e, he, hval'⟩ := ofInt_finite (n := (n : Int)) (by omega)
  rw [he] at hx
  rw [hd] at h
  refine timeClip_le hend ?_ h
  cases x with
  | finite f =>
    refine round_le_ofInt ?_
    have hf := le_finite.mp hx
    rw [hval', Dyadic.toRat_intCast] at hf
    rw [Dyadic.toRat_add, hval, Dyadic.toRat_intCast]
    push_cast at hf ⊢
    linarith
  | negZero =>
    obtain ⟨f, hf, hval''⟩ := ofInt_finite (hend.trans_lt (by decide : maxTime < 2 ^ 53))
    rw [hf]
    refine le_finite.mpr ?_
    rw [hval, hval'', Dyadic.toRat_intCast, Dyadic.toRat_intCast]
    push_cast
    exact le_add_of_nonneg_right (Nat.cast_nonneg n)
  | negInf => cases h
  | nan => simp [le, lt, eq, below, merge] at hx
  | posInf => simp [le, lt, eq, below, merge] at hx

end Js

import Mathlib.Algebra.Order.Field.Rat
import Mathlib.Data.Int.Log
import Mathlib.Data.Rat.Floor
import Mathlib.Tactic.FieldSimp
import Mathlib.Tactic.Linarith
import Mathlib.Tactic.Positivity
import Mathlib.Tactic.Ring
import Parmana.Js.Number

/-! # What rounding keeps

`ofRatio` rounds a ratio to the nearest double.  Read over the rationals, the
exponent it looks for is the floor of a binary logarithm, so the result depends
on the ratio only (`ofRatio_congr`), and a ratio that is a double already is not
changed: `ofRatio_magnitude` for the magnitude of any double, `ofRatio_integer`
for an integer of at most 53 bits.  No other integer rounds to such an integer
(`integer_inj`).
-/
namespace Js

namespace JsNumber

/-! ## The exponent, and ratios -/

section Log
variable {a b c : Nat}

/-- The comparison with a power of two that the shifts make. -/
theorem shift_lt_iff (hb : 0 < b) (e : Int) :
    (if e < 0 then a <<< (-e).toNat < b else a < b <<< e.toNat) ↔ (a : ℚ) / b < 2 ^ e := by
  have hb' : (0 : ℚ) < b := by exact_mod_cast hb
  split
  · rename_i he
    obtain ⟨n, rfl⟩ : ∃ n : Nat, e = -n := ⟨(-e).toNat, by omega⟩
    rw [neg_neg, Int.toNat_natCast, Nat.shiftLeft_eq, zpow_neg, zpow_natCast, div_lt_iff₀ hb',
      inv_mul_eq_div, lt_div_iff₀ (by positivity)]
    norm_cast
  · rename_i he
    obtain ⟨n, rfl⟩ : ∃ n : Nat, e = n := ⟨e.toNat, by omega⟩
    rw [Int.toNat_natCast, Nat.shiftLeft_eq, zpow_natCast, div_lt_iff₀ hb', mul_comm]
    norm_cast

theorem floorLog2_eq (ha : 0 < a) (hb : 0 < b) : floorLog2 a b = Int.log 2 ((a : ℚ) / b) := by
  have ha' : (0 : ℚ) < a := by exact_mod_cast ha
  have hb' : (0 : ℚ) < b := by exact_mod_cast hb
  have hq : (0 : ℚ) < (a : ℚ) / b := div_pos ha' hb'
  have hlow : (2 : ℚ) ^ ((a.log2 : Int) - b.log2 - 1) < (a : ℚ) / b := by
    have h₁ : (2 : ℚ) ^ a.log2 ≤ a := by exact_mod_cast Nat.log2_self_le ha.ne'
    have h₂ : (b : ℚ) < 2 ^ (b.log2 + 1) := by exact_mod_cast Nat.lt_log2_self
    rw [sub_sub, zpow_sub₀ two_ne_zero, zpow_natCast]
    calc (2 : ℚ) ^ a.log2 / 2 ^ ((b.log2 : Int) + 1)
        = 2 ^ a.log2 / 2 ^ (b.log2 + 1) := by norm_cast
      _ < 2 ^ a.log2 / b := div_lt_div_of_pos_left (by positivity) hb' h₂
      _ ≤ a / b := by gcongr
  have hhigh : (a : ℚ) / b < 2 ^ ((a.log2 : Int) - b.log2 + 1) := by
    have h₁ : (a : ℚ) < 2 ^ (a.log2 + 1) := by exact_mod_cast Nat.lt_log2_self
    have h₂ : (2 : ℚ) ^ b.log2 ≤ b := by exact_mod_cast Nat.log2_self_le hb.ne'
    rw [sub_add_eq_add_sub, zpow_sub₀ two_ne_zero, zpow_natCast]
    calc (a : ℚ) / b ≤ a / 2 ^ b.log2 := div_le_div_of_nonneg_left ha'.le (by positivity) h₂
      _ < 2 ^ (a.log2 + 1) / 2 ^ b.log2 := by gcongr
      _ = 2 ^ ((a.log2 : Int) + 1) / 2 ^ b.log2 := by norm_cast
  unfold floorLog2
  simp only [shift_lt_iff hb]
  symm
  split
  · rename_i hbelow
    refine le_antisymm ?_ ((Int.zpow_le_iff_le_log (by norm_num) hq).mp (by exact_mod_cast hlow.le))
    exact Int.le_sub_one_of_lt ((Int.lt_zpow_iff_log_lt (by norm_num) hq).mp (by exact_mod_cast hbelow))
  · rename_i hbelow
    refine le_antisymm ?_ ((Int.zpow_le_iff_le_log (by norm_num) hq).mp
      (by exact_mod_cast not_lt.mp hbelow))
    exact Int.lt_add_one_iff.mp ((Int.lt_zpow_iff_log_lt (by norm_num) hq).mp (by exact_mod_cast hhigh))

theorem roundHalfEven_mul_right (hc : 0 < c) :
    roundHalfEven (a * c) (b * c) = roundHalfEven a b := by
  have hmod : 2 * (a * c % (b * c)) = 2 * (a % b) * c := by
    rw [Nat.mul_mod_mul_right, Nat.mul_assoc]
  simp only [roundHalfEven, Nat.mul_div_mul_right _ _ hc, hmod, Nat.mul_lt_mul_right hc]

/-- A quotient without remainder is not rounded. -/
theorem roundHalfEven_of_exact (hb : 0 < b) : roundHalfEven (c * b) b = c := by
  simp [roundHalfEven, Nat.mul_div_cancel _ hb, hb]

/-- Rounding sees the ratio only. -/
theorem ofRatio_mul_right (negative : Bool) (hc : 0 < c) :
    ofRatio negative (a * c) (b * c) = ofRatio negative a b := by
  by_cases h : a = 0 ∨ b = 0
  · have h' : a * c = 0 ∨ b * c = 0 := by
      rcases h with rfl | rfl <;> simp
    simp only [ofRatio, if_pos h, if_pos h', if_true]
  · have h' : ¬ (a * c = 0 ∨ b * c = 0) := by
      simpa [hc.ne'] using h
    obtain ⟨ha, hb⟩ : 0 < a ∧ 0 < b := by omega
    have hlog : floorLog2 (a * c) (b * c) = floorLog2 a b := by
      rw [floorLog2_eq ha hb, floorLog2_eq (Nat.mul_pos ha hc) (Nat.mul_pos hb hc), Nat.cast_mul,
        Nat.cast_mul, mul_div_mul_right _ _ (by exact_mod_cast hc.ne')]
    have hshift : ∀ x n : Nat, (x * c) <<< n = x <<< n * c := by
      intro x n
      rw [Nat.shiftLeft_eq, Nat.shiftLeft_eq, Nat.mul_right_comm]
    simp only [ofRatio, if_neg h, if_neg h', hlog, hshift, roundHalfEven_mul_right hc]

theorem ofRatio_congr {negative : Bool} {d : Nat} (h : a * d = c * b) (hb : 0 < b) (hd : 0 < d) :
    ofRatio negative a b = ofRatio negative c d := by
  rw [← ofRatio_mul_right negative hd, h, Nat.mul_comm b d, ofRatio_mul_right negative hb]

end Log

end JsNumber

/-! ## The magnitude of a double -/

theorem isDouble_neg {d : Dyadic} : IsDouble (-d) ↔ IsDouble d := by
  cases d with
  | zero => exact Iff.rfl
  | ofOdd n k h =>
    rw [Dyadic.neg_ofOdd]
    simp only [IsDouble, Int.natAbs_neg]

namespace Double

/-- The magnitude of a double. -/
def abs (d : Double) : Dyadic := if d.val < 0 then -d.val else d.val

theorem isDouble_abs (d : Double) : IsDouble d.abs := by
  unfold abs
  split
  · exact isDouble_neg.mpr d.isDouble
  · exact d.isDouble

theorem toRat_abs (d : Double) : d.abs.toRat = |d.val.toRat| := by
  unfold abs
  split
  · rename_i h
    rw [← Dyadic.toRat_lt_toRat_iff, Dyadic.toRat_zero] at h
    rw [Dyadic.toRat_neg, abs_of_neg h]
  · rename_i h
    rw [← Dyadic.toRat_lt_toRat_iff, Dyadic.toRat_zero] at h
    rw [abs_of_nonneg (not_lt.mp h)]

end Double

namespace JsNumber

section Exact
variable {d : Double} {a b : Nat}

theorem magnitude_pos (h : d.val ≠ 0) : 0 < (magnitude d).1 ∧ 0 < (magnitude d).2 := by
  unfold magnitude
  split
  · rename_i hd
    exact absurd hd h
  · rename_i n k hn hd
    have hn' : 0 < n.natAbs := by omega
    split
    · rw [Nat.shiftLeft_eq]
      exact ⟨Nat.mul_pos hn' (Nat.two_pow_pos _), Nat.one_pos⟩
    · exact ⟨hn', Nat.two_pow_pos _⟩

theorem magnitude_den_pos (d : Double) : 0 < (magnitude d).2 := by
  by_cases hzero : d.val = 0
  · obtain ⟨d, hd⟩ := d
    subst hzero
    exact Nat.one_pos
  · exact (magnitude_pos hzero).2

/-- The bits of a double end where those of its rounding would. -/
theorem unit_le {n : Int} {k : Int} (hn : 0 < n.natAbs) (hbits : n.natAbs < 2 ^ 53) (hk : k ≤ 1074)
    {a b : Nat} (hb : 0 < b) (hq : (a : ℚ) / b = n.natAbs * 2 ^ (-k)) :
    max (floorLog2 a b - 52) (-1074) ≤ -k := by
  have hn' : (0 : ℚ) < n.natAbs := by exact_mod_cast hn
  have hpow : (0 : ℚ) < 2 ^ (-k) := zpow_pos two_pos _
  have hq' : (0 : ℚ) < (a : ℚ) / b := hq ▸ mul_pos hn' hpow
  have ha : 0 < a := by
    rcases Nat.eq_zero_or_pos a with rfl | ha
    · simp at hq'
    · exact ha
  have hlt : (a : ℚ) / b < 2 ^ (53 - k) := by
    rw [hq, sub_eq_add_neg, zpow_add₀ two_ne_zero]
    have h53 : (n.natAbs : ℚ) < 2 ^ (53 : Int) := by exact_mod_cast hbits
    exact mul_lt_mul_of_pos_right h53 hpow
  have hlog := (Int.lt_zpow_iff_log_lt (b := 2) (by norm_num) hq').mp (by exact_mod_cast hlt)
  rw [← floorLog2_eq ha hb] at hlog
  omega

theorem magnitude_value (h : d.val ≠ 0) : ∃ n k hn, d.val = .ofOdd n k hn ∧ 0 < n.natAbs ∧
    ((magnitude d).1 : ℚ) / (magnitude d).2 = n.natAbs * 2 ^ (-k) := by
  unfold magnitude
  split
  · rename_i hd
    exact absurd hd h
  · rename_i n k hn hd
    refine ⟨n, k, hn, hd, by omega, ?_⟩
    split
    · rename_i hk
      obtain ⟨j, rfl⟩ : ∃ j : Nat, k = -j := ⟨(-k).toNat, by omega⟩
      rw [neg_neg, Int.toNat_natCast, Nat.shiftLeft_eq, zpow_natCast]
      push_cast
      rw [div_one]
    · rename_i hk
      obtain ⟨j, rfl⟩ : ∃ j : Nat, k = j := ⟨k.toNat, by omega⟩
      rw [Int.toNat_natCast, zpow_neg, zpow_natCast]
      push_cast
      rw [div_eq_mul_inv]

/-- **Rounding the magnitude of a double gives the double.** -/
theorem ofRatio_magnitude (h : d.val ≠ 0) (negative : Bool) :
    ofRatio negative (magnitude d).1 (magnitude d).2 =
      ofDyadic (if negative then -d.abs else d.abs) := by
  obtain ⟨ha, hb⟩ := magnitude_pos h
  obtain ⟨n, k, hn, hval, hpos, hq⟩ := magnitude_value h
  have hdouble := d.isDouble
  rw [hval] at hdouble
  have hu := unit_le hpos hdouble.1 hdouble.2.1 hb hq
  generalize hudef : max (floorLog2 (magnitude d).1 (magnitude d).2 - 52) (-1074) = u at hu
  -- the significand the rounding finds
  obtain ⟨m, hm⟩ : ∃ m : Nat, m = n.natAbs * 2 ^ (-k - u).toNat := ⟨_, rfl⟩
  have hmu : (m : ℚ) * 2 ^ u = n.natAbs * 2 ^ (-k) := by
    rw [hm]
    push_cast
    rw [mul_assoc, ← zpow_natCast, ← zpow_add₀ two_ne_zero]
    congr 2
    omega
  have hround : (if u < 0 then roundHalfEven ((magnitude d).1 <<< (-u).toNat) (magnitude d).2
      else roundHalfEven (magnitude d).1 ((magnitude d).2 <<< u.toNat)) = m := by
    rw [← hmu, div_eq_iff (by exact_mod_cast hb.ne')] at hq
    split
    · rename_i hneg
      obtain ⟨j, rfl⟩ : ∃ j : Nat, u = -j := ⟨(-u).toNat, by omega⟩
      rw [neg_neg, Int.toNat_natCast, Nat.shiftLeft_eq]
      rw [zpow_neg, zpow_natCast] at hq
      have hexact : (magnitude d).1 * 2 ^ j = m * (magnitude d).2 := by
        have : ((magnitude d).1 : ℚ) * 2 ^ j = m * (magnitude d).2 := by
          rw [hq]
          field_simp
        exact_mod_cast this
      rw [hexact, roundHalfEven_of_exact hb]
    · rename_i hneg
      obtain ⟨j, rfl⟩ : ∃ j : Nat, u = j := ⟨u.toNat, by omega⟩
      rw [Int.toNat_natCast, Nat.shiftLeft_eq]
      rw [zpow_natCast] at hq
      have hexact : (magnitude d).1 = m * ((magnitude d).2 * 2 ^ j) := by
        have : ((magnitude d).1 : ℚ) = m * ((magnitude d).2 * 2 ^ j) := by
          rw [hq]
          ring
        exact_mod_cast this
      rw [hexact, roundHalfEven_of_exact (Nat.mul_pos hb (Nat.two_pow_pos _))]
  have hzero : m ≠ 0 := by
    rw [hm]
    exact Nat.mul_ne_zero hpos.ne' (Nat.two_pow_pos _).ne'
  have habs : Dyadic.ofIntWithPrec m (-u) = d.abs := by
    rw [← Dyadic.toRat_inj, Dyadic.toRat_ofIntWithPrec_eq_mul_two_pow, neg_neg, Double.toRat_abs,
      hval, Dyadic.toRat_ofOdd_eq_mul_two_pow, abs_mul,
      abs_of_pos (zpow_pos (two_pos (α := ℚ)) (-k)), Int.cast_natCast, hmu, ← Int.cast_abs,
      Int.abs_eq_natAbs]
    rfl
  have hne : ¬ ((magnitude d).1 = 0 ∨ (magnitude d).2 = 0) := by omega
  simp only [ofRatio, if_neg hne, hudef, hround, if_neg hzero]
  rcases negative with _ | _
  · simp only [Bool.false_eq_true, if_false, habs]
  · simp only [if_true, ← habs, Dyadic.neg_ofIntWithPrec]

theorem ofDyadic_of_isDouble {x : Dyadic} (h : IsDouble x) : ofDyadic x = .finite ⟨x, h⟩ :=
  dif_pos h

theorem eq_of_ofDyadic {x : Dyadic} {y : Double} (h : ofDyadic x = .finite y) : x = y.val := by
  unfold ofDyadic at h
  split at h
  · cases h
    rfl
  · split at h <;> cases h

/-- The sign goes through rounding. -/
theorem ofRatio_sign (h : d.val ≠ 0) (hround : ofRatio false a b = ofDyadic d.abs)
    (negative : Bool) : ofRatio negative a b = ofDyadic (if negative then -d.abs else d.abs) := by
  rcases negative with _ | _
  · simpa using hround
  · have habs : d.abs ≠ 0 := by
      rw [← Dyadic.toRat_inj.ne, Double.toRat_abs, Dyadic.toRat_zero, abs_ne_zero, ← Dyadic.toRat_zero,
        Dyadic.toRat_inj.ne]
      exact h
    rw [ofDyadic_of_isDouble d.isDouble_abs] at hround
    unfold ofRatio at hround ⊢
    dsimp only at hround ⊢
    generalize (if a = 0 ∨ b = 0 then 0 else _ : Nat) = m at hround ⊢
    by_cases hm : m = 0
    · rw [if_pos hm, if_neg Bool.false_ne_true, zero] at hround
      exact absurd (congrArg Double.val (JsNumber.finite.inj hround)).symm habs
    · rw [if_neg hm, if_neg Bool.false_ne_true] at hround
      rw [if_neg hm, if_pos rfl, if_pos rfl, ← Dyadic.neg_ofIntWithPrec, eq_of_ofDyadic hround]

/-- The magnitude with the sign of a double is the double. -/
theorem ofDyadic_signed (d : Double) :
    ofDyadic (if decide (d.val < 0) then -d.abs else d.abs) = .finite d := by
  have hval : (if decide (d.val < 0) = true then -d.abs else d.abs) = d.val := by
    unfold Double.abs
    by_cases h : d.val < 0
    · simp only [h, decide_true, if_true]
      rw [← Dyadic.toRat_inj, Dyadic.toRat_neg, Dyadic.toRat_neg, neg_neg]
    · simp [h]
  rw [hval, ofDyadic_of_isDouble d.isDouble]

end Exact

/-! ## Integers -/

section Integers
variable {a : Nat}

/-- An integer has no bits behind the point. -/
theorem precision_nonpos {m k n : Int} (hm : m % 2 = 1) (h : (m : ℚ) * 2 ^ (-k) = n) : k ≤ 0 := by
  by_contra hpos
  obtain ⟨j, rfl⟩ : ∃ j : Nat, k = j + 1 := ⟨(k - 1).toNat, by omega⟩
  have hone : ((j : Int) + 1) = ((j + 1 : Nat) : Int) := by omega
  rw [hone, zpow_neg, zpow_natCast, ← div_eq_mul_inv, div_eq_iff (by positivity)] at h
  have hm' : m = n * 2 ^ (j + 1) := by exact_mod_cast h
  rw [hm', pow_succ, ← mul_assoc, Int.mul_emod_left] at hm
  cases hm

/-- An integer of at most 53 bits is a double. -/
theorem isDouble_of_toRat {x : Dyadic} {n : Int} (hx : x.toRat = n) (hn : n.natAbs < 2 ^ 53) :
    IsDouble x := by
  cases x with
  | zero => trivial
  | ofOdd m k hm =>
    rw [Dyadic.toRat_ofOdd_eq_mul_two_pow] at hx
    have hk : k ≤ 0 := precision_nonpos hm hx
    obtain ⟨j, rfl⟩ : ∃ j : Nat, k = -j := ⟨(-k).toNat, by omega⟩
    rw [neg_neg, zpow_natCast] at hx
    have hn' : n = m * 2 ^ j := by exact_mod_cast hx.symm
    have habs : n.natAbs = m.natAbs * 2 ^ j := by
      rw [hn', Int.natAbs_mul, Int.natAbs_pow]
      rfl
    have hm0 : m.natAbs ≠ 0 := by omega
    have hlog : 2 ^ (m.natAbs.log2 + j) < 2 ^ 53 :=
      calc 2 ^ (m.natAbs.log2 + j) = 2 ^ m.natAbs.log2 * 2 ^ j := Nat.pow_add ..
        _ ≤ m.natAbs * 2 ^ j := Nat.mul_le_mul_right _ (Nat.log2_self_le hm0)
        _ < 2 ^ 53 := habs ▸ hn
    have hlog' := (Nat.pow_lt_pow_iff_right (by norm_num)).mp hlog
    have hm53 : m.natAbs < 2 ^ 53 :=
      (Nat.le_mul_of_pos_right _ (Nat.two_pow_pos j)).trans_lt (habs ▸ hn)
    exact ⟨hm53, by omega, by omega⟩

theorem floorLog2_one (ha : 0 < a) : floorLog2 a 1 = a.log2 := by
  have hle : 2 ^ a.log2 ≤ a := Nat.log2_self_le ha.ne'
  have hone : Nat.log2 1 = 0 := by decide
  have hnonneg : ¬ (a.log2 : Int) < 0 := by omega
  unfold floorLog2
  simp only [hone, Nat.cast_zero, sub_zero, if_neg hnonneg, Int.toNat_natCast, Nat.shiftLeft_eq,
    Nat.one_mul, if_neg (not_lt.mpr hle)]

/-- A positive integer of at most 53 bits is not rounded. -/
theorem ofRatio_integer (ha : 0 < a) (hsmall : a < 2 ^ 53) (negative : Bool) :
    ofRatio negative a 1 = ofDyadic (if negative then -(a : Dyadic) else (a : Dyadic)) := by
  have hlog : a.log2 ≤ 52 := by
    have := (Nat.pow_lt_pow_iff_right (a := 2) (by norm_num)).mp
      ((Nat.log2_self_le ha.ne').trans_lt hsmall)
    omega
  obtain ⟨j, hj⟩ : ∃ j : Nat, max ((a.log2 : Int) - 52) (-1074) = -j :=
    ⟨52 - a.log2, by omega⟩
  have hmantissa : (if -(j : Int) < 0 then roundHalfEven (a <<< (- -(j : Int)).toNat) 1
      else roundHalfEven a (1 <<< (-(j : Int)).toNat)) = a * 2 ^ j := by
    split
    · rw [neg_neg, Int.toNat_natCast, Nat.shiftLeft_eq]
      simpa using roundHalfEven_of_exact (c := a * 2 ^ j) Nat.one_pos
    · have hzero : j = 0 := by omega
      subst hzero
      simpa using roundHalfEven_of_exact (c := a) Nat.one_pos
  have hne : a * 2 ^ j ≠ 0 := (Nat.mul_pos ha (Nat.two_pow_pos j)).ne'
  have hvalue : Dyadic.ofIntWithPrec ((a * 2 ^ j : Nat) : Int) j = (a : Dyadic) := by
    rw [← Dyadic.toRat_inj, Dyadic.toRat_ofIntWithPrec_eq_mul_two_pow, Dyadic.toRat_natCast,
      zpow_neg, zpow_natCast]
    push_cast
    field_simp
  unfold ofRatio
  rw [floorLog2_one ha, hj]
  dsimp only
  rw [if_neg (by omega : ¬ (a = 0 ∨ 1 = 0)), hmantissa, if_neg hne, neg_neg]
  rcases negative with _ | _
  · rw [if_neg Bool.false_ne_true, if_neg Bool.false_ne_true, hvalue]
  · rw [if_pos rfl, if_pos rfl, ← Dyadic.neg_ofIntWithPrec, hvalue]

/-- An integer of more than 53 bits does not become smaller than that. -/
theorem ofRatio_large (hlarge : 2 ^ 53 ≤ a) :
    ∃ x : Dyadic, ofRatio false a 1 = ofDyadic x ∧ (2 : ℚ) ^ 53 ≤ x.toRat := by
  have ha : 0 < a := (Nat.two_pow_pos 53).trans_le hlarge
  have hlog : 53 ≤ a.log2 := (Nat.le_log2 ha.ne').mpr hlarge
  obtain ⟨j, hj⟩ : ∃ j : Nat, max ((a.log2 : Int) - 52) (-1074) = ((j + 1 : Nat) : Int) :=
    ⟨a.log2 - 53, by omega⟩
  have hquotient : 2 ^ 52 ≤ a / 2 ^ (j + 1) := by
    rw [Nat.le_div_iff_mul_le (Nat.two_pow_pos _), ← Nat.pow_add]
    exact (Nat.pow_le_pow_right (by norm_num) (by omega)).trans (Nat.log2_self_le ha.ne')
  have hround : ∀ b, a / b ≤ roundHalfEven a b := by
    intro b
    unfold roundHalfEven
    dsimp only
    split
    · exact le_refl _
    · split
      · omega
      · split <;> omega
  unfold ofRatio
  rw [floorLog2_one ha, hj]
  dsimp only
  rw [if_neg (by omega : ¬ (a = 0 ∨ 1 = 0)), if_neg (by omega : ¬ ((j + 1 : Nat) : Int) < 0),
    Int.toNat_natCast, Nat.shiftLeft_eq, Nat.one_mul]
  have hm := hquotient.trans (hround (2 ^ (j + 1)))
  generalize roundHalfEven a (2 ^ (j + 1)) = m at hm ⊢
  have hm0 : m ≠ 0 := ((Nat.two_pow_pos 52).trans_le hm).ne'
  refine ⟨Dyadic.ofIntWithPrec m (-((j + 1 : Nat) : Int)), ?_, ?_⟩
  · rw [if_neg hm0, if_neg Bool.false_ne_true]
  · rw [Dyadic.toRat_ofIntWithPrec_eq_mul_two_pow, neg_neg, zpow_natCast]
    have hm' : (2 : ℚ) ^ 52 ≤ ((m : Int) : ℚ) := by exact_mod_cast hm
    have hj' : (2 : ℚ) ≤ 2 ^ (j + 1) := le_self_pow₀ (by norm_num) (Nat.succ_ne_zero j)
    calc (2 : ℚ) ^ 53 = 2 ^ 52 * 2 := by norm_num
      _ ≤ ((m : Int) : ℚ) * 2 ^ (j + 1) := mul_le_mul hm' hj' (by norm_num) (by positivity)

/-- **No other integer rounds to an integer of at most 53 bits.** -/
theorem integer_inj {m : Nat} (hm : 0 < m) (hsmall : a < 2 ^ 53)
    (h : ofRatio false m 1 = ofDyadic (a : Dyadic)) : m = a := by
  have hdouble : ∀ {b : Nat}, b < 2 ^ 53 → IsDouble (b : Dyadic) := fun {b} hb =>
    isDouble_of_toRat (n := b) (Dyadic.toRat_natCast b) (by omega)
  rw [ofDyadic_of_isDouble (hdouble hsmall)] at h
  by_cases hbits : m < 2 ^ 53
  · rw [ofRatio_integer hm hbits, if_neg Bool.false_ne_true] at h
    have := congrArg Dyadic.toRat (eq_of_ofDyadic h)
    rw [Dyadic.toRat_natCast, Dyadic.toRat_natCast] at this
    exact_mod_cast this
  · obtain ⟨x, hx, hlarge⟩ := ofRatio_large (not_lt.mp hbits)
    rw [hx] at h
    rw [eq_of_ofDyadic h, Dyadic.toRat_natCast] at hlarge
    have : 2 ^ 53 ≤ a := by exact_mod_cast hlarge
    omega

/-- The magnitude of a double that is an integer. -/
theorem magnitude_integer {d : Double} {n : Int} (h : d.val = (n : Dyadic)) :
    magnitude d = (n.natAbs, 1) := by
  have hrat : d.val.toRat = n := by rw [h, Dyadic.toRat_intCast]
  unfold magnitude
  split
  · rename_i hd
    rw [hd] at hrat
    rw [Dyadic.zero_eq, Dyadic.toRat_zero] at hrat
    have hzero : n = 0 := by exact_mod_cast hrat.symm
    rw [hzero]
    rfl
  · rename_i m k hm hd
    rw [hd, Dyadic.toRat_ofOdd_eq_mul_two_pow] at hrat
    obtain ⟨j, rfl⟩ : ∃ j : Nat, k = -j :=
      ⟨(-k).toNat, by have := precision_nonpos hm hrat; omega⟩
    rw [neg_neg, zpow_natCast] at hrat
    have hn : n = m * 2 ^ j := by exact_mod_cast hrat.symm
    have habs : n.natAbs = m.natAbs * 2 ^ j := by
      rw [hn, Int.natAbs_mul, Int.natAbs_pow]
      rfl
    split
    · rw [neg_neg, Int.toNat_natCast, Nat.shiftLeft_eq, habs]
    · have hzero : j = 0 := by omega
      subst hzero
      rw [habs, Nat.pow_zero, Nat.mul_one]
      rfl

end Integers

end JsNumber
end Js

import Parmana.Js.Rounding

/-! # The shortest decimal of a double

The search of `Number::toString` tries one digit more at each step and takes the
first candidate that rounds back to the double.  It ends: at the length at which
the decimal is exact, which its fuel reaches for every double, the lower
candidate is the double itself.  What it finds is therefore always a decimal
that rounds to the double (`shortest_magnitude`).
-/
namespace Js
namespace JsNumber

/-! ## Decimals -/

/-- `± s · 10 ^ p`, rounded. -/
def ofScaled (negative : Bool) (s : Nat) (p : Int) : JsNumber :=
  if p < 0 then ofRatio negative s (10 ^ (-p).toNat) else ofRatio negative (s * 10 ^ p.toNat) 1

theorem ofScaled_ratio (s : Nat) (p : Int) : ∃ a b : Nat, 0 < b ∧ (a : ℚ) / b = s * 10 ^ p ∧
    ∀ negative, ofScaled negative s p = ofRatio negative a b := by
  unfold ofScaled
  by_cases hp : p < 0
  · obtain ⟨j, rfl⟩ : ∃ j : Nat, p = -j := ⟨(-p).toNat, by omega⟩
    refine ⟨s, 10 ^ j, Nat.pow_pos (by norm_num), ?_, fun negative => ?_⟩
    · rw [zpow_neg, zpow_natCast]
      push_cast
      rw [div_eq_mul_inv]
    · rw [if_pos hp, neg_neg, Int.toNat_natCast]
  · obtain ⟨j, rfl⟩ : ∃ j : Nat, p = j := ⟨p.toNat, by omega⟩
    refine ⟨s * 10 ^ j, 1, Nat.one_pos, ?_, fun negative => ?_⟩
    · rw [zpow_natCast]
      push_cast
      rw [div_one]
    · rw [if_neg hp, Int.toNat_natCast]

/-- Two ways to write a rational are rounded to one number. -/
theorem ofRatio_eq {negative : Bool} {a b c d : Nat} (hb : 0 < b) (hd : 0 < d)
    (h : (a : ℚ) / b = (c : ℚ) / d) : ofRatio negative a b = ofRatio negative c d := by
  have hb' : (b : ℚ) ≠ 0 := by exact_mod_cast hb.ne'
  have hd' : (d : ℚ) ≠ 0 := by exact_mod_cast hd.ne'
  rw [div_eq_div_iff hb' hd'] at h
  exact ofRatio_congr (by exact_mod_cast h) hb hd

theorem ofScaled_congr {negative : Bool} {s t : Nat} {p q : Int}
    (h : (s : ℚ) * 10 ^ p = t * 10 ^ q) : ofScaled negative s p = ofScaled negative t q := by
  obtain ⟨a, b, hb, hratio, hround⟩ := ofScaled_ratio s p
  obtain ⟨c, d, hd, hratio', hround'⟩ := ofScaled_ratio t q
  rw [hround, hround', ofRatio_eq hb hd (hratio.trans (h.trans hratio'.symm))]

theorem ofScaled_ten (negative : Bool) (s : Nat) (p : Int) :
    ofScaled negative (s * 10) p = ofScaled negative s (p + 1) := by
  refine ofScaled_congr ?_
  rw [zpow_add_one₀ (by norm_num)]
  push_cast
  ring

theorem ofScaled_sign {d : Double} {s : Nat} {p : Int} (h : d.val ≠ 0)
    (hround : ofScaled false s p = ofDyadic d.abs) (negative : Bool) :
    ofScaled negative s p = ofDyadic (if negative then -d.abs else d.abs) := by
  unfold ofScaled at hround ⊢
  split
  · rename_i hp
    rw [if_pos hp] at hround
    exact ofRatio_sign h hround negative
  · rename_i hp
    rw [if_neg hp] at hround
    exact ofRatio_sign h hround negative

theorem roundsTo_iff {d : Double} {s : Nat} {p : Int} :
    roundsTo d s p = true ↔ ofScaled false s p = ofDyadic d.abs := by
  unfold roundsTo ofScaled Double.abs
  exact decide_eq_true_iff

section Exponent
variable {a b : Nat}

/-- The decimal exponent of a ratio: it reads `0.… · 10 ^ n`. -/
def HasExponent (a b : Nat) (n : Int) : Prop :=
  (10 : ℚ) ^ (n - 1) ≤ (a : ℚ) / b ∧ (a : ℚ) / b < 10 ^ n

theorem hasExponent_go {z : Nat} (fuel : Nat) (hb : 0 < b) (hsmall : a * 10 ^ z < b)
    (hfuel : b ≤ a * 10 ^ (z + fuel)) :
    HasExponent a b (decimalExponent.go b fuel (z + 1) (a * 10 ^ (z + 1))) := by
  have hb' : (0 : ℚ) < b := by exact_mod_cast hb
  induction fuel generalizing z with
  | zero =>
    rw [Nat.add_zero] at hfuel
    omega
  | succ fuel ih =>
    unfold decimalExponent.go
    split
    · rename_i hreach
      have hlow : (b : ℚ) ≤ a * 10 ^ (z + 1) := by exact_mod_cast hreach
      have hhigh : (a : ℚ) * 10 ^ z < b := by exact_mod_cast hsmall
      have h₁ : (1 : Int) - (z + 1) - 1 = -((z + 1 : Nat) : Int) := by omega
      have h₂ : (1 : Int) - (z + 1) = -((z : Nat) : Int) := by omega
      unfold HasExponent
      rw [h₁, h₂, zpow_neg, zpow_neg, zpow_natCast, zpow_natCast, le_div_iff₀ hb', div_lt_iff₀ hb',
        inv_mul_le_iff₀ (by positivity), lt_inv_mul_iff₀ (by positivity), mul_comm _ (a : ℚ),
        mul_comm _ (a : ℚ)]
      exact ⟨hlow, hhigh⟩
    · rename_i hmore
      have hstep : a * 10 ^ (z + 1) * 10 = a * 10 ^ (z + 1 + 1) := by
        rw [Nat.pow_succ 10 (z + 1), Nat.mul_assoc]
      rw [hstep]
      exact_mod_cast ih (z := z + 1) (by omega) (by rwa [Nat.add_right_comm])

/-- **`decimalExponent` is the decimal exponent**, of every ratio that is not
absurdly small. -/
theorem decimalExponent_spec (hb : 0 < b) (hsmall : b ≤ a * 10 ^ 400) :
    HasExponent a b (decimalExponent a b) := by
  have hb' : (0 : ℚ) < b := by exact_mod_cast hb
  unfold decimalExponent
  split
  · rename_i hle
    have hpos : 0 < a / b := Nat.div_pos hle hb
    generalize hlen : (Nat.toDigits 10 (a / b)).length = l
    have hl : 0 < l := hlen ▸ Nat.length_toDigits_pos
    have hupper : a / b < 10 ^ l := (Nat.length_toDigits_le_iff (by norm_num) hl).mp hlen.le
    have hlower : 10 ^ (l - 1) ≤ a / b := by
      by_cases hone : l = 1
      · subst hone
        exact hpos
      · by_contra hlt
        have := (Nat.length_toDigits_le_iff (b := 10) (by norm_num) (k := l - 1) (by omega)).mpr
          (not_le.mp hlt)
        omega
    have hl' : ((l : Int) - 1) = ((l - 1 : Nat) : Int) := by omega
    unfold HasExponent
    rw [hl', zpow_natCast, zpow_natCast, le_div_iff₀ hb', div_lt_iff₀ hb']
    constructor
    · exact_mod_cast (Nat.le_div_iff_mul_le hb).mp hlower
    · exact_mod_cast (Nat.div_lt_iff_lt_mul hb).mp hupper
  · rename_i hlt
    have hstart : a * 10 ^ 0 < b := by
      rw [Nat.pow_zero, Nat.mul_one]
      omega
    have hrest := hasExponent_go 400 hb hstart (by rwa [Nat.zero_add])
    rwa [Nat.zero_add, Nat.pow_one] at hrest

end Exponent

section Shortest
variable {d : Double} {a b : Nat} {n : Int}

/-- What the digits found are: `k` of them, at most `K`, rounding to the double
at an exponent near `n`. -/
structure IsShort (d : Double) (n : Int) (K : Nat) (found : Nat × Nat × Int) : Prop where
  positive : 0 < found.2.1
  within : found.2.1 ≤ K
  low : 10 ^ (found.2.1 - 1) ≤ found.1
  high : found.1 < 10 ^ found.2.1
  near : n ≤ found.2.2 ∧ found.2.2 ≤ n + 1
  rounds : ofScaled false found.1 (found.2.2 - found.2.1) = ofDyadic d.abs

/-- One candidate length of the search: the quotient and the divisor it is
taken by. -/
theorem scaled_quotient (hb : 0 < b) (p : Int) :
    0 < (if p < 0 then b else b * 10 ^ p.toNat) ∧
    ((if p < 0 then a * 10 ^ (-p).toNat else a : Nat) : ℚ) /
      (if p < 0 then b else b * 10 ^ p.toNat : Nat) = (a : ℚ) / b * 10 ^ (-p) := by
  have hb' : (b : ℚ) ≠ 0 := by exact_mod_cast hb.ne'
  split
  · rename_i hp
    obtain ⟨j, rfl⟩ : ∃ j : Nat, p = -j := ⟨(-p).toNat, by omega⟩
    refine ⟨hb, ?_⟩
    rw [neg_neg, Int.toNat_natCast, zpow_natCast]
    push_cast
    field_simp
  · rename_i hp
    obtain ⟨j, rfl⟩ : ∃ j : Nat, p = j := ⟨p.toNat, by omega⟩
    refine ⟨Nat.mul_pos hb (Nat.pow_pos (by norm_num)), ?_⟩
    rw [Int.toNat_natCast, zpow_neg, zpow_natCast]
    push_cast
    field_simp

/-- The quotient at `k` digits has `k` digits. -/
theorem quotient_bounds {num den k : Nat} (hn : HasExponent a b n) (hk : 0 < k) (hden : 0 < den)
    (hq : (num : ℚ) / den = (a : ℚ) / b * 10 ^ (-(n - k))) :
    10 ^ (k - 1) ≤ num / den ∧ num / den < 10 ^ k := by
  have hden' : (0 : ℚ) < den := by exact_mod_cast hden
  have hscale : (0 : ℚ) < 10 ^ (-(n - k)) := zpow_pos (by norm_num) _
  have hlow : (10 : ℚ) ^ (k - 1) ≤ (num : ℚ) / den := by
    rw [hq]
    calc (10 : ℚ) ^ (k - 1) = 10 ^ (n - 1) * 10 ^ (-(n - k)) := by
          rw [← zpow_add₀ (by norm_num), ← zpow_natCast]
          congr 1
          omega
      _ ≤ (a : ℚ) / b * 10 ^ (-(n - k)) := mul_le_mul_of_nonneg_right hn.1 hscale.le
  have hhigh : (num : ℚ) / den < 10 ^ k := by
    rw [hq]
    calc (a : ℚ) / b * 10 ^ (-(n - k)) < 10 ^ n * 10 ^ (-(n - k)) :=
          mul_lt_mul_of_pos_right hn.2 hscale
      _ = (10 : ℚ) ^ k := by
          rw [← zpow_add₀ (by norm_num), ← zpow_natCast]
          congr 1
          omega
  rw [le_div_iff₀ hden'] at hlow
  rw [div_lt_iff₀ hden'] at hhigh
  exact ⟨(Nat.le_div_iff_mul_le hden).mpr (by exact_mod_cast hlow),
    (Nat.div_lt_iff_lt_mul hden).mpr (by exact_mod_cast hhigh)⟩

/-- An exact candidate rounds to the double. -/
theorem roundsTo_of_exact (h : d.val ≠ 0) {s : Nat} {p : Int}
    (hs : ((magnitude d).1 : ℚ) / (magnitude d).2 = s * 10 ^ p) : roundsTo d s p = true := by
  obtain ⟨-, hb⟩ := magnitude_pos h
  obtain ⟨c, e, he, hratio, hround⟩ := ofScaled_ratio s p
  have hmagnitude := ofRatio_magnitude h false
  rw [if_neg Bool.false_ne_true] at hmagnitude
  rw [roundsTo_iff, hround, ← hmagnitude]
  exact ofRatio_eq he hb (hratio.trans hs.symm)

/-- **The search finds digits that round to the double**, if the fuel reaches a
length at which the decimal is exact. -/
theorem shortest_spec (h : d.val ≠ 0) (hn : HasExponent (magnitude d).1 (magnitude d).2 n)
    {K : Nat} (hexact : ∃ t : Nat, ((magnitude d).1 : ℚ) / (magnitude d).2 = t * 10 ^ (n - K))
    (fuel : Nat) {k : Nat} (hk : 0 < k) (hK : k ≤ K) (hfuel : K < k + fuel) :
    IsShort d n K (shortest d (magnitude d).1 (magnitude d).2 n fuel k) := by
  obtain ⟨-, hb⟩ := magnitude_pos h
  induction fuel generalizing k with
  | zero => omega
  | succ fuel ih =>
    unfold shortest
    dsimp only
    obtain ⟨hden, hq⟩ := scaled_quotient (a := (magnitude d).1) hb (n - k)
    generalize (if n - (k : Int) < 0 then (magnitude d).1 * 10 ^ (-(n - (k : Int))).toNat
      else (magnitude d).1) = num at hq ⊢
    generalize (if n - (k : Int) < 0 then (magnitude d).2
      else (magnitude d).2 * 10 ^ (n - (k : Int)).toNat) = den at hden hq ⊢
    obtain ⟨hlow, hhigh⟩ := quotient_bounds hn hk hden hq
    split
    · rename_i hlower
      simp only [Bool.and_eq_true] at hlower
      exact ⟨hk, hK, hlow, hhigh, ⟨le_refl n, Int.le_add_one (le_refl n)⟩, roundsTo_iff.mp hlower.1⟩
    · rename_i hlower
      split
      · rename_i hupper
        rw [roundsTo_iff] at hupper
        split
        · rename_i hcarry
          obtain ⟨j, rfl⟩ : ∃ j, k = j + 1 := ⟨k - 1, by omega⟩
          refine ⟨hk, hK, le_refl _, ?_, ⟨Int.le_add_one (le_refl n), le_refl _⟩, ?_⟩
          · exact Nat.pow_lt_pow_right (by norm_num) (Nat.lt_succ_self j)
          · rw [hcarry, Nat.pow_succ, ofScaled_ten] at hupper
            have hp : n + 1 - ((j + 1 : Nat) : Int) = n - ((j + 1 : Nat) : Int) + 1 := by omega
            rw [hp]
            exact hupper
        · rename_i hcarry
          exact ⟨hk, hK, Nat.le_succ_of_le hlow, Nat.lt_of_le_of_ne hhigh hcarry,
            ⟨le_refl n, Int.le_add_one (le_refl n)⟩, hupper⟩
      · rename_i hupper
        refine ih (by omega) ?_ (by omega)
        -- at the exact length the lower candidate is taken
        rcases Nat.lt_or_eq_of_le hK with hlt | rfl
        · exact hlt
        · exfalso
          obtain ⟨t, ht⟩ := hexact
          have hnum : num = t * den := by
            rw [ht, mul_assoc, ← zpow_add₀ (by norm_num), add_neg_cancel, zpow_zero, mul_one,
              div_eq_iff (by exact_mod_cast hden.ne')] at hq
            exact_mod_cast hq
          have hrounds := roundsTo_of_exact h ht
          subst hnum
          rw [Nat.mul_div_cancel _ hden, Nat.mul_mod_left] at hlower
          simp [hrounds, hden] at hlower

/-! The fuel reaches every double. -/

/-- The two shapes of a magnitude: an integer, or a fraction of a power of
two. -/
theorem magnitude_shape (h : d.val ≠ 0) :
    ((magnitude d).2 = 1 ∧ (magnitude d).1 < 2 ^ 1024) ∨
      ∃ j, j ≤ 1074 ∧ (magnitude d).2 = 2 ^ j ∧ (magnitude d).1 < 2 ^ 53 := by
  have hdouble := d.isDouble
  unfold magnitude
  split
  · rename_i hd
    exact absurd hd h
  · rename_i n k hn hd
    rw [hd] at hdouble
    obtain ⟨hbits, hk, hexp⟩ := hdouble
    split
    · rename_i hneg
      refine .inl ⟨rfl, ?_⟩
      obtain ⟨j, rfl⟩ : ∃ j : Nat, k = -j := ⟨(-k).toNat, by omega⟩
      rw [neg_neg, Int.toNat_natCast, Nat.shiftLeft_eq]
      have hlog : n.natAbs.log2 + 1 + j ≤ 1024 := by omega
      calc n.natAbs * 2 ^ j < 2 ^ (n.natAbs.log2 + 1) * 2 ^ j :=
            Nat.mul_lt_mul_of_pos_right Nat.lt_log2_self (Nat.two_pow_pos j)
        _ = 2 ^ (n.natAbs.log2 + 1 + j) := (Nat.pow_add ..).symm
        _ ≤ 2 ^ 1024 := Nat.pow_le_pow_right (by norm_num) hlog
    · exact .inr ⟨k.toNat, by omega, rfl, hbits⟩

theorem decimalExponent_magnitude (h : d.val ≠ 0) :
    HasExponent (magnitude d).1 (magnitude d).2
      (decimalExponent (magnitude d).1 (magnitude d).2) := by
  obtain ⟨ha, hb⟩ := magnitude_pos h
  refine decimalExponent_spec hb ?_
  have hden : (magnitude d).2 ≤ 2 ^ 1074 := by
    rcases magnitude_shape h with ⟨hone, -⟩ | ⟨j, hj, hpow, -⟩
    · rw [hone]
      exact Nat.one_le_two_pow
    · rw [hpow]
      exact Nat.pow_le_pow_right (by norm_num) hj
  calc (magnitude d).2 ≤ 2 ^ (3 * 400) :=
        hden.trans (Nat.pow_le_pow_right (by norm_num) (by norm_num))
    _ = (2 ^ 3) ^ 400 := Nat.pow_mul ..
    _ ≤ 10 ^ 400 := Nat.pow_le_pow_left (by norm_num) _
    _ ≤ (magnitude d).1 * 10 ^ 400 := Nat.le_mul_of_pos_left _ ha

/-- The exponent of an integer. -/
theorem exponent_bound_one (hn : HasExponent a 1 n) (ha : 0 < a) (hsmall : a < 2 ^ 1024) :
    0 < n ∧ n ≤ 800 := by
  obtain ⟨hlow, hhigh⟩ := hn
  rw [Nat.cast_one, div_one] at hlow hhigh
  have ha' : (1 : ℚ) ≤ a := by exact_mod_cast ha
  have hpos : 0 < n := by
    by_contra hneg
    have hle : (10 : ℚ) ^ n ≤ 1 := zpow_le_one_of_nonpos₀ (by norm_num) (by omega)
    linarith
  refine ⟨hpos, ?_⟩
  obtain ⟨m, rfl⟩ : ∃ m : Nat, n = m + 1 := ⟨(n - 1).toNat, by omega⟩
  rw [add_sub_cancel_right, zpow_natCast] at hlow
  have hlow' : 10 ^ m ≤ a := by exact_mod_cast hlow
  have hlt : 2 ^ (3 * m) < 2 ^ 1024 :=
    calc 2 ^ (3 * m) = (2 ^ 3) ^ m := Nat.pow_mul ..
      _ ≤ 10 ^ m := Nat.pow_le_pow_left (by norm_num) m
      _ ≤ a := hlow'
      _ < 2 ^ 1024 := hsmall
  have := (Nat.pow_lt_pow_iff_right (by norm_num)).mp hlt
  omega

/-- The exponent of a fraction of a power of two. -/
theorem exponent_bound {j : Nat} (hn : HasExponent a (2 ^ j) n) (ha : 0 < a) (hbits : a < 2 ^ 53)
    (hj : j ≤ 1074) : 0 < n + j ∧ n + j ≤ 800 := by
  obtain ⟨hlow, hhigh⟩ := hn
  have ha' : (1 : ℚ) ≤ a := by exact_mod_cast ha
  have hden : (0 : ℚ) < 2 ^ j := by positivity
  push_cast at hlow hhigh
  rw [le_div_iff₀ hden] at hlow
  rw [div_lt_iff₀ hden] at hhigh
  constructor
  · by_contra hneg
    have hle : (10 : ℚ) ^ n ≤ 10 ^ (-(j : Int)) := zpow_le_zpow_right₀ (by norm_num) (by omega)
    have hone : (10 : ℚ) ^ (-(j : Int)) * 2 ^ j ≤ 1 := by
      rw [zpow_neg, zpow_natCast, inv_mul_le_one₀ (by positivity)]
      gcongr
      norm_num
    have := mul_le_mul_of_nonneg_right hle hden.le
    linarith
  · by_contra hbig
    by_cases hpos : 0 < n
    · obtain ⟨m, rfl⟩ : ∃ m : Nat, n = m + 1 := ⟨(n - 1).toNat, by omega⟩
      rw [add_sub_cancel_right, zpow_natCast] at hlow
      have hlow' : 10 ^ m * 2 ^ j ≤ a := by exact_mod_cast hlow
      have hlt : 2 ^ (m + j) < 2 ^ 53 :=
        calc 2 ^ (m + j) = 2 ^ m * 2 ^ j := Nat.pow_add ..
          _ ≤ 10 ^ m * 2 ^ j := Nat.mul_le_mul_right _ (Nat.pow_le_pow_left (by norm_num) m)
          _ ≤ a := hlow'
          _ < 2 ^ 53 := hbits
      have := (Nat.pow_lt_pow_iff_right (by norm_num)).mp hlt
      omega
    · obtain ⟨i, rfl⟩ : ∃ i : Nat, n = 1 - i := ⟨(1 - n).toNat, by omega⟩
      have hexp : (1 : Int) - i - 1 = -(i : Int) := by omega
      rw [hexp, zpow_neg, zpow_natCast, inv_mul_le_iff₀ (by positivity)] at hlow
      have hlow' : 2 ^ j ≤ 10 ^ i * a := by exact_mod_cast hlow
      have hi : i ≤ 3 * 92 := by omega
      -- five cubed is less than two to the seventh
      have hfive : 5 ^ i ≤ 2 ^ (7 * 92) :=
        calc 5 ^ i ≤ 5 ^ (3 * 92) := Nat.pow_le_pow_right (by norm_num) hi
          _ = (5 ^ 3) ^ 92 := Nat.pow_mul ..
          _ ≤ (2 ^ 7) ^ 92 := Nat.pow_le_pow_left (by norm_num) _
          _ = 2 ^ (7 * 92) := (Nat.pow_mul ..).symm
      have hlt : 2 ^ j < 2 ^ (i + 7 * 92 + 53) :=
        calc 2 ^ j ≤ 10 ^ i * a := hlow'
          _ < 10 ^ i * 2 ^ 53 := Nat.mul_lt_mul_of_pos_left hbits (Nat.pow_pos (by norm_num))
          _ = 2 ^ i * 5 ^ i * 2 ^ 53 := by rw [← Nat.mul_pow]
          _ ≤ 2 ^ i * 2 ^ (7 * 92) * 2 ^ 53 :=
              Nat.mul_le_mul_right _ (Nat.mul_le_mul_left _ hfive)
          _ = 2 ^ (i + 7 * 92 + 53) := by rw [Nat.pow_add, Nat.pow_add]
      have := (Nat.pow_lt_pow_iff_right (by norm_num)).mp hlt
      omega

theorem exact_length (h : d.val ≠ 0) (hn : HasExponent (magnitude d).1 (magnitude d).2 n) :
    ∃ K : Nat, 1 ≤ K ∧ K ≤ 800 ∧
      ∃ t : Nat, ((magnitude d).1 : ℚ) / (magnitude d).2 = t * 10 ^ (n - K) := by
  obtain ⟨ha, hb⟩ := magnitude_pos h
  rcases magnitude_shape h with ⟨hone, hsmall⟩ | ⟨j, hj, hpow, hbits⟩
  · rw [hone] at hn
    obtain ⟨hlow, hhigh⟩ := exponent_bound_one hn ha hsmall
    refine ⟨n.toNat, by omega, by omega, (magnitude d).1, ?_⟩
    have hp : n - (n.toNat : Int) = 0 := by omega
    rw [hone, hp, zpow_zero, mul_one, Nat.cast_one, div_one]
  · rw [hpow] at hn
    obtain ⟨hlow, hhigh⟩ := exponent_bound hn ha hbits hj
    refine ⟨(n + j).toNat, by omega, by omega, (magnitude d).1 * 5 ^ j, ?_⟩
    have hp : n - ((n + j).toNat : Int) = -(j : Int) := by omega
    rw [hp, hpow, zpow_neg, zpow_natCast]
    push_cast
    rw [show (10 : ℚ) = 2 * 5 by norm_num, mul_pow]
    field_simp

/-- **The digits of a double round to it.** -/
theorem shortest_magnitude (h : d.val ≠ 0) :
    ∃ K, IsShort d (decimalExponent (magnitude d).1 (magnitude d).2) K
      (shortest d (magnitude d).1 (magnitude d).2
        (decimalExponent (magnitude d).1 (magnitude d).2) 800 1) := by
  have hn := decimalExponent_magnitude h
  obtain ⟨K, hlow, hhigh, hexact⟩ := exact_length h hn
  exact ⟨K, shortest_spec h hn hexact _ Nat.one_pos hlow (by omega)⟩

end Shortest

end JsNumber
end Js

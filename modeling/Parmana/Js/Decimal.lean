import Mathlib.Data.Rat.Floor
import Parmana.Js.Fixed

/-! # What a decimal text denotes

A decimal text denotes a rational exactly, also where no number of the language is that
rational.  `toFixed` writes the nearest multiple of a power of ten, so what it writes can be
above the number and can be below it; which of the two is said by what is behind the last
digit that is kept (`decimal?_fixedText`, `nearest_le_iff`, `le_nearest_iff`).  The numbers
that it leaves to `String` are written as the shortest decimal that rounds to them
(`decimal?_largeText`).
-/
namespace Js
namespace JsNumber

/-! ## Decimal texts -/

/-- The digits of an unsigned decimal literal, and the power of ten that they stand at. -/
def decimalParts (us : List UInt16) : Option (Nat × Int) :=
  let inMantissa := fun u : UInt16 => u ≠ 0x65 && u ≠ 0x45
  let mantissa := us.takeWhile inMantissa
  let whole := mantissa.takeWhile (· ≠ 0x2E)
  let fraction := (mantissa.dropWhile (· ≠ 0x2E)).drop 1
  match digitsValue 10 (whole ++ fraction), exponentValue (us.dropWhile inMantissa) with
  | some n, some e => if whole ++ fraction = [] then none else some (n, e - fraction.length)
  | _, _ => none

/-- The rational that an unsigned decimal literal denotes. -/
def decimalValue (us : List UInt16) : Option ℚ :=
  (decimalParts us).map fun parts => parts.1 * 10 ^ parts.2

theorem decimalParts_units (l : Literal) : decimalParts l.units = some (l.digits, l.scale) := by
  have hnonempty : codes l.whole ++ codes l.fraction ≠ [] := by
    simp [codes, l.whole_ne]
  have hlength : (codes l.fraction).length = l.fraction.length := List.length_map _
  unfold decimalParts
  simp only [l.takeWhile_mantissa, l.dropWhile_mantissa, l.takeWhile_whole, l.dropWhile_whole,
    l.drop_fraction, Literal.exponentValue_chars]
  rw [← codes_append, digitsValue_codes (l.whole_digits.append l.fraction_digits), codes_append]
  simp only [if_neg hnonempty, hlength]
  rfl

end JsNumber

/-- The rational that a decimal text denotes. -/
def JsString.decimal? (text : JsString) : Option ℚ :=
  match text.units with
  | 0x2D :: us => (JsNumber.decimalValue us).map fun q => -q
  | us => JsNumber.decimalValue us

namespace JsNumber

/-- The sign of a decimal text. -/
def signOf (negative : Bool) : ℚ := if negative then -1 else 1

theorem decimal?_literal (negative : Bool) (l : Literal) :
    JsString.decimal? ⟨signUnits negative ++ l.units⟩ =
      some (signOf negative * l.value) := by
  have hvalue : decimalValue l.units = some l.value := by
    unfold decimalValue
    rw [decimalParts_units]
    rfl
  cases negative with
  | true =>
    show (decimalValue l.units).map (fun q => -q) = _
    rw [hvalue, Option.map_some]
    unfold signOf
    rw [if_pos rfl, neg_one_mul]
  | false =>
    obtain ⟨c, cs, hwhole⟩ := List.exists_cons_of_ne_nil l.whole_ne
    have hhead : ∃ us, l.units = UInt16.ofNat c.toNat :: us := by
      unfold Literal.units Literal.chars Literal.mantissaChars
      rw [hwhole]
      exact ⟨_, rfl⟩
    obtain ⟨us, hus⟩ := hhead
    have hne : UInt16.ofNat c.toNat ≠ 0x2D := by
      refine (Literal.digit_ne l.whole_digits ?_).2.2.2.1
      rw [hwhole]
      exact List.mem_cons_self
    have hplain : JsString.decimal? ⟨l.units⟩ = decimalValue l.units := by
      unfold JsString.decimal?
      rw [hus]
      split
      · rename_i h
        exact absurd (List.cons.inj h).1 hne
      · rfl
    show JsString.decimal? ⟨l.units⟩ = _
    rw [hplain, hvalue]
    unfold signOf
    rw [if_neg Bool.false_ne_true, one_mul]

/-! ## What `toFixed` writes -/

/-- The rational that a finite number is. -/
def toRat : JsNumber → ℚ
  | .finite d => d.val.toRat
  | _ => 0

section
variable {d : Double} {f : Nat}

theorem magnitude_ratio (d : Double) :
    ((magnitude d).1 : ℚ) / (magnitude d).2 = |d.val.toRat| := by
  by_cases h : d.val = 0
  · have hmagnitude : magnitude d = (0, 1) := by
      unfold magnitude
      rw [h]
      rfl
    rw [hmagnitude, h, Dyadic.toRat_zero, abs_zero, Nat.cast_zero, zero_div]
  · obtain ⟨n, k, hn, hval, -, hq⟩ := magnitude_value h
    rw [hq, hval, Dyadic.toRat_ofOdd_eq_mul_two_pow, abs_mul,
      abs_of_pos (zpow_pos (two_pos (α := ℚ)) (-k)), ← Int.cast_abs, Int.abs_eq_natAbs]
    rfl

/-- The nearest integer, and the larger one of two that are. -/
def nearest (y : ℚ) : Int := ⌊y + 1 / 2⌋

theorem nearest_ratio (a f : Nat) {b : Nat} (hb : 0 < b) :
    nearest ((a : ℚ) / b * 10 ^ f) = ((2 * a * 10 ^ f + b) / (2 * b) : Nat) := by
  have hb' : (b : ℚ) ≠ 0 := by exact_mod_cast hb.ne'
  have hquotient : (a : ℚ) / b * 10 ^ f + 1 / 2 =
      ((2 * a * 10 ^ f + b : Nat) : ℚ) / ((2 * b : Nat) : ℚ) := by
    push_cast
    field_simp
  unfold nearest
  rw [hquotient, Rat.floor_natCast_div_natCast]
  exact (Int.natCast_div _ _).symm

/-- What is behind the point says whether it is above. -/
theorem nearest_le_iff {y : ℚ} : (nearest y : ℚ) ≤ y ↔ Int.fract y < 1 / 2 := by
  unfold nearest
  constructor
  · intro h
    have hfloor : ⌊y + 1 / 2⌋ ≤ ⌊y⌋ := Int.le_floor.mpr h
    have hlt := Int.lt_floor_add_one (y + 1 / 2)
    have hcast : (⌊y + 1 / 2⌋ : ℚ) ≤ ⌊y⌋ := by exact_mod_cast hfloor
    unfold Int.fract
    linarith
  · intro h
    unfold Int.fract at h
    have hfloor : ⌊y + 1 / 2⌋ ≤ ⌊y⌋ := by
      rw [← Int.lt_add_one_iff, Int.floor_lt]
      push_cast
      linarith
    have hcast : (⌊y + 1 / 2⌋ : ℚ) ≤ ⌊y⌋ := by exact_mod_cast hfloor
    exact hcast.trans (Int.floor_le y)

theorem le_nearest_iff {y : ℚ} : y ≤ nearest y ↔ Int.fract y = 0 ∨ 1 / 2 ≤ Int.fract y := by
  unfold nearest
  constructor
  · intro h
    by_contra hnot
    rw [not_or, not_le] at hnot
    obtain ⟨hne, hlt⟩ := hnot
    have hle := nearest_le_iff.mpr hlt
    unfold nearest at hle
    have heq : y = (⌊y + 1 / 2⌋ : ℚ) := le_antisymm h hle
    exact hne (by rw [heq, Int.fract_intCast])
  · rintro (h | h)
    · have hfloor : ⌊y⌋ ≤ ⌊y + 1 / 2⌋ := Int.floor_le_floor (by linarith)
      have hcast : (⌊y⌋ : ℚ) ≤ ⌊y + 1 / 2⌋ := by exact_mod_cast hfloor
      unfold Int.fract at h
      linarith
    · have hfloor : ⌊y⌋ + 1 ≤ ⌊y + 1 / 2⌋ := by
        rw [Int.le_floor]
        push_cast
        unfold Int.fract at h
        linarith
      have hcast : ((⌊y⌋ + 1 : Int) : ℚ) ≤ ⌊y + 1 / 2⌋ := by exact_mod_cast hfloor
      push_cast at hcast
      exact (Int.lt_floor_add_one y).le.trans hcast

/-- The digits that are written are a literal of the rounded quotient. -/
theorem fixedChars_literal (hf : 0 < f) (a b : Nat) : ∃ l : Literal, fixedChars f a b = l.chars ∧
    l.value = (((2 * a * 10 ^ f + b) / (2 * b) : Nat) : ℚ) / 10 ^ f := by
  obtain ⟨N, hN⟩ : ∃ N, (2 * a * 10 ^ f + b) / (2 * b) = N := ⟨_, rfl⟩
  have hdigits := allDigits_toDigits N
  have hpadded := (allDigits_replicate (f + 1 - (Nat.toDigits 10 N).length)).append hdigits
  have hvalue : Nat.ofDigitChars 10 (List.replicate (f + 1 - (Nat.toDigits 10 N).length) '0' ++
      Nat.toDigits 10 N) 0 = N := by
    rw [Nat.ofDigitChars_append, Nat.ofDigitChars_replicate_zero, Nat.mul_zero,
      Nat.ofDigitChars_ten_toDigits]
  unfold fixedChars
  dsimp only
  rw [hN, if_neg hf.ne']
  obtain ⟨padded, hpad⟩ : ∃ cs, List.replicate (f + 1 - (Nat.toDigits 10 N).length) '0' ++
      Nat.toDigits 10 N = cs := ⟨_, rfl⟩
  have hlength : padded.length = max (f + 1) (Nat.toDigits 10 N).length := by
    rw [← hpad, List.length_append, List.length_replicate]
    omega
  rw [hpad] at hpadded hvalue ⊢
  have htake : (padded.take (padded.length - f)).length = padded.length - f := by
    rw [List.length_take]
    omega
  have hdrop : (padded.drop (padded.length - f)).length = f := by
    rw [List.length_drop]
    omega
  refine ⟨⟨padded.take (padded.length - f), padded.drop (padded.length - f), none,
    fun c hc => hpadded c (List.mem_of_mem_take hc), ?_, ?_,
    fun c hc => hpadded c (List.mem_of_mem_drop hc)⟩, ?_, ?_⟩
  · exact List.ne_nil_of_length_pos (by omega)
  · -- more than one digit in front of the point is no padding
    by_cases hlong : f + 1 < (Nat.toDigits 10 N).length
    · have hnopad : f + 1 - (Nat.toDigits 10 N).length = 0 := by omega
      rw [hnopad] at hpad
      have hpos : 0 < N := by
        rcases Nat.eq_zero_or_pos N with rfl | hpos
        · rw [Nat.toDigits_zero] at hlong
          simp at hlong
        · exact hpos
      rw [List.head?_take, if_neg (by omega), ← hpad]
      exact .inr (head_toDigits hpos)
    · exact .inl (by omega)
  · have hne : padded.drop (padded.length - f) ≠ [] := List.ne_nil_of_length_pos (by omega)
    unfold Literal.chars Literal.mantissaChars Literal.exponentChars
    dsimp only
    rw [if_neg hne, List.append_nil]
  · unfold Literal.value Literal.digits Literal.scale
    dsimp only
    rw [List.take_append_drop, hvalue, hdrop, Option.getD_none, zero_sub, zpow_neg, zpow_natCast,
      div_eq_mul_inv]

theorem fixedText_of_small (h : |d.val.toRat| < 10 ^ 21) :
    fixedText f d = ⟨signUnits (decide (d.val < 0)) ++
      codes (fixedChars f (magnitude d).1 (magnitude d).2)⟩ := by
  have hb : (0 : ℚ) < (magnitude d).2 := by exact_mod_cast magnitude_den_pos d
  rw [← magnitude_ratio, div_lt_iff₀ hb] at h
  unfold fixedText
  rw [if_neg]
  exact not_le.mpr (by exact_mod_cast h)

/-- **What `toFixed` writes of a double that it rounds.** -/
theorem decimal?_fixedText (hf : 0 < f) (h : |d.val.toRat| < 10 ^ 21) :
    (fixedText f d).decimal? =
      some (signOf (decide (d.val < 0)) * ((nearest (|d.val.toRat| * 10 ^ f) : ℚ) / 10 ^ f)) := by
  obtain ⟨l, hl, hvalue⟩ := fixedChars_literal hf (magnitude d).1 (magnitude d).2
  rw [fixedText_of_small h, hl, ← magnitude_ratio,
    nearest_ratio _ _ (magnitude_den_pos d)]
  show JsString.decimal? ⟨signUnits _ ++ l.units⟩ = _
  rw [decimal?_literal, hvalue, Int.cast_natCast]

/-- The decimal that `String` writes of a double other than zero, without its sign. -/
def shortestDecimal (d : Double) : ℚ := (decimalDigits d).1 * 10 ^ (decimalDigits d).2

/-- **What `toFixed` writes of a double that it leaves to `String`.** -/
theorem decimal?_largeText (h : ¬ |d.val.toRat| < 10 ^ 21) :
    (fixedText f d).decimal? =
      some (signOf (decide (d.val < 0)) * shortestDecimal d) := by
  have hb : (0 : ℚ) < (magnitude d).2 := by exact_mod_cast magnitude_den_pos d
  rw [not_lt, ← magnitude_ratio, le_div_iff₀ hb] at h
  have hne : d.val ≠ 0 := by
    intro hzero
    have hratio := magnitude_ratio d
    rw [hzero, Dyadic.toRat_zero, abs_zero, div_eq_iff hb.ne', zero_mul] at hratio
    rw [hratio] at h
    exact absurd h (not_le.mpr (by positivity))
  obtain ⟨l, hl, hvalue⟩ := toText_literal hne
  unfold fixedText
  rw [if_pos (by exact_mod_cast h)]
  show JsString.decimal? ⟨(toText (.finite d)).units⟩ = _
  rw [hl, decimal?_literal, hvalue]
  rfl

/-! ## Which side of the number it is on -/

/-- What is written of a double, without its sign. -/
def fixedMagnitude (f : Nat) (d : Double) : ℚ :=
  if |d.val.toRat| < 10 ^ 21 then (nearest (|d.val.toRat| * 10 ^ f) : ℚ) / 10 ^ f
  else shortestDecimal d

theorem decimal?_fixed (hf : 0 < f) (d : Double) :
    (fixedText f d).decimal? = some (signOf (decide (d.val < 0)) * fixedMagnitude f d) := by
  unfold fixedMagnitude
  by_cases h : |d.val.toRat| < 10 ^ 21
  · rw [decimal?_fixedText hf h, if_pos h]
  · rw [decimal?_largeText h, if_neg h]

/-- What `toFixed` writes is not above the number: of a positive one it drops less than half
a unit, of a negative one nothing or at least half a unit, and the shortest decimal of a
number that it does not round is on that side of it. -/
def FixedBelow (f : Nat) : JsNumber → Prop
  | .finite d =>
    if |d.val.toRat| < 10 ^ 21 then
      if d.val.toRat < 0 then
        Int.fract (|d.val.toRat| * 10 ^ f) = 0 ∨ 1 / 2 ≤ Int.fract (|d.val.toRat| * 10 ^ f)
      else Int.fract (|d.val.toRat| * 10 ^ f) < 1 / 2
    else if d.val.toRat < 0 then |d.val.toRat| ≤ shortestDecimal d
    else shortestDecimal d ≤ |d.val.toRat|
  | _ => True

theorem sign_le_iff {d : Double} {q : ℚ} : signOf (decide (d.val < 0)) * q ≤ d.val.toRat ↔
    if d.val.toRat < 0 then |d.val.toRat| ≤ q else q ≤ |d.val.toRat| := by
  have hneg : d.val < 0 ↔ d.val.toRat < 0 := by
    rw [← Dyadic.toRat_lt_toRat_iff, Dyadic.toRat_zero]
  unfold signOf
  by_cases h : d.val.toRat < 0
  · rw [if_pos (decide_eq_true (hneg.mpr h)), if_pos h, abs_of_neg h, neg_one_mul]
    exact neg_le
  · rw [if_neg (by simpa using fun h' => h (hneg.mp h')), if_neg h, abs_of_nonneg (not_lt.mp h),
      one_mul]

theorem fixedMagnitude_le_iff : fixedMagnitude f d ≤ |d.val.toRat| ↔
    if |d.val.toRat| < 10 ^ 21 then Int.fract (|d.val.toRat| * 10 ^ f) < 1 / 2
    else shortestDecimal d ≤ |d.val.toRat| := by
  unfold fixedMagnitude
  by_cases h : |d.val.toRat| < 10 ^ 21
  · rw [if_pos h, if_pos h, div_le_iff₀ (by positivity), nearest_le_iff]
  · rw [if_neg h, if_neg h]

theorem le_fixedMagnitude_iff : |d.val.toRat| ≤ fixedMagnitude f d ↔
    if |d.val.toRat| < 10 ^ 21 then
      Int.fract (|d.val.toRat| * 10 ^ f) = 0 ∨ 1 / 2 ≤ Int.fract (|d.val.toRat| * 10 ^ f)
    else |d.val.toRat| ≤ shortestDecimal d := by
  unfold fixedMagnitude
  by_cases h : |d.val.toRat| < 10 ^ 21
  · rw [if_pos h, if_pos h, le_div_iff₀ (by positivity), le_nearest_iff]
  · rw [if_neg h, if_neg h]

/-- **When what `toFixed` writes is not above the number.** -/
theorem toFixed_le_iff {n : JsNumber} (hn : n.isFinite = true) (hf : 0 < f) :
    ∃ q, (n.toFixed f).decimal? = some q ∧ (q ≤ n.toRat ↔ n.FixedBelow f) := by
  cases n with
  | finite d =>
    refine ⟨_, decimal?_fixed hf d, sign_le_iff.trans ?_⟩
    unfold FixedBelow
    dsimp only
    by_cases hneg : d.val.toRat < 0
    · rw [if_pos hneg, le_fixedMagnitude_iff, if_pos hneg, if_pos hneg]
    · rw [if_neg hneg, fixedMagnitude_le_iff, if_neg hneg, if_neg hneg]
  | negZero =>
    have hzero : fixedMagnitude f ⟨.zero, trivial⟩ = 0 := by
      have hval : (⟨.zero, trivial⟩ : Double).val.toRat = 0 := Dyadic.toRat_zero
      unfold fixedMagnitude nearest
      rw [hval, abs_zero, if_pos (by positivity), zero_mul, zero_add]
      norm_num
    refine ⟨_, decimal?_fixed hf ⟨.zero, trivial⟩, ?_⟩
    rw [hzero, mul_zero]
    exact iff_of_true le_rfl trivial
  | _ => cases hn

end

end JsNumber
end Js

import Parmana.Js.Shortest

/-! # The text of a number, read back

`Literal` is a decimal literal by its parts, in the form JSON allows.  Reading one
gives its digits at their power of ten, rounded (`ofDecimal_units`); the text of
a double is a literal that reads as the double again (`toText_finite`); and the
text of an integer of at most 53 bits is the integer's own digits
(`toText_ofInt`).
-/
namespace Js
namespace JsNumber

/-! ## Decimal literals -/

/-- The code units of a run of ASCII characters. -/
def codes (cs : List Char) : List UInt16 := cs.map (fun c => UInt16.ofNat c.toNat)

@[simp] theorem codes_append (cs ds : List Char) : codes (cs ++ ds) = codes cs ++ codes ds :=
  List.map_append

theorem utf16_codes {cs : List Char} (h : ∀ c ∈ cs, c.toNat < 0x80) :
    cs.flatMap utf16 = codes cs := by
  unfold codes
  induction cs with
  | nil => rfl
  | cons c cs ih =>
    have hc : c.toNat < 0x10000 := (h c List.mem_cons_self).trans (by norm_num)
    rw [List.flatMap_cons, List.map_cons, ih (fun x hx => h x (List.mem_cons_of_mem c hx)), utf16]
    simp only [if_pos hc, List.singleton_append]

theorem units_ofString {s : String} (h : ∀ c ∈ s.toList, c.toNat < 0x80) :
    (JsString.ofString s).units = codes s.toList := by
  rw [JsString.ofString_eq]
  exact utf16_codes h

/-- A run of decimal digits. -/
def AllDigits (cs : List Char) : Prop := ∀ c ∈ cs, c.isDigit = true

instance : DecidablePred AllDigits := fun cs =>
  decidable_of_iff (cs.all Char.isDigit = true) List.all_eq_true

theorem allDigits_toDigits (n : Nat) : AllDigits (Nat.toDigits 10 n) :=
  fun _ hc => Nat.isDigit_of_mem_toDigits (by norm_num) (by norm_num) hc

theorem allDigits_replicate (n : Nat) : AllDigits (List.replicate n '0') := by
  intro c hc
  rw [List.eq_of_mem_replicate hc]
  rfl

theorem AllDigits.append {cs ds : List Char} (hc : AllDigits cs) (hd : AllDigits ds) :
    AllDigits (cs ++ ds) := by
  intro c h
  rcases List.mem_append.mp h with h | h
  · exact hc c h
  · exact hd c h

/-- The code of a digit. -/
theorem code_bounds {c : Char} (h : c.isDigit = true) :
    0x30 ≤ UInt16.ofNat c.toNat ∧ UInt16.ofNat c.toNat ≤ 0x39 ∧
      (UInt16.ofNat c.toNat).toNat = c.toNat := by
  have hc : 48 ≤ c.toNat ∧ c.toNat ≤ 57 := by
    simp only [Char.isDigit, Bool.and_eq_true, decide_eq_true_eq] at h
    exact ⟨UInt32.le_iff_toNat_le.mp h.1, UInt32.le_iff_toNat_le.mp h.2⟩
  have hnat : (UInt16.ofNat c.toNat).toNat = c.toNat := by
    rw [UInt16.toNat_ofNat']
    omega
  refine ⟨?_, ?_, hnat⟩
  · rw [UInt16.le_iff_toNat_le, hnat]
    exact hc.1
  · rw [UInt16.le_iff_toNat_le, hnat]
    exact hc.2

theorem digitValue_code {c : Char} (h : c.isDigit = true) :
    digitValue 10 (UInt16.ofNat c.toNat) = some (c.toNat - '0'.toNat) := by
  obtain ⟨hlow, hhigh, hnat⟩ := code_bounds h
  have hlt : c.toNat - 0x30 < 10 := by
    have := UInt16.le_iff_toNat_le.mp hhigh
    rw [hnat] at this
    have hnine : (0x39 : UInt16).toNat = 57 := rfl
    omega
  unfold digitValue
  simp only [decide_eq_true hlow, decide_eq_true hhigh, Bool.and_self, if_true, hnat, if_pos hlt]
  rfl

theorem digitsValue_codes {cs : List Char} (h : AllDigits cs) :
    digitsValue 10 (codes cs) = some (Nat.ofDigitChars 10 cs 0) := by
  have hfrom : ∀ n, (codes cs).foldlM (fun n u => (digitValue 10 u).map (n * 10 + ·)) n =
      some (Nat.ofDigitChars 10 cs n) := by
    induction cs with
    | nil => exact fun n => rfl
    | cons c cs ih =>
      intro n
      have hrest := ih (fun x hx => h x (List.mem_cons_of_mem c hx))
      simp only [codes, List.map_cons, List.foldlM_cons, digitValue_code (h c List.mem_cons_self),
        Option.map_some, Option.bind_eq_bind, Option.bind_some, Nat.ofDigitChars_cons]
      rw [Nat.mul_comm 10]
      exact hrest _
  exact hfrom 0

/-- The parts of a decimal literal as JSON writes one, without its sign. -/
structure Literal where
  whole : List Char
  fraction : List Char
  exponent : Option Int
  whole_digits : AllDigits whole
  whole_ne : whole ≠ []
  whole_lead : whole.length = 1 ∨ whole.head? ≠ some '0'
  fraction_digits : AllDigits fraction

namespace Literal

/-- The characters of an exponent. -/
def exponentChars : Option Int → List Char
  | none => []
  | some e => 'e' :: (if e < 0 then '-' else '+') :: Nat.toDigits 10 e.natAbs

/-- The characters in front of the exponent. -/
def mantissaChars (l : Literal) : List Char :=
  l.whole ++ if l.fraction = [] then [] else '.' :: l.fraction

/-- The literal, written out. -/
def chars (l : Literal) : List Char := l.mantissaChars ++ exponentChars l.exponent

/-- Its code units. -/
def units (l : Literal) : List UInt16 := codes l.chars

/-- Its digits, read as one number. -/
def digits (l : Literal) : Nat := Nat.ofDigitChars 10 (l.whole ++ l.fraction) 0

/-- The power of ten its digits stand at. -/
def scale (l : Literal) : Int := l.exponent.getD 0 - l.fraction.length

/-- The rational it denotes. -/
def value (l : Literal) : ℚ := l.digits * 10 ^ l.scale

/-- No digit is the code of something else a literal holds. -/
theorem digit_ne {cs : List Char} (h : AllDigits cs) {u : UInt16} (hu : u ∈ codes cs) :
    u ≠ 0x2E ∧ u ≠ 0x65 ∧ u ≠ 0x45 ∧ u ≠ 0x2D ∧ u ≠ 0x2B ∧ u ≠ 0x49 := by
  obtain ⟨c, hc, rfl⟩ := List.mem_map.mp hu
  obtain ⟨hlow, hhigh, -⟩ := code_bounds (h c hc)
  refine ⟨?_, ?_, ?_, ?_, ?_, ?_⟩ <;> rintro he <;> rw [he] at hlow hhigh <;>
    revert hlow hhigh <;> decide

theorem mantissaChars_eq (l : Literal) : codes l.mantissaChars =
    codes l.whole ++ if l.fraction = [] then [] else 0x2E :: codes l.fraction := by
  unfold mantissaChars
  rw [codes_append]
  split <;> rfl

theorem mantissa_unit (l : Literal) {u : UInt16} (hu : u ∈ codes l.mantissaChars) :
    (u ≠ 0x65 && u ≠ 0x45) = true := by
  rw [mantissaChars_eq, List.mem_append] at hu
  rcases hu with hu | hu
  · have := digit_ne l.whole_digits hu
    simp [this]
  · split at hu
    · cases hu
    · rcases List.mem_cons.mp hu with rfl | hu
      · decide
      · have := digit_ne l.fraction_digits hu
        simp [this]

/-- An exponent is empty or begins with its mark. -/
theorem exponentChars_head (e : Option Int) :
    codes (exponentChars e) = [] ∨ ∃ us, codes (exponentChars e) = 0x65 :: us := by
  rcases e with _ | e
  · exact .inl rfl
  · exact .inr ⟨_, rfl⟩

theorem takeWhile_mantissa (l : Literal) :
    l.units.takeWhile (fun u => u ≠ 0x65 && u ≠ 0x45) = codes l.mantissaChars := by
  rw [units, chars, codes_append, List.takeWhile_append_of_pos (fun u hu => l.mantissa_unit hu)]
  rcases exponentChars_head l.exponent with h | ⟨us, h⟩ <;> simp [h]

theorem dropWhile_mantissa (l : Literal) :
    l.units.dropWhile (fun u => u ≠ 0x65 && u ≠ 0x45) = codes (exponentChars l.exponent) := by
  rw [units, chars, codes_append, List.dropWhile_append_of_pos (fun u hu => l.mantissa_unit hu)]
  rcases exponentChars_head l.exponent with h | ⟨us, h⟩ <;> simp [h]

theorem takeWhile_whole (l : Literal) :
    (codes l.mantissaChars).takeWhile (fun u => decide (u ≠ 0x2E)) = codes l.whole := by
  rw [mantissaChars_eq,
    List.takeWhile_append_of_pos (fun u hu => decide_eq_true (digit_ne l.whole_digits hu).1)]
  split <;> simp

theorem dropWhile_whole (l : Literal) :
    (codes l.mantissaChars).dropWhile (fun u => decide (u ≠ 0x2E)) =
      if l.fraction = [] then [] else 0x2E :: codes l.fraction := by
  rw [mantissaChars_eq,
    List.dropWhile_append_of_pos (fun u hu => decide_eq_true (digit_ne l.whole_digits hu).1)]
  split <;> simp

theorem drop_fraction (l : Literal) :
    (if l.fraction = [] then [] else 0x2E :: codes l.fraction).drop 1 = codes l.fraction := by
  split
  · rename_i h
    rw [h]
    rfl
  · rfl

theorem exponentValue_chars (e : Option Int) :
    exponentValue (codes (exponentChars e)) = some (e.getD 0) := by
  rcases e with _ | e
  · rfl
  · have hne : codes (Nat.toDigits 10 e.natAbs) ≠ [] := by
      simp [codes, Nat.toDigits_ne_nil]
    have hvalue : digitsValue 10 (codes (Nat.toDigits 10 e.natAbs)) = some e.natAbs := by
      rw [digitsValue_codes (allDigits_toDigits _), Nat.ofDigitChars_ten_toDigits]
    have hcodes : ∀ c, codes ('e' :: c :: Nat.toDigits 10 e.natAbs) =
        0x65 :: UInt16.ofNat c.toNat :: codes (Nat.toDigits 10 e.natAbs) := fun _ => rfl
    unfold exponentChars
    rw [hcodes]
    by_cases h : e < 0
    · have hcode : UInt16.ofNat '-'.toNat = 0x2D := rfl
      rw [if_pos h, hcode]
      simp only [exponentValue, if_true, if_neg hne, hvalue, Option.map_some, Option.getD_some]
      exact congrArg some (show -(e.natAbs : Int) = e by omega)
    · have hcode : UInt16.ofNat '+'.toNat = 0x2B := rfl
      have hother : ¬ ((0x2B : UInt16) = 0x2D) := by decide
      rw [if_neg h, hcode]
      simp only [exponentValue, if_neg hother, if_true, if_neg hne, hvalue, Option.map_some,
        Option.getD_some]
      exact congrArg some (Int.natAbs_of_nonneg (not_lt.mp h))

/-- **A decimal literal is read as its digits, scaled.** -/
theorem ofDecimal_units (l : Literal) (negative : Bool) :
    ofDecimal negative l.units = ofScaled negative l.digits l.scale := by
  have hinfinity : l.units ≠ ("Infinity" : JsString).units := by
    obtain ⟨c, cs, hw⟩ := List.exists_cons_of_ne_nil l.whole_ne
    have hc : UInt16.ofNat c.toNat ∈ codes l.whole := by
      rw [hw]
      exact List.mem_cons_self
    intro he
    have hhead : l.units.head? = some (UInt16.ofNat c.toNat) := by
      unfold units chars mantissaChars
      rw [hw]
      rfl
    rw [he] at hhead
    exact (digit_ne l.whole_digits hc).2.2.2.2.2 (Option.some.inj hhead).symm
  have hnonempty : codes l.whole ++ codes l.fraction ≠ [] := by
    simp [codes, l.whole_ne]
  unfold ofDecimal
  rw [if_neg hinfinity]
  simp only [takeWhile_mantissa, dropWhile_mantissa, takeWhile_whole, dropWhile_whole,
    drop_fraction, exponentValue_chars]
  rw [← codes_append, digitsValue_codes (l.whole_digits.append l.fraction_digits), codes_append]
  simp only [if_neg hnonempty]
  have hlength : (codes l.fraction).length = l.fraction.length := List.length_map _
  unfold ofScaled digits scale
  rw [hlength]
  by_cases h : l.exponent.getD 0 - (l.fraction.length : Int) < 0
  · rw [if_pos h, if_neg (not_le.mpr h)]
  · rw [if_neg h, if_pos (not_lt.mp h)]

end Literal

/-! ## The text of a number -/

theorem length_toDigits {s k : Nat} (hk : 0 < k) (hlow : 10 ^ (k - 1) ≤ s) (hhigh : s < 10 ^ k) :
    (Nat.toDigits 10 s).length = k := by
  refine le_antisymm ((Nat.length_toDigits_le_iff (by norm_num) hk).mpr hhigh) ?_
  by_contra hlt
  have hpos : 0 < (Nat.toDigits 10 s).length := Nat.length_toDigits_pos
  have := (Nat.length_toDigits_le_iff (b := 10) (n := s) (k := k - 1) (by norm_num)
    (by omega)).mp (by omega)
  omega

theorem head_toDigits {s : Nat} (hs : 0 < s) : (Nat.toDigits 10 s).head? ≠ some '0' := by
  induction s using Nat.strong_induction_on with
  | _ s ih =>
    by_cases hsmall : s < 10
    · rw [Nat.toDigits_of_lt_base hsmall, List.head?_singleton]
      simpa using hs.ne'
    · rw [Nat.toDigits_of_base_le (by norm_num) (by omega),
        List.head?_append_of_ne_nil _ Nat.toDigits_ne_nil]
      exact ih (s / 10) (Nat.div_lt_self hs (by norm_num)) (by omega)

/-- The layout of the digits found is a literal of the same number. -/
theorem layout_literal {s k : Nat} (hk : 0 < k) (hlow : 10 ^ (k - 1) ≤ s) (hhigh : s < 10 ^ k)
    (n : Int) : ∃ l : Literal, (layout s k n).toList = l.chars ∧
      l.value = s * 10 ^ (n - k) := by
  have hs : 0 < s := (Nat.pow_pos (by norm_num)).trans_le hlow
  have hlength := length_toDigits hk hlow hhigh
  have hdigits := allDigits_toDigits s
  have hvalue : Nat.ofDigitChars 10 (Nat.toDigits 10 s) 0 = s := Nat.ofDigitChars_ten_toDigits
  have hhead := head_toDigits hs
  unfold layout
  dsimp only
  generalize Nat.toDigits 10 s = ds at hlength hdigits hvalue hhead ⊢
  have hne : ds ≠ [] := List.ne_nil_of_length_pos (by omega)
  split
  · rename_i hcase
    obtain ⟨j, hj⟩ : ∃ j : Nat, n - k = j := ⟨(n - k).toNat, by omega⟩
    refine ⟨⟨ds ++ List.replicate j '0', [], none, hdigits.append (allDigits_replicate j),
      by simp [hne], .inr ?_, fun _ h => absurd h List.not_mem_nil⟩, ?_, ?_⟩
    · rwa [List.head?_append_of_ne_nil _ hne]
    · simp [Literal.chars, Literal.mantissaChars, Literal.exponentChars, hj]
    · have hz : Nat.ofDigitChars 10 (ds ++ List.replicate j '0') 0 = s * 10 ^ j := by
        rw [Nat.ofDigitChars_append, Nat.ofDigitChars_replicate_zero, hvalue, Nat.mul_comm]
      simp only [Literal.value, Literal.digits, Literal.scale, List.append_nil, hz, hj]
      simp
  · rename_i hcase
    split
    · rename_i hpoint
      obtain ⟨i, rfl⟩ : ∃ i : Nat, n = i := ⟨n.toNat, by omega⟩
      have hdrop : ds.drop i ≠ [] := List.ne_nil_of_length_pos (by rw [List.length_drop]; omega)
      have htake : ds.take i ≠ [] := List.ne_nil_of_length_pos (by rw [List.length_take]; omega)
      refine ⟨⟨ds.take i, ds.drop i, none, fun c hc => hdigits c (List.mem_of_mem_take hc), htake,
        .inr ?_, fun c hc => hdigits c (List.mem_of_mem_drop hc)⟩, ?_, ?_⟩
      · rwa [List.head?_take, if_neg (by omega)]
      · simp [Literal.chars, Literal.mantissaChars, Literal.exponentChars, hdrop]
      · simp only [Literal.value, Literal.digits, Literal.scale, List.take_append_drop, hvalue, Option.getD_none,
          List.length_drop, hlength]
        congr 2
        omega
    · rename_i hpoint
      split
      · rename_i hsmall
        obtain ⟨j, hj⟩ : ∃ j : Nat, -n = j := ⟨(-n).toNat, by omega⟩
        refine ⟨⟨['0'], List.replicate j '0' ++ ds, none, ?_, by simp, .inl rfl,
          (allDigits_replicate j).append hdigits⟩, ?_, ?_⟩
        · rintro c hc
          rw [List.mem_singleton.mp hc]
          rfl
        · simp [Literal.chars, Literal.mantissaChars, Literal.exponentChars, hne, hj]
        · have hz : Nat.ofDigitChars 10 (['0'] ++ (List.replicate j '0' ++ ds)) 0 = s := by
            rw [← List.append_assoc, Nat.ofDigitChars_append, ← hvalue]
            congr 1
            rw [Nat.ofDigitChars_append, Nat.ofDigitChars_replicate_zero]
            rfl
          simp only [Literal.value, Literal.digits, Literal.scale, hz, Option.getD_none, List.length_append,
            List.length_replicate, hlength]
          congr 2
          omega
      · rename_i hlarge
        have htake : ds.take 1 ≠ [] := List.ne_nil_of_length_pos (by rw [List.length_take]; omega)
        refine ⟨⟨ds.take 1, ds.drop 1, some (n - 1), fun c hc => hdigits c (List.mem_of_mem_take hc),
          htake, .inl ?_, fun c hc => hdigits c (List.mem_of_mem_drop hc)⟩, ?_, ?_⟩
        · rw [List.length_take, hlength]
          omega
        · by_cases hone : k = 1
          · have hdrop : ds.drop 1 = [] := List.drop_eq_nil_of_le (by omega)
            have htake : ds.take 1 = ds := List.take_of_length_le (by omega)
            simp [Literal.chars, Literal.mantissaChars, Literal.exponentChars, hone, hdrop, htake]
          · have hdrop : ds.tail ≠ [] :=
              List.ne_nil_of_length_pos (by rw [List.length_tail]; omega)
            simp [Literal.chars, Literal.mantissaChars, Literal.exponentChars, hone, hdrop]
        · simp only [Literal.value, Literal.digits, Literal.scale, List.take_append_drop, hvalue, Option.getD_some,
            List.length_drop, hlength]
          congr 2
          omega


theorem digit_ascii {c : Char} (h : c.isDigit = true) : c.toNat < 0x80 := by
  obtain ⟨-, hhigh, hnat⟩ := code_bounds h
  rw [UInt16.le_iff_toNat_le, hnat] at hhigh
  exact hhigh.trans_lt (by decide)

theorem Literal.ascii (l : Literal) {c : Char} (hc : c ∈ l.chars) : c.toNat < 0x80 := by
  unfold Literal.chars Literal.mantissaChars at hc
  simp only [List.mem_append] at hc
  rcases hc with (hc | hc) | hc
  · exact digit_ascii (l.whole_digits c hc)
  · split at hc
    · cases hc
    · rcases List.mem_cons.mp hc with rfl | hc
      · decide
      · exact digit_ascii (l.fraction_digits c hc)
  · rcases hexp : l.exponent with _ | e <;> rw [hexp] at hc
    · cases hc
    · simp only [Literal.exponentChars, List.mem_cons] at hc
      rcases hc with rfl | rfl | hc
      · decide
      · split <;> decide
      · exact digit_ascii (allDigits_toDigits _ c hc)

/-- The sign in front of a literal. -/
def signUnits (negative : Bool) : List UInt16 := if negative then [0x2D] else []

/-- The digits `s` and the exponent `p` of the decimal `s · 10 ^ p` that `String` writes of a
double other than zero. -/
def decimalDigits (d : Double) : Nat × Int :=
  let found := shortest d (magnitude d).1 (magnitude d).2
    (decimalExponent (magnitude d).1 (magnitude d).2) 800 1
  (found.1, found.2.2 - found.2.1)

/-- The text of a double is a literal of its digits, with its sign. -/
theorem toText_literal {d : Double} (h : d.val ≠ 0) : ∃ l : Literal,
    (toText (.finite d)).units = signUnits (decide (d.val < 0)) ++ l.units ∧
      l.value = (decimalDigits d).1 * 10 ^ (decimalDigits d).2 := by
  obtain ⟨K, hpos, -, hlow, hhigh, -, -⟩ := shortest_magnitude h
  obtain ⟨l, hl, hvalue⟩ := layout_literal hpos hlow hhigh
    (shortest d (magnitude d).1 (magnitude d).2
      (decimalExponent (magnitude d).1 (magnitude d).2) 800 1).2.2
  refine ⟨l, ?_, hvalue⟩
  unfold toText
  dsimp only
  rw [if_neg h, units_ofString]
  · rw [String.toList_append, codes_append, hl]
    unfold signUnits
    by_cases hneg : d.val < 0
    · simp only [hneg, decide_true, if_true]
      rfl
    · simp only [hneg, decide_false, if_false, Bool.false_eq_true]
      rfl
  · rintro c hc
    rw [String.toList_append, List.mem_append, hl] at hc
    rcases hc with hc | hc
    · split at hc
      · rw [List.mem_singleton.mp hc]
        decide
      · cases hc
    · exact l.ascii hc

/-- **The text of a double is a decimal literal of it**, with its sign. -/
theorem toText_finite (d : Double) : ∃ l : Literal,
    (toText (.finite d)).units = signUnits (decide (d.val < 0)) ++ l.units ∧
      ofDecimal (decide (d.val < 0)) l.units = .finite d := by
  by_cases h : d.val = 0
  · have hzero : d = ⟨0, trivial⟩ := by
      cases d
      cases h
      rfl
    subst hzero
    exact ⟨⟨['0'], [], none, by decide, by decide, .inl rfl, by decide⟩, by decide, by decide⟩
  · obtain ⟨K, hshort⟩ := shortest_magnitude h
    obtain ⟨l, hl, hvalue⟩ := toText_literal h
    refine ⟨l, hl, ?_⟩
    rw [l.ofDecimal_units, ofScaled_congr hvalue]
    exact (ofScaled_sign h hshort.rounds _).trans (ofDyadic_signed d)

/-! ## Integers -/

section Integers
variable {a : Nat}

/-- An integer, as a number. -/
def ofInt (n : Int) : JsNumber := ofRatio (decide (n < 0)) n.natAbs 1

theorem toDigits_mul_pow {s : Nat} (hs : 0 < s) (j : Nat) :
    Nat.toDigits 10 (s * 10 ^ j) = Nat.toDigits 10 s ++ List.replicate j '0' := by
  induction j with
  | zero => simp
  | succ j ih =>
    have hzero : Nat.toDigits 10 0 = ['0'] := Nat.toDigits_zero 10
    have hpos : 0 < s * 10 ^ j := Nat.mul_pos hs (Nat.pow_pos (by norm_num))
    rw [List.replicate_succ', ← List.append_assoc, ← ih, ← hzero,
      Nat.toDigits_append_toDigits (by norm_num) hpos (by norm_num), Nat.pow_succ, Nat.add_zero,
      Nat.mul_comm 10, Nat.mul_assoc]

/-- The digits found for an integer are its own. -/
theorem layout_integer {d : Double} (hd : d.abs = (a : Dyadic)) (ha : 0 < a)
    (hsmall : a < 2 ^ 53) (hmagnitude : magnitude d = (a, 1)) (hzero : d.val ≠ 0) :
    let found := shortest d a 1 (decimalExponent a 1) 800 1
    (layout found.1 found.2.1 found.2.2).toList = Nat.toDigits 10 a := by
  have hn : decimalExponent a 1 = (Nat.toDigits 10 a).length := by
    unfold decimalExponent
    rw [if_pos (Nat.succ_le_of_lt ha), Nat.div_one]
  have hspec : HasExponent a 1 (decimalExponent a 1) := by
    have := decimalExponent_magnitude hzero
    rwa [hmagnitude] at this
  have hlen : (Nat.toDigits 10 a).length ≤ 16 :=
    (Nat.length_toDigits_le_iff (by norm_num) (by norm_num)).mpr (hsmall.trans (by norm_num))
  have hlenpos : 0 < (Nat.toDigits 10 a).length := Nat.length_toDigits_pos
  have hexact : ∃ t : Nat, ((magnitude d).1 : ℚ) / (magnitude d).2 =
      t * 10 ^ (decimalExponent a 1 - ((Nat.toDigits 10 a).length : Nat)) := by
    refine ⟨a, ?_⟩
    rw [hmagnitude, hn, sub_self, zpow_zero, mul_one, Nat.cast_one, div_one]
  have hfound := shortest_spec hzero (by rwa [hmagnitude]) hexact 800 Nat.one_pos hlenpos
    (by omega)
  rw [hmagnitude] at hfound
  intro found
  obtain ⟨hpos, hwithin, hlow, hhigh, hnear, hrounds⟩ := hfound
  change 0 < found.2.1 at hpos
  change found.2.1 ≤ _ at hwithin
  change 10 ^ (found.2.1 - 1) ≤ found.1 at hlow
  change _ ≤ found.2.2 ∧ found.2.2 ≤ _ at hnear
  change ofScaled false found.1 (found.2.2 - found.2.1) = _ at hrounds
  generalize found = f at *
  obtain ⟨s, k, n⟩ := f
  dsimp only at *
  rw [hn] at hnear
  obtain ⟨j, hj⟩ : ∃ j : Nat, n - k = j := ⟨(n - k).toNat, by omega⟩
  have hs : 0 < s := (Nat.pow_pos (by norm_num)).trans_le hlow
  have hvalue : s * 10 ^ j = a := by
    refine integer_inj (Nat.mul_pos hs (Nat.pow_pos (by norm_num))) hsmall ?_
    rw [← hd, ← hrounds, hj]
    simp [ofScaled]
  unfold layout
  dsimp only
  rw [if_pos (by omega : (k : Int) ≤ n ∧ n ≤ 21), String.toList_ofList, hj, Int.toNat_natCast,
    ← toDigits_mul_pow hs, hvalue]

/-- An integer of at most 53 bits is a finite number. -/
theorem ofInt_finite {n : Int} (hn : n.natAbs < 2 ^ 53) :
    ∃ d : Double, ofInt n = .finite d ∧ d.val = (n : Dyadic) := by
  by_cases hzero : n = 0
  · subst hzero
    exact ⟨⟨.zero, trivial⟩, by decide, by decide⟩
  · have hdouble : IsDouble (n : Dyadic) := isDouble_of_toRat (Dyadic.toRat_intCast n) hn
    have hsigned : (if decide (n < 0) = true then -(n.natAbs : Dyadic) else (n.natAbs : Dyadic)) =
        (n : Dyadic) := by
      rw [← Dyadic.toRat_inj, Dyadic.toRat_intCast]
      by_cases hneg : n < 0
      · rw [if_pos (decide_eq_true hneg), Dyadic.toRat_neg, Dyadic.toRat_natCast,
          ← Int.cast_natCast, ← Int.cast_neg]
        congr 1
        omega
      · rw [if_neg (by simpa using hneg), Dyadic.toRat_natCast, ← Int.cast_natCast]
        congr 1
        omega
    refine ⟨⟨(n : Dyadic), hdouble⟩, ?_, rfl⟩
    unfold ofInt
    rw [ofRatio_integer (by omega) hn, hsigned, ofDyadic_of_isDouble hdouble]

/-- **The text of an integer of at most 53 bits is its decimal digits.** -/
theorem toText_ofInt {n : Int} (hn : n.natAbs < 2 ^ 53) :
    (toText (ofInt n)).units = signUnits (decide (n < 0)) ++ codes (Nat.toDigits 10 n.natAbs) := by
  by_cases hzero : n = 0
  · subst hzero
    decide
  · have ha : 0 < n.natAbs := by omega
    obtain ⟨⟨x, hdouble⟩, hnumber, rfl⟩ := ofInt_finite hn
    have hval : (⟨(n : Dyadic), hdouble⟩ : Double).val ≠ 0 := by
      rw [← Dyadic.toRat_inj.ne, Dyadic.toRat_intCast, Dyadic.toRat_zero]
      exact_mod_cast hzero
    have hsign : (n : Dyadic) < 0 ↔ n < 0 := by
      rw [← Dyadic.toRat_lt_toRat_iff, Dyadic.toRat_intCast, Dyadic.toRat_zero]
      exact_mod_cast Iff.rfl
    have habs : (⟨(n : Dyadic), hdouble⟩ : Double).abs = (n.natAbs : Dyadic) := by
      rw [← Dyadic.toRat_inj, Double.toRat_abs, Dyadic.toRat_intCast, Dyadic.toRat_natCast,
        ← Int.cast_abs, Int.abs_eq_natAbs]
      rfl
    have hmagnitude := magnitude_integer (d := ⟨(n : Dyadic), hdouble⟩) rfl
    have hlayout := layout_integer habs ha hn hmagnitude hval
    rw [hnumber]
    unfold toText
    dsimp only at hlayout ⊢
    rw [if_neg hval, hmagnitude]
    dsimp only
    rw [units_ofString]
    · rw [String.toList_append, codes_append, hlayout]
      congr 1
      unfold signUnits
      by_cases hneg : n < 0
      · rw [if_pos (hsign.mpr hneg), if_pos (decide_eq_true hneg)]
        rfl
      · rw [if_neg (fun h => hneg (hsign.mp h)), if_neg (by simpa using hneg)]
        rfl
    · rintro c hc
      rw [String.toList_append, List.mem_append, hlayout] at hc
      rcases hc with hc | hc
      · split at hc
        · rw [List.mem_singleton.mp hc]
          decide
        · cases hc
      · exact digit_ascii (allDigits_toDigits _ c hc)

end Integers

end JsNumber
end Js

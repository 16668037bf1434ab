import Parmana.Js.Members
import Parmana.Js.Parse

/-! # Texts that are read back

`render` writes a document with its members as they are listed, and `ordered`
lists them as `Object.keys` does, so that `JSON.stringify` is `render` after
`ordered` (`stringify_eq`).  Reading what `render` wrote gives the document again
(`parse_render`), up to what a text cannot say: the sign of a zero, and which
number that is not finite a `null` was; `settle` forgets exactly that.  So two
documents with one text are the same document.
-/
namespace Js

namespace JsString

@[simp] theorem units_append (s t : JsString) : (s ++ t).units = s.units ++ t.units := rfl

theorem append_assoc (s t r : JsString) : s ++ t ++ r = s ++ (t ++ r) :=
  congrArg JsString.mk (List.append_assoc ..)

theorem join_cons_cons (sep s t : JsString) (rest : List JsString) :
    join sep (s :: t :: rest) = s ++ sep ++ join sep (t :: rest) := rfl

/-! ## Strings -/

theorem digitValue_hexDigit {n : Nat} (h : n < 16) :
    JsNumber.digitValue 16 (hexDigit n) = some n := by
  revert n
  decide

/-- Four hexadecimal digits are read as the code unit they write. -/
theorem digitsValue_unicodeEscape (u : UInt16) :
    JsNumber.digitsValue 16 [hexDigit (u.toNat / 4096 % 16), hexDigit (u.toNat / 256 % 16),
      hexDigit (u.toNat / 16 % 16), hexDigit (u.toNat % 16)] = some u.toNat := by
  have hlt := u.toNat_lt
  simp only [JsNumber.digitsValue, List.foldlM_cons, List.foldlM_nil,
    digitValue_hexDigit (Nat.mod_lt _ (by decide : 0 < 16)), Option.map_some,
    Option.bind_eq_bind, Option.bind_some, Option.pure_def]
  congr 1
  omega

theorem parseString_unicodeEscape (u : UInt16) (us : List UInt16) :
    parseString (unicodeEscape u ++ us) = (parseString us).map fun r => (u :: r.1, r.2) := by
  have hread := digitsValue_unicodeEscape u
  unfold unicodeEscape
  simp only [List.cons_append, List.nil_append]
  rw [parseString, if_neg (by decide), if_neg (by decide), if_neg (by decide)]
  simp only [if_neg (by decide : ¬ ((0x75 : UInt16) ≠ 0x75)), hread, Option.bind_some]
  rw [UInt16.ofNat_toNat]

/-- A code unit that stands for itself. -/
theorem parseString_plain {u : UInt16} (hquote : u ≠ 0x22) (hslash : u ≠ 0x5C) (hspace : ¬ u < 0x20)
    (us : List UInt16) :
    parseString (u :: us) = (parseString us).map fun r => (u :: r.1, r.2) := by
  rw [parseString.eq_def]
  simp only [if_neg hquote, if_neg hspace, if_pos hslash]

/-- A short escape. -/
theorem parseString_short {e v : UInt16} (he : e ≠ 0x75) (hv : unescape e = some v)
    (us : List UInt16) :
    parseString (0x5C :: e :: us) = (parseString us).map fun r => (v :: r.1, r.2) := by
  rw [parseString.eq_def]
  dsimp only
  rw [if_neg (by decide), if_neg (by decide), if_neg (by decide), if_pos he, hv, Option.bind_some]

theorem parseString_escapeUnit (u : UInt16) (us : List UInt16) :
    parseString (escapeUnit u ++ us) = (parseString us).map fun r => (u :: r.1, r.2) := by
  unfold escapeUnit
  split_ifs with h₁ h₂ h₃ h₄ h₅ h₆ h₇ h₈
  · subst h₁
    exact parseString_short (by decide) (by decide) us
  · subst h₂
    exact parseString_short (by decide) (by decide) us
  · exact h₃ ▸ parseString_short (by decide) (by decide) us
  · exact h₄ ▸ parseString_short (by decide) (by decide) us
  · exact h₅ ▸ parseString_short (by decide) (by decide) us
  · exact h₆ ▸ parseString_short (by decide) (by decide) us
  · exact h₇ ▸ parseString_short (by decide) (by decide) us
  · exact parseString_unicodeEscape u us
  · exact parseString_plain h₁ h₂ h₈ us

/-- A surrogate stands for itself. -/
theorem parseString_surrogate {u : UInt16} (h : isHighSurrogate u = true ∨ isLowSurrogate u = true)
    (us : List UInt16) :
    parseString (u :: us) = (parseString us).map fun r => (u :: r.1, r.2) := by
  have hlarge : 0xD800 ≤ u := by
    rcases h with h | h
    · simp only [isHighSurrogate, Bool.and_eq_true, decide_eq_true_eq] at h
      exact h.1
    · simp only [isLowSurrogate, Bool.and_eq_true, decide_eq_true_eq] at h
      exact UInt16.le_trans (by decide) h.1
  refine parseString_plain ?_ ?_ ?_ us
  · rintro rfl
    exact absurd hlarge (by decide)
  · rintro rfl
    exact absurd hlarge (by decide)
  · exact fun hlt => absurd (UInt16.lt_of_le_of_lt hlarge hlt) (by decide)

/-- **A quoted string is read back.** -/
theorem parseString_escapeUnits (us rest : List UInt16) :
    parseString (escapeUnits us ++ 0x22 :: rest) = some (us, rest) := by
  have hend : parseString (0x22 :: rest) = some ([], rest) := by
    rw [parseString.eq_def]
    simp
  induction us using escapeUnits.induct with
  | case1 => exact hend
  | case2 u h =>
    rw [escapeUnits, if_pos h, parseString_unicodeEscape, hend, Option.map_some]
  | case3 u h =>
    rw [escapeUnits, if_neg h, parseString_escapeUnit, hend, Option.map_some]
  | case4 u v us h ih =>
    rw [escapeUnits, if_pos h, List.cons_append, List.cons_append,
      parseString_surrogate (.inl (Bool.and_eq_true_iff.mp h).1),
      parseString_surrogate (.inr (Bool.and_eq_true_iff.mp h).2), ih, Option.map_some,
      Option.map_some]
  | case5 u v us hpair h ih =>
    rw [escapeUnits, if_neg hpair, if_pos h, List.append_assoc, parseString_unicodeEscape, ih,
      Option.map_some]
  | case6 u v us hpair h ih =>
    rw [escapeUnits, if_neg hpair, if_neg h, List.append_assoc, parseString_escapeUnit, ih,
      Option.map_some]

end JsString

/-! ## Numbers -/

namespace JsNumber

theorem isNumberUnit_of_digit {cs : List Char} (h : AllDigits cs) {u : UInt16} (hu : u ∈ codes cs) :
    isNumberUnit u = true := by
  obtain ⟨c, hc, rfl⟩ := List.mem_map.mp hu
  obtain ⟨hlow, hhigh, -⟩ := code_bounds (h c hc)
  simp [isNumberUnit, hlow, hhigh]

theorem Literal.isNumberUnit (l : Literal) {u : UInt16} (hu : u ∈ l.units) :
    isNumberUnit u = true := by
  rw [Literal.units, Literal.chars, codes_append, Literal.mantissaChars_eq] at hu
  simp only [List.mem_append] at hu
  rcases hu with (hu | hu) | hu
  · exact isNumberUnit_of_digit l.whole_digits hu
  · split at hu
    · cases hu
    · rcases List.mem_cons.mp hu with rfl | hu
      · decide
      · exact isNumberUnit_of_digit l.fraction_digits hu
  · rcases hexp : l.exponent with _ | e <;> rw [hexp] at hu
    · cases hu
    · simp only [Literal.exponentChars, codes, List.map_cons, List.mem_cons] at hu
      rcases hu with rfl | rfl | hu
      · decide
      · split <;> decide
      · exact isNumberUnit_of_digit (allDigits_toDigits _) hu

theorem isDigits_codes {cs : List Char} (h : AllDigits cs) (hne : cs ≠ []) :
    isDigits (codes cs) = true := by
  have hall : (codes cs).all (fun u => 0x30 ≤ u && u ≤ 0x39) = true := by
    rw [List.all_eq_true]
    intro u hu
    obtain ⟨c, hc, rfl⟩ := List.mem_map.mp hu
    obtain ⟨hlow, hhigh, -⟩ := code_bounds (h c hc)
    simp [hlow, hhigh]
  unfold isDigits
  rw [hall]
  simp [codes, hne]

/-- A literal keeps the grammar of JSON. -/
theorem Literal.isNumberLiteral (l : Literal) : isNumberLiteral l.units = true := by
  have hlead : ((codes l.whole).length = 1 ∨ (codes l.whole).head? ≠ some 0x30) := by
    rcases l.whole_lead with h | h
    · exact .inl (by rw [codes, List.length_map, h])
    · refine .inr fun hhead => h ?_
      obtain ⟨c, cs, hw⟩ := List.exists_cons_of_ne_nil l.whole_ne
      rw [hw] at hhead ⊢
      have hc := code_bounds (l.whole_digits c (hw ▸ List.mem_cons_self))
      have hcode : UInt16.ofNat c.toNat = 0x30 := Option.some.inj hhead
      rw [hcode] at hc
      rw [List.head?_cons]
      exact congrArg some (Char.toNat_inj.mp hc.2.2.symm)
  unfold Js.isNumberLiteral
  dsimp only
  rw [takeWhile_mantissa, dropWhile_mantissa, takeWhile_whole, dropWhile_whole,
    exponentValue_chars, isDigits_codes l.whole_digits l.whole_ne, drop_fraction]
  by_cases hf : l.fraction = []
  · simpa [hf] using hlead
  · rw [isDigits_codes l.fraction_digits hf]
    simpa using hlead

theorem Literal.units_ne (l : Literal) : l.units ≠ [] := by
  simp [Literal.units, Literal.chars, Literal.mantissaChars, codes, l.whole_ne]

/-- A literal does not begin with a sign. -/
theorem Literal.head_ne (l : Literal) : l.units.head? ≠ some 0x2D := by
  obtain ⟨c, cs, hw⟩ := List.exists_cons_of_ne_nil l.whole_ne
  have hc : UInt16.ofNat c.toNat ∈ codes l.whole := by
    rw [hw]
    exact List.mem_cons_self
  have hhead : l.units.head? = some (UInt16.ofNat c.toNat) := by
    rw [Literal.units, Literal.chars, Literal.mantissaChars, hw]
    rfl
  rw [hhead]
  exact fun he => (digit_ne l.whole_digits hc).2.2.2.1 (Option.some.inj he)

/-- A text that cannot continue a number. -/
def Ends (rest : List UInt16) : Prop := ∀ u ∈ rest.head?, isNumberUnit u = false

/-- **The text of a finite number is read back**, but for the sign of a zero. -/
theorem parseNumber_toText {n : JsNumber} (hn : n.isFinite = true) {rest : List UInt16}
    (hrest : Ends rest) :
    parseNumber (n.toText.units ++ rest) = some (.num n.merge, rest) := by
  have hfinite : ∀ d : Double,
      parseNumber ((toText (.finite d)).units ++ rest) = some (.num (.finite d), rest) := by
    intro d
    obtain ⟨l, htext, hvalue⟩ := toText_finite d
    generalize decide (d.val < 0) = negative at htext hvalue
    have hunits : ∀ u ∈ signUnits negative ++ l.units, isNumberUnit u = true := by
      intro u hu
      rcases List.mem_append.mp hu with hu | hu
      · rcases negative with _ | _
        · cases hu
        · rw [List.mem_singleton.mp hu]
          decide
      · exact l.isNumberUnit hu
    have htoken : (signUnits negative ++ l.units ++ rest).takeWhile isNumberUnit =
        signUnits negative ++ l.units := by
      rw [List.takeWhile_append_of_pos hunits]
      rcases rest with _ | ⟨u, us⟩
      · simp
      · simp [hrest u rfl]
    have hbehind : (signUnits negative ++ l.units ++ rest).dropWhile isNumberUnit = rest := by
      rw [List.dropWhile_append_of_pos hunits]
      rcases rest with _ | ⟨u, us⟩
      · rfl
      · simp [hrest u rfl]
    unfold parseNumber
    dsimp only
    rw [htext, htoken, hbehind]
    rcases negative with _ | _
    · rw [if_neg (show ¬ (signUnits false ++ l.units).head? = some 0x2D from l.head_ne),
        decide_eq_false (show ¬ (signUnits false ++ l.units).head? = some 0x2D from l.head_ne)]
      change (if Js.isNumberLiteral l.units = true then some (Json.num (ofDecimal false l.units), rest)
        else none) = _
      rw [if_pos l.isNumberLiteral, hvalue]
    · rw [if_pos (show (signUnits true ++ l.units).head? = some 0x2D from rfl)]
      change (if Js.isNumberLiteral l.units = true then some (Json.num (ofDecimal true l.units), rest)
        else none) = _
      rw [if_pos l.isNumberLiteral, hvalue]
  cases n with
  | finite d => exact hfinite d
  | negZero => exact hfinite ⟨.zero, trivial⟩
  | _ => cases hn

end JsNumber

/-! ## Documents -/

open JsNumber (Ends)

namespace Json

mutual

/-- The text of a document, its members as they are listed. -/
def render : Json → JsString
  | .null => "null"
  | .bool b => if b then "true" else "false"
  | .num n => if n.isFinite then n.toText else "null"
  | .str s => s.quote
  | .arr xs => "[" ++ JsString.join "," (renderEach xs) ++ "]"
  | .obj fs => "\x7b" ++ JsString.join "," (renderMembers fs) ++ "\x7d"

def renderEach : List Json → List JsString
  | [] => []
  | x :: xs => x.render :: renderEach xs

def renderMembers : List (JsString × Json) → List JsString
  | [] => []
  | (k, v) :: fs => (k.quote ++ ":" ++ v.render) :: renderMembers fs

end

mutual

/-- A document without what its text does not say. -/
def settle : Json → Json
  | .num n => if n.isFinite then .num n.merge else .null
  | .arr xs => .arr (settleEach xs)
  | .obj fs => .obj (settleMembers fs)
  | j => j

def settleEach : List Json → List Json
  | [] => []
  | x :: xs => x.settle :: settleEach xs

def settleMembers : List (JsString × Json) → List (JsString × Json)
  | [] => []
  | (k, v) :: fs => (k, v.settle) :: settleMembers fs

end

mutual

/-- Whether no object of the document lists a name twice. -/
def distinct : Json → Bool
  | .arr xs => distinctEach xs
  | .obj fs => decide (fs.map Prod.fst).Nodup && distinctMembers fs
  | _ => true

def distinctEach : List Json → Bool
  | [] => true
  | x :: xs => x.distinct && distinctEach xs

def distinctMembers : List (JsString × Json) → Bool
  | [] => true
  | (_, v) :: fs => v.distinct && distinctMembers fs

end

theorem distinctMembers_iff {fs : List (JsString × Json)} :
    distinctMembers fs = true ↔ ∀ p ∈ fs, p.2.distinct = true := by
  induction fs with
  | nil => simp [distinctMembers]
  | cons p fs ih =>
    obtain ⟨k, v⟩ := p
    rw [distinctMembers, Bool.and_eq_true, ih, List.forall_mem_cons]

theorem settleMembers_names (fs : List (JsString × Json)) :
    (settleMembers fs).map Prod.fst = fs.map Prod.fst := by
  induction fs with
  | nil => rfl
  | cons p fs ih =>
    obtain ⟨k, v⟩ := p
    rw [settleMembers, List.map_cons, List.map_cons, ih]

end Json

/-- Putting members of distinct names one after another lists them. -/
theorem foldl_put {fs gs : List (JsString × Json)} (h : ((gs ++ fs).map Prod.fst).Nodup) :
    fs.foldl (Keyed.put Prod.fst) gs = gs ++ fs := by
  induction fs generalizing gs with
  | nil => rw [List.foldl_nil, List.append_nil]
  | cons p fs ih =>
    have hnew : Keyed.find Prod.fst gs p.1 = none := by
      rw [Keyed.find, List.find?_eq_none]
      intro q hq hk
      rw [List.map_append, List.nodup_append] at h
      exact h.2.2 q.1 (List.mem_map_of_mem hq) p.1 (by simp) (of_decide_eq_true hk)
    have hput : Keyed.put Prod.fst gs p = gs ++ [p] := by
      unfold Keyed.put
      rw [hnew]
      rfl
    have happend : gs ++ p :: fs = gs ++ [p] ++ fs := by simp
    rw [List.foldl_cons, hput, happend]
    exact ih (happend ▸ h)

theorem ends_of_not {u : UInt16} (h : isNumberUnit u = false) (us : List UInt16) :
    Ends (u :: us) := by
  intro v hv
  rw [List.head?_cons, Option.mem_some_iff] at hv
  exact hv ▸ h

/-- A text that does not begin with white space is not skipped. -/
theorem skipSpace_cons {u : UInt16} (h : isJsonSpace u = false) (us : List UInt16) :
    skipSpace (u :: us) = u :: us := by
  rw [skipSpace, List.dropWhile_cons, h]
  rfl

/-- The first code units of the texts of documents. -/
def startsValue (u : UInt16) : Bool :=
  isNumberUnit u || u ∈ ([0x7B, 0x5B, 0x22, 0x6E, 0x74, 0x66] : List UInt16)

theorem startsValue_space {u : UInt16} (h : startsValue u = true) : isJsonSpace u = false := by
  by_contra hspace
  simp only [isJsonSpace, Bool.not_eq_false, Bool.or_eq_true, decide_eq_true_eq] at hspace
  rcases hspace with ((rfl | rfl) | rfl) | rfl <;> revert h <;> decide

/-- The text of a finite number is made of the code units of numbers. -/
theorem JsNumber.toText_units {n : JsNumber} (hn : n.isFinite = true) :
    n.toText.units ≠ [] ∧ ∀ u ∈ n.toText.units, isNumberUnit u = true := by
  have hfinite : ∀ d : Double, (toText (.finite d)).units ≠ [] ∧
      ∀ u ∈ (toText (.finite d)).units, isNumberUnit u = true := by
    intro d
    obtain ⟨l, htext, -⟩ := toText_finite d
    rw [htext]
    refine ⟨fun he => l.units_ne (List.append_eq_nil_iff.mp he).2, fun u hu => ?_⟩
    rcases List.mem_append.mp hu with hu | hu
    · unfold signUnits at hu
      split at hu
      · rw [List.mem_singleton.mp hu]
        decide
      · cases hu
    · exact l.isNumberUnit hu
  cases n with
  | finite d => exact hfinite d
  | negZero => exact hfinite ⟨.zero, trivial⟩
  | _ => cases hn

theorem JsNumber.toText_head {n : JsNumber} (hn : n.isFinite = true) :
    ∃ u us, n.toText.units = u :: us ∧ isNumberUnit u = true := by
  obtain ⟨hne, hunits⟩ := toText_units hn
  obtain ⟨u, us, h⟩ := List.exists_cons_of_ne_nil hne
  exact ⟨u, us, h, hunits u (h ▸ List.mem_cons_self)⟩

theorem Json.render_head (j : Json) :
    ∃ u us, j.render.units = u :: us ∧ startsValue u = true := by
  have hnull : ∃ u us, ("null" : JsString).units = u :: us ∧ startsValue u = true :=
    ⟨0x6E, _, rfl, by decide⟩
  cases j with
  | null => exact hnull
  | bool b => cases b <;> exact ⟨_, _, rfl, by decide⟩
  | num n =>
    rw [Json.render]
    split
    · rename_i hn
      obtain ⟨u, us, htext, hu⟩ := JsNumber.toText_head hn
      exact ⟨u, us, htext, by rw [startsValue, hu, Bool.true_or]⟩
    · exact hnull
  | str s => exact ⟨0x22, _, rfl, by decide⟩
  | arr xs => exact ⟨0x5B, _, rfl, by decide⟩
  | obj fs => exact ⟨0x7B, _, rfl, by decide⟩

theorem isPrefixOf?_append (us rest : List UInt16) : us.isPrefixOf? (us ++ rest) = some rest := by
  induction us with
  | nil => rfl
  | cons u us ih => simp [List.isPrefixOf?, ih]

/-! The text of a document, one call of the parser at a time. -/

theorem parseValue_cons {u : UInt16} (h : startsValue u = true) (fuel : Nat) (us : List UInt16) :
    parseValue (fuel + 1) (u :: us) =
      if u = 0x7B then
        if (skipSpace us).head? = some 0x7D then some (.obj [], (skipSpace us).drop 1)
        else (parseMembers fuel us).map fun r => (.obj (r.1.foldl (Keyed.put Prod.fst) []), r.2)
      else if u = 0x5B then
        if (skipSpace us).head? = some 0x5D then some (.arr [], (skipSpace us).drop 1)
        else (parseElements fuel us).map fun r => (.arr r.1, r.2)
      else if u = 0x22 then (parseString us).map fun r => (.str ⟨r.1⟩, r.2)
      else if u = 0x6E then
        (("ull" : JsString).units.isPrefixOf? us).map fun rest => (.null, rest)
      else if u = 0x74 then
        (("rue" : JsString).units.isPrefixOf? us).map fun rest => (.bool true, rest)
      else if u = 0x66 then
        (("alse" : JsString).units.isPrefixOf? us).map fun rest => (.bool false, rest)
      else parseNumber (u :: us) := by
  rw [parseValue, skipSpace_cons (startsValue_space h)]

theorem parseValue_null (fuel : Nat) (rest : List UInt16) :
    parseValue (fuel + 1) (("null" : JsString).units ++ rest) = some (.null, rest) := by
  have hunits : ("null" : JsString).units ++ rest = 0x6E :: (("ull" : JsString).units ++ rest) := rfl
  rw [hunits, parseValue_cons (by decide), if_neg (by decide), if_neg (by decide),
    if_neg (by decide), if_pos rfl, isPrefixOf?_append, Option.map_some]

theorem parseValue_bool (b : Bool) (fuel : Nat) (rest : List UInt16) :
    parseValue (fuel + 1) ((Json.bool b).render.units ++ rest) = some (.bool b, rest) := by
  rcases b with _ | _
  · have hunits : (Json.bool false).render.units ++ rest =
        0x66 :: (("alse" : JsString).units ++ rest) := rfl
    rw [hunits, parseValue_cons (by decide), if_neg (by decide), if_neg (by decide),
      if_neg (by decide), if_neg (by decide), if_neg (by decide), if_pos rfl, isPrefixOf?_append,
      Option.map_some]
  · have hunits : (Json.bool true).render.units ++ rest =
        0x74 :: (("rue" : JsString).units ++ rest) := rfl
    rw [hunits, parseValue_cons (by decide), if_neg (by decide), if_neg (by decide),
      if_neg (by decide), if_neg (by decide), if_pos rfl, isPrefixOf?_append, Option.map_some]

theorem parseValue_num {n : JsNumber} (hn : n.isFinite = true) (fuel : Nat) {rest : List UInt16}
    (hrest : Ends rest) :
    parseValue (fuel + 1) (n.toText.units ++ rest) = some (.num n.merge, rest) := by
  obtain ⟨u, us, htext, hu⟩ := JsNumber.toText_head hn
  have hstart : startsValue u = true := by rw [startsValue, hu, Bool.true_or]
  have hnot : ∀ v : UInt16, isNumberUnit v = false → u ≠ v := by
    rintro v hv rfl
    rw [hu] at hv
    cases hv
  have hread := JsNumber.parseNumber_toText hn hrest
  rw [htext, List.cons_append] at hread ⊢
  rw [parseValue_cons hstart, if_neg (hnot _ (by decide)), if_neg (hnot _ (by decide)),
    if_neg (hnot _ (by decide)), if_neg (hnot _ (by decide)), if_neg (hnot _ (by decide)),
    if_neg (hnot _ (by decide)), hread]

theorem parseValue_str (s : JsString) (fuel : Nat) (rest : List UInt16) :
    parseValue (fuel + 1) (s.quote.units ++ rest) = some (.str s, rest) := by
  have hunits : s.quote.units ++ rest =
      0x22 :: (JsString.escapeUnits s.units ++ 0x22 :: rest) := by
    simp [JsString.quote]
  rw [hunits, parseValue_cons (by decide), if_neg (by decide), if_neg (by decide), if_pos rfl,
    JsString.parseString_escapeUnits, Option.map_some]

/-- The text of the elements of an array behind its bracket. -/
theorem parseValue_arr {us rest : List UInt16} {xs : List Json} {u : UInt16} {vs : List UInt16}
    (hhead : us = u :: vs) (hu : startsValue u = true) {fuel : Nat}
    (h : parseElements fuel (us ++ 0x5D :: rest) = some (xs, rest)) :
    parseValue (fuel + 1) (0x5B :: (us ++ 0x5D :: rest)) = some (.arr xs, rest) := by
  have hne : u ≠ 0x5D := by
    rintro rfl
    revert hu
    decide
  have hskip : skipSpace (us ++ 0x5D :: rest) = us ++ 0x5D :: rest := by
    rw [hhead, List.cons_append, skipSpace_cons (startsValue_space hu)]
  have hnonempty : ¬ (us ++ 0x5D :: rest).head? = some 0x5D := by
    rw [hhead, List.cons_append, List.head?_cons]
    exact fun he => hne (Option.some.inj he)
  rw [parseValue_cons (by decide), if_neg (by decide), if_pos rfl, hskip, if_neg hnonempty, h,
    Option.map_some]

/-- The text of the members of an object behind its brace. -/
theorem parseValue_obj {us rest : List UInt16} {fs : List (JsString × Json)} {vs : List UInt16}
    (hhead : us = 0x22 :: vs) (hdistinct : (fs.map Prod.fst).Nodup) {fuel : Nat}
    (h : parseMembers fuel (us ++ 0x7D :: rest) = some (fs, rest)) :
    parseValue (fuel + 1) (0x7B :: (us ++ 0x7D :: rest)) = some (.obj fs, rest) := by
  have hskip : skipSpace (us ++ 0x7D :: rest) = us ++ 0x7D :: rest := by
    rw [hhead, List.cons_append, skipSpace_cons (by decide)]
  have hnonempty : ¬ (us ++ 0x7D :: rest).head? = some 0x7D := by
    rw [hhead, List.cons_append, List.head?_cons]
    decide
  rw [parseValue_cons (by decide), if_pos rfl, hskip, if_neg hnonempty, h, Option.map_some,
    foldl_put (by simpa using hdistinct), List.nil_append]

theorem parseElements_last {us rest : List UInt16} {x : Json} {fuel : Nat}
    (h : parseValue fuel (us ++ 0x5D :: rest) = some (x, 0x5D :: rest)) :
    parseElements (fuel + 1) (us ++ 0x5D :: rest) = some ([x], rest) := by
  rw [parseElements, h, Option.bind_some]
  simp only [skipSpace_cons (show isJsonSpace 0x5D = false by decide), if_true]

theorem parseElements_more {us vs rest : List UInt16} {x : Json} {xs : List Json} {fuel : Nat}
    (hx : parseValue fuel (us ++ 0x2C :: vs) = some (x, 0x2C :: vs))
    (hxs : parseElements fuel vs = some (xs, rest)) :
    parseElements (fuel + 1) (us ++ 0x2C :: vs) = some (x :: xs, rest) := by
  rw [parseElements, hx, Option.bind_some]
  simp only [skipSpace_cons (show isJsonSpace 0x2C = false by decide),
    if_neg (show ¬ (0x2C : UInt16) = 0x5D by decide), if_true, hxs, Option.map_some]

/-- What the parser does behind the name of a member. -/
theorem parseMembers_name (k : JsString) {fuel : Nat} {us vs : List UInt16} {x : Json}
    (hx : parseValue fuel us = some (x, vs)) :
    parseMembers (fuel + 1) (k.quote.units ++ 0x3A :: us) =
      match skipSpace vs with
      | [] => none
      | u :: us =>
        if u = 0x7D then some ([(k, x)], us)
        else if u = 0x2C then
          (parseMembers fuel us).map fun rest => ((k, x) :: rest.1, rest.2)
        else none := by
  have hunits : k.quote.units ++ 0x3A :: us =
      0x22 :: (JsString.escapeUnits k.units ++ 0x22 :: 0x3A :: us) := by
    simp [JsString.quote]
  rw [hunits, parseMembers, skipSpace_cons (by decide)]
  dsimp only
  rw [if_neg (by decide), JsString.parseString_escapeUnits, Option.bind_some]
  dsimp only
  rw [skipSpace_cons (by decide)]
  dsimp only
  rw [if_neg (by decide), hx]
  rfl

theorem parseMembers_last (k : JsString) {us rest : List UInt16} {x : Json} {fuel : Nat}
    (hx : parseValue fuel (us ++ 0x7D :: rest) = some (x, 0x7D :: rest)) :
    parseMembers (fuel + 1) (k.quote.units ++ 0x3A :: (us ++ 0x7D :: rest)) =
      some ([(k, x)], rest) := by
  rw [parseMembers_name k hx, skipSpace_cons (by decide)]
  simp only [if_true]

theorem parseMembers_more (k : JsString) {us vs rest : List UInt16} {x : Json}
    {fs : List (JsString × Json)} {fuel : Nat}
    (hx : parseValue fuel (us ++ 0x2C :: vs) = some (x, 0x2C :: vs))
    (hfs : parseMembers fuel vs = some (fs, rest)) :
    parseMembers (fuel + 1) (k.quote.units ++ 0x3A :: (us ++ 0x2C :: vs)) =
      some ((k, x) :: fs, rest) := by
  rw [parseMembers_name k hx, skipSpace_cons (by decide)]
  simp only [if_neg (show ¬ (0x2C : UInt16) = 0x7D by decide), if_true, hfs, Option.map_some]

/-- A non-empty text leaves fuel for one call. -/
theorem fuel_succ {us : List UInt16} {fuel : Nat} (hne : us ≠ []) (h : us.length ≤ fuel) :
    ∃ n, fuel = n + 1 ∧ us.length ≤ n + 1 := by
  have := List.length_pos_of_ne_nil hne
  exact ⟨fuel - 1, by omega, by omega⟩

namespace Json

theorem render_ne (j : Json) : j.render.units ≠ [] := by
  obtain ⟨u, us, h, -⟩ := j.render_head
  simp [h]

theorem renderEach_ne {xs : List Json} (h : xs ≠ []) :
    ∃ u us, (JsString.join "," (renderEach xs)).units = u :: us ∧ startsValue u = true := by
  rcases xs with _ | ⟨x, _ | ⟨y, ys⟩⟩
  · exact absurd rfl h
  · exact x.render_head
  · obtain ⟨u, us, hx, hu⟩ := x.render_head
    refine ⟨u, us ++ (("," : JsString) ++ JsString.join "," (renderEach (y :: ys))).units, ?_, hu⟩
    rw [renderEach, renderEach, JsString.join_cons_cons]
    simp [hx]

theorem renderMembers_ne {fs : List (JsString × Json)} (h : fs ≠ []) :
    ∃ us, (JsString.join "," (renderMembers fs)).units = 0x22 :: us := by
  rcases fs with _ | ⟨⟨k, v⟩, _ | ⟨⟨l, w⟩, gs⟩⟩
  · exact absurd rfl h
  · exact ⟨_, rfl⟩
  · exact ⟨_, rfl⟩

mutual

/-- **The text of a document is read as the document.** -/
theorem parseValue_render : ∀ (j : Json) {fuel : Nat} {rest : List UInt16}, j.distinct = true →
    j.render.units.length ≤ fuel → Ends rest →
    parseValue fuel (j.render.units ++ rest) = some (j.settle, rest)
  | .null, fuel, rest, _, hfuel, _ => by
    obtain ⟨n, rfl, -⟩ := fuel_succ (render_ne _) hfuel
    exact parseValue_null n rest
  | .bool b, fuel, rest, _, hfuel, _ => by
    obtain ⟨n, rfl, -⟩ := fuel_succ (render_ne _) hfuel
    exact parseValue_bool b n rest
  | .num a, fuel, rest, _, hfuel, hrest => by
    obtain ⟨n, rfl, -⟩ := fuel_succ (render_ne _) hfuel
    rw [render, settle]
    split
    · rename_i ha
      exact parseValue_num ha n hrest
    · exact parseValue_null n rest
  | .str s, fuel, rest, _, hfuel, _ => by
    obtain ⟨n, rfl, -⟩ := fuel_succ (render_ne _) hfuel
    exact parseValue_str s n rest
  | .arr [], fuel, rest, _, hfuel, _ => by
    obtain ⟨n, rfl, -⟩ := fuel_succ (render_ne _) hfuel
    have hunits : (arr []).render.units ++ rest = 0x5B :: 0x5D :: rest := rfl
    rw [hunits, parseValue_cons (by decide), if_neg (by decide), if_pos rfl,
      skipSpace_cons (by decide), List.head?_cons, if_pos rfl]
    rfl
  | .arr (x :: xs), fuel, rest, hj, hfuel, _ => by
    obtain ⟨n, rfl, hn⟩ := fuel_succ (render_ne _) hfuel
    rw [distinct] at hj
    have hunits : ∀ us, (arr (x :: xs)).render.units ++ us =
        0x5B :: ((JsString.join "," (renderEach (x :: xs))).units ++ 0x5D :: us) := by
      intro us
      rw [render]
      simp only [JsString.units_append, List.append_assoc]
      rfl
    have hlength := congrArg List.length (hunits [])
    simp only [List.append_nil, List.length_cons, List.length_append, List.length_nil] at hlength
    obtain ⟨u, us, hhead, hu⟩ := renderEach_ne (List.cons_ne_nil x xs)
    rw [hunits, settle]
    exact parseValue_arr hhead hu
      (parseElements_render (x :: xs) (List.cons_ne_nil x xs) hj (by omega))
  | .obj [], fuel, rest, _, hfuel, _ => by
    obtain ⟨n, rfl, -⟩ := fuel_succ (render_ne _) hfuel
    have hunits : (obj []).render.units ++ rest = 0x7B :: 0x7D :: rest := rfl
    rw [hunits, parseValue_cons (by decide), if_pos rfl, skipSpace_cons (by decide),
      List.head?_cons, if_pos rfl]
    rfl
  | .obj (p :: fs), fuel, rest, hj, hfuel, _ => by
    obtain ⟨n, rfl, hn⟩ := fuel_succ (render_ne _) hfuel
    rw [distinct, Bool.and_eq_true, decide_eq_true_eq] at hj
    have hunits : ∀ us, (obj (p :: fs)).render.units ++ us =
        0x7B :: ((JsString.join "," (renderMembers (p :: fs))).units ++ 0x7D :: us) := by
      intro us
      rw [render]
      simp only [JsString.units_append, List.append_assoc]
      rfl
    have hlength := congrArg List.length (hunits [])
    simp only [List.append_nil, List.length_cons, List.length_append, List.length_nil] at hlength
    obtain ⟨us, hhead⟩ := renderMembers_ne (List.cons_ne_nil p fs)
    rw [hunits, settle]
    exact parseValue_obj hhead (by rw [settleMembers_names]; exact hj.1)
      (parseMembers_render (p :: fs) (List.cons_ne_nil p fs) hj.2 (by omega))

theorem parseElements_render : ∀ (xs : List Json) {fuel : Nat} {rest : List UInt16}, xs ≠ [] →
    distinctEach xs = true → (JsString.join "," (renderEach xs)).units.length < fuel →
    parseElements fuel ((JsString.join "," (renderEach xs)).units ++ 0x5D :: rest) =
      some (settleEach xs, rest)
  | [], _, _, h, _, _ => absurd rfl h
  | [x], fuel, rest, _, hxs, hfuel => by
    obtain ⟨n, rfl⟩ : ∃ n, fuel = n + 1 := ⟨fuel - 1, by omega⟩
    rw [distinctEach, Bool.and_eq_true] at hxs
    exact parseElements_last (parseValue_render x hxs.1 (Nat.le_of_lt_succ hfuel)
      (ends_of_not (by decide) rest))
  | x :: y :: xs, fuel, rest, _, hxs, hfuel => by
    obtain ⟨n, rfl⟩ : ∃ n, fuel = n + 1 := ⟨fuel - 1, by omega⟩
    rw [distinctEach, Bool.and_eq_true] at hxs
    have hunits : ∀ us, (JsString.join "," (renderEach (x :: y :: xs))).units ++ us =
        x.render.units ++ 0x2C :: ((JsString.join "," (renderEach (y :: xs))).units ++ us) := by
      intro us
      rw [renderEach, renderEach, JsString.join_cons_cons]
      simp only [JsString.units_append, List.append_assoc]
      rfl
    have hlength := congrArg List.length (hunits [])
    simp only [List.append_nil, List.length_cons, List.length_append] at hlength
    rw [hunits, settleEach]
    exact parseElements_more
      (parseValue_render x hxs.1 (by omega) (ends_of_not (by decide) _))
      (parseElements_render (y :: xs) (List.cons_ne_nil y xs) hxs.2 (by omega))

theorem parseMembers_render : ∀ (fs : List (JsString × Json)) {fuel : Nat} {rest : List UInt16},
    fs ≠ [] → distinctMembers fs = true →
    (JsString.join "," (renderMembers fs)).units.length < fuel →
    parseMembers fuel ((JsString.join "," (renderMembers fs)).units ++ 0x7D :: rest) =
      some (settleMembers fs, rest)
  | [], _, _, h, _, _ => absurd rfl h
  | [(k, v)], fuel, rest, _, hfs, hfuel => by
    obtain ⟨n, rfl⟩ : ∃ n, fuel = n + 1 := ⟨fuel - 1, by omega⟩
    rw [distinctMembers, Bool.and_eq_true] at hfs
    have hunits : ∀ us, (JsString.join "," (renderMembers [(k, v)])).units ++ us =
        k.quote.units ++ 0x3A :: (v.render.units ++ us) := by
      intro us
      simp only [renderMembers, JsString.join, JsString.units_append, List.append_assoc]
      rfl
    have hlength := congrArg List.length (hunits [])
    simp only [List.append_nil, List.length_cons, List.length_append] at hlength
    rw [hunits, settleMembers]
    exact parseMembers_last k (parseValue_render v hfs.1 (by omega) (ends_of_not (by decide) rest))
  | (k, v) :: q :: fs, fuel, rest, _, hfs, hfuel => by
    obtain ⟨n, rfl⟩ : ∃ n, fuel = n + 1 := ⟨fuel - 1, by omega⟩
    rw [distinctMembers, Bool.and_eq_true] at hfs
    have hunits : ∀ us, (JsString.join "," (renderMembers ((k, v) :: q :: fs))).units ++ us =
        k.quote.units ++ 0x3A :: (v.render.units ++
          0x2C :: ((JsString.join "," (renderMembers (q :: fs))).units ++ us)) := by
      intro us
      rw [renderMembers, renderMembers, JsString.join_cons_cons]
      simp only [JsString.units_append, List.append_assoc]
      rfl
    have hlength := congrArg List.length (hunits [])
    simp only [List.append_nil, List.length_cons, List.length_append] at hlength
    rw [hunits, settleMembers]
    exact parseMembers_more k
      (parseValue_render v hfs.1 (by omega) (ends_of_not (by decide) _))
      (parseMembers_render (q :: fs) (List.cons_ne_nil q fs) hfs.2 (by omega))

end

/-- **`JSON.parse` reads what `render` wrote.** -/
theorem parse_render {j : Json} (h : j.distinct = true) : parse j.render = some j.settle := by
  have hends : Ends [] := fun u hu => absurd hu (by simp)
  have hread := parseValue_render j h (le_refl _) hends
  rw [List.append_nil] at hread
  unfold parse
  rw [hread]
  rfl

/-! ## `JSON.stringify` -/

mutual

/-- A document with its members in the order of `Object.keys`, everywhere. -/
def ordered : Json → Json
  | .arr xs => .arr (orderedEach xs)
  | .obj fs => .obj (Members.enumerate (orderedMembers fs))
  | j => j

def orderedEach : List Json → List Json
  | [] => []
  | x :: xs => x.ordered :: orderedEach xs

def orderedMembers : List (JsString × Json) → List (JsString × Json)
  | [] => []
  | (k, v) :: fs => (k, v.ordered) :: orderedMembers fs

end

theorem orderedMembers_eq (fs : List (JsString × Json)) :
    orderedMembers fs = Members.mapValues ordered fs := by
  induction fs with
  | nil => rfl
  | cons p fs ih =>
    obtain ⟨k, v⟩ := p
    rw [orderedMembers, ih]
    rfl

theorem renderMembers_eq (fs : List (JsString × Json)) :
    renderMembers fs = fs.map fun p => p.1.quote ++ (":" : JsString) ++ p.2.render := by
  induction fs with
  | nil => rfl
  | cons p fs ih =>
    obtain ⟨k, v⟩ := p
    rw [renderMembers, ih, List.map_cons]

mutual

/-- **`JSON.stringify` writes the members in the order of `Object.keys`.** -/
theorem stringify_eq : ∀ j : Json, j.stringify = j.ordered.render
  | .null => rfl
  | .bool _ => rfl
  | .num _ => rfl
  | .str _ => rfl
  | .arr xs => by rw [stringify, ordered, render, stringifyEach_eq xs]
  | .obj fs => by
    rw [stringify, ordered, render, stringifyMembers_eq fs, orderedMembers_eq,
      Members.memberList_eq, renderMembers_eq]
    have hmap : Members.mapValues (fun v : Json => v.ordered.render) fs =
        Members.mapValues render (Members.mapValues ordered fs) := by
      simp [Members.mapValues]
    rw [hmap, Members.enumerate_mapValues, Members.mapValues, List.map_map]
    rfl

theorem stringifyEach_eq : ∀ xs : List Json, stringifyEach xs = renderEach (orderedEach xs)
  | [] => rfl
  | x :: xs => by rw [stringifyEach, orderedEach, renderEach, stringify_eq x, stringifyEach_eq xs]

theorem stringifyMembers_eq : ∀ fs : List (JsString × Json),
    stringifyMembers fs = Members.mapValues (fun v : Json => v.ordered.render) fs
  | [] => rfl
  | (k, v) :: fs => by
    rw [stringifyMembers, stringify_eq v, stringifyMembers_eq fs]
    rfl

end

mutual

theorem ordered_distinct : ∀ {j : Json}, j.distinct = true → j.ordered.distinct = true
  | .null, _ => rfl
  | .bool _, _ => rfl
  | .num _, _ => rfl
  | .str _, _ => rfl
  | .arr xs, h => by
    rw [distinct] at h
    rw [ordered, distinct]
    exact orderedEach_distinct h
  | .obj fs, h => by
    rw [distinct, Bool.and_eq_true, decide_eq_true_eq] at h
    have hnames : ((orderedMembers fs).map Prod.fst).Nodup := by
      rw [orderedMembers_eq, Members.mapValues_names]
      exact h.1
    rw [ordered, distinct, Bool.and_eq_true, decide_eq_true_eq]
    refine ⟨Members.enumerate_nodup hnames, ?_⟩
    rw [distinctMembers_iff]
    intro p hp
    exact (distinctMembers_iff.mp (orderedMembers_distinct h.2)) p
      ((Members.enumerate_perm hnames).mem_iff.mp hp)

theorem orderedEach_distinct : ∀ {xs : List Json}, distinctEach xs = true →
    distinctEach (orderedEach xs) = true
  | [], _ => rfl
  | x :: xs, h => by
    rw [distinctEach, Bool.and_eq_true] at h
    rw [orderedEach, distinctEach, Bool.and_eq_true]
    exact ⟨ordered_distinct h.1, orderedEach_distinct h.2⟩

theorem orderedMembers_distinct : ∀ {fs : List (JsString × Json)}, distinctMembers fs = true →
    distinctMembers (orderedMembers fs) = true
  | [], _ => rfl
  | (k, v) :: fs, h => by
    rw [distinctMembers, Bool.and_eq_true] at h
    rw [orderedMembers, distinctMembers, Bool.and_eq_true]
    exact ⟨ordered_distinct h.1, orderedMembers_distinct h.2⟩

end

mutual

theorem settle_distinct : ∀ {j : Json}, j.distinct = true → j.settle.distinct = true
  | .null, _ => rfl
  | .bool _, _ => rfl
  | .num n, _ => by
    rw [settle]
    split <;> rfl
  | .str _, _ => rfl
  | .arr xs, h => by
    rw [distinct] at h
    rw [settle, distinct]
    exact settleEach_distinct h
  | .obj fs, h => by
    rw [distinct, Bool.and_eq_true, decide_eq_true_eq] at h
    rw [settle, distinct, Bool.and_eq_true, decide_eq_true_eq, settleMembers_names]
    exact ⟨h.1, settleMembers_distinct h.2⟩

theorem settleEach_distinct : ∀ {xs : List Json}, distinctEach xs = true →
    distinctEach (settleEach xs) = true
  | [], _ => rfl
  | x :: xs, h => by
    rw [distinctEach, Bool.and_eq_true] at h
    rw [settleEach, distinctEach, Bool.and_eq_true]
    exact ⟨settle_distinct h.1, settleEach_distinct h.2⟩

theorem settleMembers_distinct : ∀ {fs : List (JsString × Json)}, distinctMembers fs = true →
    distinctMembers (settleMembers fs) = true
  | [], _ => rfl
  | (k, v) :: fs, h => by
    rw [distinctMembers, Bool.and_eq_true] at h
    rw [settleMembers, distinctMembers, Bool.and_eq_true]
    exact ⟨settle_distinct h.1, settleMembers_distinct h.2⟩

end

/-- **`JSON.parse` reads what `JSON.stringify` wrote.** -/
theorem parse_stringify {j : Json} (h : j.distinct = true) :
    parse j.stringify = some j.ordered.settle := by
  rw [stringify_eq, parse_render (ordered_distinct h)]

end Json
end Js

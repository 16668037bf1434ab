import Parmana.Js.RoundTrip

/-! # Texts as bytes

`TextEncoder` writes a string as UTF-8: a surrogate pair is one scalar value, and
a surrogate that stands alone becomes `U+FFFD`, so two strings can share their
bytes.  A JSON text cannot hold a lone surrogate, since `JSON.stringify` escapes
it (`paired_render`), and between texts of paired surrogates the bytes are
injective (`encode_injective`).
-/
namespace Js

namespace JsString

/-- The scalar value of a surrogate pair. -/
def pairChar (u v : UInt16) : Char :=
  Char.ofNat (0x10000 + (u.toNat - 0xD800) * 0x400 + (v.toNat - 0xDC00))

/-- The scalar value a code unit gives by itself. -/
def unitChar (u : UInt16) : Char :=
  if isHighSurrogate u || isLowSurrogate u then Char.ofNat 0xFFFD else Char.ofNat u.toNat

/-- The scalar values of a string. -/
def scalars : List UInt16 → List Char
  | [] => []
  | [u] => [unitChar u]
  | u :: v :: us =>
    if isHighSurrogate u && isLowSurrogate v then pairChar u v :: scalars us
    else unitChar u :: scalars (v :: us)

/-- The UTF-8 bytes of scalar values. -/
def utf8 (cs : List Char) : List UInt8 := cs.flatMap String.utf8EncodeChar

/-- `new TextEncoder().encode(s)`. -/
def encode (s : JsString) : List UInt8 := utf8 (scalars s.units)

/-- Whether every surrogate is half of a pair. -/
def paired : List UInt16 → Bool
  | [] => true
  | [u] => !(isHighSurrogate u || isLowSurrogate u)
  | u :: v :: us =>
    if isHighSurrogate u && isLowSurrogate v then paired us
    else !(isHighSurrogate u || isLowSurrogate u) && paired (v :: us)

theorem utf8_injective {cs ds : List Char} (h : utf8 cs = utf8 ds) : cs = ds := by
  have hbytes : cs.utf8Encode = ds.utf8Encode := congrArg List.toByteArray h
  have hdecode := congrArg ByteArray.utf8Decode? hbytes
  rw [List.utf8Decode?_utf8Encode, List.utf8Decode?_utf8Encode, Option.some.injEq] at hdecode
  simpa using congrArg Array.toList hdecode

/-! ## Surrogates -/

theorem highSurrogate_iff {u : UInt16} :
    isHighSurrogate u = true ↔ 0xD800 ≤ u.toNat ∧ u.toNat < 0xDC00 := by
  rw [isHighSurrogate, Bool.and_eq_true, decide_eq_true_eq, decide_eq_true_eq,
    UInt16.le_iff_toNat_le, UInt16.lt_iff_toNat_lt]
  exact Iff.rfl

theorem lowSurrogate_iff {u : UInt16} :
    isLowSurrogate u = true ↔ 0xDC00 ≤ u.toNat ∧ u.toNat < 0xE000 := by
  rw [isLowSurrogate, Bool.and_eq_true, decide_eq_true_eq, decide_eq_true_eq,
    UInt16.le_iff_toNat_le, UInt16.lt_iff_toNat_lt]
  exact Iff.rfl

theorem toNat_ofNat {n : Nat} (h : n.isValidChar) : (Char.ofNat n).toNat = n := by
  rw [Char.ofNat, dif_pos h]
  rfl

theorem utf16_pairChar {u v : UInt16} (hu : isHighSurrogate u = true)
    (hv : isLowSurrogate v = true) : utf16 (pairChar u v) = [u, v] := by
  rw [highSurrogate_iff] at hu
  rw [lowSurrogate_iff] at hv
  have hvalid : (0x10000 + (u.toNat - 0xD800) * 0x400 + (v.toNat - 0xDC00)).isValidChar := by
    refine .inr ⟨?_, ?_⟩ <;> omega
  unfold utf16 pairChar
  simp only [toNat_ofNat hvalid]
  rw [if_neg (by omega)]
  have hfirst : 0xD800 + (0x10000 + (u.toNat - 0xD800) * 0x400 + (v.toNat - 0xDC00) - 0x10000) /
      0x400 = u.toNat := by omega
  have hsecond : 0xDC00 + (0x10000 + (u.toNat - 0xD800) * 0x400 + (v.toNat - 0xDC00) - 0x10000) %
      0x400 = v.toNat := by omega
  rw [hfirst, hsecond, UInt16.ofNat_toNat, UInt16.ofNat_toNat]

theorem utf16_unitChar {u : UInt16} (h : ¬ (isHighSurrogate u || isLowSurrogate u) = true) :
    utf16 (unitChar u) = [u] := by
  have hlt := u.toNat_lt
  unfold unitChar
  rw [if_neg h]
  rw [Bool.or_eq_true, highSurrogate_iff, lowSurrogate_iff] at h
  have hvalid : u.toNat.isValidChar := by
    unfold Nat.isValidChar
    omega
  unfold utf16
  simp only [toNat_ofNat hvalid]
  rw [if_pos (by omega), UInt16.ofNat_toNat]

/-- The scalar values of paired code units give the code units back. -/
theorem utf16_scalars {us : List UInt16} (h : paired us = true) :
    (scalars us).flatMap utf16 = us := by
  induction us using scalars.induct with
  | case1 => rfl
  | case2 u =>
    rw [paired, Bool.not_eq_true'] at h
    rw [scalars, List.flatMap_singleton, utf16_unitChar (by rw [h]; exact Bool.false_ne_true)]
  | case3 u v us hpair ih =>
    rw [paired, if_pos hpair] at h
    rw [Bool.and_eq_true] at hpair
    rw [scalars, if_pos (Bool.and_eq_true_iff.mpr hpair), List.flatMap_cons,
      utf16_pairChar hpair.1 hpair.2, ih h]
    rfl
  | case4 u v us hpair ih =>
    rw [paired, if_neg hpair, Bool.and_eq_true, Bool.not_eq_true'] at h
    rw [scalars, if_neg hpair, List.flatMap_cons,
      utf16_unitChar (by rw [h.1]; exact Bool.false_ne_true), ih h.2]
    rfl

/-- A character below `U+0080` is one byte. -/
theorem utf8_head {c : Char} (h : c.toNat < 0x80) (cs : List Char) :
    (utf8 (c :: cs)).head? = some (UInt8.ofNat c.toNat) := by
  have hone : String.utf8EncodeChar c = [UInt8.ofNat c.toNat] := by
    unfold String.utf8EncodeChar
    exact if_pos (Nat.le_of_lt_succ h)
  rw [utf8, List.flatMap_cons, hone]
  rfl

/-- So is such a code unit. -/
theorem encode_head {u : UInt16} (h : u.toNat < 0x80) (us : List UInt16) :
    (encode ⟨u :: us⟩).head? = some (UInt8.ofNat u.toNat) := by
  have hnot : ¬ isHighSurrogate u = true := by
    rw [highSurrogate_iff]
    omega
  have hunit : unitChar u = Char.ofNat u.toNat := by
    refine if_neg ?_
    rw [Bool.or_eq_true, highSurrogate_iff, lowSurrogate_iff]
    omega
  have hscalars : ∃ cs, scalars (u :: us) = unitChar u :: cs := by
    rcases us with _ | ⟨v, us⟩
    · exact ⟨[], rfl⟩
    · refine ⟨scalars (v :: us), if_neg ?_⟩
      rw [Bool.and_eq_true]
      exact fun hpair => hnot hpair.1
  obtain ⟨cs, hcs⟩ := hscalars
  have hnat : (Char.ofNat u.toNat).toNat = u.toNat := toNat_ofNat (Or.inl (by omega))
  have hbytes : encode ⟨u :: us⟩ = utf8 (scalars (u :: us)) := rfl
  rw [hbytes, hcs, hunit, utf8_head (by rw [hnat]; exact h), hnat]

/-- The code unit of a character of the Basic Multilingual Plane is no surrogate. -/
theorem utf16_not_surrogate {c : Char} (h : c.toNat < 0x10000) :
    ¬ (isHighSurrogate (UInt16.ofNat c.toNat) ||
      isLowSurrogate (UInt16.ofNat c.toNat)) = true := by
  have hvalid : c.toNat < 0xD800 ∨ 0xDFFF < c.toNat ∧ c.toNat < 0x110000 := c.valid
  rw [Bool.or_eq_true, highSurrogate_iff, lowSurrogate_iff, UInt16.toNat_ofNat']
  omega

/-- Any other character is a pair of surrogates. -/
theorem utf16_pair {c : Char} (h : ¬ c.toNat < 0x10000) : ∃ u v, utf16 c = [u, v] ∧
    (isHighSurrogate u && isLowSurrogate v) = true := by
  have hvalid : c.toNat < 0xD800 ∨ 0xDFFF < c.toNat ∧ c.toNat < 0x110000 := c.valid
  refine ⟨_, _, if_neg h, ?_⟩
  rw [Bool.and_eq_true, highSurrogate_iff, lowSurrogate_iff,
    UInt16.toNat_ofNat', UInt16.toNat_ofNat']
  omega

theorem utf16_injective {c d : Char} (h : utf16 c = utf16 d) : c = d := by
  have hc : c.toNat < 0xD800 ∨ 0xDFFF < c.toNat ∧ c.toNat < 0x110000 := c.valid
  have hd : d.toNat < 0xD800 ∨ 0xDFFF < d.toNat ∧ d.toNat < 0x110000 := d.valid
  have hnat := congrArg (List.map UInt16.toNat) h
  unfold utf16 at hnat
  dsimp only at hnat
  refine Char.toNat_inj.mp ?_
  split at hnat <;> split at hnat <;>
    simp only [List.map_cons, List.map_nil, List.cons.injEq, UInt16.toNat_ofNat', and_true,
      reduceCtorEq, and_false] at hnat <;> omega

/-- The code units of scalar values give the scalar values back. -/
theorem scalars_utf16 (cs : List Char) : scalars (cs.flatMap utf16) = cs := by
  induction cs with
  | nil => rfl
  | cons c cs ih =>
    rw [List.flatMap_cons]
    by_cases hc : c.toNat < 0x10000
    · have hunit : utf16 c = [UInt16.ofNat c.toNat] := if_pos hc
      have hnot := utf16_not_surrogate hc
      have hchar : unitChar (UInt16.ofNat c.toNat) = c := by
        have hnat : (UInt16.ofNat c.toNat).toNat = c.toNat := by
          rw [UInt16.toNat_ofNat']
          omega
        rw [unitChar, if_neg hnot, hnat, Char.ofNat_toNat]
      have hcons : ∀ us, scalars (UInt16.ofNat c.toNat :: us) = c :: scalars us := by
        intro us
        rcases us with _ | ⟨v, us⟩
        · exact congrArg (fun d => [d]) hchar
        · have hpair : ¬ (isHighSurrogate (UInt16.ofNat c.toNat) && isLowSurrogate v) = true := by
            intro h
            rw [Bool.and_eq_true] at h
            rw [h.1, Bool.true_or] at hnot
            exact hnot rfl
          rw [scalars, if_neg hpair, hchar]
      rw [hunit, List.singleton_append, hcons, ih]
    · obtain ⟨u, v, hunits, hpair⟩ := utf16_pair hc
      have hchar : pairChar u v = c := by
        have hback := utf16_pairChar (Bool.and_eq_true_iff.mp hpair).1
          (Bool.and_eq_true_iff.mp hpair).2
        exact utf16_injective (hback.trans hunits.symm)
      rw [hunits, List.cons_append, List.cons_append, List.nil_append, scalars, if_pos hpair, hchar,
        ih]

/-- A string of scalar values is written as their bytes. -/
theorem encode_utf16 (cs : List Char) : encode ⟨cs.flatMap utf16⟩ = utf8 cs := by
  rw [encode, scalars_utf16]

/-- **Between texts of paired surrogates the bytes are injective.** -/
theorem encode_injective {s t : JsString} (hs : paired s.units = true) (ht : paired t.units = true)
    (h : s.encode = t.encode) : s = t := by
  have hchars := congrArg (List.flatMap utf16) (utf8_injective h)
  rw [utf16_scalars hs, utf16_scalars ht] at hchars
  cases s
  cases t
  exact congrArg JsString.mk hchars

/-! ## JSON texts -/

/-- A code unit that is no surrogate is escaped by itself. -/
theorem escapeUnits_cons {u : UInt16}
    (h : ¬ (isHighSurrogate u || isLowSurrogate u) = true) (us : List UInt16) :
    escapeUnits (u :: us) = escapeUnit u ++ escapeUnits us := by
  rcases us with _ | ⟨v, us⟩
  · have hlast : escapeUnits [u] = escapeUnit u := if_neg h
    rw [hlast]
    exact (List.append_nil _).symm
  · have hpair : ¬ (isHighSurrogate u && isLowSurrogate v) = true := by
      intro hp
      rw [Bool.and_eq_true] at hp
      rw [hp.1, Bool.true_or] at h
      exact h rfl
    rw [escapeUnits, if_neg hpair, if_neg h]

theorem paired_append {us vs : List UInt16} (hu : paired us = true) (hv : paired vs = true) :
    paired (us ++ vs) = true := by
  induction us using paired.induct with
  | case1 => exact hv
  | case2 u =>
    rw [paired, Bool.not_eq_true'] at hu
    rcases vs with _ | ⟨v, vs⟩
    · rw [List.append_nil, paired, hu]
      rfl
    · have hnot : ¬ (isHighSurrogate u && isLowSurrogate v) = true := by
        intro hpair
        rw [Bool.and_eq_true] at hpair
        rw [hpair.1, Bool.true_or] at hu
        cases hu
      rw [List.singleton_append, paired, if_neg hnot, hu, hv]
      rfl
  | case3 u v us hpair ih =>
    rw [paired, if_pos hpair] at hu
    rw [List.cons_append, List.cons_append, paired, if_pos hpair]
    exact ih hu
  | case4 u v us hpair ih =>
    rw [paired, if_neg hpair, Bool.and_eq_true] at hu
    rw [List.cons_append, List.cons_append, paired, if_neg hpair, Bool.and_eq_true]
    exact ⟨hu.1, ih hu.2⟩

/-- Code units below the surrogates are paired. -/
theorem paired_of_below {us : List UInt16} (h : ∀ u ∈ us, u < 0xD800) : paired us = true := by
  have hnot : ∀ u : UInt16, u < 0xD800 → (isHighSurrogate u || isLowSurrogate u) = false := by
    intro u hu
    rw [UInt16.lt_iff_toNat_lt] at hu
    have hlarge : (0xD800 : UInt16).toNat = 0xD800 := rfl
    by_contra hs
    rw [Bool.not_eq_false, Bool.or_eq_true, highSurrogate_iff, lowSurrogate_iff] at hs
    omega
  induction us with
  | nil => rfl
  | cons u us ih =>
    have hu : paired [u] = true := by
      rw [paired, hnot u (h u List.mem_cons_self)]
      rfl
    have hus : paired us = true := ih fun v hv => h v (List.mem_cons_of_mem u hv)
    exact paired_append hu hus

theorem hexDigit_below (n : Nat) : hexDigit (n % 16) < 0xD800 := by
  have hlt : n % 16 < 16 := Nat.mod_lt n (by decide)
  generalize n % 16 = m at hlt ⊢
  revert m
  decide

theorem paired_unicodeEscape (u : UInt16) : paired (unicodeEscape u) = true := by
  refine paired_of_below fun v hv => ?_
  simp only [unicodeEscape, List.mem_cons, List.not_mem_nil, or_false] at hv
  rcases hv with rfl | rfl | rfl | rfl | rfl | rfl
  · decide
  · decide
  · exact hexDigit_below _
  · exact hexDigit_below _
  · exact hexDigit_below _
  · exact hexDigit_below _

theorem paired_escapeUnit {u : UInt16} (h : ¬ (isHighSurrogate u || isLowSurrogate u) = true) :
    paired (escapeUnit u) = true := by
  unfold escapeUnit
  split_ifs
  · decide
  · decide
  · decide
  · decide
  · decide
  · decide
  · decide
  · exact paired_unicodeEscape u
  · rw [paired, Bool.eq_false_iff.mpr h]
    rfl

theorem paired_escapeUnits (us : List UInt16) : paired (escapeUnits us) = true := by
  induction us using escapeUnits.induct with
  | case1 => rfl
  | case2 u h =>
    rw [escapeUnits, if_pos h]
    exact paired_unicodeEscape u
  | case3 u h =>
    rw [escapeUnits, if_neg h]
    exact paired_escapeUnit h
  | case4 u v us h ih =>
    rw [escapeUnits, if_pos h, paired, if_pos h]
    exact ih
  | case5 u v us hpair h ih =>
    rw [escapeUnits, if_neg hpair, if_pos h]
    exact paired_append (paired_unicodeEscape u) ih
  | case6 u v us hpair h ih =>
    rw [escapeUnits, if_neg hpair, if_neg h]
    exact paired_append (paired_escapeUnit h) ih

theorem paired_quote (s : JsString) : paired s.quote.units = true := by
  have hmark : paired [0x22] = true := by decide
  have hbody := paired_append (paired_escapeUnits s.units) hmark
  have hquote : s.quote.units = [0x22] ++ (escapeUnits s.units ++ [0x22]) := rfl
  rw [hquote]
  exact paired_append hmark hbody

theorem paired_join {sep : JsString} {texts : List JsString} (hsep : paired sep.units = true)
    (h : ∀ t ∈ texts, paired t.units = true) : paired (join sep texts).units = true := by
  induction texts with
  | nil => rfl
  | cons t texts ih =>
    have hrest := ih fun s hs => h s (List.mem_cons_of_mem t hs)
    have ht := h t List.mem_cons_self
    rcases texts with _ | ⟨s, rest⟩
    · exact ht
    · rw [join_cons_cons]
      exact paired_append (paired_append ht hsep) hrest

/-- A JSON text is made of ASCII and of quoted strings. -/
theorem paired_toText {n : JsNumber} (h : n.isFinite = true) : paired n.toText.units = true := by
  refine paired_of_below fun u hu => ?_
  have hunit := (JsNumber.toText_units h).2 u hu
  simp only [isNumberUnit, Bool.or_eq_true, Bool.and_eq_true, decide_eq_true_eq] at hunit
  rcases hunit with ((((⟨-, hdigit⟩ | rfl) | rfl) | rfl) | rfl) | rfl
  · exact UInt16.lt_of_le_of_lt hdigit (by decide)
  all_goals decide

end JsString

namespace Json

mutual

/-- **No JSON text holds a lone surrogate.** -/
theorem paired_render : ∀ j : Json, JsString.paired j.render.units = true
  | .null => by decide
  | .bool b => by cases b <;> decide
  | .num n => by
    rw [render]
    split
    · rename_i hn
      exact JsString.paired_toText hn
    · decide
  | .str s => JsString.paired_quote s
  | .arr xs => by
    rw [render]
    exact JsString.paired_append (JsString.paired_append (by decide)
      (JsString.paired_join (by decide) (paired_renderEach xs))) (by decide)
  | .obj fs => by
    rw [render]
    exact JsString.paired_append (JsString.paired_append (by decide)
      (JsString.paired_join (by decide) (paired_renderMembers fs))) (by decide)

theorem paired_renderEach : ∀ (xs : List Json), ∀ t ∈ renderEach xs, JsString.paired t.units = true
  | [], _, h => by cases h
  | x :: xs, t, h => by
    rw [renderEach] at h
    rcases List.mem_cons.mp h with rfl | h
    · exact paired_render x
    · exact paired_renderEach xs t h

theorem paired_renderMembers : ∀ (fs : List (JsString × Json)), ∀ t ∈ renderMembers fs,
    JsString.paired t.units = true
  | [], _, h => by cases h
  | (k, v) :: fs, t, h => by
    rw [renderMembers] at h
    rcases List.mem_cons.mp h with rfl | h
    · exact JsString.paired_append (JsString.paired_append (JsString.paired_quote k) (by decide))
        (paired_render v)
    · exact paired_renderMembers fs t h

end

end Json
end Js

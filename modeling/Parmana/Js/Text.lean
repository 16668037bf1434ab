import Mathlib.Algebra.Group.Int.Defs
import Mathlib.Algebra.Group.Nat.Defs
import Mathlib.Data.List.Basic
import Mathlib.Tactic.Common

/-! # JavaScript strings

A JavaScript string is a finite sequence of UTF-16 code units, with no promise
that surrogates come in pairs: `length`, `startsWith`, comparison and object
keys all work on code units.  `JsString` is that sequence, and a Lean literal
is turned into one by `JsString.ofString`.

Only what a policy or an approval reads off a string is here: trimming,
splitting on a separator, prefix and suffix tests, and the code unit order
`Array.prototype.sort` uses when its comparator is `<`.
-/
namespace Js

/-- The UTF-16 code units of one Unicode scalar value: itself below `U+10000`,
a surrogate pair from there on. -/
def utf16 (c : Char) : List UInt16 :=
  let n := c.toNat
  if n < 0x10000 then [UInt16.ofNat n]
  else [UInt16.ofNat (0xD800 + (n - 0x10000) / 0x400),
    UInt16.ofNat (0xDC00 + (n - 0x10000) % 0x400)]

/-- A JavaScript string: its UTF-16 code units. -/
structure JsString where
  units : List UInt16
  deriving DecidableEq, Repr

namespace JsString

/-- The JavaScript string of a Lean literal: its characters in UTF-16, read off the bytes
of the literal where every character is one byte, so that the kernel evaluates it quickly. -/
def ofString (s : String) : JsString where
  units :=
    let bytes := s.toByteArray.data.toList
    if bytes.all (· < 0x80) then bytes.map UInt8.toUInt16 else s.toList.flatMap utf16

theorem ascii_of_bytes {c : Char} (h : ∀ b ∈ String.utf8EncodeChar c, b < 0x80) :
    c.toNat < 0x80 := by
  have hfirst : ∀ {n : Nat} {bs : List UInt8}, 0x80 ≤ n → n < 0x100 →
      ¬ ∀ b ∈ UInt8.ofNat n :: bs, b < 0x80 := by
    intro n bs hle hlt hall
    have hb := UInt8.lt_iff_toNat_lt.mp (hall _ List.mem_cons_self)
    rw [UInt8.toNat_ofNat', Nat.mod_eq_of_lt hlt] at hb
    exact absurd hb (Nat.not_lt.mpr hle)
  by_contra hnot
  have hlarge : ¬ c.val.toNat ≤ 0x7F := fun hle => hnot (Nat.lt_succ_of_le hle)
  unfold String.utf8EncodeChar at h
  simp only [if_neg hlarge] at h
  -- the first of several bytes is large
  split at h
  · exact hfirst (by omega) (by omega) h
  · split at h
    · exact hfirst (by omega) (by omega) h
    · exact hfirst (by omega) (by omega) h

/-- Both ways of reading a literal agree. -/
theorem ofString_eq (s : String) : ofString s = ⟨s.toList.flatMap utf16⟩ := by
  have hbytes : s.toByteArray.data.toList = s.toList.flatMap String.utf8EncodeChar := by
    rw [← String.utf8Encode_toList]
    exact List.toList_data_toByteArray
  unfold ofString
  rw [hbytes]
  refine congrArg JsString.mk ?_
  dsimp only
  split
  · rename_i hall
    rw [List.all_eq_true] at hall
    generalize s.toList = cs at hall ⊢
    induction cs with
    | nil => rfl
    | cons c cs ih =>
      rw [List.flatMap_cons] at hall ⊢
      obtain ⟨hfirst, hrest⟩ := List.forall_mem_append.mp hall
      have hc : c.toNat < 0x80 := ascii_of_bytes fun b hb => of_decide_eq_true (hfirst b hb)
      have hone : String.utf8EncodeChar c = [UInt8.ofNat c.toNat] := by
        unfold String.utf8EncodeChar
        exact if_pos (Nat.le_of_lt_succ hc)
      have hunit : utf16 c = [UInt16.ofNat c.toNat] := if_pos (Nat.lt_of_lt_of_le hc (by decide))
      have hwiden : (UInt8.ofNat c.toNat).toUInt16 = UInt16.ofNat c.toNat := by
        refine UInt16.toNat_inj.mp ?_
        rw [UInt8.toNat_toUInt16, UInt8.toNat_ofNat', UInt16.toNat_ofNat']
        omega
      rw [List.map_append, ih hrest, List.flatMap_cons, hone, hunit]
      exact congrArg (· :: _) hwiden
  · rfl

instance : Coe String JsString := ⟨ofString⟩

instance : Append JsString := ⟨fun s t => ⟨s.units ++ t.units⟩⟩

instance : Inhabited JsString := ⟨⟨[]⟩⟩

/-- `s.length`. -/
def length (s : JsString) : Nat := s.units.length

/-- Whether `s` is the empty string. -/
def isEmpty (s : JsString) : Bool := s.units.isEmpty

/-- The code units `String.prototype.trim` removes: WhiteSpace and
LineTerminator of the language. -/
def isSpace (u : UInt16) : Bool :=
  u ∈ ([0x9, 0xA, 0xB, 0xC, 0xD, 0x20, 0xA0, 0x1680, 0x2028, 0x2029, 0x202F, 0x205F,
    0x3000, 0xFEFF] : List UInt16) || (0x2000 ≤ u && u ≤ 0x200A)

/-- `s.trim()`. -/
def trim (s : JsString) : JsString :=
  ⟨((s.units.dropWhile isSpace).reverse.dropWhile isSpace).reverse⟩

/-- `s.startsWith(p)`. -/
def startsWith (s p : JsString) : Bool := p.units.isPrefixOf s.units

/-- `s.endsWith(p)`. -/
def endsWith (s p : JsString) : Bool := p.units.isSuffixOf s.units

/-- The pieces of `us` between occurrences of `sep`, never empty. -/
def splitUnits (sep : UInt16) : List UInt16 → List (List UInt16)
  | [] => [[]]
  | u :: us =>
    if u = sep then [] :: splitUnits sep us
    else match splitUnits sep us with
      | [] => [[u]]
      | piece :: rest => (u :: piece) :: rest

/-- `s.split(".")`: the segments of a dot-path. -/
def splitDots (s : JsString) : List JsString := (splitUnits 0x2E s.units).map JsString.mk

/-- `parts.join(sep)`. -/
def join (sep : JsString) : List JsString → JsString
  | [] => ⟨[]⟩
  | [s] => s
  | s :: t :: rest => s ++ sep ++ join sep (t :: rest)

/-- `s < t`: the code unit lexicographic order. -/
def lt (s t : JsString) : Bool := decide (s.units < t.units)

/-- `s <= t`, what a comparator built from `<` and `>` sorts by. -/
def le (s t : JsString) : Bool := !lt t s

/-- The decimal digits of a natural number. -/
def ofNat (n : Nat) : JsString := ofString (toString n)

/-- A letter, a digit or an underscore: the class `[A-Za-z0-9_]`. -/
def isWordUnit (u : UInt16) : Bool :=
  (0x41 ≤ u && u ≤ 0x5A) || (0x61 ≤ u && u ≤ 0x7A) || (0x30 ≤ u && u ≤ 0x39) || u == 0x5F

/-- `/^[A-Za-z0-9_]+$/.test(s)`. -/
def isWord (s : JsString) : Bool := !s.units.isEmpty && s.units.all isWordUnit

/-- A canonical array index: the decimal form of an integer below `2 ^ 32 - 1`.
An object lists these keys first, in numeric order. -/
def arrayIndex? (s : JsString) : Option Nat :=
  match s.units with
  | [] => none
  | us =>
    if us.all (fun u => 0x30 ≤ u && u ≤ 0x39) then
      let n := us.foldl (fun n u => n * 10 + (u.toNat - 0x30)) 0
      if (us.head? ≠ some 0x30 ∨ us = [0x30]) ∧ n < 2 ^ 32 - 1 then some n else none
    else none

@[simp] theorem mk_units (s : JsString) : JsString.mk s.units = s := rfl

theorem splitUnits_ne_nil (sep : UInt16) (us : List UInt16) : splitUnits sep us ≠ [] := by
  cases us with
  | nil => simp [splitUnits]
  | cons u us =>
    unfold splitUnits
    split
    · simp
    · split <;> simp

example : splitDots "parameters.orderId" = ["parameters", "orderId"] := by decide
example : lt "managerApproved" "ownerApproved" = true := by decide

end JsString
end Js

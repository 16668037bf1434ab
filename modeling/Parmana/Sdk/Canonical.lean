import Parmana.Crypto.CanonicalSerializer
import Parmana.Js.KeyOrder

/-! # The canonical serializers of the SDKs

The TypeScript SDK repeats the server's serializer for decoded JSON, and gives
the same bytes on every document.

The Python SDK sorts the keys too, and then writes them as they stand, since a
Python dictionary keeps its insertion order.  JavaScript does not: it lists the
keys that are array indices first, in numeric order.  The bytes are the same
exactly when no object is listed differently by the two (`keysAgree`), and
`{"10": 1, "9": 2}` is one that is.
-/
namespace Parmana.Sdk

open Js

/-! ## TypeScript -/

/-- `normalize`: null and primitives as they are, arrays element by element,
objects with their keys sorted. -/
def Typescript.normalize (value : Json) : Json := value.sortKeys

/-- `canonicalSerialize`. -/
def Typescript.canonicalSerialize (value : Json) : List UInt8 :=
  (Typescript.normalize value).stringify.encode

/-! ## Python -/

/-- A decoded JSON value in Python, its numbers integers: a string is a sequence
of code points, and a dictionary its items in insertion order. -/
inductive PyJson where
  | none
  | bool (b : Bool)
  | int (i : Int)
  | str (s : String)
  | list (xs : List PyJson)
  | dict (fs : List (String × PyJson))

namespace Python

/-- The code points of a string, what Python compares strings by. -/
def codePoints (s : String) : List Nat := s.toList.map Char.toNat

/-- `s <= t`. -/
def le (s t : String) : Bool := !decide (codePoints t < codePoints s)

mutual

/-- `_normalize`. -/
def normalize : PyJson → PyJson
  | .list xs => .list (normalizeEach xs)
  | .dict fs => .dict ((normalizeItems fs).insertionSort fun p q => le p.1 q.1)
  | v => v

def normalizeEach : List PyJson → List PyJson
  | [] => []
  | x :: xs => normalize x :: normalizeEach xs

def normalizeItems : List (String × PyJson) → List (String × PyJson)
  | [] => []
  | (k, v) :: fs => (k, normalize v) :: normalizeItems fs

end

/-- The text of an integer. -/
def intText (i : Int) : List Char :=
  if i < 0 then '-' :: Nat.toDigits 10 i.natAbs else Nat.toDigits 10 i.natAbs

/-- A digit of a lower case hexadecimal number. -/
def hexDigit (n : Nat) : Char := Char.ofNat (if n < 10 then 0x30 + n else 0x57 + n)

/-- A double quote. -/
def doubleQuote : Char := Char.ofNat 0x22

/-- A backslash. -/
def backslash : Char := Char.ofNat 0x5C

/-- What `json.dumps` writes for one character when `ensure_ascii` is off. -/
def escapeChar (c : Char) : List Char :=
  if c.toNat = 0x22 then [backslash, doubleQuote]
  else if c.toNat = 0x5C then [backslash, backslash]
  else if c.toNat = 0x8 then [backslash, 'b']
  else if c.toNat = 0x9 then [backslash, 't']
  else if c.toNat = 0xA then [backslash, 'n']
  else if c.toNat = 0xC then [backslash, 'f']
  else if c.toNat = 0xD then [backslash, 'r']
  else if c.toNat < 0x20 then
    [backslash, 'u', '0', '0', hexDigit (c.toNat / 16 % 16), hexDigit (c.toNat % 16)]
  else [c]

/-- A quoted string. -/
def quote (s : String) : List Char := doubleQuote :: s.toList.flatMap escapeChar ++ [doubleQuote]

/-- The texts, separated by commas. -/
def join : List (List Char) → List Char
  | [] => []
  | [t] => t
  | t :: u :: rest => t ++ ',' :: join (u :: rest)

mutual

/-- `json.dumps(value, separators=(",", ":"), ensure_ascii=False)`. -/
def dumps : PyJson → List Char
  | .none => "null".toList
  | .bool b => if b then "true".toList else "false".toList
  | .int i => intText i
  | .str s => quote s
  | .list xs => '[' :: join (dumpsEach xs) ++ [']']
  | .dict fs => Char.ofNat 0x7B :: join (dumpsItems fs) ++ [Char.ofNat 0x7D]

def dumpsEach : List PyJson → List (List Char)
  | [] => []
  | x :: xs => dumps x :: dumpsEach xs

def dumpsItems : List (String × PyJson) → List (List Char)
  | [] => []
  | (k, v) :: fs => (quote k ++ ':' :: dumps v) :: dumpsItems fs

end

/-- `canonical_serialize`. -/
def canonicalSerialize (value : PyJson) : List UInt8 := JsString.utf8 (dumps (normalize value))

end Python

/-! ## One value in both languages -/

namespace PyJson

mutual

/-- The value as JavaScript decodes it. -/
def toJs : PyJson → Json
  | .none => .null
  | .bool b => .bool b
  | .int i => .num (JsNumber.ofInt i)
  | .str s => .str s
  | .list xs => .arr (toJsEach xs)
  | .dict fs => .obj (toJsItems fs)

def toJsEach : List PyJson → List Json
  | [] => []
  | x :: xs => x.toJs :: toJsEach xs

def toJsItems : List (String × PyJson) → List (JsString × Json)
  | [] => []
  | (k, v) :: fs => (k, v.toJs) :: toJsItems fs

end

/-- Whether every character is in the Basic Multilingual Plane. -/
def isBmp (s : String) : Bool := s.toList.all fun c => c.toNat < 0x10000

mutual

/-- A dictionary holds a key once; here the keys are in the Basic Multilingual
Plane, and the integers of magnitude at most `2 ^ 53 - 1`. -/
def plain : PyJson → Bool
  | .int i => i.natAbs ≤ 2 ^ 53 - 1
  | .list xs => plainEach xs
  | .dict fs => decide (fs.map Prod.fst).Nodup && fs.all (fun p => isBmp p.1) && plainItems fs
  | _ => true

def plainEach : List PyJson → Bool
  | [] => true
  | x :: xs => x.plain && plainEach xs

def plainItems : List (String × PyJson) → Bool
  | [] => true
  | (_, v) :: fs => v.plain && plainItems fs

end

end PyJson

/-! ## The Python text, read as code units -/

theorem utf16_ascii {c : Char} (h : c.toNat < 0x10000) : utf16 c = [UInt16.ofNat c.toNat] := if_pos h

theorem utf16_hexDigit {n : Nat} (h : n < 16) :
    utf16 (Python.hexDigit n) = [JsString.hexDigit n] := by
  revert n
  decide

/-- Python escapes a character as JavaScript escapes its code unit. -/
theorem escapeChar_unit {c : Char} (h : c.toNat < 0x10000) :
    (Python.escapeChar c).flatMap utf16 = JsString.escapeUnit (UInt16.ofNat c.toNat) := by
  have hnat : (UInt16.ofNat c.toNat).toNat = c.toNat := by
    rw [UInt16.toNat_ofNat']
    omega
  have heq : ∀ n : Nat, n < 0x10000 → (UInt16.ofNat c.toNat = UInt16.ofNat n ↔ c.toNat = n) := by
    intro n hn
    rw [← UInt16.toNat_inj, hnat, UInt16.toNat_ofNat']
    omega
  have hlt : UInt16.ofNat c.toNat < 0x20 ↔ c.toNat < 0x20 := by
    rw [UInt16.lt_iff_toNat_lt, hnat]
    exact Iff.rfl
  unfold Python.escapeChar JsString.escapeUnit
  have h₁ : UInt16.ofNat c.toNat = 0x22 ↔ c.toNat = 0x22 := heq 0x22 (by decide)
  have h₂ : UInt16.ofNat c.toNat = 0x5C ↔ c.toNat = 0x5C := heq 0x5C (by decide)
  have h₃ : UInt16.ofNat c.toNat = 0x8 ↔ c.toNat = 0x8 := heq 0x8 (by decide)
  have h₄ : UInt16.ofNat c.toNat = 0x9 ↔ c.toNat = 0x9 := heq 0x9 (by decide)
  have h₅ : UInt16.ofNat c.toNat = 0xA ↔ c.toNat = 0xA := heq 0xA (by decide)
  have h₆ : UInt16.ofNat c.toNat = 0xC ↔ c.toNat = 0xC := heq 0xC (by decide)
  have h₇ : UInt16.ofNat c.toNat = 0xD ↔ c.toNat = 0xD := heq 0xD (by decide)
  simp only [h₁, h₂, h₃, h₄, h₅, h₆, h₇, hlt]
  split_ifs with g₁ g₂ g₃ g₄ g₅ g₆ g₇ g₈
  · rfl
  · rfl
  · rfl
  · rfl
  · rfl
  · rfl
  · rfl
  · -- a control character: its first two digits are zero
    have hhigh : c.toNat / 4096 % 16 = 0 ∧ c.toNat / 256 % 16 = 0 := by omega
    rw [JsString.unicodeEscape, hnat, hhigh.1, hhigh.2]
    simp only [List.flatMap_cons, List.flatMap_nil, utf16_hexDigit (Nat.mod_lt _ (by decide))]
    rfl
  · simp [utf16_ascii h]

/-- Python quotes a run of characters as JavaScript quotes their code units. -/
theorem escapeUnits_utf16 (cs : List Char) :
    JsString.escapeUnits (cs.flatMap utf16) = (cs.flatMap Python.escapeChar).flatMap utf16 := by
  induction cs with
  | nil => rfl
  | cons c cs ih =>
    rw [List.flatMap_cons, List.flatMap_cons, List.flatMap_append]
    by_cases hc : c.toNat < 0x10000
    · rw [utf16_ascii hc, List.singleton_append, JsString.escapeUnits_cons (JsString.utf16_not_surrogate hc), ih,
        escapeChar_unit hc]
    · obtain ⟨u, v, hunits, hpair⟩ := JsString.utf16_pair hc
      have hself : Python.escapeChar c = [c] := by
        unfold Python.escapeChar
        split_ifs <;> first | omega | rfl
      rw [hself, List.flatMap_singleton, hunits, List.cons_append, List.cons_append,
        List.nil_append, JsString.escapeUnits, if_pos hpair, ih]
      rfl

/-- Characters as code units. -/
def units (cs : List Char) : JsString := ⟨cs.flatMap utf16⟩

theorem units_append (cs ds : List Char) : units (cs ++ ds) = units cs ++ units ds :=
  congrArg JsString.mk List.flatMap_append

theorem units_quote (s : String) : units (Python.quote s) = (s : JsString).quote := by
  have hunits : units (Python.quote s) = ⟨0x22 :: (s.toList.flatMap Python.escapeChar ++
      [Python.doubleQuote]).flatMap utf16⟩ := rfl
  rw [hunits, List.flatMap_append, ← escapeUnits_utf16, JsString.ofString_eq]
  rfl

theorem units_join (texts : List (List Char)) :
    units (Python.join texts) = JsString.join "," (texts.map units) := by
  induction texts with
  | nil => rfl
  | cons t texts ih =>
    rcases texts with _ | ⟨u, rest⟩
    · rfl
    · rw [Python.join, List.map_cons, List.map_cons, JsString.join_cons_cons, units_append,
        ← List.map_cons, ← ih]
      have hcomma : ∀ cs : List Char, units (',' :: cs) = ("," : JsString) ++ units cs := fun _ => rfl
      rw [hcomma, JsString.append_assoc]

theorem units_intText {i : Int} (h : i.natAbs < 2 ^ 53) :
    units (Python.intText i) = (JsNumber.ofInt i).toText := by
  have hdigits : ∀ c ∈ Nat.toDigits 10 i.natAbs, c.toNat < 0x80 := fun c hc =>
    JsNumber.digit_ascii (JsNumber.allDigits_toDigits _ c hc)
  have htext := JsNumber.toText_ofInt h
  have hmk : (JsNumber.ofInt i).toText = ⟨(JsNumber.ofInt i).toText.units⟩ := rfl
  rw [hmk, htext]
  refine congrArg JsString.mk ?_
  unfold Python.intText JsNumber.signUnits
  by_cases hneg : i < 0
  · rw [if_pos hneg, if_pos (decide_eq_true hneg), List.flatMap_cons, JsNumber.utf16_codes hdigits]
    rfl
  · rw [if_neg hneg, if_neg (by simpa using hneg), JsNumber.utf16_codes hdigits, List.nil_append]

mutual

/-- **`json.dumps` writes a value as `render` does.** -/
theorem units_dumps : ∀ {v : PyJson}, v.plain = true → units (Python.dumps v) = v.toJs.render
  | .none, _ => rfl
  | .bool b, _ => by cases b <;> rfl
  | .int i, h => by
    have hi : i.natAbs < 2 ^ 53 := by
      have := of_decide_eq_true h
      omega
    obtain ⟨d, hd, -⟩ := JsNumber.ofInt_finite hi
    rw [Python.dumps, PyJson.toJs, Json.render, units_intText hi, hd]
    rfl
  | .str s, _ => units_quote s
  | .list xs, h => by
    rw [PyJson.plain] at h
    rw [Python.dumps, PyJson.toJs, Json.render, ← unitsEach_dumps h, ← units_join]
    have hopen : ∀ cs : List Char, units ('[' :: cs) = ("[" : JsString) ++ units cs := fun _ => rfl
    rw [List.cons_append, hopen, units_append, JsString.append_assoc]
    rfl
  | .dict fs, h => by
    rw [PyJson.plain, Bool.and_eq_true] at h
    rw [Python.dumps, PyJson.toJs, Json.render, ← unitsItems_dumps h.2, ← units_join]
    have hopen : ∀ cs : List Char,
        units (Char.ofNat 0x7B :: cs) = ("\x7b" : JsString) ++ units cs := fun _ => rfl
    rw [List.cons_append, hopen, units_append, JsString.append_assoc]
    rfl

theorem unitsEach_dumps : ∀ {xs : List PyJson}, PyJson.plainEach xs = true →
    (Python.dumpsEach xs).map units = Json.renderEach (PyJson.toJsEach xs)
  | [], _ => rfl
  | x :: xs, h => by
    rw [PyJson.plainEach, Bool.and_eq_true] at h
    rw [Python.dumpsEach, List.map_cons, PyJson.toJsEach, Json.renderEach, units_dumps h.1,
      unitsEach_dumps h.2]

theorem unitsItems_dumps : ∀ {fs : List (String × PyJson)}, PyJson.plainItems fs = true →
    (Python.dumpsItems fs).map units = Json.renderMembers (PyJson.toJsItems fs)
  | [], _ => rfl
  | (k, v) :: fs, h => by
    rw [PyJson.plainItems, Bool.and_eq_true] at h
    have hcolon : ∀ cs : List Char, units (':' :: cs) = (":" : JsString) ++ units cs := fun _ => rfl
    rw [Python.dumpsItems, List.map_cons, PyJson.toJsItems, Json.renderMembers, unitsItems_dumps h.2,
      units_append, hcolon, units_quote, units_dumps h.1, JsString.append_assoc]

end

/-! ## The two sorts -/

/-- Below `U+10000` code points compare as code units do. -/
theorem codePoints_lt {cs ds : List Char} (hc : ∀ c ∈ cs, c.toNat < 0x10000)
    (hd : ∀ d ∈ ds, d.toNat < 0x10000) :
    cs.map Char.toNat < ds.map Char.toNat ↔ cs.flatMap utf16 < ds.flatMap utf16 := by
  induction cs generalizing ds with
  | nil =>
    rcases ds with _ | ⟨d, ds⟩
    · simp
    · rw [List.flatMap_cons, utf16_ascii (hd d List.mem_cons_self)]
      simp
  | cons c cs ih =>
    have hc' := hc c List.mem_cons_self
    rcases ds with _ | ⟨d, ds⟩
    · simp
    · have hd' := hd d List.mem_cons_self
      have hrest := ih (fun x hx => hc x (List.mem_cons_of_mem c hx))
        (fun x hx => hd x (List.mem_cons_of_mem d hx))
      have hlt : UInt16.ofNat c.toNat < UInt16.ofNat d.toNat ↔ c.toNat < d.toNat := by
        rw [UInt16.lt_iff_toNat_lt, UInt16.toNat_ofNat', UInt16.toNat_ofNat']
        omega
      have heq : UInt16.ofNat c.toNat = UInt16.ofNat d.toNat ↔ c.toNat = d.toNat := by
        rw [← UInt16.toNat_inj, UInt16.toNat_ofNat', UInt16.toNat_ofNat']
        omega
      rw [List.flatMap_cons, List.flatMap_cons, utf16_ascii hc', utf16_ascii hd',
        List.singleton_append, List.singleton_append, List.map_cons, List.map_cons,
        List.cons_lt_cons_iff, List.cons_lt_cons_iff, hlt, heq, hrest]

theorem le_eq {s t : String} (hs : PyJson.isBmp s = true) (ht : PyJson.isBmp t = true) :
    Python.le s t = JsString.le s t := by
  rw [PyJson.isBmp, List.all_eq_true] at hs ht
  have hlt := codePoints_lt (fun c hc => of_decide_eq_true (ht c hc))
    (fun c hc => of_decide_eq_true (hs c hc))
  rw [JsString.ofString_eq, JsString.ofString_eq]
  unfold Python.le JsString.le JsString.lt Python.codePoints
  exact congrArg (!·) (decide_eq_decide.mpr hlt)

theorem toJsItems_eq (fs : List (String × PyJson)) :
    PyJson.toJsItems fs = fs.map fun p => ((p.1 : JsString), p.2.toJs) := by
  induction fs with
  | nil => rfl
  | cons p fs ih =>
    obtain ⟨k, v⟩ := p
    rw [PyJson.toJsItems, ih, List.map_cons]

theorem normalizeItems_keys (fs : List (String × PyJson)) :
    (Python.normalizeItems fs).map Prod.fst = fs.map Prod.fst := by
  induction fs with
  | nil => rfl
  | cons p fs ih =>
    obtain ⟨k, v⟩ := p
    rw [Python.normalizeItems, List.map_cons, List.map_cons, ih]

theorem mem_normalizeItems {fs : List (String × PyJson)} {p : String × PyJson}
    (h : p ∈ Python.normalizeItems fs) : ∃ v, (p.1, v) ∈ fs := by
  have hkey : p.1 ∈ fs.map Prod.fst := normalizeItems_keys fs ▸ List.mem_map_of_mem h
  obtain ⟨q, hq, he⟩ := List.mem_map.mp hkey
  exact ⟨q.2, he ▸ hq⟩

theorem plainItems_iff {fs : List (String × PyJson)} :
    PyJson.plainItems fs = true ↔ ∀ p ∈ fs, p.2.plain = true := by
  induction fs with
  | nil => simp [PyJson.plainItems]
  | cons p fs ih =>
    obtain ⟨k, v⟩ := p
    rw [PyJson.plainItems, Bool.and_eq_true, ih, List.forall_mem_cons]

mutual

/-- **`_normalize` sorts as the server does**, on keys of the Basic Multilingual
Plane. -/
theorem normalize_toJs : ∀ {v : PyJson}, v.plain = true → (Python.normalize v).toJs = v.toJs.sortKeys
  | .none, _ => rfl
  | .bool _, _ => rfl
  | .int _, _ => rfl
  | .str _, _ => rfl
  | .list xs, h => by
    rw [PyJson.plain] at h
    rw [Python.normalize, PyJson.toJs, PyJson.toJs, Json.sortKeys, normalizeEach_toJs h]
  | .dict fs, h => by
    rw [PyJson.plain, Bool.and_eq_true, Bool.and_eq_true, List.all_eq_true] at h
    rw [Python.normalize, PyJson.toJs, PyJson.toJs, Json.sortKeys, ← normalizeItems_toJs h.2,
      toJsItems_eq, toJsItems_eq, Members.sortByName]
    refine congrArg Json.obj (List.map_insertionSort _ _ _ _ fun p hp q hq => ?_)
    obtain ⟨v, hv⟩ := mem_normalizeItems hp
    obtain ⟨w, hw⟩ := mem_normalizeItems hq
    rw [le_eq (h.1.2 (p.1, v) hv) (h.1.2 (q.1, w) hw)]

theorem normalizeEach_toJs : ∀ {xs : List PyJson}, PyJson.plainEach xs = true →
    PyJson.toJsEach (Python.normalizeEach xs) = Json.sortKeysEach (PyJson.toJsEach xs)
  | [], _ => rfl
  | x :: xs, h => by
    rw [PyJson.plainEach, Bool.and_eq_true] at h
    rw [Python.normalizeEach, PyJson.toJsEach, PyJson.toJsEach, Json.sortKeysEach,
      normalize_toJs h.1, normalizeEach_toJs h.2]

theorem normalizeItems_toJs : ∀ {fs : List (String × PyJson)}, PyJson.plainItems fs = true →
    PyJson.toJsItems (Python.normalizeItems fs) = Json.sortKeysMembers (PyJson.toJsItems fs)
  | [], _ => rfl
  | (k, v) :: fs, h => by
    rw [PyJson.plainItems, Bool.and_eq_true] at h
    rw [Python.normalizeItems, PyJson.toJsItems, PyJson.toJsItems, Json.sortKeysMembers,
      normalize_toJs h.1, normalizeItems_toJs h.2]

end

mutual

theorem normalize_plain : ∀ {v : PyJson}, v.plain = true → (Python.normalize v).plain = true
  | .none, _ => rfl
  | .bool _, _ => rfl
  | .int _, h => h
  | .str _, _ => rfl
  | .list xs, h => by
    rw [PyJson.plain] at h
    rw [Python.normalize, PyJson.plain]
    exact normalizeEach_plain h
  | .dict fs, h => by
    rw [PyJson.plain, Bool.and_eq_true, Bool.and_eq_true, List.all_eq_true, decide_eq_true_eq] at h
    have hperm := List.perm_insertionSort (fun p q : String × PyJson => Python.le p.1 q.1 = true)
      (Python.normalizeItems fs)
    rw [Python.normalize, PyJson.plain, Bool.and_eq_true, Bool.and_eq_true, List.all_eq_true,
      decide_eq_true_eq, (hperm.map Prod.fst).nodup_iff, normalizeItems_keys]
    refine ⟨⟨h.1.1, fun p hp => ?_⟩, plainItems_iff.mpr fun p hp => ?_⟩
    · obtain ⟨v, hv⟩ := mem_normalizeItems (hperm.mem_iff.mp hp)
      exact h.1.2 (p.1, v) hv
    · exact plainItems_iff.mp (normalizeItems_plain h.2) p (hperm.mem_iff.mp hp)

theorem normalizeEach_plain : ∀ {xs : List PyJson}, PyJson.plainEach xs = true →
    PyJson.plainEach (Python.normalizeEach xs) = true
  | [], _ => rfl
  | x :: xs, h => by
    rw [PyJson.plainEach, Bool.and_eq_true] at h
    rw [Python.normalizeEach, PyJson.plainEach, Bool.and_eq_true]
    exact ⟨normalize_plain h.1, normalizeEach_plain h.2⟩

theorem normalizeItems_plain : ∀ {fs : List (String × PyJson)}, PyJson.plainItems fs = true →
    PyJson.plainItems (Python.normalizeItems fs) = true
  | [], _ => rfl
  | (k, v) :: fs, h => by
    rw [PyJson.plainItems, Bool.and_eq_true] at h
    rw [Python.normalizeItems, PyJson.plainItems, Bool.and_eq_true]
    exact ⟨normalize_plain h.1, normalizeItems_plain h.2⟩

end

/-! ## Plain values as documents -/

theorem ofString_injective {s t : String} (h : (s : JsString) = t) : s = t := by
  rw [JsString.ofString_eq, JsString.ofString_eq] at h
  have hunits : s.toList.flatMap utf16 = t.toList.flatMap utf16 := congrArg JsString.units h
  have hscalars := congrArg JsString.scalars hunits
  rw [JsString.scalars_utf16, JsString.scalars_utf16] at hscalars
  exact String.toList_inj.mp hscalars

mutual

/-- A plain value is a document JavaScript can hold, and printing loses nothing of it. -/
theorem plain_toJs : ∀ {v : PyJson}, v.plain = true →
    v.toJs.distinct = true ∧ v.toJs.settle = v.toJs
  | .none, _ => ⟨rfl, rfl⟩
  | .bool _, _ => ⟨rfl, rfl⟩
  | .int i, h => by
    have hi : i.natAbs < 2 ^ 53 := by
      have := of_decide_eq_true h
      omega
    obtain ⟨d, hd, -⟩ := JsNumber.ofInt_finite hi
    rw [PyJson.toJs, hd]
    exact ⟨rfl, rfl⟩
  | .str _, _ => ⟨rfl, rfl⟩
  | .list xs, h => by
    rw [PyJson.plain] at h
    rw [PyJson.toJs, Json.distinct, Json.settle, (plainEach_toJs h).2]
    exact ⟨(plainEach_toJs h).1, rfl⟩
  | .dict fs, h => by
    rw [PyJson.plain, Bool.and_eq_true, Bool.and_eq_true, decide_eq_true_eq] at h
    rw [PyJson.toJs, Json.distinct, Json.settle, (plainItems_toJs h.2).2, Bool.and_eq_true,
      decide_eq_true_eq]
    refine ⟨⟨?_, (plainItems_toJs h.2).1⟩, rfl⟩
    have hnames : (PyJson.toJsItems fs).map Prod.fst =
        (fs.map Prod.fst).map fun k : String => (k : JsString) := by
      rw [toJsItems_eq, List.map_map, List.map_map]
      rfl
    rw [hnames]
    exact h.1.1.map fun _ _ => ofString_injective

theorem plainEach_toJs : ∀ {xs : List PyJson}, PyJson.plainEach xs = true →
    Json.distinctEach (PyJson.toJsEach xs) = true ∧
      Json.settleEach (PyJson.toJsEach xs) = PyJson.toJsEach xs
  | [], _ => ⟨rfl, rfl⟩
  | x :: xs, h => by
    rw [PyJson.plainEach, Bool.and_eq_true] at h
    rw [PyJson.toJsEach, Json.distinctEach, Json.settleEach, (plain_toJs h.1).1, (plain_toJs h.1).2,
      (plainEach_toJs h.2).1, (plainEach_toJs h.2).2]
    exact ⟨rfl, rfl⟩

theorem plainItems_toJs : ∀ {fs : List (String × PyJson)}, PyJson.plainItems fs = true →
    Json.distinctMembers (PyJson.toJsItems fs) = true ∧
      Json.settleMembers (PyJson.toJsItems fs) = PyJson.toJsItems fs
  | [], _ => ⟨rfl, rfl⟩
  | (k, v) :: fs, h => by
    rw [PyJson.plainItems, Bool.and_eq_true] at h
    rw [PyJson.toJsItems, Json.distinctMembers, Json.settleMembers, (plain_toJs h.1).1,
      (plain_toJs h.1).2, (plainItems_toJs h.2).1, (plainItems_toJs h.2).2]
    exact ⟨rfl, rfl⟩

end

/-! ## The three serializers -/

/-- Python writes the sorted document as it stands. -/
theorem python_bytes {v : PyJson} (h : v.plain = true) :
    Python.canonicalSerialize v = v.toJs.sortKeys.render.encode := by
  have hunits := units_dumps (normalize_plain h)
  rw [Python.canonicalSerialize, ← JsString.encode_utf16, ← normalize_toJs h, ← hunits]
  rfl

/-- The server and the TypeScript SDK give the same bytes. -/
theorem server_bytes {j : Json} (h : j.distinct = true) :
    Crypto.serialize (.ofJson j) = .ok (Typescript.canonicalSerialize j) :=
  Crypto.serialize_json h

/-- Python and TypeScript give the same bytes when the sorted document is listed as
it stands. -/
theorem python_eq_typescript {v : PyJson} (h : v.plain = true) :
    Python.canonicalSerialize v = Typescript.canonicalSerialize v.toJs ↔
      v.toJs.keysAgree = true := by
  obtain ⟨hdistinct, -⟩ := plain_toJs h
  have hsorted : v.toJs.sortKeys.settle = v.toJs.sortKeys := by
    rw [← normalize_toJs h]
    exact (plain_toJs (normalize_plain h)).2
  have hkeys := Json.sortKeys_distinct hdistinct
  rw [python_bytes h, Typescript.canonicalSerialize, Typescript.normalize, Json.stringify_eq,
    ← Json.ordered_sortKeys_iff hdistinct]
  constructor
  · intro hbytes
    -- equal bytes are equal texts, and equal texts are read back as one document
    have htext := JsString.encode_injective (Json.paired_render _) (Json.paired_render _) hbytes
    have hparsed := congrArg Json.parse htext
    rw [Json.parse_render hkeys, Json.parse_render (Json.ordered_distinct hkeys),
      Option.some.injEq, Json.settle_ordered, hsorted] at hparsed
    exact hparsed.symm
  · intro hordered
    rw [hordered]

/-- **The three serializers give the same bytes exactly when no object of the value
has two keys that JavaScript lists the other way round than they sort.** -/
theorem canonicalSerialize_agree {v : PyJson} (h : v.plain = true) :
    (Crypto.serialize (.ofJson v.toJs) = .ok (Typescript.canonicalSerialize v.toJs) ∧
      Python.canonicalSerialize v = Typescript.canonicalSerialize v.toJs) ↔
      v.toJs.keysAgree = true := by
  rw [python_eq_typescript h]
  exact and_iff_right (server_bytes (plain_toJs h).1)

/-- A record of three fields. -/
def someRecord : PyJson :=
  .dict [("transactionId", .str "tx-1"), ("amount", .int 250), ("hashes", .list [.none])]

theorem canonicalSerialize_agree_record :
    (Crypto.serialize (.ofJson someRecord.toJs) = .ok (Typescript.canonicalSerialize someRecord.toJs) ∧
      Python.canonicalSerialize someRecord = Typescript.canonicalSerialize someRecord.toJs) ↔
      someRecord.toJs.keysAgree = true :=
  canonicalSerialize_agree (by decide)

/-- The value `{"10": 1, "9": 2}`: sorted, `10` comes first; listed, `9` does. -/
def indexKeys : PyJson := .dict [("10", .int 1), ("9", .int 2)]

theorem indexKeys_differ : indexKeys.plain = true ∧
    Python.canonicalSerialize indexKeys ≠ Typescript.canonicalSerialize indexKeys.toJs := by
  have hplain : indexKeys.plain = true := by decide
  have hkeys : indexKeys.toJs.keysAgree = false := by decide
  refine ⟨hplain, fun h => ?_⟩
  rw [python_eq_typescript hplain, hkeys] at h
  cases h

end Parmana.Sdk

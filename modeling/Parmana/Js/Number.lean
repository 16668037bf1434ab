import Parmana.Js.Text

/-! # JavaScript numbers

A JavaScript number is an IEEE 754 double.  A finite double is a dyadic
rational `n · 2⁻ᵏ` with at most 53 significant bits, no finer than the least
subnormal and below the overflow threshold; `Double` is a dyadic that carries a
proof of that, so a value no double can have cannot be built.  The two zeros are
two values, as `JSON.parse` gives both; `merge` takes them together, and every
comparison reads its arguments through it.

Comparisons are exact.  Arithmetic rounds to the nearest double, ties to even
(`ofRatio`), and `toText` is `Number::toString`: the shortest decimal digits
that round back to the number.
-/
namespace Js

/-- A dyadic rational some finite double denotes. -/
def IsDouble : Dyadic → Prop
  | .zero => True
  | .ofOdd n k _ => n.natAbs < 2 ^ 53 ∧ k ≤ 1074 ∧ (n.natAbs.log2 : Int) - k < 1024

instance : DecidablePred IsDouble := fun d => by
  cases d <;> unfold IsDouble <;> infer_instance

/-- A finite double. -/
structure Double where
  val : Dyadic
  isDouble : IsDouble val
  deriving DecidableEq

/-- A JavaScript number. -/
inductive JsNumber where
  | nan
  | posInf
  | negInf
  | negZero
  | finite (d : Double)
  deriving DecidableEq

namespace JsNumber

/-- The number zero. -/
def zero : JsNumber := .finite ⟨.zero, trivial⟩

/-- Takes the two zeros together. -/
def merge : JsNumber → JsNumber
  | .negZero => zero
  | a => a

@[simp] theorem merge_merge (a : JsNumber) : a.merge.merge = a.merge := by
  cases a <;> rfl

/-- `a === b` on numbers: `NaN` is not equal to itself. -/
def eq (a b : JsNumber) : Bool := a ≠ .nan && a.merge == b.merge

/-- The order of numbers other than `-0`. -/
def below : JsNumber → JsNumber → Bool
  | .finite a, .finite b => decide (a.val < b.val)
  | .negInf, .posInf | .negInf, .finite _ | .finite _, .posInf => true
  | _, _ => false

/-- `a < b`: false whenever either side is `NaN`. -/
def lt (a b : JsNumber) : Bool := below a.merge b.merge

/-- `a <= b`: false whenever either side is `NaN`. -/
def le (a b : JsNumber) : Bool := lt a b || eq a b

/-! No comparison tells the two zeros apart. -/

@[simp] theorem eq_merge_left (a b : JsNumber) : eq a.merge b = eq a b := by
  cases a <;> simp [eq, merge, zero]

@[simp] theorem lt_merge_left (a b : JsNumber) : lt a.merge b = lt a b := by
  rw [lt, lt, merge_merge]

@[simp] theorem lt_merge_right (a b : JsNumber) : lt a b.merge = lt a b := by
  rw [lt, lt, merge_merge]

@[simp] theorem eq_merge_right (a b : JsNumber) : eq a b.merge = eq a b := by
  rw [eq, eq, merge_merge]

@[simp] theorem le_merge_left (a b : JsNumber) : le a.merge b = le a b := by
  rw [le, le, lt_merge_left, eq_merge_left]

@[simp] theorem le_merge_right (a b : JsNumber) : le a b.merge = le a b := by
  rw [le, le, lt_merge_right, eq_merge_right]

@[simp] theorem merge_eq_nan {a : JsNumber} : a.merge = .nan ↔ a = .nan := by
  cases a <;> simp [merge, zero]

/-- `Number.isFinite(a)`. -/
def isFinite : JsNumber → Bool
  | .finite _ | .negZero => true
  | _ => false

/-- `⌊log₂ (a / b)⌋` for positive `a` and `b`. -/
def floorLog2 (a b : Nat) : Int :=
  let e : Int := (a.log2 : Int) - b.log2
  let below := if e < 0 then a <<< (-e).toNat < b else a < b <<< e.toNat
  if below then e - 1 else e

/-- `a / b` rounded to an integer, ties to even. -/
def roundHalfEven (a b : Nat) : Nat :=
  let q := a / b
  let r := 2 * (a % b)
  if r < b then q else if b < r then q + 1 else if q % 2 = 0 then q else q + 1

/-- The dyadic as a number, infinite when it is too large. -/
def ofDyadic (d : Dyadic) : JsNumber :=
  if h : IsDouble d then .finite ⟨d, h⟩ else if d < 0 then .negInf else .posInf

/-- The double nearest to `±a / b`, ties to even. -/
def ofRatio (negative : Bool) (a b : Nat) : JsNumber :=
  let u := max (floorLog2 a b - 52) (-1074)
  let m := if a = 0 ∨ b = 0 then 0
    else if u < 0 then roundHalfEven (a <<< (-u).toNat) b else roundHalfEven a (b <<< u.toNat)
  if m = 0 then if negative then .negZero else zero
  else ofDyadic (Dyadic.ofIntWithPrec (if negative then -m else m) (-u))

/-- The number nearest to a dyadic: the result of exact arithmetic, rounded. -/
def round : Dyadic → JsNumber
  | .zero => ofDyadic 0
  | .ofOdd n k _ =>
    if k < 0 then ofRatio (n < 0) (n.natAbs <<< (-k).toNat) 1
    else ofRatio (n < 0) n.natAbs (2 ^ k.toNat)

/-- A literal integer. -/
def ofNat (n : Nat) : JsNumber := ofRatio false n 1

/-- `a - b`. -/
def sub : JsNumber → JsNumber → JsNumber
  | .nan, _ | _, .nan => .nan
  | .posInf, .posInf | .negInf, .negInf => .nan
  | .posInf, _ | _, .negInf => .posInf
  | .negInf, _ | _, .posInf => .negInf
  | .negZero, .negZero => zero
  | .negZero, .finite b => if b.val = 0 then .negZero else round (-b.val)
  | .finite a, .negZero => .finite a
  | .finite a, .finite b => round (a.val - b.val)

/-- `Math.abs(a)`. -/
def abs : JsNumber → JsNumber
  | .nan => .nan
  | .posInf | .negInf => .posInf
  | .negZero => zero
  | .finite d => if d.val < 0 then round (-d.val) else .finite d

/-- The numerator and denominator of the magnitude of a double. -/
def magnitude (d : Double) : Nat × Nat :=
  match d.val with
  | .zero => (0, 1)
  | .ofOdd n k _ => if k < 0 then (n.natAbs <<< (-k).toNat, 1) else (n.natAbs, 2 ^ k.toNat)

/-- `a / n`, for a positive integer `n`. -/
def divNat : JsNumber → Nat → JsNumber
  | .finite d, n => ofRatio (decide (d.val < 0)) (magnitude d).1 ((magnitude d).2 * n)
  | a, _ => a

/-! ## `Number::toString` -/

/-- `n` with `10 ^ (n - 1) ≤ a / b < 10 ^ n`. -/
def decimalExponent (a b : Nat) : Int :=
  if b ≤ a then (Nat.toDigits 10 (a / b)).length
  else go 400 1 (a * 10)
where
  /-- Multiplies by ten until the value reaches one. -/
  go : Nat → Int → Nat → Int
    | 0, z, _ => 1 - z
    | fuel + 1, z, a => if b ≤ a then 1 - z else go fuel (z + 1) (a * 10)

/-- Whether `s · 10 ^ p` rounds to the magnitude of `d`. -/
def roundsTo (d : Double) (s : Nat) (p : Int) : Bool :=
  let m : Dyadic := if d.val < 0 then -d.val else d.val
  let r := if p < 0 then ofRatio false s (10 ^ (-p).toNat) else ofRatio false (s * 10 ^ p.toNat) 1
  decide (r = ofDyadic m)

/-- The digits `s` and exponent `n` of the shortest decimal that rounds to `d`
(the number reads `0.s · 10 ^ n`), searched from `k` digits up. -/
def shortest (d : Double) (a b : Nat) (n : Int) : Nat → Nat → Nat × Nat × Int
  | 0, k => (a, k, n)
  | fuel + 1, k =>
    let p := n - k
    let num := if p < 0 then a * 10 ^ (-p).toNat else a
    let den := if p < 0 then b else b * 10 ^ p.toNat
    let lo := num / den
    let lower := roundsTo d lo p
    let upper := roundsTo d (lo + 1) p
    if lower && (!upper || 2 * (num % den) < den || (2 * (num % den) == den && lo % 2 == 0)) then
      (lo, k, n)
    else if upper then
      if lo + 1 = 10 ^ k then (10 ^ (k - 1), k, n + 1) else (lo + 1, k, n)
    else shortest d a b n fuel (k + 1)

/-- The layout of `k` digits `s` at decimal exponent `n`. -/
def layout (s k : Nat) (n : Int) : String :=
  let digits := Nat.toDigits 10 s
  if (k : Int) ≤ n ∧ n ≤ 21 then String.ofList (digits ++ List.replicate (n - k).toNat '0')
  else if 0 < n ∧ n ≤ 21 then
    String.ofList (digits.take n.toNat ++ '.' :: digits.drop n.toNat)
  else if -6 < n ∧ n ≤ 0 then
    String.ofList ('0' :: '.' :: List.replicate (-n).toNat '0' ++ digits)
  else
    let e := n - 1
    let sign := if e < 0 then '-' else '+'
    let mantissa := if k = 1 then digits else digits.take 1 ++ '.' :: digits.drop 1
    String.ofList (mantissa ++ 'e' :: sign :: Nat.toDigits 10 e.natAbs)

/-- `String(a)`. -/
def toText : JsNumber → JsString
  | .nan => "NaN"
  | .posInf => "Infinity"
  | .negInf => "-Infinity"
  | .negZero => "0"
  | .finite d =>
    if d.val = 0 then "0"
    else
      let (a, b) := magnitude d
      let (s, k, n) := shortest d a b (decimalExponent a b) 800 1
      JsString.ofString ((if d.val < 0 then "-" else "") ++ layout s k n)

example : toText (ofNat 4200) = "4200" := by decide
example : toText (ofRatio true 1 10) = "-0.1" := by decide

/-! ## `Number(text)` -/

/-- The value of a digit of a base. -/
def digitValue (base : Nat) (u : UInt16) : Option Nat :=
  let value :=
    if 0x30 ≤ u && u ≤ 0x39 then u.toNat - 0x30
    else if 0x41 ≤ u && u ≤ 0x5A then u.toNat - 0x41 + 10
    else if 0x61 ≤ u && u ≤ 0x7A then u.toNat - 0x61 + 10
    else base
  if value < base then some value else none

/-- The number a run of digits denotes, when all of them are digits. -/
def digitsValue (base : Nat) (us : List UInt16) : Option Nat :=
  us.foldlM (fun n u => (digitValue base u).map (n * base + ·)) 0

/-- What follows the mantissa of a decimal literal. -/
def exponentValue : List UInt16 → Option Int
  | [] => some 0
  | [_] => none
  | _ :: u :: us =>
    if u = 0x2D then if us = [] then none else (digitsValue 10 us).map (fun e => -(e : Int))
    else if u = 0x2B then if us = [] then none else (digitsValue 10 us).map Int.ofNat
    else (digitsValue 10 (u :: us)).map Int.ofNat

/-- The number of an unsigned decimal literal, with the sign in front of it. -/
def ofDecimal (negative : Bool) (us : List UInt16) : JsNumber :=
  if us = ("Infinity" : JsString).units then if negative then .negInf else .posInf
  else
    let inMantissa := fun u : UInt16 => u ≠ 0x65 && u ≠ 0x45
    let mantissa := us.takeWhile inMantissa
    let whole := mantissa.takeWhile (· ≠ 0x2E)
    let fraction := (mantissa.dropWhile (· ≠ 0x2E)).drop 1
    match digitsValue 10 (whole ++ fraction), exponentValue (us.dropWhile inMantissa) with
    | some n, some e =>
      if whole ++ fraction = [] then .nan
      else
        let e := e - fraction.length
        if 0 ≤ e then ofRatio negative (n * 10 ^ e.toNat) 1 else ofRatio negative n (10 ^ (-e).toNat)
    | _, _ => .nan

/-- `Number(text)`. -/
def ofText (text : JsString) : JsNumber :=
  match text.trim.units with
  | [] => zero
  | 0x30 :: x :: us =>
    match (if x = 0x78 || x = 0x58 then some 16 else if x = 0x6F || x = 0x4F then some 8
      else if x = 0x62 || x = 0x42 then some 2 else none : Option Nat) with
    | some base => if us = [] then .nan else (digitsValue base us).elim .nan (ofRatio false · 1)
    | none => ofDecimal false (0x30 :: x :: us)
  | 0x2D :: us => ofDecimal true us
  | 0x2B :: us => ofDecimal false us
  | us => ofDecimal false us

example : ofText " 12.5e1 " = ofNat 125 := by decide
example : ofText "12 000" = .nan := by decide

end JsNumber
end Js

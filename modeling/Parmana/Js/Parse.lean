import Parmana.Collections.Keyed
import Parmana.Js.NumberText
import Parmana.Js.Stringify

/-! # Reading JSON texts

`JSON.parse`, on code units: white space, the literals, numbers by the grammar of
JSON, strings with their escapes, arrays and objects; a name that is written
twice keeps its first place and its last value.  `none` is the `SyntaxError`.

The recursion carries a fuel that starts as the length of the text, since each
call of it passes at least one code unit.
-/
namespace Js

/-- The white space of JSON. -/
def isJsonSpace (u : UInt16) : Bool := u = 0x20 || u = 0x9 || u = 0xA || u = 0xD

/-- The text behind leading white space. -/
def skipSpace (us : List UInt16) : List UInt16 := us.dropWhile isJsonSpace

/-! ## Strings -/

/-- The code unit an escape stands for, `\u` apart. -/
def unescape (u : UInt16) : Option UInt16 :=
  if u = 0x22 ∨ u = 0x5C ∨ u = 0x2F then some u
  else if u = 0x62 then some 0x8
  else if u = 0x66 then some 0xC
  else if u = 0x6E then some 0xA
  else if u = 0x72 then some 0xD
  else if u = 0x74 then some 0x9
  else none

/-- The code units of a string up to its closing quote, and the text behind it. -/
def parseString : List UInt16 → Option (List UInt16 × List UInt16)
  | [] => none
  | u :: us =>
    if u = 0x22 then some ([], us)
    else if u < 0x20 then none
    else if u ≠ 0x5C then (parseString us).map fun r => (u :: r.1, r.2)
    else match us with
      | [] => none
      | e :: us =>
        if e ≠ 0x75 then
          (unescape e).bind fun v => (parseString us).map fun r => (v :: r.1, r.2)
        else match us with
          | a :: b :: c :: d :: us =>
            (JsNumber.digitsValue 16 [a, b, c, d]).bind fun n =>
              (parseString us).map fun r => (UInt16.ofNat n :: r.1, r.2)
          | _ => none

/-! ## Numbers -/

/-- The code units of number literals. -/
def isNumberUnit (u : UInt16) : Bool :=
  (0x30 ≤ u && u ≤ 0x39) || u = 0x2D || u = 0x2B || u = 0x2E || u = 0x65 || u = 0x45

/-- A run of digits, at least one. -/
def isDigits (us : List UInt16) : Bool := !us.isEmpty && us.all (fun u => 0x30 ≤ u && u ≤ 0x39)

/-- The grammar of an unsigned number literal: no leading zero, a digit on both
sides of a point, a digit in an exponent. -/
def isNumberLiteral (us : List UInt16) : Bool :=
  let inMantissa := fun u : UInt16 => u ≠ 0x65 && u ≠ 0x45
  let mantissa := us.takeWhile inMantissa
  let whole := mantissa.takeWhile (· ≠ 0x2E)
  let fraction := mantissa.dropWhile (· ≠ 0x2E)
  isDigits whole && (whole.length = 1 || whole.head? ≠ some 0x30) &&
    (fraction.isEmpty || isDigits (fraction.drop 1)) &&
    (JsNumber.exponentValue (us.dropWhile inMantissa)).isSome

/-- The number at the head of a text. -/
def parseNumber (us : List UInt16) : Option (Json × List UInt16) :=
  let token := us.takeWhile isNumberUnit
  let negative := token.head? = some 0x2D
  let literal := if negative then token.drop 1 else token
  if isNumberLiteral literal then
    some (.num (JsNumber.ofDecimal negative literal), us.dropWhile isNumberUnit)
  else none

/-! ## Documents -/

mutual

/-- The document at the head of a text. -/
def parseValue : Nat → List UInt16 → Option (Json × List UInt16)
  | 0, _ => none
  | fuel + 1, us =>
    match skipSpace us with
    | [] => none
    | u :: us =>
      if u = 0x7B then
        if (skipSpace us).head? = some 0x7D then some (.obj [], (skipSpace us).drop 1)
        else (parseMembers fuel us).map fun r => (.obj (r.1.foldl (Keyed.put Prod.fst) []), r.2)
      else if u = 0x5B then
        if (skipSpace us).head? = some 0x5D then some (.arr [], (skipSpace us).drop 1)
        else (parseElements fuel us).map fun r => (.arr r.1, r.2)
      else if u = 0x22 then (parseString us).map fun r => (.str ⟨r.1⟩, r.2)
      else if u = 0x6E then
        (("ull" : JsString).units.isPrefixOf? us).map fun rest => (.null, rest)
      else if u = 0x74 then
        (("rue" : JsString).units.isPrefixOf? us).map fun rest => (.bool true, rest)
      else if u = 0x66 then
        (("alse" : JsString).units.isPrefixOf? us).map fun rest => (.bool false, rest)
      else parseNumber (u :: us)

/-- The elements of an array, up to its closing bracket. -/
def parseElements : Nat → List UInt16 → Option (List Json × List UInt16)
  | 0, _ => none
  | fuel + 1, us =>
    (parseValue fuel us).bind fun r =>
      match skipSpace r.2 with
      | [] => none
      | u :: us =>
        if u = 0x5D then some ([r.1], us)
        else if u = 0x2C then (parseElements fuel us).map fun rest => (r.1 :: rest.1, rest.2)
        else none

/-- The members of an object as they are written, up to its closing brace. -/
def parseMembers : Nat → List UInt16 → Option (List (JsString × Json) × List UInt16)
  | 0, _ => none
  | fuel + 1, us =>
    match skipSpace us with
    | [] => none
    | u :: us =>
      if u ≠ 0x22 then none
      else (parseString us).bind fun name =>
        match skipSpace name.2 with
        | [] => none
        | u :: us =>
          if u ≠ 0x3A then none
          else (parseValue fuel us).bind fun r =>
            match skipSpace r.2 with
            | [] => none
            | u :: us =>
              if u = 0x7D then some ([(⟨name.1⟩, r.1)], us)
              else if u = 0x2C then
                (parseMembers fuel us).map fun rest => ((⟨name.1⟩, r.1) :: rest.1, rest.2)
              else none

end

/-- `JSON.parse(text)`, `none` where it throws. -/
def Json.parse (text : JsString) : Option Json :=
  match parseValue text.units.length text.units with
  | some (j, rest) => if (skipSpace rest).isEmpty then some j else none
  | none => none


example : Json.parse "[01]" = none := by decide
example : Json.parse " \x7b \"a\" : [1, -2.5e1, \"\\u0041\"], \"b\":null, \"a\":true \x7d " =
    some (.obj [("a", .bool true), ("b", .null)]) := by decide
end Js

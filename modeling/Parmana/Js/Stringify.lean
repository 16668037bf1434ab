import Parmana.Js.Value

/-! # JSON texts

`JSON.stringify` of a parsed document, without indentation.  Strings are quoted
with the short escapes of the language, control characters and lone surrogates by
their code, and everything else as it is; a number that is not finite is `null`;
the members of an object stand in the order `Object.keys` lists them.
-/
namespace Js

namespace JsString

/-- A digit of a lower case hexadecimal number. -/
def hexDigit (n : Nat) : UInt16 := UInt16.ofNat (if n < 10 then 0x30 + n else 0x57 + n)

/-- `\uXXXX`. -/
def unicodeEscape (u : UInt16) : List UInt16 :=
  [0x5C, 0x75, hexDigit (u.toNat / 4096 % 16), hexDigit (u.toNat / 256 % 16),
    hexDigit (u.toNat / 16 % 16), hexDigit (u.toNat % 16)]

/-- The escape of a code unit that stands for itself in no JSON text. -/
def escapeUnit (u : UInt16) : List UInt16 :=
  if u = 0x22 then [0x5C, 0x22]
  else if u = 0x5C then [0x5C, 0x5C]
  else if u = 0x8 then [0x5C, 0x62]
  else if u = 0x9 then [0x5C, 0x74]
  else if u = 0xA then [0x5C, 0x6E]
  else if u = 0xC then [0x5C, 0x66]
  else if u = 0xD then [0x5C, 0x72]
  else if u < 0x20 then unicodeEscape u
  else [u]

/-- The first half of a surrogate pair. -/
def isHighSurrogate (u : UInt16) : Bool := 0xD800 ≤ u && u < 0xDC00

/-- The second half of a surrogate pair. -/
def isLowSurrogate (u : UInt16) : Bool := 0xDC00 ≤ u && u < 0xE000

/-- The text between the quotes. -/
def escapeUnits : List UInt16 → List UInt16
  | [] => []
  | [u] => if isHighSurrogate u || isLowSurrogate u then unicodeEscape u else escapeUnit u
  | u :: v :: us =>
    if isHighSurrogate u && isLowSurrogate v then u :: v :: escapeUnits us
    else if isHighSurrogate u || isLowSurrogate u then unicodeEscape u ++ escapeUnits (v :: us)
    else escapeUnit u ++ escapeUnits (v :: us)

/-- `JSON.stringify` of a string. -/
def quote (s : JsString) : JsString := ⟨0x22 :: escapeUnits s.units ++ [0x22]⟩

end JsString

/-- The names of a member list in the order of `Object.keys`. -/
def orderedNames (names : List JsString) : List JsString :=
  (names.filter (fun k => k.arrayIndex?.isSome)).insertionSort
      (fun k l => k.arrayIndex?.getD 0 ≤ l.arrayIndex?.getD 0) ++
    names.filter (fun k => k.arrayIndex?.isNone)

/-- The members in that order, each written by its text. -/
def memberList (texts : List (JsString × JsString)) : JsString :=
  JsString.join "," ((orderedNames (texts.map Prod.fst)).filterMap
    (fun k => (texts.lookup k).map (fun text => k.quote ++ ":" ++ text)))

mutual

/-- `JSON.stringify` of a document. -/
def Json.stringify : Json → JsString
  | .null => "null"
  | .bool b => if b then "true" else "false"
  | .num n => if n.isFinite then n.toText else "null"
  | .str s => s.quote
  | .arr xs => "[" ++ JsString.join "," (stringifyEach xs) ++ "]"
  | .obj fs => "\x7b" ++ memberList (stringifyMembers fs) ++ "\x7d"

def stringifyEach : List Json → List JsString
  | [] => []
  | x :: xs => x.stringify :: stringifyEach xs

def stringifyMembers : List (JsString × Json) → List (JsString × JsString)
  | [] => []
  | (k, v) :: fs => (k, v.stringify) :: stringifyMembers fs

end

/-- `JSON.stringify` of a member, in a template: nothing but a document has a
text of its own. -/
def JsValue.stringify : JsValue → JsString
  | .json j => j.stringify
  | .undefined | .function .. => "undefined"
  | .prototype .object => "\x7b\x7d"
  | .prototype .array => "[]"

example : (Json.obj [("b", .arr [.null, .num (.ofNat 7)]), ("2", "a\"\n"), ("1", .bool true)]).stringify =
    "\x7b\"1\":true,\"2\":\"a\\\"\\n\",\"b\":[null,7]\x7d" := by decide

end Js

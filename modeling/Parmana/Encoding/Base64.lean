import Mathlib.Algebra.Group.Nat.Defs
import Mathlib.Data.List.Basic
import Mathlib.Tactic.Common

/-! # Base64

Three bytes are written as four digits of six bits; one or two bytes at the end
are written as two or three digits and filled up with `=`.

Readers of the text differ in what else they put up with, so there are two of
them here: `decode` skips everything that is no digit up to the first `=`, and
takes the URL safe digits too, and `decodePadded` insists on the padding.  On a
text written by `encode` both give the bytes back (`decode_encode`,
`decodePadded_encode`).
-/
namespace Base64

/-- The digit of six bits. -/
def digit (n : Nat) : Char :=
  if n < 26 then Char.ofNat (0x41 + n)
  else if n < 52 then Char.ofNat (0x61 + (n - 26))
  else if n < 62 then Char.ofNat (0x30 + (n - 52))
  else if n = 62 then '+' else '/'

/-- The six bits of a digit. -/
def value? (c : Char) : Option Nat :=
  if 0x41 ≤ c.toNat ∧ c.toNat ≤ 0x5A then some (c.toNat - 0x41)
  else if 0x61 ≤ c.toNat ∧ c.toNat ≤ 0x7A then some (c.toNat - 0x61 + 26)
  else if 0x30 ≤ c.toNat ∧ c.toNat ≤ 0x39 then some (c.toNat - 0x30 + 52)
  else if c = '+' then some 62
  else if c = '/' then some 63
  else none

/-- The six bits of a digit of either alphabet. -/
def urlValue? (c : Char) : Option Nat :=
  if c = '-' then some 62 else if c = '_' then some 63 else value? c

/-- The text of a sequence of bytes. -/
def encode : List UInt8 → List Char
  | [] => []
  | [a] => [digit (a.toNat / 4), digit (a.toNat % 4 * 16), '=', '=']
  | [a, b] =>
    [digit (a.toNat / 4), digit (a.toNat % 4 * 16 + b.toNat / 16), digit (b.toNat % 16 * 4), '=']
  | a :: b :: c :: rest =>
    digit (a.toNat / 4) :: digit (a.toNat % 4 * 16 + b.toNat / 16) ::
      digit (b.toNat % 16 * 4 + c.toNat / 64) :: digit (c.toNat % 64) :: encode rest

/-- The whole bytes among six bit values. -/
def bytes : List Nat → List UInt8
  | m :: n :: o :: p :: rest =>
    UInt8.ofNat (m * 4 + n / 16) :: UInt8.ofNat (n % 16 * 16 + o / 4) ::
      UInt8.ofNat (o % 4 * 64 + p) :: bytes rest
  | [m, n, o] => [UInt8.ofNat (m * 4 + n / 16), UInt8.ofNat (n % 16 * 16 + o / 4)]
  | [m, n] => [UInt8.ofNat (m * 4 + n / 16)]
  | _ => []

/-- `Buffer.from(text, "base64")`. -/
def decode (text : List Char) : List UInt8 :=
  bytes ((text.takeWhile (· ≠ '=')).filterMap urlValue?)

/-- The scanner of `base64.b64decode`: `quad` holds the digits read since the last
whole group, `pads` the padding read since the last digit. -/
def scanPadded : List Char → List Nat → Nat → Option (List UInt8)
  | [], quad, _ => if quad.isEmpty then some [] else none
  | c :: cs, quad, pads =>
    if c = '=' then
      if quad.length < 2 then scanPadded cs quad pads
      else if quad.length + (pads + 1) < 4 then scanPadded cs quad (pads + 1)
      else some (bytes quad)
    else
      match value? c with
      | none => scanPadded cs quad pads
      | some n =>
        if quad.length < 3 then scanPadded cs (quad ++ [n]) 0
        else (scanPadded cs [] 0).map (bytes (quad ++ [n]) ++ ·)

/-- `base64.b64decode(text)`, `none` where it raises `binascii.Error`. -/
def decodePadded (text : List Char) : Option (List UInt8) := scanPadded text [] 0

/-! ## Digits -/

theorem value?_digit {n : Nat} (h : n < 64) : value? (digit n) = some n := by
  revert n
  decide

theorem urlValue?_digit {n : Nat} (h : n < 64) : urlValue? (digit n) = some n := by
  revert n
  decide

theorem digit_ne_pad {n : Nat} (h : n < 64) : digit n ≠ '=' := by
  revert n
  decide

/-! ## Bytes from their digits -/

theorem first_byte (a b : UInt8) :
    UInt8.ofNat (a.toNat / 4 * 4 + (a.toNat % 4 * 16 + b.toNat / 16) / 16) = a := by
  rw [← UInt8.toNat_inj, UInt8.toNat_ofNat']
  have ha := a.toNat_lt
  have hb := b.toNat_lt
  omega

theorem second_byte (a b c : UInt8) :
    UInt8.ofNat ((a.toNat % 4 * 16 + b.toNat / 16) % 16 * 16 +
      (b.toNat % 16 * 4 + c.toNat / 64) / 4) = b := by
  rw [← UInt8.toNat_inj, UInt8.toNat_ofNat']
  have hb := b.toNat_lt
  have hc := c.toNat_lt
  omega

theorem third_byte (b c : UInt8) :
    UInt8.ofNat ((b.toNat % 16 * 4 + c.toNat / 64) % 4 * 64 + c.toNat % 64) = c := by
  rw [← UInt8.toNat_inj, UInt8.toNat_ofNat']
  have hc := c.toNat_lt
  omega

/-- A byte alone is the first one before a zero byte. -/
theorem lone_byte (a : UInt8) : UInt8.ofNat (a.toNat / 4 * 4 + a.toNat % 4 * 16 / 16) = a := by
  simpa using first_byte a 0

theorem last_byte (a b : UInt8) :
    UInt8.ofNat ((a.toNat % 4 * 16 + b.toNat / 16) % 16 * 16 + b.toNat % 16 * 4 / 4) = b := by
  simpa using second_byte a b 0

/-! ## Round trips -/

section
variable (a b c : UInt8)

theorem first_lt : a.toNat / 4 < 64 := by
  have := a.toNat_lt
  omega

theorem second_lt : a.toNat % 4 * 16 + b.toNat / 16 < 64 := by
  have := b.toNat_lt
  omega

theorem third_lt : b.toNat % 16 * 4 + c.toNat / 64 < 64 := by
  have := c.toNat_lt
  omega

theorem fourth_lt : c.toNat % 64 < 64 := Nat.mod_lt _ (by decide)

theorem lone_second_lt : a.toNat % 4 * 16 < 64 := by omega

theorem lone_third_lt : b.toNat % 16 * 4 < 64 := by omega

end

theorem decode_digit {n : Nat} (h : n < 64) (text : List Char) :
    ((digit n :: text).takeWhile (· ≠ '=')).filterMap urlValue? =
      n :: (text.takeWhile (· ≠ '=')).filterMap urlValue? := by
  rw [List.takeWhile_cons_of_pos (by simpa using digit_ne_pad h),
    List.filterMap_cons_some (urlValue?_digit h)]

/-- **`decode` reads back what `encode` wrote.** -/
theorem decode_encode (bs : List UInt8) : decode (encode bs) = bs := by
  unfold decode
  induction bs using encode.induct with
  | case1 => rfl
  | case2 a =>
    rw [encode, decode_digit (first_lt a), decode_digit (lone_second_lt a)]
    exact congrArg (· :: []) (lone_byte a)
  | case3 a b =>
    rw [encode, decode_digit (first_lt a), decode_digit (second_lt a b),
      decode_digit (lone_third_lt b)]
    exact congr (congrArg List.cons (first_byte a b)) (congrArg (· :: []) (last_byte a b))
  | case4 a b c rest ih =>
    rw [encode, decode_digit (first_lt a), decode_digit (second_lt a b),
      decode_digit (third_lt b c), decode_digit (fourth_lt c), bytes, first_byte, second_byte,
      third_byte, ih]

theorem scanPadded_digit {n : Nat} (h : n < 64) (text : List Char) {quad : List Nat}
    (hquad : quad.length < 3) (pads : Nat) :
    scanPadded (digit n :: text) quad pads = scanPadded text (quad ++ [n]) 0 := by
  rw [scanPadded, if_neg (digit_ne_pad h), value?_digit h]
  exact if_pos hquad

theorem scanPadded_fourth {n : Nat} (h : n < 64) (text : List Char) {quad : List Nat}
    (hquad : quad.length = 3) (pads : Nat) :
    scanPadded (digit n :: text) quad pads =
      (scanPadded text [] 0).map (bytes (quad ++ [n]) ++ ·) := by
  rw [scanPadded, if_neg (digit_ne_pad h), value?_digit h]
  exact if_neg (by omega)

/-- **`decodePadded` reads back what `encode` wrote.** -/
theorem decodePadded_encode (bs : List UInt8) : decodePadded (encode bs) = some bs := by
  unfold decodePadded
  induction bs using encode.induct with
  | case1 => rfl
  | case2 a =>
    rw [encode, scanPadded_digit (first_lt a) _ (by simp),
      scanPadded_digit (lone_second_lt a) _ (by simp)]
    exact congrArg (fun x => some [x]) (lone_byte a)
  | case3 a b =>
    rw [encode, scanPadded_digit (first_lt a) _ (by simp),
      scanPadded_digit (second_lt a b) _ (by simp),
      scanPadded_digit (lone_third_lt b) _ (by simp)]
    exact congrArg some
      (congr (congrArg List.cons (first_byte a b)) (congrArg (· :: []) (last_byte a b)))
  | case4 a b c rest ih =>
    rw [encode, scanPadded_digit (first_lt a) _ (by simp),
      scanPadded_digit (second_lt a b) _ (by simp),
      scanPadded_digit (third_lt b c) _ (by simp),
      scanPadded_fourth (fourth_lt c) _ (by simp), ih]
    simp only [List.nil_append, List.cons_append, Option.map_some, bytes, first_byte, second_byte,
      third_byte]

end Base64

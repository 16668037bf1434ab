import Parmana.Js.RoundTrip

/-! # `Number.prototype.toFixed`

A number below `10²¹` is written with a given number of digits behind the point, rounded
to the nearest such decimal and up where two are equally near.  A larger one is written as
`String` writes it.
-/
namespace Js.JsNumber

/-- The decimal of `a / b` with `f` digits behind the point. -/
def fixedChars (f a b : Nat) : List Char :=
  let digits := Nat.toDigits 10 ((2 * a * 10 ^ f + b) / (2 * b))
  let padded := List.replicate (f + 1 - digits.length) '0' ++ digits
  if f = 0 then digits
  else padded.take (padded.length - f) ++ '.' :: padded.drop (padded.length - f)

/-- `d.toFixed(f)`, of a double. -/
def fixedText (f : Nat) (d : Double) : JsString :=
  if 10 ^ 21 * (magnitude d).2 ≤ (magnitude d).1 then toText (.finite d)
  else ⟨signUnits (decide (d.val < 0)) ++ codes (fixedChars f (magnitude d).1 (magnitude d).2)⟩

/-- `n.toFixed(f)`. -/
def toFixed (f : Nat) : JsNumber → JsString
  | .finite d => fixedText f d
  | .negZero => fixedText f ⟨.zero, trivial⟩
  | n => n.toText

example : toFixed 2 (ofRatio false 4999 1000) = "5.00" := by decide
example : toFixed 2 (ofRatio true 1 1000) = "-0.00" := by decide

theorem fixedChars_units (f a b : Nat) : fixedChars f a b ≠ [] ∧
    ∀ u ∈ codes (fixedChars f a b), isNumberUnit u = true := by
  have hdigits := allDigits_toDigits ((2 * a * 10 ^ f + b) / (2 * b))
  unfold fixedChars
  dsimp only
  split
  · exact ⟨Nat.toDigits_ne_nil, fun u hu => isNumberUnit_of_digit hdigits hu⟩
  · refine ⟨by simp, fun u hu => ?_⟩
    have hpadded := (allDigits_replicate (f + 1 -
      (Nat.toDigits 10 ((2 * a * 10 ^ f + b) / (2 * b))).length)).append hdigits
    rw [codes_append, List.mem_append] at hu
    rcases hu with hu | hu
    · exact isNumberUnit_of_digit (fun c hc => hpadded c (List.mem_of_mem_take hc)) hu
    · rcases List.mem_cons.mp hu with rfl | hu
      · decide
      · exact isNumberUnit_of_digit (fun c hc => hpadded c (List.mem_of_mem_drop hc)) hu

/-- The text is made of the code units of numbers. -/
theorem toFixed_units {n : JsNumber} (hn : n.isFinite = true) (f : Nat) :
    (toFixed f n).units ≠ [] ∧ ∀ u ∈ (toFixed f n).units, isNumberUnit u = true := by
  have hfixed : ∀ d : Double, (fixedText f d).units ≠ [] ∧
      ∀ u ∈ (fixedText f d).units, isNumberUnit u = true := by
    intro d
    unfold fixedText
    split
    · exact toText_units rfl
    · obtain ⟨hne, hunits⟩ := fixedChars_units f (magnitude d).1 (magnitude d).2
      refine ⟨fun h => hne (List.map_eq_nil_iff.mp (List.append_eq_nil_iff.mp h).2), fun u hu => ?_⟩
      rcases List.mem_append.mp hu with hu | hu
      · unfold signUnits at hu
        split at hu
        · rw [List.mem_singleton.mp hu]
          decide
        · cases hu
      · exact hunits u hu
  cases n with
  | finite d => exact hfixed d
  | negZero => exact hfixed _
  | _ => cases hn

/-- **Finite numbers have the same text when they are `===`.** -/
theorem toText_eq_iff {a b : JsNumber} (ha : a.isFinite = true) (hb : b.isFinite = true) :
    a.toText = b.toText ↔ eq a b = true := by
  have hmerge : ∀ n : JsNumber, n.merge.toText = n.toText := by
    intro n
    cases n with
    | negZero => decide
    | _ => rfl
  have hnan : a ≠ .nan := fun h => by rw [h] at ha; cases ha
  have hends : Ends [] := fun u hu => by cases hu
  rw [eq, Bool.and_eq_true, decide_eq_true_eq, beq_iff_eq]
  constructor
  · intro h
    have hread := parseNumber_toText ha hends
    rw [h, parseNumber_toText hb hends] at hread
    simp only [Option.some.injEq, Prod.mk.injEq, Json.num.injEq, and_true] at hread
    exact ⟨hnan, hread.symm⟩
  · rintro ⟨-, h⟩
    rw [← hmerge a, h, hmerge]

end Js.JsNumber

import Mathlib.Data.List.TakeWhile
import Parmana.Collections.Splits
import Parmana.Js.WellFormed

/-! # The path of a URL

What the URL parser makes of the text after the authority of an `https` URL.  The parser
reads characters, and every character it treats apart is ASCII, so the text is read here
as its UTF-8 bytes.  Tabs and newlines are dropped; a `?` starts the query and a `#` the
fragment; a slash or a backslash ends a segment; what cannot stand in a path is percent
encoded; and a segment that spells one or two dots is resolved.

A path put together from parts comes out of this with those parts, each as it was, exactly
when every part is **kept** (`parse_eq_parts_iff`).  The way back is counted: each step of
the parser loses bytes or does nothing, so when the parts are all there no step did
anything.
-/
namespace Js.Url

/-! ## Bytes -/

/-- ASCII tab or newline. -/
def isTabOrNewline (b : UInt8) : Bool := b == 0x09 || b == 0x0A || b == 0x0D

/-- `/`, or `\`, which is read as one. -/
def isSeparator (b : UInt8) : Bool := b == 0x2F || b == 0x5C

/-- `?` or `#`. -/
def endsPath (b : UInt8) : Bool := b == 0x3F || b == 0x23

/-- The path percent-encode set. -/
def pathSet (b : UInt8) : Bool :=
  b ≤ 0x20 || 0x7F ≤ b || [0x22, 0x23, 0x3C, 0x3E, 0x3F, 0x5E, 0x60, 0x7B, 0x7D].contains b

/-- The special-query percent-encode set. -/
def querySet (b : UInt8) : Bool :=
  b ≤ 0x20 || 0x7F ≤ b || [0x22, 0x23, 0x27, 0x3C, 0x3E].contains b

/-- A hexadecimal digit, in capitals. -/
def hexByte (n : Nat) : UInt8 := UInt8.ofNat (if n < 10 then 0x30 + n else 0x37 + n)

/-- The value of a hexadecimal digit. -/
def hexValue (b : UInt8) : Option Nat :=
  if 0x30 ≤ b.toNat ∧ b.toNat ≤ 0x39 then some (b.toNat - 0x30)
  else if 0x41 ≤ b.toNat ∧ b.toNat ≤ 0x46 then some (b.toNat - 0x37)
  else if 0x61 ≤ b.toNat ∧ b.toNat ≤ 0x66 then some (b.toNat - 0x57)
  else none

/-- The byte that `%ab` stands for. -/
def escape? (a b : UInt8) : Option UInt8 := do
  let x ← hexValue a
  let y ← hexValue b
  return UInt8.ofNat (16 * x + y)

def escaped (b : UInt8) : List UInt8 := [0x25, hexByte (b.toNat / 16), hexByte (b.toNat % 16)]

/-- Percent encoding of the bytes of a set. -/
def percentEncode (set : UInt8 → Bool) (bs : List UInt8) : List UInt8 :=
  bs.flatMap fun b => if set b then escaped b else [b]

/-- Percent decoding: what is no escape stays. -/
def percentDecode : List UInt8 → List UInt8
  | [] => []
  | [c] => [c]
  | [c, d] => [c, d]
  | c :: a :: b :: rest =>
    match if c = 0x25 then escape? a b else none with
    | some v => v :: percentDecode rest
    | none => c :: percentDecode (a :: b :: rest)

/-- Some `%ab` in the bytes is an escape. -/
def hasEscape : List UInt8 → Bool
  | c :: a :: b :: rest => (c == 0x25 && (escape? a b).isSome) || hasEscape (a :: b :: rest)
  | _ => false

/-! ## The parser -/

/-- What follows a dot, written `.` or `%2e`, at the start. -/
def stripDot : List UInt8 → Option (List UInt8)
  | [] => none
  | c :: rest =>
    if c = 0x2E then some rest
    else if c = 0x25 then
      match rest with
      | d :: e :: rest => if d = 0x32 ∧ (e = 0x65 ∨ e = 0x45) then some rest else none
      | _ => none
    else none

def isSingleDot (segment : List UInt8) : Bool := stripDot segment == some []

def isDoubleDot (segment : List UInt8) : Bool := (stripDot segment).bind stripDot == some []

/-- Appends segments to a path; a last segment of dots leaves an empty one. -/
def resolve (path : List (List UInt8)) : List (List UInt8) → List (List UInt8)
  | [] => path
  | [segment] =>
    if isDoubleDot segment then path.dropLast ++ [[]]
    else if isSingleDot segment then path ++ [[]]
    else path ++ [segment]
  | segment :: next :: rest =>
    if isDoubleDot segment then resolve path.dropLast (next :: rest)
    else if isSingleDot segment then resolve path (next :: rest)
    else resolve (path ++ [segment]) (next :: rest)

/-- The segments between the separators, a first separator apart. -/
def rawSegments : List UInt8 → List (List UInt8)
  | [] => [[]]
  | c :: rest => (if isSeparator c then rest else c :: rest).splitOnP isSeparator

/-- The path and the query of a URL. -/
structure Target where
  segments : List (List UInt8)
  query : Option (List UInt8)
  deriving DecidableEq

def cleaned (text : List UInt8) : List UInt8 := text.filter (fun b => !isTabOrNewline b)

def pathText (text : List UInt8) : List UInt8 := text.takeWhile (fun b => !endsPath b)

def queryOf (rest : List UInt8) : Option (List UInt8) :=
  match rest with
  | [] => none
  | c :: rest =>
    if c = 0x3F then some (percentEncode querySet (rest.takeWhile (fun b => b != 0x23))) else none

/-- The path and the query in the text after the authority. -/
def parse (text : List UInt8) : Target where
  segments := resolve [] ((rawSegments (pathText (cleaned text))).map (percentEncode pathSet))
  query := queryOf ((cleaned text).dropWhile (fun b => !endsPath b))

/-! ## Escapes -/

theorem hexValue_hexByte {n : Nat} (h : n < 16) : hexValue (hexByte n) = some n := by
  have hall : ∀ i : Fin 16, hexValue (hexByte i) = some i.val := by decide
  exact hall ⟨n, h⟩

theorem escape?_escaped (b : UInt8) :
    escape? (hexByte (b.toNat / 16)) (hexByte (b.toNat % 16)) = some b := by
  have hb := b.toNat_lt
  unfold escape?
  rw [hexValue_hexByte (by omega), hexValue_hexByte (by omega)]
  have hsum : 16 * (b.toNat / 16) + b.toNat % 16 = b.toNat := by omega
  show some (UInt8.ofNat (16 * (b.toNat / 16) + b.toNat % 16)) = some b
  rw [hsum, UInt8.ofNat_toNat]

theorem percentDecode_escape {a b v : UInt8} (h : escape? a b = some v) (rest : List UInt8) :
    percentDecode (0x25 :: a :: b :: rest) = v :: percentDecode rest := by
  rw [percentDecode, if_pos rfl, h]

theorem percentDecode_cons {c : UInt8} {rest : List UInt8}
    (h : c = 0x25 → ∀ a b t, rest = a :: b :: t → escape? a b = none) :
    percentDecode (c :: rest) = c :: percentDecode rest := by
  match rest with
  | [] => rfl
  | [d] => rfl
  | a :: b :: t =>
    rw [percentDecode]
    by_cases hc : c = 0x25
    · rw [if_pos hc, h hc a b t rfl]
    · rw [if_neg hc]

theorem hexValue_none_of_pathSet {b : UInt8} (h : pathSet b = true) : hexValue b = none := by
  have hb : ∀ n : Fin 256, pathSet (UInt8.ofNat n) = true → hexValue (UInt8.ofNat n) = none := by
    decide +kernel
  have hself := hb ⟨b.toNat, b.toNat_lt⟩
  simpa using hself (by simpa using h)

theorem escape?_none_left {a b : UInt8} (h : hexValue a = none) : escape? a b = none := by
  unfold escape?
  rw [h]
  rfl

theorem escape?_none_right {a b : UInt8} (h : hexValue b = none) : escape? a b = none := by
  unfold escape?
  rw [h]
  cases hexValue a <;> rfl

theorem percentEncode_cons {set : UInt8 → Bool} {c : UInt8} {bs : List UInt8} :
    percentEncode set (c :: bs) =
      if set c then 0x25 :: hexByte (c.toNat / 16) :: hexByte (c.toNat % 16) :: percentEncode set bs
      else c :: percentEncode set bs := by
  unfold percentEncode
  rw [List.flatMap_cons]
  split <;> rfl

/-- Where no escape starts, none starts in the encoded bytes. -/
theorem escape?_percentEncode {rest : List UInt8}
    (h : ∀ a b t, rest = a :: b :: t → escape? a b = none) :
    ∀ a b t, percentEncode pathSet rest = a :: b :: t → escape? a b = none := by
  intro a b t heq
  match rest with
  | [] => cases heq
  | c :: rest =>
    rw [percentEncode_cons] at heq
    split at heq
    · injection heq with ha
      exact escape?_none_left (ha ▸ rfl)
    · injection heq with ha heq
      subst ha
      match rest with
      | [] => cases heq
      | d :: rest =>
        rw [percentEncode_cons] at heq
        split at heq
        · injection heq with hb
          exact escape?_none_right (hb ▸ rfl)
        · injection heq with hb
          exact hb ▸ h c d rest rfl

/-- Encoding and decoding is decoding: what is encoded is no part of an escape. -/
theorem percentDecode_percentEncode : ∀ bs : List UInt8,
    percentDecode (percentEncode pathSet bs) = percentDecode bs
  | [] => rfl
  | c :: rest => by
    have ih := percentDecode_percentEncode rest
    rw [percentEncode_cons]
    by_cases hset : pathSet c = true
    · have hpercent : c ≠ 0x25 := by
        rintro rfl
        exact absurd hset (by decide)
      rw [if_pos hset, percentDecode_escape (escape?_escaped c), ih,
        percentDecode_cons fun h => absurd h hpercent]
    · rw [if_neg hset]
      by_cases hescape : c = 0x25 ∧ ∃ a b t, rest = a :: b :: t ∧ ∃ v, escape? a b = some v
      · obtain ⟨rfl, a, b, t, rfl, v, hv⟩ := hescape
        have hplain : ¬ pathSet a = true ∧ ¬ pathSet b = true := by
          refine ⟨fun ha => ?_, fun hb => ?_⟩
          · rw [escape?_none_left (hexValue_none_of_pathSet ha)] at hv
            cases hv
          · rw [escape?_none_right (hexValue_none_of_pathSet hb)] at hv
            cases hv
        rw [percentEncode_cons, if_neg hplain.1, percentEncode_cons, if_neg hplain.2,
          percentDecode_escape hv, percentDecode_escape hv, percentDecode_percentEncode t]
      · have hno : c = 0x25 → ∀ a b t, rest = a :: b :: t → escape? a b = none := by
          rintro rfl a b t rfl
          cases hv : escape? a b with
          | none => rfl
          | some v => exact absurd ⟨rfl, a, b, t, rfl, v, hv⟩ hescape
        rw [percentDecode_cons hno, percentDecode_cons fun hc =>
          escape?_percentEncode (hno hc), ih]

theorem percentDecode_of_no_escape {bs : List UInt8} (h : hasEscape bs = false) :
    percentDecode bs = bs := by
  induction bs using percentDecode.induct with
  | case1 => rfl
  | case2 c => rfl
  | case3 c d => rfl
  | case4 c a b rest v hv ih =>
    rw [hasEscape, Bool.or_eq_false_iff] at h
    split at hv
    next hc =>
      subst hc
      rw [hv] at h
      cases h.1
    · cases hv
  | case5 c a b rest hnone ih =>
    rw [hasEscape, Bool.or_eq_false_iff] at h
    rw [percentDecode, hnone, ih h.2]

theorem hasEscape_of_not_mem {bs : List UInt8} (h : 0x25 ∉ bs) : hasEscape bs = false := by
  induction bs using percentDecode.induct with
  | case1 => rfl
  | case2 c => rfl
  | case3 c d => rfl
  | case4 c a b rest v hv ih =>
    split at hv
    next hc => exact absurd (hc ▸ List.mem_cons_self) h
    · cases hv
  | case5 c a b rest hnone ih =>
    rw [List.mem_cons, not_or] at h
    have hc : (c == 0x25) = false := beq_eq_false_iff_ne.mpr (Ne.symm h.1)
    rw [hasEscape, ih h.2, hc]
    rfl

theorem length_percentDecode_le (bs : List UInt8) : (percentDecode bs).length ≤ bs.length := by
  induction bs using percentDecode.induct with
  | case1 => exact le_rfl
  | case2 c => exact le_rfl
  | case3 c d => exact le_rfl
  | case4 c a b rest v hv ih =>
    rw [percentDecode, hv]
    simp only [List.length_cons]
    omega
  | case5 c a b rest hnone ih =>
    rw [percentDecode, hnone]
    simp only [List.length_cons] at ih ⊢
    omega

/-- Decoding an escape loses bytes. -/
theorem length_percentDecode_lt {bs : List UInt8} (h : hasEscape bs = true) :
    (percentDecode bs).length < bs.length := by
  induction bs using percentDecode.induct with
  | case1 => cases h
  | case2 c => cases h
  | case3 c d => cases h
  | case4 c a b rest v hv ih =>
    rw [percentDecode, hv]
    have hle := length_percentDecode_le rest
    simp only [List.length_cons]
    omega
  | case5 c a b rest hnone ih =>
    rw [hasEscape, Bool.or_eq_true, Bool.and_eq_true, beq_iff_eq] at h
    rw [percentDecode, hnone]
    rcases h with ⟨rfl, hsome⟩ | h
    · rw [if_pos rfl] at hnone
      rw [hnone] at hsome
      cases hsome
    · have hlt := ih h
      simp only [List.length_cons] at hlt ⊢
      omega

/-! ## Segments of dots -/

theorem percentDecode_of_stripDot {segment rest : List UInt8} (h : stripDot segment = some rest) :
    percentDecode segment = 0x2E :: percentDecode rest := by
  unfold stripDot at h
  split at h
  · cases h
  next c tail =>
    split at h
    next hc =>
      subst hc
      cases h
      exact percentDecode_cons fun hp => absurd hp (by decide)
    · split at h
      next hc =>
        subst hc
        split at h
        next d e tail =>
          split at h
          next hde =>
            cases h
            obtain ⟨rfl, rfl | rfl⟩ := hde
            · exact percentDecode_escape rfl _
            · exact percentDecode_escape rfl _
          · cases h
        · cases h
      · cases h

theorem percentDecode_of_singleDot {segment : List UInt8} (h : isSingleDot segment = true) :
    percentDecode segment = [0x2E] :=
  percentDecode_of_stripDot (beq_iff_eq.mp h)

theorem percentDecode_of_doubleDot {segment : List UInt8} (h : isDoubleDot segment = true) :
    percentDecode segment = [0x2E, 0x2E] := by
  unfold isDoubleDot at h
  obtain ⟨rest, hfirst, hsecond⟩ := Option.bind_eq_some_iff.mp (beq_iff_eq.mp h)
  rw [percentDecode_of_stripDot hfirst, percentDecode_of_stripDot hsecond]
  rfl

/-- The decoded bytes of segments, with one for the separator of each. -/
def size (segments : List (List UInt8)) : Nat :=
  (segments.map fun segment => (percentDecode segment).length + 1).sum

theorem size_append (xs ys : List (List UInt8)) : size (xs ++ ys) = size xs + size ys := by
  unfold size
  rw [List.map_append, List.sum_append]

theorem size_singleton (segment : List UInt8) :
    size [segment] = (percentDecode segment).length + 1 := rfl

theorem size_cons (segment : List UInt8) (segments : List (List UInt8)) :
    size (segment :: segments) = (percentDecode segment).length + 1 + size segments :=
  List.sum_cons

theorem size_dropLast_le (segments : List (List UInt8)) : size segments.dropLast ≤ size segments := by
  rcases List.eq_nil_or_concat segments with rfl | ⟨init, last, rfl⟩
  · exact le_rfl
  · rw [List.concat_eq_append, List.dropLast_concat, size_append]
    omega

/-- No segment spells one or two dots. -/
def Undotted (segments : List (List UInt8)) : Prop :=
  ∀ segment ∈ segments, isDoubleDot segment = false ∧ isSingleDot segment = false

theorem undotted_cons {segment : List UInt8} {segments : List (List UInt8)} :
    Undotted (segment :: segments) ↔
      (isDoubleDot segment = false ∧ isSingleDot segment = false) ∧ Undotted segments :=
  List.forall_mem_cons

theorem resolve_of_undotted {path segments : List (List UInt8)} (h : Undotted segments) :
    resolve path segments = path ++ segments := by
  induction path, segments using resolve.induct with
  | case1 path => rw [resolve, List.append_nil]
  | case2 path segment hdouble => rw [(undotted_cons.mp h).1.1] at hdouble; cases hdouble
  | case3 path segment _ hsingle => rw [(undotted_cons.mp h).1.2] at hsingle; cases hsingle
  | case4 path segment hdouble hsingle => rw [resolve, if_neg hdouble, if_neg hsingle]
  | case5 path segment next rest hdouble ih =>
    rw [(undotted_cons.mp h).1.1] at hdouble
    cases hdouble
  | case6 path segment next rest _ hsingle ih =>
    rw [(undotted_cons.mp h).1.2] at hsingle
    cases hsingle
  | case7 path segment next rest hdouble hsingle ih =>
    rw [resolve, if_neg hdouble, if_neg hsingle, ih (undotted_cons.mp h).2, List.append_assoc]
    rfl

/-- Segments of dots are lost, with what they remove. -/
theorem size_resolve (path segments : List (List UInt8)) :
    size (resolve path segments) ≤ size path + size segments ∧
      (size path + size segments ≤ size (resolve path segments) → Undotted segments) := by
  induction path, segments using resolve.induct with
  | case1 path =>
    rw [resolve]
    exact ⟨Nat.le_add_right _ _, fun _ _ h => absurd h List.not_mem_nil⟩
  | case2 path segment hdouble =>
    rw [resolve, if_pos hdouble, size_append, size_singleton, size_singleton,
      percentDecode_of_doubleDot hdouble]
    have hle := size_dropLast_le path
    simp only [percentDecode, List.length_cons, List.length_nil]
    exact ⟨by omega, fun h => by omega⟩
  | case3 path segment hdouble hsingle =>
    rw [resolve, if_neg hdouble, if_pos hsingle, size_append, size_singleton, size_singleton,
      percentDecode_of_singleDot hsingle]
    simp only [percentDecode, List.length_cons, List.length_nil]
    exact ⟨by omega, fun h => by omega⟩
  | case4 path segment hdouble hsingle =>
    rw [resolve, if_neg hdouble, if_neg hsingle, size_append]
    refine ⟨le_rfl, fun _ => undotted_cons.mpr ⟨?_, fun _ h => absurd h List.not_mem_nil⟩⟩
    exact ⟨Bool.eq_false_iff.mpr hdouble, Bool.eq_false_iff.mpr hsingle⟩
  | case5 path segment next rest hdouble ih =>
    rw [resolve, if_pos hdouble, size_cons segment]
    have hle := size_dropLast_le path
    exact ⟨by omega, fun h => by omega⟩
  | case6 path segment next rest hdouble hsingle ih =>
    rw [resolve, if_neg hdouble, if_pos hsingle, size_cons segment]
    exact ⟨by omega, fun h => by omega⟩
  | case7 path segment next rest hdouble hsingle ih =>
    rw [resolve, if_neg hdouble, if_neg hsingle, size_cons segment]
    rw [size_append, size_singleton] at ih
    refine ⟨by omega, fun h => undotted_cons.mpr ⟨?_, ih.2 (by omega)⟩⟩
    exact ⟨Bool.eq_false_iff.mpr hdouble, Bool.eq_false_iff.mpr hsingle⟩

/-! ## Paths of parts -/

/-- The text of parts, a slash before each. -/
def joined (parts : List (List UInt8)) : List UInt8 := parts.flatMap (0x2F :: ·)

/-- What the parser reads as part of a segment. -/
def InnerByte (b : UInt8) : Prop :=
  isTabOrNewline b = false ∧ isSeparator b = false ∧ endsPath b = false

instance (b : UInt8) : Decidable (InnerByte b) := by
  unfold InnerByte; infer_instance

theorem inner_of_all {part : List UInt8} (h : part.all (fun b => decide (InnerByte b)) = true) :
    ∀ b ∈ part, InnerByte b := by
  intro b hb
  exact of_decide_eq_true (List.all_eq_true.mp h b hb)

theorem clean_of_all {text : List UInt8} (h : text.all (fun b => !isTabOrNewline b) = true) :
    ∀ b ∈ text, isTabOrNewline b = false := by
  intro b hb
  simpa using List.all_eq_true.mp h b hb

/-- A part that comes out of the parser as it went in. -/
structure Kept (part : List UInt8) : Prop where
  inner : ∀ b ∈ part, InnerByte b
  unescaped : hasEscape part = false
  notDot : part ≠ [0x2E]
  notDots : part ≠ [0x2E, 0x2E]

theorem undotted_percentEncode {parts : List (List UInt8)}
    (h : ∀ part ∈ parts, percentDecode part ≠ [0x2E] ∧ percentDecode part ≠ [0x2E, 0x2E]) :
    Undotted (parts.map (percentEncode pathSet)) := by
  intro segment hsegment
  obtain ⟨part, hpart, rfl⟩ := List.mem_map.mp hsegment
  obtain ⟨hdot, hdots⟩ := h part hpart
  rw [← percentDecode_percentEncode] at hdot hdots
  exact ⟨Bool.eq_false_iff.mpr fun hd => hdots (percentDecode_of_doubleDot hd),
    Bool.eq_false_iff.mpr fun hs => hdot (percentDecode_of_singleDot hs)⟩

theorem rawSegments_joined {part : List UInt8} {parts : List (List UInt8)}
    (h : ∀ p ∈ part :: parts, ∀ b ∈ p, InnerByte b) :
    rawSegments (joined (part :: parts)) = part :: parts := by
  have hslash : isSeparator 0x2F = true := rfl
  exact Splits.splitOnP_flatMap hslash fun p hp b hb => (h p hp b hb).2.1

/-- What the parser makes of clean parts, with a query or nothing after them. -/
theorem parse_joined {part : List UInt8} {parts : List (List UInt8)} {tail : List UInt8}
    (h : ∀ p ∈ part :: parts, ∀ b ∈ p, InnerByte b)
    (hclean : ∀ b ∈ tail, isTabOrNewline b = false)
    (htail : ∀ b ∈ tail.head?, endsPath b = true) :
    parse (joined (part :: parts) ++ tail) =
      { segments := resolve [] ((part :: parts).map (percentEncode pathSet))
        query := queryOf tail } := by
  have hbytes : ∀ b ∈ joined (part :: parts), isTabOrNewline b = false ∧ endsPath b = false := by
    intro b hb
    obtain ⟨p, hp, hmem⟩ := List.mem_flatMap.mp hb
    rcases List.mem_cons.mp hmem with rfl | hmem
    · exact ⟨rfl, rfl⟩
    · exact ⟨(h p hp b hmem).1, (h p hp b hmem).2.2⟩
  have hcleaned : cleaned (joined (part :: parts) ++ tail) = joined (part :: parts) ++ tail := by
    refine List.filter_eq_self.mpr fun b hb => ?_
    rcases List.mem_append.mp hb with hb | hb
    · rw [(hbytes b hb).1]
      rfl
    · rw [hclean b hb]
      rfl
  have hinside : ∀ b ∈ joined (part :: parts), (!endsPath b) = true := fun b hb => by
    rw [(hbytes b hb).2]
    rfl
  have hstop : tail.takeWhile (fun b => !endsPath b) = [] ∧
      tail.dropWhile (fun b => !endsPath b) = tail := by
    cases tail with
    | nil => exact ⟨rfl, rfl⟩
    | cons c tail =>
      have hc : (!endsPath c) = false := by
        rw [htail c rfl]
        rfl
      exact ⟨List.takeWhile_cons_of_neg (by rw [hc]; exact Bool.false_ne_true),
        List.dropWhile_cons_of_neg (by rw [hc]; exact Bool.false_ne_true)⟩
  unfold parse pathText
  rw [hcleaned, List.takeWhile_append_of_pos hinside, List.dropWhile_append_of_pos hinside,
    hstop.1, hstop.2, List.append_nil, rawSegments_joined h]

/-- Decoding raw segments loses their escapes. -/
theorem size_le_length (raws : List (List UInt8)) :
    size raws ≤ (raws.map fun raw => raw.length + 1).sum ∧
      ((raws.map fun raw => raw.length + 1).sum ≤ size raws →
        ∀ raw ∈ raws, hasEscape raw = false) := by
  induction raws with
  | nil => exact ⟨le_rfl, fun _ _ h => absurd h List.not_mem_nil⟩
  | cons raw raws ih =>
    rw [size_cons, List.map_cons, List.sum_cons]
    have hle := length_percentDecode_le raw
    refine ⟨by omega, fun h r hr => ?_⟩
    rcases List.mem_cons.mp hr with rfl | hr
    · rw [Bool.eq_false_iff]
      intro hescape
      have hlt := length_percentDecode_lt hescape
      omega
    · exact ih.2 (by omega) r hr

theorem size_percentEncode (raws : List (List UInt8)) :
    size (raws.map (percentEncode pathSet)) = size raws := by
  unfold size
  rw [List.map_map]
  refine congrArg List.sum (List.map_congr_left fun raw _ => ?_)
  rw [Function.comp_apply, percentDecode_percentEncode]

theorem length_joined (parts : List (List UInt8)) :
    (joined parts).length = (parts.map fun part => part.length + 1).sum := by
  unfold joined
  rw [List.length_flatMap]
  rfl

/-- **Parts come out of the parser as they went in exactly when every part is kept.** -/
theorem parse_eq_parts_iff {part : List UInt8} {parts : List (List UInt8)} :
    (parse (joined (part :: parts))).segments.map percentDecode = part :: parts ↔
      ∀ p ∈ part :: parts, Kept p := by
  constructor
  · intro heq
    -- nothing was lost: no byte, no escape, and no segment of dots
    obtain ⟨rest, hrest⟩ : ∃ rest, pathText (cleaned (joined (part :: parts))) = 0x2F :: rest :=
      ⟨_, rfl⟩
    have hraws : rawSegments (pathText (cleaned (joined (part :: parts)))) =
        rest.splitOnP isSeparator := by
      rw [hrest]
      rfl
    have hresolve := size_resolve [] ((rest.splitOnP isSeparator).map (percentEncode pathSet))
    rw [size_percentEncode] at hresolve
    have hescapes := size_le_length (rest.splitOnP isSeparator)
    rw [Splits.length_splitOnP] at hescapes
    have hpath : rest.length + 1 ≤ (cleaned (joined (part :: parts))).length := by
      have hle := (List.takeWhile_sublist (l := cleaned (joined (part :: parts)))
        (fun b => !endsPath b)).length_le
      have hlength := congrArg List.length hrest
      rw [pathText, List.length_cons] at hlength
      omega
    have hfilter : (cleaned (joined (part :: parts))).length ≤ (joined (part :: parts)).length :=
      List.length_filter_le _ _
    have hsize : size (resolve [] ((rest.splitOnP isSeparator).map (percentEncode pathSet))) =
        (joined (part :: parts)).length := by
      rw [length_joined, ← heq, List.map_map, ← hraws]
      rfl
    have hnil : size [] = 0 := rfl
    rw [hnil] at hresolve
    have hundotted := hresolve.2 (by omega)
    have hunescaped := hescapes.2 (by omega)
    have hparts : rest.splitOnP isSeparator = part :: parts := by
      have hsegments : (parse (joined (part :: parts))).segments =
          (rest.splitOnP isSeparator).map (percentEncode pathSet) := by
        rw [← List.nil_append (List.map _ _), ← resolve_of_undotted hundotted, ← hraws]
        rfl
      rw [← heq, hsegments, List.map_map]
      refine (List.map_id _).symm.trans (List.map_congr_left fun raw hraw => ?_)
      rw [Function.comp_apply, percentDecode_percentEncode,
        percentDecode_of_no_escape (hunescaped raw hraw)]
      rfl
    intro p hp
    have hraw : p ∈ rest.splitOnP isSeparator := hparts ▸ hp
    refine ⟨fun b hb => ?_, hunescaped p hraw, ?_, ?_⟩
    · have hmem : b ∈ pathText (cleaned (joined (part :: parts))) := by
        rw [hrest]
        exact List.mem_cons_of_mem _ (Splits.of_mem_splitOnP hraw b hb).1
      have hclean := (List.mem_filter.mp ((List.takeWhile_sublist _).mem hmem)).2
      have hends := List.mem_takeWhile_imp hmem
      exact ⟨by simpa using hclean, (Splits.of_mem_splitOnP hraw b hb).2, by simpa using hends⟩
    · rintro rfl
      exact absurd (hundotted _ (List.mem_map_of_mem hraw)).2 (by decide)
    · rintro rfl
      exact absurd (hundotted _ (List.mem_map_of_mem hraw)).1 (by decide)
  · intro hkept
    have hjoined := @parse_joined part parts [] (fun p hp => (hkept p hp).inner)
      (fun _ h => absurd h List.not_mem_nil) (fun _ h => by cases h)
    rw [List.append_nil] at hjoined
    have hdecode : ∀ p ∈ part :: parts, percentDecode p = p := fun p hp =>
      percentDecode_of_no_escape (hkept p hp).unescaped
    have hundotted : Undotted ((part :: parts).map (percentEncode pathSet)) :=
      undotted_percentEncode fun p hp => by
        rw [hdecode p hp]
        exact ⟨(hkept p hp).notDot, (hkept p hp).notDots⟩
    rw [hjoined, resolve_of_undotted hundotted, List.nil_append, List.map_map]
    refine (List.map_congr_left fun p hp => ?_).trans (List.map_id _)
    rw [Function.comp_apply, percentDecode_percentEncode, hdecode p hp]
    rfl

/-! ## Strings -/

section Strings
open JsString

theorem encode_append {s : JsString} {c : UInt16} {us : List UInt16} (h : c.toNat < 0x80) :
    encode ⟨s.units ++ c :: us⟩ = s.encode ++ UInt8.ofNat c.toNat :: encode ⟨us⟩ := by
  have hlow : isLowSurrogate c = false := by
    rw [Bool.eq_false_iff, ne_eq, lowSurrogate_iff]
    omega
  have hhigh : isHighSurrogate c = false := by
    rw [Bool.eq_false_iff, ne_eq, highSurrogate_iff]
    omega
  have hunit : utf8 [unitChar c] = [UInt8.ofNat c.toNat] := by
    have hnat : (Char.ofNat c.toNat).toNat = c.toNat := toNat_ofNat (Or.inl (by omega))
    have hone : String.utf8EncodeChar (Char.ofNat c.toNat) =
        [UInt8.ofNat (Char.ofNat c.toNat).toNat] := by
      unfold String.utf8EncodeChar
      exact if_pos (Nat.le_of_lt_succ (lt_of_eq_of_lt hnat h))
    rw [unitChar, hhigh, hlow, if_neg (by decide), utf8, List.flatMap_singleton, hone, hnat]
  have hcons : scalars (c :: us) = unitChar c :: scalars us := scalars_cons hhigh us
  unfold encode
  rw [utf8, List.flatMap_singleton] at hunit
  rw [scalars_append (by simp [hlow]), hcons, utf8, List.flatMap_append, List.flatMap_cons, hunit]
  rfl

theorem encode_cons {c : UInt16} {us : List UInt16} (h : c.toNat < 0x80) :
    encode ⟨c :: us⟩ = UInt8.ofNat c.toNat :: encode ⟨us⟩ :=
  @encode_append ⟨[]⟩ c us h

theorem encode_of_below {us : List UInt16} (h : ∀ u ∈ us, u.toNat < 0x80) :
    encode ⟨us⟩ = us.map fun u => UInt8.ofNat u.toNat := by
  induction us with
  | nil => rfl
  | cons u us ih =>
    rw [encode_cons (h u List.mem_cons_self), ih fun v hv => h v (List.mem_cons_of_mem _ hv)]
    rfl

/-- The text of a path of strings. -/
def joinedUnits (parts : List JsString) : List UInt16 := parts.flatMap fun part => 0x2F :: part.units

theorem encode_joinedUnits_append {s : JsString} (parts : List JsString) :
    encode ⟨s.units ++ joinedUnits parts⟩ = s.encode ++ joined (parts.map encode) := by
  induction parts generalizing s with
  | nil =>
    rw [joinedUnits, List.flatMap_nil, List.append_nil]
    exact (List.append_nil _).symm
  | cons part parts ih =>
    have hcons : s.units ++ joinedUnits (part :: parts) =
        s.units ++ 0x2F :: (part.units ++ joinedUnits parts) := rfl
    rw [hcons, encode_append (by decide), ih]
    rfl

theorem encode_joinedUnits (parts : List JsString) :
    encode ⟨joinedUnits parts⟩ = joined (parts.map encode) :=
  encode_joinedUnits_append (s := ⟨[]⟩) parts

/-- Decoded, the segment is the text of the part. -/
def Names (segment : List UInt8) (part : JsString) : Prop :=
  ∃ cs, percentDecode segment = utf8 cs ∧ part.units = cs.flatMap utf16

theorem names_iff {segment : List UInt8} {part : JsString} :
    Names segment part ↔ percentDecode segment = part.encode ∧ paired part.units = true := by
  constructor
  · rintro ⟨cs, hdecode, hunits⟩
    refine ⟨?_, hunits ▸ paired_flatMap_utf16 cs⟩
    rw [hdecode, ← encode_utf16, ← hunits]
  · rintro ⟨hdecode, hpaired⟩
    exact ⟨scalars part.units, hdecode, (utf16_scalars hpaired).symm⟩

theorem forall₂_names_iff {segments : List (List UInt8)} {parts : List JsString} :
    List.Forall₂ Names segments parts ↔ segments.map percentDecode = parts.map encode ∧
      ∀ part ∈ parts, paired part.units = true := by
  induction segments generalizing parts with
  | nil =>
    cases parts with
    | nil => exact iff_of_true .nil ⟨rfl, fun _ h => absurd h List.not_mem_nil⟩
    | cons part parts => exact iff_of_false (fun h => by cases h) fun h => by cases h.1
  | cons segment segments ih =>
    cases parts with
    | nil => exact iff_of_false (fun h => by cases h) fun h => by cases h.1
    | cons part parts =>
      rw [List.forall₂_cons, names_iff, ih, List.map_cons, List.map_cons, List.cons.injEq,
        List.forall_mem_cons]
      tauto

/-- Segments name one list of parts only. -/
theorem parts_of_names {segments segments' : List (List UInt8)} {parts parts' : List JsString}
    (h : List.Forall₂ Names segments parts) (h' : List.Forall₂ Names segments' parts')
    (hsame : segments.map percentDecode = segments'.map percentDecode) : parts = parts' := by
  induction h generalizing segments' parts' with
  | nil =>
    cases h' with
    | nil => rfl
    | cons _ _ => cases hsame
  | cons hname _ ih =>
    cases h' with
    | nil => cases hsame
    | cons hname' hrest =>
      rw [List.map_cons, List.map_cons, List.cons.injEq] at hsame
      obtain ⟨hdecode, hpaired⟩ := names_iff.mp hname
      obtain ⟨hdecode', hpaired'⟩ := names_iff.mp hname'
      rw [encode_injective hpaired hpaired' (hdecode.symm.trans (hsame.1.trans hdecode')),
        ih hrest hsame.2]

/-- **The path of strings names them exactly when every one is a text of paired surrogates
whose bytes are kept.** -/
theorem names_joinedUnits_iff {part : JsString} {parts : List JsString} :
    List.Forall₂ Names (parse (encode ⟨joinedUnits (part :: parts)⟩)).segments (part :: parts) ↔
      ∀ p ∈ part :: parts, Kept p.encode ∧ paired p.units = true := by
  rw [forall₂_names_iff, encode_joinedUnits, List.map_cons, parse_eq_parts_iff, ← List.map_cons,
    List.forall_mem_map]
  exact forall₂_and.symm

/-- The URL with this path calls the named parts, with this query. -/
def Addresses (path : JsString) (parts : List JsString) (query : Option (List UInt8)) : Prop :=
  List.Forall₂ Names (parse path.encode).segments parts ∧ (parse path.encode).query = query

theorem addresses_joinedUnits_iff {part : JsString} {parts : List JsString} :
    Addresses ⟨joinedUnits (part :: parts)⟩ (part :: parts) none ↔
      ∀ p ∈ part :: parts, Kept p.encode ∧ paired p.units = true := by
  unfold Addresses
  rw [names_joinedUnits_iff]
  refine and_iff_left_of_imp fun hkept => ?_
  have hinner : ∀ p ∈ (part :: parts).map encode, ∀ b ∈ p, InnerByte b :=
    List.forall_mem_map.mpr fun p hp => (hkept p hp).1.inner
  have hparse := @parse_joined part.encode (parts.map encode) [] hinner
    (fun _ h => absurd h List.not_mem_nil) (fun _ h => by cases h)
  rw [List.append_nil] at hparse
  rw [encode_joinedUnits, List.map_cons, hparse]
  rfl

/-! ## Components -/

/-- What `encodeURIComponent` leaves as it is. -/
def uriUnescaped (b : UInt8) : Bool :=
  (0x30 ≤ b && b ≤ 0x39) || (0x41 ≤ b && b ≤ 0x5A) || (0x61 ≤ b && b ≤ 0x7A) ||
    [0x2D, 0x5F, 0x2E, 0x21, 0x7E, 0x2A, 0x27, 0x28, 0x29].contains b

/-- The bytes of `encodeURIComponent`. -/
def component (s : JsString) : List UInt8 := percentEncode (fun b => !uriUnescaped b) s.encode

/-- `encodeURIComponent`. -/
def encodeURIComponent (s : JsString) : Except JsString JsString :=
  if paired s.units then .ok ⟨(component s).map UInt8.toUInt16⟩ else .error "URI malformed"

theorem percentDecode_percentEncode_all {set : UInt8 → Bool} (hset : set 0x25 = true)
    (bs : List UInt8) : percentDecode (percentEncode set bs) = bs := by
  induction bs with
  | nil => rfl
  | cons c bs ih =>
    rw [percentEncode_cons]
    by_cases hc : set c = true
    · rw [if_pos hc, percentDecode_escape (escape?_escaped c), ih]
    · rw [if_neg hc, percentDecode_cons, ih]
      rintro rfl
      exact absurd hset hc

theorem component_bytes {s : JsString} {b : UInt8} (h : b ∈ component s) :
    InnerByte b ∧ b < 0x80 := by
  have hbyte : ∀ n : Fin 256, uriUnescaped (UInt8.ofNat n) = true →
      InnerByte (UInt8.ofNat n) ∧ UInt8.ofNat n < 0x80 := by
    unfold InnerByte
    decide +kernel
  have hhex : ∀ n : Fin 16, uriUnescaped (hexByte n) = true := by decide
  have hof : ∀ b, uriUnescaped b = true → InnerByte b ∧ b < 0x80 := by
    intro b hb
    have hself := hbyte ⟨b.toNat, b.toNat_lt⟩
    rw [UInt8.ofNat_toNat] at hself
    exact hself hb
  obtain ⟨c, -, hmem⟩ := List.mem_flatMap.mp h
  have hc := c.toNat_lt
  split at hmem
  · unfold escaped at hmem
    simp only [List.mem_cons, List.not_mem_nil, or_false] at hmem
    rcases hmem with rfl | rfl | rfl
    · exact ⟨⟨rfl, rfl, rfl⟩, by decide⟩
    · exact hof _ (hhex ⟨c.toNat / 16, by omega⟩)
    · exact hof _ (hhex ⟨c.toNat % 16, by omega⟩)
  next hunescaped =>
    rw [List.mem_singleton] at hmem
    subst hmem
    exact hof _ (by simpa using hunescaped)

theorem encode_map_toUInt16 {bs : List UInt8} (h : ∀ b ∈ bs, b < 0x80) :
    encode ⟨bs.map UInt8.toUInt16⟩ = bs := by
  rw [encode_of_below, List.map_map]
  · refine (List.map_congr_left fun b _ => ?_).trans (List.map_id _)
    rw [Function.comp_apply, UInt8.toNat_toUInt16, UInt8.ofNat_toNat]
    rfl
  · refine List.forall_mem_map.mpr fun b hb => ?_
    rw [UInt8.toNat_toUInt16]
    exact UInt8.lt_iff_toNat_lt.mp (h b hb)

theorem encodeURIComponent_eq_ok {s t : JsString} (h : encodeURIComponent s = .ok t) :
    paired s.units = true ∧ t.encode = component s := by
  unfold encodeURIComponent at h
  split at h
  next hpaired =>
    cases h
    exact ⟨hpaired, encode_map_toUInt16 fun b hb => (component_bytes hb).2⟩
  · cases h

theorem percentDecode_component (s : JsString) : percentDecode (component s) = s.encode :=
  percentDecode_percentEncode_all rfl _

end Strings

end Js.Url

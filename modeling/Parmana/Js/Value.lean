import Mathlib.Data.List.Sort
import Parmana.Js.Number

/-! # JSON documents and the values read out of them

`Json` is what `JSON.parse` returns: primitives, arrays, and objects as lists of
members in the order they were written.  Reading a member can also give
`undefined`, or something of the language's own that every object inherits
(`constructor`, `toString`, `__proto__`, …); `JsValue` is the type of such a
read, and `JsValue.get` follows the prototype chain as the language does.

Two objects are `===` only when they are the same object.  The documents
compared here are parsed apart from each other, so `strictEq` never holds
between two arrays or two objects.
-/
namespace Js

/-- A value `JSON.parse` can return. -/
inductive Json where
  | null
  | bool (b : Bool)
  | num (n : JsNumber)
  | str (s : JsString)
  | arr (xs : List Json)
  | obj (fs : List (JsString × Json))

/-- The members of an object, in the order they were written. -/
abbrev Fields := List (JsString × Json)

instance : Inhabited Json := ⟨.null⟩

namespace Json

instance : Coe String Json := ⟨fun s => .str s⟩

mutual

/-- Equality of documents, as a test. -/
def beq : Json → Json → Bool
  | .null, .null => true
  | .bool a, .bool b => a == b
  | .num a, .num b => a == b
  | .str a, .str b => a == b
  | .arr a, .arr b => beqList a b
  | .obj a, .obj b => beqFields a b
  | _, _ => false

def beqList : List Json → List Json → Bool
  | [], [] => true
  | x :: xs, y :: ys => beq x y && beqList xs ys
  | _, _ => false

def beqFields : List (JsString × Json) → List (JsString × Json) → Bool
  | [], [] => true
  | (k, x) :: xs, (l, y) :: ys => (k == l && beq x y) && beqFields xs ys
  | _, _ => false

end

mutual

theorem beq_iff : ∀ a b : Json, beq a b = true ↔ a = b
  | .null, b => by cases b <;> simp [beq]
  | .bool a, b => by cases b <;> simp [beq]
  | .num a, b => by cases b <;> simp [beq]
  | .str a, b => by cases b <;> simp [beq]
  | .arr a, b => by
    cases b with
    | arr b => simp [beq, beqList_iff a b]
    | _ => simp [beq]
  | .obj a, b => by
    cases b with
    | obj b => simp [beq, beqFields_iff a b]
    | _ => simp [beq]

theorem beqList_iff : ∀ a b : List Json, beqList a b = true ↔ a = b
  | [], b => by cases b <;> simp [beqList]
  | x :: xs, b => by
    cases b with
    | nil => simp [beqList]
    | cons y ys => simp [beqList, beq_iff x y, beqList_iff xs ys]

theorem beqFields_iff : ∀ a b : List (JsString × Json), beqFields a b = true ↔ a = b
  | [], b => by cases b <;> simp [beqFields]
  | (k, x) :: xs, b => by
    cases b with
    | nil => simp [beqFields]
    | cons y ys => simp [beqFields, beq_iff x y.2, beqFields_iff xs ys, Prod.ext_iff]

end

instance : DecidableEq Json := fun a b => decidable_of_iff _ (beq_iff a b)

end Json

/-! ## Members -/

namespace Fields

/-- The object's own member of that name. -/
def own? (fs : Fields) (k : JsString) : Option Json := fs.lookup k

/-- `Object.prototype.hasOwnProperty.call(fs, k)`, and `k in fs` for a name no
prototype has. -/
def has (fs : Fields) (k : JsString) : Bool := (own? fs k).isSome

/-- `Object.keys(fs)`: array indices first, in numeric order, then the other
names as they were written. -/
def keys (fs : Fields) : List JsString :=
  let names := fs.map Prod.fst
  let indices := names.filter (fun k => k.arrayIndex?.isSome)
  indices.insertionSort (fun k l => k.arrayIndex?.getD 0 ≤ l.arrayIndex?.getD 0) ++
    names.filter (fun k => k.arrayIndex?.isNone)

/-- `Object.entries(fs)`. -/
def entries (fs : Fields) : Fields :=
  (keys fs).filterMap (fun k => (own? fs k).map (fun v => (k, v)))

theorem own?_cons_self (fs : Fields) (k : JsString) (v : Json) :
    own? ((k, v) :: fs) k = some v := by
  simp [own?]

theorem own?_cons_ne {k l : JsString} (h : k ≠ l) (fs : Fields) (v : Json) :
    own? ((l, v) :: fs) k = own? fs k := by
  have hne : (k == l) = false := by simpa using h
  simp [own?, List.lookup_cons, hne]

/-- A recursion that looks for a member of that name finds the object's own. -/
theorem search_eq {β : Type} {find : Fields → β} {found : Json → β} {k : JsString}
    (hcons : ∀ l v fs, find ((l, v) :: fs) = if k = l then found v else find fs)
    {fs : Fields} {v : Json} (h : own? fs k = some v) : find fs = found v := by
  induction fs with
  | nil => cases h
  | cons p fs ih =>
    obtain ⟨l, w⟩ := p
    rw [hcons]
    by_cases hk : k = l
    · subst hk
      rw [own?_cons_self] at h
      cases h
      exact if_pos rfl
    · rw [own?_cons_ne hk] at h
      rw [if_neg hk, ih h]

theorem mem_of_own? {fs : Fields} {k : JsString} {v : Json} (h : own? fs k = some v) :
    (k, v) ∈ fs := by
  induction fs with
  | nil => cases h
  | cons p fs ih =>
    obtain ⟨l, w⟩ := p
    by_cases hk : k = l
    · subst hk
      rw [own?_cons_self] at h
      cases h
      exact List.mem_cons_self ..
    · rw [own?_cons_ne hk] at h
      exact List.mem_cons_of_mem _ (ih h)

theorem mem_keys {fs : Fields} {k : JsString} : k ∈ keys fs ↔ ∃ v, (k, v) ∈ fs := by
  have hsort : k ∈ keys fs ↔ k ∈ fs.map Prod.fst := by
    simp only [keys, List.mem_append, List.mem_insertionSort, List.mem_filter]
    cases h : k.arrayIndex? <;> simp
  rw [hsort, List.mem_map]
  exact ⟨fun ⟨p, hp, hk⟩ => ⟨p.2, hk ▸ hp⟩, fun ⟨v, hv⟩ => ⟨(k, v), hv, rfl⟩⟩

theorem own?_isSome_iff {fs : Fields} {k : JsString} :
    (own? fs k).isSome = true ↔ ∃ v, (k, v) ∈ fs := by
  induction fs with
  | nil => simp [own?]
  | cons p fs ih =>
    obtain ⟨l, w⟩ := p
    rw [own?, List.lookup_cons]
    by_cases hk : k = l
    · subst hk
      simp only [BEq.rfl, Option.isSome_some, true_iff]
      exact ⟨w, List.mem_cons_self ..⟩
    · have hne : (k == l) = false := by simpa using hk
      simp only [hne]
      refine ih.trans ⟨fun ⟨v, hv⟩ => ⟨v, List.mem_cons_of_mem _ hv⟩, fun ⟨v, hv⟩ => ?_⟩
      rcases List.mem_cons.mp hv with h | h
      · exact absurd (congrArg Prod.fst h) hk
      · exact ⟨v, h⟩

theorem mem_keys_iff_own {fs : Fields} {k : JsString} :
    k ∈ keys fs ↔ ∃ v, own? fs k = some v := by
  rw [mem_keys, ← own?_isSome_iff, Option.isSome_iff_exists]

theorem mem_entries {fs : Fields} {k : JsString} {v : Json} :
    (k, v) ∈ entries fs ↔ own? fs k = some v := by
  simp only [entries, List.mem_filterMap, Option.map_eq_some_iff, Prod.mk.injEq]
  constructor
  · rintro ⟨l, -, w, hw, rfl, rfl⟩
    exact hw
  · intro h
    exact ⟨k, mem_keys_iff_own.mpr ⟨v, h⟩, v, h, rfl, rfl⟩

end Fields

/-- `Child x j`: `x` is an element of an array that is a member of the object
`j`. -/
inductive Json.Child : Json → Json → Prop where
  | member {fs k xs x} (h : Fields.own? fs k = some (.arr xs)) (hx : x ∈ xs) :
      Child x (.obj fs)

theorem Json.Child.sizeOf_lt {x j : Json} (h : Child x j) : sizeOf x < sizeOf j := by
  obtain ⟨hown, hx⟩ := h
  have hmem := Fields.mem_of_own? hown
  have h₁ := List.sizeOf_lt_of_mem hmem
  have h₂ := List.sizeOf_lt_of_mem hx
  simp only [Prod.mk.sizeOf_spec, Json.arr.sizeOf_spec, Json.obj.sizeOf_spec] at h₁ ⊢
  omega

/-- Induction on documents along `Child`. -/
theorem Json.descend {motive : Json → Prop}
    (step : ∀ j, (∀ x, Child x j → motive x) → motive j) (j : Json) : motive j :=
  step j (fun x hx =>
    have := hx.sizeOf_lt
    descend step x)
termination_by sizeOf j

/-- Whose prototype an inherited function comes from. -/
inductive Prototype where
  | object
  | array
  deriving DecidableEq, Repr

/-- What reading a member of an object can give. -/
inductive JsValue where
  | undefined
  | json (j : Json)
  /-- `Object.prototype` or `Array.prototype` itself. -/
  | prototype (p : Prototype)
  /-- A function inherited from a prototype, identified by its place. -/
  | function (p : Prototype) (name : JsString)
  deriving DecidableEq

instance : Coe Json JsValue := ⟨.json⟩

/-- The methods `Object.prototype` has. -/
def objectPrototypeMethods : List JsString :=
  ["constructor", "__defineGetter__", "__defineSetter__", "hasOwnProperty", "__lookupGetter__",
    "__lookupSetter__", "isPrototypeOf", "propertyIsEnumerable", "toString", "valueOf",
    "toLocaleString"]

/-- The methods `Array.prototype` has. -/
def arrayPrototypeMethods : List JsString :=
  ["constructor", "at", "concat", "copyWithin", "fill", "find", "findIndex", "findLast",
    "findLastIndex", "lastIndexOf", "pop", "push", "reverse", "shift", "unshift", "slice", "sort",
    "splice", "includes", "indexOf", "join", "keys", "entries", "values", "forEach", "filter",
    "flat", "flatMap", "map", "every", "some", "reduce", "reduceRight", "toReversed", "toSorted",
    "toSpliced", "toLocaleString", "toString", "with"]

namespace JsValue

/-- A member every object inherits; `proto` is what its `__proto__` reads. -/
def inheritedObject (proto : JsValue) (k : JsString) : JsValue :=
  if k = "__proto__" then proto
  else if k ∈ objectPrototypeMethods then .function .object k
  else .undefined

/-- A member every array inherits. -/
def inheritedArray (proto : JsValue) (k : JsString) : JsValue :=
  if k ∈ arrayPrototypeMethods then .function .array k else inheritedObject proto k

/-- `fs[k]` on a parsed object. -/
def getFields (fs : Fields) (k : JsString) : JsValue :=
  match Fields.own? fs k with
  | some v => .json v
  | none => inheritedObject (.prototype .object) k

/-- `value[k]` for a value whose `typeof` is `"object"`; anything else has none
of the members the program names. -/
def get : JsValue → JsString → JsValue
  | .json (.obj fs), k => getFields fs k
  | .json (.arr xs), k =>
    if k = "length" then .json (.num (.ofNat xs.length))
    else match k.arrayIndex?.bind (fun i => xs[i]?) with
      | some v => .json v
      | none => inheritedArray (.prototype .array) k
  | .prototype .array, k =>
    if k = "length" then .json (.num (.ofNat 0)) else inheritedArray (.prototype .object) k
  | .prototype .object, k => inheritedObject (.json .null) k
  | _, _ => .undefined

/-- `typeof value === "object" && value !== null`. -/
def isObject : JsValue → Bool
  | .json (.obj _) | .json (.arr _) | .prototype _ => true
  | _ => false

/-- `Object.entries(value)`: the elements of an array and the characters of a
string are entries too. -/
def entries : JsValue → Fields
  | .json (.obj fs) => Fields.entries fs
  | .json (.arr xs) => xs.zipIdx.map (fun x => (toString x.2, x.1))
  | .json (.str s) => s.units.zipIdx.map (fun u => (toString u.2, .str ⟨[u.1]⟩))
  | _ => []

/-- `a === b`.  Two arrays or two objects of separate documents never are. -/
def strictEq : JsValue → JsValue → Bool
  | .undefined, .undefined => true
  | .json .null, .json .null => true
  | .json (.bool a), .json (.bool b) => a == b
  | .json (.num a), .json (.num b) => JsNumber.eq a b
  | .json (.str a), .json (.str b) => a == b
  | .prototype a, .prototype b => a == b
  | .function p a, .function q b => p == q && a == b
  | _, _ => false

/-- The comparison `Array.prototype.includes` uses: `===`, and `NaN` with
itself. -/
def sameValueZero (a b : JsValue) : Bool :=
  strictEq a b || (a = .json (.num .nan) && b = .json (.num .nan))

/-- Whether a value counts as true in a condition. -/
def truthy : JsValue → Bool
  | .undefined | .json .null => false
  | .json (.bool b) => b
  | .json (.num n) => n ≠ .nan && n.merge ≠ JsNumber.zero
  | .json (.str s) => !s.isEmpty
  | _ => true

/-- Takes the two zeros together. -/
def merge : JsValue → JsValue
  | .json (.num n) => .json (.num n.merge)
  | v => v

theorem apply_merge {β : Type} (g : JsValue → β)
    (h : ∀ n, g (.json (.num n.merge)) = g (.json (.num n))) (a : JsValue) : g a.merge = g a := by
  unfold merge
  split
  · exact h _
  · rfl

@[simp] theorem merge_eq_undefined {a : JsValue} : a.merge = .undefined ↔ a = .undefined := by
  unfold merge
  split <;> simp

/-- Values that are `===` are the same value, up to the sign of a zero. -/
theorem merge_eq_of_strictEq {a b : JsValue} (h : strictEq a b = true) : a.merge = b.merge := by
  unfold strictEq at h
  split at h
  · rfl
  · rfl
  · rw [beq_iff_eq.mp h]
  · simp only [JsNumber.eq, ne_eq, decide_not, Bool.and_eq_true, beq_iff_eq] at h
    rw [merge, merge, h.2]
  · rw [beq_iff_eq.mp h]
  · rw [beq_iff_eq.mp h]
  · simp only [Bool.and_eq_true, beq_iff_eq] at h
    rw [h.1, h.2]
  · cases h

/-- What is `===` to a value that is not a number is that value. -/
theorem eq_of_strictEq {a b : JsValue} (hb : ∀ n, b ≠ .json (.num n))
    (h : strictEq a b = true) : a = b := by
  have hmerge := merge_eq_of_strictEq h
  have hb' : b.merge = b := by
    unfold merge
    split
    · exact absurd rfl (hb _)
    · rfl
  rw [hb'] at hmerge
  unfold merge at hmerge
  split at hmerge
  · exact absurd hmerge.symm (hb _)
  · exact hmerge

/-- Only `true` itself is `=== true`. -/
theorem strictEq_true_iff {a : JsValue} :
    strictEq a (.json (.bool true)) = true ↔ a = .json (.bool true) :=
  ⟨eq_of_strictEq (by simp), fun h => by rw [h]; rfl⟩

theorem getFields_own {fs : Fields} {k : JsString} {v : Json} (h : Fields.own? fs k = some v) :
    getFields fs k = .json v := by
  simp [getFields, h]

/-- A name that reads a document only from an object that has it itself: not an
index, and not one of the two names with a value of the language's own. -/
def Plain (k : JsString) : Prop := k.arrayIndex? = none ∧ k ≠ "length" ∧ k ≠ "__proto__"

instance (k : JsString) : Decidable (Plain k) := by
  unfold Plain; infer_instance

theorem inheritedObject_ne_json {proto : JsValue} {k : JsString} {v : Json}
    (h : k = "__proto__" → proto ≠ .json v) : inheritedObject proto k ≠ .json v := by
  unfold inheritedObject
  split
  · rename_i hk
    exact h hk
  · split <;> exact fun h => (nomatch h)

theorem inheritedArray_ne_json {proto : JsValue} {k : JsString} {v : Json}
    (h : k = "__proto__" → proto ≠ .json v) : inheritedArray proto k ≠ .json v := by
  unfold inheritedArray
  split
  · exact fun h => (nomatch h)
  · exact inheritedObject_ne_json h

/-- A member that is a document is the object's own. -/
theorem getFields_eq_json {fs : Fields} {k : JsString} {v : Json} :
    getFields fs k = .json v ↔ Fields.own? fs k = some v := by
  constructor
  · intro h
    unfold getFields at h
    split at h
    · rename_i w hw
      cases h
      exact hw
    · exact absurd h (inheritedObject_ne_json fun _ h => (nomatch h))
  · exact getFields_own

theorem get_eq_json {v : JsValue} {k : JsString} {w : Json} (hk : Plain k)
    (h : v.get k = .json w) : ∃ fs, v = .json (.obj fs) ∧ Fields.own? fs k = some w := by
  obtain ⟨hindex, hlength, hproto⟩ := hk
  cases v with
  | json j =>
    cases j with
    | obj fs => exact ⟨fs, rfl, getFields_eq_json.mp h⟩
    | arr xs =>
      rw [get, if_neg hlength, hindex, Option.bind_none] at h
      exact absurd h (inheritedArray_ne_json fun _ h => (nomatch h))
    | _ => cases h
  | prototype p =>
    cases p with
    | object => exact absurd h (inheritedObject_ne_json fun hp => absurd hp hproto)
    | array =>
      rw [get, if_neg hlength] at h
      exact absurd h (inheritedArray_ne_json fun hp => absurd hp hproto)
  | _ => cases h

end JsValue

/-! ## Expressions that can throw -/

/-- An error type that has the language's own `TypeError`: a member of `null` or
`undefined`, a call of something that is not a function, a conversion that has
no primitive. -/
class HasTypeError (ε : Type) where
  typeError : ε

/-- Errors of an expression that throws nothing but a `TypeError`. -/
inductive JsError where
  | typeError
  deriving DecidableEq, Repr

instance : HasTypeError JsError := ⟨.typeError⟩

section Throws
variable {ε : Type} [HasTypeError ε]

omit [HasTypeError ε] in
@[simp] theorem ok_bind {α β : Type} (a : α) (f : α → Except ε β) : (.ok a >>= f) = f a := rfl

omit [HasTypeError ε] in
/-- A sequence succeeds when its parts do. -/
theorem bind_eq_ok {α β : Type} {x : Except ε α} {f : α → Except ε β} {b : β} :
    (x >>= f) = .ok b ↔ ∃ a, x = .ok a ∧ f a = .ok b := by
  cases x with
  | error e => exact ⟨fun h => (nomatch h), fun ⟨_, h, _⟩ => (nomatch h)⟩
  | ok a => exact ⟨fun h => ⟨a, rfl, h⟩, fun ⟨_, h, h'⟩ => Except.ok.inj h ▸ h'⟩

omit [HasTypeError ε] in
theorem mapError_eq_ok {ε' α : Type} {x : Except ε α} {f : ε → ε'} {a : α} :
    x.mapError f = .ok a ↔ x = .ok a := by
  rcases x with e | b
  · exact ⟨fun h => (nomatch h), fun h => (nomatch h)⟩
  · exact ⟨fun h => congrArg _ (Except.ok.inj h), fun h => congrArg _ (Except.ok.inj h)⟩

omit [HasTypeError ε] in
theorem map_eq_ok {α β : Type} {x : Except ε α} {f : α → β} {b : β} :
    x.map f = .ok b ↔ ∃ a, x = .ok a ∧ f a = b := by
  cases x with
  | error e => exact ⟨fun h => (nomatch h), fun ⟨_, h, _⟩ => (nomatch h)⟩
  | ok a => exact ⟨fun h => ⟨a, rfl, Except.ok.inj h⟩, fun ⟨_, h, h'⟩ => by cases h; rw [← h']; rfl⟩

omit [HasTypeError ε] in
/-- `throw new TypeError()`. -/
def typeError {α : Type} : Except ε α := .error HasTypeError.typeError

mutual

/-- `String(value)` of a parsed document.  An object whose own `toString` hides
the inherited one has no primitive form. -/
def Json.toText : Json → Except ε JsString
  | .null => .ok "null"
  | .bool b => .ok (if b then "true" else "false")
  | .num n => .ok n.toText
  | .str s => .ok s
  | .arr xs => do
    let parts ← elementTexts xs
    return JsString.join "," parts
  | .obj fs => if Fields.has fs "toString" then typeError else .ok "[object Object]"

/-- The texts `Array.prototype.join` puts together: `null` becomes empty. -/
def elementTexts : List Json → Except ε (List JsString)
  | [] => .ok []
  | .null :: xs => do
    let rest ← elementTexts xs
    return "" :: rest
  | x :: xs => do
    let text ← x.toText
    let rest ← elementTexts xs
    return text :: rest

end

/-- `String(value)` of a member, and the value's text in a template. -/
def JsValue.toText : JsValue → Except ε JsString
  | .json j => j.toText
  | _ => .ok "undefined"

/-- `value.name`: a `TypeError` on `null` and `undefined`. -/
def JsValue.member (v : JsValue) (name : JsString) : Except ε JsValue :=
  match v with
  | .undefined | .json .null => typeError
  | v => .ok (v.get name)

/-- The member of a document that must be a document itself. -/
def JsValue.jsonMember (v : JsValue) (name : JsString) : Except ε Json := do
  match ← v.member name with
  | .json j => return j
  | _ => typeError

theorem JsValue.member_ok {v w : JsValue} {name : JsString}
    (h : v.member name = (.ok w : Except ε JsValue)) : v.get name = w := by
  unfold JsValue.member at h
  split at h
  · cases h
  · cases h
  · exact Except.ok.inj h

theorem JsValue.member_eq {j : Json} {name : JsString} (h : j ≠ .null) :
    (JsValue.json j).member name = (.ok ((JsValue.json j).get name) : Except ε JsValue) := by
  cases j with
  | null => exact absurd rfl h
  | _ => rfl

theorem JsValue.jsonMember_ok {v : JsValue} {name : JsString} {j : Json}
    (h : v.jsonMember name = (.ok j : Except ε Json)) : v.get name = .json j := by
  obtain ⟨w, hw, hj⟩ := bind_eq_ok.mp h
  split at hj
  · cases hj
    exact member_ok hw
  · cases hj

theorem JsValue.member_own {fs : Fields} {name : JsString} {j : Json}
    (h : Fields.own? fs name = some j) :
    (JsValue.json (.obj fs)).member name = (.ok (.json j) : Except ε JsValue) :=
  congrArg Except.ok (getFields_own h)

theorem JsValue.jsonMember_own {fs : Fields} {name : JsString} {j : Json}
    (h : Fields.own? fs name = some j) :
    (JsValue.json (.obj fs)).jsonMember name = (.ok j : Except ε Json) := by
  rw [jsonMember, member_own h]
  rfl

end Throws

example : (Json.toText (.arr [.arr ["a"], .null, .num (.ofNat 7)]) : Except JsError JsString) =
    .ok "a,,7" := by decide
example : JsValue.get (.json (.arr ["a"])) "length" = .json (.num (.ofNat 1)) := by decide

end Js

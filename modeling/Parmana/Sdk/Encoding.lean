import Parmana.Collections.Keyed
import Parmana.Collections.Splits
import Parmana.Sdk.Canonical

/-! # What the Python SDK sends and reads back

One recursive `encode` turns the SDK's models into the JSON of a request, and with the
names of their fields it rewrites every key of every dictionary under them: `refund_limit`
becomes `refundLimit`.  The parameters of an intent and the signals of a transaction are
dictionaries of the caller, whose keys are data.  `decode` hands a dictionary back as it
came.

So a dictionary reaches the server, and comes back, as the caller wrote it exactly when no
key in it, at any depth, has an underscore, and it holds nothing that JSON has no value for
(`encode_eq_self_iff`, `BusinessTransaction.carried_iff`).
-/
namespace Parmana.Sdk.Python
open Keyed

/-! ## Values -/

/-- A Python string, by its code points. -/
abbrev PyString := List Nat

/-- A value of a request: what JSON has, a time in microseconds, and a model, with the JSON
it was decoded from if it was decoded. -/
inductive PyValue where
  | none
  | bool (b : Bool)
  | int (i : Int)
  | float (bits : UInt64)
  | str (s : PyString)
  | datetime (t : Int)
  | list (xs : List PyValue)
  | dict (items : List (PyString × PyValue))
  | model (source : Option PyValue) (fields : List (PyString × PyValue))

/-- `value is None`. -/
def PyValue.isNone : PyValue → Bool
  | .none => true
  | _ => false

/-- The items of a dictionary, in insertion order. -/
abbrev Items := List (PyString × PyValue)

namespace Items

def keys (items : Items) : List PyString := items.map Prod.fst

/-- `items.get(key)`, of a key that is there. -/
def get? (items : Items) (key : PyString) : Option PyValue :=
  (find Prod.fst items key).map Prod.snd

/-- A dictionary comprehension: a later pair replaces an earlier one with its key. -/
def comprehend (pairs : Items) : Items := pairs.foldl (put Prod.fst) []

end Items

/-! ## Names -/

def underscore : Nat := 0x5F

/-- The functions of Python's own that the SDK rewrites names and times with.  A capital is
that of the Unicode tables, in which nothing but an underscore maps to one. -/
structure Builtins where
  capitalize : PyString → PyString
  lower : PyString → PyString
  isoformat : Int → PyString
  fromisoformat : PyString → Option Int
  capitalize_underscore : ∀ {s}, underscore ∉ s → underscore ∉ capitalize s

variable (py : Builtins)

/-- `_camel`. -/
def camel (name : PyString) : PyString :=
  match name.splitOn underscore with
  | [] => []
  | part :: parts => part ++ parts.flatMap py.capitalize

/-- `_snake`. -/
def snake (name : PyString) : PyString :=
  match name with
  | [] => py.lower []
  | c :: cs =>
    py.lower (c :: cs.flatMap fun c => if 0x41 ≤ c ∧ c ≤ 0x5A then [underscore, c] else [c])

/-! ## The encoder -/

mutual

/-- `encode`. -/
def encode : PyValue → PyValue
  | .model (some source) _ => source
  | .model none fields => .dict (Items.comprehend (encodeFields fields))
  | .dict items => .dict (Items.comprehend (encodeItems items))
  | .list xs => .list (encodeEach xs)
  | .datetime t => .str (py.isoformat t)
  | .none => .none
  | .bool b => .bool b
  | .int i => .int i
  | .float bits => .float bits
  | .str s => .str s

/-- The fields of a model that are set. -/
def encodeFields : List (PyString × PyValue) → List (PyString × PyValue)
  | [] => []
  | (name, value) :: fields =>
    if value.isNone then encodeFields fields
    else (camel py name, encode value) :: encodeFields fields

def encodeItems : List (PyString × PyValue) → List (PyString × PyValue)
  | [] => []
  | (key, item) :: items => (camel py key, encode item) :: encodeItems items

def encodeEach : List PyValue → List PyValue
  | [] => []
  | x :: xs => encode x :: encodeEach xs

end

/-! ## The decoder -/

/-- The type hint of a field. -/
inductive Hint where
  | primitive
  | dict
  | optional (hint : Hint)
  | list (hint : Hint)
  | datetime
  | enum (values : List PyString)
  | model (fields : List (PyString × Hint))

/-- `for item in value`. -/
def iterate : PyValue → Option (List PyValue)
  | .list xs => some xs
  | .dict items => some ((Items.keys items).map .str)
  | .str s => some (s.map fun c => .str [c])
  | _ => none

mutual

/-- `_decode`; `none` where it raises. -/
def decode (value : PyValue) : Hint → Option PyValue
  | .optional hint => if value.isNone then some .none else decode value hint
  | .list hint =>
    if value.isNone then some .none else do
      let items ← iterate value
      let decoded ← items.mapM fun item => decode item hint
      return .list decoded
  | .datetime =>
    match value with
    | .none => some .none
    | .datetime t => some (.datetime t)
    | .str s => (py.fromisoformat s).map .datetime
    | _ => none
  | .enum values =>
    match value with
    | .none => some .none
    | .str s => if s ∈ values then some (.str s) else none
    | _ => none
  | .model fields =>
    match value with
    | .none => some .none
    | .dict items => do
      let normalized := Items.comprehend (items.map fun item => (snake py item.1, item.2))
      let kwargs ← decodeFields normalized fields
      return .model (some value) kwargs
    | _ => none
  | .dict => some value
  | .primitive => some value

def decodeFields (normalized : Items) : List (PyString × Hint) → Option (List (PyString × PyValue))
  | [] => some []
  | (name, hint) :: fields => do
    let value ← decode ((normalized.get? name).getD .none) hint
    let rest ← decodeFields normalized fields
    return (name, value) :: rest

end

/-! ## What a caller writes -/

mutual

/-- No two items of a dictionary share a key. -/
def PyValue.Distinct : PyValue → Prop
  | .list xs => DistinctEach xs
  | .dict items => (items.map Prod.fst).Nodup ∧ DistinctItems items
  | _ => True

def DistinctEach : List PyValue → Prop
  | [] => True
  | x :: xs => x.Distinct ∧ DistinctEach xs

def DistinctItems : List (PyString × PyValue) → Prop
  | [] => True
  | (_, item) :: items => item.Distinct ∧ DistinctItems items

end

/-- A dictionary. -/
structure PyDict where
  items : Items
  distinct : (PyValue.dict items).Distinct

mutual

/-- No key has an underscore, and no value is a time or a model. -/
def PyValue.Plain : PyValue → Prop
  | .list xs => PlainEach xs
  | .dict items => PlainItems items
  | .datetime _ => False
  | .model _ _ => False
  | _ => True

def PlainEach : List PyValue → Prop
  | [] => True
  | x :: xs => x.Plain ∧ PlainEach xs

def PlainItems : List (PyString × PyValue) → Prop
  | [] => True
  | (key, item) :: items => underscore ∉ key ∧ item.Plain ∧ PlainItems items

end

/-! ## Dictionaries -/

section Dictionaries
variable {items pairs : Items} {key : PyString} {value : PyValue}

theorem keys_put {pair : PyString × PyValue} :
    Items.keys (put Prod.fst items pair) =
      if pair.1 ∈ Items.keys items then Items.keys items else Items.keys items ++ [pair.1] := by
  have hfound : (find Prod.fst items pair.1).isSome ↔ pair.1 ∈ Items.keys items := by
    simp [find, Items.keys, List.find?_isSome]
  unfold put
  by_cases h : pair.1 ∈ Items.keys items
  · rw [if_pos (hfound.mpr h), if_pos h]
    unfold Items.keys update
    rw [List.map_map]
    refine List.map_congr_left fun x _ => ?_
    by_cases hx : x.1 = pair.1
    · simp [hx]
    · simp [hx]
  · rw [if_neg (mt hfound.mp h), if_neg h]
    simp [Items.keys]

theorem mem_keys_foldl_put :
    key ∈ Items.keys (pairs.foldl (put Prod.fst) items) ↔
      key ∈ Items.keys items ∨ key ∈ Items.keys pairs := by
  induction pairs generalizing items with
  | nil => simp [Items.keys]
  | cons pair pairs ih =>
    rw [List.foldl_cons, ih, keys_put]
    by_cases h : pair.1 ∈ Items.keys items
    · rw [if_pos h]
      constructor
      · rintro (hk | hk)
        · exact .inl hk
        · exact .inr (List.mem_cons_of_mem _ hk)
      · rintro (hk | hk)
        · exact .inl hk
        · rcases List.mem_cons.mp hk with rfl | hk
          · exact .inl h
          · exact .inr hk
    · rw [if_neg h, List.mem_append, List.mem_singleton]
      have hcons : key ∈ Items.keys (pair :: pairs) ↔ key = pair.1 ∨ key ∈ Items.keys pairs :=
        List.mem_cons
      rw [hcons, or_assoc]

theorem mem_keys_comprehend :
    key ∈ Items.keys (Items.comprehend pairs) ↔ key ∈ Items.keys pairs := by
  unfold Items.comprehend
  rw [mem_keys_foldl_put]
  simp [Items.keys]

theorem foldl_put_append (hnodup : (Items.keys (items ++ pairs)).Nodup) :
    pairs.foldl (put Prod.fst) items = items ++ pairs := by
  induction pairs generalizing items with
  | nil => rw [List.foldl_nil, List.append_nil]
  | cons pair pairs ih =>
    have hput : put Prod.fst items pair = items ++ [pair] := by
      have hnot : pair.1 ∉ Items.keys items := by
        unfold Items.keys at hnodup ⊢
        rw [List.map_append, List.nodup_append] at hnodup
        exact fun h => hnodup.2.2 _ h _ List.mem_cons_self rfl
      unfold put
      rw [if_neg]
      simpa [find, Items.keys] using hnot
    rw [List.foldl_cons, hput, ih (by simpa using hnodup), List.append_assoc, List.singleton_append]

/-- A comprehension over distinct keys keeps every pair in its place. -/
theorem comprehend_eq_self (hnodup : (Items.keys pairs).Nodup) : Items.comprehend pairs = pairs :=
  foldl_put_append hnodup

/-- What a comprehension holds under a key of which every pair has one value. -/
theorem get?_comprehend (hmem : (key, value) ∈ pairs)
    (honly : ∀ pair ∈ pairs, pair.1 = key → pair.2 = value) :
    Items.get? (Items.comprehend pairs) key = some value := by
  have hfold : ∀ (pairs items : Items), (∀ pair ∈ pairs, pair.1 = key → pair.2 = value) →
      (key ∈ Items.keys pairs ∨ Items.get? items key = some value) →
      Items.get? (pairs.foldl (put Prod.fst) items) key = some value := by
    intro pairs
    induction pairs with
    | nil =>
      rintro items - (h | h)
      · simp [Items.keys] at h
      · exact h
    | cons pair pairs ih =>
      intro items honly h
      refine ih _ (fun p hp => honly p (List.mem_cons_of_mem _ hp)) ?_
      by_cases hpair : pair.1 = key
      · right
        unfold Items.get?
        rw [find_put, if_pos hpair.symm, Option.map_some, honly _ List.mem_cons_self hpair]
      · rcases h with h | h
        · rcases List.mem_cons.mp h with h | h
          · exact absurd h.symm hpair
          · exact .inl h
        · right
          unfold Items.get? at h ⊢
          rw [find_put, if_neg (Ne.symm hpair), h]
  exact hfold _ _ honly (.inl (List.mem_map_of_mem hmem))

end Dictionaries

/-! ## Names that are rewritten -/

section Names
variable {py} {name : PyString}

theorem not_mem_of_mem_splitOn {part : PyString} (h : part ∈ name.splitOn underscore) :
    underscore ∉ part := by
  rw [List.splitOn_eq_splitOnP] at h
  intro hmem
  have hcut := (Splits.of_mem_splitOnP h underscore hmem).2
  rw [beq_self_eq_true] at hcut
  cases hcut

/-- No name that `_camel` returns has an underscore. -/
theorem underscore_not_mem_camel : underscore ∉ camel py name := by
  unfold camel
  split
  · exact List.not_mem_nil
  next part parts hsplit =>
    have hparts : ∀ p ∈ part :: parts, underscore ∉ p := fun p hp =>
      not_mem_of_mem_splitOn (hsplit ▸ hp)
    rw [List.mem_append, not_or]
    refine ⟨hparts _ List.mem_cons_self, fun h => ?_⟩
    obtain ⟨p, hp, hmem⟩ := List.mem_flatMap.mp h
    exact py.capitalize_underscore (hparts p (List.mem_cons_of_mem _ hp)) hmem

theorem camel_eq_self_iff : camel py name = name ↔ underscore ∉ name := by
  constructor
  · intro h
    rw [← h]
    exact underscore_not_mem_camel
  · intro h
    unfold camel
    rw [List.splitOn_eq_singleton h]
    exact List.append_nil _

end Names

/-! ## Dictionaries that are kept -/

section Kept
variable {py}

theorem keys_encodeItems (items : Items) :
    Items.keys (encodeItems py items) = (Items.keys items).map (camel py) := by
  induction items with
  | nil => rfl
  | cons item items ih =>
    unfold encodeItems
    exact congrArg (camel py item.1 :: ·) ih

/-- Encoded items are the items themselves only if no key has an underscore. -/
theorem keys_of_comprehend_encodeItems {items : Items}
    (h : Items.comprehend (encodeItems py items) = items) :
    ∀ key ∈ Items.keys items, underscore ∉ key := by
  intro key hkey
  rw [← h, mem_keys_comprehend, keys_encodeItems] at hkey
  obtain ⟨name, -, rfl⟩ := List.mem_map.mp hkey
  exact underscore_not_mem_camel

theorem map_camel_eq_self {keys : List PyString} (h : ∀ key ∈ keys, underscore ∉ key) :
    keys.map (camel py) = keys := by
  induction keys with
  | nil => rfl
  | cons key keys ih =>
    rw [List.map_cons, camel_eq_self_iff.mpr (h key List.mem_cons_self),
      ih fun k hk => h k (List.mem_cons_of_mem _ hk)]

theorem PlainItems.keys {items : Items} (h : PlainItems items) :
    ∀ key ∈ Items.keys items, underscore ∉ key := by
  induction items with
  | nil => exact fun _ hk => absurd hk List.not_mem_nil
  | cons item items ih =>
    obtain ⟨hkey, -, hrest⟩ := h
    intro key hk
    rcases List.mem_cons.mp hk with rfl | hk
    · exact hkey
    · exact ih hrest key hk

mutual

/-- **A value is encoded as itself exactly when no key in it has an underscore, and there is
no time and no model in it.** -/
theorem encode_eq_self_iff : ∀ {value : PyValue}, value.Distinct →
    (encode py value = value ↔ value.Plain)
  | .none, _ | .bool _, _ | .int _, _ | .float _, _ | .str _, _ => iff_of_true rfl trivial
  | .datetime _, _ => by
    refine iff_of_false (fun h => ?_) id
    unfold encode at h
    cases h
  | .model none fields, _ => by
    refine iff_of_false (fun h => ?_) id
    unfold encode at h
    cases h
  | .model (some source) fields, _ => by
    refine iff_of_false (fun h => ?_) id
    unfold encode at h
    have hsize := congrArg sizeOf h
    simp at hsize
    omega
  | .list xs, hdistinct => by
    unfold encode
    rw [PyValue.list.injEq, encodeEach_eq_self_iff hdistinct]
    rfl
  | .dict items, hdistinct => by
    obtain ⟨hnodup, hitems⟩ := hdistinct
    unfold encode
    rw [PyValue.dict.injEq]
    have hself : (∀ key ∈ Items.keys items, underscore ∉ key) →
        Items.comprehend (encodeItems py items) = encodeItems py items := by
      intro hkeys
      refine comprehend_eq_self ?_
      rw [keys_encodeItems, map_camel_eq_self hkeys]
      exact hnodup
    constructor
    · intro h
      have hkeys := keys_of_comprehend_encodeItems h
      rw [hself hkeys] at h
      exact (encodeItems_eq_self_iff hitems).mp h
    · intro hplain
      rw [hself (PlainItems.keys hplain)]
      exact (encodeItems_eq_self_iff hitems).mpr hplain

theorem encodeEach_eq_self_iff : ∀ {xs : List PyValue}, DistinctEach xs →
    (encodeEach py xs = xs ↔ PlainEach xs)
  | [], _ => iff_of_true rfl trivial
  | x :: xs, ⟨hx, hxs⟩ => by
    unfold encodeEach PlainEach
    rw [List.cons.injEq, encode_eq_self_iff hx, encodeEach_eq_self_iff hxs]

theorem encodeItems_eq_self_iff : ∀ {items : List (PyString × PyValue)}, DistinctItems items →
    (encodeItems py items = items ↔ PlainItems items)
  | [], _ => iff_of_true rfl trivial
  | (key, item) :: items, ⟨hitem, hitems⟩ => by
    unfold encodeItems PlainItems
    rw [List.cons.injEq, Prod.mk.injEq, camel_eq_self_iff, encode_eq_self_iff hitem,
      encodeItems_eq_self_iff hitems, and_assoc]

end

end Kept

/-! ## A transaction of a caller -/

/-- `Intent`. -/
structure Intent where
  intent_id : PyString
  authorization_id : PyString
  action : PyString
  target : PyString
  parameters : PyDict
  created_at : Int

/-- `BusinessTransaction`; the models that hold no dictionary of the caller are values. -/
structure BusinessTransaction where
  business_transaction_id : PyString
  metadata : PyValue
  authority : PyValue
  authorization : PyValue
  intent : Intent
  policy : PyValue
  signals : PyDict
  status : PyString
  created_at : Int

/-- An intent, built from its fields. -/
def Intent.toModel (self : Intent) : PyValue := .model none
  [(codePoints "intent_id", .str self.intent_id),
    (codePoints "authorization_id", .str self.authorization_id),
    (codePoints "action", .str self.action), (codePoints "target", .str self.target),
    (codePoints "parameters", .dict self.parameters.items),
    (codePoints "created_at", .datetime self.created_at)]

/-- A transaction, built from its fields. -/
def BusinessTransaction.toModel (self : BusinessTransaction) : PyValue := .model none
  [(codePoints "business_transaction_id", .str self.business_transaction_id),
    (codePoints "metadata", self.metadata), (codePoints "authority", self.authority),
    (codePoints "authorization", self.authorization), (codePoints "intent", self.intent.toModel),
    (codePoints "policy", self.policy), (codePoints "signals", .dict self.signals.items),
    (codePoints "status", .str self.status), (codePoints "created_at", .datetime self.created_at)]

/-- A response in which a dictionary that was sent stands under a field of a model that is a
dictionary is decoded with the caller's dictionary there. -/
def PyDict.ReadBack (self : PyDict) : Prop :=
  ∀ (response : Items) (fields : List (PyString × Hint)) (name : PyString) (model : PyValue),
    (fields.map Prod.fst).Nodup → (name, Hint.dict) ∈ fields →
    Items.get? (Items.comprehend (response.map fun item => (snake py item.1, item.2))) name =
      some (encode py (.dict self.items)) →
    decode py (.dict response) (.model fields) = some model →
    ∃ kwargs, model = .model (some (.dict response)) kwargs ∧
      Items.get? kwargs name = some (.dict self.items)

/-- The request holds the caller's parameters and signals as they were written, and both are
read back so from a response that echoes them. -/
def BusinessTransaction.Carried (self : BusinessTransaction) : Prop :=
  (∃ body intent, encode py self.toModel = .dict body ∧
    Items.get? body (codePoints "intent") = some (.dict intent) ∧
    Items.get? intent (codePoints "parameters") = some (.dict self.intent.parameters.items) ∧
    Items.get? body (codePoints "signals") = some (.dict self.signals.items)) ∧
  self.intent.parameters.ReadBack py ∧ self.signals.ReadBack py

section Carried
variable {py}

theorem mem_encodeFields {fields : Items} {pair : PyString × PyValue} :
    pair ∈ encodeFields py fields ↔ ∃ name value, (name, value) ∈ fields ∧
      value.isNone = false ∧ pair = (camel py name, encode py value) := by
  induction fields with
  | nil => simp [encodeFields]
  | cons field fields ih =>
    obtain ⟨name, value⟩ := field
    have hcons : encodeFields py ((name, value) :: fields) = if value.isNone then
        encodeFields py fields else (camel py name, encode py value) :: encodeFields py fields := by
      rw [encodeFields]
    rw [hcons]
    by_cases hnone : value.isNone
    · rw [if_pos hnone, ih]
      constructor
      · rintro ⟨n, v, hmem, hv, rfl⟩
        exact ⟨n, v, List.mem_cons_of_mem _ hmem, hv, rfl⟩
      · rintro ⟨n, v, hmem, hv, rfl⟩
        rcases List.mem_cons.mp hmem with heq | hmem
        · cases heq
          rw [hnone] at hv
          cases hv
        · exact ⟨n, v, hmem, hv, rfl⟩
    · rw [if_neg hnone, List.mem_cons, ih]
      constructor
      · rintro (rfl | ⟨n, v, hmem, hv, rfl⟩)
        · exact ⟨name, value, List.mem_cons_self, Bool.eq_false_iff.mpr hnone, rfl⟩
        · exact ⟨n, v, List.mem_cons_of_mem _ hmem, hv, rfl⟩
      · rintro ⟨n, v, hmem, hv, rfl⟩
        rcases List.mem_cons.mp hmem with heq | hmem
        · cases heq
          exact .inl rfl
        · exact .inr ⟨n, v, hmem, hv, rfl⟩

/-- What the JSON of a model holds under a name that no other field is written under. -/
theorem get?_encodeFields {fields : Items} {name : PyString} {value : PyValue}
    (hmem : (name, value) ∈ fields) (hset : value.isNone = false)
    (honly : ∀ field ∈ fields, camel py field.1 = camel py name → field.2 = value) :
    Items.get? (Items.comprehend (encodeFields py fields)) (camel py name) =
      some (encode py value) := by
  refine get?_comprehend (mem_encodeFields.mpr ⟨name, value, hmem, hset, rfl⟩) ?_
  intro pair hpair hname
  obtain ⟨n, v, hfield, -, rfl⟩ := mem_encodeFields.mp hpair
  exact congrArg (encode py) (honly (n, v) hfield hname)

theorem camel_cons {c : Nat} {name : PyString} (hc : c ≠ underscore) :
    camel py (c :: name) = c :: camel py name := by
  unfold camel
  rw [List.splitOn_cons_eq_if_modifyHead, if_neg (by simpa using hc)]
  cases hsplit : name.splitOn underscore with
  | nil => exact absurd hsplit (List.splitOn_ne_nil _ _)
  | cons part parts => rfl

/-- Names are kept apart by their first two letters. -/
theorem take_two_of_camel_eq {c d c' d' : Nat} {name name' : PyString}
    (h : camel py (c :: d :: name) = camel py (c' :: d' :: name'))
    (hletters : ∀ letter ∈ [c, d, c', d'], letter ≠ underscore) :
    [c, d] = [c', d'] := by
  rw [camel_cons (hletters c (by simp)), camel_cons (hletters d (by simp)),
    camel_cons (hletters c' (by simp)), camel_cons (hletters d' (by simp))] at h
  injection h with hc h
  injection h with hd h
  rw [hc, hd]

theorem Intent.encode_toModel (intent : Intent) : ∃ items,
    encode py intent.toModel = .dict items ∧ Items.get? items (codePoints "parameters") =
      some (encode py (.dict intent.parameters.items)) := by
  refine ⟨_, rfl, @get?_encodeFields py _ (codePoints "parameters") _ (by simp) rfl ?_⟩
  intro field hfield hname
  simp only [List.mem_cons, List.not_mem_nil, or_false] at hfield
  rcases hfield with rfl | rfl | rfl | rfl | rfl | rfl
  case inr.inr.inr.inr.inl => rfl
  all_goals exact absurd (take_two_of_camel_eq hname (by decide)) (by decide)

theorem BusinessTransaction.encode_toModel (transaction : BusinessTransaction) : ∃ items,
    encode py transaction.toModel = .dict items ∧
      Items.get? items (codePoints "intent") = some (encode py transaction.intent.toModel) ∧
      Items.get? items (codePoints "signals") =
        some (encode py (.dict transaction.signals.items)) := by
  refine ⟨_, rfl, @get?_encodeFields py _ (codePoints "intent") _ (by simp) rfl ?_,
    @get?_encodeFields py _ (codePoints "signals") _ (by simp) rfl ?_⟩
  · intro field hfield hname
    simp only [List.mem_cons, List.not_mem_nil, or_false] at hfield
    rcases hfield with rfl | rfl | rfl | rfl | rfl | rfl | rfl | rfl | rfl
    case inr.inr.inr.inr.inl => rfl
    all_goals exact absurd (take_two_of_camel_eq hname (by decide)) (by decide)
  · intro field hfield hname
    simp only [List.mem_cons, List.not_mem_nil, or_false] at hfield
    rcases hfield with rfl | rfl | rfl | rfl | rfl | rfl | rfl | rfl | rfl
    case inr.inr.inr.inr.inr.inr.inl => rfl
    all_goals exact absurd (take_two_of_camel_eq hname (by decide)) (by decide)

theorem get?_decodeFields {normalized kwargs : Items} {fields : List (PyString × Hint)}
    {name : PyString} (hnodup : (fields.map Prod.fst).Nodup) (hmem : (name, Hint.dict) ∈ fields)
    (h : decodeFields py normalized fields = some kwargs) :
    Items.get? kwargs name = some ((Items.get? normalized name).getD .none) := by
  induction fields generalizing kwargs with
  | nil => exact absurd hmem List.not_mem_nil
  | cons field fields ih =>
    obtain ⟨n, hint⟩ := field
    unfold decodeFields at h
    obtain ⟨value, hvalue, h⟩ := Option.bind_eq_some_iff.mp h
    obtain ⟨rest, hrest, h⟩ := Option.bind_eq_some_iff.mp h
    cases h
    rw [List.map_cons, List.nodup_cons] at hnodup
    rcases List.mem_cons.mp hmem with heq | hmem
    · cases heq
      unfold decode at hvalue
      cases hvalue
      simp [Items.get?, find]
    · have hne : n ≠ name := by
        rintro rfl
        exact hnodup.1 (List.mem_map.mpr ⟨_, hmem, rfl⟩)
      have hskip : Items.get? ((n, value) :: rest) name = Items.get? rest name := by
        simp [Items.get?, find, hne]
      rw [hskip]
      exact ih hnodup.2 hmem hrest

/-- A dictionary is read back from where it stands as it is there. -/
theorem PyDict.readBack_of_encode {dict : PyDict}
    (h : encode py (.dict dict.items) = .dict dict.items) : dict.ReadBack py := by
  intro response fields name model hnodup hmem hsent hdecode
  unfold decode at hdecode
  obtain ⟨kwargs, hkwargs, hmodel⟩ := Option.bind_eq_some_iff.mp hdecode
  cases hmodel
  refine ⟨kwargs, rfl, ?_⟩
  rw [get?_decodeFields hnodup hmem hkwargs, hsent, h]
  rfl

/-- What the request holds are the encoded dictionaries. -/
theorem BusinessTransaction.encode_of_carried {transaction : BusinessTransaction}
    (h : transaction.Carried py) :
    encode py (.dict transaction.intent.parameters.items) =
        .dict transaction.intent.parameters.items ∧
      encode py (.dict transaction.signals.items) = .dict transaction.signals.items := by
  obtain ⟨body, hbody, hintent, hsignals⟩ := @encode_toModel py transaction
  obtain ⟨intent, hencoded, hparameters⟩ := @Intent.encode_toModel py transaction.intent
  obtain ⟨⟨body', intent', hbody', hintent', hparameters', hsignals'⟩, -⟩ := h
  rw [hbody] at hbody'
  cases hbody'
  rw [hintent, hencoded] at hintent'
  cases hintent'
  rw [hparameters] at hparameters'
  rw [hsignals] at hsignals'
  exact ⟨Option.some.inj hparameters', Option.some.inj hsignals'⟩

end Carried

/-- **The parameters and the signals of a transaction are carried exactly when neither has a
key with an underscore, at any depth, or a time or a model for a value.** -/
theorem BusinessTransaction.carried_iff (transaction : BusinessTransaction) :
    transaction.Carried py ↔ (PyValue.dict transaction.intent.parameters.items).Plain ∧
      (PyValue.dict transaction.signals.items).Plain := by
  rw [← @encode_eq_self_iff py _ transaction.intent.parameters.distinct,
    ← @encode_eq_self_iff py _ transaction.signals.distinct]
  refine ⟨encode_of_carried, fun ⟨hp, hs⟩ => ?_⟩
  obtain ⟨body, hbody, hintent, hsignals⟩ := @encode_toModel py transaction
  obtain ⟨intent, hencoded, hparameters⟩ := @Intent.encode_toModel py transaction.intent
  refine ⟨⟨body, intent, hbody, hintent.trans (congrArg some hencoded), ?_, ?_⟩,
    PyDict.readBack_of_encode hp, PyDict.readBack_of_encode hs⟩
  · rw [hparameters, hp]
  · rw [hsignals, hs]

/-! ## An order -/

namespace Order

/-- The functions as they are on ASCII text. -/
def ascii : Builtins where
  capitalize
    | [] => []
    | c :: cs => (if 0x61 ≤ c ∧ c ≤ 0x7A then c - 0x20 else c) ::
        cs.map fun c => if 0x41 ≤ c ∧ c ≤ 0x5A then c + 0x20 else c
  lower s := s.map fun c => if 0x41 ≤ c ∧ c ≤ 0x5A then c + 0x20 else c
  isoformat _ := codePoints "2026-09-22T10:26:40.000Z"
  fromisoformat _ := some 1790072800000000
  capitalize_underscore := by
    intro s h
    cases s with
    | nil => exact List.not_mem_nil
    | cons c cs =>
      rw [List.mem_cons, not_or] at h ⊢
      unfold underscore at h ⊢
      refine ⟨by split <;> omega, fun hmem => ?_⟩
      obtain ⟨d, hd, hmap⟩ := List.mem_map.mp hmem
      split at hmap
      · omega
      · exact h.2 (hmap ▸ hd)

/-- The order under two spellings, as a caller of two systems might send it. -/
def parameters : PyDict where
  items := [(codePoints "order_id", .int 7), (codePoints "orderId", .int 8)]
  distinct := ⟨by decide, trivial, trivial, trivial⟩

def transaction : BusinessTransaction where
  business_transaction_id := codePoints "tx-1"
  metadata := .model none []
  authority := .model none []
  authorization := .model none []
  intent := ⟨codePoints "intent-1", codePoints "authz-1", codePoints "refund",
    codePoints "order-7", parameters, 1790072800000000⟩
  policy := .model none []
  signals := ⟨[], List.nodup_nil, trivial⟩
  status := codePoints "RECEIVED"
  created_at := 1790072800000000

end Order

/-- The order that was sent is not the one the caller wrote: of its two spellings one is
left, with the value of the other lost. -/
theorem order_id_lost :
    encode Order.ascii (.dict Order.parameters.items) = .dict [(codePoints "orderId", .int 8)] ∧
      ¬ ∀ (py : Builtins) (transaction : BusinessTransaction), transaction.Carried py := by
  refine ⟨rfl, fun h => ?_⟩
  have hparameters := (encode_eq_self_iff Order.parameters.distinct).mp
    (BusinessTransaction.encode_of_carried (h Order.ascii Order.transaction)).1
  exact hparameters.1 (by decide)

end Parmana.Sdk.Python

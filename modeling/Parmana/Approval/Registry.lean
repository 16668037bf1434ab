import Parmana.Approval.Verifier
import Parmana.Collections.Keyed
import Mathlib.Data.List.Induction

/-! # The registry of approval issuers

`StaticApprovalIssuerRegistry` keeps the issuers it is given in a map from one string,
the approver and the key joined by a colon.  The colon is not kept out of either, so the
string may be read as another pair: exactly when no identifier has one, and no two
issuers have the same pair, an answer is always the issuer that was asked for
(`StaticApprovalIssuerRegistry.exact_iff`).

The list in code is checked for repeated pairs when the server starts, under a label of
its own with another separator, which refuses more than it has to but no less
(`buildApprovalIssuerRegistry_pairs`).
-/
namespace Parmana.Approval
open Js

/-- `TrustedApprovalIssuer`. -/
structure TrustedApprovalIssuer (Key : Type) where
  approverId : JsString
  keyId : JsString
  publicKey : Key
  revoked : Bool

variable {Key : Type}

namespace TrustedApprovalIssuer

/-- What is resolved of an issuer. -/
def resolved (issuer : TrustedApprovalIssuer Key) : ResolvedApprovalIssuer Key where
  publicKey := issuer.publicKey
  revoked := issuer.revoked

/-- Whether the issuer has exactly this pair. -/
def Has (issuer : TrustedApprovalIssuer Key) (approverId keyId : JsString) : Prop :=
  issuer.approverId = approverId ∧ issuer.keyId = keyId

end TrustedApprovalIssuer

/-! ## The registry -/

namespace StaticApprovalIssuerRegistry

/-- `StaticApprovalIssuerRegistry.key`. -/
def key (approverId keyId : JsString) : JsString := approverId ++ (":" : JsString) ++ keyId

/-- The slot of an issuer. -/
def slot (issuer : TrustedApprovalIssuer Key) : JsString := key issuer.approverId issuer.keyId

/-- The map the constructor fills. -/
def issuers (listed : List (TrustedApprovalIssuer Key)) : List (TrustedApprovalIssuer Key) :=
  listed.foldl (Keyed.put slot) []

/-- `resolve`. -/
def resolve (listed : List (TrustedApprovalIssuer Key)) (approverId keyId : JsString) :
    Option (ResolvedApprovalIssuer Key) :=
  (Keyed.find slot (issuers listed) (key approverId keyId)).map TrustedApprovalIssuer.resolved

/-! ## Slots -/

/-- The unit of a colon. -/
def COLON : UInt16 := 0x3A

theorem key_units (approverId keyId : JsString) :
    (key approverId keyId).units = approverId.units ++ COLON :: keyId.units := by
  show approverId.units ++ [0x3A] ++ keyId.units = _
  rw [List.append_assoc, List.singleton_append]
  rfl

/-- Without a colon in the identifiers, a key says what pair it is of. -/
theorem key_inj {a k a' k' : JsString} (ha : COLON ∉ a.units) (ha' : COLON ∉ a'.units) :
    key a k = key a' k' ↔ a = a' ∧ k = k' := by
  constructor
  · intro h
    have hunits : a.units ++ COLON :: k.units = a'.units ++ COLON :: k'.units := by
      rw [← key_units, ← key_units, h]
    have hsplit := congrArg (List.takeWhile (· ≠ COLON)) hunits
    have htake : ∀ {xs ys : List UInt16}, COLON ∉ xs →
        (xs ++ COLON :: ys).takeWhile (· ≠ COLON) = xs := by
      intro xs ys hxs
      have hkeep : ∀ x ∈ xs, decide (x ≠ COLON) = true :=
        fun x hx => decide_eq_true fun he => hxs (he ▸ hx)
      rw [List.takeWhile_append_of_pos hkeep]
      simp
    rw [htake ha, htake ha'] at hsplit
    rw [hsplit, List.append_cancel_left_eq, List.cons.injEq] at hunits
    obtain ⟨a⟩ := a
    obtain ⟨k⟩ := k
    obtain ⟨a'⟩ := a'
    obtain ⟨k'⟩ := k'
    exact ⟨congrArg _ hsplit, congrArg _ hunits.2⟩
  · rintro ⟨rfl, rfl⟩
    rfl

/-- A key whose identifiers have a second colon is a key of another pair. -/
theorem other_pair {a k : JsString} (h : COLON ∈ a.units ∨ COLON ∈ k.units) :
    ∃ a' k', key a' k' = key a k ∧ ¬ (a' = a ∧ k' = k) := by
  have heq : ∀ {s t : JsString}, s.units = t.units → s = t := by
    rintro ⟨s⟩ ⟨t⟩ hst
    exact congrArg _ hst
  rcases h with h | h
  · obtain ⟨x, y, hxy⟩ := List.append_of_mem h
    refine ⟨⟨x⟩, ⟨y ++ COLON :: k.units⟩, heq ?_, ?_⟩
    · rw [key_units, key_units, hxy, List.append_assoc, List.cons_append]
    · rintro ⟨ha, -⟩
      have hlength := congrArg List.length ((congrArg JsString.units ha).trans hxy)
      simp at hlength
  · obtain ⟨x, y, hxy⟩ := List.append_of_mem h
    refine ⟨⟨a.units ++ COLON :: x⟩, ⟨y⟩, heq ?_, ?_⟩
    · rw [key_units, key_units, hxy, List.append_assoc, List.cons_append]
    · rintro ⟨ha, -⟩
      have hlength := congrArg List.length (congrArg JsString.units ha)
      simp at hlength

/-- A slot holds the last issuer listed for it. -/
theorem find_issuers (listed : List (TrustedApprovalIssuer Key)) (k : JsString) :
    Keyed.find slot (issuers listed) k = Keyed.find slot listed.reverse k := by
  unfold issuers
  induction listed using List.reverseRecOn with
  | nil => rfl
  | append_singleton listed issuer ih =>
    rw [List.foldl_append, List.foldl_cons, List.foldl_nil, Keyed.find_put, ih,
      List.reverse_append, List.reverse_singleton, List.singleton_append]
    unfold Keyed.find
    rw [List.find?_cons]
    by_cases hk : k = slot issuer
    · subst hk
      simp
    · rw [if_neg hk, decide_eq_false (Ne.symm hk)]

/-- An issuer that is listed has its slot filled, with a listed issuer of that slot. -/
theorem find_of_mem {listed : List (TrustedApprovalIssuer Key)} {issuer : TrustedApprovalIssuer Key}
    (h : issuer ∈ listed) : ∃ found ∈ listed, slot found = slot issuer ∧
      Keyed.find slot (issuers listed) (slot issuer) = some found := by
  have hsome : (Keyed.find slot listed.reverse (slot issuer)).isSome = true := by
    unfold Keyed.find
    rw [List.find?_isSome]
    exact ⟨issuer, List.mem_reverse.mpr h, decide_eq_true rfl⟩
  obtain ⟨found, hfound⟩ := Option.isSome_iff_exists.mp hsome
  refine ⟨found, List.mem_reverse.mp (Keyed.mem_of_find hfound), Keyed.key_of_find hfound, ?_⟩
  rw [find_issuers, hfound]

/-! ## The issuer that was asked for -/

/-- An answer is always the listed issuer of exactly that pair, and no two issuers share a
slot. -/
structure Exact (listed : List (TrustedApprovalIssuer Key)) : Prop where
  resolves : ∀ approverId keyId answer, resolve listed approverId keyId = some answer →
    ∃ issuer ∈ listed, issuer.Has approverId keyId ∧ answer = issuer.resolved
  slots : ∀ issuer ∈ listed, ∀ other ∈ listed, slot issuer = slot other → issuer = other

/-- No identifier has a colon, and an issuer is known by its pair. -/
structure Unambiguous (listed : List (TrustedApprovalIssuer Key)) : Prop where
  noColon : ∀ issuer ∈ listed, COLON ∉ issuer.approverId.units ∧ COLON ∉ issuer.keyId.units
  pairs : ∀ issuer ∈ listed, ∀ other ∈ listed,
    issuer.Has other.approverId other.keyId → issuer = other

theorem exact_of_unambiguous {listed : List (TrustedApprovalIssuer Key)} (h : Unambiguous listed) :
    Exact listed := by
  have hpair : ∀ {issuer approverId keyId}, issuer ∈ listed →
      slot issuer = key approverId keyId → COLON ∉ approverId.units ∧ COLON ∉ keyId.units →
      issuer.Has approverId keyId :=
    fun hmem hslot hfree => (key_inj (h.noColon _ hmem).1 hfree.1).mp hslot
  constructor
  · intro approverId keyId answer hanswer
    obtain ⟨issuer, hfound, rfl⟩ := Option.map_eq_some_iff.mp hanswer
    rw [find_issuers] at hfound
    have hmem := List.mem_reverse.mp (Keyed.mem_of_find hfound)
    have hslot := Keyed.key_of_find hfound
    refine ⟨issuer, hmem, hpair hmem hslot ?_, rfl⟩
    -- the key has one colon, so the pair asked for has none
    by_contra hcolon
    have hcount := congrArg (List.count COLON) (congrArg JsString.units hslot)
    have hzero : ∀ {us : List UInt16}, COLON ∉ us → us.count COLON = 0 :=
      List.count_eq_zero_of_not_mem
    unfold slot at hcount
    rw [key_units, key_units, List.count_append, List.count_append, List.count_cons_self,
      List.count_cons_self, hzero (h.noColon _ hmem).1, hzero (h.noColon _ hmem).2] at hcount
    rw [not_and_or, not_not, not_not] at hcolon
    rcases hcolon with hcolon | hcolon
    · have := List.count_pos_iff.mpr hcolon
      omega
    · have := List.count_pos_iff.mpr hcolon
      omega
  · intro issuer hissuer other hother hslot
    exact h.pairs issuer hissuer other hother (hpair hissuer hslot (h.noColon _ hother))

theorem unambiguous_of_exact {listed : List (TrustedApprovalIssuer Key)} (h : Exact listed) :
    Unambiguous listed := by
  constructor
  · intro issuer hissuer
    by_contra hcolon
    rw [not_and_or, not_not, not_not] at hcolon
    obtain ⟨approverId, keyId, hkey, hother⟩ := other_pair hcolon
    obtain ⟨found, -, -, hfound⟩ := find_of_mem hissuer
    have hanswer : resolve listed approverId keyId = some found.resolved := by
      unfold resolve
      rw [hkey]
      exact congrArg (Option.map TrustedApprovalIssuer.resolved) hfound
    obtain ⟨named, hnamed, ⟨ha, hk⟩, -⟩ := h.resolves approverId keyId _ hanswer
    -- the issuer of that other pair shares the slot
    have hslot : slot named = slot issuer := by
      unfold slot
      rw [ha, hk, hkey]
    rw [h.slots named hnamed issuer hissuer hslot] at ha hk
    exact hother ⟨ha.symm, hk.symm⟩
  · rintro issuer hissuer other hother ⟨ha, hk⟩
    refine h.slots issuer hissuer other hother ?_
    unfold slot
    rw [ha, hk]

/-- **The registry answers with the issuer that was asked for exactly when no identifier
has a colon and an issuer is known by its pair.** -/
theorem exact_iff (listed : List (TrustedApprovalIssuer Key)) :
    Exact listed ↔ Unambiguous listed :=
  ⟨unambiguous_of_exact, exact_of_unambiguous⟩

/-- Two issuers, of the approver `a:b` with the key `c` and of the approver `a` with the
key `d`. -/
def twoIssuers : List (TrustedApprovalIssuer Nat) :=
  [⟨"a:b", "c", 1, false⟩, ⟨"a", "d", 2, false⟩]

/-- The approver `a` with the key `b:c` is not listed, and is resolved. -/
theorem unlisted_resolved :
    resolve twoIssuers "a" "b:c" = some ⟨1, false⟩ ∧
      ∀ issuer ∈ twoIssuers, ¬ issuer.Has "a" "b:c" := by
  refine ⟨rfl, ?_⟩
  simp only [twoIssuers, List.forall_mem_cons, TrustedApprovalIssuer.Has]
  decide

end StaticApprovalIssuerRegistry

/-! ## The list in code -/

/-- `ConfiguredApprovalIssuer`. -/
structure ConfiguredApprovalIssuer where
  approverId : JsString
  keyId : JsString
  revoked : Bool
  publicKeyPem : Option JsString

namespace ConfiguredApprovalIssuer

def label (entry : ConfiguredApprovalIssuer) : JsString :=
  entry.approverId ++ ("__" : JsString) ++ entry.keyId

section
variable (readPublicKey : JsString → Except JsString JsString)
  (createPublicKey : JsString → Except JsString (JsString × Key))

/-- The key of the entry, or of the file under its label, which is there or is missing at
a path. -/
def pem (entry : ConfiguredApprovalIssuer) : Except JsString JsString :=
  match entry.publicKeyPem with
  | some pem => .ok pem
  | none =>
    match readPublicKey (entry.label ++ (".public.pem" : JsString)) with
    | .ok pem => .ok pem
    | .error publicKeyPath =>
      .error (("Approval issuer public key not found: " : JsString) ++ publicKeyPath ++
        (". Provision it, or put it in the entry as publicKeyPem, before starting -- " ++
          "no key is generated automatically." : String))

/-- One entry, its label not seen before: its key read and checked. -/
def toIssuer (entry : ConfiguredApprovalIssuer) : Except JsString (TrustedApprovalIssuer Key) := do
  let pem ← entry.pem readPublicKey
  let (asymmetricKeyType, publicKey) ← (createPublicKey pem).mapError fun message =>
    ("Approval issuer " : JsString) ++ entry.approverId ++ (" key " : JsString) ++ entry.keyId ++
      (": the public key is not a valid PEM public key (" : JsString) ++ message ++
      (")." : JsString)
  if asymmetricKeyType ≠ "ed25519" then
    throw (("Approval issuer " : JsString) ++ entry.approverId ++ (" key " : JsString) ++
      entry.keyId ++ (": the public key is " : JsString) ++ asymmetricKeyType ++
      (", but approval keys must be Ed25519." : JsString))
  return ⟨entry.approverId, entry.keyId, publicKey, entry.revoked⟩

/-- `buildApprovalIssuerRegistry` after the labels in `seen`. -/
def build (seen : List JsString) :
    List ConfiguredApprovalIssuer → Except JsString (List (TrustedApprovalIssuer Key))
  | [] => return []
  | entry :: entries => do
    if entry.label ∈ seen then
      throw (("Approval issuer " : JsString) ++ entry.approverId ++ (" with key " : JsString) ++
        entry.keyId ++ (" is listed twice." : JsString))
    let issuer ← entry.toIssuer readPublicKey createPublicKey
    let issuers ← build (entry.label :: seen) entries
    return issuer :: issuers

end

end ConfiguredApprovalIssuer

/-- `buildApprovalIssuerRegistry`: what the registry is constructed with. -/
def buildApprovalIssuerRegistry (readPublicKey : JsString → Except JsString JsString)
    (createPublicKey : JsString → Except JsString (JsString × Key))
    (entries : List ConfiguredApprovalIssuer) :
    Except JsString (List (TrustedApprovalIssuer Key)) :=
  ConfiguredApprovalIssuer.build readPublicKey createPublicKey [] entries

/-- The label an issuer was listed under. -/
def TrustedApprovalIssuer.label (issuer : TrustedApprovalIssuer Key) : JsString :=
  issuer.approverId ++ ("__" : JsString) ++ issuer.keyId

section
variable {readPublicKey : JsString → Except JsString JsString}
  {createPublicKey : JsString → Except JsString (JsString × Key)}

theorem ConfiguredApprovalIssuer.label_of_toIssuer {entry : ConfiguredApprovalIssuer}
    {issuer : TrustedApprovalIssuer Key}
    (h : entry.toIssuer readPublicKey createPublicKey = .ok issuer) :
    issuer.label = entry.label := by
  unfold ConfiguredApprovalIssuer.toIssuer at h
  obtain ⟨pem, -, h⟩ := bind_eq_ok.mp h
  obtain ⟨⟨asymmetricKeyType, publicKey⟩, -, h⟩ := bind_eq_ok.mp h
  dsimp only at h
  split at h
  · cases h
  · cases h
    rfl

/-- The labels of what is built are new, each once. -/
theorem ConfiguredApprovalIssuer.labels_of_build :
    ∀ {entries : List ConfiguredApprovalIssuer} {seen : List JsString}
      {issuers : List (TrustedApprovalIssuer Key)},
      build readPublicKey createPublicKey seen entries = .ok issuers →
      (issuers.map TrustedApprovalIssuer.label).Nodup ∧
        ∀ issuer ∈ issuers, issuer.label ∉ seen
  | [], _, _, h => by
    cases h
    exact ⟨List.nodup_nil, fun _ h => absurd h (List.not_mem_nil)⟩
  | entry :: entries, seen, issuers, h => by
    unfold build at h
    split at h
    · cases h
    · rename_i hnew
      obtain ⟨issuer, hissuer, h⟩ := bind_eq_ok.mp h
      obtain ⟨rest, hrest, h⟩ := bind_eq_ok.mp h
      cases h
      obtain ⟨hnodup, hunseen⟩ := labels_of_build hrest
      have hlabel := label_of_toIssuer hissuer
      constructor
      · rw [List.map_cons, List.nodup_cons]
        refine ⟨fun hmem => ?_, hnodup⟩
        obtain ⟨other, hother, he⟩ := List.mem_map.mp hmem
        refine hunseen other hother ?_
        rw [he, hlabel]
        exact List.mem_cons_self
      · intro other hother
        rcases List.mem_cons.mp hother with rfl | hother
        · rw [hlabel]
          exact hnew
        · exact fun hseen => hunseen other hother (List.mem_cons_of_mem _ hseen)

/-- **No pair is listed twice**: a list the server starts with has one issuer for each
pair. -/
theorem buildApprovalIssuerRegistry_pairs {entries : List ConfiguredApprovalIssuer}
    {issuers : List (TrustedApprovalIssuer Key)}
    (h : buildApprovalIssuerRegistry readPublicKey createPublicKey entries = .ok issuers) :
    ∀ issuer ∈ issuers, ∀ other ∈ issuers,
      issuer.Has other.approverId other.keyId → issuer = other := by
  rintro issuer hissuer other hother ⟨ha, hk⟩
  have hlabel : issuer.label = other.label := by
    unfold TrustedApprovalIssuer.label
    rw [ha, hk]
  exact List.inj_on_of_nodup_map (ConfiguredApprovalIssuer.labels_of_build h).1 hissuer hother
    hlabel

end

end Parmana.Approval

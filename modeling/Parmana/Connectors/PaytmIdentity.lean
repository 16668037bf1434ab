import Parmana.Connectors.PaytmRefund

/-! # The identity of a Paytm refund

A refund is identified by its order, its transaction and the reference that its caller may
give.  The `refId` that Paytm knows it by is a digest of a text of the three, which is made
in two ways: with a reference it is the JSON text of an array, without one the order and the
transaction are joined by a colon.

Two JSON texts are one only for one refund.  A joined text can be cut at another colon, it
has lost which lone surrogates were in it, and it can be spelled like a JSON text: **two
refunds share a `refId` exactly when they are the same or are confused in one of these
ways** (`refId_identifies_iff`).  The order `a:b` with the transaction `c` is one refund
with the order `a` and the transaction `b:c` (`refId_shared`).
-/
namespace Parmana.Connectors
open Js

/-- What a refund is identified by. -/
structure RefundIdentity where
  orderId : JsString
  transactionId : JsString
  refundReference : Option JsString
  deriving DecidableEq

namespace RefundIdentity

/-- The `refId` of a refund that the adapter accepts. -/
def Accepted (sha256 : List UInt8 → JsString) (identity : RefundIdentity) (refId : JsString) :
    Prop :=
  ∃ connectorId parameters refund,
    GatewayPaytmAdapter.refund sha256 connectorId parameters = .ok refund ∧
      parameters.own? "orderId" = some (.str identity.orderId) ∧
      parameters.own? "transactionId" = some (.str identity.transactionId) ∧
      parameters.own? "refundReference" = identity.refundReference.map Json.str ∧
      refund.refId = refId

/-- The bytes that are hashed. -/
def seed (identity : RefundIdentity) : List UInt8 :=
  (paytmRefIdSeed identity.orderId identity.transactionId identity.refundReference).encode

/-- The digest, as far as it is used, is different for different bytes. -/
def CollisionFree (sha256 : List UInt8 → JsString) (a b : RefundIdentity) : Prop :=
  Set.InjOn (fun bytes => (sha256 bytes).units.take 24) {a.seed, b.seed}

/-! ## Texts as characters -/

/-- The characters of a text: a lone surrogate is read as `U+FFFD`. -/
def chars (s : JsString) : List Char := JsString.scalars s.units

/-- The text of a refund with a reference, as JSON. -/
def referenceText (orderId transactionId refundReference : JsString) : JsString :=
  Json.stringify (.arr [.str "paytm-refund-ref:v2", .str orderId, .str transactionId,
    .str refundReference])

/-- The order of `a` is the one of `b` with a colon and a beginning of the transaction of
`b`, and its transaction is the rest. -/
def CutLater (a b : RefundIdentity) : Prop :=
  ∃ moved, chars a.orderId = chars b.orderId ++ ':' :: moved ∧
    chars b.transactionId = moved ++ ':' :: chars a.transactionId

/-- The order and the transaction differ in lone surrogates only. -/
def SameChars (a b : RefundIdentity) : Prop :=
  chars a.orderId = chars b.orderId ∧ chars a.transactionId = chars b.transactionId

/-- Order, colon and transaction spell a text. -/
def Spells (a : RefundIdentity) (text : JsString) : Prop :=
  chars a.orderId ++ ':' :: chars a.transactionId = chars text

/-- Two refunds that are taken for one although they are not. -/
def Confused (a b : RefundIdentity) : Prop :=
  match a.refundReference, b.refundReference with
  | none, none => CutLater a b ∨ CutLater b a ∨ SameChars a b
  | none, some reference => Spells a (referenceText b.orderId b.transactionId reference)
  | some reference, none => Spells b (referenceText a.orderId a.transactionId reference)
  | some _, some _ => False

theorem encode_eq_iff {s t : JsString} : s.encode = t.encode ↔ chars s = chars t :=
  ⟨JsString.utf8_injective, congrArg JsString.utf8⟩

theorem chars_joined (s t : JsString) :
    chars (s ++ (":" : JsString) ++ t) = chars s ++ ':' :: chars t := by
  have hcolon : ∀ us, JsString.scalars (0x3A :: us) = ':' :: JsString.scalars us :=
    JsString.scalars_cons (by decide)
  show JsString.scalars ((s.units ++ [0x3A]) ++ t.units) = _
  rw [List.append_assoc]
  show JsString.scalars (s.units ++ 0x3A :: t.units) = _
  rw [JsString.scalars_append (by simp; decide), hcolon]
  rfl

/-- Two texts that are joined by a colon are one only where they are cut at two colons. -/
theorem joined_eq_iff {X Y X' Y' : List Char} : X ++ ':' :: Y = X' ++ ':' :: Y' ↔
    (∃ M, X = X' ++ ':' :: M ∧ Y' = M ++ ':' :: Y) ∨
      (∃ M, X' = X ++ ':' :: M ∧ Y = M ++ ':' :: Y') ∨ (X = X' ∧ Y = Y') := by
  rw [List.append_eq_append_iff]
  constructor
  · rintro (⟨M, rfl, h⟩ | ⟨M, rfl, h⟩)
    · cases M with
      | nil => exact .inr (.inr ⟨(List.append_nil X).symm, (List.cons.inj h).2⟩)
      | cons c M =>
        obtain ⟨rfl, hrest⟩ := List.cons.inj h
        exact .inr (.inl ⟨M, rfl, hrest⟩)
    · cases M with
      | nil => exact .inr (.inr ⟨List.append_nil X', (List.cons.inj h).2.symm⟩)
      | cons c M =>
        obtain ⟨rfl, hrest⟩ := List.cons.inj h
        exact .inl ⟨M, rfl, hrest⟩
  · rintro (⟨M, rfl, rfl⟩ | ⟨M, rfl, rfl⟩ | ⟨rfl, rfl⟩)
    · exact .inr ⟨':' :: M, rfl, rfl⟩
    · exact .inl ⟨':' :: M, rfl, rfl⟩
    · exact .inl ⟨[], (List.append_nil X).symm, rfl⟩

/-! ## When two texts are one -/

theorem referenceText_injective {o t r o' t' r' : JsString}
    (h : chars (referenceText o t r) = chars (referenceText o' t' r')) :
    o = o' ∧ t = t' ∧ r = r' := by
  have htext : referenceText o t r = referenceText o' t' r' :=
    JsString.encode_injective (Crypto.paired_stringify _) (Crypto.paired_stringify _)
      (encode_eq_iff.mpr h)
  have hread : ∀ o t r : JsString, Json.parse (referenceText o t r) =
      some (.arr [.str "paytm-refund-ref:v2", .str o, .str t, .str r]) :=
    fun o t r => Json.parse_stringify rfl
  have hparse := congrArg Json.parse htext
  rw [hread, hread] at hparse
  simpa using hparse

theorem seed_eq_iff {a b : RefundIdentity} : a.seed = b.seed ↔ a = b ∨ Confused a b := by
  obtain ⟨o, t, reference⟩ := a
  obtain ⟨o', t', reference'⟩ := b
  unfold seed
  rw [encode_eq_iff]
  cases reference with
  | none =>
    cases reference' with
    | none =>
      show chars (o ++ (":" : JsString) ++ t) = chars (o' ++ (":" : JsString) ++ t') ↔ _
      rw [chars_joined, chars_joined, joined_eq_iff]
      constructor
      · exact fun h => .inr h
      · rintro (h | h)
        · cases h
          exact .inr (.inr ⟨rfl, rfl⟩)
        · exact h
    | some r' =>
      show chars (o ++ (":" : JsString) ++ t) = chars (referenceText o' t' r') ↔ _
      rw [chars_joined]
      exact ⟨.inr, fun h => h.resolve_left (by simp)⟩
  | some r =>
    cases reference' with
    | none =>
      show chars (referenceText o t r) = chars (o' ++ (":" : JsString) ++ t') ↔ _
      rw [chars_joined]
      exact ⟨fun h => .inr h.symm, fun h => (h.resolve_left (by simp)).symm⟩
    | some r' =>
      show chars (referenceText o t r) = chars (referenceText o' t' r') ↔ _
      constructor
      · intro h
        obtain ⟨rfl, rfl, rfl⟩ := referenceText_injective h
        exact .inl rfl
      · rintro (h | h)
        · cases h
          rfl
        · exact h.elim

/-! ## When two refunds share a `refId` -/

theorem requireString_str {text found field : JsString}
    (h : requireString (some (.str text)) field = .ok found) : found = text := by
  unfold requireString at h
  dsimp only at h
  by_cases hlength : text.length = 0
  · rw [if_pos hlength] at h
    cases h
  · rw [if_neg hlength] at h
    exact (Except.ok.inj h).symm

theorem optionalBoundedString_str {text : Option JsString} {field : JsString} {maxLength : Nat}
    {found : Option JsString}
    (h : optionalBoundedString (text.map Json.str) field maxLength = .ok found) :
    found = text := by
  cases text with
  | none => exact (Except.ok.inj h).symm
  | some text =>
    unfold optionalBoundedString at h
    dsimp only [Option.map_some] at h
    by_cases hlength : text.trim.length = 0 ∨ maxLength < text.length
    · rw [if_pos hlength] at h
      cases h
    · rw [if_neg hlength] at h
      exact (Except.ok.inj h).symm

/-- **The `refId` of a refund that is accepted is the one of its identity.** -/
theorem refId_of_accepted {sha256 : List UInt8 → JsString} {identity : RefundIdentity}
    {refId : JsString} (h : Accepted sha256 identity refId) :
    refId = deriveDeterministicPaytmRefId sha256 identity.orderId identity.transactionId
      identity.refundReference := by
  obtain ⟨connectorId, parameters, refund, hrefund, horder, htxn, hreference, rfl⟩ := h
  unfold GatewayPaytmAdapter.refund at hrefund
  rw [horder, htxn, hreference] at hrefund
  obtain ⟨-, -, hrefund⟩ := bind_eq_ok.mp hrefund
  obtain ⟨orderId, horderId, hrefund⟩ := bind_eq_ok.mp hrefund
  obtain ⟨txnId, htxnId, hrefund⟩ := bind_eq_ok.mp hrefund
  obtain ⟨amount, -, hrefund⟩ := bind_eq_ok.mp hrefund
  obtain ⟨reference, href, hrefund⟩ := bind_eq_ok.mp hrefund
  obtain ⟨refundReason, -, hrefund⟩ := bind_eq_ok.mp hrefund
  cases hrefund
  rw [requireString_str horderId, requireString_str htxnId, optionalBoundedString_str href]

theorem refId_eq_iff {sha256 : List UInt8 → JsString} {a b : RefundIdentity}
    {refId refId' : JsString}
    (ha : Accepted sha256 a refId) (hb : Accepted sha256 b refId')
    (hfree : CollisionFree sha256 a b) : refId = refId' ↔ a.seed = b.seed := by
  rw [refId_of_accepted ha, refId_of_accepted hb]
  constructor
  · intro h
    refine hfree (Set.mem_insert _ _) (Set.mem_insert_of_mem _ rfl) ?_
    have hunits := congrArg JsString.units h
    exact List.append_cancel_left hunits
  · intro h
    unfold deriveDeterministicPaytmRefId
    unfold seed at h
    rw [h]

/-- **When two refunds are told apart by their `refId`**: when they are the same, or are not
confused. -/
theorem refId_identifies_iff {sha256 : List UInt8 → JsString} {a b : RefundIdentity}
    {refId refId' : JsString} (ha : Accepted sha256 a refId) (hb : Accepted sha256 b refId')
    (hfree : CollisionFree sha256 a b) :
    (refId = refId' ↔ a = b) ↔ (a = b ∨ ¬ Confused a b) := by
  rw [refId_eq_iff ha hb hfree, seed_eq_iff]
  tauto

/-! ### Two pairs of refunds -/

namespace Sample

/-- A refund of an order and a transaction, without a reference. -/
def plain (orderId transactionId : JsString) : RefundIdentity := ⟨orderId, transactionId, none⟩

/-- The same with a reference. -/
def referenced : RefundIdentity := ⟨"O1", "T1", some "R1"⟩

/-- The SHA-256 digests of the texts `O1:T1` and `a:b:c`, and of the JSON text. -/
def digests (bytes : List UInt8) : JsString :=
  if bytes = ("O1:T1" : JsString).encode then
    "638510efb63482dbdb5d17374e1344ef41f99acec1ea989555e6d8a73de02dec"
  else if bytes = ("a:b:c" : JsString).encode then
    "b0ee04f880c4ff4261479e2e7822b7410aee4c7159f4185ad5b0d88a312b495e"
  else "114a01b35e3aa5df4a64269ecc3b342fb61da21a2f99730ebad1cd278aa09eaf"

theorem plain_accepted : Accepted digests (plain "O1" "T1")
    "refid_638510efb63482dbdb5d1737" :=
  ⟨"paytm", [("orderId", .str "O1"), ("transactionId", .str "T1"), ("amount", .num (.ofNat 1))],
    ⟨"O1", "T1", .ofNat 1, none, "refid_638510efb63482dbdb5d1737"⟩,
    by decide, rfl, rfl, rfl, rfl⟩

theorem referenced_accepted : Accepted digests referenced "refid_114a01b35e3aa5df4a64269e" :=
  ⟨"paytm", [("orderId", .str "O1"), ("transactionId", .str "T1"), ("amount", .num (.ofNat 1)),
      ("refundReference", .str "R1")],
    ⟨"O1", "T1", .ofNat 1, none, "refid_114a01b35e3aa5df4a64269e"⟩,
    by decide, rfl, rfl, rfl, rfl⟩

theorem cut_accepted {orderId transactionId : JsString}
    (h : GatewayPaytmAdapter.refund digests "paytm" [("orderId", .str orderId),
      ("transactionId", .str transactionId), ("amount", .num (.ofNat 1))] =
        .ok ⟨orderId, transactionId, .ofNat 1, none, "refid_b0ee04f880c4ff4261479e2e"⟩) :
    Accepted digests (plain orderId transactionId) "refid_b0ee04f880c4ff4261479e2e" :=
  ⟨"paytm", _, _, h, rfl, rfl, rfl, rfl⟩

end Sample

/-- A refund with a reference and one without are told apart. -/
theorem refId_identifies_sample :
    (("refid_638510efb63482dbdb5d1737" : JsString) = "refid_114a01b35e3aa5df4a64269e" ↔
      Sample.plain "O1" "T1" = Sample.referenced) ↔
        (Sample.plain "O1" "T1" = Sample.referenced ∨
          ¬ Confused (Sample.plain "O1" "T1") Sample.referenced) := by
  refine refId_identifies_iff Sample.plain_accepted Sample.referenced_accepted ?_
  have hne : ((Sample.digests (Sample.plain "O1" "T1").seed).units.take 24) ≠
      (Sample.digests Sample.referenced.seed).units.take 24 := by decide
  rintro x (rfl | rfl) y (rfl | rfl) h
  · rfl
  · exact absurd h hne
  · exact absurd h.symm hne
  · rfl

/-- **Two refunds with one `refId`**: the order `a:b` with the transaction `c`, and the order
`a` with the transaction `b:c`. -/
theorem refId_shared : ¬ ∀ sha256 a b refId refId', Accepted sha256 a refId →
    Accepted sha256 b refId' → CollisionFree sha256 a b → (refId = refId' ↔ a = b) := by
  intro hall
  have hseed : (Sample.plain "a:b" "c").seed = (Sample.plain "a" "b:c").seed := by decide
  have hfree : CollisionFree Sample.digests (Sample.plain "a:b" "c") (Sample.plain "a" "b:c") := by
    unfold CollisionFree
    rw [hseed]
    rintro x (rfl | rfl) y (rfl | rfl) -
    · rfl
    · rfl
    · rfl
    · rfl
  have heq := (hall _ _ _ _ _ (Sample.cut_accepted (by decide))
    (Sample.cut_accepted (by decide)) hfree).mp rfl
  exact absurd heq (by decide)

end RefundIdentity
end Parmana.Connectors

import Parmana.Connectors.ExternalRelease
import Parmana.Interaction.Program
import Parmana.Js.Order
import Parmana.Sdk.OfflineVerifier

/-! # The release an endpoint receives

An external endpoint gets `{ release, signature }` as JSON and decides with
`verifyParmanaRelease` whether to act on it.  The checks are of the shape, of the
signature over the canonical bytes, of the audience and of the expiry, and all of them
are made before the endpoint is asked whether it executed the transaction already
(`Verified`).

Signing and verifying are two programs with a canonicalizer each, and between them the
document becomes a text and is read back.  What is accepted under a signature is the
canonical document it was made over, at the endpoint it was made for, until it expires
(`verifyParmanaRelease_accepts`).  Canonical bytes write a number that is too large for a
double as `null`, and no comparison with `NaN` holds, so a `null` may be replaced by such
a number, and a clock skew of `NaN` seconds makes a release last for ever
(`release_altered_and_expired`).  Nothing else goes wrong: the law says exactly when a
presented document is decided as it should be.
-/
namespace Parmana.Sdk.Typescript
open Js Crypto Connectors Interaction Interaction.Program

def DEFAULT_RELEASE_CLOCK_SKEW_SECONDS : Nat := 30

/-! ## The program -/

structure VerifyParmanaReleaseOptions where
  /-- Key ID to PEM public key. -/
  publicKeys : Fields
  audience : JsString
  /-- The time of the given date, or of the clock without one. -/
  now : Option Int
  clockSkewSeconds : Option JsNumber

inductive ParmanaReleaseVerification where
  | valid (release : Json) (alreadyExecuted : Bool)
  | invalid (errors : List JsString)

/-- The endpoint's own record of what it executed. -/
inductive ReleaseCall where
  | isAlreadyExecuted (businessTransactionId : JsValue)

abbrev ReleaseCall.Answer : ReleaseCall → Type
  | .isAlreadyExecuted _ => Bool

/-- The members of a value for which `isObject` holds. -/
def object? : JsValue → Option Fields
  | .json (.obj fs) => some fs
  | _ => none

def isArray : JsValue → Bool
  | .json (.arr _) => true
  | _ => false

/-- The text of a value whose `typeof` is `"string"`. -/
def string? : JsValue → Option JsString
  | .json (.str s) => some s
  | _ => none

/-- `value ?? null`. -/
def orNull : JsValue → JsValue
  | .undefined => .json .null
  | value => value

/-- One error when a check fails. -/
def errorUnless (check : Bool) (message : JsString) : List JsString :=
  if check then [] else [message]

/-- The members of a release that are strings. -/
def RELEASE_STRINGS : List JsString :=
  ["connectorId", "audience", "businessTransactionId", "authorizationId", "capability", "target",
    "issuedAt", "expiresAt"]

def shapeErrors (release : Fields) : List JsString :=
  errorUnless ((JsValue.getFields release "version").strictEq (.json (.num (.ofNat 1))))
      "release.version is not 1" ++
    RELEASE_STRINGS.flatMap (fun field =>
      errorUnless (string? (JsValue.getFields release field)).isSome
        (("release." : JsString) ++ field ++ (" is not a string" : JsString))) ++
    errorUnless (object? (JsValue.getFields release "parameters")).isSome
      "release.parameters is not an object" ++
    errorUnless (object? (JsValue.getFields release "policy")).isSome
      "release.policy is not an object" ++
    errorUnless (isArray (JsValue.getFields release "approvedBy"))
      "release.approvedBy is not an array"

section
variable (ed : Ed25519) (sha512 : List UInt8 → List UInt8)
  (createPublicKey : JsValue → Except JsString (KeyObject ed.PublicKey))
  (dateParse : JsString → Option Int) (options : VerifyParmanaReleaseOptions)

def signatureVerifies (publicKeyPem : JsValue) (signature message : List UInt8) :
    Except JsString Bool := do
  let publicKey ← createPublicKey publicKeyPem
  if publicKey.asymmetricKeyType ≠ "ed25519" then
    throw ("the public key for signature.keyId is not an Ed25519 key" : JsString)
  if ed.verify publicKey.key message signature then
    return true
  -- above the limit a release is signed as a commitment by KMS
  if message.length ≤ KMS_RAW_MESSAGE_LIMIT_BYTES then
    return false
  return ed.verify publicKey.key (COMMITMENT_PREFIX ++ sha512 message) signature

def signatureErrors (release signature : Fields) : List JsString :=
  let algorithm := JsValue.getFields signature "algorithm"
  if !algorithm.strictEq (.json (.str "ed25519")) then
    [("signature.algorithm " : JsString) ++ (orNull algorithm).stringify ++
      (" is not supported; only ed25519 is" : JsString)]
  else
    match string? (JsValue.getFields signature "keyId"),
      string? (JsValue.getFields signature "value") with
    | some keyId, some value =>
      match JsValue.getFields options.publicKeys keyId with
      | .undefined => [("no public key supplied for keyId " : JsString) ++ keyId]
      | publicKeyPem =>
        match signatureVerifies ed sha512 createPublicKey publicKeyPem
            (Base64.decode (JsString.scalars value.units))
            (canonicalSerialize (.obj release)) with
        | .ok valid => errorUnless valid "the signature does not verify"
        | .error message => [("the signature could not be checked: " : JsString) ++ message]
    | _, _ => ["signature.keyId or signature.value is not a string"]

def audienceErrors (release : Fields) : List JsString :=
  let audience := JsValue.getFields release "audience"
  errorUnless (audience.strictEq (.json (.str options.audience)))
    (("release.audience " : JsString) ++ (orNull audience).stringify ++
      (" is not this endpoint (" : JsString) ++ options.audience ++ (")" : JsString))

/-- `(options.clockSkewSeconds ?? DEFAULT_RELEASE_CLOCK_SKEW_SECONDS) * 1000`. -/
def VerifyParmanaReleaseOptions.skewMs : JsNumber :=
  (options.clockSkewSeconds.getD (.ofNat DEFAULT_RELEASE_CLOCK_SKEW_SECONDS)).mulNat 1000

def expiryErrors (release : Fields) : List JsString :=
  match string? (JsValue.getFields release "expiresAt") with
  | none => ["release.expiresAt is not a date"]
  | some text =>
    match dateParse text with
    | none => ["release.expiresAt is not a date"]
    | some expiry =>
      errorUnless (!((JsNumber.ofInt expiry).add options.skewMs).lt (timeNumber options.now))
        (("the release expired at " : JsString) ++ text)

/-- Every failed check, in order. -/
def releaseErrors (release signature : Fields) : List JsString :=
  shapeErrors release ++
    signatureErrors ed sha512 createPublicKey options release signature ++
    audienceErrors options release ++ expiryErrors dateParse options release

/-- The release and the signature of a body. -/
def releaseParts? (body : Json) : Option (Fields × Fields) := do
  let members ← object? (.json body)
  let release ← object? (JsValue.getFields members "release")
  let signature ← object? (JsValue.getFields members "signature")
  return (release, signature)

/-- `verifyParmanaRelease`. -/
def verifyParmanaRelease {ε : Type} (body : Json) :
    Program ReleaseCall ReleaseCall.Answer ε ParmanaReleaseVerification :=
  match releaseParts? body with
  | none => return .invalid ["the body is not \x7b release, signature \x7d"]
  | some (release, signature) =>
    let errors := releaseErrors ed sha512 createPublicKey dateParse options release signature
    if errors.isEmpty then do
      let alreadyExecuted ← Program.perform
        (.isAlreadyExecuted (JsValue.getFields release "businessTransactionId"))
      return .valid (.obj release) alreadyExecuted
    else return .invalid errors

/-- The endpoint may act: some run accepts. -/
def Accepts (body : Json) : Prop :=
  ∃ (ε : Type) (t : List (Event ReleaseCall ReleaseCall.Answer ε)) (release : Json)
    (alreadyExecuted : Bool),
    Runs (verifyParmanaRelease ed sha512 createPublicKey dateParse options body) t
      (.ok (.valid release alreadyExecuted))

end

/-! ## Canonical members -/

section Canonical
variable {fs gs : Fields} {j v : Json} {k : JsString}

/-- Objects of one canonical document have the same members. -/
theorem member_of_canon (hf : (fs.map Prod.fst).Nodup)
    (h : (Json.obj fs).canon = (Json.obj gs).canon) (hv : Fields.own? gs k = some v) :
    ∃ w, Fields.own? fs k = some w ∧ w.canon = v.canon := by
  rw [Json.canon_obj, Json.canon_obj, Json.obj.injEq] at h
  have hnames : ((Members.mapValues Json.canon fs).map Prod.fst).Nodup := by
    rw [Members.mapValues_names]
    exact hf
  have hperm := (Members.sortByName_eq_iff hnames).mp h
  have hmem : (k, v.canon) ∈ Members.mapValues Json.canon gs :=
    List.mem_map.mpr ⟨(k, v), Members.mem_of_lookup hv, rfl⟩
  obtain ⟨⟨l, w⟩, hw, he⟩ := List.mem_map.mp (hperm.mem_iff.mpr hmem)
  obtain rfl : l = k := congrArg Prod.fst he
  exact ⟨w, Members.lookup_of_mem hf hw, congrArg Prod.snd he⟩

theorem eq_of_canon_str {s : JsString} (h : j.canon = .str s) : j = .str s := by
  cases j with
  | str t => exact h
  | num n =>
    rw [Json.canon_num] at h
    split at h <;> cases h
  | arr xs =>
    rw [Json.canon_arr] at h
    cases h
  | obj fs =>
    rw [Json.canon_obj] at h
    cases h
  | null => cases h
  | bool b => cases h

theorem obj_of_canon (h : j.canon = (Json.obj gs).canon) : ∃ fs, j = .obj fs := by
  rw [Json.canon_obj] at h
  cases j with
  | obj fs => exact ⟨fs, rfl⟩
  | num n =>
    rw [Json.canon_num] at h
    split at h <;> cases h
  | arr xs =>
    rw [Json.canon_arr] at h
    cases h
  | null => cases h
  | bool b => cases h
  | str s => cases h

theorem arr_of_canon {ys : List Json} (h : j.canon = (Json.arr ys).canon) : ∃ xs, j = .arr xs := by
  rw [Json.canon_arr] at h
  cases j with
  | arr xs => exact ⟨xs, rfl⟩
  | num n =>
    rw [Json.canon_num] at h
    split at h <;> cases h
  | obj fs =>
    rw [Json.canon_obj] at h
    cases h
  | null => cases h
  | bool b => cases h
  | str s => cases h

theorem num_of_canon {n : JsNumber} (hn : n.isFinite = true) (h : j.canon = (Json.num n).canon) :
    ∃ m : JsNumber, j = .num m ∧ m.eq n = true := by
  rw [Json.canon_num, if_pos hn] at h
  cases j with
  | num m =>
    rw [Json.canon_num] at h
    split at h
    · rename_i hm
      cases m with
      | nan => cases hm
      | _ =>
        refine ⟨_, rfl, ?_⟩
        unfold JsNumber.eq
        rw [Json.num.inj h]
        simp
    · cases h
  | arr xs =>
    rw [Json.canon_arr] at h
    cases h
  | obj fs =>
    rw [Json.canon_obj] at h
    cases h
  | null => cases h
  | bool b => cases h
  | str s => cases h

/-- A string member of a document is a member of every document with the same canonical
form. -/
theorem string_of_canon {s : JsString} (hf : (fs.map Prod.fst).Nodup)
    (h : (Json.obj fs).canon = (Json.obj gs).canon)
    (hs : Fields.own? gs k = some (.str s)) : JsValue.getFields fs k = .json (.str s) := by
  obtain ⟨w, hw, hcanon⟩ := member_of_canon hf h hs
  rw [JsValue.getFields_own hw, eq_of_canon_str hcanon]

/-- Canonical bytes say which canonical document they are of. -/
theorem canonicalSerialize_inj {j l : Json} (hj : j.distinct = true) (hl : l.distinct = true) :
    canonicalSerialize j = canonicalSerialize l ↔ j.canon = l.canon := by
  unfold canonicalSerialize normalize
  rw [← Json.sorted_stringify_iff hj hl]
  constructor
  · intro hbytes
    rw [Json.stringify_eq, Json.stringify_eq] at hbytes ⊢
    exact JsString.encode_injective (Json.paired_render _) (Json.paired_render _) hbytes
  · exact congrArg JsString.encode

end Canonical

/-! ## The checks -/

theorem errorUnless_eq_nil {check : Bool} {message : JsString} :
    errorUnless check message = [] ↔ check = true := by
  cases check with
  | true => exact ⟨fun _ => rfl, fun _ => rfl⟩
  | false => exact ⟨fun h => absurd h (List.cons_ne_nil _ _), fun h => absurd h Bool.false_ne_true⟩

section Checks
variable {ed : Ed25519} {sha512 : List UInt8 → List UInt8}
  {createPublicKey : JsValue → Except JsString (KeyObject ed.PublicKey)}
  {dateParse : JsString → Option Int} {options : VerifyParmanaReleaseOptions}
  {publicKey : ed.PublicKey} {pem : JsValue} {release signature : Fields}

/-- The signature of a message or of its commitment verifies, as it does on the server. -/
theorem signatureVerifies_eq (hread : createPublicKey pem = .ok ⟨NODE_KEY_TYPE, publicKey⟩)
    (bytes message : List UInt8) :
    signatureVerifies ed sha512 createPublicKey pem bytes message =
      .ok (acceptsForm ed sha512 publicKey message bytes) := by
  have hverify : signatureVerifies ed sha512 createPublicKey pem bytes message =
      if ed.verify publicKey message bytes = true then Except.ok true
      else if message.length ≤ 4096 then .ok false
      else .ok (ed.verify publicKey (commitmentMessage sha512 message) bytes) := by
    unfold signatureVerifies
    rw [hread]
    rfl
  rw [hverify]
  unfold acceptsForm
  by_cases hraw : ed.verify publicKey message bytes = true
  · rw [if_pos hraw, hraw, Bool.true_or]
  · rw [if_neg hraw, Bool.eq_false_of_not_eq_true hraw, Bool.false_or]
    by_cases hlimit : message.length ≤ 4096
    · have hsmall : requiresCommitment message = false := decide_eq_false (Nat.not_lt.mpr hlimit)
      rw [if_pos hlimit, hsmall, Bool.false_and]
    · have hlarge : requiresCommitment message = true := decide_eq_true (Nat.lt_of_not_le hlimit)
      rw [if_neg hlimit, hlarge, Bool.true_and]

/-- With a key that is read, the signature has no error when the canonical bytes have it. -/
theorem signatureErrors_eq_nil {keyId : JsString} {text : List Char}
    (halgorithm : JsValue.getFields signature "algorithm" = .json (.str "ed25519"))
    (hkeyId : JsValue.getFields signature "keyId" = .json (.str keyId))
    (hvalue : JsValue.getFields signature "value" = .json (.str ⟨text.flatMap utf16⟩))
    (hpem : JsValue.getFields options.publicKeys keyId = pem) (hfound : pem ≠ .undefined)
    (hread : createPublicKey pem = .ok ⟨NODE_KEY_TYPE, publicKey⟩) :
    signatureErrors ed sha512 createPublicKey options release signature = [] ↔
      acceptsForm ed sha512 publicKey (canonicalSerialize (.obj release))
        (Base64.decode text) = true := by
  have hsupported : (JsValue.getFields signature "algorithm").strictEq (.json (.str "ed25519")) =
      true := by
    rw [halgorithm]
    decide
  unfold signatureErrors
  dsimp only
  rw [hsupported, Bool.not_true, if_neg Bool.false_ne_true, hkeyId, hvalue]
  simp only [string?, hpem, JsString.scalars_utf16, signatureVerifies_eq hread]
  exact errorUnless_eq_nil

theorem audienceErrors_eq_nil {audience : JsString}
    (h : JsValue.getFields release "audience" = .json (.str audience)) :
    audienceErrors options release = [] ↔ options.audience = audience := by
  unfold audienceErrors
  rw [h, errorUnless_eq_nil]
  exact beq_iff_eq.trans eq_comm

theorem expiryErrors_eq_nil {text : JsString} {expiry : Int}
    (h : JsValue.getFields release "expiresAt" = .json (.str text))
    (hparsed : dateParse text = some expiry) :
    expiryErrors dateParse options release = [] ↔
      ((JsNumber.ofInt expiry).add options.skewMs).lt (timeNumber options.now) = false := by
  unfold expiryErrors
  rw [h]
  simp only [string?, hparsed]
  rw [errorUnless_eq_nil, Bool.not_eq_true']

/-- A document of the same canonical form as a release has its shape. -/
theorem shapeErrors_of_canon {sent : ExternalRelease}
    (hrelease : (Json.obj release).distinct = true)
    (h : (Json.obj release).canon = sent.toJson.canon) : shapeErrors release = [] := by
  rw [Json.distinct, Bool.and_eq_true, decide_eq_true_eq] at hrelease
  have hmember : ∀ {k : JsString} {v : Json}, Fields.own? sent.fields k = some v →
      ∃ w, JsValue.getFields release k = .json w ∧ w.canon = v.canon := by
    intro k v hv
    obtain ⟨w, hw, hcanon⟩ := member_of_canon hrelease.1 h hv
    exact ⟨w, JsValue.getFields_own hw, hcanon⟩
  have hstring : ∀ {k : JsString} {s : JsString}, Fields.own? sent.fields k = some (.str s) →
      (string? (JsValue.getFields release k)).isSome = true := by
    intro k s hs
    rw [string_of_canon hrelease.1 h hs]
    rfl
  have hversion : (JsValue.getFields release "version").strictEq (.json (.num (.ofNat 1))) =
      true := by
    obtain ⟨w, hw, hcanon⟩ := hmember (k := "version") rfl
    obtain ⟨m, rfl, hm⟩ := num_of_canon (by decide) hcanon
    rw [hw]
    exact hm
  have hstrings : ∀ field ∈ RELEASE_STRINGS, ∃ s, Fields.own? sent.fields field = some (.str s) := by
    intro field hfield
    unfold RELEASE_STRINGS at hfield
    simp only [List.mem_cons, List.not_mem_nil, or_false] at hfield
    rcases hfield with rfl | rfl | rfl | rfl | rfl | rfl | rfl | rfl <;> exact ⟨_, rfl⟩
  have hparameters : (object? (JsValue.getFields release "parameters")).isSome = true := by
    obtain ⟨w, hw, hcanon⟩ := hmember (k := "parameters") rfl
    obtain ⟨fs, rfl⟩ := obj_of_canon hcanon
    rw [hw]
    rfl
  have hpolicy : (object? (JsValue.getFields release "policy")).isSome = true := by
    obtain ⟨w, hw, hcanon⟩ := hmember (k := "policy") rfl
    have hobj : ∃ gs, sent.policy.toJson = .obj gs := by
      unfold ReleasePolicy.toJson
      cases sent.policy.contentHash <;> exact ⟨_, rfl⟩
    obtain ⟨gs, hgs⟩ := hobj
    rw [hgs] at hcanon
    obtain ⟨fs, rfl⟩ := obj_of_canon hcanon
    rw [hw]
    rfl
  have happrovedBy : isArray (JsValue.getFields release "approvedBy") = true := by
    obtain ⟨w, hw, hcanon⟩ := hmember (k := "approvedBy") rfl
    obtain ⟨xs, rfl⟩ := arr_of_canon hcanon
    rw [hw]
    rfl
  unfold shapeErrors
  rw [List.append_eq_nil_iff, List.append_eq_nil_iff, List.append_eq_nil_iff,
    List.append_eq_nil_iff, List.flatMap_eq_nil_iff, errorUnless_eq_nil, errorUnless_eq_nil,
    errorUnless_eq_nil, errorUnless_eq_nil]
  refine ⟨⟨⟨⟨hversion, fun field hfield => ?_⟩, hparameters⟩, hpolicy⟩, happrovedBy⟩
  obtain ⟨s, hs⟩ := hstrings field hfield
  exact errorUnless_eq_nil.mpr (hstring hs)

end Checks

/-! ## What the endpoint acts on -/

section Endpoint
variable {ed : Ed25519} {sha512 : List UInt8 → List UInt8}
  {createPublicKey : JsValue → Except JsString (KeyObject ed.PublicKey)}
  {dateParse : JsString → Option Int} {options : VerifyParmanaReleaseOptions}

/-- What a run of the verifier is: a refusal that asks nothing, or, every check passed, one
question whether the transaction was executed. -/
inductive Verified (ed : Ed25519) (sha512 : List UInt8 → List UInt8)
    (createPublicKey : JsValue → Except JsString (KeyObject ed.PublicKey))
    (dateParse : JsString → Option Int) (options : VerifyParmanaReleaseOptions) {ε : Type}
    (body : Json) : List (Event ReleaseCall ReleaseCall.Answer ε) →
    Except ε ParmanaReleaseVerification → Prop where
  | refused (errors : List JsString) (hsome : errors ≠ []) :
      Verified ed sha512 createPublicKey dateParse options body [] (.ok (.invalid errors))
  | asked (members release signature : Fields) (answer : Except ε Bool)
      (hbody : body = .obj members)
      (hrelease : Fields.own? members "release" = some (.obj release))
      (hsignature : Fields.own? members "signature" = some (.obj signature))
      (hchecked : releaseErrors ed sha512 createPublicKey dateParse options release signature = []) :
      Verified ed sha512 createPublicKey dateParse options body
        [⟨.isAlreadyExecuted (JsValue.getFields release "businessTransactionId"), answer⟩]
        (answer.map (.valid (.obj release)))

theorem object?_eq_some {value : JsValue} {fs : Fields} :
    object? value = some fs ↔ value = .json (.obj fs) := by
  constructor
  · intro h
    unfold object? at h
    split at h
    · cases h
      rfl
    · cases h
  · rintro rfl
    rfl

theorem releaseParts?_iff {body : Json} {release signature : Fields} :
    releaseParts? body = some (release, signature) ↔ ∃ members, body = .obj members ∧
      Fields.own? members "release" = some (.obj release) ∧
      Fields.own? members "signature" = some (.obj signature) := by
  constructor
  · intro hparts
    obtain ⟨members, hmembers, hparts⟩ := Option.bind_eq_some_iff.mp hparts
    obtain ⟨release', hrelease, hparts⟩ := Option.bind_eq_some_iff.mp hparts
    obtain ⟨signature', hsignature, hparts⟩ := Option.bind_eq_some_iff.mp hparts
    cases hparts
    exact ⟨members, JsValue.json.inj (object?_eq_some.mp hmembers),
      JsValue.getFields_eq_json.mp (object?_eq_some.mp hrelease),
      JsValue.getFields_eq_json.mp (object?_eq_some.mp hsignature)⟩
  · rintro ⟨members, rfl, hrelease, hsignature⟩
    have hread := object?_eq_some.mpr (JsValue.getFields_own hrelease)
    have hread' := object?_eq_some.mpr (JsValue.getFields_own hsignature)
    exact Option.bind_eq_some_iff.mpr
      ⟨release, hread, Option.bind_eq_some_iff.mpr ⟨signature, hread', rfl⟩⟩

/-- **The callback is consulted only after every other check has passed.** -/
theorem verified_of_runs {ε : Type} {body : Json}
    {t : List (Event ReleaseCall ReleaseCall.Answer ε)} {r : Except ε ParmanaReleaseVerification}
    (h : Runs (verifyParmanaRelease ed sha512 createPublicKey dateParse options body) t r) :
    Verified ed sha512 createPublicKey dateParse options body t r := by
  unfold verifyParmanaRelease at h
  dsimp only at h
  split at h
  · obtain ⟨rfl, rfl⟩ := runs_done.mp h
    exact .refused _ (List.cons_ne_nil _ _)
  · rename_i release signature hparts
    obtain ⟨members, hbody, hown, hown'⟩ := releaseParts?_iff.mp hparts
    split at h
    · rename_i hnone
      rw [runs_bind] at h
      have hchecked := List.isEmpty_iff.mp hnone
      rcases h with ⟨e, h, rfl⟩ | ⟨answer, t₁, t₂, rfl, h, h'⟩
      · rw [runs_perform.mp h]
        exact .asked members release signature (.error e) hbody hown hown' hchecked
      · obtain ⟨rfl, rfl⟩ := runs_done.mp h'
        rw [runs_perform.mp h, List.append_nil]
        exact .asked members release signature (.ok answer) hbody hown hown' hchecked
    · rename_i hsome
      obtain ⟨rfl, rfl⟩ := runs_done.mp h
      exact .refused _ fun hnil => hsome (List.isEmpty_iff.mpr hnil)

/-- A body is accepted when its parts have no error. -/
theorem accepts_iff {members release signature : Fields}
    (hrelease : Fields.own? members "release" = some (.obj release))
    (hsignature : Fields.own? members "signature" = some (.obj signature)) :
    Accepts ed sha512 createPublicKey dateParse options (.obj members) ↔
      releaseErrors ed sha512 createPublicKey dateParse options release signature = [] := by
  constructor
  · rintro ⟨ε, t, release', alreadyExecuted, h⟩
    generalize hresult : (Except.ok (ParmanaReleaseVerification.valid release' alreadyExecuted) :
      Except ε ParmanaReleaseVerification) = r at h
    cases verified_of_runs h with
    | refused errors hsome => cases hresult
    | asked members' release'' signature' answer hbody hown hown' hchecked =>
      cases hbody
      rw [hrelease] at hown
      rw [hsignature] at hown'
      cases hown
      cases hown'
      exact hchecked
  · intro hchecked
    have hverify : verifyParmanaRelease (ε := Unit) ed sha512 createPublicKey dateParse options
        (.obj members) = (do
          let alreadyExecuted ← Program.perform
            (.isAlreadyExecuted (JsValue.getFields release "businessTransactionId"))
          return .valid (.obj release) alreadyExecuted) := by
      unfold verifyParmanaRelease
      rw [releaseParts?_iff.mpr ⟨members, rfl, hrelease, hsignature⟩]
      exact if_pos (List.isEmpty_iff.mpr hchecked)
    let asked : ReleaseCall :=
      .isAlreadyExecuted (JsValue.getFields release "businessTransactionId")
    refine ⟨Unit, [⟨asked, .ok false⟩], .obj release, false, ?_⟩
    rw [hverify, runs_bind]
    exact .inr ⟨false, [⟨asked, .ok false⟩], [], rfl, runs_perform.mpr rfl,
      runs_done.mpr ⟨rfl, rfl⟩⟩

/-- The body is no accepted one when its release is no object. -/
theorem release_obj_of_accepts {members : Fields} {release : Json}
    (hrelease : Fields.own? members "release" = some release)
    (h : Accepts ed sha512 createPublicKey dateParse options (.obj members)) :
    ∃ fs, release = .obj fs := by
  obtain ⟨ε, t, release', alreadyExecuted, h⟩ := h
  generalize hresult : (Except.ok (ParmanaReleaseVerification.valid release' alreadyExecuted) :
    Except ε ParmanaReleaseVerification) = r at h
  cases verified_of_runs h with
  | refused errors hsome => cases hresult
  | asked members' fs signature answer hbody hown hown' hchecked =>
    cases hbody
    rw [hrelease] at hown
    cases hown
    exact ⟨fs, rfl⟩

end Endpoint

/-! ## From the adapter to the endpoint -/

section Transport
variable {ed : Ed25519} {sha512 : List UInt8 → List UInt8}
  {createPublicKey : JsValue → Except JsString (KeyObject ed.PublicKey)}
  {dateParse : JsString → Option Int} {options : VerifyParmanaReleaseOptions}
  {key : ed.PrivateKey} {adapter : GatewayExternalAdapter} {signer : ReleaseSigner}
  {request : ConnectorRequest} {context : ConnectorReleaseContext} {issuedAt : Option Int}
  {signed : SignedExternalRelease}

/-- The adapter's signer signs with `key`: AWS KMS, or a key file. -/
def SignerOf (sha512 : List UInt8 → List UInt8) (key : ed.PrivateKey) (keyId : JsString)
    (signer : ReleaseSigner) : Prop :=
  (∃ send, SignsWith ed send keyId key ∧ signer.sign = KmsSigner.sign sha512 send) ∨
    ∃ getPrivateKey, (∀ k, getPrivateKey keyId = .ok k → k.key = key) ∧
      signer.sign = LocalFileSigner.sign ed getPrivateKey

theorem SignerOf.form {keyId : JsString} (h : SignerOf sha512 key keyId signer)
    {bytes : List UInt8} {text : List Char} (hsign : signer.sign keyId bytes = .ok text) :
    ∃ form, SignedForm sha512 bytes form ∧ text = Base64.encode (ed.sign key form) := by
  rcases h with ⟨send, hsend, hsigner⟩ | ⟨getPrivateKey, hfile, hsigner⟩
  · rw [hsigner] at hsign
    exact KmsSigner.sign_form hsend hsign
  · rw [hsigner] at hsign
    exact LocalFileSigner.sign_form hfile hsign

/-- The endpoint holds the public key under the key's identifier. -/
structure HoldsKey (createPublicKey : JsValue → Except JsString (KeyObject ed.PublicKey))
    (options : VerifyParmanaReleaseOptions) (key : ed.PrivateKey) (keyId : JsString) : Prop where
  found : JsValue.getFields options.publicKeys keyId ≠ .undefined
  read : createPublicKey (JsValue.getFields options.publicKeys keyId) =
    .ok ⟨NODE_KEY_TYPE, ed.publicKey key⟩

/-- The release has not expired at the endpoint, with the skew it allows. -/
def InTime (options : VerifyParmanaReleaseOptions) (issuedAt : Option Int) : Prop :=
  ∃ expiry, releaseExpiry issuedAt = some expiry ∧
    (timeNumber options.now).le ((JsNumber.ofInt expiry).add options.skewMs) = true

/-- The clock says it is after the expiry and the skew. -/
def Late (options : VerifyParmanaReleaseOptions) (issuedAt : Option Int) : Prop :=
  ∃ expiry, releaseExpiry issuedAt = some expiry ∧
    ((JsNumber.ofInt expiry).add options.skewMs).lt (timeNumber options.now) = true

/-- What a signer made is accepted for the bytes it was made over. -/
theorem acceptsForm_of_signed (hunforgeable : ed.Unforgeable key)
    (hsigner : SignerOf sha512 key adapter.keyId signer)
    (hdistinct : signed.release.toJson.distinct = true) {bytes : List UInt8} {text : List Char}
    (hbytes : serialize (.ofJson signed.release.toJson) = .ok bytes)
    (hsign : signer.sign adapter.keyId bytes = .ok text) {release : Fields}
    (hrelease : (Json.obj release).distinct = true)
    (hcollision : sha512 (canonicalSerialize (.obj release)) =
        sha512 (canonicalSerialize signed.release.toJson) →
      canonicalSerialize (.obj release) = canonicalSerialize signed.release.toJson) :
    acceptsForm ed sha512 (ed.publicKey key) (canonicalSerialize (.obj release))
        (Base64.decode text) = true ↔
      (Json.obj release).canon = signed.release.toJson.canon := by
  obtain rfl := Except.ok.inj ((server_bytes hdistinct).symm.trans hbytes)
  obtain ⟨form, hform, rfl⟩ := hsigner.form hsign
  have hcanonical : ∀ j, ¬ IsCommitment sha512 (canonicalSerialize j) := fun j =>
    CanonicalMessage.not_commitment sha512 (.inr (.inl ⟨j, rfl⟩))
  rw [Base64.decode_encode, acceptsForm_iff hunforgeable (hcanonical _) (hcanonical _) hcollision
    hform, canonicalSerialize_inj hrelease hdistinct]

/-- **A body that carries the signature is accepted when its release is the one that was
signed, it is for this endpoint, and it is not late.** -/
theorem accepts_signed_iff
    (hsign : adapter.sign signer request context issuedAt = .ok signed)
    (hparameters : (Json.obj request.parameters).distinct = true)
    (hunforgeable : ed.Unforgeable key) (hsigner : SignerOf sha512 key adapter.keyId signer)
    (halgorithm : signer.algorithm adapter.keyId = .ok NODE_KEY_TYPE)
    (hkey : HoldsKey createPublicKey options key adapter.keyId)
    (hdate : ∀ expiry, releaseExpiry issuedAt = some expiry →
      dateParse (toISOString expiry) = some expiry)
    {members release signature : Fields}
    (hown : Fields.own? members "release" = some (.obj release))
    (hown' : Fields.own? members "signature" = some (.obj signature))
    (hrelease : (Json.obj release).distinct = true)
    (hsignature : (Json.obj signature).distinct = true)
    (hsame : (Json.obj signature).canon = (Json.obj signed.signature.fields).canon)
    (hcollision : sha512 (canonicalSerialize (.obj release)) =
        sha512 (canonicalSerialize signed.release.toJson) →
      canonicalSerialize (.obj release) = canonicalSerialize signed.release.toJson) :
    Accepts ed sha512 createPublicKey dateParse options (.obj members) ↔
      (Json.obj release).canon = signed.release.toJson.canon ∧
        options.audience = adapter.href ∧ ¬ Late options issuedAt := by
  have hmade := GatewayExternalAdapter.signed_of_sign hsign
  have hdistinct : signed.release.toJson.distinct = true :=
    ExternalRelease.toJson_distinct (hmade.parameters ▸ hparameters)
  obtain ⟨bytes, text, hbytes, hvalue, htext⟩ := hmade.value
  obtain ⟨expiry, hexpiry, hexpiresAt⟩ := hmade.expiresAt
  have hmadealgorithm : signed.signature.algorithm = NODE_KEY_TYPE :=
    Except.ok.inj (hmade.algorithm.symm.trans halgorithm)
  -- the members of the signature are the ones that were sent
  rw [Json.distinct, Bool.and_eq_true, decide_eq_true_eq] at hsignature
  have hmember : ∀ {k : JsString} {s : JsString},
      Fields.own? signed.signature.fields k = some (.str s) →
      JsValue.getFields signature k = .json (.str s) :=
    fun hs => string_of_canon hsignature.1 hsame hs
  have hverifies : signatureErrors ed sha512 createPublicKey options release signature = [] ↔
      (Json.obj release).canon = signed.release.toJson.canon := by
    rw [signatureErrors_eq_nil (hmember (congrArg (some ∘ Json.str) hmadealgorithm))
      (hmember (k := "keyId") (congrArg (some ∘ Json.str) hmade.keyId))
      (hmember (k := "value") (congrArg (some ∘ Json.str) htext)) rfl hkey.found hkey.read]
    exact acceptsForm_of_signed hunforgeable hsigner hdistinct hbytes hvalue hrelease hcollision
  rw [accepts_iff hown hown']
  unfold releaseErrors
  rw [List.append_eq_nil_iff, List.append_eq_nil_iff, List.append_eq_nil_iff, hverifies]
  -- the rest of the checks read members the signed release has
  have hmembers : (Json.obj release).canon = signed.release.toJson.canon →
      (audienceErrors options release = [] ↔ options.audience = adapter.href) ∧
        (expiryErrors dateParse options release = [] ↔ ¬ Late options issuedAt) := by
    intro hcanon
    have hnames := hrelease
    rw [Json.distinct, Bool.and_eq_true, decide_eq_true_eq] at hnames
    have haudience : JsValue.getFields release "audience" = .json (.str adapter.href) :=
      string_of_canon hnames.1 hcanon (congrArg (some ∘ Json.str) hmade.audience)
    have hexpires : JsValue.getFields release "expiresAt" = .json (.str (toISOString expiry)) :=
      string_of_canon hnames.1 hcanon (congrArg (some ∘ Json.str) hexpiresAt)
    refine ⟨audienceErrors_eq_nil haudience, ?_⟩
    rw [expiryErrors_eq_nil hexpires (hdate expiry hexpiry)]
    constructor
    · rintro hlate ⟨expiry', hexpiry', hlt⟩
      rw [hexpiry] at hexpiry'
      cases hexpiry'
      exact Bool.false_ne_true (hlate.symm.trans hlt)
    · intro hlate
      exact Bool.eq_false_iff.mpr fun hlt => hlate ⟨expiry, hexpiry, hlt⟩
  constructor
  · rintro ⟨⟨⟨-, hcanon⟩, haudience⟩, hexpiry⟩
    exact ⟨hcanon, (hmembers hcanon).1.mp haudience, (hmembers hcanon).2.mp hexpiry⟩
  · rintro ⟨hcanon, haudience, hlate⟩
    exact ⟨⟨⟨shapeErrors_of_canon hrelease hcanon, hcanon⟩,
      (hmembers hcanon).1.mpr haudience⟩, (hmembers hcanon).2.mpr hlate⟩

/-- **What is sent is accepted at its own endpoint until it is late.** -/
theorem accepts_sent_iff
    (hsign : adapter.sign signer request context issuedAt = .ok signed)
    (hparameters : (Json.obj request.parameters).distinct = true)
    (hunforgeable : ed.Unforgeable key) (hsigner : SignerOf sha512 key adapter.keyId signer)
    (halgorithm : signer.algorithm adapter.keyId = .ok NODE_KEY_TYPE)
    (hkey : HoldsKey createPublicKey options key adapter.keyId)
    (hdate : ∀ expiry, releaseExpiry issuedAt = some expiry →
      dateParse (toISOString expiry) = some expiry) :
    ∃ body, Json.parse signed.toJson.stringify = some body ∧
      (Accepts ed sha512 createPublicKey dateParse options body ↔
        options.audience = adapter.href ∧ ¬ Late options issuedAt) := by
  have hmade := GatewayExternalAdapter.signed_of_sign hsign
  have hdistinct : signed.release.toJson.distinct = true :=
    ExternalRelease.toJson_distinct (hmade.parameters ▸ hparameters)
  have hsent : signed.toJson.distinct = true := by
    unfold SignedExternalRelease.toJson
    rw [Json.distinct, Bool.and_eq_true, decide_eq_true_eq, Json.distinctMembers,
      Bool.and_eq_true]
    refine ⟨?_, hdistinct, rfl⟩
    show ([("release" : JsString), "signature"] : List JsString).Nodup
    decide
  refine ⟨signed.toJson.ordered.settle, Json.parse_stringify hsent, ?_⟩
  have hreceived := Json.settle_distinct (Json.ordered_distinct hsent)
  have hcanon := Json.canon_settle_ordered hsent
  generalize signed.toJson.ordered.settle = body at hreceived hcanon
  -- the parts of what is received have the canonical form of what was sent
  obtain ⟨members, rfl⟩ := obj_of_canon hcanon
  rw [Json.distinct, Bool.and_eq_true, decide_eq_true_eq, Json.distinctMembers_iff] at hreceived
  obtain ⟨release, hrelease, hreleaseCanon⟩ :=
    member_of_canon (k := "release") hreceived.1 hcanon rfl
  obtain ⟨signature, hsignature, hsignatureCanon⟩ :=
    member_of_canon (k := "signature") hreceived.1 hcanon rfl
  obtain ⟨release, rfl⟩ := obj_of_canon hreleaseCanon
  obtain ⟨signature, rfl⟩ := obj_of_canon hsignatureCanon
  have hreleaseDistinct := hreceived.2 _ (Members.mem_of_lookup hrelease)
  have hsignatureDistinct := hreceived.2 _ (Members.mem_of_lookup hsignature)
  have hbytes := (canonicalSerialize_inj hreleaseDistinct hdistinct).mpr hreleaseCanon
  rw [accepts_signed_iff hsign hparameters hunforgeable hsigner halgorithm hkey hdate hrelease
    hsignature hreleaseDistinct hsignatureDistinct hsignatureCanon fun _ => hbytes]
  exact and_iff_right hreleaseCanon

end Transport

/-! ## Time -/

/-- With a date and a skew that are numbers, a release is in time when it is not late. -/
theorem inTime_iff {options : VerifyParmanaReleaseOptions} {issuedAt : Option Int} {expiry : Int}
    (hexpiry : releaseExpiry issuedAt = some expiry) (hnow : options.now ≠ none)
    (hskew : options.clockSkewSeconds ≠ some .nan) :
    InTime options issuedAt ↔ ¬ Late options issuedAt := by
  have hsmall : maxTime < 2 ^ 53 := by decide
  obtain ⟨now, hnow⟩ := Option.ne_none_iff_exists'.mp hnow
  have htime : timeNumber options.now ≠ .nan := by
    rw [hnow]
    exact JsNumber.ofRatio_ne_nan _ _ _
  have hmilliseconds : options.skewMs ≠ .nan := by
    unfold VerifyParmanaReleaseOptions.skewMs
    refine JsNumber.mulNat_ne_nan ?_ 1000
    cases hgiven : options.clockSkewSeconds with
    | none => exact JsNumber.ofRatio_ne_nan false DEFAULT_RELEASE_CLOCK_SKEW_SECONDS 1
    | some skew => exact fun h => hskew (hgiven.trans (congrArg some h))
  have hlimit : (JsNumber.ofInt expiry).add options.skewMs ≠ .nan := by
    obtain ⟨d, hd, -⟩ := JsNumber.ofInt_finite ((timeClip_bound hexpiry).trans_lt hsmall)
    rw [hd]
    exact JsNumber.add_ne_nan hmilliseconds
  have hle := le_iff_not_lt htime hlimit
  constructor
  · rintro ⟨expiry', hexpiry', h⟩ ⟨expiry'', hexpiry'', hlate⟩
    cases hexpiry.symm.trans hexpiry'
    cases hexpiry.symm.trans hexpiry''
    exact hle.mp h hlate
  · intro hlate
    exact ⟨expiry, hexpiry, hle.mpr fun h => hlate ⟨expiry, hexpiry, h⟩⟩

/-- The time and the skew are numbers. -/
def Timed (options : VerifyParmanaReleaseOptions) : Prop :=
  options.now ≠ none ∧ options.clockSkewSeconds ≠ some .nan

theorem nan_lt (x : JsNumber) : JsNumber.lt .nan x = false := rfl

theorem lt_nan (x : JsNumber) : x.lt .nan = false := by cases x <;> rfl

theorem nan_le (x : JsNumber) : JsNumber.le .nan x = false := rfl

theorem le_nan (x : JsNumber) : x.le .nan = false := by cases x <;> rfl

/-- Nothing compares with what is no number. -/
theorem untimed {options : VerifyParmanaReleaseOptions} (issuedAt : Option Int)
    (h : ¬ Timed options) : ¬ InTime options issuedAt ∧ ¬ Late options issuedAt := by
  have hnan : timeNumber options.now = .nan ∨ options.skewMs = .nan := by
    rcases not_and_or.mp h with h | h
    · rw [not_not] at h
      exact .inl (by rw [h]; rfl)
    · rw [not_not] at h
      refine .inr ?_
      unfold VerifyParmanaReleaseOptions.skewMs
      rw [h]
      rfl
  have hadd : ∀ x : JsNumber, x.add .nan = .nan := fun x => by cases x <;> rfl
  constructor
  · rintro ⟨expiry, -, hle⟩
    rcases hnan with hnan | hnan
    · rw [hnan, nan_le] at hle
      cases hle
    · rw [hnan, hadd, le_nan] at hle
      cases hle
  · rintro ⟨expiry, -, hlt⟩
    rcases hnan with hnan | hnan
    · rw [hnan, lt_nan] at hlt
      cases hlt
    · rw [hnan, hadd, nan_lt] at hlt
      cases hlt

/-- What is decided by not being late is decided by being in time where the time is one of
numbers. -/
theorem decides_iff {options : VerifyParmanaReleaseOptions} {issuedAt : Option Int} {expiry : Int}
    (hexpiry : releaseExpiry issuedAt = some expiry) {signed released audience : Prop}
    (hsigned : released → signed) :
    ((signed ∧ audience ∧ ¬ Late options issuedAt) ↔
        (released ∧ audience ∧ InTime options issuedAt)) ↔
      (signed → audience → ¬ Late options issuedAt → released ∧ Timed options) := by
  by_cases htimed : Timed options
  · rw [inTime_iff hexpiry htimed.1 htimed.2]
    tauto
  · obtain ⟨hnot, hnotLate⟩ := untimed issuedAt htimed
    tauto

/-! ## The law -/

/-- **What the endpoint accepts is what was released, to it, in time**, as far as numbers go.
A signed release that is sent as JSON is accepted exactly when it is presented for the audience
it was signed for and it is at most its expiry plus the skew, where the time and the skew are
numbers; a document under its signature is accepted exactly when it is that release as well,
where it has no number that is too large for a double; and the callback is consulted only after
every other check has passed. -/
theorem verifyParmanaRelease_accepts {ed : Ed25519} {sha512 : List UInt8 → List UInt8}
    {createPublicKey : JsValue → Except JsString (KeyObject ed.PublicKey)}
    {dateParse : JsString → Option Int} {options : VerifyParmanaReleaseOptions}
    {key : ed.PrivateKey} {adapter : GatewayExternalAdapter} {signer : ReleaseSigner}
    {request : ConnectorRequest} {context : ConnectorReleaseContext} {issuedAt : Option Int}
    {signed : SignedExternalRelease}
    (hsign : adapter.sign signer request context issuedAt = .ok signed)
    (hparameters : (Json.obj request.parameters).distinct = true)
    (hunforgeable : ed.Unforgeable key) (hsigner : SignerOf sha512 key adapter.keyId signer)
    (halgorithm : signer.algorithm adapter.keyId = .ok NODE_KEY_TYPE)
    (hkey : HoldsKey createPublicKey options key adapter.keyId)
    (hdate : ∀ expiry, releaseExpiry issuedAt = some expiry →
      dateParse (toISOString expiry) = some expiry) :
    (∃ body, Json.parse signed.toJson.stringify = some body ∧
      ((Accepts ed sha512 createPublicKey dateParse options body ↔
          options.audience = adapter.href ∧ InTime options issuedAt) ↔
        (options.audience = adapter.href → ¬ Late options issuedAt → Timed options))) ∧
    (∃ received, Json.parse signed.release.toJson.stringify = some received ∧
      ∀ release : Json, release.distinct = true →
        (sha512 (canonicalSerialize release) = sha512 (canonicalSerialize signed.release.toJson) →
          canonicalSerialize release = canonicalSerialize signed.release.toJson) →
        (Accepts ed sha512 createPublicKey dateParse options
            (.obj [("release", release), ("signature", .obj signed.signature.fields)]) ↔
          release.canon = received.canon ∧ options.audience = adapter.href ∧
            ¬ Late options issuedAt) ∧
        ((Accepts ed sha512 createPublicKey dateParse options
              (.obj [("release", release), ("signature", .obj signed.signature.fields)]) ↔
            release.same received = true ∧ options.audience = adapter.href ∧
              InTime options issuedAt) ↔
          (release.canon = received.canon → options.audience = adapter.href →
            ¬ Late options issuedAt → release.finite = true ∧ Timed options))) ∧
    (∀ (ε : Type) (body : Json) (t : List (Event ReleaseCall ReleaseCall.Answer ε))
      (r : Except ε ParmanaReleaseVerification),
      Runs (verifyParmanaRelease ed sha512 createPublicKey dateParse options body) t r →
        Verified ed sha512 createPublicKey dateParse options body t r) := by
  have hmade := GatewayExternalAdapter.signed_of_sign hsign
  obtain ⟨expiry, hexpiry, -⟩ := hmade.expiresAt
  have hdistinct : signed.release.toJson.distinct = true :=
    ExternalRelease.toJson_distinct (hmade.parameters ▸ hparameters)
  refine ⟨?_, ?_, fun ε body t r => verified_of_runs⟩
  · obtain ⟨body, hbody, haccepts⟩ := accepts_sent_iff hsign hparameters hunforgeable hsigner
      halgorithm hkey hdate
    refine ⟨body, hbody, ?_⟩
    have hdecides := @decides_iff options _ _ hexpiry True True (options.audience = adapter.href)
      fun h => h
    simpa only [true_and, forall_true_left, haccepts] using hdecides
  refine ⟨signed.release.toJson.ordered.settle, Json.parse_stringify hdistinct,
    fun release hrelease hcollision => ?_⟩
  have hreceived := Json.canon_settle_ordered hdistinct
  have hown : Fields.own? [("release", release), ("signature", .obj signed.signature.fields)]
      "release" = some release := rfl
  have haccepts : Accepts ed sha512 createPublicKey dateParse options
      (.obj [("release", release), ("signature", .obj signed.signature.fields)]) ↔
        release.canon = signed.release.toJson.ordered.settle.canon ∧
          options.audience = adapter.href ∧ ¬ Late options issuedAt := by
    rw [hreceived]
    by_cases hobj : ∃ fs, release = .obj fs
    · obtain ⟨fs, rfl⟩ := hobj
      exact accepts_signed_iff hsign hparameters hunforgeable hsigner halgorithm hkey hdate hown rfl
        hrelease rfl rfl hcollision
    · constructor
      · intro haccepts
        exact absurd (release_obj_of_accepts hown haccepts) hobj
      · rintro ⟨hcanon, -⟩
        exact absurd (obj_of_canon hcanon) hobj
  refine ⟨haccepts, ?_⟩
  rw [haccepts, Json.same_settle_iff hrelease (Json.settle_distinct (Json.ordered_distinct hdistinct)),
    decides_iff hexpiry And.right]
  exact imp_congr_right fun hcanon => by rw [and_iff_left hcanon]

/-! ## A release -/

namespace Sample

/-- The time 2026-01-01T00:00:00.000Z. -/
def newYear : Int := 1767225600000

def adapter : GatewayExternalAdapter where
  connectorId := "ext-erp:create-invoice"
  href := "https://erp.example.com/parmana/release"
  keyId := "default"

def signer : ReleaseSigner where
  sign := LocalFileSigner.sign plainEd25519 plainKeyFile
  algorithm _ := .ok NODE_KEY_TYPE

def request : ConnectorRequest where
  capability := "erp:create-invoice"
  businessTransactionId := "tx-1"
  action := "erp:create-invoice"
  target := "customer-42"
  parameters := [("note", .null)]

def context : ConnectorReleaseContext where
  authorizationId := "a1"
  policy := { name := "erp-invoice", version := "1.0.0", contentHash := none }
  approvals := []

/-- An endpoint that holds the key and has the time `now`. -/
def endpoint (now : Int) (clockSkewSeconds : Option JsNumber) : VerifyParmanaReleaseOptions where
  publicKeys := [("default", "PEM")]
  audience := adapter.href
  now := some now
  clockSkewSeconds := clockSkewSeconds

def createPublicKey : JsValue → Except JsString (KeyObject plainEd25519.PublicKey) :=
  fun _ => .ok ⟨NODE_KEY_TYPE, ()⟩

def expiry : Int := newYear + 60000

/-- A reader of the one date there is. -/
def dateParse (text : JsString) : Option Int :=
  if text = toISOString expiry then some expiry else none

theorem releaseExpiry_eq : releaseExpiry (some newYear) = some expiry := by decide

theorem dateParse_read : ∀ e, releaseExpiry (some newYear) = some e →
    dateParse (toISOString e) = some e := by
  intro e he
  cases releaseExpiry_eq.symm.trans he
  exact if_pos rfl

theorem unforgeable : plainEd25519.Unforgeable () := fun _ _ => beq_iff_eq

theorem signerOf : @SignerOf plainEd25519 (List.take 64) () adapter.keyId signer :=
  .inr ⟨plainKeyFile, fun _ _ => rfl, rfl⟩

theorem holdsKey (now : Int) (clockSkewSeconds : Option JsNumber) :
    HoldsKey createPublicKey (endpoint now clockSkewSeconds) () adapter.keyId where
  found := by simp [endpoint, adapter, JsValue.getFields, Fields.own?]
  read := rfl

theorem signs : ∃ signed, adapter.sign signer request context (some newYear) = .ok signed := by
  have hok : (adapter.sign signer request context (some newYear)).isOk = true := by decide +kernel
  cases h : adapter.sign signer request context (some newYear) with
  | ok signed => exact ⟨signed, rfl⟩
  | error e =>
    rw [h] at hok
    cases hok

end Sample

/-- The release is accepted when it is issued. -/
theorem release_accepted : ∃ signed body,
    Sample.adapter.sign Sample.signer Sample.request Sample.context (some Sample.newYear) =
      .ok signed ∧
    Json.parse signed.toJson.stringify = some body ∧
    Accepts plainEd25519 (List.take 64) Sample.createPublicKey Sample.dateParse
      (Sample.endpoint Sample.newYear none) body := by
  obtain ⟨signed, hsign⟩ := Sample.signs
  have htime : InTime (Sample.endpoint Sample.newYear none) (some Sample.newYear) :=
    ⟨Sample.expiry, Sample.releaseExpiry_eq, by decide⟩
  have htimed : Timed (Sample.endpoint Sample.newYear none) :=
    ⟨Option.some_ne_none _, (Option.some_ne_none _).symm⟩
  obtain ⟨⟨body, hbody, haccepts⟩, -⟩ := verifyParmanaRelease_accepts hsign (by decide)
    Sample.unforgeable Sample.signerOf rfl (Sample.holdsKey Sample.newYear none)
    Sample.dateParse_read
  exact ⟨signed, body, hsign, hbody, (haccepts.mpr fun _ _ => htimed).mpr ⟨rfl, htime⟩⟩

/-- The release with a note that is too large for a double, as `1e400` is read. -/
def Sample.altered (release : ExternalRelease) : ExternalRelease :=
  { release with parameters := [("note", .num .posInf)] }

/-- **A field is altered, and a release does not expire.**  Where the release holds a note
that is `null`, one with a note of `1e400` is accepted under its signature; and with a clock
skew of `NaN` it is accepted a day after it was issued, which is not in time. -/
theorem release_altered_and_expired : ∃ signed,
    Sample.adapter.sign Sample.signer Sample.request Sample.context (some Sample.newYear) =
      .ok signed ∧
    signed.release.parameters = Sample.request.parameters ∧
    Accepts plainEd25519 (List.take 64) Sample.createPublicKey Sample.dateParse
      (Sample.endpoint Sample.newYear none)
      (.obj [("release", (Sample.altered signed.release).toJson),
        ("signature", .obj signed.signature.fields)]) ∧
    ∃ body, Json.parse signed.toJson.stringify = some body ∧
      Accepts plainEd25519 (List.take 64) Sample.createPublicKey Sample.dateParse
        (Sample.endpoint (Sample.newYear + 86400000) (some .nan)) body ∧
      ¬ InTime (Sample.endpoint (Sample.newYear + 86400000) (some .nan)) (some Sample.newYear) := by
  obtain ⟨signed, hsign⟩ := Sample.signs
  have hmade := GatewayExternalAdapter.signed_of_sign hsign
  have hparameters : signed.release.parameters = Sample.request.parameters := hmade.parameters
  have haltered : (Json.obj (Sample.altered signed.release).fields).canon =
      signed.release.toJson.canon := by
    have hnote : (Json.obj [("note", .num .posInf)]).canon =
        (Json.obj Sample.request.parameters).canon := rfl
    rw [ExternalRelease.toJson, Json.canon_obj, Json.canon_obj]
    unfold ExternalRelease.fields Members.mapValues
    simp only [List.map_cons, Sample.altered, hparameters, hnote]
  have hdistinct : (Json.obj (Sample.altered signed.release).fields).distinct = true :=
    @ExternalRelease.toJson_distinct (Sample.altered signed.release) rfl
  have hbytes := (canonicalSerialize_inj hdistinct (ExternalRelease.toJson_distinct
    (hmade.parameters ▸ (by decide)))).mpr haltered
  -- the limit is `NaN`, and no time is after it
  have hendless : (Sample.endpoint (Sample.newYear + 86400000) (some .nan)).skewMs = .nan := rfl
  have hnan : ∀ x : JsNumber, x.add .nan = .nan := fun x => by cases x <;> rfl
  refine ⟨signed, hsign, hparameters, ?_, ?_⟩
  · refine (accepts_signed_iff hsign (by decide) Sample.unforgeable Sample.signerOf rfl
      (Sample.holdsKey Sample.newYear none) Sample.dateParse_read rfl rfl hdistinct rfl rfl
      fun _ => hbytes).mpr ⟨haltered, rfl, ?_⟩
    rintro ⟨expiry, hexpiry, hlate⟩
    cases Sample.releaseExpiry_eq.symm.trans hexpiry
    revert hlate
    decide
  · obtain ⟨body, hbody, haccepts⟩ := accepts_sent_iff hsign (by decide) Sample.unforgeable
      Sample.signerOf rfl (Sample.holdsKey (Sample.newYear + 86400000) (some .nan))
      Sample.dateParse_read
    refine ⟨body, hbody, haccepts.mpr ⟨rfl, ?_⟩, ?_⟩
    · rintro ⟨expiry, hexpiry, hlate⟩
      rw [hendless, hnan] at hlate
      cases hlate
    · rintro ⟨expiry, hexpiry, htime⟩
      rw [hendless, hnan] at htime
      revert htime
      decide

end Parmana.Sdk.Typescript

import Parmana.Connectors.ExternalRelease
import Parmana.Crypto.CanonicalSerializer

/-! # The evidence of a connector execution

What a connector was asked and what it answered are put into the evidence that is
hashed, stored and signed.  Members under a key that looks like a credential are
replaced first: `redactSensitiveKeys` looks at the keys of the object it is given, and
copies what is under every other key as it stands.

What the evidence may depend on is said by `mask`, which replaces at every depth.  The
evidence is a function of the masked request and response exactly when no key that looks
like a credential is further down (`hides_iff`).
-/
namespace Parmana
open Js Connectors

/-! ## Keys that look like credentials -/

/-- The alternatives of `SENSITIVE_KEY_PATTERN`. -/
def SENSITIVE_WORDS : List JsString :=
  ["credential", "secret", "token", "apikey", "api_key", "password", "authorization"]

def asciiLower (u : UInt16) : UInt16 := if 0x41 ≤ u && u ≤ 0x5A then u + 0x20 else u

/-- `SENSITIVE_KEY_PATTERN.test(key)`: one of the words is in the key, in any case. -/
def isSensitiveKey (key : JsString) : Bool :=
  SENSITIVE_WORDS.any fun word =>
    key.units.tails.any fun us => word.units.isPrefixOf (us.map asciiLower)

example : isSensitiveKey "X-Api_Key-Id" = true ∧ isSensitiveKey "amount" = false := by
  decide

def REDACTED : Json := .str "[REDACTED]"

/-- What a member is recorded as. -/
def redactMember (member : JsString × Json) : Option (JsString × Json) :=
  -- an assignment to `__proto__` makes no member of its own
  if member.1 = "__proto__" then none
  else some (member.1, if isSensitiveKey member.1 then REDACTED else member.2)

def redactSensitiveKeys : Option Fields → Fields
  | none => []
  | some fs => fs.filterMap redactMember

/-! ## The evidence -/

structure ConnectorResponse where
  success : Bool
  metadata : Option Fields

/-- `ConnectorVersion`. -/
structure ConnectorVersion where
  major : JsNumber
  minor : JsNumber
  patch : JsNumber

def formatConnectorVersion (version : ConnectorVersion) : JsString :=
  version.major.toText ++ ("." : JsString) ++ version.minor.toText ++ ("." : JsString) ++
    version.patch.toText

/-- What the evidence is built from; the times are read from the clock. -/
structure BuildConnectorEvidenceOptions where
  connectorId : JsString
  connectorVersion : ConnectorVersion
  credentialProviderId : JsString
  request : ConnectorRequest
  response : ConnectorResponse
  startedAt : Int
  completedAt : Int
  vendorConfirmationVerified : Option Bool

structure UnhashedEvidence where
  connectorId : JsString
  connectorVersion : JsString
  capability : JsString
  sanitizedEndpoint : JsString
  credentialProviderId : JsString
  requestSummary : Fields
  responseSummary : Fields
  startedAt : JsString
  completedAt : JsString
  vendorConfirmationVerified : Bool

def UnhashedEvidence.toJson (unhashed : UnhashedEvidence) : Json :=
  .obj [("connectorId", .str unhashed.connectorId),
    ("connectorVersion", .str unhashed.connectorVersion),
    ("capability", .str unhashed.capability),
    ("sanitizedEndpoint", .str unhashed.sanitizedEndpoint),
    ("credentialProviderId", .str unhashed.credentialProviderId),
    ("requestSummary", .obj unhashed.requestSummary),
    ("responseSummary", .obj unhashed.responseSummary),
    ("startedAt", .str unhashed.startedAt), ("completedAt", .str unhashed.completedAt),
    ("vendorConfirmationVerified", .bool unhashed.vendorConfirmationVerified)]

structure ConnectorEvidence extends UnhashedEvidence where
  connectorEvidenceHash : JsString

section
variable (stripUrl : JsString → Option JsString) (sha256 : List UInt8 → JsString)

/-- `sanitizeEndpoint`: the URL without its credentials, query and fragment, or for a text
that is no URL what comes before the first question mark. -/
def sanitizeEndpoint (target : JsString) : JsString :=
  (stripUrl target).getD ⟨target.units.takeWhile (· ≠ 0x3F)⟩

def requestSummary (request : ConnectorRequest) : Fields :=
  [("businessTransactionId", .str request.businessTransactionId), ("action", .str request.action),
    ("target", .str (sanitizeEndpoint stripUrl request.target)),
    ("parameters", .obj (redactSensitiveKeys (some request.parameters)))]

def responseSummary (response : ConnectorResponse) : Fields :=
  [("success", .bool response.success),
    ("metadata", .obj (redactSensitiveKeys response.metadata))]

def unhashedEvidence (options : BuildConnectorEvidenceOptions) : UnhashedEvidence where
  connectorId := options.connectorId
  connectorVersion := formatConnectorVersion options.connectorVersion
  capability := options.request.capability
  sanitizedEndpoint := sanitizeEndpoint stripUrl options.request.target
  credentialProviderId := options.credentialProviderId
  requestSummary := requestSummary stripUrl options.request
  responseSummary := responseSummary options.response
  startedAt := toISOString options.startedAt
  completedAt := toISOString options.completedAt
  vendorConfirmationVerified := options.vendorConfirmationVerified.getD false

def buildConnectorEvidence (options : BuildConnectorEvidenceOptions) :
    Except JsString ConnectorEvidence := do
  let unhashed := unhashedEvidence stripUrl options
  let bytes ← Crypto.serialize (.ofJson unhashed.toJson)
  return { unhashed with connectorEvidenceHash := sha256 bytes }

end

/-! ## What the evidence may depend on -/

mutual

/-- The document with every value under a key that looks like a credential replaced. -/
def mask : Json → Json
  | .arr xs => .arr (maskEach xs)
  | .obj fs => .obj (maskMembers fs)
  | j => j

def maskEach : List Json → List Json
  | [] => []
  | x :: xs => mask x :: maskEach xs

def maskMembers : List (JsString × Json) → List (JsString × Json)
  | [] => []
  | (k, v) :: fs => (k, if isSensitiveKey k then REDACTED else mask v) :: maskMembers fs

end

mutual

/-- Whether some key of the document looks like a credential. -/
def hasSensitiveKey : Json → Bool
  | .arr xs => hasSensitiveKeyEach xs
  | .obj fs => hasSensitiveKeyMembers fs
  | _ => false

def hasSensitiveKeyEach : List Json → Bool
  | [] => false
  | x :: xs => hasSensitiveKey x || hasSensitiveKeyEach xs

def hasSensitiveKeyMembers : List (JsString × Json) → Bool
  | [] => false
  | (k, v) :: fs => isSensitiveKey k || hasSensitiveKey v || hasSensitiveKeyMembers fs

end

/-- The two documents differ at most under keys that look like credentials. -/
def SameButCredentials (options other : BuildConnectorEvidenceOptions) : Prop :=
  ∃ parameters metadata,
    other = { options with
      request := { options.request with parameters }
      response := { options.response with metadata } } ∧
    maskMembers parameters = maskMembers options.request.parameters ∧
    metadata.map maskMembers = options.response.metadata.map maskMembers

/-- The objects of the request and of the response list no name twice. -/
structure WellFormed (options : BuildConnectorEvidenceOptions) : Prop where
  parameters : (Json.obj options.request.parameters).distinct = true
  metadata : ∀ metadata, options.response.metadata = some metadata →
    (Json.obj metadata).distinct = true

/-- No value under a key that looks like a credential appears in the evidence: whatever
else is put in its place, the evidence is the same. -/
def Hides (stripUrl : JsString → Option JsString) (sha256 : List UInt8 → JsString)
    (options : BuildConnectorEvidenceOptions) : Prop :=
  ∀ other, WellFormed other → SameButCredentials options other →
    buildConnectorEvidence stripUrl sha256 other = buildConnectorEvidence stripUrl sha256 options

/-- No key below the top level looks like a credential, under a member that is recorded as
it stands. -/
def Shallow (fs : Fields) : Prop :=
  ∀ member ∈ fs, member.1 ≠ "__proto__" → isSensitiveKey member.1 = false →
    hasSensitiveKey member.2 = false

/-! ## Masking -/

theorem maskMembers_names (fs : Fields) : (maskMembers fs).map Prod.fst = fs.map Prod.fst := by
  induction fs with
  | nil => rfl
  | cons member fs ih =>
    obtain ⟨k, v⟩ := member
    rw [maskMembers, List.map_cons, List.map_cons, ih]

mutual

/-- Without such a key there is nothing to mask. -/
theorem mask_eq_self : ∀ {j : Json}, hasSensitiveKey j = false → mask j = j
  | .arr xs, h => by
    rw [mask, maskEach_eq_self h]
  | .obj fs, h => by
    rw [mask, maskMembers_eq_self h]
  | .null, _ => rfl
  | .bool _, _ => rfl
  | .num _, _ => rfl
  | .str _, _ => rfl

theorem maskEach_eq_self : ∀ {xs : List Json}, hasSensitiveKeyEach xs = false → maskEach xs = xs
  | [], _ => rfl
  | x :: xs, h => by
    rw [hasSensitiveKeyEach, Bool.or_eq_false_iff] at h
    rw [maskEach, mask_eq_self h.1, maskEach_eq_self h.2]

theorem maskMembers_eq_self : ∀ {fs : Fields}, hasSensitiveKeyMembers fs = false →
    maskMembers fs = fs
  | [], _ => rfl
  | (k, v) :: fs, h => by
    rw [hasSensitiveKeyMembers, Bool.or_eq_false_iff, Bool.or_eq_false_iff] at h
    rw [maskMembers, h.1.1, if_neg Bool.false_ne_true, mask_eq_self h.1.2,
      maskMembers_eq_self h.2]

end

mutual

/-- Masking keeps the keys. -/
theorem hasSensitiveKey_mask : ∀ j : Json, hasSensitiveKey (mask j) = hasSensitiveKey j
  | .arr xs => by
    rw [mask, hasSensitiveKey, hasSensitiveKey, hasSensitiveKeyEach_mask xs]
  | .obj fs => by
    rw [mask, hasSensitiveKey, hasSensitiveKey, hasSensitiveKeyMembers_mask fs]
  | .null => rfl
  | .bool _ => rfl
  | .num _ => rfl
  | .str _ => rfl

theorem hasSensitiveKeyEach_mask : ∀ xs : List Json,
    hasSensitiveKeyEach (maskEach xs) = hasSensitiveKeyEach xs
  | [] => rfl
  | x :: xs => by
    rw [maskEach, hasSensitiveKeyEach, hasSensitiveKeyEach, hasSensitiveKey_mask x,
      hasSensitiveKeyEach_mask xs]

theorem hasSensitiveKeyMembers_mask : ∀ fs : Fields,
    hasSensitiveKeyMembers (maskMembers fs) = hasSensitiveKeyMembers fs
  | [] => rfl
  | (k, v) :: fs => by
    rw [maskMembers, hasSensitiveKeyMembers, hasSensitiveKeyMembers,
      hasSensitiveKeyMembers_mask fs]
    by_cases hk : isSensitiveKey k = true
    · rw [hk, Bool.true_or, Bool.true_or, Bool.true_or, Bool.true_or]
    · rw [if_neg hk, hasSensitiveKey_mask v]

end

/-- A document masked like one without such a key is that one. -/
theorem eq_of_mask {j l : Json} (h : hasSensitiveKey j = false) (hmask : mask l = mask j) :
    l = j := by
  have hl : hasSensitiveKey l = false := by
    rw [← hasSensitiveKey_mask, hmask, hasSensitiveKey_mask, h]
  rwa [mask_eq_self h, mask_eq_self hl] at hmask

/-! ## What is hidden -/

/-- Where nothing deeper looks like a credential, what is recorded is read off the masked
members. -/
theorem redact_eq_of_mask : ∀ {fs gs : Fields}, Shallow fs → maskMembers gs = maskMembers fs →
    gs.filterMap redactMember = fs.filterMap redactMember
  | [], [], _, _ => rfl
  | [], (_, _) :: _, _, h => by cases h
  | (_, _) :: _, [], _, h => by cases h
  | (k, v) :: fs, (l, w) :: gs, hshallow, h => by
    rw [maskMembers, maskMembers, List.cons.injEq, Prod.mk.injEq] at h
    obtain ⟨⟨rfl, hvalue⟩, hrest⟩ := h
    have hmember : redactMember (l, w) = redactMember (l, v) := by
      unfold redactMember
      by_cases hproto : l = "__proto__"
      · rw [if_pos hproto, if_pos hproto]
      · rw [if_neg hproto, if_neg hproto]
        by_cases hl : isSensitiveKey l = true
        · rw [if_pos hl, if_pos hl]
        · rw [if_neg hl, if_neg hl] at hvalue
          have hnone := hshallow (l, v) List.mem_cons_self hproto (Bool.eq_false_of_not_eq_true hl)
          rw [eq_of_mask hnone hvalue]
    rw [List.filterMap_cons, List.filterMap_cons, hmember,
      redact_eq_of_mask (fun member hmem => hshallow member (List.mem_cons_of_mem _ hmem)) hrest]

theorem hides_of_shallow {stripUrl : JsString → Option JsString} {sha256 : List UInt8 → JsString}
    {options : BuildConnectorEvidenceOptions} (hrequest : Shallow options.request.parameters)
    (hresponse : ∀ metadata, options.response.metadata = some metadata → Shallow metadata) :
    Hides stripUrl sha256 options := by
  rintro other - ⟨parameters, metadata, rfl, hparameters, hmetadata⟩
  have hrecorded : redactSensitiveKeys metadata = redactSensitiveKeys options.response.metadata := by
    cases hgiven : options.response.metadata with
    | none =>
      rw [hgiven] at hmetadata
      rw [Option.map_eq_none_iff.mp hmetadata]
    | some given =>
      rw [hgiven] at hmetadata
      obtain ⟨shown, rfl, hshown⟩ := Option.map_eq_some_iff.mp hmetadata
      exact redact_eq_of_mask (hresponse given hgiven) hshown
  have hunhashed : unhashedEvidence stripUrl { options with
      request := { options.request with parameters }
      response := { options.response with metadata } } = unhashedEvidence stripUrl options := by
    unfold unhashedEvidence requestSummary responseSummary
    dsimp only
    rw [hrecorded]
    dsimp only [redactSensitiveKeys]
    rw [redact_eq_of_mask hrequest hparameters]
  unfold buildConnectorEvidence
  rw [hunhashed]

/-! ## What is not -/

/-- A value other than the given one, with no members. -/
def otherValue (j : Json) : Json := if j = .null then .bool true else .null

theorem otherValue_ne (j : Json) : otherValue j ≠ j := by
  unfold otherValue
  by_cases h : j = .null
  · rw [if_pos h, h]
    simp
  · rw [if_neg h]
    exact Ne.symm h

theorem otherValue_distinct (j : Json) : (otherValue j).distinct = true := by
  unfold otherValue
  split <;> rfl

mutual

/-- A document with such a key is masked like another one. -/
theorem exists_other : ∀ {j : Json}, j.distinct = true → hasSensitiveKey j = true →
    ∃ l, l ≠ j ∧ l.distinct = true ∧ mask l = mask j
  | .arr xs, hd, h => by
    obtain ⟨ys, hne, hys, hmask⟩ := exists_otherEach hd h
    refine ⟨.arr ys, fun he => hne (Json.arr.inj he), hys, ?_⟩
    rw [mask, mask, hmask]
  | .obj fs, hd, h => by
    rw [Json.distinct, Bool.and_eq_true, decide_eq_true_eq] at hd
    obtain ⟨gs, hne, hgs, hmask⟩ := exists_otherMembers hd.2 h
    refine ⟨.obj gs, fun he => hne (Json.obj.inj he), ?_, ?_⟩
    · rw [Json.distinct, Bool.and_eq_true, decide_eq_true_eq, ← maskMembers_names, hmask,
        maskMembers_names]
      exact ⟨hd.1, hgs⟩
    · rw [mask, mask, hmask]
  | .null, _, h => by cases h
  | .bool _, _, h => by cases h
  | .num _, _, h => by cases h
  | .str _, _, h => by cases h

theorem exists_otherEach : ∀ {xs : List Json}, Json.distinctEach xs = true →
    hasSensitiveKeyEach xs = true →
    ∃ ys, ys ≠ xs ∧ Json.distinctEach ys = true ∧ maskEach ys = maskEach xs
  | [], _, h => by cases h
  | x :: xs, hd, h => by
    rw [Json.distinctEach, Bool.and_eq_true] at hd
    rw [hasSensitiveKeyEach, Bool.or_eq_true] at h
    rcases h with h | h
    · obtain ⟨y, hne, hy, hmask⟩ := exists_other hd.1 h
      refine ⟨y :: xs, fun he => hne (List.cons.inj he).1, ?_, ?_⟩
      · rw [Json.distinctEach, hy, hd.2, Bool.and_self]
      · rw [maskEach, maskEach, hmask]
    · obtain ⟨ys, hne, hys, hmask⟩ := exists_otherEach hd.2 h
      refine ⟨x :: ys, fun he => hne (List.cons.inj he).2, ?_, ?_⟩
      · rw [Json.distinctEach, hys, hd.1, Bool.and_self]
      · rw [maskEach, maskEach, hmask]

theorem exists_otherMembers : ∀ {fs : Fields}, Json.distinctMembers fs = true →
    hasSensitiveKeyMembers fs = true →
    ∃ gs, gs ≠ fs ∧ Json.distinctMembers gs = true ∧ maskMembers gs = maskMembers fs
  | [], _, h => by cases h
  | (k, v) :: fs, hd, h => by
    rw [Json.distinctMembers, Bool.and_eq_true] at hd
    rw [hasSensitiveKeyMembers, Bool.or_eq_true, Bool.or_eq_true] at h
    -- the value under the key, one further down, or one under a later key
    rcases h with (h | h) | h
    · refine ⟨(k, otherValue v) :: fs, fun he => otherValue_ne v ?_, ?_, ?_⟩
      · exact congrArg Prod.snd (List.cons.inj he).1
      · rw [Json.distinctMembers, otherValue_distinct, hd.2, Bool.and_self]
      · rw [maskMembers, maskMembers, if_pos h, if_pos h]
    · obtain ⟨w, hne, hw, hmask⟩ := exists_other hd.1 h
      refine ⟨(k, w) :: fs, fun he => hne (congrArg Prod.snd (List.cons.inj he).1), ?_, ?_⟩
      · rw [Json.distinctMembers, hw, hd.2, Bool.and_self]
      · rw [maskMembers, maskMembers, hmask]
    · obtain ⟨gs, hne, hgs, hmask⟩ := exists_otherMembers hd.2 h
      refine ⟨(k, v) :: gs, fun he => hne (List.cons.inj he).2, ?_, ?_⟩
      · rw [Json.distinctMembers, hgs, hd.1, Bool.and_self]
      · rw [maskMembers, maskMembers, hmask]

end

/-- An object with such a key further down is recorded differently from one that is masked
like it. -/
theorem exists_recorded : ∀ {fs : Fields}, Json.distinctMembers fs = true → ¬ Shallow fs →
    ∃ gs, Json.distinctMembers gs = true ∧ maskMembers gs = maskMembers fs ∧
      gs.filterMap redactMember ≠ fs.filterMap redactMember
  | [], _, h => absurd (fun _ hmem => absurd hmem List.not_mem_nil) h
  | (k, v) :: fs, hd, h => by
    rw [Json.distinctMembers, Bool.and_eq_true] at hd
    by_cases hrest : Shallow fs
    · -- the first member is the one
      have hfirst : k ≠ "__proto__" ∧ isSensitiveKey k = false ∧ hasSensitiveKey v = true := by
        by_contra hnot
        refine h fun member hmem hproto hkey => ?_
        rcases List.mem_cons.mp hmem with rfl | hmem
        · exact Bool.eq_false_of_not_eq_true fun hv => hnot ⟨hproto, hkey, hv⟩
        · exact hrest member hmem hproto hkey
      obtain ⟨hproto, hkey, hv⟩ := hfirst
      obtain ⟨w, hne, hw, hmask⟩ := exists_other hd.1 hv
      have hrecorded : ∀ x, redactMember (k, x) = some (k, x) := by
        intro x
        unfold redactMember
        rw [if_neg hproto, if_neg (Bool.eq_false_iff.mp hkey)]
      refine ⟨(k, w) :: fs, ?_, ?_, fun he => hne ?_⟩
      · rw [Json.distinctMembers, hw, hd.2, Bool.and_self]
      · rw [maskMembers, maskMembers, hmask]
      · rw [List.filterMap_cons, List.filterMap_cons, hrecorded, hrecorded] at he
        exact congrArg Prod.snd (List.cons.inj he).1
    · obtain ⟨gs, hgs, hmask, hne⟩ := exists_recorded hd.2 hrest
      refine ⟨(k, v) :: gs, ?_, ?_, fun he => hne ?_⟩
      · rw [Json.distinctMembers, hgs, hd.1, Bool.and_self]
      · rw [maskMembers, maskMembers, hmask]
      · rw [List.filterMap_cons, List.filterMap_cons] at he
        cases hmember : redactMember (k, v) with
        | none =>
          rw [hmember] at he
          exact he
        | some member =>
          rw [hmember] at he
          exact (List.cons.inj he).2

/-! ## The condition -/

theorem redactMember_name {member recorded : JsString × Json}
    (h : redactMember member = some recorded) : recorded.1 = member.1 := by
  unfold redactMember at h
  split at h
  · cases h
  · cases h
    rfl

/-- What is recorded of an object lists no name twice. -/
theorem redact_distinct {fs : Fields} (h : (Json.obj fs).distinct = true) :
    (Json.obj (fs.filterMap redactMember)).distinct = true := by
  rw [Json.distinct, Bool.and_eq_true, decide_eq_true_eq, Json.distinctMembers_iff] at h ⊢
  constructor
  · have hsub : ∀ gs : Fields,
        ((gs.filterMap redactMember).map Prod.fst).Sublist (gs.map Prod.fst) := by
      intro gs
      induction gs with
      | nil => exact List.Sublist.refl _
      | cons member gs ih =>
        rw [List.filterMap_cons, List.map_cons]
        cases hmember : redactMember member with
        | none => exact ih.cons _
        | some recorded =>
          rw [List.map_cons, redactMember_name hmember]
          exact ih.cons_cons _
    exact h.1.sublist (hsub fs)
  · intro recorded hrecorded
    obtain ⟨member, hmem, hmember⟩ := List.mem_filterMap.mp hrecorded
    unfold redactMember at hmember
    split at hmember
    · cases hmember
    · cases hmember
      dsimp only
      split
      · rfl
      · exact h.2 member hmem

section
variable {stripUrl : JsString → Option JsString} {sha256 : List UInt8 → JsString}
  {options : BuildConnectorEvidenceOptions}

/-- The evidence of a well-formed request and response is built. -/
theorem buildConnectorEvidence_ok (h : WellFormed options) : ∃ hash,
    buildConnectorEvidence stripUrl sha256 options =
      .ok { unhashedEvidence stripUrl options with connectorEvidenceHash := hash } := by
  have hrequest : (Json.obj (unhashedEvidence stripUrl options).requestSummary).distinct = true := by
    show (Json.obj (requestSummary stripUrl options.request)).distinct = true
    unfold requestSummary
    rw [Json.distinct, Json.distinctMembers, Json.distinctMembers, Json.distinctMembers,
      Json.distinctMembers, redactSensitiveKeys, redact_distinct h.parameters]
    rfl
  have hresponse : (Json.obj (unhashedEvidence stripUrl options).responseSummary).distinct =
      true := by
    have hmetadata : (Json.obj (redactSensitiveKeys options.response.metadata)).distinct = true := by
      cases hgiven : options.response.metadata with
      | none => rfl
      | some metadata => exact redact_distinct (h.metadata metadata hgiven)
    show (Json.obj (responseSummary options.response)).distinct = true
    unfold responseSummary
    rw [Json.distinct, Json.distinctMembers, Json.distinctMembers, hmetadata]
    rfl
  have hdistinct : (unhashedEvidence stripUrl options).toJson.distinct = true := by
    unfold UnhashedEvidence.toJson
    rw [Json.distinct]
    simp only [Json.distinctMembers, hrequest, hresponse]
    rfl
  refine ⟨sha256 (unhashedEvidence stripUrl options).toJson.sortKeys.stringify.encode, ?_⟩
  unfold buildConnectorEvidence
  dsimp only
  rw [Crypto.serialize_json hdistinct]
  rfl

theorem shallow_of_hides (hwell : WellFormed options) (h : Hides stripUrl sha256 options) :
    Shallow options.request.parameters ∧
      ∀ metadata, options.response.metadata = some metadata → Shallow metadata := by
  -- evidence that is the same has the same summaries
  have hsame : ∀ other, WellFormed other → SameButCredentials options other →
      unhashedEvidence stripUrl other = unhashedEvidence stripUrl options := by
    intro other hother hmasked
    obtain ⟨hash, hbuilt⟩ := @buildConnectorEvidence_ok stripUrl sha256 options hwell
    obtain ⟨hash', hbuilt'⟩ := @buildConnectorEvidence_ok stripUrl sha256 other hother
    have hequal := h other hother hmasked
    rw [hbuilt, hbuilt'] at hequal
    exact congrArg ConnectorEvidence.toUnhashedEvidence (Except.ok.inj hequal)
  have hdistinct : ∀ {fs gs : Fields}, (Json.obj fs).distinct = true →
      Json.distinctMembers gs = true → maskMembers gs = maskMembers fs →
      (Json.obj gs).distinct = true := by
    intro fs gs hfs hgs hmask
    rw [Json.distinct, Bool.and_eq_true, decide_eq_true_eq] at hfs ⊢
    rw [← maskMembers_names, hmask, maskMembers_names]
    exact ⟨hfs.1, hgs⟩
  have hmembers : ∀ {fs : Fields}, (Json.obj fs).distinct = true →
      Json.distinctMembers fs = true := by
    intro fs hfs
    rw [Json.distinct, Bool.and_eq_true] at hfs
    exact hfs.2
  constructor
  · by_contra hdeep
    obtain ⟨gs, hgs, hmask, hne⟩ := exists_recorded (hmembers hwell.parameters) hdeep
    have hequal := hsame
      { options with
        request := { options.request with parameters := gs }
        response := { options.response with metadata := options.response.metadata } }
      ⟨hdistinct hwell.parameters hgs hmask, hwell.metadata⟩ ⟨gs, _, rfl, hmask, rfl⟩
    have hsummary := congrArg UnhashedEvidence.requestSummary hequal
    unfold unhashedEvidence requestSummary redactSensitiveKeys at hsummary
    simp only [List.cons.injEq, Prod.mk.injEq, Json.obj.injEq] at hsummary
    exact hne hsummary.2.2.2.1.2
  · intro metadata hgiven
    by_contra hdeep
    have hmetadata := hwell.metadata metadata hgiven
    obtain ⟨gs, hgs, hmask, hne⟩ := exists_recorded (hmembers hmetadata) hdeep
    have hequal := hsame
      { options with
        request := { options.request with parameters := options.request.parameters }
        response := { options.response with metadata := some gs } }
      ⟨hwell.parameters, fun other hother => by
        cases hother
        exact hdistinct hmetadata hgs hmask⟩
      ⟨_, some gs, rfl, rfl, by rw [hgiven, Option.map_some, Option.map_some, hmask]⟩
    have hsummary := congrArg UnhashedEvidence.responseSummary hequal
    unfold unhashedEvidence responseSummary at hsummary
    rw [hgiven] at hsummary
    simp only [redactSensitiveKeys, List.cons.injEq, Prod.mk.injEq, Json.obj.injEq] at hsummary
    exact hne hsummary.2.1.2

/-- **The evidence hides what is stored under keys that look like credentials exactly when
no such key is below the top level**, of a member that is recorded as it stands. -/
theorem hides_iff (hwell : WellFormed options) :
    Hides stripUrl sha256 options ↔ Shallow options.request.parameters ∧
      ∀ metadata, options.response.metadata = some metadata → Shallow metadata :=
  ⟨shallow_of_hides hwell, fun ⟨hrequest, hresponse⟩ => hides_of_shallow hrequest hresponse⟩

end

/-- A transfer of an invoice, with an answer that holds a token in its result. -/
def answeredWithToken (token : JsString) : BuildConnectorEvidenceOptions where
  connectorId := "ext-erp:create-invoice"
  connectorVersion := ⟨.ofNat 1, .ofNat 0, .ofNat 0⟩
  credentialProviderId := "none"
  request := {
    capability := "erp:create-invoice"
    businessTransactionId := "tx-1"
    action := "erp:create-invoice"
    target := "customer-42"
    parameters := [("amount", .num (.ofNat 250))] }
  response := {
    success := true
    metadata := some [("result", .obj [("accessToken", .str token)])] }
  startedAt := 1767225600000
  completedAt := 1767225601000
  vendorConfirmationVerified := none

/-- An answer that holds it under a key that looks like a credential, and an invoice in its
result. -/
def answeredWithCredentials (token : JsString) : BuildConnectorEvidenceOptions :=
  { answeredWithToken "" with
    response := {
      success := true
      metadata := some [("credentials", .obj [("accessToken", .str token)]),
        ("result", .obj [("invoice", .obj [("number", "2026-17")])])] } }

/-- This answer is hidden: with another token the evidence is the same. -/
theorem answer_hides : Hides some (fun _ => "") (answeredWithCredentials "t1") ∧
    buildConnectorEvidence some (fun _ => "") (answeredWithCredentials "t2") =
      buildConnectorEvidence some (fun _ => "") (answeredWithCredentials "t1") := by
  have hwell : ∀ token, WellFormed (answeredWithCredentials token) :=
    fun token => ⟨rfl, fun metadata h => by cases h; rfl⟩
  have hides : Hides some (fun _ => "") (answeredWithCredentials "t1") := by
    refine (hides_iff (hwell "t1")).mpr ⟨?_, fun metadata h => ?_⟩
    · unfold Shallow
      decide
    · cases h
      unfold Shallow
      decide
  exact ⟨hides, hides _ (hwell "t2") ⟨_, _, rfl, rfl, by decide⟩⟩

/-- The token in the result is part of the evidence: with another one the evidence is
another. -/
theorem token_recorded : ¬ Hides some (fun _ => "") (answeredWithToken "t1") := by
  intro h
  obtain ⟨-, hshallow⟩ := (shallow_of_hides ⟨by decide, fun metadata h => by cases h; decide⟩ h)
  have hnone := hshallow _ rfl _ List.mem_cons_self (by decide) (by decide)
  revert hnone
  decide

end Parmana

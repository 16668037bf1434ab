import Parmana.Crypto.SignatureCommitment
import Parmana.Js.Time

/-! # The release of an external connector

An approved request for a registered capability leaves as a document that says what
was approved, for whom and until when, signed over its canonical bytes.  It is sent as
the JSON text of the document and its signature.
-/
namespace Parmana.Connectors
open Js

def EXTERNAL_RELEASE_TTL_MS : Nat := 60000

/-! ## The document -/

structure ConnectorRequest where
  capability : JsString
  businessTransactionId : JsString
  action : JsString
  target : JsString
  parameters : Fields

structure ReleasePolicy where
  name : JsString
  version : JsString
  contentHash : Option JsString

structure ReleaseApproval where
  approverId : JsString
  keyId : JsString
  approvalId : JsString

/-- The signed authorization's identity and policy, and the human approvals behind a
release. -/
structure ConnectorReleaseContext where
  authorizationId : JsString
  policy : ReleasePolicy
  approvals : List ReleaseApproval

structure ExternalRelease where
  connectorId : JsString
  audience : JsString
  businessTransactionId : JsString
  authorizationId : JsString
  capability : JsString
  target : JsString
  parameters : Fields
  policy : ReleasePolicy
  approvedBy : List ReleaseApproval
  issuedAt : JsString
  expiresAt : JsString

structure ReleaseSignature where
  algorithm : JsString
  keyId : JsString
  value : JsString

structure SignedExternalRelease where
  release : ExternalRelease
  signature : ReleaseSignature

def ReleasePolicy.toJson (policy : ReleasePolicy) : Json :=
  match policy.contentHash with
  | none => .obj [("name", .str policy.name), ("version", .str policy.version)]
  | some contentHash =>
    .obj [("name", .str policy.name), ("version", .str policy.version),
      ("contentHash", .str contentHash)]

def ReleaseApproval.toJson (approval : ReleaseApproval) : Json :=
  .obj [("approverId", .str approval.approverId), ("keyId", .str approval.keyId),
    ("approvalId", .str approval.approvalId)]

def ExternalRelease.fields (release : ExternalRelease) : Fields :=
  [("version", .num (.ofNat 1)), ("connectorId", .str release.connectorId),
    ("audience", .str release.audience),
    ("businessTransactionId", .str release.businessTransactionId),
    ("authorizationId", .str release.authorizationId), ("capability", .str release.capability),
    ("target", .str release.target), ("parameters", .obj release.parameters),
    ("policy", release.policy.toJson),
    ("approvedBy", .arr (release.approvedBy.map ReleaseApproval.toJson)),
    ("issuedAt", .str release.issuedAt), ("expiresAt", .str release.expiresAt)]

def ExternalRelease.toJson (release : ExternalRelease) : Json := .obj release.fields

def ReleaseSignature.fields (signature : ReleaseSignature) : Fields :=
  [("algorithm", .str signature.algorithm), ("keyId", .str signature.keyId),
    ("value", .str signature.value)]

/-- The body that is sent: `JSON.stringify` writes its text. -/
def SignedExternalRelease.toJson (signed : SignedExternalRelease) : Json :=
  .obj [("release", signed.release.toJson), ("signature", .obj signed.signature.fields)]

/-! ## Signing -/

/-- A signer: it signs the bytes with a key, and says what algorithm a key is of. -/
structure ReleaseSigner where
  sign : JsString → List UInt8 → Except JsString (List Char)
  algorithm : JsString → Except JsString JsString

/-- `date.toISOString()`. -/
def isoText : Option Int → Except JsString JsString
  | none => .error "Invalid time value"
  | some time => .ok (toISOString time)

/-- The number of `date.getTime()`. -/
def timeNumber : Option Int → JsNumber
  | none => .nan
  | some time => .ofInt time

/-- When a release issued at `issuedAt` expires. -/
def releaseExpiry (issuedAt : Option Int) : Option Int :=
  timeClip ((timeNumber issuedAt).add (.ofNat EXTERNAL_RELEASE_TTL_MS))

structure GatewayExternalAdapter where
  connectorId : JsString
  /-- `url.href`. -/
  href : JsString
  keyId : JsString

namespace GatewayExternalAdapter

/-- The body of `sign`: what is released. -/
def releaseBody (adapter : GatewayExternalAdapter) (request : ConnectorRequest)
    (context : ConnectorReleaseContext) (issuedAt : Option Int) :
    Except JsString ExternalRelease := do
  return {
    connectorId := adapter.connectorId
    audience := adapter.href
    businessTransactionId := request.businessTransactionId
    authorizationId := context.authorizationId
    capability := request.capability
    target := request.target
    parameters := request.parameters
    policy := context.policy
    approvedBy := context.approvals
    issuedAt := ← isoText issuedAt
    expiresAt := ← isoText (releaseExpiry issuedAt) }

/-- `sign`, at the time the clock gives. -/
def sign (adapter : GatewayExternalAdapter) (signer : ReleaseSigner) (request : ConnectorRequest)
    (context : ConnectorReleaseContext) (issuedAt : Option Int) :
    Except JsString SignedExternalRelease := do
  let body ← adapter.releaseBody request context issuedAt
  let value ← signer.sign adapter.keyId (← Crypto.serialize (.ofJson body.toJson))
  let algorithm ← signer.algorithm adapter.keyId
  return {
    release := body
    signature := { algorithm, keyId := adapter.keyId, value := ⟨value.flatMap utf16⟩ } }

end GatewayExternalAdapter

/-! ## What is signed -/

section
variable {adapter : GatewayExternalAdapter} {signer : ReleaseSigner} {request : ConnectorRequest}
  {context : ConnectorReleaseContext} {issuedAt : Option Int} {signed : SignedExternalRelease}

/-- What `sign` answers with: a release to this endpoint that expires when it says, and a
signature of its canonical bytes. -/
structure GatewayExternalAdapter.Signed (adapter : GatewayExternalAdapter) (signer : ReleaseSigner)
    (request : ConnectorRequest) (issuedAt : Option Int) (signed : SignedExternalRelease) :
    Prop where
  audience : signed.release.audience = adapter.href
  parameters : signed.release.parameters = request.parameters
  expiresAt : ∃ expiry, releaseExpiry issuedAt = some expiry ∧
    signed.release.expiresAt = toISOString expiry
  keyId : signed.signature.keyId = adapter.keyId
  algorithm : signer.algorithm adapter.keyId = .ok signed.signature.algorithm
  value : ∃ bytes text, Crypto.serialize (.ofJson signed.release.toJson) = .ok bytes ∧
    signer.sign adapter.keyId bytes = .ok text ∧ signed.signature.value = ⟨text.flatMap utf16⟩

theorem isoText_ok {time : Option Int} {text : JsString} (h : isoText time = .ok text) :
    ∃ t, time = some t ∧ text = toISOString t := by
  cases time with
  | none => cases h
  | some t => exact ⟨t, rfl, (Except.ok.inj h).symm⟩

theorem GatewayExternalAdapter.signed_of_sign
    (h : adapter.sign signer request context issuedAt = .ok signed) :
    adapter.Signed signer request issuedAt signed := by
  unfold GatewayExternalAdapter.sign at h
  obtain ⟨body, hbody, h⟩ := bind_eq_ok.mp h
  obtain ⟨bytes, hbytes, h⟩ := bind_eq_ok.mp h
  obtain ⟨value, hvalue, h⟩ := bind_eq_ok.mp h
  obtain ⟨algorithm, halgorithm, h⟩ := bind_eq_ok.mp h
  cases h
  unfold GatewayExternalAdapter.releaseBody at hbody
  obtain ⟨issued, -, hbody⟩ := bind_eq_ok.mp hbody
  obtain ⟨expires, hexpires, hbody⟩ := bind_eq_ok.mp hbody
  cases hbody
  obtain ⟨expiry, hexpiry, rfl⟩ := isoText_ok hexpires
  exact {
    audience := rfl
    parameters := rfl
    expiresAt := ⟨expiry, hexpiry, rfl⟩
    keyId := rfl
    algorithm := halgorithm
    value := ⟨bytes, value, hbytes, hvalue, rfl⟩ }

end

/-- A document whose parameters have distinct names at every depth has distinct names at
every depth. -/
theorem ExternalRelease.toJson_distinct {release : ExternalRelease}
    (h : (Json.obj release.parameters).distinct = true) : release.toJson.distinct = true := by
  have hpolicy : release.policy.toJson.distinct = true := by
    unfold ReleasePolicy.toJson
    cases release.policy.contentHash <;> rfl
  have happrovals : Json.distinctEach (release.approvedBy.map ReleaseApproval.toJson) = true := by
    induction release.approvedBy with
    | nil => rfl
    | cons approval approvals ih =>
      rw [List.map_cons, Json.distinctEach, ih]
      rfl
  have hnames : (release.fields.map Prod.fst).Nodup := by
    have hlist : release.fields.map Prod.fst = ([("version" : JsString), "connectorId", "audience",
        "businessTransactionId", "authorizationId", "capability", "target", "parameters", "policy",
        "approvedBy", "issuedAt", "expiresAt"] : List JsString) := rfl
    rw [hlist]
    decide
  rw [ExternalRelease.toJson, Json.distinct, Bool.and_eq_true, decide_eq_true_eq,
    Json.distinctMembers_iff]
  refine ⟨hnames, fun member hmember => ?_⟩
  unfold ExternalRelease.fields at hmember
  simp only [List.mem_cons, List.not_mem_nil, or_false] at hmember
  rcases hmember with rfl | rfl | rfl | rfl | rfl | rfl | rfl | rfl | rfl | rfl | rfl | rfl
  all_goals first | rfl | exact h | exact hpolicy | exact happrovals

end Parmana.Connectors

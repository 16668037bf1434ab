import Parmana.Connectors.ExternalRelease
import Parmana.Connectors.Paytm
import Parmana.Js.Url

/-! # The objects of two vendors

Two adapters call a vendor under a path that is put together from the request: GitHub's
from the three parts that a regular expression finds in the target, as they are, and
HubSpot's from the deal id, percent encoded.  `fetch` parses the whole URL once more, and
what it calls is what comes out of that.

A pull request is called under exactly the parts of its target when the owner and the
repository are kept by the parser, and a deal when its id is not one or two dots
(`vendor_object_iff`).  Other targets reach other objects: a target in one repository can
be a request to merge in another (`merged_elsewhere`).
-/
namespace Parmana.Connectors
open Js

/-! ## Calls -/

/-- A call of a vendor's API; the path is what follows the base URL. -/
structure VendorCall where
  method : JsString
  path : JsString
  body : Option Json

/-- `requireString`, of either connector. -/
def requiredString (connector : JsString) (value : Option Json) (field : JsString) :
    Except Failure JsString :=
  let missing : Except Failure JsString :=
    .error (.error (connector ++ (" request is missing required field \"" : JsString) ++ field ++
      ("\"." : JsString)))
  match value with
  | some (.str text) => if text.length = 0 then missing else .ok text
  | _ => missing

/-- A member of a body that is there when the request has a value for it. -/
def optionalMember (value : Option Json) (name : JsString)
    (read : Json → Except Failure JsString) : Except Failure Fields :=
  match value with
  | none => .ok []
  | some value => do
    let text ← read value
    return [(name, .str text)]

/-- The credential that a vendor's calls carry: the text under a name. -/
def credentialToken (name : JsString) (value : Json) : Option JsString :=
  match value with
  | .obj fields =>
    match Fields.own? fields name with
    | some (.str token) => if token.length = 0 then none else some token
    | _ => none
  | _ => none

/-! ## GitHub -/

def GITHUB_PR_FETCH_CAPABILITY : JsString := "github:pr-fetch"

def GITHUB_PR_MERGE_CAPABILITY : JsString := "github:pr-merge"

def GITHUB_ALLOWED_MERGE_METHODS : List JsString := ["merge", "squash", "rebase"]

def GITHUB_TEST_MODE_PLACEHOLDER_TOKEN : JsString := "ghs_test_mode_placeholder_0000000000000000"

/-- What `parseTarget` finds in a target. -/
structure GitHubTarget where
  owner : JsString
  repo : JsString
  pullNumber : JsString
  deriving DecidableEq

/-- `<owner>/<repo>#<pull_number>`. -/
def GitHubTarget.toTarget (t : GitHubTarget) : JsString :=
  t.owner ++ "/" ++ t.repo ++ "#" ++ t.pullNumber

def isDigit (u : UInt16) : Bool := 0x30 ≤ u && u ≤ 0x39

/-- The pattern `^([^/]+)\/([^#]+)#(\d+)$`: the owner ends at the first slash, and the
repository at the first number sign after it. -/
def matchTarget (target : JsString) : Option GitHubTarget :=
  let owner := target.units.takeWhile (fun u => u != 0x2F)
  match target.units.dropWhile (fun u => u != 0x2F) with
  | [] => none
  | _ :: rest =>
    let repo := rest.takeWhile (fun u => u != 0x23)
    match rest.dropWhile (fun u => u != 0x23) with
    | [] => none
    | _ :: pullNumber =>
      if owner ≠ [] ∧ repo ≠ [] ∧ pullNumber ≠ [] ∧ pullNumber.all isDigit = true then
        some ⟨⟨owner⟩, ⟨repo⟩, ⟨pullNumber⟩⟩
      else none

/-- `parseTarget`. -/
def parseTarget (target : JsString) : Except Failure GitHubTarget :=
  match matchTarget target with
  | some t => .ok t
  | none => .error (.error (("GitHubConnector received an invalid target \"" : JsString) ++ target ++
      ("\". Expected \"<owner>/<repo>#<pull_number>\"." : JsString)))

structure GatewayGitHubAdapter where
  connectorId : JsString
  capabilities : List JsString
  baseUrl : JsString

namespace GatewayGitHubAdapter

def DEFAULT_BASE_URL : JsString := "https://api.github.com"

def named (self : GatewayGitHubAdapter) (rest : JsString) : Failure :=
  .error (("GitHubConnector \"" : JsString) ++ self.connectorId ++ ("\"" : JsString) ++ rest)

/-- The path of a pull request. -/
def pullPath (t : GitHubTarget) : JsString :=
  ("/repos/" : JsString) ++ t.owner ++ ("/" : JsString) ++ t.repo ++ ("/pulls/" : JsString) ++
    t.pullNumber

/-- `fetchPullRequest`, to its call. -/
def fetchPullRequest (request : ConnectorRequest) : Except Failure VendorCall := do
  let t ← parseTarget request.target
  return ⟨"GET", pullPath t, none⟩

/-- `mergePullRequest`, to its call. -/
def mergePullRequest (self : GatewayGitHubAdapter) (request : ConnectorRequest) :
    Except Failure VendorCall := do
  let t ← parseTarget request.target
  let mergeMethod ← requiredString "GitHubConnector" (request.parameters.own? "mergeMethod")
    "parameters.mergeMethod"
  refuseIf (mergeMethod ∉ GITHUB_ALLOWED_MERGE_METHODS)
    (self.named ((" refuses to merge with unsupported merge method \"" : JsString) ++ mergeMethod ++
      ("\". Only " : JsString) ++ JsString.join ", " GITHUB_ALLOWED_MERGE_METHODS ++
      (" are permitted." : JsString)))
  let sha ← optionalMember (request.parameters.own? "expectedHeadSha") "sha" fun value =>
    requiredString "GitHubConnector" (some value) "parameters.expectedHeadSha"
  return ⟨"PUT", pullPath t ++ ("/merge" : JsString),
    some (.obj (("merge_method", .str mergeMethod) :: sha))⟩

/-- `execute`, to the call it makes. -/
def execute (self : GatewayGitHubAdapter) (request : ConnectorRequest) (credential : Json) :
    Except Failure VendorCall := do
  refuseIf (request.capability ∉ self.capabilities)
    (self.named ((" does not declare capability \"" : JsString) ++ request.capability ++
      ("\"." : JsString)))
  match credentialToken "installationToken" credential with
  | none => .error (self.named
      (" received a credential that is not a resolved GitHub App installation token." : JsString))
  | some token => do
    refuseIf (self.baseUrl = DEFAULT_BASE_URL ∧ token = GITHUB_TEST_MODE_PLACEHOLDER_TOKEN)
      (self.named ((" refuses to send the built-in test-mode placeholder credential to GitHub's " ++
        "real API (" : String) ++ DEFAULT_BASE_URL ++ ("). This placeholder is only safe against " ++
        "a mock server reached via an explicit baseUrl override." : String)))
    if request.capability = GITHUB_PR_FETCH_CAPABILITY then fetchPullRequest request
    else if request.capability = GITHUB_PR_MERGE_CAPABILITY then self.mergePullRequest request
    else .error (self.named ((" has no handler for capability \"" : JsString) ++
      request.capability ++ ("\"." : JsString)))

end GatewayGitHubAdapter

/-! ## HubSpot -/

def HUBSPOT_DEAL_FETCH_CAPABILITY : JsString := "hubspot:deal-fetch"

def HUBSPOT_DEAL_UPDATE_CAPABILITY : JsString := "hubspot:deal-update"

def HUBSPOT_ALLOWED_DEAL_UPDATE_PROPERTIES : List JsString := ["dealstage", "amount"]

def HUBSPOT_TEST_MODE_PLACEHOLDER_TOKEN : JsString := "hubspot-test-mode-placeholder"

structure GatewayHubSpotAdapter where
  connectorId : JsString
  capabilities : List JsString
  baseUrl : JsString

namespace GatewayHubSpotAdapter

def DEFAULT_BASE_URL : JsString := "https://api.hubapi.com"

def named (self : GatewayHubSpotAdapter) (rest : JsString) : Failure :=
  .error (("HubSpotConnector \"" : JsString) ++ self.connectorId ++ ("\"" : JsString) ++ rest)

/-- `requireNumber`. -/
def requireNumber (value : Json) (field : JsString) : Except Failure JsNumber :=
  let refused : Except Failure JsNumber :=
    .error (.error (("HubSpotConnector request field \"" : JsString) ++ field ++
      ("\" must be a finite number." : JsString)))
  match value with
  | .num n => if n.isFinite then .ok n else refused
  | _ => refused

/-- `encodeURIComponent(dealId)` in a path; what it throws is a `URIError`. -/
def dealPath (dealId : JsString) : Except Failure JsString :=
  match Url.encodeURIComponent dealId with
  | .ok text => .ok (("/crm/v3/objects/deals/" : JsString) ++ text)
  | .error message => .error (.error message)

/-- `fetchDeal`, to its call. -/
def fetchDeal (request : ConnectorRequest) : Except Failure VendorCall := do
  let dealId ← requiredString "HubSpotConnector" (request.parameters.own? "dealId")
    "parameters.dealId"
  let path ← dealPath dealId
  return ⟨"GET", path ++ ("?properties=dealstage,amount,pipeline" : JsString), none⟩

/-- `updateDeal`, to its call. -/
def updateDeal (self : GatewayHubSpotAdapter) (request : ConnectorRequest) :
    Except Failure VendorCall := do
  let dealId ← requiredString "HubSpotConnector" (request.parameters.own? "dealId")
    "parameters.dealId"
  let disallowedKeys := request.parameters.keys.filter fun key =>
    key ≠ ("dealId" : JsString) ∧ key ∉ HUBSPOT_ALLOWED_DEAL_UPDATE_PROPERTIES
  refuseIf (disallowedKeys ≠ [])
    (self.named ((" refuses to update unsupported deal propert" : JsString) ++
      (if disallowedKeys.length = 1 then ("y" : JsString) else "ies") ++ (" " : JsString) ++
      JsString.join ", "
        (disallowedKeys.map fun key => ("\"" : JsString) ++ key ++ ("\"" : JsString)) ++
      (". Only " : JsString) ++ JsString.join ", " HUBSPOT_ALLOWED_DEAL_UPDATE_PROPERTIES ++
      (" are touchable this milestone." : JsString)))
  let dealstage := request.parameters.own? "dealstage"
  let amount := request.parameters.own? "amount"
  refuseIf (dealstage = none ∧ amount = none)
    (self.named (" received a deal-update request with neither dealstage nor amount set — there " ++
      "is nothing to update." : String))
  let stage ← optionalMember dealstage "dealstage" fun value =>
    requiredString "HubSpotConnector" (some value) "parameters.dealstage"
  let amounts ← optionalMember amount "amount" fun value =>
    JsNumber.toText <$> requireNumber value "parameters.amount"
  let path ← dealPath dealId
  return ⟨"PATCH", path, some (.obj [("properties", .obj (stage ++ amounts))])⟩

/-- `execute`, to the call it makes. -/
def execute (self : GatewayHubSpotAdapter) (request : ConnectorRequest) (credential : Json) :
    Except Failure VendorCall := do
  refuseIf (request.capability ∉ self.capabilities)
    (self.named ((" does not declare capability \"" : JsString) ++ request.capability ++
      ("\"." : JsString)))
  match credentialToken "privateAppToken" credential with
  | none => .error (self.named
      (" received a credential that is not a resolved HubSpot Private App token." : JsString))
  | some token => do
    refuseIf (self.baseUrl = DEFAULT_BASE_URL ∧ token = HUBSPOT_TEST_MODE_PLACEHOLDER_TOKEN)
      (self.named ((" refuses to send the built-in test-mode placeholder credential to HubSpot's " ++
        "real API (" : String) ++ DEFAULT_BASE_URL ++ ("). This placeholder is only safe against " ++
        "a mock server reached via an explicit baseUrl override. Configure " ++
        "TEST_HUBSPOT_PRIVATE_APP_TOKEN (or HUBSPOT_PRIVATE_APP_TOKEN in production) with a real " ++
        "Private App token, or point baseUrl at a mock server." : String)))
    if request.capability = HUBSPOT_DEAL_FETCH_CAPABILITY then fetchDeal request
    else if request.capability = HUBSPOT_DEAL_UPDATE_CAPABILITY then self.updateDeal request
    else .error (self.named ((" has no handler for capability \"" : JsString) ++
      request.capability ++ ("\"." : JsString)))

end GatewayHubSpotAdapter

/-! ## The objects that are called -/

open Url

/-- The parts of the path that a pull request has. -/
def pullParts (request : ConnectorRequest) (t : GitHubTarget) : List JsString :=
  ([("repos" : JsString), t.owner, t.repo, "pulls", t.pullNumber] : List JsString) ++
    if request.capability = GITHUB_PR_FETCH_CAPABILITY then [] else [("merge" : JsString)]

/-- The parts of the path that a deal has. -/
def dealParts (dealId : JsString) : List JsString := ["crm", "v3", "objects", "deals", dealId]

/-- What stands behind the path of a deal. -/
def dealTail (request : ConnectorRequest) : JsString :=
  if request.capability = HUBSPOT_DEAL_FETCH_CAPABILITY then
    ("?properties=dealstage,amount,pipeline" : JsString) else ""

/-- What is asked of a deal that is fetched. -/
def dealQuery (request : ConnectorRequest) : Option (List UInt8) :=
  if request.capability = HUBSPOT_DEAL_FETCH_CAPABILITY then
    some ("properties=dealstage,amount,pipeline" : JsString).encode
  else none

/-- The call goes to the pull request of the target, and says no more. -/
def GatewayGitHubAdapter.Exact (request : ConnectorRequest) (made : VendorCall) : Prop :=
  ∃ t, parseTarget request.target = .ok t ∧ Addresses made.path (pullParts request t) none

/-- The call goes to the deal of the request, with the adapter's own query. -/
def GatewayHubSpotAdapter.Exact (request : ConnectorRequest) (made : VendorCall) : Prop :=
  ∃ dealId, request.parameters.own? "dealId" = some (.str dealId) ∧
    Addresses made.path (dealParts dealId) (dealQuery request)

/-- A part is a text of paired surrogates that the URL parser keeps: without a tab or a
newline, a slash or a backslash, a `?` or a `#`, without a percent escape, and not one or
two dots. -/
def KeptPart (part : JsString) : Prop := Kept part.encode ∧ JsString.paired part.units = true

/-- The owner and the repository of the target are kept. -/
def GatewayGitHubAdapter.TargetKept (request : ConnectorRequest) : Prop :=
  ∀ t, parseTarget request.target = .ok t → KeptPart t.owner ∧ KeptPart t.repo

/-- The deal id is not one or two dots. -/
def GatewayHubSpotAdapter.DealKept (request : ConnectorRequest) : Prop :=
  request.parameters.own? "dealId" ≠ some (.str ".") ∧
    request.parameters.own? "dealId" ≠ some (.str "..")

section GitHub
variable {request : ConnectorRequest} {made : VendorCall} {t : GitHubTarget}

theorem GitHubTarget.units_toTarget (t : GitHubTarget) : t.toTarget.units =
    t.owner.units ++ 0x2F :: (t.repo.units ++ 0x23 :: t.pullNumber.units) := by
  have happend : t.toTarget.units =
    (((t.owner.units ++ [0x2F]) ++ t.repo.units) ++ [0x23]) ++ t.pullNumber.units := rfl
  rw [happend]
  simp

/-- The target is its three parts. -/
theorem matchTarget_eq_some (h : matchTarget request.target = some t) :
    request.target = t.toTarget ∧ t.pullNumber.units ≠ [] ∧
      t.pullNumber.units.all isDigit = true := by
  unfold matchTarget at h
  dsimp only at h
  split at h
  · cases h
  next c rest hrest =>
    split at h
    · cases h
    next d pullNumber hpull =>
      split at h
      next hall =>
        cases h
        refine ⟨?_, hall.2.2.1, hall.2.2.2⟩
        have howner := List.takeWhile_append_dropWhile (p := fun u => u != 0x2F)
          (l := request.target.units)
        have hrepo := List.takeWhile_append_dropWhile (p := fun u => u != 0x23) (l := rest)
        have hslash : c = 0x2F := by
          have := List.head_dropWhile_not (p := fun u => u != 0x2F) (l := request.target.units)
            (by rw [hrest]; exact List.cons_ne_nil _ _)
          simpa [hrest] using this
        have hsign : d = 0x23 := by
          have := List.head_dropWhile_not (p := fun u => u != 0x23) (l := rest)
            (by rw [hpull]; exact List.cons_ne_nil _ _)
          simpa [hpull] using this
        rw [hrest, hslash] at howner
        rw [hpull, hsign] at hrepo
        refine congrArg JsString.mk (Eq.trans ?_ (GitHubTarget.units_toTarget _).symm)
        dsimp only
        rw [hrepo, howner]
      · cases h

theorem parseTarget_eq_ok (h : parseTarget request.target = .ok t) :
    request.target = t.toTarget ∧ t.pullNumber.units ≠ [] ∧
      t.pullNumber.units.all isDigit = true := by
  unfold parseTarget at h
  split at h
  next hmatch =>
    cases h
    exact matchTarget_eq_some hmatch
  · cases h

theorem isDigit_iff {u : UInt16} : isDigit u = true ↔ 0x30 ≤ u.toNat ∧ u.toNat ≤ 0x39 := by
  rw [isDigit, Bool.and_eq_true, decide_eq_true_eq, decide_eq_true_eq, UInt16.le_iff_toNat_le,
    UInt16.le_iff_toNat_le]
  exact Iff.rfl

/-- Digits are kept. -/
theorem keptPart_of_digits {digits : List UInt16} (h : digits.all isDigit = true) :
    KeptPart ⟨digits⟩ := by
  have hdigit : ∀ u ∈ digits, 0x30 ≤ u.toNat ∧ u.toNat ≤ 0x39 := fun u hu =>
    isDigit_iff.mp (List.all_eq_true.mp h u hu)
  have hbytes : ∀ b ∈ JsString.encode ⟨digits⟩, 0x30 ≤ b.toNat ∧ b.toNat ≤ 0x39 := by
    rw [encode_of_below fun u hu => by have := hdigit u hu; omega]
    refine List.forall_mem_map.mpr fun u hu => ?_
    have := hdigit u hu
    rw [UInt8.toNat_ofNat']
    omega
  have hne : ∀ b ∈ JsString.encode ⟨digits⟩, ∀ c : UInt8, c.toNat < 0x30 ∨ 0x39 < c.toNat → b ≠ c := by
    rintro b hb c hc rfl
    have := hbytes b hb
    omega
  refine ⟨⟨fun b hb => ?_, hasEscape_of_not_mem fun hb => hne _ hb 0x25 (.inl (by decide)) rfl,
    fun heq => ?_, fun heq => ?_⟩, JsString.paired_of_below fun u hu => ?_⟩
  · have hb' := hne b hb
    unfold InnerByte isTabOrNewline isSeparator endsPath
    simp [hb' 0x09 (.inl (by decide)), hb' 0x0A (.inl (by decide)), hb' 0x0D (.inl (by decide)),
      hb' 0x2F (.inl (by decide)), hb' 0x5C (.inr (by decide)), hb' 0x3F (.inr (by decide)),
      hb' 0x23 (.inl (by decide))]
  · exact hne 0x2E (heq ▸ List.mem_cons_self) 0x2E (.inl (by decide)) rfl
  · exact hne 0x2E (heq ▸ List.mem_cons_self) 0x2E (.inl (by decide)) rfl
  · have := hdigit u hu
    exact UInt16.lt_iff_toNat_lt.mpr (lt_of_le_of_lt this.2 (by decide))

theorem pullPath_eq (t : GitHubTarget) (merge : List JsString) :
    joinedUnits (([("repos" : JsString), t.owner, t.repo, "pulls", t.pullNumber] : List JsString) ++
        merge) = (GatewayGitHubAdapter.pullPath t).units ++ joinedUnits merge := by
  have hpath : (GatewayGitHubAdapter.pullPath t).units =
    ((((("/repos/" : JsString).units ++ t.owner.units) ++ [0x2F]) ++ t.repo.units) ++
      ("/pulls/" : JsString).units) ++ t.pullNumber.units := rfl
  have hrepos : ("/repos/" : JsString).units = 0x2F :: (("repos" : JsString).units ++ [0x2F]) := by
    decide
  have hpulls : ("/pulls/" : JsString).units = 0x2F :: (("pulls" : JsString).units ++ [0x2F]) := by
    decide
  rw [hpath, hrepos, hpulls]
  simp [joinedUnits]

theorem kept_literals : KeptPart "repos" ∧ KeptPart "pulls" ∧ KeptPart "merge" := by
  have hkept : ∀ text ∈ ([("repos" : JsString), "pulls", "merge"] : List JsString), KeptPart text := by
    intro text htext
    simp only [List.mem_cons, List.not_mem_nil, or_false] at htext
    rcases htext with rfl | rfl | rfl
    all_goals exact ⟨⟨inner_of_all (by decide), by decide, by decide, by decide⟩, by decide⟩
  exact ⟨hkept _ (by simp), hkept _ (by simp), hkept _ (by simp)⟩

/-- A call that the adapter makes is to the path of the target's parts. -/
theorem GatewayGitHubAdapter.path_of_execute {self : GatewayGitHubAdapter} {credential : Json}
    (h : self.execute request credential = .ok made) :
    ∃ t, parseTarget request.target = .ok t ∧
      made.path = ⟨joinedUnits (pullParts request t)⟩ := by
  unfold execute at h
  obtain ⟨-, -, h⟩ := bind_eq_ok.mp h
  split at h
  · cases h
  · obtain ⟨-, -, h⟩ := bind_eq_ok.mp h
    split at h
    next hfetch =>
      unfold fetchPullRequest at h
      obtain ⟨t, ht, h⟩ := bind_eq_ok.mp h
      cases h
      refine ⟨t, ht, congrArg JsString.mk ?_⟩
      rw [pullParts, if_pos hfetch, pullPath_eq]
      exact (List.append_nil _).symm
    next hfetch =>
      split at h
      · unfold mergePullRequest at h
        obtain ⟨t, ht, h⟩ := bind_eq_ok.mp h
        obtain ⟨mergeMethod, -, h⟩ := bind_eq_ok.mp h
        obtain ⟨-, -, h⟩ := bind_eq_ok.mp h
        obtain ⟨sha, -, h⟩ := bind_eq_ok.mp h
        cases h
        refine ⟨t, ht, congrArg JsString.mk ?_⟩
        rw [pullParts, if_neg hfetch, pullPath_eq]
        rfl
      · cases h

theorem GatewayGitHubAdapter.exactPull_iff {self : GatewayGitHubAdapter} {credential : Json}
    (h : self.execute request credential = .ok made) : Exact request made ↔ TargetKept request := by
  obtain ⟨t, ht, hpath⟩ := path_of_execute h
  have hparts : pullParts request t = ("repos" : JsString) :: ([t.owner, t.repo, ("pulls" : JsString),
      t.pullNumber] ++ if request.capability = GITHUB_PR_FETCH_CAPABILITY then []
        else [("merge" : JsString)]) := rfl
  have hkept : Exact request made ↔ ∀ part ∈ pullParts request t, KeptPart part := by
    rw [hparts] at hpath
    constructor
    · rintro ⟨t', ht', haddresses⟩
      rw [ht] at ht'
      cases ht'
      rw [hparts, hpath] at haddresses
      rw [hparts]
      exact addresses_joinedUnits_iff.mp haddresses
    · intro hall
      refine ⟨t, ht, ?_⟩
      rw [hparts] at hall ⊢
      rw [hpath]
      exact addresses_joinedUnits_iff.mpr hall
  rw [hkept]
  constructor
  · intro hall t' ht'
    rw [ht] at ht'
    cases ht'
    exact ⟨hall _ (by simp [hparts]), hall _ (by simp [hparts])⟩
  · intro hkept part hpart
    obtain ⟨howner, hrepo⟩ := hkept t ht
    obtain ⟨hrepos, hpulls, hmerge⟩ := kept_literals
    have hnumber := keptPart_of_digits (parseTarget_eq_ok ht).2.2
    rw [hparts] at hpart
    simp only [List.mem_cons, List.cons_append, List.nil_append] at hpart
    rcases hpart with rfl | rfl | rfl | rfl | rfl | hpart
    · exact hrepos
    · exact howner
    · exact hrepo
    · exact hpulls
    · exact hnumber
    · split at hpart
      · exact absurd hpart List.not_mem_nil
      · rw [List.mem_singleton.mp hpart]
        exact hmerge

/-- Calls that go to their pull requests, to one object, have one target. -/
theorem GatewayGitHubAdapter.target_of_exact {request' : ConnectorRequest} {made' : VendorCall}
    (h : Exact request made) (h' : Exact request' made')
    (hsame : (parse made.path.encode).segments.map percentDecode =
      (parse made'.path.encode).segments.map percentDecode) :
    request.target = request'.target := by
  obtain ⟨t, ht, haddresses⟩ := h
  obtain ⟨t', ht', haddresses'⟩ := h'
  have hparts := parts_of_names haddresses.1 haddresses'.1 hsame
  unfold pullParts at hparts
  simp only [List.cons_append, List.nil_append, List.cons.injEq] at hparts
  rw [(parseTarget_eq_ok ht).1, (parseTarget_eq_ok ht').1, GitHubTarget.toTarget,
    GitHubTarget.toTarget, hparts.2.1, hparts.2.2.1, hparts.2.2.2.2.1]

end GitHub

section HubSpot
variable {request : ConnectorRequest} {made : VendorCall} {dealId : JsString}

theorem requiredString_eq_ok {connector field text : JsString} {value : Option Json}
    (h : requiredString connector value field = .ok text) : value = some (.str text) := by
  unfold requiredString at h
  dsimp only at h
  split at h
  · split at h
    · cases h
    · cases h
      rfl
  · cases h

theorem GatewayHubSpotAdapter.dealPath_eq_ok {path : JsString} (h : dealPath dealId = .ok path) :
    ∃ text, encodeURIComponent dealId = .ok text ∧
      path = ("/crm/v3/objects/deals/" : JsString) ++ text := by
  unfold dealPath at h
  split at h
  next text htext =>
    cases h
    exact ⟨text, htext, rfl⟩
  · cases h

/-- A call that the adapter makes is to the path of the deal id, percent encoded. -/
theorem GatewayHubSpotAdapter.path_of_execute {self : GatewayHubSpotAdapter} {credential : Json}
    (h : self.execute request credential = .ok made) :
    ∃ dealId text, request.parameters.own? "dealId" = some (.str dealId) ∧
      encodeURIComponent dealId = .ok text ∧
      made.path = ("/crm/v3/objects/deals/" : JsString) ++ text ++ dealTail request := by
  unfold execute at h
  obtain ⟨-, -, h⟩ := bind_eq_ok.mp h
  split at h
  · cases h
  · obtain ⟨-, -, h⟩ := bind_eq_ok.mp h
    split at h
    next hfetch =>
      unfold fetchDeal at h
      obtain ⟨dealId, hdeal, h⟩ := bind_eq_ok.mp h
      obtain ⟨path, hpath, h⟩ := bind_eq_ok.mp h
      cases h
      obtain ⟨text, htext, rfl⟩ := dealPath_eq_ok hpath
      exact ⟨dealId, text, requiredString_eq_ok hdeal, htext, by rw [dealTail, if_pos hfetch]⟩
    next hfetch =>
      split at h
      · unfold updateDeal at h
        obtain ⟨dealId, hdeal, h⟩ := bind_eq_ok.mp h
        obtain ⟨-, -, h⟩ := bind_eq_ok.mp h
        obtain ⟨-, -, h⟩ := bind_eq_ok.mp h
        obtain ⟨stage, -, h⟩ := bind_eq_ok.mp h
        obtain ⟨amounts, -, h⟩ := bind_eq_ok.mp h
        obtain ⟨path, hpath, h⟩ := bind_eq_ok.mp h
        cases h
        obtain ⟨text, htext, rfl⟩ := dealPath_eq_ok hpath
        refine ⟨dealId, text, requiredString_eq_ok hdeal, htext, ?_⟩
        rw [dealTail, if_neg hfetch]
        exact congrArg JsString.mk (List.append_nil _).symm
      · cases h

/-- The bytes of the parts of a deal's path, the last one percent encoded. -/
def dealBytes (dealId : JsString) : List (List UInt8) :=
  [("v3" : JsString).encode, ("objects" : JsString).encode, ("deals" : JsString).encode,
    component dealId]

theorem encode_append_dealTail (parts : List JsString) :
    JsString.encode ⟨joinedUnits parts ++ (dealTail request).units⟩ =
      joined (parts.map JsString.encode) ++ (dealTail request).encode := by
  unfold dealTail
  split
  · have htail : ("?properties=dealstage,amount,pipeline" : JsString).units =
        0x3F :: ("properties=dealstage,amount,pipeline" : JsString).units := by decide
    have hencode : ("?properties=dealstage,amount,pipeline" : JsString).encode =
        0x3F :: ("properties=dealstage,amount,pipeline" : JsString).encode := by decide
    rw [htail, hencode, ← encode_joinedUnits]
    exact @encode_append ⟨joinedUnits parts⟩ 0x3F _ (by decide)
  · have hempty : ("" : JsString).units = [] := rfl
    rw [hempty, List.append_nil, encode_joinedUnits]
    exact (List.append_nil _).symm

theorem encode_dealPath {text : JsString} (htext : text.encode = component dealId) :
    (("/crm/v3/objects/deals/" : JsString) ++ text ++ dealTail request).encode =
      joined (("crm" : JsString).encode :: dealBytes dealId) ++ (dealTail request).encode := by
  have hslashes : ("/crm/v3/objects/deals/" : JsString).units =
      joinedUnits [("crm" : JsString), ("v3" : JsString), ("objects" : JsString),
        ("deals" : JsString)] ++ [0x2F] := by decide
  have hunits : (("/crm/v3/objects/deals/" : JsString).units ++ text.units) ++
      (dealTail request).units = joinedUnits [("crm" : JsString), ("v3" : JsString),
        ("objects" : JsString), ("deals" : JsString), text] ++ (dealTail request).units := by
    rw [hslashes]
    simp [joinedUnits]
  refine (congrArg (fun us => JsString.encode ⟨us⟩) hunits).trans ?_
  rw [encode_append_dealTail, dealBytes, ← htext]
  rfl

theorem inner_dealBytes :
    ∀ p ∈ ("crm" : JsString).encode :: dealBytes dealId, ∀ b ∈ p, InnerByte b := by
  intro p hp
  simp only [dealBytes, List.mem_cons, List.not_mem_nil, or_false] at hp
  rcases hp with rfl | rfl | rfl | rfl | rfl
  case inr.inr.inr.inr => exact fun b hb => (component_bytes hb).1
  all_goals exact inner_of_all (by decide)

/-- What the parser makes of the path of a deal. -/
theorem parse_dealPath {text : JsString} (htext : text.encode = component dealId) :
    parse (("/crm/v3/objects/deals/" : JsString) ++ text ++ dealTail request).encode =
      { segments := resolve [] ((("crm" : JsString).encode :: dealBytes dealId).map
          (percentEncode pathSet))
        query := dealQuery request } := by
  have hclean : ∀ b ∈ (dealTail request).encode, isTabOrNewline b = false := by
    refine clean_of_all ?_
    unfold dealTail
    split <;> decide
  have htail : ∀ b ∈ (dealTail request).encode.head?, endsPath b = true := by
    have hhead : (dealTail request).encode.head?.all endsPath = true := by
      unfold dealTail
      split <;> decide
    exact (Option.all_eq_true _ _).mp hhead
  have hquery : queryOf (dealTail request).encode = dealQuery request := by
    unfold dealTail dealQuery
    split <;> decide
  rw [encode_dealPath htext, parse_joined inner_dealBytes hclean htail, hquery]

theorem encode_ne_dots (hpaired : JsString.paired dealId.units = true)
    (hdot : dealId ≠ ".") (hdots : dealId ≠ "..") :
    dealId.encode ≠ [0x2E] ∧ dealId.encode ≠ [0x2E, 0x2E] := by
  refine ⟨fun h => hdot ?_, fun h => hdots ?_⟩
  · exact JsString.encode_injective hpaired (by decide) (h.trans (by decide))
  · exact JsString.encode_injective hpaired (by decide) (h.trans (by decide))

/-- What the path of a deal names. -/
theorem names_dealPath {text : JsString} (hpaired : JsString.paired dealId.units = true)
    (htext : text.encode = component dealId) :
    List.Forall₂ Names (parse (("/crm/v3/objects/deals/" : JsString) ++ text ++
      dealTail request).encode).segments (dealParts dealId) ↔ dealId ≠ "." ∧ dealId ≠ ".." := by
  rw [parse_dealPath htext, forall₂_names_iff]
  constructor
  · rintro ⟨hsegments, -⟩
    refine ⟨?_, ?_⟩
    · rintro rfl
      dsimp only at hsegments
      revert hsegments
      decide
    · rintro rfl
      dsimp only at hsegments
      revert hsegments
      decide
  · rintro ⟨hdot, hdots⟩
    obtain ⟨hone, htwo⟩ := encode_ne_dots hpaired hdot hdots
    have hundotted : Undotted ((("crm" : JsString).encode :: dealBytes dealId).map
        (percentEncode pathSet)) := by
      refine undotted_percentEncode fun part hpart => ?_
      simp only [dealBytes, List.mem_cons, List.not_mem_nil, or_false] at hpart
      rcases hpart with rfl | rfl | rfl | rfl | rfl
      case inr.inr.inr.inr =>
        rw [percentDecode_component]
        exact ⟨hone, htwo⟩
      all_goals decide
    have hliteral : ∀ text ∈ ([("crm" : JsString), "v3", "objects", "deals"] : List JsString),
        percentDecode text.encode = text.encode := by decide
    refine ⟨?_, ?_⟩
    · rw [resolve_of_undotted hundotted, List.nil_append, dealBytes, dealParts]
      simp only [List.map_cons, List.map_nil, percentDecode_percentEncode, percentDecode_component]
      rw [hliteral _ (by simp), hliteral _ (by simp), hliteral _ (by simp), hliteral _ (by simp)]
    · intro part hpart
      simp only [dealParts, List.mem_cons, List.not_mem_nil, or_false] at hpart
      rcases hpart with rfl | rfl | rfl | rfl | rfl
      case inr.inr.inr.inr => exact hpaired
      all_goals decide

theorem GatewayHubSpotAdapter.exactDeal_iff {self : GatewayHubSpotAdapter} {credential : Json}
    (h : self.execute request credential = .ok made) : Exact request made ↔ DealKept request := by
  obtain ⟨dealId, text, hdeal, htext, hpath⟩ := path_of_execute h
  obtain ⟨hpaired, hencode⟩ := encodeURIComponent_eq_ok htext
  have hnames := @names_dealPath request dealId text hpaired hencode
  have hquery : (parse made.path.encode).query = dealQuery request := by
    rw [hpath, parse_dealPath hencode]
  have hkept : DealKept request ↔ dealId ≠ "." ∧ dealId ≠ ".." := by
    unfold DealKept
    rw [hdeal]
    simp
  rw [hkept, ← hnames, ← hpath]
  constructor
  · rintro ⟨dealId', hdeal', haddresses⟩
    rw [hdeal] at hdeal'
    cases hdeal'
    exact haddresses.1
  · exact fun hnamed => ⟨dealId, hdeal, hnamed, hquery⟩

/-- Calls that go to their deals, to one object, have one deal id. -/
theorem GatewayHubSpotAdapter.deal_of_exact {request' : ConnectorRequest} {made' : VendorCall}
    (h : Exact request made) (h' : Exact request' made')
    (hsame : (parse made.path.encode).segments.map percentDecode =
      (parse made'.path.encode).segments.map percentDecode) :
    request.parameters.own? "dealId" = request'.parameters.own? "dealId" := by
  obtain ⟨dealId, hdeal, haddresses⟩ := h
  obtain ⟨dealId', hdeal', haddresses'⟩ := h'
  have hparts := parts_of_names haddresses.1 haddresses'.1 hsame
  simp only [dealParts, List.cons.injEq] at hparts
  rw [hdeal, hdeal', hparts.2.2.2.2.1]

end HubSpot

/-- **A pull request is called as the target says exactly when the owner and the repository
are kept, and a deal exactly when its id is not one or two dots**; and calls that go where
their requests say, to one object, have one target or one deal id. -/
theorem vendor_object_iff (github : GatewayGitHubAdapter) (hubspot : GatewayHubSpotAdapter)
    (request : ConnectorRequest) (credential : Json) (made : VendorCall) :
    (github.execute request credential = .ok made →
      (GatewayGitHubAdapter.Exact request made ↔ GatewayGitHubAdapter.TargetKept request)) ∧
    (hubspot.execute request credential = .ok made →
      (GatewayHubSpotAdapter.Exact request made ↔ GatewayHubSpotAdapter.DealKept request)) ∧
    ∀ (request' : ConnectorRequest) (made' : VendorCall),
      (parse made.path.encode).segments.map percentDecode =
        (parse made'.path.encode).segments.map percentDecode →
      (GatewayGitHubAdapter.Exact request made → GatewayGitHubAdapter.Exact request' made' →
        request.target = request'.target) ∧
      (GatewayHubSpotAdapter.Exact request made → GatewayHubSpotAdapter.Exact request' made' →
        request.parameters.own? "dealId" = request'.parameters.own? "dealId") :=
  ⟨GatewayGitHubAdapter.exactPull_iff, GatewayHubSpotAdapter.exactDeal_iff, fun _ _ hsame =>
    ⟨fun h h' => GatewayGitHubAdapter.target_of_exact h h' hsame,
      fun h h' => GatewayHubSpotAdapter.deal_of_exact h h' hsame⟩⟩

/-! ## A merge in another repository -/

namespace Merge

def adapter : GatewayGitHubAdapter where
  connectorId := "github-main"
  capabilities := [GITHUB_PR_FETCH_CAPABILITY, GITHUB_PR_MERGE_CAPABILITY]
  baseUrl := GatewayGitHubAdapter.DEFAULT_BASE_URL

def hubspot : GatewayHubSpotAdapter where
  connectorId := "hubspot-main"
  capabilities := [HUBSPOT_DEAL_FETCH_CAPABILITY]
  baseUrl := GatewayHubSpotAdapter.DEFAULT_BASE_URL

def credential (name : JsString) : Json := .obj [(name, .str "token-1")]

/-- A request to merge the pull request of a target. -/
def request (target : JsString) : ConnectorRequest where
  capability := GITHUB_PR_MERGE_CAPABILITY
  businessTransactionId := "tx-1"
  action := "merge"
  target := target
  parameters := [("mergeMethod", .str "squash")]

/-- The call for a target of two names. -/
def made (owner repo pullNumber : JsString) : VendorCall where
  method := "PUT"
  path := GatewayGitHubAdapter.pullPath ⟨owner, repo, pullNumber⟩ ++ ("/merge" : JsString)
  body := some (.obj [("merge_method", .str "squash")])

/-- A request to fetch a deal. -/
def deal (dealId : JsString) : ConnectorRequest where
  capability := HUBSPOT_DEAL_FETCH_CAPABILITY
  businessTransactionId := "tx-2"
  action := "fetch"
  target := "deal"
  parameters := [("dealId", .str dealId)]

/-- The call for the deal `17`. -/
def fetched : VendorCall where
  method := "GET"
  path := ("/crm/v3/objects/deals/17" : JsString) ++
    ("?properties=dealstage,amount,pipeline" : JsString)
  body := none

end Merge

/-- `acme/widgets#42` is merged as it says, and so is no pull request of another repository;
and the deal `17` is fetched as it says. -/
theorem merged_as_said :
    GatewayGitHubAdapter.Exact (Merge.request "acme/widgets#42") (Merge.made "acme" "widgets" "42") ∧
    (parse (Merge.made "acme" "widgets" "42").path.encode).segments.map percentDecode ≠
      (parse (Merge.made "acme" "gadgets" "42").path.encode).segments.map percentDecode ∧
    GatewayHubSpotAdapter.Exact (Merge.deal "17") Merge.fetched := by
  have hkept : ∀ text ∈ ([("acme" : JsString), "widgets", "gadgets"] : List JsString),
      KeptPart text := by
    intro text htext
    simp only [List.mem_cons, List.not_mem_nil, or_false] at htext
    rcases htext with rfl | rfl | rfl
    all_goals exact ⟨⟨inner_of_all (by decide), by decide, by decide, by decide⟩, by decide⟩
  have hexact : ∀ repo ∈ ([("widgets" : JsString), "gadgets"] : List JsString),
      GatewayGitHubAdapter.Exact (Merge.request (("acme/" : JsString) ++ repo ++ ("#42" : JsString)))
        (Merge.made "acme" repo "42") := by
    intro repo hrepo
    refine ((vendor_object_iff Merge.adapter Merge.hubspot
      (Merge.request (("acme/" : JsString) ++ repo ++ ("#42" : JsString)))
      (Merge.credential "installationToken") (Merge.made "acme" repo "42")).1 ?_).mpr ?_
    · simp only [List.mem_cons, List.not_mem_nil, or_false] at hrepo
      rcases hrepo with rfl | rfl <;> rfl
    · intro t ht
      have ht' : t = ⟨"acme", repo, "42"⟩ := by
        simp only [List.mem_cons, List.not_mem_nil, or_false] at hrepo
        rcases hrepo with rfl | rfl <;> exact (Except.ok.inj ht).symm
      subst ht'
      exact ⟨hkept _ (by simp), hkept _ (List.mem_cons_of_mem _ hrepo)⟩
  refine ⟨hexact "widgets" (by simp), fun hsame => ?_, ?_⟩
  · have htarget := ((vendor_object_iff Merge.adapter Merge.hubspot (Merge.request "acme/widgets#42")
      (Merge.credential "installationToken") (Merge.made "acme" "widgets" "42")).2.2
      (Merge.request "acme/gadgets#42") (Merge.made "acme" "gadgets" "42") hsame).1
      (hexact "widgets" (by simp)) (hexact "gadgets" (by simp))
    exact absurd htarget (by decide)
  · refine ((vendor_object_iff Merge.adapter Merge.hubspot (Merge.deal "17")
      (Merge.credential "privateAppToken") Merge.fetched).2.1 rfl).mpr ?_
    exact ⟨fun h => absurd (Option.some.inj h) (by simp; decide),
      fun h => absurd (Option.some.inj h) (by simp; decide)⟩

/-- A target in one repository is a request to merge in another, which that one's own target
addresses too; and the deal `..` is no deal. -/
theorem merged_elsewhere :
    parse (Merge.made "acme" "widgets/../../other/secret" "1").path.encode =
      parse (Merge.made "other" "secret" "1").path.encode ∧
    (¬ ∀ (github : GatewayGitHubAdapter) (request : ConnectorRequest) (credential : Json)
      (made : VendorCall), github.execute request credential = .ok made →
        GatewayGitHubAdapter.Exact request made) ∧
    ¬ ∀ (hubspot : GatewayHubSpotAdapter) (request : ConnectorRequest) (credential : Json)
      (made : VendorCall), hubspot.execute request credential = .ok made →
        GatewayHubSpotAdapter.Exact request made := by
  refine ⟨by decide, fun h => ?_, fun h => ?_⟩
  · obtain ⟨t, ht, haddresses⟩ := h Merge.adapter
      (Merge.request "acme/widgets/../../other/secret#1") (Merge.credential "installationToken")
      (Merge.made "acme" "widgets/../../other/secret" "1") rfl
    have ht' : t = ⟨"acme", "widgets/../../other/secret", "1"⟩ := (Except.ok.inj ht).symm
    subst ht'
    have hsegments := (forall₂_names_iff.mp haddresses.1).1
    revert hsegments
    decide
  · obtain ⟨dealId, hdeal, haddresses⟩ := h Merge.hubspot (Merge.deal "..")
      (Merge.credential "privateAppToken") ⟨"GET", ("/crm/v3/objects/deals/.." : JsString) ++
        ("?properties=dealstage,amount,pipeline" : JsString), none⟩ rfl
    have hdots : some (Json.str "..") = some (Json.str dealId) := hdeal
    cases hdots
    have hsegments := (forall₂_names_iff.mp haddresses.1).1
    revert hsegments
    decide

end Parmana.Connectors

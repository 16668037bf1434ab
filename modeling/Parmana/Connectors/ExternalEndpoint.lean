import Parmana.Connectors.PaytmRefund
import Parmana.Network.Addresses

/-! # Releasing to a registered endpoint

`GatewayExternalAdapter.execute` sends a signed release to the endpoint that an operator
registered for a capability.  The endpoint's host is looked up once, every address of the
answer must be public, and the transport connects to one of these addresses and never looks
the host up again; what comes back is accepted only when it echoes the request.

**Whatever the host resolves to and the endpoint answers**, a release is sent at most once
and only for what was registered, only to public addresses that this one lookup gave, and
nothing else is taken for its answer (`ExternalConnector.execute_confined`).  What Node's
own modules do is a parameter: what text is an address, what a block list says of it, and
what a socket connects to.
-/
namespace Parmana.Connectors
open Js Interaction Interaction.Program Network

/-! ## The endpoint -/

/-- `MAX_ENDPOINT_URL_LENGTH`. -/
def MAX_ENDPOINT_URL_LENGTH : Nat := 2048

/-- The members of a `URL` that are read. -/
structure EndpointUrl where
  protocol : JsString
  username : JsString
  password : JsString
  hostname : JsString
  port : JsString
  pathname : JsString
  search : JsString
  hash : JsString
  href : JsString
  deriving DecidableEq

/-- What is used of `node:net`. -/
structure NetModule where
  /-- The address that a text is: `isIP` says its family. -/
  parse : JsString → Option IpAddress
  /-- `check` of a `BlockList` with these subnets. -/
  check : List Subnet → JsString → Family → Bool

/-- A block list answers whether one of its subnets covers the address; the rules of IPv4
apply to mapped addresses. -/
def NetModule.Decides (net : NetModule) : Prop :=
  ∀ rules text address, net.parse text = some address →
    (net.check rules text address.family = true ↔ ∃ rule ∈ rules, rule.covers address = true)

/-- `net.isIP(text) !== 0`. -/
def NetModule.isIP (net : NetModule) (text : JsString) : Bool := (net.parse text).isSome

/-- `NON_PUBLIC`, as the rules are added. -/
def NON_PUBLIC : List Subnet :=
  [⟨.ofOctets 0 0 0 0, 8⟩, ⟨.ofOctets 10 0 0 0, 8⟩, ⟨.ofOctets 100 64 0 0, 10⟩,
    ⟨.ofOctets 127 0 0 0, 8⟩, ⟨.ofOctets 169 254 0 0, 16⟩, ⟨.ofOctets 172 16 0 0, 12⟩,
    ⟨.ofOctets 192 0 0 0, 24⟩, ⟨.ofOctets 192 0 2 0, 24⟩, ⟨.ofOctets 192 88 99 0, 24⟩,
    ⟨.ofOctets 192 168 0 0, 16⟩, ⟨.ofOctets 198 18 0 0, 15⟩, ⟨.ofOctets 198 51 100 0, 24⟩,
    ⟨.ofOctets 203 0 113 0, 24⟩, ⟨.ofOctets 224 0 0 0, 4⟩, ⟨.ofOctets 240 0 0 0, 4⟩,
    ⟨.ofGroups 0 0 0 0 0 0 0 0, 128⟩, ⟨.ofGroups 0 0 0 0 0 0 0 1, 128⟩,
    ⟨.ofGroups 0x64 0xFF9B 0 0 0 0 0 0, 96⟩, ⟨.ofGroups 0x64 0xFF9B 1 0 0 0 0 0, 48⟩,
    ⟨.ofGroups 0x100 0 0 0 0 0 0 0, 64⟩, ⟨.ofGroups 0x2001 0 0 0 0 0 0 0, 23⟩,
    ⟨.ofGroups 0x2001 0xDB8 0 0 0 0 0 0, 32⟩, ⟨.ofGroups 0x2002 0 0 0 0 0 0 0, 16⟩,
    ⟨.ofGroups 0xFC00 0 0 0 0 0 0 0, 7⟩, ⟨.ofGroups 0xFE80 0 0 0 0 0 0 0, 10⟩,
    ⟨.ofGroups 0xFEC0 0 0 0 0 0 0 0, 10⟩, ⟨.ofGroups 0xFF00 0 0 0 0 0 0 0, 8⟩]

/-- `isPublicAddress`. -/
def isPublicAddress (net : NetModule) (address : JsString) : Bool :=
  match net.parse address with
  | none => false
  | some parsed => !net.check NON_PUBLIC address parsed.family

/-- A host name without the dot at its end. -/
def bareHostname (hostname : JsString) : JsString :=
  if hostname.endsWith "." then ⟨hostname.units.dropLast⟩ else hostname

/-- `checkEndpointUrl`; `parseUrl` is `new URL`. -/
def checkEndpointUrl (parseUrl : JsString → Option EndpointUrl) (net : NetModule)
    (value : Json) : Except JsString EndpointUrl :=
  let tooLong : Except JsString EndpointUrl :=
    .error (("endpointUrl must be a string of at most " : JsString) ++
      JsString.ofNat MAX_ENDPOINT_URL_LENGTH ++ (" characters." : JsString))
  match value with
  | .str text =>
    if MAX_ENDPOINT_URL_LENGTH < text.length then tooLong
    else
      match parseUrl text with
      | none => .error "endpointUrl is not an absolute URL."
      | some url =>
        -- the host of an https URL is ASCII
        let hostname : JsString := ⟨url.hostname.units.map asciiLower⟩
        let bare := bareHostname hostname
        if url.protocol ≠ "https:" then .error "endpointUrl must use https."
        else if url.username ≠ "" ∨ url.password ≠ "" then
          .error "endpointUrl must not carry a user name or password."
        else if url.hash ≠ "" then .error "endpointUrl must not carry a fragment."
        else if hostname.startsWith "[" = true ∨ net.isIP hostname = true then
          .error "endpointUrl must name a host, not an IP address."
        else if bare = "localhost" ∨ bare.endsWith ".localhost" = true ∨ 0x2E ∉ bare.units then
          .error ("endpointUrl must name a public host with a domain, not localhost or a " ++
            "single label name.")
        else .ok url
  | _ => tooLong

/-! ## The connector -/

/-- `ExternalConnectorTarget`. -/
structure ExternalConnectorTarget where
  capability : JsString
  endpointUrl : JsString
  allowedParameters : List JsString
  timeoutMs : JsNumber
  deriving DecidableEq

/-- A `GatewayExternalAdapter`, constructed. -/
structure ExternalConnector where
  target : ExternalConnectorTarget
  url : EndpointUrl
  keyId : JsString
  deriving DecidableEq

/-- `ConnectorExecutionContext`, as this adapter reads it. -/
structure ExternalExecutionContext where
  release : Option ConnectorReleaseContext
  timeoutMs : JsNumber

/-- `ResolvedAddress`; the family is the one the resolver claims. -/
structure ResolvedAddress where
  address : JsString
  family : Family
  deriving DecidableEq

/-- `ReleaseTransportRequest`. -/
structure ReleaseTransportRequest where
  url : EndpointUrl
  addresses : List ResolvedAddress
  body : JsString
  timeoutMs : JsNumber

/-- `ReleaseTransportResponse`. -/
structure ReleaseTransportResponse where
  status : JsNumber
  body : JsString

/-- `EXTERNAL_RESULT_MAX_BYTES`. -/
def EXTERNAL_RESULT_MAX_BYTES : Nat := 16 * 1024

/-- `EXTERNAL_ANSWER_MAX_BYTES`. -/
def EXTERNAL_ANSWER_MAX_BYTES : Nat := 64 * 1024

namespace ExternalConnector

/-- What `sign` reads of the adapter. -/
def adapter (connector : ExternalConnector) : GatewayExternalAdapter where
  connectorId := ("ext-" : JsString) ++ connector.target.capability
  href := connector.url.href
  keyId := connector.keyId

/-- An error of the adapter, by what follows its name. -/
def failure (connector : ExternalConnector) (text : JsString) : Failure :=
  .error (("External connector \"" : JsString) ++ connector.adapter.connectorId ++
    ("\" " : JsString) ++ text)

/-- The constructor. -/
def create (parseUrl : JsString → Option EndpointUrl) (net : NetModule)
    (target : ExternalConnectorTarget) (keyId : JsString) : Except Failure ExternalConnector :=
  match checkEndpointUrl parseUrl net (.str target.endpointUrl) with
  | .error reason =>
    .error (.error (("External connector for \"" : JsString) ++ target.capability ++
      ("\" has an endpoint Parmana will not release to: " : JsString) ++ reason))
  | .ok url => .ok { target, url, keyId }

/-- The checks of `execute`, in front of the lookup: the release context. -/
def check (connector : ExternalConnector) (request : ConnectorRequest)
    (context : ExternalExecutionContext) : Except Failure ConnectorReleaseContext := do
  refuseIf (request.capability ≠ connector.target.capability) (connector.failure
    (("does not declare capability \"" : JsString) ++ request.capability ++ ("\"." : JsString)))
  match context.release with
  | none =>
    .error (connector.failure "refuses a request with no signed authorization behind it.")
  | some release => do
    let disallowed := request.parameters.keys.filter
      fun name => name ∉ connector.target.allowedParameters
    refuseIf (disallowed ≠ []) (connector.failure
      (("refuses to forward parameter" : JsString) ++
        (if disallowed.length = 1 then ("" : JsString) else "s") ++ (" " : JsString) ++
        JsString.join ", "
          (disallowed.map fun name => ("\"" : JsString) ++ name ++ ("\"" : JsString)) ++
        (": the registration allows only " : JsString) ++
        (if connector.target.allowedParameters = [] then ("none" : JsString)
          else JsString.join ", " connector.target.allowedParameters) ++ ("." : JsString)))
    return release

/-- `isPlainObject`, with the members. -/
def plainObject : Option Json → Option Fields
  | some (.obj members) => some members
  | _ => none

/-- One more problem with an answer. -/
def problem (condition : Prop) [Decidable condition] (text : JsString) : List JsString :=
  if condition then [text] else []

/-- What is wrong with the `result` of an answer. -/
def resultProblems (result : Option Json) : List JsString :=
  match plainObject result with
  | none => ["result is not an object"]
  | some members =>
    problem (EXTERNAL_RESULT_MAX_BYTES < (Json.obj members).stringify.encode.length)
      (("result is larger than " : JsString) ++ JsString.ofNat EXTERNAL_RESULT_MAX_BYTES ++
        (" bytes" : JsString))

/-- `problems`. -/
def problems (request : ConnectorRequest) (body : Fields) : List JsString :=
  problem (body.own? "businessTransactionId" ≠ some (.str request.businessTransactionId))
      "businessTransactionId does not match the release" ++
    problem (body.own? "capability" ≠ some (.str request.capability))
      "capability does not match the release" ++
    problem (boolMember body "success" = none) "success is not a boolean" ++
    resultProblems (body.own? "result") ++
    problem (body.own? "executedAt" ≠ none ∧ stringMember body "executedAt" = none)
      "executedAt is not a string"

/-- A member that is spread into an object literal. -/
def optionalField (name : JsString) (value : Option Json) : Fields :=
  match value with
  | none => []
  | some value => [(name, value)]

/-- The metadata that is handed on. -/
def metadata (signed : SignedExternalRelease) (body : Fields) : Fields :=
  let required : Fields := [("endpointUrl", .str signed.release.audience),
    ("releaseIssuedAt", .str signed.release.issuedAt), ("result", (body.own? "result").getD .null)]
  required ++
    optionalField "executedAt" ((stringMember body "executedAt").map Json.str) ++
    optionalField "endpointSignature" ((plainObject (body.own? "signature")).map Json.obj)

/-- `acceptAnswer`. -/
def acceptAnswer (connector : ExternalConnector) (request : ConnectorRequest)
    (signed : SignedExternalRelease) (answer : ReleaseTransportResponse) :
    Except Failure ConnectorResponse := do
  refuseIf (JsNumber.eq answer.status (.ofNat 200) = false) (connector.failure
    (("endpoint answered HTTP " : JsString) ++ answer.status.toText ++
      ("; only 200 is accepted." : JsString)))
  match Json.parse answer.body with
  | none => .error (connector.failure "endpoint answered with a body that is not JSON.")
  | some (.obj body) => do
    let problems := problems request body
    refuseIf (problems ≠ []) (connector.failure (("refuses the endpoint's answer: " : JsString) ++
      JsString.join "; " problems ++ ("." : JsString)))
    return {
      success := (boolMember body "success").getD false
      metadata := some (metadata signed body) }
  | some _ => .error (connector.failure "endpoint answered with JSON that is not an object.")

end ExternalConnector

/-! ## The release -/

/-- What `execute` calls. -/
inductive ExternalCall where
  | lookup (hostname : JsString)
  /-- `now()`. -/
  | now
  /-- `SignerBootstrap.create()`. -/
  | createSigner
  | sign (keyId : JsString) (payload : List UInt8)
  | getMetadata (keyId : JsString)
  | transport (request : ReleaseTransportRequest)

/-- What the calls are answered with. -/
def ExternalCall.Answer : ExternalCall → Type
  | .lookup _ => List ResolvedAddress
  | .now => Option Int
  | .createSigner => Unit
  | .sign _ _ => JsString
  | .getMetadata _ => JsString
  | .transport _ => ReleaseTransportResponse

abbrev ExternalProgram := Program ExternalCall ExternalCall.Answer Failure

abbrev ExternalEvent := Event ExternalCall ExternalCall.Answer Failure

namespace ExternalCall

abbrev resolve (hostname : JsString) : ExternalProgram (List ResolvedAddress) :=
  perform (ExternalCall.lookup hostname)
abbrev readClock : ExternalProgram (Option Int) := perform ExternalCall.now
abbrev loadSigner : ExternalProgram Unit := perform ExternalCall.createSigner
abbrev signPayload (keyId : JsString) (payload : List UInt8) : ExternalProgram JsString :=
  perform (ExternalCall.sign keyId payload)
abbrev readAlgorithm (keyId : JsString) : ExternalProgram JsString :=
  perform (ExternalCall.getMetadata keyId)
abbrev send (request : ReleaseTransportRequest) : ExternalProgram ReleaseTransportResponse :=
  perform (ExternalCall.transport request)

end ExternalCall

/-- The message of an `ExternalEndpointAddressError`. -/
def unresolved (hostname text : JsString) : Failure :=
  .error (("The endpoint host '" : JsString) ++ hostname ++ ("' " : JsString) ++ text)

/-- What `resolvePublicEndpointAddresses` makes of the answer of the lookup. -/
def publicAddresses (net : NetModule) (hostname : JsString) (addresses : List ResolvedAddress) :
    Except Failure (List ResolvedAddress) := do
  refuseIf (addresses = []) (unresolved hostname "does not resolve.")
  let refused := addresses.filter fun resolved => !isPublicAddress net resolved.address
  refuseIf (refused ≠ []) (unresolved hostname
    (("resolves to an address that is not public (" : JsString) ++
      JsString.join ", " (refused.map ResolvedAddress.address) ++ (")." : JsString)))
  return addresses

/-- `resolvePublicEndpointAddresses`. -/
def resolvePublicEndpointAddresses (net : NetModule) (hostname : JsString) :
    ExternalProgram (List ResolvedAddress) := do
  let addresses ← tryCatch (ExternalCall.resolve hostname)
    fun _ => throw (unresolved hostname "does not resolve.")
  Program.done (publicAddresses net hostname addresses)

/-- `Math.min`. -/
def mathMin (a b : JsNumber) : JsNumber :=
  if a = .nan ∨ b = .nan then .nan
  else if a.lt b then a
  else if b.lt a then b
  else if a = .negZero then a
  else b

namespace ExternalConnector

/-- The `catch` block around the lookup. -/
def refuseRelease (connector : ExternalConnector) : Failure → Failure
  | .error message => connector.failure (("refuses to release: " : JsString) ++ message)
  | other => other

/-- `sign`. -/
def sign (connector : ExternalConnector) (request : ConnectorRequest)
    (release : ConnectorReleaseContext) : ExternalProgram SignedExternalRelease := do
  let issuedAt ← ExternalCall.readClock
  let body ← Program.done
    ((connector.adapter.releaseBody request release issuedAt).mapError Failure.error)
  ExternalCall.loadSigner
  let payload ← Program.done ((Crypto.serialize (.ofJson body.toJson)).mapError Failure.error)
  let value ← ExternalCall.signPayload connector.keyId payload
  let algorithm ← ExternalCall.readAlgorithm connector.keyId
  return { release := body, signature := { algorithm, keyId := connector.keyId, value } }

/-- What is handed to the transport. -/
def transportRequest (connector : ExternalConnector) (context : ExternalExecutionContext)
    (addresses : List ResolvedAddress) (signed : SignedExternalRelease) :
    ReleaseTransportRequest where
  url := connector.url
  addresses := addresses
  body := signed.toJson.stringify
  timeoutMs := mathMin context.timeoutMs connector.target.timeoutMs

/-- `execute`. -/
def execute (net : NetModule) (connector : ExternalConnector) (request : ConnectorRequest)
    (context : ExternalExecutionContext) : ExternalProgram ConnectorResponse := do
  let release ← Program.done (connector.check request context)
  let addresses ← tryCatch (resolvePublicEndpointAddresses net connector.url.hostname)
    fun error => throw (connector.refuseRelease error)
  let signed ← connector.sign request release
  let answer ← ExternalCall.send (connector.transportRequest context addresses signed)
  Program.done (connector.acceptAnswer request signed answer)

end ExternalConnector

/-! ## The pinned transport -/

/-- The options of `https.request`. -/
structure RequestOptions where
  hostname : JsString
  port : JsNumber
  path : JsString
  servername : JsString
  contentLength : Nat
  /-- The answer of `lookup`, to a call with `all` and without. -/
  lookup : Bool → List ResolvedAddress

/-- The options that `createPinnedHttpsTransport` calls `https.request` with. -/
def pinnedOptions (request : ReleaseTransportRequest) : Except Failure RequestOptions :=
  match request.addresses with
  | [] => .error (.error "No checked address to connect to.")
  | pinned :: _ => .ok {
      hostname := request.url.hostname
      port := if request.url.port = "" then .ofNat 443 else .ofText request.url.port
      path := request.url.pathname ++ request.url.search
      servername := request.url.hostname
      contentLength := request.body.encode.length
      lookup := fun all =>
        -- the whole list has one element, and a single answer is that element
        if all then [⟨pinned.address, pinned.family⟩] else [⟨pinned.address, pinned.family⟩] }

/-- The chunks of a body, unless they are more than `maxBytes`. -/
def collectBody (maxBytes : Nat) : Nat → List (List UInt8) → Option (List UInt8)
  | _, [] => some []
  | size, chunk :: chunks =>
    if maxBytes < size + chunk.length then none
    else (collectBody maxBytes (size + chunk.length) chunks).map (chunk ++ ·)

/-- What the transport resolves to; `decode` is `toString("utf8")`. -/
def pinnedResponse (decode : List UInt8 → JsString) (maxBytes : Nat)
    (statusCode : Option JsNumber) (chunks : List (List UInt8)) :
    Except Failure ReleaseTransportResponse :=
  match collectBody maxBytes 0 chunks with
  | none => .error (.error (("The endpoint's answer is larger than " : JsString) ++
      JsString.ofNat maxBytes ++ (" bytes." : JsString)))
  | some body => .ok { status := statusCode.getD .zero, body := decode body }

theorem collectBody_eq_some {maxBytes : Nat} {chunks : List (List UInt8)} {size : Nat}
    {body : List UInt8} (h : collectBody maxBytes size chunks = some body) :
    body = chunks.flatten ∧ (size ≤ maxBytes → size + body.length ≤ maxBytes) := by
  induction chunks generalizing size body with
  | nil =>
    cases h
    exact ⟨rfl, fun hsize => hsize⟩
  | cons chunk chunks ih =>
    unfold collectBody at h
    split at h
    · cases h
    · rename_i hsize
      obtain ⟨rest, hrest, rfl⟩ := Option.map_eq_some_iff.mp h
      obtain ⟨rfl, hlength⟩ := ih hrest
      refine ⟨rfl, fun _ => ?_⟩
      rw [List.length_append, ← Nat.add_assoc]
      exact hlength (Nat.le_of_not_lt hsize)

/-- The transport resolves to the whole of an answer, which is within the bound. -/
theorem pinnedResponse_ok {decode : List UInt8 → JsString} {maxBytes : Nat}
    {statusCode : Option JsNumber} {chunks : List (List UInt8)} {answer : ReleaseTransportResponse}
    (h : pinnedResponse decode maxBytes statusCode chunks = .ok answer) :
    chunks.flatten.length ≤ maxBytes ∧
      answer = { status := statusCode.getD .zero, body := decode chunks.flatten } := by
  unfold pinnedResponse at h
  split at h
  · cases h
  · rename_i body hbody
    obtain ⟨rfl, hlength⟩ := collectBody_eq_some hbody
    cases h
    exact ⟨by simpa using hlength (Nat.zero_le _), rfl⟩

/-- What a socket of `https.request` connects to: the host itself where that is an address,
and else an answer of the option `lookup`. -/
def ConnectsThroughLookup (net : NetModule) (connects : RequestOptions → JsString → Prop) : Prop :=
  ∀ options address, connects options address →
    if net.isIP options.hostname then address = options.hostname
    else ∃ all, ∃ resolved ∈ options.lookup all, resolved.address = address

/-! ## What the checks let through -/

/-- An address that no rule of `NON_PUBLIC` covers, also not through the IPv4 address that is
mapped to it. -/
structure PublicAddress (address : IpAddress) : Prop where
  own : ∀ rule ∈ NON_PUBLIC, rule.covers address = false
  mapped : ∀ bits, address = .v6 (IpAddress.mapped bits) →
    ∀ rule ∈ NON_PUBLIC, rule.covers (.v4 bits) = false

theorem publicAddress_of_own {address : IpAddress}
    (h : ∀ rule ∈ NON_PUBLIC, rule.covers address = false) : PublicAddress address := by
  refine ⟨h, ?_⟩
  rintro bits rfl rule hrule
  rw [← covers_mapped]
  exact h rule hrule

theorem public_of_isPublicAddress {net : NetModule} (hnet : net.Decides) {text : JsString}
    (h : isPublicAddress net text = true) :
    ∃ address, net.parse text = some address ∧ PublicAddress address := by
  unfold isPublicAddress at h
  cases hparse : net.parse text with
  | none =>
    rw [hparse] at h
    cases h
  | some address =>
    rw [hparse] at h
    refine ⟨address, rfl, publicAddress_of_own fun rule hrule => ?_⟩
    by_contra hcovers
    have hblocked := (hnet NON_PUBLIC text address hparse).mpr
      ⟨rule, hrule, by simpa using hcovers⟩
    dsimp only at h
    rw [hblocked] at h
    cases h

theorem publicAddresses_eq_ok {net : NetModule} {hostname : JsString}
    {addresses found : List ResolvedAddress} :
    publicAddresses net hostname addresses = .ok found ↔ found = addresses ∧ addresses ≠ [] ∧
      ∀ resolved ∈ addresses, isPublicAddress net resolved.address = true := by
  unfold publicAddresses
  constructor
  · intro h
    obtain ⟨u, hne, h⟩ := bind_eq_ok.mp h
    obtain ⟨v, hrefused, h⟩ := bind_eq_ok.mp h
    refine ⟨(Except.ok.inj h).symm, refuseIf_ok.mp hne, fun resolved hmem => ?_⟩
    have hnone := List.filter_eq_nil_iff.mp (not_not.mp (refuseIf_ok.mp hrefused)) resolved hmem
    simpa using hnone
  · rintro ⟨rfl, hne, hpublic⟩
    have hrefused : found.filter (fun resolved => !isPublicAddress net resolved.address) = [] :=
      List.filter_eq_nil_iff.mpr fun resolved hmem => by simp [hpublic resolved hmem]
    refine bind_eq_ok.mpr ⟨(), refuseIf_ok.mpr hne, bind_eq_ok.mpr ⟨(), ?_, rfl⟩⟩
    exact refuseIf_ok.mpr (not_not.mpr hrefused)

namespace ExternalConnector
section
variable {connector : ExternalConnector} {request : ConnectorRequest}
  {context : ExternalExecutionContext} {release : ConnectorReleaseContext}

theorem check_ok (h : connector.check request context = .ok release) :
    request.capability = connector.target.capability ∧ context.release = some release ∧
      ∀ name ∈ request.parameters.keys, name ∈ connector.target.allowedParameters := by
  unfold check at h
  obtain ⟨u, hcapability, h⟩ := bind_eq_ok.mp h
  cases hrelease : context.release with
  | none =>
    rw [hrelease] at h
    cases h
  | some found =>
    rw [hrelease] at h
    obtain ⟨v, hdisallowed, h⟩ := bind_eq_ok.mp h
    cases h
    refine ⟨not_not.mp (refuseIf_ok.mp hcapability), rfl, fun name hname => ?_⟩
    have hnone := List.filter_eq_nil_iff.mp (not_not.mp (refuseIf_ok.mp hdisallowed)) name hname
    simpa using hnone

/-- What an endpoint has that passes the checks of its URL. -/
theorem checkEndpointUrl_ok {parseUrl : JsString → Option EndpointUrl} {net : NetModule}
    {text : JsString} {url : EndpointUrl}
    (h : checkEndpointUrl parseUrl net (.str text) = .ok url) :
    parseUrl text = some url ∧ url.protocol = "https:" ∧
      net.isIP ⟨url.hostname.units.map asciiLower⟩ = false := by
  unfold checkEndpointUrl at h
  dsimp only at h
  by_cases hlength : MAX_ENDPOINT_URL_LENGTH < text.length
  · rw [if_pos hlength] at h
    cases h
  rw [if_neg hlength] at h
  cases hparse : parseUrl text with
  | none =>
    rw [hparse] at h
    cases h
  | some parsed =>
    rw [hparse] at h
    dsimp only at h
    by_cases hprotocol : parsed.protocol = "https:"
    · rw [if_neg (not_not.mpr hprotocol)] at h
      by_cases huser : parsed.username ≠ "" ∨ parsed.password ≠ ""
      · rw [if_pos huser] at h
        cases h
      rw [if_neg huser] at h
      by_cases hhash : parsed.hash ≠ ""
      · rw [if_pos hhash] at h
        cases h
      rw [if_neg hhash] at h
      by_cases haddress : JsString.startsWith ⟨parsed.hostname.units.map asciiLower⟩ "[" = true ∨
          net.isIP ⟨parsed.hostname.units.map asciiLower⟩ = true
      · rw [if_pos haddress] at h
        cases h
      rw [if_neg haddress] at h
      have hno := (not_or.mp haddress).2
      split at h
      · cases h
      · cases h
        exact ⟨rfl, hprotocol, Bool.eq_false_iff.mpr hno⟩
    · rw [if_pos hprotocol] at h
      cases h

theorem create_ok {parseUrl : JsString → Option EndpointUrl} {net : NetModule}
    {target : ExternalConnectorTarget} {keyId : JsString}
    (h : create parseUrl net target keyId = .ok connector) :
    connector.target = target ∧
      checkEndpointUrl parseUrl net (.str target.endpointUrl) = .ok connector.url := by
  unfold create at h
  cases hcheck : checkEndpointUrl parseUrl net (.str target.endpointUrl) with
  | error reason =>
    rw [hcheck] at h
    cases h
  | ok url =>
    rw [hcheck] at h
    cases h
    exact ⟨rfl, rfl⟩

theorem problem_eq_nil {condition : Prop} [Decidable condition] {text : JsString} :
    problem condition text = [] ↔ ¬ condition := by
  unfold problem
  by_cases h : condition
  · simp [h]
  · simp [h]

/-- The answer to a request, as it is accepted. -/
structure Accepted (request : ConnectorRequest) (answer : ReleaseTransportResponse) : Prop where
  status : JsNumber.eq answer.status (.ofNat 200) = true
  echoes : ∃ body, Json.parse answer.body = some (.obj body) ∧
    Fields.own? body "businessTransactionId" = some (.str request.businessTransactionId) ∧
    Fields.own? body "capability" = some (.str request.capability)

theorem acceptAnswer_ok {signed : SignedExternalRelease} {answer : ReleaseTransportResponse}
    {response : ConnectorResponse}
    (h : connector.acceptAnswer request signed answer = .ok response) :
    Accepted request answer := by
  unfold acceptAnswer at h
  obtain ⟨u, hstatus, h⟩ := bind_eq_ok.mp h
  refine ⟨by simpa using refuseIf_ok.mp hstatus, ?_⟩
  split at h
  · cases h
  · rename_i body hparse
    obtain ⟨v, hproblems, -⟩ := bind_eq_ok.mp h
    have hnil := not_not.mp (refuseIf_ok.mp hproblems)
    unfold problems at hnil
    rw [List.append_eq_nil_iff, List.append_eq_nil_iff, List.append_eq_nil_iff,
      List.append_eq_nil_iff, problem_eq_nil, problem_eq_nil] at hnil
    exact ⟨body, hparse, not_not.mp hnil.1.1.1.1, not_not.mp hnil.1.1.1.2⟩
  · cases h

/-! ## Runs -/

/-- A call of the transport. -/
def isTransport : ExternalCall → Bool
  | .transport _ => true
  | _ => false

/-- A lookup of a host. -/
def isLookup : ExternalCall → Bool
  | .lookup _ => true
  | _ => false

theorem sign_only : (connector.sign request release).Only fun call =>
    isTransport call = false ∧ isLookup call = false := by
  unfold sign
  refine Only.bind (only_perform.mpr ⟨rfl, rfl⟩) fun issuedAt => Only.bind only_done fun body => ?_
  refine Only.bind (only_perform.mpr ⟨rfl, rfl⟩) fun _ => Only.bind only_done fun payload => ?_
  refine Only.bind (only_perform.mpr ⟨rfl, rfl⟩) fun value => ?_
  exact Only.bind (only_perform.mpr ⟨rfl, rfl⟩) fun algorithm => only_done

/-- What a signed release says. -/
structure Releases (connector : ExternalConnector) (request : ConnectorRequest)
    (release : ConnectorReleaseContext) (signed : SignedExternalRelease) : Prop where
  audience : signed.release.audience = connector.url.href
  businessTransactionId : signed.release.businessTransactionId = request.businessTransactionId
  authorizationId : signed.release.authorizationId = release.authorizationId
  capability : signed.release.capability = request.capability
  parameters : signed.release.parameters = request.parameters

theorem sign_ok {t : List ExternalEvent} {signed : SignedExternalRelease}
    (h : Runs (connector.sign request release) t (.ok signed)) :
    Releases connector request release signed := by
  unfold sign at h
  obtain ⟨e, -, herror⟩ | ⟨issuedAt, t₁, -, hbody⟩ := runs_perform_bind.mp h
  · cases herror
  obtain ⟨e, -, herror⟩ | ⟨body, t₂, t₃, -, hdone, hsigner⟩ := runs_bind.mp hbody
  · cases herror
  obtain ⟨e, -, herror⟩ | ⟨_, t₄, -, hpayload⟩ := runs_perform_bind.mp hsigner
  · cases herror
  obtain ⟨e, -, herror⟩ | ⟨payload, t₅, t₆, -, -, hvalue⟩ := runs_bind.mp hpayload
  · cases herror
  obtain ⟨e, -, herror⟩ | ⟨value, t₇, -, halgorithm⟩ := runs_perform_bind.mp hvalue
  · cases herror
  obtain ⟨e, -, herror⟩ | ⟨algorithm, t₈, -, hsigned⟩ := runs_perform_bind.mp halgorithm
  · cases herror
  cases (runs_done.mp hsigned).2
  have hrelease := mapError_eq_ok.mp (runs_done.mp hdone).2.symm
  unfold GatewayExternalAdapter.releaseBody at hrelease
  obtain ⟨issued, -, hrelease⟩ := bind_eq_ok.mp hrelease
  obtain ⟨expires, -, hrelease⟩ := bind_eq_ok.mp hrelease
  cases hrelease
  exact ⟨rfl, rfl, rfl, rfl, rfl⟩

/-- The lookup and its check. -/
theorem resolve_runs {net : NetModule} {hostname : JsString} {t : List ExternalEvent}
    {r : Except Failure (List ResolvedAddress)}
    (h : Runs (resolvePublicEndpointAddresses net hostname) t r) :
    ∃ answer, t = [⟨.lookup hostname, answer⟩] ∧
      ∀ found, r = .ok found → ∃ addresses, answer = .ok addresses ∧
        publicAddresses net hostname addresses = .ok found := by
  unfold resolvePublicEndpointAddresses at h
  obtain ⟨e, hlookup, hr⟩ | ⟨addresses, t₁, t₂, ht, hlookup, hdone⟩ := runs_bind.mp h
  · obtain ⟨_, -, herror⟩ | ⟨e', t₁, t₂, ht, hperform, hthrow⟩ := runs_tryCatch.mp hlookup
    · cases herror
    · rw [runs_perform.mp hperform, (runs_done.mp hthrow).1, List.append_nil] at ht
      refine ⟨_, ht, fun found hfound => ?_⟩
      rw [hr] at hfound
      cases hfound
  · obtain ⟨rfl, hr⟩ := runs_done.mp hdone
    obtain ⟨answered, hperform, hanswered⟩ | ⟨e', t₃, t₄, -, -, hthrow⟩ := runs_tryCatch.mp hlookup
    · cases hanswered
      rw [runs_perform.mp hperform, List.append_nil] at ht
      exact ⟨_, ht, fun found hfound => ⟨addresses, rfl, hr.symm.trans hfound⟩⟩
    · cases (runs_done.mp hthrow).2

/-- The whole of a run that releases. -/
structure ReleaseRun (net : NetModule) (connector : ExternalConnector) (request : ConnectorRequest)
    (context : ExternalExecutionContext) (t : List ExternalEvent)
    (r : Except Failure ConnectorResponse) (sent : ReleaseTransportRequest) : Prop where
  admitted : ∃ release signed, connector.check request context = .ok release ∧
    Releases connector request release signed ∧
    sent = connector.transportRequest context sent.addresses signed
  resolved : publicAddresses net connector.url.hostname sent.addresses = .ok sent.addresses
  events : ∃ signing answer, (∀ event ∈ signing, isTransport event.1 = false ∧
      isLookup event.1 = false) ∧
    t = ⟨.lookup connector.url.hostname, .ok sent.addresses⟩ ::
      (signing ++ [⟨.transport sent, answer⟩]) ∧
    ∀ response, r = .ok response → ∃ answered, answer = .ok answered ∧ Accepted request answered

/-- A run either never calls the transport and fails, or goes through every step in order. -/
theorem execute_runs {net : NetModule} {t : List ExternalEvent}
    {r : Except Failure ConnectorResponse}
    (h : Runs (connector.execute net request context) t r) :
    ((∀ event ∈ t, isTransport event.1 = false) ∧ ∃ e, r = .error e) ∨
      ∃ sent, ReleaseRun net connector request context t r sent := by
  unfold execute at h
  obtain ⟨e, hcheck, hr⟩ | ⟨release, t₁, t₂, rfl, hcheck, hresolve⟩ := runs_bind.mp h
  · rw [(runs_done.mp hcheck).1]
    exact .inl ⟨fun event hmem => absurd hmem List.not_mem_nil, e, hr⟩
  obtain ⟨rfl, hadmitted⟩ := runs_done.mp hcheck
  rw [List.nil_append]
  obtain ⟨e, hcatch, hr⟩ | ⟨addresses, t₃, t₄, rfl, hcatch, hsign⟩ := runs_bind.mp hresolve
  · obtain ⟨_, -, herror⟩ | ⟨e', t₅, t₆, rfl, hlookup, hthrow⟩ := runs_tryCatch.mp hcatch
    · cases herror
    obtain ⟨answer, rfl, -⟩ := resolve_runs hlookup
    rw [(runs_done.mp hthrow).1, List.append_nil]
    refine .inl ⟨fun event hmem => ?_, e, hr⟩
    rw [List.mem_singleton.mp hmem]
    rfl
  have hlookup : t₃ = [⟨.lookup connector.url.hostname, .ok addresses⟩] ∧
      publicAddresses net connector.url.hostname addresses = .ok addresses := by
    obtain ⟨found, hfound, heq⟩ | ⟨e', t₅, t₆, -, -, hthrow⟩ := runs_tryCatch.mp hcatch
    · cases heq
      obtain ⟨answer, ht, hpublic⟩ := resolve_runs hfound
      obtain ⟨answered, rfl, hchecked⟩ := hpublic addresses rfl
      obtain ⟨rfl, -, -⟩ := publicAddresses_eq_ok.mp hchecked
      exact ⟨ht, hchecked⟩
    · cases (runs_done.mp hthrow).2
  obtain ⟨rfl, hpublic⟩ := hlookup
  obtain ⟨e, hsigned, hr⟩ | ⟨signed, signing, t₆, rfl, hsigned, hsend⟩ := runs_bind.mp hsign
  · refine .inl ⟨fun event hmem => ?_, e, hr⟩
    rcases List.mem_append.mp hmem with hmem | hmem
    · rw [List.mem_singleton.mp hmem]
      rfl
    · exact (sign_only.of_runs hsigned event hmem).1
  have hrun : ∃ answer, t₆ = [⟨.transport (connector.transportRequest context addresses signed),
      answer⟩] ∧ ∀ response, r = .ok response →
        ∃ answered, answer = .ok answered ∧ Accepted request answered := by
    obtain ⟨e, rfl, hr⟩ | ⟨answered, t₇, rfl, haccept⟩ := runs_perform_bind.mp hsend
    · refine ⟨_, rfl, fun response hresponse => ?_⟩
      rw [hr] at hresponse
      cases hresponse
    · obtain ⟨rfl, hr⟩ := runs_done.mp haccept
      exact ⟨_, rfl, fun response hresponse =>
        ⟨answered, rfl, acceptAnswer_ok (hr.symm.trans hresponse)⟩⟩
  obtain ⟨answer, rfl, hanswer⟩ := hrun
  refine .inr ⟨connector.transportRequest context addresses signed, ?_, hpublic, ?_⟩
  · exact ⟨release, signed, hadmitted.symm, sign_ok hsigned, rfl⟩
  · exact ⟨signing, answer, sign_only.of_runs hsigned, rfl, hanswer⟩

/-! ## What a run can do -/

/-- What is known of a release when the transport is called with it: it is one of the
registered capability, with a release context and allowed parameters, and its addresses are
the public answer of the only lookup. -/
structure Releasable (net : NetModule) (connector : ExternalConnector) (request : ConnectorRequest)
    (context : ExternalExecutionContext) (t : List ExternalEvent)
    (sent : ReleaseTransportRequest) : Prop where
  capability : request.capability = connector.target.capability
  release : ∃ release signed, context.release = some release ∧
    Releases connector request release signed ∧ sent.body = signed.toJson.stringify
  parameters : ∀ name ∈ request.parameters.keys, name ∈ connector.target.allowedParameters
  lookup : t.filter (fun event => isLookup event.1) =
    [⟨.lookup connector.url.hostname, .ok sent.addresses⟩]
  nonempty : sent.addresses ≠ []
  isPublic : ∀ resolved ∈ sent.addresses,
    ∃ address, net.parse resolved.address = some address ∧ PublicAddress address

/-- The only call of the transport in a run that releases. -/
theorem ReleaseRun.transports {net : NetModule} {t : List ExternalEvent}
    {r : Except Failure ConnectorResponse} {sent : ReleaseTransportRequest}
    (h : ReleaseRun net connector request context t r sent) :
    ∃ answer, t.filter (fun event => isTransport event.1) = [⟨.transport sent, answer⟩] ∧
      ∀ response, r = .ok response →
        ∃ answered, answer = .ok answered ∧ Accepted request answered := by
  obtain ⟨signing, answer, hsigning, rfl, hanswer⟩ := h.events
  have hnone : signing.filter (fun event => isTransport event.1) = [] :=
    List.filter_eq_nil_iff.mpr fun event hmem => by simp [(hsigning event hmem).1]
  refine ⟨answer, ?_, hanswer⟩
  rw [List.filter_cons_of_neg (by simp [isTransport]), List.filter_append, hnone]
  rfl

theorem ReleaseRun.releasable {net : NetModule} (hnet : net.Decides) {t : List ExternalEvent}
    {r : Except Failure ConnectorResponse} {sent : ReleaseTransportRequest}
    (h : ReleaseRun net connector request context t r sent) :
    Releasable net connector request context t sent := by
  obtain ⟨release, signed, hcheck, hreleases, hsent⟩ := h.admitted
  obtain ⟨hcapability, hrelease, hparameters⟩ := check_ok hcheck
  obtain ⟨-, hnonempty, hpublic⟩ := publicAddresses_eq_ok.mp h.resolved
  obtain ⟨signing, answer, hsigning, rfl, -⟩ := h.events
  have hnone : signing.filter (fun event => isLookup event.1) = [] :=
    List.filter_eq_nil_iff.mpr fun event hmem => by simp [(hsigning event hmem).2]
  refine ⟨hcapability, ⟨release, signed, hrelease, hreleases, by rw [hsent]; rfl⟩, hparameters, ?_,
    hnonempty, fun resolved hmem => public_of_isPublicAddress hnet (hpublic resolved hmem)⟩
  rw [List.filter_cons_of_pos rfl, List.filter_append, hnone]
  rfl

/-- A socket of the pinned transport connects to an address that it was handed. -/
theorem pinned_connects {net : NetModule} {connects : RequestOptions → JsString → Prop}
    (hconnects : ConnectsThroughLookup net connects) {sent : ReleaseTransportRequest}
    (hhost : net.isIP sent.url.hostname = false) (hne : sent.addresses ≠ []) :
    ∃ options, pinnedOptions sent = .ok options ∧ ∀ address, connects options address →
      ∃ resolved ∈ sent.addresses, resolved.address = address := by
  unfold pinnedOptions
  cases haddresses : sent.addresses with
  | nil => exact absurd haddresses hne
  | cons pinned rest =>
    refine ⟨_, rfl, fun address hconnect => ?_⟩
    have hlookup := hconnects _ address hconnect
    dsimp only at hlookup
    rw [hhost, if_neg Bool.false_ne_true] at hlookup
    obtain ⟨all, resolved, hresolved, rfl⟩ := hlookup
    refine ⟨pinned, List.mem_cons_self, ?_⟩
    cases all with
    | true => rw [List.mem_singleton.mp hresolved]
    | false => rw [List.mem_singleton.mp hresolved]

/-- The transport is the pinned one: what it resolves to is what it read. -/
def ReadsPinned (decode : List UInt8 → JsString) (t : List ExternalEvent) : Prop :=
  ∀ sent answer, (⟨.transport sent, .ok answer⟩ : ExternalEvent) ∈ t → ∃ statusCode chunks,
    pinnedResponse decode EXTERNAL_ANSWER_MAX_BYTES statusCode chunks = .ok answer

/-- **What is accepted was read to its end**, and is no larger than the bound. -/
theorem execute_reads {net : NetModule} {decode : List UInt8 → JsString} {t : List ExternalEvent}
    {response : ConnectorResponse} (hread : ReadsPinned decode t)
    (h : Runs (connector.execute net request context) t (.ok response)) :
    ∃ (statusCode : Option JsNumber) (chunks : List (List UInt8)),
      chunks.flatten.length ≤ EXTERNAL_ANSWER_MAX_BYTES ∧
      Accepted request { status := statusCode.getD .zero, body := decode chunks.flatten } := by
  rcases execute_runs h with ⟨-, e, he⟩ | ⟨sent, hrun⟩
  · cases he
  obtain ⟨signing, answer, -, ht, hanswer⟩ := hrun.events
  obtain ⟨answered, rfl, haccepted⟩ := hanswer response rfl
  have hmem : (⟨.transport sent, .ok answered⟩ : ExternalEvent) ∈ t := by
    rw [ht]
    exact List.mem_cons_of_mem _ (List.mem_append_right _ (List.mem_singleton_self _))
  obtain ⟨statusCode, chunks, hpinned⟩ := hread sent answered hmem
  obtain ⟨hlength, rfl⟩ := pinnedResponse_ok hpinned
  exact ⟨statusCode, chunks, hlength, haccepted⟩

/-- What the endpoint, its host and a request can make of a run of `execute`. -/
structure Confined (net : NetModule) (connects : RequestOptions → JsString → Prop)
    (connector : ExternalConnector) (request : ConnectorRequest)
    (context : ExternalExecutionContext) (t : List ExternalEvent)
    (r : Except Failure ConnectorResponse) : Prop where
  once : (t.filter fun event => isTransport event.1).length ≤ 1
  released : ∀ sent answer, (⟨.transport sent, answer⟩ : ExternalEvent) ∈ t →
    Releasable net connector request context t sent
  pinned : ∀ sent answer, (⟨.transport sent, answer⟩ : ExternalEvent) ∈ t →
    ∃ options, pinnedOptions sent = .ok options ∧ ∀ address, connects options address →
      ∃ resolved ∈ sent.addresses, resolved.address = address
  answered : ∀ response, r = .ok response → ∃ sent answer,
    (⟨.transport sent, .ok answer⟩ : ExternalEvent) ∈ t ∧ Accepted request answer

/-- `new URL` writes the host of an https URL in small letters. -/
def LowercaseHosts (parseUrl : JsString → Option EndpointUrl) : Prop :=
  ∀ text url, parseUrl text = some url → url.protocol = "https:" →
    url.hostname.units.map asciiLower = url.hostname.units

/-- **A release goes where it was registered to go.** -/
theorem execute_confined {parseUrl : JsString → Option EndpointUrl} {net : NetModule}
    {connects : RequestOptions → JsString → Prop} {target : ExternalConnectorTarget}
    {keyId : JsString} {t : List ExternalEvent} {r : Except Failure ConnectorResponse}
    (hnet : net.Decides) (hparse : LowercaseHosts parseUrl)
    (hconnects : ConnectsThroughLookup net connects)
    (hcreate : create parseUrl net target keyId = .ok connector)
    (h : Runs (connector.execute net request context) t r) :
    connector.target = target ∧ Confined net connects connector request context t r := by
  obtain ⟨htarget, hcheck⟩ := create_ok hcreate
  obtain ⟨hurl, hprotocol, hhost⟩ := checkEndpointUrl_ok hcheck
  rw [hparse _ _ hurl hprotocol] at hhost
  refine ⟨htarget, ?_⟩
  rcases execute_runs h with ⟨hnone, e, rfl⟩ | ⟨sent, hrun⟩
  · have hquiet : ∀ sent answer, (⟨.transport sent, answer⟩ : ExternalEvent) ∉ t :=
      fun sent answer hmem => absurd (hnone _ hmem) (by simp [isTransport])
    refine ⟨?_, fun sent answer hmem => absurd hmem (hquiet sent answer),
      fun sent answer hmem => absurd hmem (hquiet sent answer), fun response hr => by cases hr⟩
    rw [List.filter_eq_nil_iff.mpr fun event hmem => by simp [hnone event hmem]]
    exact Nat.zero_le 1
  · obtain ⟨answer, htransports, hanswer⟩ := hrun.transports
    have honly : ∀ other ans, (⟨.transport other, ans⟩ : ExternalEvent) ∈ t → other = sent := by
      intro other ans hmem
      have hfound : (⟨.transport other, ans⟩ : ExternalEvent) ∈
          t.filter fun event => isTransport event.1 := List.mem_filter.mpr ⟨hmem, rfl⟩
      rw [htransports] at hfound
      cases List.mem_singleton.mp hfound
      rfl
    have hreleasable := hrun.releasable hnet
    refine ⟨by rw [htransports]; exact le_rfl, fun other ans hmem => ?_, fun other ans hmem => ?_,
      fun response hr => ?_⟩
    · rw [honly other ans hmem]
      exact hreleasable
    · rw [honly other ans hmem]
      obtain ⟨release, signed, -, -, hsent⟩ := hrun.admitted
      refine pinned_connects hconnects ?_ hreleasable.nonempty
      rw [hsent]
      exact hhost
    · obtain ⟨answered, rfl, haccepted⟩ := hanswer response hr
      have hmem : (⟨.transport sent, .ok answered⟩ : ExternalEvent) ∈
          t.filter fun event => isTransport event.1 := by
        rw [htransports]
        exact List.mem_singleton_self _
      exact ⟨sent, answered, (List.mem_filter.mp hmem).1, haccepted⟩

end

/-! ### A release -/

namespace Sample

/-- The URL of the endpoint, by its members. -/
def url : EndpointUrl where
  protocol := "https:"
  username := ""
  password := ""
  hostname := "api.partner.example"
  port := ""
  pathname := "/release"
  search := ""
  hash := ""
  href := "https://api.partner.example/release"

def parseUrl (text : JsString) : Option EndpointUrl :=
  if text = "https://api.partner.example/release" then some url else none

/-- Knows one address, and decides subnets. -/
def net : NetModule where
  parse text := if text = "93.184.216.34" then some (.ofOctets 93 184 216 34) else none
  check rules _ _ := rules.any fun rule => rule.covers (.ofOctets 93 184 216 34)

def connects (options : RequestOptions) (address : JsString) : Prop :=
  if net.isIP options.hostname then address = options.hostname
  else ∃ all, ∃ resolved ∈ options.lookup all, resolved.address = address

def target : ExternalConnectorTarget where
  capability := "partner:pay"
  endpointUrl := "https://api.partner.example/release"
  allowedParameters := ["amount"]
  timeoutMs := .ofNat 10000

def connector : ExternalConnector := ⟨target, url, "default"⟩

def request : ConnectorRequest where
  capability := "partner:pay"
  businessTransactionId := "t1"
  action := "partner:pay"
  target := "invoice"
  parameters := [("amount", .num (.ofNat 1))]

def releaseContext : ConnectorReleaseContext where
  authorizationId := "a1"
  policy := ⟨"payments", "1.0.0", none⟩
  approvals := []

def context : ExternalExecutionContext := ⟨some releaseContext, .ofNat 30000⟩

def addresses : List ResolvedAddress := [⟨"93.184.216.34", .ipv4⟩]

/-- What is released at the beginning of the epoch. -/
def release : ExternalRelease where
  connectorId := "ext-partner:pay"
  audience := url.href
  businessTransactionId := "t1"
  authorizationId := "a1"
  capability := "partner:pay"
  target := "invoice"
  parameters := request.parameters
  policy := releaseContext.policy
  approvedBy := []
  issuedAt := "1970-01-01T00:00:00.000Z"
  expiresAt := "1970-01-01T00:01:00.000Z"

def payload : List UInt8 := release.toJson.sortKeys.stringify.encode

def signed : SignedExternalRelease := ⟨release, ⟨"ed25519", "default", "c2ln"⟩⟩

/-- What the endpoint answers. -/
def answer : Json :=
  .obj [("businessTransactionId", .str "t1"), ("capability", .str "partner:pay"),
    ("success", .bool true), ("result", .obj [])]

def events : List ExternalEvent :=
  [⟨.lookup "api.partner.example", .ok addresses⟩, ⟨.now, .ok (some 0)⟩, ⟨.createSigner, .ok ()⟩,
    ⟨.sign "default" payload, .ok ("c2ln" : JsString)⟩,
    ⟨.getMetadata "default", .ok ("ed25519" : JsString)⟩,
    ⟨.transport (connector.transportRequest context addresses signed),
      .ok ⟨.ofNat 200, answer.stringify⟩⟩]

theorem decides : net.Decides := by
  intro rules text address hparse
  have haddress : address = .ofOctets 93 184 216 34 := by
    unfold net at hparse
    dsimp only at hparse
    split at hparse
    · exact (Option.some.inj hparse).symm
    · cases hparse
  rw [haddress]
  exact List.any_eq_true

theorem lowercase : LowercaseHosts parseUrl := by
  intro text parsed hparse _
  unfold parseUrl at hparse
  split at hparse
  · cases hparse
    decide
  · cases hparse

theorem connects_through : ConnectsThroughLookup net connects := by
  intro options address hconnect
  exact hconnect

theorem created : create parseUrl net target "default" = .ok connector := by decide

theorem released_body :
    connector.adapter.releaseBody request releaseContext (some 0) = .ok release := by
  have hissued : toISOString 0 = "1970-01-01T00:00:00.000Z" := by decide
  have hexpiry : releaseExpiry (some 0) = some 60000 := by decide
  have hexpires : toISOString 60000 = "1970-01-01T00:01:00.000Z" := by decide
  unfold GatewayExternalAdapter.releaseBody
  rw [hexpiry]
  unfold isoText
  dsimp only
  rw [hissued, hexpires]
  rfl

theorem accepted : ∃ response, connector.acceptAnswer request signed
    ⟨.ofNat 200, answer.stringify⟩ = .ok response := by
  have hstatus : JsNumber.eq (.ofNat 200) (.ofNat 200) = true := by decide
  have hparse : Json.parse answer.stringify = some answer := Json.parse_stringify (by decide)
  have hproblems : problems request [("businessTransactionId", .str "t1"),
      ("capability", .str "partner:pay"), ("success", .bool true), ("result", .obj [])] = [] := by
    decide
  unfold acceptAnswer
  dsimp only
  rw [hstatus, hparse]
  unfold answer
  dsimp only
  rw [hproblems]
  exact ⟨_, rfl⟩

theorem resolves : Runs (tryCatch (resolvePublicEndpointAddresses net connector.url.hostname)
    fun error => throw (connector.refuseRelease error))
    [⟨.lookup "api.partner.example", .ok addresses⟩] (.ok addresses) := by
  have hpublic : publicAddresses net "api.partner.example" addresses = .ok addresses := by
    decide
  refine runs_tryCatch.mpr (.inl ⟨addresses, ?_, rfl⟩)
  refine Steps.call ?_
  show Runs (Program.done (publicAddresses net "api.partner.example" addresses)) [] _
  rw [hpublic]
  exact .refl _

theorem signs : Runs (connector.sign request releaseContext)
    [⟨.now, .ok (some 0)⟩, ⟨.createSigner, .ok ()⟩,
      ⟨.sign "default" payload, .ok ("c2ln" : JsString)⟩,
      ⟨.getMetadata "default", .ok ("ed25519" : JsString)⟩] (.ok signed) := by
  have hpayload : Crypto.serialize (.ofJson release.toJson) = .ok payload :=
    Crypto.serialize_json (by decide)
  unfold sign
  refine runs_perform_bind.mpr (.inr ⟨some 0, _, rfl, ?_⟩)
  rw [released_body]
  refine runs_bind.mpr (.inr ⟨release, [], _, rfl, .refl _, ?_⟩)
  refine runs_perform_bind.mpr (.inr ⟨(), _, rfl, ?_⟩)
  rw [hpayload]
  refine runs_bind.mpr (.inr ⟨payload, [], _, rfl, .refl _, ?_⟩)
  refine runs_perform_bind.mpr (.inr ⟨_, _, rfl, ?_⟩)
  exact runs_perform_bind.mpr (.inr ⟨_, _, rfl, .refl _⟩)

theorem runs : ∃ response, Runs (connector.execute net request context) events (.ok response) := by
  obtain ⟨response, haccepted⟩ := accepted
  have hcheck : connector.check request context = .ok releaseContext := rfl
  refine ⟨response, ?_⟩
  unfold execute
  rw [hcheck, done_ok_bind]
  refine runs_bind.mpr (.inr ⟨addresses, _, _, rfl, resolves, ?_⟩)
  refine runs_bind.mpr (.inr ⟨signed, _, _, rfl, signs, ?_⟩)
  refine runs_perform_bind.mpr (.inr ⟨_, _, rfl, ?_⟩)
  rw [haccepted]
  exact .refl _

end Sample

/-- A release to a host with one public address. -/
theorem execute_confined_sample : ∃ response,
    Runs (Sample.connector.execute Sample.net Sample.request Sample.context) Sample.events
        (.ok response) ∧
      Sample.connector.target = Sample.target ∧
      Confined Sample.net Sample.connects Sample.connector Sample.request Sample.context
        Sample.events (.ok response) := by
  obtain ⟨response, hruns⟩ := Sample.runs
  exact ⟨response, hruns, execute_confined Sample.decides Sample.lowercase Sample.connects_through
    Sample.created hruns⟩

end ExternalConnector

end Parmana.Connectors

import Parmana.Gateway.Call
import Parmana.Interaction.Answers
import Parmana.Js.NumberText

/-! # The envelope verifier

`EnvelopeVerifier` checks a signed authorization: its version, its signature under
a key that is neither expired nor revoked, its expiry and its time to live.  None
of these checks changes anything; using up the nonce does, and comes after all of
them.
-/
namespace Parmana.Gateway
open Js Interaction Interaction.Program

/-! ## The checks -/

/-- `Date.parse` as a number: `NaN` for a text that is no date. -/
def dateNumber (t : Option Int) : JsNumber := t.elim .nan JsNumber.ofInt

/-- `ttlSeconds`: the time from one date to another, in seconds. -/
def ttlSeconds (expiresAt authorizedAt : Option Int) : JsNumber :=
  ((dateNumber expiresAt).sub (dateNumber authorizedAt)).divNat 1000

/-- `ttlWithinPolicy`. -/
def ttlWithinPolicy (maxTtlSeconds : JsNumber) (expiresAt authorizedAt : Option Int) : Bool :=
  (ttlSeconds expiresAt authorizedAt).isFinite &&
    (ttlSeconds expiresAt authorizedAt).le maxTtlSeconds

/-- `SUPPORTED_PAYLOAD_VERSION`. -/
def SUPPORTED_PAYLOAD_VERSION : JsValue := .json (.num (.ofNat 1))

/-- The checks of an `AuthorizationVerificationResult`. -/
structure AuthorizationChecks where
  versionSupported : Bool
  signatureVerified : Bool
  notExpired : Bool
  deriving DecidableEq

/-- `EnvelopeVerifier`, with whether a key provider and an expiry store are
configured. -/
structure EnvelopeVerifier (Key : Type) where
  publicKey : Key
  keyProvider : Bool
  keyExpiryStore : Bool
  maxTtlSeconds : JsNumber

/-- `DEFAULT_MAX_TTL_SECONDS`. -/
def DEFAULT_MAX_TTL_SECONDS : JsNumber := .ofNat 300

/-- Whether the key has expired or been revoked. -/
def KeyExpiryEntry.invalid (entry : KeyExpiryEntry) (now : Int) : Bool :=
  entry.revoked == some true || entry.expiresAt.any fun t => decide (t ≤ now)

/-- `EnvelopeChecksResult`. -/
structure EnvelopeChecksResult where
  passed : Bool
  checks : EnvelopeChecks
  deriving DecidableEq

/-- `EnvelopeVerificationResult`. -/
structure EnvelopeVerificationResult where
  valid : Bool
  checks : EnvelopeChecks
  nonceUnseen : Bool
  deriving DecidableEq

variable {Key : Type} (dateParse : JsString → Option Int)

/-- `versionSupported`. -/
def versionSupported (payload : ExecutionAuthorizationPayload) : Bool :=
  JsValue.strictEq payload.version SUPPORTED_PAYLOAD_VERSION

/-- `AuthorizationVerifier.verify`: an unknown version is not looked into. -/
def AuthorizationVerifier.verify (authorization : SignedExecutionAuthorization) (publicKey : Key)
    (now : Int) : GatewayProgram Key AuthorizationChecks :=
  if versionSupported authorization.payload then do
    let signatureVerified ←
      ask (.verifySignature authorization.payload authorization.signature publicKey)
    return ⟨true, signatureVerified,
      Approval.notExpired dateParse now authorization.payload.expiresAt⟩
  else return ⟨false, false, false⟩

namespace EnvelopeVerifier
variable (v : EnvelopeVerifier Key) (authorization : SignedExecutionAuthorization) (now : Int)

/-- Whether the expiry store has the key expired or revoked. -/
def keyExpired : GatewayProgram Key Bool :=
  if v.keyExpiryStore then do
    let entry ← ask (.getKeyExpiry authorization.keyId)
    return entry.any (·.invalid now)
  else return false

/-- `resolveKey`. -/
def resolveKey : GatewayProgram Key (Option Key) :=
  if v.keyProvider then do
    if ← v.keyExpired authorization now then
      return none
    else
      tryCatch (do return some (← ask (.getPublicKey authorization.keyId))) fun _ => return none
  else return some v.publicKey

/-- `keyValid`: there is one only with a key provider. -/
def keyValid (resolvedKey : Option Key) : Option Bool :=
  if v.keyProvider then some resolvedKey.isSome else none

/-- What the checks of the authorization and its time to live come to. -/
def envelopeChecks (resolvedKey : Option Key) (checks : AuthorizationChecks) :
    EnvelopeChecksResult :=
  let ttl := ttlWithinPolicy v.maxTtlSeconds (dateParse authorization.payload.expiresAt)
    (dateParse authorization.payload.authorizedAt)
  ⟨v.keyValid resolvedKey != some false && checks.versionSupported && checks.signatureVerified &&
      checks.notExpired && ttl,
    ⟨v.keyValid resolvedKey, checks.versionSupported, checks.signatureVerified, checks.notExpired,
      ttl⟩⟩

/-- The checks of the authorization under the resolved key; without one none passes. -/
def authorizationChecks : Option Key → GatewayProgram Key AuthorizationChecks
  | some key => AuthorizationVerifier.verify dateParse authorization key now
  | none => return ⟨false, false, false⟩

/-- `verifyChecks`. -/
def verifyChecks : GatewayProgram Key EnvelopeChecksResult := do
  let resolvedKey ← v.resolveKey authorization now
  let checks ← authorizationChecks dateParse authorization now resolvedKey
  return v.envelopeChecks dateParse authorization resolvedKey checks

/-- `consumeNonce`. -/
def consumeNonce (authorization : SignedExecutionAuthorization) : GatewayProgram Key Bool :=
  ask (.checkAndRecord authorization.payload.nonce authorization.payload.expiresAt)

/-- The nonce is used up only when everything else has passed. -/
def consumeIf (passed : Bool) (authorization : SignedExecutionAuthorization) :
    GatewayProgram Key Bool :=
  if passed then consumeNonce authorization else return false

/-- `verify`. -/
def verify : GatewayProgram Key EnvelopeVerificationResult := do
  let ⟨passed, checks⟩ ← v.verifyChecks dateParse authorization now
  let nonceUnseen ← consumeIf passed authorization
  return ⟨passed && nonceUnseen, checks, nonceUnseen⟩

end EnvelopeVerifier

end Parmana.Gateway

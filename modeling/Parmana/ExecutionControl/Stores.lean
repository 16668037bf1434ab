import Parmana.Collections.Table
import Parmana.ExecutionControl.Call
import Parmana.Js.Time
import Mathlib.Logic.Function.Basic

/-! # The stores of execution control

The sessions of the gateway and the leases on credentials, each a map kept in memory.
A session remembers what it was opened for as hashes of the canonical bytes, and is
used up by the request that presents the same; a lease is used up by the first who
asks for its credential, and stays revoked once it is.  Neither map ever forgets a
record, so what is used or revoked remains so.

`Serves` says how a call is answered: the stores answer as they do, over the identifiers
their generators have just drawn, and everything else as it likes.
-/
namespace Parmana.ExecutionControl
open Js Interaction Interaction.Program Parmana.Gateway

/-! ## What is hashed -/

/-- A value of the authorization, as it is written. -/
def writtenValue : JsValue → Data
  | .json j => .ofJson j
  | .prototype .object => .obj []
  | .prototype .array => .arr []
  | _ => .undefined

/-- An optional text. -/
def writtenText (text : Option JsString) : Data := text.elim .undefined .str

/-- The members of a payload. -/
def payloadData (payload : ExecutionAuthorizationPayload) : Data :=
  .obj [("version", writtenValue payload.version),
    ("authorizationId", .str payload.authorizationId), ("nonce", .str payload.nonce),
    ("decisionId", .str payload.decisionId),
    ("businessTransactionId", .str payload.businessTransactionId),
    ("policyName", .str payload.policyName), ("policyVersion", .str payload.policyVersion),
    ("authorizedAt", .str payload.authorizedAt), ("expiresAt", .str payload.expiresAt),
    ("businessTransactionHash", .str payload.businessTransactionHash),
    ("policyContentHash", writtenText payload.policyContentHash),
    ("signalsHash", writtenText payload.signalsHash),
    ("submittedBy", writtenText payload.submittedBy),
    ("grantedCapability", writtenText payload.grantedCapability)]

/-- The members of an authorization. -/
def authorizationData (authorization : SignedExecutionAuthorization) : Data :=
  .obj [("payload", payloadData authorization.payload), ("signature", .str authorization.signature),
    ("keyId", .str authorization.keyId), ("algorithm", .str authorization.algorithm)]

/-- The members of the content. -/
def contentData (content : ExecutableContent) : Data := .ofJson (contentJson content)

/-- `bindingHash`, `sha256` giving the digest of bytes in hexadecimal. -/
def bindingHash (sha256 : List UInt8 → JsString) (value : Data) : Except Failure JsString :=
  match Crypto.serialize value with
  | .ok bytes => .ok (sha256 bytes)
  | .error message => .error (.error message)

/-- `date.toISOString()`. -/
def isoText : Option Int → Except Failure JsString
  | some time => .ok (toISOString time)
  | none => .error (.error "Invalid time value")

/-! ## Gateway sessions -/

/-- `SessionRecord`. -/
structure SessionRecord extends GatewaySession where
  connectorId : JsString
  contentBinding : JsString
  authorizationBinding : JsString
  used : Bool
  deriving DecidableEq

/-- `InMemoryGatewaySessionStore`. -/
structure GatewaySessionStore where
  issuanceAuthentication : ObjectRef
  sessions : Table fun record : SessionRecord => record.sessionId

section Sessions
variable (dateParse : JsString → Option Int) (sha256 : List UInt8 → JsString)

/-- When a session opened now expires. -/
def sessionExpiry (release : ExecutionRelease) (lifetimeMs : JsNumber) (now : Int) : Option Int :=
  timeClip (((JsNumber.ofInt now).add lifetimeMs).min
    (dateNumber (dateParse release.authorization.payload.expiresAt)))

/-- The record of a session opened now. -/
def sessionRecord (release : ExecutionRelease) (connectorId : JsString) (lifetimeMs : JsNumber)
    (now : Int) (sessionId : JsString) : Except Failure SessionRecord := do
  let expiresAt ← isoText (sessionExpiry dateParse release lifetimeMs now)
  let contentBinding ← bindingHash sha256 (contentData release.executableContent)
  let authorizationBinding ← bindingHash sha256 (authorizationData release.authorization)
  return { sessionId, createdAt := toISOString now, expiresAt, connectorId, contentBinding,
           authorizationBinding, used := false,
           authorizationId := release.authorization.payload.authorizationId }

/-- Whether a record's bindings are those of a request. -/
def bindingsMatch (record : SessionRecord) (request : GatewayExecutionRequest) :
    Except Failure Bool := do
  let contentBinding ← bindingHash sha256 (contentData request.executableContent)
  if record.contentBinding = contentBinding then do
    let authorizationBinding ← bindingHash sha256 (authorizationData request.authorization)
    return decide (record.authorizationBinding = authorizationBinding) &&
      decide (record.toGatewaySession = request.gatewaySession)
  else return false

/-- `valid`, once there is a record. -/
def sessionValid (record : SessionRecord) (request : GatewayExecutionRequest)
    (connectorId : JsString) (now : Int) : Except Failure Bool :=
  if !record.used && (dateParse record.expiresAt).any (fun expiry => decide (now < expiry)) &&
      decide (record.connectorId = connectorId) &&
      decide (record.authorizationId = request.authorization.payload.authorizationId) then
    bindingsMatch sha256 record request
  else return false

namespace GatewaySessionStore
variable (store : GatewaySessionStore)

/-- `create`, with the identifier that `randomUUID` draws. -/
def create (release : ExecutionRelease) (connectorId : JsString) (lifetimeMs : JsNumber)
    (issuanceAuthentication : ObjectRef) (now : Int) (sessionId : JsString) :
    Except Failure GatewaySession × GatewaySessionStore :=
  if issuanceAuthentication ≠ store.issuanceAuthentication then
    (.error (.error "Gateway session issuance rejected unauthenticated caller."), store)
  else
    match sessionRecord dateParse sha256 release connectorId lifetimeMs now sessionId with
    | .ok record => (.ok record.toGatewaySession, { store with sessions := store.sessions.set record })
    | .error e => (.error e, store)

/-- `consume`. -/
def consume (request : GatewayExecutionRequest) (connectorId : JsString) (now : Int) :
    Except Failure Bool × GatewaySessionStore :=
  match store.sessions.get request.gatewaySession.sessionId with
  | none => (.ok false, store)
  | some record =>
    match sessionValid dateParse sha256 record request connectorId now with
    | .ok true =>
      (.ok true, { store with sessions := store.sessions.set { record with used := true } })
    | answer => (answer, store)

end GatewaySessionStore

end Sessions

/-! ## Session credentials -/

/-- `SessionCredentialRecord`. -/
structure SessionCredentialRecord where
  sessionCredentialId : JsString
  connectorId : JsString
  authorizationId : JsString
  expiresAt : Option Int
  used : Bool
  revoked : Bool
  deriving DecidableEq

/-- The records of a vault. -/
abbrev SessionCredentials := Table fun record : SessionCredentialRecord => record.sessionCredentialId

namespace SessionCredentials
variable (records : SessionCredentials)

/-- What `issue` does, with the identifier that is generated: the record is kept before
the dates are written out. -/
def issue (lifetimeMs : JsNumber) (connectorId authorizationId : JsString) (issuedAt : Int)
    (sessionCredentialId : JsString) : Except Failure SessionCredential × SessionCredentials :=
  let expiresAt := timeClip ((JsNumber.ofInt issuedAt).add lifetimeMs)
  let kept := records.set ⟨sessionCredentialId, connectorId, authorizationId, expiresAt, false, false⟩
  match isoText expiresAt with
  | .ok text =>
    (.ok ⟨sessionCredentialId, connectorId, authorizationId, toISOString issuedAt, text⟩, kept)
  | .error e => (.error e, kept)

/-- An error about a session credential. -/
def credentialError (problem id : JsString) : Failure := .error (problem ++ id ++ ".")

/-- What `consume` does before the credential is resolved. -/
def consume (sessionCredentialId : JsString) (now : Int) :
    Except Failure JsString × SessionCredentials :=
  match records.get sessionCredentialId with
  | none => (.error (credentialError "Unknown session credential: " sessionCredentialId), records)
  | some record =>
    if record.revoked then
      (.error (credentialError "Session credential has been revoked: " sessionCredentialId), records)
    else if record.used then
      (.error (credentialError "Session credential has already been used: " sessionCredentialId),
        records)
    else if record.expiresAt.any fun expiry => decide (expiry ≤ now) then
      (.error (credentialError "Session credential has expired: " sessionCredentialId), records)
    else (.ok record.connectorId, records.set { record with used := true })

/-- `revoke`. -/
def revoke (sessionCredentialId : JsString) : Except Failure Unit × SessionCredentials :=
  match records.get sessionCredentialId with
  | none => (.error (credentialError "Unknown session credential: " sessionCredentialId), records)
  | some record => (.ok (), records.set { record with revoked := true })

end SessionCredentials

/-! ## How the calls are answered -/

/-- The session store and the vaults. -/
structure ControlState where
  sessions : GatewaySessionStore
  vaults : ObjectRef → SessionCredentials

/-- The records of one vault replaced. -/
def ControlState.setVault (s : ControlState) (vault : ObjectRef) (records : SessionCredentials) :
    ControlState :=
  { s with vaults := Function.update s.vaults vault records }

/-- Whether a call leaves the stores alone. -/
def ConnectorCall.outside : ConnectorCall → Bool
  | .createSession .. | .consumeSession .. | .issueSessionCredential ..
  | .consumeSessionCredential .. | .revoke .. => false
  | _ => true

/-- One call is answered. -/
inductive Serves (dateParse : JsString → Option Int) (sha256 : List UInt8 → JsString) :
    ControlState → ConnectorEvent → ControlState → Prop where
  | createSession {s release connectorId lifetimeMs issuanceAuthentication now answer store}
      (sessionId : JsString) (fresh : s.sessions.sessions.get sessionId = none)
      (h : s.sessions.create dateParse sha256 release connectorId lifetimeMs
        issuanceAuthentication now sessionId = (answer, store)) :
      Serves dateParse sha256 s
        ⟨.createSession release connectorId lifetimeMs issuanceAuthentication now, answer⟩
        { s with sessions := store }
  | consumeSession {s request connectorId now answer store}
      (h : s.sessions.consume dateParse sha256 request connectorId now = (answer, store)) :
      Serves dateParse sha256 s ⟨.consumeSession request connectorId now, answer⟩
        { s with sessions := store }
  | issueSessionCredential {s vault connectorId authorizationId issuedAt answer records}
      (sessionCredentialId : JsString)
      (fresh : (s.vaults vault.place).get sessionCredentialId = none)
      (h : (s.vaults vault.place).issue vault.lifetimeMs connectorId authorizationId issuedAt
        sessionCredentialId = (answer, records)) :
      Serves dateParse sha256 s
        ⟨.issueSessionCredential vault connectorId authorizationId issuedAt, answer⟩
        (s.setVault vault.place records)
  | consumeSessionCredential {s vault sessionCredentialId now answer records}
      (h : (s.vaults vault).consume sessionCredentialId now = (answer, records)) :
      Serves dateParse sha256 s ⟨.consumeSessionCredential vault sessionCredentialId now, answer⟩
        (s.setVault vault records)
  | revoke {s vault sessionCredentialId answer records}
      (h : (s.vaults vault).revoke sessionCredentialId = (answer, records)) :
      Serves dateParse sha256 s ⟨.revoke vault sessionCredentialId, answer⟩
        (s.setVault vault records)
  | other {s call answer} (h : call.outside = true) : Serves dateParse sha256 s ⟨call, answer⟩ s

/-! ## What the session store does -/

section SessionLemmas
variable {dateParse : JsString → Option Int} {sha256 : List UInt8 → JsString}
  {store store' : GatewaySessionStore} {record : SessionRecord} {now : Int}

theorem create_ok {release : ExecutionRelease} {connectorId sessionId : JsString}
    {lifetimeMs : JsNumber} {issuanceAuthentication : ObjectRef} {session : GatewaySession}
    (h : store.create dateParse sha256 release connectorId lifetimeMs issuanceAuthentication now
      sessionId = (.ok session, store')) :
    ∃ record, sessionRecord dateParse sha256 release connectorId lifetimeMs now sessionId =
        .ok record ∧ session = record.toGatewaySession ∧
      store' = { store with sessions := store.sessions.set record } := by
  unfold GatewaySessionStore.create at h
  split at h
  · cases h
  · split at h
    · rename_i record hrecord
      obtain ⟨hs, rfl⟩ := Prod.mk.inj h
      exact ⟨record, hrecord, (Except.ok.inj hs).symm, rfl⟩
    · cases h

theorem create_error {release : ExecutionRelease} {connectorId sessionId : JsString}
    {lifetimeMs : JsNumber} {issuanceAuthentication : ObjectRef} {e : Failure}
    (h : store.create dateParse sha256 release connectorId lifetimeMs issuanceAuthentication now
      sessionId = (.error e, store')) : store' = store := by
  unfold GatewaySessionStore.create at h
  split at h
  · exact (Prod.mk.inj h).2.symm
  · split at h
    · cases h
    · exact (Prod.mk.inj h).2.symm

/-- What a session's record holds. -/
theorem sessionRecord_ok {release : ExecutionRelease} {connectorId sessionId : JsString}
    {lifetimeMs : JsNumber}
    (h : sessionRecord dateParse sha256 release connectorId lifetimeMs now sessionId = .ok record) :
    ∃ expiry, sessionExpiry dateParse release lifetimeMs now = some expiry ∧
      record.expiresAt = toISOString expiry ∧ record.sessionId = sessionId ∧
      record.connectorId = connectorId ∧ record.used = false ∧
      bindingHash sha256 (contentData release.executableContent) = .ok record.contentBinding ∧
      bindingHash sha256 (authorizationData release.authorization) =
        .ok record.authorizationBinding := by
  obtain ⟨expiresAt, hexpiry, h⟩ := bind_eq_ok.mp h
  obtain ⟨content, hcontent, h⟩ := bind_eq_ok.mp h
  obtain ⟨authorization, hauthorization, h⟩ := bind_eq_ok.mp h
  cases h
  cases hsome : sessionExpiry dateParse release lifetimeMs now with
  | none =>
    rw [hsome] at hexpiry
    cases hexpiry
  | some expiry =>
    rw [hsome] at hexpiry
    exact ⟨expiry, rfl, (Except.ok.inj hexpiry).symm, rfl, rfl, rfl, hcontent, hauthorization⟩

/-- **A session expires no later than the authorization it was opened for.** -/
theorem sessionExpiry_le {release : ExecutionRelease} {lifetimeMs : JsNumber} {expiry : Int}
    (hdates : ∀ text time, dateParse text = some time → time.natAbs ≤ maxTime)
    (h : sessionExpiry dateParse release lifetimeMs now = some expiry) :
    ∃ time, dateParse release.authorization.payload.expiresAt = some time ∧ expiry ≤ time := by
  unfold sessionExpiry at h
  cases hparse : dateParse release.authorization.payload.expiresAt with
  | some time =>
    rw [hparse] at h
    exact ⟨time, rfl, timeClip_min_le (hdates _ _ hparse) h⟩
  | none =>
    rw [hparse] at h
    have hnan : ∀ x : JsNumber, x.min (dateNumber none) = .nan := fun x => if_pos (.inr rfl)
    rw [hnan] at h
    cases h

theorem consume_true {request : GatewayExecutionRequest} {connectorId : JsString}
    (h : store.consume dateParse sha256 request connectorId now = (.ok true, store')) :
    ∃ record, store.sessions.get request.gatewaySession.sessionId = some record ∧
      sessionValid dateParse sha256 record request connectorId now = .ok true ∧
      store' = { store with sessions := store.sessions.set { record with used := true } } := by
  unfold GatewaySessionStore.consume at h
  split at h
  · cases h
  · rename_i record hget
    split at h
    · rename_i hvalid
      exact ⟨record, hget, hvalid, (Prod.mk.inj h).2.symm⟩
    · rename_i hnot
      exact absurd (Prod.mk.inj h).1 hnot

theorem consume_not_true {request : GatewayExecutionRequest} {connectorId : JsString}
    {answer : Except Failure Bool} (hanswer : answer ≠ .ok true)
    (h : store.consume dateParse sha256 request connectorId now = (answer, store')) :
    store' = store := by
  unfold GatewaySessionStore.consume at h
  split at h
  · exact (Prod.mk.inj h).2.symm
  · split at h
    · exact absurd (Prod.mk.inj h).1.symm hanswer
    · exact (Prod.mk.inj h).2.symm

/-- **What a request must present to be admitted.** -/
theorem sessionValid_true {request : GatewayExecutionRequest} {connectorId : JsString}
    (h : sessionValid dateParse sha256 record request connectorId now = .ok true) :
    record.used = false ∧ (∃ expiry, dateParse record.expiresAt = some expiry ∧ now < expiry) ∧
      record.connectorId = connectorId ∧ record.toGatewaySession = request.gatewaySession ∧
      bindingHash sha256 (contentData request.executableContent) = .ok record.contentBinding ∧
      bindingHash sha256 (authorizationData request.authorization) =
        .ok record.authorizationBinding := by
  unfold sessionValid at h
  split at h
  · rename_i hchecks
    rw [Bool.and_eq_true, Bool.and_eq_true, Bool.and_eq_true, Bool.not_eq_true',
      Option.any_eq_true, decide_eq_true_eq, decide_eq_true_eq] at hchecks
    obtain ⟨⟨⟨hused, expiry, hexpiry, hlt⟩, hconnector⟩, -⟩ := hchecks
    obtain ⟨content, hcontent, h⟩ := bind_eq_ok.mp h
    split at h
    · rename_i heq
      obtain ⟨authorization, hauthorization, h⟩ := bind_eq_ok.mp h
      have hboth := Except.ok.inj h
      rw [Bool.and_eq_true, decide_eq_true_eq, decide_eq_true_eq] at hboth
      exact ⟨hused, ⟨expiry, hexpiry, of_decide_eq_true hlt⟩, hconnector, hboth.2,
        heq ▸ hcontent, hboth.1 ▸ hauthorization⟩
    · cases h
  · cases h

/-- Where two bindings are the same and the hash has no collision between them, so are the
canonical bytes. -/
theorem bytes_of_bindings {a b : Data} {hash : JsString} {bound : Set (List UInt8)}
    (hinj : Set.InjOn sha256 bound)
    (hmem : ∀ bytes, Crypto.serialize a = .ok bytes ∨ Crypto.serialize b = .ok bytes →
      bytes ∈ bound)
    (ha : bindingHash sha256 a = .ok hash) (hb : bindingHash sha256 b = .ok hash) :
    ∃ bytes, Crypto.serialize a = .ok bytes ∧ Crypto.serialize b = .ok bytes := by
  unfold bindingHash at ha hb
  cases hsa : Crypto.serialize a with
  | error e =>
    rw [hsa] at ha
    cases ha
  | ok bytes =>
    cases hsb : Crypto.serialize b with
    | error e =>
      rw [hsb] at hb
      cases hb
    | ok bytes' =>
      rw [hsa] at ha
      rw [hsb] at hb
      have heq := hinj (hmem bytes (.inl hsa)) (hmem bytes' (.inr hsb))
        ((Except.ok.inj ha).trans (Except.ok.inj hb).symm)
      exact ⟨bytes, rfl, heq ▸ rfl⟩

end SessionLemmas

/-! ## What a call does to the stores -/

section Steps
variable {dateParse : JsString → Option Int} {sha256 : List UInt8 → JsString}
  {s s' : ControlState} {e : ConnectorEvent}

theorem get_set_session {sessions : Table fun record : SessionRecord => record.sessionId}
    {record : SessionRecord} {k : JsString} (h : k ≠ record.sessionId) :
    (sessions.set record).get k = sessions.get k := Table.get_set_of_ne sessions h

theorem get_set_credential {records : SessionCredentials} {record : SessionCredentialRecord}
    {k : JsString} (h : k ≠ record.sessionCredentialId) :
    (records.set record).get k = records.get k := Table.get_set_of_ne records h

/-- **A session is never forgotten, and changes only by being used up.** -/
theorem Serves.keeps_session (h : Serves dateParse sha256 s e s') {k : JsString}
    {record : SessionRecord} (hget : s.sessions.sessions.get k = some record) :
    ∃ record', s'.sessions.sessions.get k = some record' ∧
      (record' = record ∨ record' = { record with used := true }) := by
  cases h with
  | @createSession release connectorId lifetimeMs issuanceAuthentication now answer store id fresh h =>
    rcases answer with err | session
    · cases create_error h
      exact ⟨record, hget, .inl rfl⟩
    · obtain ⟨new, hnew, -, rfl⟩ := create_ok h
      obtain ⟨-, -, -, hid, -⟩ := sessionRecord_ok hnew
      have hne : k ≠ new.sessionId := by
        rintro rfl
        rw [hid, fresh] at hget
        cases hget
      exact ⟨record, (get_set_session hne).trans hget, .inl rfl⟩
  | @consumeSession request connectorId now answer store h =>
    by_cases hanswer : answer = .ok true
    · subst hanswer
      obtain ⟨found, hfound, -, rfl⟩ := consume_true h
      by_cases hk : k = found.sessionId
      · have hkey := Table.key_of_get hfound
        subst hk
        rw [hkey, hfound] at hget
        cases hget
        exact ⟨_, Table.get_set_self _ _, .inr rfl⟩
      · have hne : k ≠ ({ found with used := true } : SessionRecord).sessionId := hk
        exact ⟨record, (get_set_session hne).trans hget, .inl rfl⟩
    · cases consume_not_true hanswer h
      exact ⟨record, hget, .inl rfl⟩
  | issueSessionCredential => exact ⟨record, hget, .inl rfl⟩
  | consumeSessionCredential => exact ⟨record, hget, .inl rfl⟩
  | revoke => exact ⟨record, hget, .inl rfl⟩
  | other => exact ⟨record, hget, .inl rfl⟩

/-- A session in the store was there before, or has just been created. -/
theorem Serves.session_step (h : Serves dateParse sha256 s e s') {k : JsString}
    {record' : SessionRecord} (hget : s'.sessions.sessions.get k = some record') :
    (∃ record, s.sessions.sessions.get k = some record ∧
      { record' with used := false } = { record with used := false }) ∨
    ∃ release connectorId lifetimeMs issuanceAuthentication now,
      e = ⟨.createSession release connectorId lifetimeMs issuanceAuthentication now,
        .ok record'.toGatewaySession⟩ ∧
      sessionRecord dateParse sha256 release connectorId lifetimeMs now record'.sessionId =
        .ok record' := by
  cases h with
  | @createSession release connectorId lifetimeMs issuanceAuthentication now answer store id fresh h =>
    rcases answer with err | session
    · cases create_error h
      exact .inl ⟨record', hget, rfl⟩
    · obtain ⟨new, hnew, rfl, rfl⟩ := create_ok h
      obtain ⟨-, -, -, hid, -⟩ := sessionRecord_ok hnew
      by_cases hk : k = new.sessionId
      · subst hk
        cases (Table.get_set_self s.sessions.sessions new).symm.trans hget
        exact .inr ⟨release, connectorId, lifetimeMs, issuanceAuthentication, now, rfl, hid ▸ hnew⟩
      · exact .inl ⟨record', (get_set_session hk).symm.trans hget, rfl⟩
  | @consumeSession request connectorId now answer store h =>
    by_cases hanswer : answer = .ok true
    · subst hanswer
      obtain ⟨found, hfound, -, rfl⟩ := consume_true h
      by_cases hk : k = ({ found with used := true } : SessionRecord).sessionId
      · subst hk
        have hself := Table.get_set_self s.sessions.sessions { found with used := true }
        cases hself.symm.trans hget
        have hkey := Table.key_of_get hfound
        refine .inl ⟨found, ?_, rfl⟩
        rw [← hkey] at hfound
        exact hfound
      · exact .inl ⟨record', (get_set_session hk).symm.trans hget, rfl⟩
    · cases consume_not_true hanswer h
      exact .inl ⟨record', hget, rfl⟩
  | issueSessionCredential => exact .inl ⟨record', hget, rfl⟩
  | consumeSessionCredential => exact .inl ⟨record', hget, rfl⟩
  | revoke => exact .inl ⟨record', hget, rfl⟩
  | other => exact .inl ⟨record', hget, rfl⟩

/-- A request is admitted to a session that is not used, and is now. -/
theorem Serves.admitted {request : GatewayExecutionRequest} {connectorId : JsString} {now : Int}
    (h : Serves dateParse sha256 s ⟨.consumeSession request connectorId now, .ok true⟩ s') :
    (∃ record, s.sessions.sessions.get request.gatewaySession.sessionId = some record ∧
      sessionValid dateParse sha256 record request connectorId now = .ok true) ∧
    ∃ record, s'.sessions.sessions.get request.gatewaySession.sessionId = some record ∧
      record.used = true := by
  cases h with
  | @consumeSession _ _ _ _ store h =>
    obtain ⟨found, hfound, hvalid, rfl⟩ := consume_true h
    refine ⟨⟨found, hfound, hvalid⟩, { found with used := true }, ?_, rfl⟩
    rw [← Table.key_of_get hfound]
    exact Table.get_set_self s.sessions.sessions { found with used := true }
  | other h => cases h

/-- What a call does to the records of the vaults. -/
theorem Serves.vault_step (h : Serves dateParse sha256 s e s') :
    (∀ place, s'.vaults place = s.vaults place) ∨
    (∃ vault record, (s.vaults vault).get record.sessionCredentialId = none ∧
      s' = s.setVault vault ((s.vaults vault).set record)) ∨
    ∃ vault record record', (s.vaults vault).get record.sessionCredentialId = some record ∧
      (record' = { record with used := true } ∨ record' = { record with revoked := true }) ∧
      s' = s.setVault vault ((s.vaults vault).set record') := by
  have hsame : ∀ vault, ∀ place, (s.setVault vault (s.vaults vault)).vaults place = s.vaults place :=
    fun vault place => congrFun (Function.update_eq_self vault s.vaults) place
  cases h with
  | createSession => exact .inl fun _ => rfl
  | consumeSession => exact .inl fun _ => rfl
  | other => exact .inl fun _ => rfl
  | @issueSessionCredential vault connectorId authorizationId issuedAt answer records id fresh h =>
    refine .inr (.inl ⟨vault.place, ⟨id, connectorId, authorizationId,
      timeClip ((JsNumber.ofInt issuedAt).add vault.lifetimeMs), false, false⟩, fresh, ?_⟩)
    unfold SessionCredentials.issue at h
    dsimp only at h
    split at h
    · rw [← (Prod.mk.inj h).2]
    · rw [← (Prod.mk.inj h).2]
  | @consumeSessionCredential vault id now answer records h =>
    unfold SessionCredentials.consume at h
    split at h
    · rw [← (Prod.mk.inj h).2]
      exact .inl (hsame vault)
    · rename_i record hget
      have hkey := Table.key_of_get hget
      split at h
      · rw [← (Prod.mk.inj h).2]
        exact .inl (hsame vault)
      · split at h
        · rw [← (Prod.mk.inj h).2]
          exact .inl (hsame vault)
        · split at h
          · rw [← (Prod.mk.inj h).2]
            exact .inl (hsame vault)
          · rw [← (Prod.mk.inj h).2]
            exact .inr (.inr ⟨vault, record, _, by rw [hkey]; exact hget, .inl rfl, rfl⟩)
  | @revoke vault id answer records h =>
    unfold SessionCredentials.revoke at h
    split at h
    · rw [← (Prod.mk.inj h).2]
      exact .inl (hsame vault)
    · rename_i record hget
      have hkey := Table.key_of_get hget
      rw [← (Prod.mk.inj h).2]
      exact .inr (.inr ⟨vault, record, _, by rw [hkey]; exact hget, .inr rfl, rfl⟩)

theorem vaults_setVault {vault place : ObjectRef} {records : SessionCredentials} :
    (s.setVault vault records).vaults place = if place = vault then records else s.vaults place := by
  unfold ControlState.setVault
  exact Function.update_apply ..

/-- **A session credential is never forgotten, and what is used or revoked stays so.** -/
theorem Serves.keeps_credential (h : Serves dateParse sha256 s e s') {place : ObjectRef}
    {k : JsString} {record : SessionCredentialRecord}
    (hget : (s.vaults place).get k = some record) :
    ∃ record', (s'.vaults place).get k = some record' ∧
      (record.used = true → record'.used = true) ∧
      (record.revoked = true → record'.revoked = true) := by
  rcases h.vault_step with hsame | ⟨vault, new, hfresh, rfl⟩ | ⟨vault, old, new, hold, hnew, rfl⟩
  · rw [hsame]
    exact ⟨record, hget, id, id⟩
  · rw [vaults_setVault]
    by_cases hplace : place = vault
    · subst hplace
      have hne : k ≠ new.sessionCredentialId := by
        rintro rfl
        rw [hfresh] at hget
        cases hget
      rw [if_pos rfl, get_set_credential hne]
      exact ⟨record, hget, id, id⟩
    · rw [if_neg hplace]
      exact ⟨record, hget, id, id⟩
  · rw [vaults_setVault]
    by_cases hplace : place = vault
    · subst hplace
      rw [if_pos rfl]
      have hid : new.sessionCredentialId = old.sessionCredentialId := by
        rcases hnew with rfl | rfl <;> rfl
      by_cases hk : k = new.sessionCredentialId
      · subst hk
        rw [hid, hold] at hget
        cases hget
        refine ⟨new, Table.get_set_self _ _, ?_⟩
        rcases hnew with rfl | rfl
        · exact ⟨fun _ => rfl, id⟩
        · exact ⟨id, fun _ => rfl⟩
      · rw [get_set_credential hk]
        exact ⟨record, hget, id, id⟩
    · rw [if_neg hplace]
      exact ⟨record, hget, id, id⟩

/-- A credential that is issued has a record. -/
theorem Serves.issued {vault : SessionCredentialVault} {connectorId authorizationId : JsString}
    {issuedAt : Int} {credential : SessionCredential}
    (h : Serves dateParse sha256 s
      ⟨.issueSessionCredential vault connectorId authorizationId issuedAt, .ok credential⟩ s') :
    ∃ record, (s'.vaults vault.place).get credential.sessionCredentialId = some record := by
  cases h with
  | @issueSessionCredential _ _ _ _ _ records id fresh h =>
    rw [vaults_setVault, if_pos rfl]
    unfold SessionCredentials.issue at h
    dsimp only at h
    split at h
    · obtain ⟨hcredential, rfl⟩ := Prod.mk.inj h
      cases hcredential
      exact ⟨_, Table.get_set_self _ _⟩
    · cases h
  | other h => cases h

/-- A credential that is consumed was not used, and is now. -/
theorem Serves.consumed {vault : ObjectRef} {id connectorId : JsString} {now : Int}
    (h : Serves dateParse sha256 s ⟨.consumeSessionCredential vault id now, .ok connectorId⟩ s') :
    (∃ record, (s.vaults vault).get id = some record ∧ record.used = false ∧
      record.revoked = false) ∧
    ∃ record, (s'.vaults vault).get id = some record ∧ record.used = true := by
  cases h with
  | @consumeSessionCredential _ _ _ _ records h =>
    rw [vaults_setVault, if_pos rfl]
    unfold SessionCredentials.consume at h
    split at h
    · cases h
    · rename_i record hget
      have hkey := Table.key_of_get hget
      split at h
      · cases h
      · rename_i hrevoked
        split at h
        · cases h
        · rename_i hused
          split at h
          · cases h
          · rw [← (Prod.mk.inj h).2]
            refine ⟨⟨record, hget, by simpa using hused, by simpa using hrevoked⟩,
              { record with used := true }, ?_, rfl⟩
            rw [← hkey]
            exact Table.get_set_self _ _
  | other h => cases h

/-- A credential that has a record is revoked by `revoke`. -/
theorem Serves.revoked {vault : ObjectRef} {id : JsString} {answer : Except Failure Unit}
    (h : Serves dateParse sha256 s ⟨.revoke vault id, answer⟩ s') {record : SessionCredentialRecord}
    (hget : (s.vaults vault).get id = some record) :
    ∃ record, (s'.vaults vault).get id = some record ∧ record.revoked = true := by
  cases h with
  | @revoke _ _ _ records h =>
    rw [vaults_setVault, if_pos rfl]
    unfold SessionCredentials.revoke at h
    rw [hget] at h
    rw [← (Prod.mk.inj h).2]
    have hkey := Table.key_of_get hget
    refine ⟨{ record with revoked := true }, ?_, rfl⟩
    rw [← hkey]
    exact Table.get_set_self _ _
  | other h => cases h

end Steps

end Parmana.ExecutionControl

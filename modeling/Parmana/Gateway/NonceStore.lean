import Parmana.Gateway.SingleRelease
import Parmana.Interaction.Concurrent
import Parmana.Js.Data

/-! # The nonce store in memory

`MemoryNonceStore` keeps each nonce with its expiry and drops what has expired when
it has grown past its threshold.  Any number of verifications share it; between two
of their calls time may pass, and the clock never goes back.

A verification reads the clock and checks the expiry first and presents its nonce
last, and the store does not look at the expiry of what it is presented.  So a nonce
that is presented after its entry has expired may be found new a second time:
`nonce_accepted_twice` is such a run.  **Where no nonce is presented again after an
expiry it was presented with** (`Prompt`), each is accepted at most once, purging or
not: `prompt_accepted_once`.
-/
namespace Parmana.Gateway
open Js Interaction Interaction.Program

variable {Key : Type}

/-! ## The store -/

/-- `MemoryNonceStore`: the entries of `seen`, in the order they were set. -/
structure MemoryNonceStore where
  seen : List (JsString × Option Int)
  nodup : (seen.map Prod.fst).Nodup

/-- `PURGE_THRESHOLD`. -/
def PURGE_THRESHOLD : Nat := 10000

namespace MemoryNonceStore

/-- The store as it is created. -/
def empty : MemoryNonceStore := ⟨[], List.nodup_nil⟩

/-- Whether an entry has expired; one that is no date never does. -/
def expired (now : Int) (entry : JsString × Option Int) : Bool :=
  entry.2.any fun expiry => decide (expiry ≤ now)

/-- `purgeExpired`. -/
def purgeExpired (store : MemoryNonceStore) (now : Int) : MemoryNonceStore where
  seen := store.seen.filter fun entry => !expired now entry
  nodup := store.nodup.sublist (List.filter_sublist.map Prod.fst)

/-- `this.seen.has`. -/
def has (store : MemoryNonceStore) (nonce : JsString) : Bool :=
  decide (nonce ∈ store.seen.map Prod.fst)

/-- `this.seen.set`, for a nonce that is not there. -/
def set (store : MemoryNonceStore) (nonce : JsString) (expiry : Option Int)
    (h : store.has nonce = false) : MemoryNonceStore where
  seen := store.seen ++ [(nonce, expiry)]
  nodup := by
    rw [List.map_append]
    refine List.nodup_append.mpr ⟨store.nodup, List.nodup_singleton _, fun a ha b hb => ?_⟩
    rw [List.map_singleton, List.mem_singleton] at hb
    rintro rfl
    rw [hb] at ha
    exact absurd ha (of_decide_eq_false h)

/-- `checkAndRecord`; `now` is what the clock says if it is read. -/
def checkAndRecord (dateParse : JsString → Option Int) (store : MemoryNonceStore)
    (nonce expiresAt : JsString) (now : Int) : Bool × MemoryNonceStore :=
  if h : store.has nonce = false then
    let recorded := store.set nonce (dateParse expiresAt) h
    (true, if recorded.seen.length > PURGE_THRESHOLD then recorded.purgeExpired now else recorded)
  else (false, store)

variable {dateParse : JsString → Option Int} {store : MemoryNonceStore}
  {nonce expiresAt : JsString} {now : Int}

theorem mem_purgeExpired {entry : JsString × Option Int} :
    entry ∈ (store.purgeExpired now).seen ↔ entry ∈ store.seen ∧ expired now entry = false := by
  rw [purgeExpired, List.mem_filter, Bool.not_eq_true']

/-- A nonce is found new exactly when the store does not have it. -/
theorem checkAndRecord_fst :
    (store.checkAndRecord dateParse nonce expiresAt now).1 = !store.has nonce := by
  unfold checkAndRecord
  split
  · rename_i h
    rw [h]
    rfl
  · rename_i h
    rw [Bool.not_eq_false] at h
    rw [h]
    rfl

/-- What the store has it keeps until it has expired. -/
theorem mem_checkAndRecord {entry : JsString × Option Int} (h : entry ∈ store.seen) :
    entry ∈ (store.checkAndRecord dateParse nonce expiresAt now).2.seen ∨
      expired now entry = true := by
  unfold checkAndRecord
  split
  · dsimp only
    split
    · rw [mem_purgeExpired]
      cases hexpired : expired now entry with
      | true => exact Or.inr rfl
      | false => exact Or.inl ⟨List.mem_append_left _ h, rfl⟩
    · exact Or.inl (List.mem_append_left _ h)
  · exact Or.inl h

/-- A nonce found new is recorded, unless it has expired already. -/
theorem recorded_checkAndRecord (h : store.has nonce = false) :
    (nonce, dateParse expiresAt) ∈ (store.checkAndRecord dateParse nonce expiresAt now).2.seen ∨
      expired now (nonce, dateParse expiresAt) = true := by
  unfold checkAndRecord
  rw [dif_pos h]
  dsimp only
  have hmem : (nonce, dateParse expiresAt) ∈
      (store.set nonce (dateParse expiresAt) h).seen :=
    List.mem_append_right _ (List.mem_singleton_self _)
  split
  · rw [mem_purgeExpired]
    cases hexpired : expired now (nonce, dateParse expiresAt) with
    | true => exact Or.inr rfl
    | false => exact Or.inl ⟨hmem, rfl⟩
  · exact Or.inl hmem

theorem seen_checkAndRecord (h : store.has nonce = false) :
    (store.checkAndRecord dateParse nonce expiresAt now).2.seen =
      if store.seen.length + 1 > PURGE_THRESHOLD then
        (store.seen ++ [(nonce, dateParse expiresAt)]).filter fun entry => !expired now entry
      else store.seen ++ [(nonce, dateParse expiresAt)] := by
  unfold checkAndRecord
  rw [dif_pos h]
  dsimp only
  have hlength : (store.set nonce (dateParse expiresAt) h).seen.length = store.seen.length + 1 := by
    rw [set, List.length_append, List.length_singleton]
  rw [hlength]
  split
  · rfl
  · rfl

end MemoryNonceStore

/-! ## Verifications over one store -/

/-- A verification of the envelope alone or of the whole request. -/
inductive Verification (Key : Type) where
  | envelope (verifier : EnvelopeVerifier Key) (authorization : SignedExecutionAuthorization)
  | gateway (g : ExecutionGateway Key) (request : ExecutionRequest)

namespace Verification

/-- The authorization that is verified. -/
def authorization : Verification Key → SignedExecutionAuthorization
  | .envelope _ authorization => authorization
  | .gateway _ request => request.authorization

/-- Its nonce. -/
def nonce (verification : Verification Key) : JsString := verification.authorization.payload.nonce

/-- `verify`, called without a time, and whether its result is valid. -/
def program (dateParse : JsString → Option Int) (sha256 : List UInt8 → JsString) :
    Verification Key → GatewayProgram Key Bool
  | .envelope verifier authorization => do
    let now ← ask .now
    let result ← verifier.verify dateParse authorization now
    return result.valid
  | .gateway g request => do
    let now ← ask .now
    let (result, _) ← g.verify dateParse sha256 request now
    return result.valid

end Verification

/-- What verifications share: the store, the clock, and, for the record, what has been
presented to the store. -/
structure Shared where
  store : MemoryNonceStore
  clock : Int
  presented : List (JsString × JsString)

/-- One call is answered.  Time may have passed since the last one; the store answers
as it does, and the other collaborators as they like. -/
inductive Serves (dateParse : JsString → Option Int) : Shared → GatewayEvent Key → Shared → Prop where
  | now {w time} (h : w.clock ≤ time) :
      Serves dateParse w ⟨.now, .ok time⟩ { w with clock := time }
  | checkAndRecord {w time nonce expiresAt} (h : w.clock ≤ time) :
      Serves dateParse w
        ⟨.checkAndRecord nonce expiresAt,
          .ok (w.store.checkAndRecord dateParse nonce expiresAt time).1⟩
        ⟨(w.store.checkAndRecord dateParse nonce expiresAt time).2, time,
          w.presented ++ [(nonce, expiresAt)]⟩
  | other {w time call answer} (h : w.clock ≤ time) (hnow : call ≠ .now)
      (hnonce : call.usesNonce = false) :
      Serves dateParse w ⟨call, answer⟩ { w with clock := time }

/-- The call presents no nonce at or after an expiry it was presented with before. -/
def Prompt (dateParse : JsString → Option Int) (w : Shared) (e : GatewayEvent Key) (w' : Shared) :
    Prop :=
  ∀ nonce expiresAt, e.1 = .checkAndRecord nonce expiresAt →
    ∀ earlier expiry, (nonce, earlier) ∈ w.presented → dateParse earlier = some expiry →
      w'.clock < expiry

/-- No two verifications have accepted one nonce. -/
def AcceptedOnce {ι : Type} (verification : ι → Verification Key)
    (threads : ι → GatewayProgram Key Bool) : Prop :=
  ∀ i j, threads i = .done (.ok true) → threads j = .done (.ok true) →
    (verification i).nonce = (verification j).nonce → i = j

/-! ## At most once -/

/-- The nonce an event found new. -/
def acceptedBy : GatewayEvent Key → Option JsString
  | ⟨.checkAndRecord nonce _, .ok true⟩ => some nonce
  | _ => none

section Once
variable {ι : Type} [DecidableEq ι] {dateParse : JsString → Option Int}
  {sha256 : List UInt8 → JsString}

/-- The nonces found new, in order, with the verification that presented each. -/
def acceptances (log : List (ι × GatewayEvent Key)) : List (JsString × ι) :=
  log.filterMap fun x => (acceptedBy x.2).map fun nonce => (nonce, x.1)

omit [DecidableEq ι] in
theorem mem_acceptances {log : List (ι × GatewayEvent Key)} {nonce : JsString} {i : ι} :
    (nonce, i) ∈ acceptances log ↔ ∃ e, (i, e) ∈ log ∧ acceptedBy e = some nonce := by
  unfold acceptances
  rw [List.mem_filterMap]
  constructor
  · rintro ⟨⟨j, e⟩, hmem, he⟩
    obtain ⟨n, hn, heq⟩ := Option.map_eq_some_iff.mp he
    cases heq
    exact ⟨e, hmem, hn⟩
  · rintro ⟨e, hmem, he⟩
    exact ⟨(i, e), hmem, by rw [he]; rfl⟩

theorem expired_mono {now later : Int} (h : now ≤ later) {entry : JsString × Option Int}
    (hexpired : MemoryNonceStore.expired now entry = true) :
    MemoryNonceStore.expired later entry = true := by
  unfold MemoryNonceStore.expired at hexpired ⊢
  rw [Option.any_eq_true] at hexpired ⊢
  obtain ⟨expiry, hexpiry, hle⟩ := hexpired
  exact ⟨expiry, hexpiry, decide_eq_true (le_trans (of_decide_eq_true hle) h)⟩

/-- An accepted nonce has been presented with an expiry under which it is in the
store or has expired. -/
def Kept (dateParse : JsString → Option Int) (w : Shared) (nonce : JsString) : Prop :=
  ∃ expiresAt, (nonce, expiresAt) ∈ w.presented ∧
    ((nonce, dateParse expiresAt) ∈ w.store.seen ∨
      MemoryNonceStore.expired w.clock (nonce, dateParse expiresAt) = true)

theorem Kept.serves {w w' : Shared} {e : GatewayEvent Key} (hs : Serves dateParse w e w')
    {nonce : JsString} (h : Kept dateParse w nonce) : Kept dateParse w' nonce := by
  obtain ⟨expiresAt, hpresented, hkept⟩ := h
  cases hs with
  | now htime => exact ⟨expiresAt, hpresented, hkept.imp_right (expired_mono htime)⟩
  | other htime => exact ⟨expiresAt, hpresented, hkept.imp_right (expired_mono htime)⟩
  | checkAndRecord htime =>
    refine ⟨expiresAt, List.mem_append_left _ hpresented, ?_⟩
    rcases hkept with hseen | hexpired
    · exact MemoryNonceStore.mem_checkAndRecord hseen
    · exact Or.inr (expired_mono htime hexpired)

/-- A nonce found new is kept from then on. -/
theorem Kept.of_accepted {w w' : Shared} {e : GatewayEvent Key} (hs : Serves dateParse w e w')
    {nonce : JsString} (h : acceptedBy e = some nonce) : Kept dateParse w' nonce := by
  cases hs with
  | now => cases h
  | @other time call answer htime hnow hnonce =>
    unfold acceptedBy at h
    split at h
    · rename_i heq
      cases heq
      cases hnonce
    · cases h
  | @checkAndRecord time n expiresAt htime =>
    rw [MemoryNonceStore.checkAndRecord_fst] at h
    cases hhas : w.store.has n with
    | true =>
      rw [hhas] at h
      cases h
    | false =>
      rw [hhas] at h
      cases h
      exact ⟨expiresAt, List.mem_append_right _ (List.mem_singleton_self _),
        MemoryNonceStore.recorded_checkAndRecord hhas⟩

/-- **A nonce that is kept is not found new again by a prompt call.** -/
theorem not_accepted_of_kept {w w' : Shared} {e : GatewayEvent Key} (hs : Serves dateParse w e w')
    (hprompt : Prompt dateParse w e w') {nonce : JsString} (h : Kept dateParse w nonce) :
    acceptedBy e ≠ some nonce := by
  intro haccepted
  obtain ⟨earlier, hpresented, hkept⟩ := h
  cases hs with
  | now => cases haccepted
  | @other time call answer htime hnow hnonce =>
    unfold acceptedBy at haccepted
    split at haccepted
    · rename_i heq
      cases heq
      cases hnonce
    · cases haccepted
  | @checkAndRecord time n expiresAt htime =>
    rw [MemoryNonceStore.checkAndRecord_fst] at haccepted
    cases hhas : w.store.has n with
    | true =>
      rw [hhas] at haccepted
      cases haccepted
    | false =>
      rw [hhas] at haccepted
      cases haccepted
      rcases hkept with hseen | hexpired
      · exact absurd (List.mem_map_of_mem hseen) (of_decide_eq_false hhas)
      · unfold MemoryNonceStore.expired at hexpired
        rw [Option.any_eq_true] at hexpired
        obtain ⟨expiry, hexpiry, hle⟩ := hexpired
        have hlt : time < expiry := hprompt nonce expiresAt rfl earlier expiry hpresented hexpiry
        have hle' : expiry ≤ w.clock := of_decide_eq_true hle
        omega

/-- A call served by the store in time. -/
def ServesPromptly (dateParse : JsString → Option Int) (w : Shared) (e : GatewayEvent Key)
    (w' : Shared) : Prop :=
  Serves dateParse w e w' ∧ Prompt dateParse w e w'

/-- No nonce is found new twice, and each that was is kept. -/
theorem acceptances_nodup {α : ι → Type} {P Q : Pool (GatewayCall Key) GatewayCall.Answer Failure α Shared}
    {log : List (ι × GatewayEvent Key)} (h : Exec (ServesPromptly dateParse) P log Q) :
    ((acceptances log).map Prod.fst).Nodup ∧
      ∀ nonce ∈ (acceptances log).map Prod.fst, Kept dateParse Q.state nonce := by
  refine h.events_induction
    (I := fun log w => ((acceptances log).map Prod.fst).Nodup ∧
      ∀ nonce ∈ (acceptances log).map Prod.fst, Kept dateParse w nonce)
    ⟨List.nodup_nil, fun _ hn => absurd hn List.not_mem_nil⟩ ?_
  rintro log w i e w' ⟨hnodup, hkept⟩ ⟨hs, hprompt⟩
  have happend : (acceptances (log ++ [(i, e)])).map Prod.fst =
      (acceptances log).map Prod.fst ++ (acceptedBy e).toList := by
    unfold acceptances
    rw [List.filterMap_append, List.map_append]
    cases hused : acceptedBy e with
    | none => simp [hused]
    | some nonce => simp [hused]
  rw [happend]
  constructor
  · refine List.nodup_append.mpr ⟨hnodup, ?_, ?_⟩
    · cases acceptedBy e with
      | none => exact List.nodup_nil
      | some nonce => exact List.nodup_singleton _
    · intro a ha b hb
      rintro rfl
      exact not_accepted_of_kept hs hprompt (hkept a ha) (Option.mem_toList.mp hb)
  · intro nonce hn
    rcases List.mem_append.mp hn with hn | hn
    · exact (hkept nonce hn).serves hs
    · exact Kept.of_accepted hs (Option.mem_toList.mp hn)

/-- A verification that accepts has found its nonce new. -/
theorem accepted_of_runs {verification : Verification Key} {t : List (GatewayEvent Key)}
    (h : Runs (verification.program dateParse sha256) t (.ok true)) :
    ∃ e ∈ t, acceptedBy e = some verification.nonce := by
  have hnonce : ⟨nonceCall verification.authorization, .ok true⟩ ∈ t →
      ∃ e ∈ t, acceptedBy e = some verification.nonce := fun hmem => ⟨_, hmem, rfl⟩
  cases verification with
  | envelope v authorization =>
    rcases runs_bind.mp h with ⟨e, -, ⟨⟩⟩ | ⟨now, t₀, t', rfl, -, hrest⟩
    rcases runs_bind.mp hrest with ⟨e, -, ⟨⟩⟩ | ⟨result, t₁, t₂, rfl, hverify, hlast⟩
    obtain ⟨rfl, hvalid⟩ := runs_done.mp hlast
    refine hnonce (List.mem_append_right _ (List.mem_append_left _ ?_))
    unfold EnvelopeVerifier.verify at hverify
    rcases runs_bind.mp hverify with ⟨e, -, ⟨⟩⟩ | ⟨⟨passed, checks⟩, t₃, t₄, rfl, -, hverify⟩
    rcases runs_bind.mp hverify with ⟨e, -, ⟨⟩⟩ | ⟨unseen, t₅, t₆, rfl, hconsume, hresult⟩
    obtain ⟨rfl, hresult⟩ := runs_done.mp hresult
    cases hresult
    have hboth := (Bool.and_eq_true _ _).mp (Except.ok.inj hvalid).symm
    obtain ⟨rfl, rfl⟩ := hboth
    rw [runs_perform.mp hconsume]
    exact List.mem_append_right _ (List.mem_append_left _ (List.mem_singleton_self _))
  | gateway g request =>
    rcases runs_bind.mp h with ⟨e, -, ⟨⟩⟩ | ⟨now, t₀, t', rfl, -, hrest⟩
    rcases runs_bind.mp hrest with ⟨e, -, ⟨⟩⟩ | ⟨⟨result, content⟩, t₁, t₂, rfl, hverify, hlast⟩
    obtain ⟨rfl, hvalid⟩ := runs_done.mp hlast
    refine hnonce (List.mem_append_right _ (List.mem_append_left _ ?_))
    exact (verify_flags hverify).2.mp (Except.ok.inj hvalid).symm

/-- **Where no nonce is presented again after an expiry it was presented with, each
is accepted at most once**, however the verifications are interleaved, whatever the
other collaborators answer and whenever the store purges. -/
theorem prompt_accepted_once (dateParse : JsString → Option Int) (sha256 : List UInt8 → JsString)
    (verification : ι → Verification Key) (w : Shared) {log : List (ι × GatewayEvent Key)}
    {Q : Pool (GatewayCall Key) GatewayCall.Answer Failure (fun _ : ι => Bool) Shared}
    (h : Exec (ServesPromptly dateParse)
      ⟨fun i => (verification i).program dateParse sha256, w⟩ log Q) :
    AcceptedOnce verification Q.threads := by
  have hmem : ∀ i, Q.threads i = .done (.ok true) →
      ((verification i).nonce, i) ∈ acceptances log := by
    intro i hi
    have hsteps := h.steps_of_thread i
    rw [hi] at hsteps
    obtain ⟨e, he, haccepted⟩ := accepted_of_runs hsteps
    obtain ⟨⟨j, e'⟩, hfilter, rfl⟩ := List.mem_map.mp he
    obtain ⟨hlog, hj⟩ := List.mem_filter.mp hfilter
    obtain rfl : j = i := of_decide_eq_true hj
    exact mem_acceptances.mpr ⟨e', hlog, haccepted⟩
  intro i j hi hj hnonce
  have heq := List.inj_on_of_nodup_map (acceptances_nodup h).1 (hmem i hi) (hmem j hj) hnonce
  exact congrArg Prod.snd heq

end Once

/-! ## Accepted twice

One verification checks an authorization and is held up before it presents the
nonce.  A second verification of the same authorization is accepted; the authorization
expires; ten thousand others are accepted and the store purges the nonce.  Then the
first goes on and is accepted too. -/

namespace Replay

/-- `Date.parse`, on the three times of the run. -/
def dates (text : JsString) : Option Int :=
  if text = "1970-01-01T00:00:00.000Z" then some 0
  else if text = "1970-01-01T00:05:00.000Z" then some 300000
  else if text = "1970-01-01T00:10:00.000Z" then some 600000
  else none

/-- A nonce for each number. -/
def nonceOf (k : Nat) : JsString := ⟨List.replicate k 97⟩

/-- An authorization of five minutes. -/
def authorizationOf (k : Nat) (authorizedAt expiresAt : JsString) : SignedExecutionAuthorization where
  payload := {
    version := .json (.num (.ofNat 1))
    authorizationId := "authorization"
    nonce := nonceOf k
    decisionId := "decision"
    businessTransactionId := "transaction"
    policyName := "policy"
    policyVersion := "1"
    authorizedAt := authorizedAt
    expiresAt := expiresAt
    businessTransactionHash := "hash"
    policyContentHash := none
    signalsHash := none
    submittedBy := none
    grantedCapability := none }
  signature := "signature"
  keyId := "key"
  algorithm := "ed25519"

/-- The authorization of each verification: the first two have the same. -/
def authorizations : Nat → SignedExecutionAuthorization
  | 0 | 1 => authorizationOf 0 "1970-01-01T00:00:00.000Z" "1970-01-01T00:05:00.000Z"
  | k + 2 => authorizationOf (k + 1) "1970-01-01T00:05:00.000Z" "1970-01-01T00:10:00.000Z"

/-- A verifier with one key. -/
def verifier : EnvelopeVerifier Unit := ⟨(), false, false, DEFAULT_MAX_TTL_SECONDS⟩

/-- The verifications. -/
def verifications (i : Nat) : Verification Unit := .envelope verifier (authorizations i)

/-- They start over an empty store. -/
def start : Pool (GatewayCall Unit) GatewayCall.Answer Failure (fun _ : Nat => Bool) Shared where
  threads i := (verifications i).program dates fun _ => ""
  state := ⟨.empty, 0, []⟩

theorem nonceOf_injective : Function.Injective nonceOf := by
  intro j k h
  have hunits := congrArg (fun s => s.units.length) h
  simpa [nonceOf] using hunits

/-- The first two calls of a verification that passes its checks. -/
def checksOf (i : Nat) (time : Int) : List (GatewayEvent Unit) :=
  [⟨.now, .ok time⟩,
    ⟨.verifySignature (authorizations i).payload (authorizations i).signature (), .ok true⟩]

/-- The verification that has passed its checks. -/
def atNonce (i : Nat) : GatewayProgram Unit Bool :=
  .call (nonceCall (authorizations i)) fun answer => .done answer

theorem verifyChecks_eq {a : SignedExecutionAuthorization} {time : Int}
    (hversion : versionSupported a.payload = true)
    (hexpiry : Approval.notExpired dates time a.payload.expiresAt = true)
    (httl : ttlWithinPolicy DEFAULT_MAX_TTL_SECONDS (dates a.payload.expiresAt)
      (dates a.payload.authorizedAt) = true) :
    verifier.verifyChecks dates a time =
      .call (.verifySignature a.payload a.signature ()) fun answer => .done (answer.map fun signed =>
        ⟨signed, ⟨none, true, signed, true, true⟩⟩) := by
  have hverify : AuthorizationVerifier.verify dates a () time =
      .call (.verifySignature a.payload a.signature ()) fun answer =>
        .done (answer.map fun signed => ⟨true, signed, true⟩) := by
    unfold AuthorizationVerifier.verify
    rw [if_pos hversion, hexpiry]
    refine congrArg (Program.call _) (funext fun answer => ?_)
    cases answer <;> rfl
  have hchecks : ∀ signed, verifier.envelopeChecks dates a (some ()) ⟨true, signed, true⟩ =
      ⟨signed, ⟨none, true, signed, true, true⟩⟩ := by
    intro signed
    unfold EnvelopeVerifier.envelopeChecks
    have hmax : verifier.maxTtlSeconds = DEFAULT_MAX_TTL_SECONDS := rfl
    simp only [hmax, httl]
    cases signed <;> rfl
  unfold EnvelopeVerifier.verifyChecks
  change (AuthorizationVerifier.verify dates a () time >>= fun checks =>
    pure (verifier.envelopeChecks dates a (some ()) checks)) = _
  rw [hverify, call_bind]
  refine congrArg (Program.call _) (funext fun answer => ?_)
  cases answer with
  | error e => rfl
  | ok signed => exact congrArg (fun r => Program.done (.ok r)) (hchecks signed)

theorem checks_steps {i : Nat} {time : Int}
    (hexpiry : Approval.notExpired dates time (authorizations i).payload.expiresAt = true)
    (httl : ttlWithinPolicy DEFAULT_MAX_TTL_SECONDS (dates (authorizations i).payload.expiresAt)
      (dates (authorizations i).payload.authorizedAt) = true) :
    Steps (start.threads i) (checksOf i time) (atNonce i) := by
  have hversion : versionSupported (authorizations i).payload = true := by
    rcases i with _ | _ | i <;> rfl
  have hverify : verifier.verify dates (authorizations i) time =
      .call (.verifySignature (authorizations i).payload (authorizations i).signature ())
        fun answer => .done (answer.map fun signed =>
          EnvelopeChecksResult.mk signed ⟨none, true, signed, true, true⟩) >>= fun r =>
            EnvelopeVerifier.consumeIf r.passed (authorizations i) >>= fun unseen =>
              pure ⟨r.passed && unseen, r.checks, unseen⟩ := by
    unfold EnvelopeVerifier.verify
    rw [verifyChecks_eq hversion hexpiry httl]
    rfl
  have hprogram : start.threads i = .call .now fun answer =>
      .done answer >>= fun now : Int => verifier.verify dates (authorizations i) now >>= fun r =>
        pure r.valid := rfl
  rw [hprogram]
  refine Steps.call ?_
  rw [done_ok_bind, hverify]
  refine Steps.call ?_
  have hnonce : ∀ p : GatewayProgram Unit Bool, p = atNonce i → Steps p [] (atNonce i) := by
    rintro _ rfl
    exact .refl _
  refine hnonce _ (congrArg (Program.call (nonceCall (authorizations i))) (funext fun answer => ?_))
  cases answer <;> rfl

section Run
variable {log : List (Nat × GatewayEvent Unit)}
  {Q : Pool (GatewayCall Unit) GatewayCall.Answer Failure (fun _ : Nat => Bool) Shared}

/-- A verification can run up to its nonce. -/
theorem run_checks (i : Nat) (time : Int) (h : Exec (Serves dates) start log Q)
    (hi : Q.threads i = start.threads i) (htime : Q.state.clock ≤ time)
    (hexpiry : Approval.notExpired dates time (authorizations i).payload.expiresAt = true)
    (httl : ttlWithinPolicy DEFAULT_MAX_TTL_SECONDS (dates (authorizations i).payload.expiresAt)
      (dates (authorizations i).payload.authorizedAt) = true) :
    ∃ log', Exec (Serves dates) start log'
      (Q.advance i (atNonce i) { Q.state with clock := time }) := by
  have hsteps := checks_steps hexpiry httl
  rw [← hi] at hsteps
  exact ⟨_, h.advance_thread hsteps (.cons (.now htime)
    (.cons (.other le_rfl (fun hcall => nomatch hcall) rfl) (.nil _)))⟩

/-- There it can present it; a nonce the store does not have is accepted. -/
theorem run_nonce (i : Nat) (time : Int) (h : Exec (Serves dates) start log Q)
    (hi : Q.threads i = atNonce i) (htime : Q.state.clock ≤ time)
    (hhas : Q.state.store.has (authorizations i).payload.nonce = false) :
    ∃ log' w, Exec (Serves dates) start log' (Q.advance i (.done (.ok true)) w) ∧
      w.clock = time ∧ w.store.seen =
        (Q.state.store.checkAndRecord dates (authorizations i).payload.nonce
          (authorizations i).payload.expiresAt time).2.seen := by
  have hstep := h.step hi (.checkAndRecord htime)
  rw [MemoryNonceStore.checkAndRecord_fst, hhas] at hstep
  exact ⟨_, _, hstep, rfl, rfl⟩

end Run

/-- The entries of the first `k` of the others. -/
def crowd (k : Nat) : List (JsString × Option Int) :=
  (List.range k).map fun j => (nonceOf (j + 1), some 600000)

theorem crowd_succ (k : Nat) : crowd (k + 1) = crowd k ++ [(nonceOf (k + 1), some 600000)] := by
  unfold crowd
  rw [List.range_succ, List.map_append]
  rfl

theorem length_crowd (k : Nat) : (crowd k).length = k := by
  rw [crowd, List.length_map, List.length_range]

theorem filter_crowd (k : Nat) :
    (crowd k).filter (fun entry => !MemoryNonceStore.expired 300000 entry) = crowd k := by
  refine List.filter_eq_self.mpr fun entry hentry => ?_
  obtain ⟨j, -, rfl⟩ := List.mem_map.mp hentry
  rfl

theorem not_mem_crowd {k j : Nat} (h : k < j ∨ j = 0) : nonceOf j ∉ (crowd k).map Prod.fst := by
  unfold crowd
  rw [List.map_map]
  intro hmem
  obtain ⟨i, hi, heq⟩ := List.mem_map.mp hmem
  have hij := nonceOf_injective heq
  rw [List.mem_range] at hi
  omega

theorem has_of_seen {store : MemoryNonceStore} {nonce : JsString}
    {seen : List (JsString × Option Int)} (hseen : store.seen = seen)
    (h : nonce ∉ seen.map Prod.fst) : store.has nonce = false := by
  rw [← hseen] at h
  exact decide_eq_false h

theorem nonce_of_others (k : Nat) : (authorizations (k + 2)).payload.nonce = nonceOf (k + 1) := rfl

theorem expiry_of_others (k : Nat) :
    dates (authorizations (k + 2)).payload.expiresAt = some 600000 := rfl

/-- The others run one after the other, five minutes in. -/
theorem run_other (k : Nat) {log : List (Nat × GatewayEvent Unit)}
    {Q : Pool (GatewayCall Unit) GatewayCall.Answer Failure (fun _ : Nat => Bool) Shared}
    (h : Exec (Serves dates) start log Q) (hk : Q.threads (k + 2) = start.threads (k + 2))
    (hclock : Q.state.clock ≤ 300000)
    (hseen : Q.state.store.seen = (nonceOf 0, some 300000) :: crowd k) :
    ∃ log' w, Exec (Serves dates) start log' (Q.advance (k + 2) (.done (.ok true)) w) ∧
      w.clock = 300000 ∧ w.store.seen =
        if k + 2 > PURGE_THRESHOLD then crowd (k + 1)
        else (nonceOf 0, some 300000) :: crowd (k + 1) := by
  obtain ⟨log₁, h₁⟩ := run_checks (k + 2) 300000 h hk hclock (by rfl) (by rfl)
  have hhas : Q.state.store.has (nonceOf (k + 1)) = false := by
    refine has_of_seen hseen ?_
    rw [List.map_cons, List.mem_cons, not_or]
    refine ⟨fun heq => ?_, not_mem_crowd (Or.inl (Nat.lt_succ_self k))⟩
    exact absurd (nonceOf_injective heq) (Nat.succ_ne_zero k)
  obtain ⟨log₂, w, h₂, hw, hstore⟩ :=
    run_nonce (k + 2) 300000 h₁ (Pool.advance_self ..) le_rfl hhas
  have hidem : (Q.advance (k + 2) (atNonce (k + 2)) { Q.state with clock := 300000 }).advance (k + 2)
      (.done (.ok true)) w = Q.advance (k + 2) (.done (.ok true)) w := by
    unfold Pool.advance
    rw [Function.update_idem]
  rw [hidem] at h₂
  refine ⟨log₂, w, h₂, hw, ?_⟩
  rw [hstore, Pool.advance_state, nonce_of_others, MemoryNonceStore.seen_checkAndRecord hhas, hseen,
    expiry_of_others, List.length_cons, length_crowd, List.cons_append, ← crowd_succ]
  split
  · rw [List.filter_cons_of_neg, filter_crowd]
    decide
  · rfl

/-- While the store stays below its threshold, the first nonce stays in it. -/
theorem run_crowd : ∀ k, k < PURGE_THRESHOLD →
    ∃ (log : List (Nat × GatewayEvent Unit))
      (Q : Pool (GatewayCall Unit) GatewayCall.Answer Failure (fun _ : Nat => Bool) Shared),
      Exec (Serves dates) start log Q ∧ Q.threads 0 = atNonce 0 ∧
      Q.threads 1 = .done (.ok true) ∧ (∀ j, k + 2 ≤ j → Q.threads j = start.threads j) ∧
      Q.state.store.seen = (nonceOf 0, some 300000) :: crowd k ∧ Q.state.clock ≤ 300000
  | 0, _ => by
    obtain ⟨log₀, h₀⟩ := run_checks 0 0 (Exec.refl start) rfl le_rfl (by rfl) (by rfl)
    obtain ⟨log₁, h₁⟩ := run_checks 1 0 h₀ (Pool.advance_of_ne _ (by decide) _ _) le_rfl
      (by rfl) (by rfl)
    obtain ⟨log₂, w, h₂, hw, hstore⟩ := run_nonce 1 0 h₁ (Pool.advance_self ..) le_rfl rfl
    refine ⟨log₂, _, h₂, ?_, Pool.advance_self .., fun j hj => ?_, hstore, ?_⟩
    · rw [Pool.advance_of_ne _ (by decide), Pool.advance_of_ne _ (by decide), Pool.advance_self]
    · rw [Pool.advance_of_ne _ (by omega), Pool.advance_of_ne _ (by omega),
        Pool.advance_of_ne _ (by omega)]
    · rw [Pool.advance_state, hw]
      decide
  | k + 1, hk => by
    obtain ⟨log, Q, h, hzero, hone, hothers, hseen, hclock⟩ :=
      run_crowd k (Nat.lt_of_succ_lt hk)
    obtain ⟨log', w, h', hw, hstore⟩ := run_other k h (hothers _ le_rfl) hclock hseen
    rw [if_neg (by omega)] at hstore
    refine ⟨log', _, h', ?_, ?_, fun j hj => ?_, hstore, hw.le⟩
    · rw [Pool.advance_of_ne _ (by omega), hzero]
    · rw [Pool.advance_of_ne _ (by omega), hone]
    · rw [Pool.advance_of_ne _ (by omega), hothers j (by omega)]

end Replay

/-- **A nonce can be accepted twice**: the store purges it between the checks of a
verification and its use. -/
theorem nonce_accepted_twice : ∃ log Q, Exec (Serves Replay.dates) Replay.start log Q ∧
    ¬ AcceptedOnce Replay.verifications Q.threads := by
  obtain ⟨log, Q, h, hzero, hone, hothers, hseen, hclock⟩ :=
    Replay.run_crowd (PURGE_THRESHOLD - 1) (by decide)
  obtain ⟨log₁, w, h₁, hw, hstore⟩ := Replay.run_other _ h (hothers _ le_rfl) hclock hseen
  rw [if_pos (by decide)] at hstore
  have hhas : w.store.has (Replay.nonceOf 0) = false :=
    Replay.has_of_seen hstore (Replay.not_mem_crowd (Or.inr rfl))
  obtain ⟨log₂, w', h₂, -, -⟩ := Replay.run_nonce 0 300000 h₁
    ((Pool.advance_of_ne _ (by decide) _ _).trans hzero) hw.le hhas
  refine ⟨log₂, _, h₂, fun honce => ?_⟩
  have hsame := honce 0 1 (Pool.advance_self ..) ?_ rfl
  · cases hsame
  · rw [Pool.advance_of_ne _ (by decide), Pool.advance_of_ne _ (by decide), hone]

/-- A verification can run up to its nonce, promptly. -/
theorem Replay.prompt_checks (i : Nat) (time : Int) {log : List (Nat × GatewayEvent Unit)}
    {Q : Pool (GatewayCall Unit) GatewayCall.Answer Failure (fun _ : Nat => Bool) Shared}
    (h : Exec (ServesPromptly Replay.dates) Replay.start log Q)
    (hi : Q.threads i = Replay.start.threads i) (htime : Q.state.clock ≤ time)
    (hsteps : Steps (Replay.start.threads i) (Replay.checksOf i time) (Replay.atNonce i)) :
    ∃ log', Exec (ServesPromptly Replay.dates) Replay.start log'
      (Q.advance i (Replay.atNonce i) { Q.state with clock := time }) := by
  rw [← hi] at hsteps
  exact ⟨_, h.advance_thread hsteps (.cons ⟨.now htime, fun _ _ hcall => nomatch hcall⟩
    (.cons ⟨.other le_rfl (fun hcall => nomatch hcall) rfl, fun _ _ hcall => nomatch hcall⟩
      (.nil _)))⟩

/-- Two verifications of one authorization, a minute apart: the first is accepted, and the
second finds the nonce used. -/
theorem prompt_accepted_once_run : ∃ log Q,
    Exec (ServesPromptly Replay.dates) Replay.start log Q ∧ Q.threads 0 = .done (.ok true) ∧
      Q.threads 1 = .done (.ok false) ∧ AcceptedOnce Replay.verifications Q.threads := by
  obtain ⟨log₀, h₀⟩ := Replay.prompt_checks 0 0 (Exec.refl _) rfl le_rfl
    (Replay.checks_steps (by rfl) (by rfl))
  have h₁ := h₀.step (Pool.advance_self ..)
    ⟨.checkAndRecord le_rfl, fun _ _ _ _ _ hpresented => absurd hpresented List.not_mem_nil⟩
  obtain ⟨log₂, h₂⟩ := Replay.prompt_checks 1 60000 h₁
    ((Pool.advance_of_ne _ (by decide) _ _).trans (Pool.advance_of_ne _ (by decide) _ _))
    (by decide) (Replay.checks_steps (by rfl) (by rfl))
  have hprompt : ∀ earlier expiry,
      (Replay.nonceOf 0, earlier) ∈ [(Replay.nonceOf 0, ("1970-01-01T00:05:00.000Z" : JsString))] →
      Replay.dates earlier = some expiry → (60000 : Int) < expiry := by
    intro earlier expiry hpresented hdate
    cases List.mem_singleton.mp hpresented
    cases hdate
    decide
  have h₃ := h₂.step (Pool.advance_self ..) ⟨.checkAndRecord le_rfl, fun nonce _ hcall earlier
    expiry hpresented hdate => by
      cases hcall
      exact hprompt earlier expiry hpresented hdate⟩
  refine ⟨_, _, h₃, ?_, Pool.advance_self .., prompt_accepted_once _ _ _ _ h₃⟩
  rw [Pool.advance_of_ne _ (by decide), Pool.advance_of_ne _ (by decide), Pool.advance_self]
  rfl

end Parmana.Gateway

import Parmana.Crypto.CallerAuditChain
import Parmana.Interaction.Appends
import Parmana.Interaction.Concurrent
import Parmana.Js.Time
import Parmana.Js.WellFormed

/-! # The audit trail of callers in Postgres

`SupabaseCallerAuditSink.record` writes an event of a known caller in a transaction: it takes a
lock that is the caller's, reads the caller's last row, signs and hashes the event together with
the hash and the position it found there, inserts the row and commits.  An event without a caller
is signed and inserted as it is.  Any number of calls do so side by side, in any number of
processes; a lock is that of a hash of the caller, so that two callers may share one.

A text column holds the UTF-8 of a text, and `occurred_at` a time, so that not every event is read
back as it was signed (`columns`).

Here are the events, the rows, the statements with what the database answers, and the calls.
-/
namespace Parmana.Audit
open Js Crypto Interaction Interaction.Program

/-! ## Events -/

/-- The `type` of a `CallerAuditEvent`. -/
inductive CallerAuditEventType where
  | authenticated
  | rejected
  | capabilityGranted
  | capabilityDenied
  | principalDenied
  | nonHumanDenied
  | structuralRejected
  deriving DecidableEq

/-- The text of a type. -/
def CallerAuditEventType.text : CallerAuditEventType → JsString
  | .authenticated => "caller.authenticated"
  | .rejected => "caller.rejected"
  | .capabilityGranted => "caller.capability_granted"
  | .capabilityDenied => "caller.capability_denied"
  | .principalDenied => "caller.principal_denied"
  | .nonHumanDenied => "caller.non_human_denied"
  | .structuralRejected => "caller.structural_rejected"

/-- `CallerAuditEvent`. -/
structure CallerAuditEvent where
  type : CallerAuditEventType
  occurredAt : JsString
  route : JsString
  callerId : Option JsString
  reason : Option JsString
  businessTransactionId : Option JsString
  capability : Option JsString
  principalId : Option JsString
  /-- `"flagged"`, or absent -/
  severity : Option Unit
  deriving DecidableEq

namespace CallerAuditEvent
variable (event : CallerAuditEvent)

/-- The texts of an event that are kept in text columns. -/
def texts : List JsString :=
  event.route :: event.callerId.toList ++ event.reason.toList ++
    event.businessTransactionId.toList ++ event.capability.toList ++ event.principalId.toList

/-- The members an event has. -/
def members : DataFields :=
  ([("type", .str event.type.text), ("occurredAt", .str event.occurredAt),
    ("route", .str event.route)] : DataFields) ++
    spread "callerId" (event.callerId.map .str) ++
    spread "reason" (event.reason.map .str) ++
    spread "businessTransactionId" (event.businessTransactionId.map .str) ++
    spread "capability" (event.capability.map .str) ++
    spread "principalId" (event.principalId.map .str) ++
    spread "severity" (event.severity.map fun _ => .str "flagged")

theorem spread_names (k : JsString) (v : Option Data) :
    ((spread k v).map Prod.fst).Sublist [k] := by
  cases v with
  | none => exact List.nil_sublist _
  | some d => exact List.Sublist.refl _

theorem members_names : (event.members.map Prod.fst).Sublist
    ["type", "occurredAt", "route", "callerId", "reason", "businessTransactionId", "capability",
      "principalId", "severity"] := by
  unfold members
  simp only [List.map_append]
  exact ((((((List.Sublist.refl _).append (spread_names _ _)).append (spread_names _ _)).append
    (spread_names _ _)).append (spread_names _ _)).append (spread_names _ _)).append
      (spread_names _ _)

theorem members_text {p : JsString × Data} (h : p ∈ event.members) : ∃ text, p.2 = .str text := by
  have hspread : ∀ {k : JsString} {text : Option JsString}, p ∈ spread k (text.map .str) →
      ∃ text, p.2 = .str text := by
    rintro k (_ | text) hp
    · cases hp
    · rw [List.mem_singleton.mp hp]
      exact ⟨text, rfl⟩
  unfold members at h
  simp only [List.mem_append, List.mem_cons, List.not_mem_nil, or_false] at h
  rcases h with ((((((rfl | rfl | rfl) | h) | h) | h) | h) | h) | h
  · exact ⟨_, rfl⟩
  · exact ⟨_, rfl⟩
  · exact ⟨_, rfl⟩
  · exact hspread h
  · exact hspread h
  · exact hspread h
  · exact hspread h
  · exact hspread h
  · cases hseverity : event.severity with
    | none =>
      rw [hseverity] at h
      cases h
    | some _ =>
      rw [hseverity] at h
      rw [List.mem_singleton.mp h]
      exact ⟨_, rfl⟩

/-- An event as it is read back. -/
def toAuditEvent : AuditEvent where
  members := event.members
  distinct := by
    rw [Data.distinct, Bool.and_eq_true, decide_eq_true_eq, Data.distinctMembers_iff]
    refine ⟨event.members_names.nodup (by decide), fun p hp => ?_⟩
    obtain ⟨text, htext⟩ := event.members_text hp
    rw [htext]
    rfl
  shaped := rfl

end CallerAuditEvent

/-! ## Rows and statements -/

/-- A row of `caller_audit_events`; the columns of the event are its fields. -/
structure CallerAuditEventRow where
  event : CallerAuditEvent
  signature : Signature
  chainHash : Option JsString
  previousChainHash : Option JsString
  chainPosition : Option JsNumber

/-- A row as the verifier reads it back. -/
def CallerAuditEventRow.readBack (row : CallerAuditEventRow) : ChainedCallerAuditEventRow :=
  ⟨row.event.toAuditEvent, row.signature, row.chainHash, row.previousChainHash, row.chainPosition⟩

/-- `LastChainLinkRow`. -/
structure LastChainLinkRow where
  chainHash : Option JsString
  chainPosition : Option JsNumber

/-- The columns `LAST_CALLER_CHAIN_LINK_SQL` selects. -/
def CallerAuditEventRow.lastLink (row : CallerAuditEventRow) : LastChainLinkRow :=
  ⟨row.chainHash, row.chainPosition⟩

/-- The table, with a client for each call and the advisory locks. -/
abbrev CallerAuditEvents (ι : Type) := LockedTable Int CallerAuditEventRow ι

/-- A step of a call.  The client it gets from the pool is its own until it is given back, so it
is named after the call. -/
inductive AuditCall (ι : Type) where
  /-- `pool.connect()` -/
  | connect (client : ι)
  /-- `BEGIN` -/
  | begin (client : ι)
  /-- `SELECT pg_advisory_xact_lock(hashtext($1))` -/
  | lock (client : ι) (callerId : JsString)
  /-- `LAST_CALLER_CHAIN_LINK_SQL` -/
  | lastLink (client : ι) (callerId : JsString)
  /-- `this.crypto.sign` -/
  | sign (content : Data)
  /-- `INSERT_CALLER_AUDIT_EVENT_SQL`, in the transaction -/
  | insertRow (client : ι) (row : CallerAuditEventRow)
  /-- `COMMIT` -/
  | commit (client : ι)
  /-- `ROLLBACK` -/
  | rollback (client : ι)
  /-- `INSERT_CALLER_AUDIT_EVENT_SQL` on the pool, outside a transaction -/
  | insertAlone (row : CallerAuditEventRow)

/-- The client a step is taken on. -/
def AuditCall.client {ι : Type} : AuditCall ι → Option ι
  | .connect client | .begin client | .lock client _ | .lastLink client _ | .insertRow client _
  | .commit client | .rollback client => some client
  | .sign _ | .insertAlone _ => none

/-- What a step answers. -/
abbrev AuditCall.Answer {ι : Type} : AuditCall ι → Type
  | .lastLink .. => Option LastChainLinkRow
  | .sign _ => Signature
  | _ => Unit

/-- A step, with its answer. -/
abbrev AuditStep (ι : Type) := Event (AuditCall ι) AuditCall.Answer JsString

/-- A program over these, which throws a message. -/
abbrev AuditProgram (ι : Type) := Program (AuditCall ι) AuditCall.Answer JsString

/-! ## The sink -/

/-- The position after one that was read, as a text, and is `null` where there is none. -/
def nextPosition : Option JsNumber → JsNumber
  | some chainPosition => chainPosition.add (.ofNat 1)
  | none => .ofNat 1

/-- `SupabaseCallerAuditSink`, with the signing stack and the digest it has, and Postgres'
`hashtext` and what its `TIMESTAMPTZ` columns give back of a text, if it is a time. -/
structure SupabaseCallerAuditSink (Key : Type) extends CallerAuditChainVerifier Key where
  hashtext : JsString → Int
  timestamptz : JsString → Option JsString

namespace SupabaseCallerAuditSink
variable {Key ι : Type} (self : SupabaseCallerAuditSink Key) (client : ι)

/-- Runs a step. -/
abbrev run (call : AuditCall ι) : AuditProgram ι call.Answer := perform call

/-- What `record` does in its transaction when it has found the end of the chain. -/
def recordNext (event : CallerAuditEvent) (previousChainHash : Option JsString)
    (chainPosition : JsNumber) : AuditProgram ι Unit := do
  let content := chainedContent event.members previousChainHash chainPosition
  let signature ← run (.sign content)
  let chainHash ← Program.done (TrustRecordHasher.hash self.sha256 content)
  run (.insertRow client
    ⟨event, signature, some chainHash, previousChainHash, some chainPosition⟩)
  run (.commit client)

/-- What `record` does in its transaction. -/
def recordChained (event : CallerAuditEvent) (callerId : JsString) : AuditProgram ι Unit := do
  run (.begin client)
  run (.lock client callerId)
  let row ← run (.lastLink client callerId)
  self.recordNext client event (row.bind LastChainLinkRow.chainHash)
    (nextPosition (row.bind LastChainLinkRow.chainPosition))

/-- `record`. -/
def record (event : CallerAuditEvent) : AuditProgram ι Unit :=
  match event.callerId with
  | none => do
    let signature ← run (.sign (.obj event.members))
    run (.insertAlone ⟨event, signature, none, none, none⟩)
  | some callerId => do
    run (.connect client)
    tryCatch (self.recordChained client event callerId) fun error => do
      tryCatch (run (.rollback client)) fun _ => return ()
      throw error

end SupabaseCallerAuditSink

/-! ## The database -/

/-- The rows of a caller, `ORDER BY id`. -/
def rowsOf (callerId : JsString) (rows : List (Nat × CallerAuditEventRow)) :
    List CallerAuditEventRow :=
  ((rows.filter fun row => row.2.event.callerId = some callerId).mergeSort
    fun a b => a.1 ≤ b.1).map Prod.snd

section Serves
variable {Key ι : Type} [DecidableEq ι] (sink : SupabaseCallerAuditSink Key)

/-- What the columns give back of an event.  A text is kept as UTF-8, and one with a NUL is
refused. -/
def SupabaseCallerAuditSink.columns (event : CallerAuditEvent) : Option CallerAuditEvent := do
  let occurredAt ← sink.timestamptz event.occurredAt
  if ∀ text ∈ event.texts, (0 : UInt16) ∉ text.units then
    some { event with
      occurredAt
      route := event.route.toWellFormed
      callerId := event.callerId.map JsString.toWellFormed
      reason := event.reason.map JsString.toWellFormed
      businessTransactionId := event.businessTransactionId.map JsString.toWellFormed
      capability := event.capability.map JsString.toWellFormed
      principalId := event.principalId.map JsString.toWellFormed }
  else none

/-- The columns give an event back as it is. -/
def SupabaseCallerAuditSink.Holds (event : CallerAuditEvent) : Prop :=
  sink.columns event = some event

variable {sink} in
/-- **The columns hold an event** whose texts have neither a NUL nor a lone surrogate and whose
time is given back as the same text, and no other. -/
theorem SupabaseCallerAuditSink.holds_iff {event : CallerAuditEvent} : sink.Holds event ↔
    sink.timestamptz event.occurredAt = some event.occurredAt ∧
      ∀ text ∈ event.texts, (0 : UInt16) ∉ text.units ∧ JsString.paired text.units = true := by
  have hmap : ∀ text : Option JsString, text.map JsString.toWellFormed = text ↔
      ∀ t ∈ text, JsString.paired t.units = true := by
    rintro (_ | text)
    · simp
    · simp [JsString.toWellFormed_eq_self_iff]
  unfold Holds columns
  cases htime : sink.timestamptz event.occurredAt with
  | none => simp
  | some occurredAt =>
    obtain ⟨type, time, route, callerId, reason, businessTransactionId, capability, principalId,
      severity⟩ := event
    simp only [Option.bind_eq_bind, Option.bind_some, Option.ite_none_right_eq_some,
      Option.some.injEq, CallerAuditEvent.mk.injEq, hmap, JsString.toWellFormed_eq_self_iff,
      CallerAuditEvent.texts, List.mem_append, List.mem_cons, Option.mem_toList, Option.mem_def,
      or_imp, forall_and, forall_eq, true_and, and_true]
    tauto

/-- A step as it arrives, with its answer; none where the database refuses it. -/
def sent : AuditStep ι → Option (AuditStep ι)
  | ⟨.lock client callerId, ans⟩ =>
    if (0 : UInt16) ∉ callerId.units then some ⟨.lock client callerId.toWellFormed, ans⟩ else none
  | ⟨.lastLink client callerId, ans⟩ =>
    if (0 : UInt16) ∉ callerId.units then some ⟨.lastLink client callerId.toWellFormed, ans⟩
    else none
  | ⟨.insertRow client row, ans⟩ =>
    (sink.columns row.event).map fun event => ⟨.insertRow client { row with event }, ans⟩
  | ⟨.insertAlone row, ans⟩ =>
    (sink.columns row.event).map fun event => ⟨.insertAlone { row with event }, ans⟩
  | e => some e

/-- What the database and the signer answer to a step that arrives.  A statement that fails
changes nothing, or the connection is lost and with it the transaction; a commit or a single
insertion that is answered with an error may have taken effect.  A lock is granted when no other
client has it. -/
def Answers (t : CallerAuditEvents ι) : AuditStep ι → CallerAuditEvents ι → Prop
  | ⟨.lock client callerId, .ok _⟩, t' =>
    t.Free client (sink.hashtext callerId) ∧ t' = t.lock client (sink.hashtext callerId)
  | ⟨.lastLink client callerId, .ok found⟩, t' =>
    found = (rowsOf callerId (t.rows ++ t.staged client)).getLast?.map
      CallerAuditEventRow.lastLink ∧ t' = t
  | ⟨.sign content, .ok signature⟩, t' =>
    (∃ keyId, sink.crypto.sign keyId content = .ok signature) ∧ t' = t
  | ⟨.insertRow client row, .ok _⟩, t' => t' = t.insert client row
  | ⟨.commit client, .ok _⟩, t' => t' = t.commit client
  | ⟨.commit client, .error _⟩, t' => t' = t.rollback client ∨ t' = t.commit client
  | ⟨.rollback client, _⟩, t' => t' = t.rollback client
  | ⟨.insertAlone row, .ok _⟩, t' => t' = t.add row
  | ⟨.insertAlone row, .error _⟩, t' => t' = t ∨ t' = t.add row
  | ⟨step, .error _⟩, t' => t' = t ∨ ∃ client, step.client = some client ∧ t' = t.rollback client
  | _, t' => t' = t

/-- What the database and the signer answer. -/
def Serves (t : CallerAuditEvents ι) (e : AuditStep ι) (t' : CallerAuditEvents ι) : Prop :=
  match sent sink e with
  | some arrived => Answers sink t arrived t'
  | none => (∃ error, e.2 = .error error) ∧
    (t' = t ∨ ∃ client, e.1.client = some client ∧ t' = t.rollback client)

/-- The calls for some events, each with a client of its own. -/
def recordPool (events : ι → CallerAuditEvent) (start : CallerAuditEvents ι) :
    Pool (AuditCall ι) AuditCall.Answer JsString (fun _ : ι => Unit) (CallerAuditEvents ι) :=
  ⟨fun i => sink.record i (events i), start⟩

end Serves
end Parmana.Audit

import Parmana.ExecutionControl.Service
import Parmana.Interaction.History

/-! # What the audit trail says of an execution

The trail is to say whether an action was carried out: one terminal event for each
execution of a connector, `execution.completed` when the executor returned a result
and `execution.rejected` otherwise.

The record of the success is made inside the `try` whose `catch` block records a
rejection, so an executor that returned is recorded as rejected whenever something
after its return fails: the revocation of the credential, the connector's record of
the success, or the service's.  `Trail` follows these ways through one execution of
a connector, and `audit_matches_iff` is the result, for every answer of the sink and
of everything else.
-/
namespace Parmana.ExecutionControl
open Js Interaction Interaction.Program

/-! ## Reading a run -/

/-- Whether an executor returned a result. -/
def executorReturned : ConnectorEvent → Bool
  | ⟨.execute .., .ok _⟩ => true
  | _ => false

/-- The event a call records, or tries to. -/
def auditEventOf : ConnectorEvent → Option ExecutionAuditEvent
  | ⟨.record event, _⟩ => some event
  | _ => none

/-- Whether a revocation, or the record of a success, fails. -/
def settlementFailed : ConnectorEvent → Bool
  | ⟨.revoke .., .error _⟩ => true
  | ⟨.record event, .error _⟩ => decide (event.type = .executionCompleted)
  | _ => false

/-- Whether an executor returned in a run. -/
def returned (t : List ConnectorEvent) : Bool := t.any executorReturned

/-- Whether the settlement of a run failed. -/
def unsettled (t : List ConnectorEvent) : Bool := t.any settlementFailed

/-- The events of a run, those included whose record failed. -/
def trail (t : List ConnectorEvent) : List ExecutionAuditEvent := t.filterMap auditEventOf

/-- Their types. -/
def types (t : List ConnectorEvent) : List ExecutionAuditEventType :=
  (trail t).map ExecutionAuditEvent.type

/-- The types of the events that a connector records: they name the gateway. -/
def connectorTypes (t : List ConnectorEvent) : List ExecutionAuditEventType :=
  ((trail t).filter fun event => event.gatewayId.isSome).map ExecutionAuditEvent.type

/-- The terminal event that tells the truth about a run. -/
def outcome (t : List ConnectorEvent) : ExecutionAuditEventType :=
  if returned t then .executionCompleted else .executionRejected

section Append
variable (t t' : List ConnectorEvent)

@[simp] theorem returned_append : returned (t ++ t') = (returned t || returned t') :=
  List.any_append

@[simp] theorem unsettled_append : unsettled (t ++ t') = (unsettled t || unsettled t') :=
  List.any_append

@[simp] theorem trail_append : trail (t ++ t') = trail t ++ trail t' := List.filterMap_append ..

@[simp] theorem types_append : types (t ++ t') = types t ++ types t' := by
  rw [types, trail_append, List.map_append, types, types]

@[simp] theorem connectorTypes_append :
    connectorTypes (t ++ t') = connectorTypes t ++ connectorTypes t' := by
  rw [connectorTypes, trail_append, List.filter_append, List.map_append, connectorTypes,
    connectorTypes]

end Append

/-- A call that neither executes, nor records, nor revokes. -/
def ConnectorCall.Silent : ConnectorCall → Prop
  | .execute .. | .record _ | .revoke .. => False
  | _ => True

theorem silent_reads {t : List ConnectorEvent} (h : ∀ e ∈ t, e.1.Silent) :
    returned t = false ∧ unsettled t = false ∧ trail t = [] := by
  refine ⟨?_, ?_, ?_⟩
  · refine List.any_eq_false.mpr fun ⟨op, ans⟩ he => ?_
    have hop := h _ he
    cases op with
    | execute => exact hop.elim
    | record => exact hop.elim
    | revoke => exact hop.elim
    | _ => exact Bool.false_ne_true
  · refine List.any_eq_false.mpr fun ⟨op, ans⟩ he => ?_
    have hop := h _ he
    cases op with
    | execute => exact hop.elim
    | record => exact hop.elim
    | revoke => exact hop.elim
    | _ => exact Bool.false_ne_true
  · refine List.filterMap_eq_nil_iff.mpr fun ⟨op, ans⟩ he => ?_
    have hop := h _ he
    cases op with
    | execute => exact hop.elim
    | record => exact hop.elim
    | revoke => exact hop.elim
    | _ => exact rfl

/-! ## `try` and its two companions -/

section Try
variable {α : Type} {t : List ConnectorEvent} {r : Except Failure α}

/-- What is thrown once the rejection has been recorded. -/
def thrownAfter (error : Failure) : Except Failure Unit → Failure
  | .ok _ => error
  | .error error' => error'

theorem runs_recording {rejected : Failure → ExecutionAuditEvent} {body : ConnectorProgram α}
    (h : Runs (recording rejected body) t r) :
    (∃ a, Runs body t (.ok a) ∧ r = .ok a) ∨
      ∃ error t' ans, t = t' ++ [⟨.record (rejected error), ans⟩] ∧ Runs body t' (.error error) ∧
        r = .error (thrownAfter error ans) := by
  rcases runs_tryCatch.mp h with hok | ⟨error, t₁, t₂, rfl, hbody, hrest⟩
  · exact .inl hok
  · refine .inr ⟨error, t₁, ?_⟩
    rcases runs_bind.mp hrest with ⟨e, hrecord, rfl⟩ | ⟨_, u, v, rfl, hrecord, hthrow⟩
    · exact ⟨.error e, by rw [runs_perform.mp hrecord], hbody, rfl⟩
    · obtain ⟨rfl, rfl⟩ := runs_done.mp hthrow
      exact ⟨.ok (), by rw [runs_perform.mp hrecord, List.append_nil], hbody, rfl⟩

/-- What `finally` makes of the two results. -/
def settle (result : Except Failure α) : Except Failure Unit → Except Failure α
  | .ok _ => result
  | .error error => .error error

theorem runs_finallyDo {body : ConnectorProgram α} {cleanup : ConnectorProgram Unit}
    (h : Runs (finallyDo body cleanup) t r) :
    ∃ t₁ t₂ result done, t = t₁ ++ t₂ ∧ Runs body t₁ result ∧ Runs cleanup t₂ done ∧
      r = settle result done := by
  rcases runs_bind.mp h with ⟨e, htry, rfl⟩ | ⟨a, t₁, t₂, rfl, htry, hrest⟩
  · rcases runs_tryCatch.mp htry with ⟨a, -, ha⟩ | ⟨error, t₁, t₂, rfl, hbody, hrest⟩
    · cases ha
    · rcases runs_bind.mp hrest with ⟨e', hcleanup, he⟩ | ⟨_, u, v, rfl, hcleanup, hthrow⟩
      · cases he
        exact ⟨t₁, t₂, .error error, .error e, rfl, hbody, hcleanup, rfl⟩
      · obtain ⟨rfl, he⟩ := runs_done.mp hthrow
        cases he
        rw [List.append_nil]
        exact ⟨t₁, u, .error e, .ok (), rfl, hbody, hcleanup, rfl⟩
  · rcases runs_tryCatch.mp htry with ⟨b, hbody, hb⟩ | ⟨error, u, v, rfl, hbody, hthrow⟩
    · cases hb
      rcases runs_bind.mp hrest with ⟨e', hcleanup, rfl⟩ | ⟨_, u, v, rfl, hcleanup, hreturn⟩
      · exact ⟨t₁, t₂, .ok a, .error e', rfl, hbody, hcleanup, rfl⟩
      · obtain ⟨rfl, rfl⟩ := runs_done.mp hreturn
        rw [List.append_nil]
        exact ⟨t₁, u, .ok a, .ok (), rfl, hbody, hcleanup, rfl⟩
    · rcases runs_bind.mp hthrow with ⟨e', -, he⟩ | ⟨_, x, y, rfl, -, hthrow⟩
      · cases he
      · cases (runs_done.mp hthrow).2

end Try

theorem require_only {S : ConnectorCall → Prop} (passed : Bool) (message : JsString) :
    (require passed message).Only S := by
  unfold require
  split
  · trivial
  · trivial

/-- The calls that are made until a session is used up. -/
def ConnectorCall.Checks : ConnectorCall → Prop
  | .now | .authenticateGateway .. | .authenticateConnector _ | .resolveCapability _
  | .createSession .. | .consumeSession .. => True
  | _ => False

theorem Checks.silent {call : ConnectorCall} (h : call.Checks) : call.Silent := by
  cases call <;> trivial

/-! ## One execution of a connector -/

section Connector
variable {connector : SecureConnector} {request : GatewayExecutionRequest}
  {t : List ConnectorEvent}

theorem assertAllowed_checks : (connector.assertAllowed request).Only ConnectorCall.Checks := by
  unfold SecureConnector.assertAllowed
  refine Only.bind (only_perform.mpr trivial) fun _ => Only.bind (require_only _ _) fun _ => ?_
  refine Only.bind (only_perform.mpr trivial) fun _ => Only.bind (require_only _ _) fun _ => ?_
  refine Only.bind (require_only _ _) fun _ => Only.bind (require_only _ _) fun _ => ?_
  refine Only.bind (require_only _ _) fun _ => Only.bind (only_perform.mpr trivial) fun _ => ?_
  exact Only.bind (only_perform.mpr trivial) fun _ => require_only _ _

theorem lease_silent : (connector.leaseCredential request).Only ConnectorCall.Silent := by
  unfold SecureConnector.leaseCredential SessionCredentialVault.issue
  refine Only.bind (assertAllowed_checks.mono fun _ => Checks.silent) fun _ =>
    Only.bind ?_ fun _ => trivial
  refine Only.bind (only_perform.mpr trivial) fun _ => ?_
  exact Only.bind (only_perform.mpr trivial) fun _ => only_perform.mpr trivial

theorem consume_silent {vault : SessionCredentialVault} {id : JsString} :
    (vault.consume id).Only ConnectorCall.Silent := by
  unfold SessionCredentialVault.consume
  refine Only.bind (only_perform.mpr trivial) fun _ => ?_
  exact Only.bind (only_perform.mpr trivial) fun _ => only_perform.mpr trivial

/-- The inner `try` succeeds exactly when the executor returns. -/
theorem callExecutor_reads {id : JsString} {r : Except Failure Json}
    (h : Runs (connector.callExecutor request id) t r) :
    returned t = r.isOk ∧ unsettled t = false ∧ trail t = [] := by
  rcases runs_bind.mp h with ⟨e, hconsume, rfl⟩ | ⟨credential, t₁, t₂, rfl, hconsume, hexecute⟩
  · exact silent_reads (consume_silent.of_runs hconsume)
  · obtain ⟨hret, hset, htrail⟩ := silent_reads (consume_silent.of_runs hconsume)
    rw [runs_perform.mp hexecute, returned_append, unsettled_append, trail_append, hret, hset,
      htrail]
    cases r with
    | ok result => exact ⟨rfl, rfl, rfl⟩
    | error e => exact ⟨rfl, rfl, rfl⟩

/-- How an execution of a connector can go: its result, whether the executor
returned, whether the settlement failed, and the types recorded. -/
inductive Trail : Except Failure Json → Bool → Bool → List ExecutionAuditEventType → Prop where
  /-- The executor was not called, or threw. -/
  | rejected (error : Failure) (unsettled : Bool) :
    Trail (.error error) false unsettled [.executionRejected]
  | completed (result : Json) : Trail (.ok result) true false [.executionCompleted]
  /-- The executor returned and the credential could not be revoked. -/
  | notRevoked (error : Failure) : Trail (.error error) true true [.executionRejected]
  /-- The executor returned and its success could not be recorded. -/
  | notRecorded (error : Failure) :
    Trail (.error error) true true [.executionCompleted, .executionRejected]

/-- The execution with its credential records nothing. -/
theorem executeWith_reads {id : JsString} {r : Except Failure Json}
    (h : Runs (connector.executeWith request id) t r) :
    trail t = [] ∧ ((returned t = false ∧ ∃ e, r = .error e) ∨
      (returned t = true ∧ unsettled t = false ∧ ∃ result, r = .ok result) ∨
      (returned t = true ∧ unsettled t = true ∧ ∃ e, r = .error e)) := by
  obtain ⟨t₁, t₂, result, done, rfl, hbody, hcleanup, rfl⟩ := runs_finallyDo h
  obtain ⟨hret, hset, htrail⟩ := callExecutor_reads hbody
  have hrevoke := runs_perform.mp hcleanup
  rw [hrevoke, returned_append, unsettled_append, trail_append, hret, hset, htrail]
  refine ⟨rfl, ?_⟩
  rcases result with e | result
  · refine .inl ⟨rfl, ?_⟩
    rcases done with e' | _
    · exact ⟨e', rfl⟩
    · exact ⟨e, rfl⟩
  · rcases done with e' | _
    · exact .inr (.inr ⟨rfl, rfl, e', rfl⟩)
    · exact .inr (.inl ⟨rfl, rfl, result, rfl⟩)

theorem types_of_trail (h : trail t = []) : types t = [] := by
  rw [types, h, List.map_nil]

/-- What `runAndRecord` leaves when it ends. -/
def SettledAs (t : List ConnectorEvent) : Except Failure Json → Prop
  | .ok _ => returned t = true ∧ unsettled t = false ∧ types t = [.executionCompleted]
  | .error _ => (returned t = false ∧ types t = []) ∨
    (returned t = true ∧ unsettled t = true ∧ (types t = [] ∨ types t = [.executionCompleted]))

theorem runAndRecord_reads {id : JsString} {r : Except Failure Json}
    (h : Runs (connector.runAndRecord request id) t r) :
    SettledAs t r ∧ ∀ event ∈ trail t, event.gatewayId.isSome = true := by
  rcases runs_bind.mp h with ⟨e, hexecute, rfl⟩ | ⟨result, t₁, t₂, rfl, hexecute, hrest⟩
  · obtain ⟨htrail, hway⟩ := executeWith_reads hexecute
    constructor
    · rcases hway with ⟨hret, -⟩ | ⟨-, -, _, he⟩ | ⟨hret, hset, -⟩
      · exact .inl ⟨hret, types_of_trail htrail⟩
      · cases he
      · exact .inr ⟨hret, hset, .inl (types_of_trail htrail)⟩
    · rw [htrail]
      exact fun event hevent => absurd hevent List.not_mem_nil
  · obtain ⟨htrail, hway⟩ := executeWith_reads hexecute
    obtain ⟨hret, hset⟩ : returned t₁ = true ∧ unsettled t₁ = false := by
      rcases hway with ⟨-, _, he⟩ | ⟨hret, hset, -⟩ | ⟨-, -, _, he⟩
      · cases he
      · exact ⟨hret, hset⟩
      · cases he
    have hnamed : ∀ (ans : Except Failure Unit) event,
        event ∈ trail [⟨.record (connector.completedEvent request id), ans⟩] →
          event.gatewayId.isSome = true := by
      intro ans event hevent
      rw [List.mem_singleton.mp hevent]
      rfl
    rcases runs_bind.mp hrest with ⟨e, hrecord, rfl⟩ | ⟨_, u, v, rfl, hrecord, hreturn⟩
    · rw [runs_perform.mp hrecord, trail_append, htrail]
      refine ⟨.inr ⟨?_, ?_, .inr ?_⟩, hnamed (.error e)⟩
      · rw [returned_append, hret, Bool.true_or]
      · rw [unsettled_append, hset]
        rfl
      · rw [types_append, types_of_trail htrail]
        rfl
    · obtain ⟨rfl, rfl⟩ := runs_done.mp hreturn
      rw [runs_perform.mp hrecord, List.append_nil, trail_append, htrail]
      refine ⟨⟨?_, ?_, ?_⟩, hnamed (.ok ())⟩
      · rw [returned_append, hret, Bool.true_or]
      · rw [unsettled_append, hset]
        rfl
      · rw [types_append, types_of_trail htrail]
        rfl

/-- What a `recording` of the connector adds to a failed body. -/
theorem trail_rejected {t' : List ConnectorEvent} {id : Option JsString} {error error' : Failure}
    {ans : Except Failure Unit} (h : SettledAs t' (.error error))
    (hnamed : ∀ event ∈ trail t', event.gatewayId.isSome = true)
    (ht : t = t' ++ [⟨.record (connector.rejectedEvent request id error), ans⟩]) :
    Trail (.error error') (returned t) (unsettled t) (types t) ∧
      ∀ event ∈ trail t, event.gatewayId.isSome = true := by
  subst ht
  constructor
  · rw [returned_append, unsettled_append, types_append]
    rcases h with ⟨hret, htypes⟩ | ⟨hret, hset, htypes | htypes⟩
    · rw [hret, htypes]
      exact .rejected ..
    · rw [hret, hset, htypes]
      exact .notRevoked _
    · rw [hret, hset, htypes]
      exact .notRecorded _
  · rw [trail_append]
    intro event hevent
    rcases List.mem_append.mp hevent with hevent | hevent
    · exact hnamed event hevent
    · rw [List.mem_singleton.mp hevent]
      rfl

/-- **Every execution of a connector goes one of these ways**, and all it records
names the gateway. -/
theorem connector_trail {r : Except Failure Json} (h : Runs (connector.execute request) t r) :
    Trail r (returned t) (unsettled t) (types t) ∧
      ∀ event ∈ trail t, event.gatewayId.isSome = true := by
  rcases runs_bind.mp h with ⟨e, hadmit, rfl⟩ | ⟨id, t₁, t₂, rfl, hadmit, hrun⟩
  · rcases runs_recording hadmit with ⟨a, -, ha⟩ | ⟨error, t', ans, ht, hbody, -⟩
    · cases ha
    · obtain ⟨hret, -, htrail⟩ := silent_reads (lease_silent.of_runs hbody)
      refine trail_rejected (.inl ⟨hret, types_of_trail htrail⟩) ?_ ht
      rw [htrail]
      exact fun event hevent => absurd hevent List.not_mem_nil
  · rcases runs_recording hadmit with ⟨_, hbody, ha⟩ | ⟨_, _, _, -, -, he⟩
    · obtain ⟨hret₁, hset₁, htrail₁⟩ := silent_reads (lease_silent.of_runs hbody)
      rw [returned_append, unsettled_append, types_append, trail_append, types_of_trail htrail₁,
        hret₁, hset₁, htrail₁, Bool.false_or, Bool.false_or, List.nil_append, List.nil_append]
      rcases runs_recording hrun with ⟨result, hbody, rfl⟩ | ⟨error, t', ans, ht, hbody, rfl⟩
      · obtain ⟨⟨hret, hset, htypes⟩, hnamed⟩ := runAndRecord_reads hbody
        rw [hret, hset, htypes]
        exact ⟨.completed result, hnamed⟩
      · obtain ⟨hsettled, hnamed⟩ := runAndRecord_reads hbody
        exact trail_rejected hsettled hnamed ht
    · cases he

theorem connectorTypes_of_named (h : ∀ event ∈ trail t, event.gatewayId.isSome = true) :
    connectorTypes t = types t := by
  rw [connectorTypes, List.filter_eq_self.mpr h, types]

end Connector

/-! ## Executions -/

/-- An execution: of a connector alone, or of one behind the service. -/
inductive Execution where
  | direct (connector : SecureConnector) (request : GatewayExecutionRequest)
  | released (service : ExecutionControlService) (release : ExecutionRelease)
      (gatewayAuthentication : JsValue)

/-- Whether a call records that a session was created, and succeeds. -/
def sessionAnnounced : ConnectorEvent → Bool
  | ⟨.record event, .ok _⟩ => decide (event.type = .sessionCreated)
  | _ => false

namespace Execution

/-- What is run. -/
def program : Execution → ConnectorProgram Json
  | .direct connector request => connector.execute request
  | .released service release gatewayAuthentication =>
    service.execute release gatewayAuthentication

/-- Whether the connector's `execute` was called: the service calls it once the
session has been announced. -/
def connectorCalled : Execution → List ConnectorEvent → Bool
  | .direct .., _ => true
  | .released .., t => t.any sessionAnnounced

/-- **The audit trail tells the truth**: an execution whose executor returned is not
recorded as rejected, and a connector that was called records one terminal event,
the right one. -/
structure AuditMatches (execution : Execution) (t : List ConnectorEvent) : Prop where
  neverRejected : returned t = true → .executionRejected ∉ types t
  oneTerminal : execution.connectorCalled t = true → connectorTypes t = [outcome t]

end Execution

/-! ## The service around a connector -/

section Service
variable {service : ExecutionControlService} {release : ExecutionRelease}
  {gatewayAuthentication : JsValue} {t : List ConnectorEvent}

/-- What a run shows that ends before the connector is called. -/
structure Unopened (t : List ConnectorEvent) : Prop where
  returned : returned t = false
  unsettled : unsettled t = false
  connectorTypes : connectorTypes t = []
  neverRejected : .executionRejected ∉ types t

theorem Unopened.of_silent (h : ∀ e ∈ t, e.1.Silent) : Unopened t := by
  obtain ⟨hret, hset, htrail⟩ := silent_reads h
  refine ⟨hret, hset, ?_, ?_⟩
  · rw [ExecutionControl.connectorTypes, htrail]
    rfl
  · rw [types_of_trail htrail]
    exact List.not_mem_nil

theorem silent_announced (h : ∀ e ∈ t, e.1.Silent) : t.any sessionAnnounced = false := by
  refine List.any_eq_false.mpr fun ⟨op, ans⟩ he => ?_
  have hop := h _ he
  cases op with
  | execute => exact hop.elim
  | record => exact hop.elim
  | revoke => exact hop.elim
  | _ => exact Bool.false_ne_true

theorem createSession_checks :
    (service.createSession release gatewayAuthentication).Only ConnectorCall.Checks := by
  unfold ExecutionControlService.createSession
  refine Only.bind (only_perform.mpr trivial) fun _ => Only.bind (require_only _ _) fun _ => ?_
  refine Only.bind (only_perform.mpr trivial) fun _ => ?_
  refine Only.bind (only_perform.mpr trivial) fun _ => ?_
  exact Only.bind (only_perform.mpr trivial) fun _ => trivial

theorem Unopened.announce {t' : List ConnectorEvent} {connector : SecureConnector}
    {session : GatewaySession} {ans : Except Failure Unit} (h : Unopened t')
    (ht : t = t' ++
      [⟨.record (ExecutionControlService.auditEvent release .sessionCreated none connector session),
        ans⟩]) : Unopened t := by
  subst ht
  refine ⟨?_, ?_, ?_, ?_⟩
  · rw [returned_append, h.returned]
    rfl
  · rw [unsettled_append, h.unsettled]
    cases ans <;> rfl
  · rw [connectorTypes_append, h.connectorTypes]
    rfl
  · rw [types_append]
    intro hmem
    rcases List.mem_append.mp hmem with hmem | hmem
    · exact h.neverRejected hmem
    · cases List.mem_singleton.mp hmem

/-- Before the connector is called nothing terminal is recorded, and the session is
announced exactly when the connector will be called. -/
theorem openSession_reads {r : Except Failure (SecureConnector × GatewaySession)}
    (h : Runs (service.openSession release gatewayAuthentication) t r) :
    Unopened t ∧ t.any sessionAnnounced = r.isOk := by
  rcases runs_bind.mp h with ⟨e, hcreate, rfl⟩ | ⟨opened, t₁, t₂, rfl, hcreate, hrest⟩
  · have hsilent := (createSession_checks.mono fun _ => Checks.silent).of_runs hcreate
    exact ⟨.of_silent hsilent, silent_announced hsilent⟩
  · have hsilent := (createSession_checks.mono fun _ => Checks.silent).of_runs hcreate
    have hann := silent_announced hsilent
    rcases runs_bind.mp hrest with ⟨e, hrecord, rfl⟩ | ⟨_, u, v, rfl, hrecord, hreturn⟩
    · have ht := runs_perform.mp hrecord
      refine ⟨(Unopened.of_silent hsilent).announce (congrArg (t₁ ++ ·) ht), ?_⟩
      rw [ht, List.any_append, hann]
      rfl
    · obtain ⟨rfl, rfl⟩ := runs_done.mp hreturn
      have ht := runs_perform.mp hrecord
      rw [List.append_nil]
      refine ⟨(Unopened.of_silent hsilent).announce (congrArg (t₁ ++ ·) ht), ?_⟩
      rw [ht, List.any_append, hann]
      rfl

/-- What the service's `try` leaves when it ends. -/
def ServedAs (t : List ConnectorEvent) : Except Failure Json → Prop
  | .ok _ => returned t = true ∧ unsettled t = false ∧
    connectorTypes t = [.executionCompleted] ∧ .executionRejected ∉ types t
  | .error _ => (returned t = false ∧ connectorTypes t = [.executionRejected]) ∨
    (returned t = true ∧ unsettled t = true)

theorem executeAndRecord_reads {connector : SecureConnector} {session : GatewaySession}
    {r : Except Failure Json} (h : Runs (service.executeAndRecord release connector session) t r) :
    ServedAs t r := by
  rcases runs_bind.mp h with ⟨e, hexecute, rfl⟩ | ⟨result, t₁, t₂, rfl, hexecute, hrest⟩
  · obtain ⟨htrail, hnamed⟩ := connector_trail hexecute
    unfold ServedAs
    rw [connectorTypes_of_named hnamed]
    generalize returned t = ret, unsettled t = uns, types t = ts at htrail ⊢
    cases htrail with
    | rejected => exact .inl ⟨rfl, rfl⟩
    | notRevoked => exact .inr ⟨rfl, rfl⟩
    | notRecorded => exact .inr ⟨rfl, rfl⟩
  · obtain ⟨htrail, hnamed⟩ := connector_trail hexecute
    have htypes := connectorTypes_of_named hnamed
    generalize hret : returned t₁ = ret, hset : unsettled t₁ = uns, hts : types t₁ = ts at htrail
    cases htrail with
    | completed =>
      rw [hts] at htypes
      rcases runs_bind.mp hrest with ⟨e, hrecord, rfl⟩ | ⟨_, u, v, rfl, hrecord, hreturn⟩
      · refine .inr ⟨?_, ?_⟩
        · rw [returned_append, hret, Bool.true_or]
        · rw [runs_perform.mp hrecord, unsettled_append, hset]
          rfl
      · obtain ⟨rfl, rfl⟩ := runs_done.mp hreturn
        rw [runs_perform.mp hrecord, List.append_nil]
        refine ⟨?_, ?_, ?_, ?_⟩
        · rw [returned_append, hret, Bool.true_or]
        · rw [unsettled_append, hset]
          rfl
        · rw [connectorTypes_append, htypes]
          rfl
        · rw [types_append, hts]
          show ExecutionAuditEventType.executionRejected ∉ [.executionCompleted, .executionCompleted]
          decide

/-- The service's own rejection stays out of the connector's events and adds nothing to
what failed. -/
theorem rejection_reads (release : ExecutionRelease) (connector : SecureConnector)
    (session : GatewaySession) (error : Failure) (ans : Except Failure Unit) :
    returned [⟨.record (ExecutionControlService.rejectedEvent release connector session error),
      ans⟩] = false ∧
    unsettled [⟨.record (ExecutionControlService.rejectedEvent release connector session error),
      ans⟩] = false ∧
    connectorTypes [⟨.record (ExecutionControlService.rejectedEvent release connector session
      error), ans⟩] = [] := by
  cases ans <;> exact ⟨rfl, rfl, rfl⟩

end Service

section Matches
variable {execution : Execution} {t : List ConnectorEvent}

/-- Where no executor returned, a rejection is the truth. -/
theorem matches_of_not_returned (hret : returned t = false)
    (h : execution.connectorCalled t = true → connectorTypes t = [.executionRejected]) :
    execution.AuditMatches t ↔ ¬ (returned t = true ∧ unsettled t = true) := by
  rw [iff_true_right (by simp [hret])]
  refine ⟨fun h' => absurd (hret.symm.trans h') Bool.false_ne_true, fun hcalled => ?_⟩
  rw [h hcalled, outcome, hret]
  rfl

/-- Where one returned and all was settled, only its success is recorded. -/
theorem matches_of_settled (hret : returned t = true) (hset : unsettled t = false)
    (hnever : .executionRejected ∉ types t) (h : connectorTypes t = [.executionCompleted]) :
    execution.AuditMatches t ↔ ¬ (returned t = true ∧ unsettled t = true) := by
  rw [iff_true_right (by simp [hset])]
  refine ⟨fun _ => hnever, fun _ => ?_⟩
  rw [h, outcome, hret]
  rfl

/-- Where one returned and a rejection is recorded, something was not settled. -/
theorem matches_of_unsettled (hret : returned t = true) (hset : unsettled t = true)
    (hrejected : .executionRejected ∈ types t) :
    execution.AuditMatches t ↔ ¬ (returned t = true ∧ unsettled t = true) :=
  iff_of_false (fun h => h.neverRejected hret hrejected) (not_not_intro ⟨hret, hset⟩)

end Matches

/-- **An audit trail tells the truth exactly when no settlement fails after an executor
returned**, for every execution and every answer to each of its calls. -/
theorem audit_matches_iff {execution : Execution} {t : List ConnectorEvent}
    {r : Except Failure Json} (h : Runs execution.program t r) :
    execution.AuditMatches t ↔ ¬ (returned t = true ∧ unsettled t = true) := by
  cases execution with
  | direct connector request =>
    obtain ⟨htrail, hnamed⟩ := connector_trail h
    have hconnector := connectorTypes_of_named hnamed
    generalize hret : returned t = ret, hset : unsettled t = uns, htypes : types t = ts at htrail
    rw [htypes] at hconnector
    rw [← hret, ← hset]
    cases htrail with
    | rejected => exact matches_of_not_returned hret fun _ => hconnector
    | completed =>
      refine matches_of_settled hret hset ?_ hconnector
      rw [htypes]
      decide
    | notRevoked =>
      refine matches_of_unsettled hret hset ?_
      rw [htypes]
      decide
    | notRecorded =>
      refine matches_of_unsettled hret hset ?_
      rw [htypes]
      decide
  | released service release gatewayAuthentication =>
    rcases runs_bind.mp h with ⟨e, hopen, rfl⟩ | ⟨opened, t₁, t₂, rfl, hopen, hrest⟩
    · obtain ⟨hunopened, hann⟩ := openSession_reads hopen
      refine matches_of_not_returned hunopened.returned fun hcalled => ?_
      exact absurd (hann.symm.trans hcalled) Bool.false_ne_true
    · obtain ⟨hunopened, -⟩ := openSession_reads hopen
      have hret₁ : returned (t₁ ++ t₂) = returned t₂ := by
        rw [returned_append, hunopened.returned, Bool.false_or]
      have hset₁ : unsettled (t₁ ++ t₂) = unsettled t₂ := by
        rw [unsettled_append, hunopened.unsettled, Bool.false_or]
      have hconnector₁ : connectorTypes (t₁ ++ t₂) = connectorTypes t₂ := by
        rw [connectorTypes_append, hunopened.connectorTypes, List.nil_append]
      rcases runs_recording hrest with ⟨result, hbody, rfl⟩ | ⟨error, t', ans, rfl, hbody, rfl⟩
      · obtain ⟨hret, hset, hconnector, hnever⟩ := executeAndRecord_reads hbody
        refine matches_of_settled (hret₁.trans hret) (hset₁.trans hset) ?_
          (hconnector₁.trans hconnector)
        rw [types_append]
        exact fun hmem => (List.mem_append.mp hmem).elim hunopened.neverRejected hnever
      · obtain ⟨hret', hset', hconnector'⟩ := rejection_reads release opened.1 opened.2 error ans
        rw [returned_append t', hret', Bool.or_false] at hret₁
        rw [unsettled_append t', hset', Bool.or_false] at hset₁
        rw [connectorTypes_append t', hconnector', List.append_nil] at hconnector₁
        rcases executeAndRecord_reads hbody with ⟨hret, hconnector⟩ | ⟨hret, hset⟩
        · exact matches_of_not_returned (hret₁.trans hret) fun _ => hconnector₁.trans hconnector
        · refine matches_of_unsettled (hret₁.trans hret) (hset₁.trans hset) ?_
          rw [types_append, types_append]
          refine List.mem_append_right _ (List.mem_append_right _ ?_)
          exact List.mem_singleton_self _

/-! ## A sink that fails once -/

namespace Refund

/-- A session. -/
def session : GatewaySession where
  sessionId := "session-1"
  createdAt := "2026-01-01T00:00:00.000Z"
  expiresAt := "2026-01-01T00:00:30.000Z"
  authorizationId := "authorization-1"

/-- The identity of the gateway. -/
def gatewayIdentity : GatewayIdentity := ⟨"gateway-1", "gateway-key", []⟩

/-- A connector for refunds. -/
def connector : SecureConnector where
  identity := ⟨"connector-1", "connector-key", []⟩
  capabilities := ["refund"]
  gatewayAuthentication := .undefined
  sessionCredentials := ⟨0, .ofNat 60000, by decide⟩

/-- A release of one refund. -/
def release : ExecutionRelease where
  authorization :=
    { payload :=
        { version := .json (.num (.ofNat 1))
          authorizationId := "authorization-1"
          nonce := "nonce-1"
          decisionId := "decision-1"
          businessTransactionId := "transaction-1"
          policyName := "refunds"
          policyVersion := "1.0.0"
          authorizedAt := "2026-01-01T00:00:00.000Z"
          expiresAt := "2026-01-01T00:05:00.000Z"
          businessTransactionHash := "hash-1"
          policyContentHash := none
          signalsHash := none
          submittedBy := none
          grantedCapability := none }
      signature := "signature-1"
      keyId := "key-1"
      algorithm := "Ed25519" }
  executableContent := ⟨"transaction-1", "refund", "customer-1", []⟩
  verifiedTransaction := ⟨true, true, true⟩
  approvals := none

/-- The service. -/
def service : ExecutionControlService where
  gatewayIdentity := gatewayIdentity
  sessionIssuanceAuthentication := 1
  sessionLifetimeMs := .ofNat 30000
  positive := by decide

/-- Everything goes well, but for the first `failures` records of a success. -/
def answers : (call : ConnectorCall) → Nat → Except Failure call.Answer × Nat
  | .now, failures => (.ok 1767225600000, failures)
  | .authenticateGateway .., failures => (.ok true, failures)
  | .authenticateConnector _, failures => (.ok true, failures)
  | .resolveCapability _, failures => (.ok connector, failures)
  | .createSession .., failures => (.ok session, failures)
  | .consumeSession .., failures => (.ok true, failures)
  | .getCredential .., failures => (.ok .null, failures)
  | .issueSessionCredential .., failures =>
    (.ok ⟨"credential-1", "connector-1", "authorization-1", "2026-01-01T00:00:00.000Z",
      "2026-01-01T00:01:00.000Z"⟩, failures)
  | .consumeSessionCredential .., failures => (.ok "connector-1", failures)
  | .revoke .., failures => (.ok (), failures)
  | .execute .., failures => (.ok .null, failures)
  | .record event, failures =>
    if event.type = .executionCompleted ∧ 0 < failures then
      (.error (.error "audit store unavailable"), failures - 1)
    else (.ok (), failures)

/-- The execution of the release. -/
def execution : Execution := .released service release .undefined

/-- Its calls. -/
def run (failures : Nat) : List ConnectorEvent := execution.program.events answers failures

end Refund

/-- The executor returned, the connector recorded the success and failed to, and both
the connector and the service recorded a rejection. -/
theorem returned_and_rejected : ∃ t r, Runs Refund.execution.program t r ∧ returned t = true ∧
    types t = [.sessionCreated, .executionCompleted, .executionRejected, .executionRejected] ∧
    ¬ Refund.execution.AuditMatches t := by
  have hreturned : returned (Refund.run 1) = true := by decide
  have htypes : types (Refund.run 1) =
      [.sessionCreated, .executionCompleted, .executionRejected, .executionRejected] := by
    decide
  refine ⟨Refund.run 1, _, runs_events Refund.answers _ 1, hreturned, htypes, fun h => ?_⟩
  refine h.neverRejected hreturned ?_
  rw [htypes]
  decide

/-- With a sink that never fails, the trail of the same execution tells the truth. -/
theorem audit_matches_refund : Refund.execution.AuditMatches (Refund.run 0) :=
  (audit_matches_iff (runs_events Refund.answers Refund.execution.program 0)).mpr (by decide)

end Parmana.ExecutionControl

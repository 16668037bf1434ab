import Parmana.ExecutionControl.AuditTrail
import Parmana.ExecutionControl.Stores
import Parmana.Interaction.Concurrent

/-! # One execution for one session

Executions run side by side over one session store and any number of vaults, in any
interleaving, each alone or behind the service, each stopping where it stops.  Two
tokens are used up on the way to an executor: the session, by the policy, and the
lease on the credential, by the connector.

What ties them to the executor is a fact about one execution, whoever else runs: it
calls its executor at most once and only after the store has admitted its own request
(`execute_admitted`), and on every way out it has revoked the credential it was issued
(`execute_revokes`).  What ties them to each other is a fact about the stores, whoever
calls them: a session is admitted once, and then it agrees with the release it was
opened for (`SessionsKept`); a credential is consumed once, and stays revoked
(`CredentialsKept`).
-/
namespace Parmana.ExecutionControl
open Js Interaction Interaction.Program

/-! ## One execution and its executor -/

/-- The session an executor is called for. -/
def executedSession : ConnectorEvent → Option JsString
  | ⟨.execute _ request _, _⟩ => some request.gatewaySession.sessionId
  | _ => none

theorem executedSession_some {e : ConnectorEvent} {s : JsString} (h : executedSession e = some s) :
    ∃ connector request credential ans, e = ⟨.execute connector request credential, ans⟩ ∧
      request.gatewaySession.sessionId = s := by
  unfold executedSession at h
  split at h
  · exact ⟨_, _, _, _, rfl, Option.some.inj h⟩
  · cases h

/-- A call that neither executes nor consumes a credential. -/
def ConnectorCall.Plain : ConnectorCall → Prop
  | .execute .. | .consumeSessionCredential .. => False
  | _ => True

/-- No executor has been called. -/
def NotExecuted (t : List ConnectorEvent) : Prop := ∀ e ∈ t, executedSession e = none

/-- The store has admitted a request to a connector. -/
def Admitted (connector : SecureConnector) (request : GatewayExecutionRequest)
    (t : List ConnectorEvent) : Prop :=
  ∃ now, (⟨.consumeSession request connector.connectorId now, .ok true⟩ : ConnectorEvent) ∈ t

/-- The credential a call issues: its vault and its identifier. -/
def issuedCredential : ConnectorEvent → Option (ObjectRef × JsString)
  | ⟨.issueSessionCredential vault .., .ok credential⟩ =>
    some (vault.place, credential.sessionCredentialId)
  | _ => none

/-- A credential has been issued. -/
def Issued (vault : ObjectRef) (id : JsString) (t : List ConnectorEvent) : Prop :=
  ∃ e ∈ t, issuedCredential e = some (vault, id)

/-- What must have happened before a call: before that of an executor, an admission,
and no other such call; before a credential is consumed, its issue. -/
structure Earned (t : List ConnectorEvent) (call : ConnectorCall) : Prop where
  admitted : ∀ connector request credential, call = .execute connector request credential →
    Admitted connector request t ∧ NotExecuted t
  issued : ∀ vault id now, call = .consumeSessionCredential vault id now → Issued vault id t

section Earned
variable {α : Type} {p : ConnectorProgram α} {t : List ConnectorEvent}
  {connector : SecureConnector} {request : GatewayExecutionRequest}

theorem earned_of_plain {call : ConnectorCall} (h : call.Plain) : Earned t call := by
  constructor
  · rintro _ _ _ rfl
    exact h.elim
  · rintro _ _ _ rfl
    exact h.elim

theorem Checks.plain {call : ConnectorCall} (h : call.Checks) : call.Plain := by
  cases call <;> trivial

/-- A part that calls no executor leaves what has happened as it was. -/
theorem traced_plain (h : p.Only ConnectorCall.Plain) (ht : NotExecuted t) :
    Traced Earned p (fun _ t' => NotExecuted t' ∧ t ⊆ t') t := by
  have hkeep : p.Ensures history Earned (fun t' _ => NotExecuted t' ∧ t ⊆ t') t := by
    refine h.ensures (fun t' call hcall _ => earned_of_plain hcall) ?_ ⟨ht, List.Subset.refl t⟩
    rintro t' ⟨call, ans⟩ _ hcall ⟨hnot, hsub⟩ rfl
    refine ⟨fun e he => ?_, fun e he => List.mem_append_left _ (hsub he)⟩
    rcases List.mem_append.mp he with he | he
    · exact hnot e he
    · rw [List.mem_singleton.mp he]
      cases call with
      | execute => exact hcall.elim
      | _ => rfl
  exact hkeep.mono fun _ _ hpost _ _ => hpost

/-- A part that calls no executor may come after one. -/
theorem traced_after (h : p.Only ConnectorCall.Plain) : Traced Earned p (fun _ _ => True) t :=
  h.traced fun _ _ hcall => earned_of_plain hcall

theorem recording_traced {rejected : Failure → ExecutionAuditEvent}
    {R : α → List ConnectorEvent → Prop} (h : Traced Earned p R t) :
    Traced Earned (recording rejected p) R t := by
  refine h.tryCatch fun e t' => ?_
  exact Traced.bind (traced_after (only_perform.mpr trivial)) fun _ _ _ => Traced.throw

theorem Issued.mono {vault : ObjectRef} {id : JsString} {t' : List ConnectorEvent}
    (h : Issued vault id t) (hsub : t ⊆ t') : Issued vault id t' :=
  h.imp fun _ he => ⟨hsub he.1, he.2⟩

theorem Admitted.mono {t' : List ConnectorEvent} (h : Admitted connector request t)
    (hsub : t ⊆ t') : Admitted connector request t' :=
  h.imp fun _ hmem => hsub hmem

theorem require_traced {passed : Bool} {message : JsString}
    {R : Unit → List ConnectorEvent → Prop} (h : passed = true → R () t) :
    Traced Earned (require passed message) R t := by
  unfold require
  split
  · rename_i hpassed
    exact Traced.pure (h hpassed)
  · exact Traced.throw

/-- The policy lets through only what the store admits. -/
theorem assertAllowed_traced (ht : NotExecuted t) :
    Traced Earned (connector.assertAllowed request)
      (fun _ t' => NotExecuted t' ∧ Admitted connector request t') t := by
  unfold SecureConnector.assertAllowed
  have hrequire : ∀ {passed : Bool} {message : JsString},
      (require passed message).Only ConnectorCall.Plain :=
    fun {passed message} => require_only passed message
  refine Traced.bind (traced_plain (only_perform.mpr trivial) ht) fun _ _ h => ?_
  refine Traced.bind (traced_plain hrequire h.1) fun _ _ h => ?_
  refine Traced.bind (traced_plain (only_perform.mpr trivial) h.1) fun _ _ h => ?_
  refine Traced.bind (traced_plain hrequire h.1) fun _ _ h => ?_
  refine Traced.bind (traced_plain hrequire h.1) fun _ _ h => ?_
  refine Traced.bind (traced_plain hrequire h.1) fun _ _ h => ?_
  refine Traced.bind (traced_plain hrequire h.1) fun _ _ h => ?_
  refine Traced.bind (traced_plain (only_perform.mpr trivial) h.1) fun now t' h => ?_
  refine Traced.bind (R := fun passed t'' => NotExecuted t'' ∧
    (passed = true → Admitted connector request t'')) ?_ fun passed t'' h => ?_
  · refine Traced.perform (earned_of_plain trivial) fun passed => ⟨fun e he => ?_, ?_⟩
    · rcases List.mem_append.mp he with he | he
      · exact h.1 e he
      · rw [List.mem_singleton.mp he]
        rfl
    · rintro rfl
      exact ⟨now, List.mem_append_right _ (List.mem_singleton_self _)⟩
  · exact require_traced fun hpassed => ⟨h.1, h.2 hpassed⟩

/-- What the admission leaves when it succeeds. -/
def Leased (connector : SecureConnector) (request : GatewayExecutionRequest) (id : JsString)
    (t : List ConnectorEvent) : Prop :=
  NotExecuted t ∧ Admitted connector request t ∧ Issued connector.sessionCredentials.place id t

theorem NotExecuted.snoc {e : ConnectorEvent} (h : NotExecuted t) (he : executedSession e = none) :
    NotExecuted (t ++ [e]) := by
  intro e' hmem
  rcases List.mem_append.mp hmem with hmem | hmem
  · exact h e' hmem
  · rw [List.mem_singleton.mp hmem]
    exact he

theorem lease_traced (ht : NotExecuted t) :
    Traced Earned (connector.leaseCredential request) (Leased connector request) t := by
  unfold SecureConnector.leaseCredential SessionCredentialVault.issue
  refine Traced.bind (assertAllowed_traced ht) fun _ t₁ h => ?_
  refine Traced.bind (R := fun credential => Leased connector request
    credential.sessionCredentialId) ?_ fun _ _ h => Traced.pure h
  refine Traced.bind (traced_plain (only_perform.mpr trivial) h.1) fun _ t₂ h₂ => ?_
  refine Traced.bind (traced_plain (only_perform.mpr trivial) h₂.1) fun _ t₃ h₃ => ?_
  refine Traced.perform (earned_of_plain trivial) fun credential => ?_
  have hsub : t₁ ⊆ t₃ := List.Subset.trans h₂.2 h₃.2
  exact ⟨h₃.1.snoc rfl, h.2.mono (List.subset_append_of_subset_left _ hsub), _,
    List.mem_append_right _ (List.mem_singleton_self _), rfl⟩

theorem callExecutor_traced {id : JsString} (ht : Leased connector request id t) :
    Traced Earned (connector.callExecutor request id) (fun _ _ => True) t := by
  unfold SecureConnector.callExecutor SessionCredentialVault.consume
  refine Traced.bind (R := fun _ t' => NotExecuted t' ∧ Admitted connector request t') ?_
    fun _ t' h => ?_
  · refine Traced.bind (traced_plain (only_perform.mpr trivial) ht.1) fun _ t₁ h₁ => ?_
    refine Traced.bind (R := fun _ t' => NotExecuted t' ∧ t₁ ⊆ t') ?_ fun _ t₂ h₂ => ?_
    · refine Traced.perform ⟨?_, ?_⟩ fun _ => ⟨h₁.1.snoc rfl, List.subset_append_left _ _⟩
      · rintro _ _ _ ⟨⟩
      · rintro _ _ _ ⟨⟩
        exact ht.2.2.mono h₁.2
    · refine Traced.mono (traced_plain (only_perform.mpr trivial) h₂.1) fun _ t₃ h₃ => ?_
      exact ⟨h₃.1, ht.2.1.mono (List.Subset.trans (List.Subset.trans h₁.2 h₂.2) h₃.2)⟩
  · refine Traced.perform ⟨?_, ?_⟩ fun _ => trivial
    · rintro _ _ _ ⟨⟩
      exact ⟨h.2, h.1⟩
    · rintro _ _ _ ⟨⟩

theorem finallyDo_traced {cleanup : ConnectorProgram Unit}
    (h : Traced Earned p (fun _ _ => True) t) (hcleanup : cleanup.Only ConnectorCall.Plain) :
    Traced Earned (finallyDo p cleanup) (fun _ _ => True) t := by
  unfold finallyDo
  refine Traced.bind (h.tryCatch fun e t' => ?_) fun _ _ _ => ?_
  · exact Traced.bind (traced_after hcleanup) fun _ _ _ => Traced.throw
  · exact Traced.bind (traced_after hcleanup) fun _ _ _ => Traced.pure trivial

theorem connector_traced (ht : NotExecuted t) :
    Traced Earned (connector.execute request) (fun _ _ => True) t := by
  unfold SecureConnector.execute
  refine Traced.bind (recording_traced (lease_traced ht)) fun id t' h => recording_traced ?_
  unfold SecureConnector.runAndRecord SecureConnector.executeWith
  refine Traced.bind (finallyDo_traced (callExecutor_traced h) (only_perform.mpr trivial))
    fun _ _ _ => ?_
  exact Traced.bind (traced_after (only_perform.mpr trivial)) fun _ _ _ => Traced.pure trivial

theorem execution_traced (execution : Execution) :
    Traced Earned execution.program (fun _ _ => True) [] := by
  have hnil : NotExecuted [] := fun e he => absurd he List.not_mem_nil
  cases execution with
  | direct connector request => exact connector_traced hnil
  | released service release gatewayAuthentication =>
    have hopen : (service.openSession release gatewayAuthentication).Only ConnectorCall.Plain := by
      unfold ExecutionControlService.openSession
      refine Only.bind (createSession_checks.mono fun _ => Checks.plain) fun _ => ?_
      exact Only.bind (only_perform.mpr trivial) fun _ => trivial
    refine Traced.bind (traced_plain hopen hnil) fun _ _ h => recording_traced ?_
    refine Traced.bind (connector_traced h.1) fun _ _ _ => ?_
    exact Traced.bind (traced_after (only_perform.mpr trivial)) fun _ _ _ => Traced.pure trivial

/-- **An execution calls its executor at most once, and only after its request was
admitted.** -/
theorem execute_admitted {execution : Execution} {k : Except Failure Json → ConnectorProgram Json}
    {credential : Json}
    (h : Steps execution.program t (.call (.execute connector request credential) k)) :
    Admitted connector request t ∧ NotExecuted t :=
  (pre_of_steps (execution_traced execution) h).admitted connector request credential rfl

/-- **An execution consumes only a credential it was issued.** -/
theorem consume_issued {execution : Execution}
    {k : Except Failure JsString → ConnectorProgram Json} {vault : ObjectRef} {id : JsString}
    {now : Int} (h : Steps execution.program t (.call (.consumeSessionCredential vault id now) k)) :
    Issued vault id t :=
  (pre_of_steps (execution_traced execution) h).issued vault id now rfl

end Earned

/-! ## One execution and its credential -/

/-- The credential a call revokes. -/
def revokedCredential : ConnectorEvent → Option (ObjectRef × JsString)
  | ⟨.revoke vault id, _⟩ => some (vault, id)
  | _ => none

/-- Every credential that is issued is revoked later. -/
def RevokesIssued (t : List ConnectorEvent) : Prop :=
  ∀ u e v c, t = u ++ e :: v → issuedCredential e = some c → ∃ e' ∈ v, revokedCredential e' = some c

/-- No credential is issued. -/
def NoneIssued (t : List ConnectorEvent) : Prop := ∀ e ∈ t, issuedCredential e = none

section Revokes
variable {t t' : List ConnectorEvent} {connector : SecureConnector}
  {request : GatewayExecutionRequest}

theorem NoneIssued.revokes (h : NoneIssued t) : RevokesIssued t := by
  rintro u e v c rfl hissued
  rw [h e (List.mem_append_right _ List.mem_cons_self)] at hissued
  cases hissued

theorem NoneIssued.append (h : NoneIssued t) (h' : NoneIssued t') : NoneIssued (t ++ t') :=
  fun e he => (List.mem_append.mp he).elim (h e) (h' e)

theorem RevokesIssued.prepend (h : NoneIssued t) (h' : RevokesIssued t') :
    RevokesIssued (t ++ t') := by
  rintro u e v c heq hissued
  rcases List.append_eq_append_iff.mp heq with ⟨w, rfl, hw⟩ | ⟨w, rfl, hw⟩
  · exact h' w e v c hw hissued
  · cases w with
    | nil =>
      rw [List.nil_append] at hw
      exact h' [] e v c hw.symm hissued
    | cons e' w =>
      obtain ⟨rfl, -⟩ := List.cons.inj hw
      rw [h e (List.mem_append_right _ List.mem_cons_self)] at hissued
      cases hissued

theorem RevokesIssued.followed (h : RevokesIssued t) (h' : NoneIssued t') :
    RevokesIssued (t ++ t') := by
  rintro u e v c heq hissued
  rcases List.append_eq_append_iff.mp heq with ⟨w, rfl, hw⟩ | ⟨w, rfl, hw⟩
  · rw [h' e (by rw [hw]; exact List.mem_append_right _ List.mem_cons_self)] at hissued
    cases hissued
  · cases w with
    | nil =>
      rw [List.nil_append] at hw
      rw [h' e (by rw [← hw]; exact List.mem_cons_self)] at hissued
      cases hissued
    | cons e' w =>
      obtain ⟨rfl, rfl⟩ := List.cons.inj hw
      obtain ⟨e', he', hrevoked⟩ := h u e w c rfl hissued
      exact ⟨e', List.mem_append_left _ he', hrevoked⟩

/-- What is issued first and revoked last. -/
theorem RevokesIssued.bracket {e : ConnectorEvent} {vault : ObjectRef} {id : JsString}
    {ans : Except Failure Unit} (h : NoneIssued t) (he : issuedCredential e = some (vault, id)) :
    RevokesIssued (e :: (t ++ [⟨.revoke vault id, ans⟩])) := by
  rintro u e₁ v c heq hissued
  cases u with
  | nil =>
    obtain ⟨rfl, rfl⟩ := List.cons.inj heq
    refine ⟨_, List.mem_append_right _ (List.mem_singleton_self _), ?_⟩
    exact he.symm.trans hissued
  | cons _ u =>
    obtain ⟨-, htail⟩ := List.cons.inj heq
    have hnone := h.append (List.forall_mem_singleton.mpr
      (rfl : issuedCredential ⟨.revoke vault id, ans⟩ = none))
    rw [hnone e₁ (by rw [htail]; exact List.mem_append_right _ List.mem_cons_self)] at hissued
    cases hissued

/-- A call that issues no credential. -/
def ConnectorCall.Unissuing : ConnectorCall → Prop
  | .issueSessionCredential .. => False
  | _ => True

theorem NoneIssued.of_unissuing (h : ∀ e ∈ t, e.1.Unissuing) : NoneIssued t := by
  rintro ⟨call, ans⟩ he
  have hcall := h _ he
  cases call with
  | issueSessionCredential => exact hcall.elim
  | _ => rfl

theorem Checks.unissuing {call : ConnectorCall} (h : call.Checks) : call.Unissuing := by
  cases call <;> trivial

theorem noneIssued_single {e : ConnectorEvent} (h : issuedCredential e = none) :
    NoneIssued [e] := List.forall_mem_singleton.mpr h

/-- `issue` issues a credential last, or fails. -/
theorem issue_issues {vault : SessionCredentialVault} {connectorId authorizationId : JsString}
    {r : Except Failure SessionCredential}
    (h : Runs (vault.issue connectorId authorizationId) t r) :
    (NoneIssued t ∧ ∃ error, r = .error error) ∨
      ∃ t' e credential, t = t' ++ [e] ∧ NoneIssued t' ∧ r = .ok credential ∧
        issuedCredential e = some (vault.place, credential.sessionCredentialId) := by
  rcases runs_bind.mp h with ⟨error, hget, rfl⟩ | ⟨_, t₁, t₂, rfl, hget, hrest⟩
  · rw [runs_perform.mp hget]
    exact .inl ⟨noneIssued_single rfl, error, rfl⟩
  · rw [runs_perform.mp hget]
    rcases runs_bind.mp hrest with ⟨error, hnow, rfl⟩ | ⟨_, t₃, t₄, rfl, hnow, hissue⟩
    · rw [runs_perform.mp hnow]
      exact .inl ⟨(noneIssued_single rfl).append (noneIssued_single rfl), error, rfl⟩
    · rw [runs_perform.mp hnow, runs_perform.mp hissue]
      rcases r with error | credential
      · exact .inl ⟨(noneIssued_single rfl).append
          ((noneIssued_single rfl).append (noneIssued_single rfl)), error, rfl⟩
      · exact .inr ⟨_, _, credential, (List.append_assoc ..).symm,
          (noneIssued_single rfl).append (noneIssued_single rfl), rfl, rfl⟩

/-- The admission issues a credential last, or none. -/
theorem lease_issues {r : Except Failure JsString} (h : Runs (connector.leaseCredential request) t r) :
    (NoneIssued t ∧ ∃ error, r = .error error) ∨
      ∃ t' e id, t = t' ++ [e] ∧ NoneIssued t' ∧ r = .ok id ∧
        issuedCredential e = some (connector.sessionCredentials.place, id) := by
  have hchecks : (connector.assertAllowed request).Only ConnectorCall.Unissuing :=
    assertAllowed_checks.mono fun _ => Checks.unissuing
  rcases runs_bind.mp h with ⟨error, hallowed, rfl⟩ | ⟨_, t₁, t₂, rfl, hallowed, hrest⟩
  · exact .inl ⟨.of_unissuing (hchecks.of_runs hallowed), error, rfl⟩
  · have hnone : NoneIssued t₁ := .of_unissuing (hchecks.of_runs hallowed)
    rcases runs_bind.mp hrest with ⟨error, hissue, rfl⟩ | ⟨credential, u, v, rfl, hissue, hreturn⟩
    · rcases issue_issues hissue with ⟨hnone', -⟩ | ⟨_, _, _, -, -, he, -⟩
      · exact .inl ⟨hnone.append hnone', error, rfl⟩
      · cases he
    · obtain ⟨rfl, rfl⟩ := runs_done.mp hreturn
      rcases issue_issues hissue with ⟨-, _, he⟩ | ⟨t', e, _, rfl, hnone', hr, hissued⟩
      · cases he
      · cases hr
        refine .inr ⟨t₁ ++ t', e, _, ?_, hnone.append hnone', rfl, hissued⟩
        rw [List.append_nil, List.append_assoc]

/-- The execution with its credential revokes it last. -/
theorem executeWith_revokes {id : JsString} {r : Except Failure Json}
    (h : Runs (connector.executeWith request id) t r) :
    ∃ t' ans, t = t' ++ [⟨.revoke connector.sessionCredentials.place id, ans⟩] ∧ NoneIssued t' := by
  obtain ⟨t₁, t₂, result, done, rfl, hbody, hcleanup, -⟩ := runs_finallyDo h
  have hcall : (connector.callExecutor request id).Only ConnectorCall.Unissuing := by
    unfold SecureConnector.callExecutor SessionCredentialVault.consume
    refine Only.bind ?_ fun _ => only_perform.mpr trivial
    refine Only.bind (only_perform.mpr trivial) fun _ => ?_
    exact Only.bind (only_perform.mpr trivial) fun _ => only_perform.mpr trivial
  exact ⟨t₁, done, congrArg (t₁ ++ ·) (runs_perform.mp hcleanup),
    .of_unissuing (hcall.of_runs hbody)⟩

/-- What a `recording` adds issues nothing. -/
theorem recording_issues {α : Type} {rejected : Failure → ExecutionAuditEvent}
    {body : ConnectorProgram α} {r : Except Failure α}
    (h : Runs (recording rejected body) t r) :
    ∃ t₁ t₂ r', t = t₁ ++ t₂ ∧ Runs body t₁ r' ∧ NoneIssued t₂ ∧ (∀ a, r = .ok a → r' = .ok a) ∧
      ∀ error, r = .error error → ∃ error', r' = .error error' := by
  rcases runs_recording h with ⟨a, hbody, rfl⟩ | ⟨error, t', ans, rfl, hbody, rfl⟩
  · refine ⟨t, [], .ok a, (List.append_nil t).symm, hbody, ?_, ?_, ?_⟩
    · exact fun e he => absurd he List.not_mem_nil
    · exact fun _ h => h
    · rintro _ ⟨⟩
  · refine ⟨t', _, .error error, rfl, hbody, noneIssued_single rfl, ?_, fun _ _ => ⟨error, rfl⟩⟩
    rintro _ ⟨⟩

theorem runAndRecord_revokes {id : JsString} {r : Except Failure Json}
    (h : Runs (connector.runAndRecord request id) t r) :
    ∃ t₁ t₂ ans, t = t₁ ++ [⟨.revoke connector.sessionCredentials.place id, ans⟩] ++ t₂ ∧
      NoneIssued t₁ ∧ NoneIssued t₂ := by
  rcases runs_bind.mp h with ⟨e, hexecute, -⟩ | ⟨result, u, v, rfl, hexecute, hrest⟩
  · obtain ⟨t', ans, rfl, hnone⟩ := executeWith_revokes hexecute
    exact ⟨t', [], ans, (List.append_nil _).symm, hnone, fun e he => absurd he List.not_mem_nil⟩
  · obtain ⟨t', ans, rfl, hnone⟩ := executeWith_revokes hexecute
    refine ⟨t', v, ans, rfl, hnone, .of_unissuing (Only.of_runs ?_ hrest)⟩
    exact Only.bind (only_perform.mpr trivial) fun _ => trivial

theorem connector_revokes {r : Except Failure Json} (h : Runs (connector.execute request) t r) :
    RevokesIssued t := by
  rcases runs_bind.mp h with ⟨e, hadmit, rfl⟩ | ⟨id, u, v, rfl, hadmit, hrun⟩
  · obtain ⟨t₁, t₂, r', rfl, hbody, hnone, -, hfail⟩ := recording_issues hadmit
    obtain ⟨error, rfl⟩ := hfail e rfl
    rcases lease_issues hbody with ⟨hnone', -⟩ | ⟨_, _, _, -, -, he, -⟩
    · exact (hnone'.append hnone).revokes
    · cases he
  · obtain ⟨t₁, t₂, r', rfl, hbody, hnone, hok, -⟩ := recording_issues hadmit
    cases hok id rfl
    rcases lease_issues hbody with ⟨-, _, he⟩ | ⟨t', e, id', rfl, hnone', hid, hissued⟩
    · cases he
    · cases hid
      obtain ⟨v₁, v₂, r', rfl, hrunning, hnone₂, -⟩ := recording_issues hrun
      obtain ⟨w₁, w₂, ans, rfl, hw₁, hw₂⟩ := runAndRecord_revokes hrunning
      have hbracket : RevokesIssued (e :: (t₂ ++ w₁ ++
          [⟨.revoke connector.sessionCredentials.place id, ans⟩])) :=
        .bracket (hnone.append hw₁) hissued
      have hall := (hbracket.followed (hw₂.append hnone₂)).prepend hnone'
      simpa only [List.append_assoc, List.cons_append, List.nil_append] using hall

/-- **An execution that has ended has revoked the credential it was issued**, whichever
way it ended. -/
theorem execute_revokes {execution : Execution} {r : Except Failure Json}
    (h : Runs execution.program t r) : RevokesIssued t := by
  cases execution with
  | direct connector request => exact connector_revokes h
  | released service release gatewayAuthentication =>
    have hopen : (service.openSession release gatewayAuthentication).Only
        ConnectorCall.Unissuing := by
      unfold ExecutionControlService.openSession
      refine Only.bind (createSession_checks.mono fun _ => Checks.unissuing) fun _ => ?_
      exact Only.bind (only_perform.mpr trivial) fun _ => trivial
    rcases runs_bind.mp h with ⟨e, hopened, -⟩ | ⟨opened, u, v, rfl, hopened, hrest⟩
    · exact (NoneIssued.of_unissuing (hopen.of_runs hopened)).revokes
    · obtain ⟨t₁, t₂, r', rfl, hbody, hnone, -⟩ := recording_issues hrest
      refine RevokesIssued.prepend (.of_unissuing (hopen.of_runs hopened)) ?_
      refine RevokesIssued.followed ?_ hnone
      rcases runs_bind.mp hbody with ⟨e, hexecute, -⟩ | ⟨_, x, y, rfl, hexecute, hrecord⟩
      · exact connector_revokes hexecute
      · refine (connector_revokes hexecute).followed (.of_unissuing (Only.of_runs ?_ hrecord))
        exact Only.bind (only_perform.mpr trivial) fun _ => trivial

end Revokes

/-! ## Any number of executions -/

/-- The session a call admits a request to. -/
def admittedSession : ConnectorEvent → Option JsString
  | ⟨.consumeSession request _ _, .ok true⟩ => some request.gatewaySession.sessionId
  | _ => none

/-- The credential a call consumes. -/
def consumedCredential : ConnectorEvent → Option (ObjectRef × JsString)
  | ⟨.consumeSessionCredential vault id _, .ok _⟩ => some (vault, id)
  | _ => none

theorem consumedCredential_some {e : ConnectorEvent} {vault : ObjectRef} {id : JsString}
    (h : consumedCredential e = some (vault, id)) :
    ∃ now connectorId, e = ⟨.consumeSessionCredential vault id now, .ok connectorId⟩ := by
  unfold consumedCredential at h
  split at h
  · cases h
    exact ⟨_, _, rfl⟩
  · cases h

/-- A value occurs once among those a list gives if none comes back after it came. -/
theorem nodup_filterMap {α β : Type} {f : α → Option β} {l : List α}
    (h : ∀ before x after b, l = before ++ x :: after → f x = some b → ∀ y ∈ before, f y ≠ some b) :
    (l.filterMap f).Nodup := by
  induction l using List.reverseRecOn with
  | nil => exact List.nodup_nil
  | append_singleton l x ih =>
    have hinit : (l.filterMap f).Nodup := by
      refine ih fun before y after b hl => h before y (after ++ [x]) b ?_
      rw [hl, List.append_assoc, List.cons_append]
    rw [List.filterMap_append]
    cases hx : f x with
    | none => simpa [hx] using hinit
    | some b =>
      have hlast : [x].filterMap f = [b] := by simp [hx]
      rw [hlast]
      refine List.nodup_append.mpr ⟨hinit, List.nodup_singleton b, ?_⟩
      rintro b' hb' _ hb rfl
      obtain ⟨y, hy, hfy⟩ := List.mem_filterMap.mp hb'
      rw [List.mem_singleton.mp hb] at hfy
      exact h l x [] b rfl hx y hy hfy

section Together
variable {ι : Type} [DecidableEq ι] {dateParse : JsString → Option Int}
  {sha256 : List UInt8 → JsString}
  {P Q : Pool ConnectorCall ConnectorCall.Answer Failure (fun _ : ι => Json) ControlState}
  {log : List (ι × ConnectorEvent)}

theorem session_kept (h : Exec (Serves dateParse sha256) P log Q) {k : JsString}
    (hused : ∃ record, P.state.sessions.sessions.get k = some record ∧ record.used = true) :
    ∃ record, Q.state.sessions.sessions.get k = some record ∧ record.used = true := by
  refine h.events_induction (I := fun _ s => ∃ record, s.sessions.sessions.get k = some record ∧
    record.used = true) hused ?_
  rintro _ s _ e s' ⟨record, hget, hrecord⟩ hs
  obtain ⟨record', hget', rfl | rfl⟩ := hs.keeps_session hget
  · exact ⟨_, hget', hrecord⟩
  · exact ⟨_, hget', rfl⟩

theorem credential_kept (h : Exec (Serves dateParse sha256) P log Q) {place : ObjectRef}
    {k : JsString} {record : SessionCredentialRecord}
    (hget : (P.state.vaults place).get k = some record) :
    ∃ record', (Q.state.vaults place).get k = some record' ∧
      (record.used = true → record'.used = true) ∧
      (record.revoked = true → record'.revoked = true) := by
  refine h.events_induction (I := fun _ s => ∃ record', (s.vaults place).get k = some record' ∧
    (record.used = true → record'.used = true) ∧ (record.revoked = true → record'.revoked = true))
    ⟨record, hget, id, id⟩ ?_
  rintro _ s _ e s' ⟨record₁, hget₁, hused₁, hrevoked₁⟩ hs
  obtain ⟨record₂, hget₂, hused₂, hrevoked₂⟩ := hs.keeps_credential hget₁
  exact ⟨record₂, hget₂, hused₂ ∘ hused₁, hrevoked₂ ∘ hrevoked₁⟩

theorem admittedSession_some {e : ConnectorEvent} {k : JsString} (h : admittedSession e = some k) :
    ∃ request connectorId now, e = ⟨.consumeSession request connectorId now, .ok true⟩ ∧
      request.gatewaySession.sessionId = k := by
  unfold admittedSession at h
  split at h
  · exact ⟨_, _, _, rfl, Option.some.inj h⟩
  · cases h

/-- **A session admits one request.** -/
theorem not_admitted_again {before after : List (ι × ConnectorEvent)} {i : ι} {e : ConnectorEvent}
    {k : JsString} (h : Exec (Serves dateParse sha256) P (before ++ (i, e) :: after) Q)
    (he : admittedSession e = some k) : ∀ y ∈ before, admittedSession y.2 ≠ some k := by
  rintro ⟨j, e'⟩ hmem he'
  obtain ⟨b₁, b₂, rfl⟩ := List.append_of_mem hmem
  obtain ⟨request, connectorId, now, rfl, rfl⟩ := admittedSession_some he
  obtain ⟨request', connectorId', now', rfl, hsame⟩ := admittedSession_some he'
  obtain ⟨R, _, _, hbefore, -, hs, -⟩ := h.split
  obtain ⟨R', _, _, -, -, hs', hbetween⟩ := hbefore.split
  obtain ⟨record, hget, hused⟩ := session_kept hbetween hs'.admitted.2
  obtain ⟨record', hget', hvalid⟩ := hs.admitted.1
  rw [hsame, hget'] at hget
  cases hget
  rw [(sessionValid_true hvalid).1] at hused
  cases hused

/-- Two admissions to one session are one. -/
theorem admitted_by_one (h : Exec (Serves dateParse sha256) P log Q) {i j : ι}
    {e e' : ConnectorEvent} {k : JsString} (hi : (i, e) ∈ log) (hj : (j, e') ∈ log)
    (he : admittedSession e = some k) (he' : admittedSession e' = some k) : i = j := by
  obtain ⟨before, after, rfl⟩ := List.append_of_mem hi
  rcases List.mem_append.mp hj with hj | hj
  · exact absurd he' (not_admitted_again h he _ hj)
  · rcases List.mem_cons.mp hj with heq | hj
    · cases heq
      rfl
    · obtain ⟨a₁, a₂, rfl⟩ := List.append_of_mem hj
      rw [← List.cons_append, ← List.append_assoc] at h
      refine absurd he (not_admitted_again h he' (i, e) ?_)
      exact List.mem_append_right _ List.mem_cons_self

/-- A session in the store is one that was created, as its record says. -/
theorem session_created (h : Exec (Serves dateParse sha256) P log Q)
    (hempty : P.state.sessions.sessions = .empty) {k : JsString} {record : SessionRecord}
    (hget : Q.state.sessions.sessions.get k = some record) :
    ∃ j release connectorId lifetimeMs issuanceAuthentication now,
      (j, ⟨.createSession release connectorId lifetimeMs issuanceAuthentication now,
        .ok record.toGatewaySession⟩) ∈ log ∧
      sessionRecord dateParse sha256 release connectorId lifetimeMs now record.sessionId =
        .ok { record with used := false } := by
  have hall := h.events_induction (I := fun log s => ∀ k record,
    s.sessions.sessions.get k = some record →
      ∃ j release connectorId lifetimeMs issuanceAuthentication now,
        (j, (⟨.createSession release connectorId lifetimeMs issuanceAuthentication now,
          .ok record.toGatewaySession⟩ : ConnectorEvent)) ∈ log ∧
        sessionRecord dateParse sha256 release connectorId lifetimeMs now record.sessionId =
          .ok { record with used := false }) ?_ ?_
  · exact hall k record hget
  · intro k record hget
    rw [hempty, Table.get_empty] at hget
    cases hget
  · intro log s i e s' ih hs k record' hget'
    rcases hs.session_step hget' with ⟨record, hget, hsame⟩ | ⟨release, connectorId, lifetimeMs,
      issuanceAuthentication, now, rfl, hrecord⟩
    · obtain ⟨j, release, connectorId, lifetimeMs, issuanceAuthentication, now, hmem, hrecord⟩ :=
        ih k record hget
      have hsession : record'.toGatewaySession = record.toGatewaySession :=
        (SessionRecord.mk.inj hsame).1
      refine ⟨j, release, connectorId, lifetimeMs, issuanceAuthentication, now, ?_, ?_⟩
      · rw [hsession]
        exact List.mem_append_left _ hmem
      · rw [hsame, hsession]
        exact hrecord
    · refine ⟨i, release, connectorId, lifetimeMs, issuanceAuthentication, now, ?_, ?_⟩
      · exact List.mem_append_right _ (List.mem_singleton_self _)
      · obtain ⟨-, -, -, -, -, hused, -⟩ := sessionRecord_ok hrecord
        rw [hrecord]
        obtain ⟨session, connector, content, authorization, used⟩ := record'
        cases hused
        rfl

/-- **A credential is consumed once.** -/
theorem consumed_once (h : Exec (Serves dateParse sha256) P log Q) :
    (log.filterMap fun x => consumedCredential x.2).Nodup := by
  refine nodup_filterMap ?_
  rintro before ⟨i, e⟩ after ⟨vault, id⟩ rfl he ⟨j, e'⟩ hmem he'
  obtain ⟨now, connectorId, rfl⟩ := consumedCredential_some he
  obtain ⟨now', connectorId', rfl⟩ := consumedCredential_some he'
  obtain ⟨b₁, b₂, rfl⟩ := List.append_of_mem hmem
  obtain ⟨R, _, _, hbefore, -, hs, -⟩ := h.split
  obtain ⟨R', _, _, -, -, hs', hbetween⟩ := hbefore.split
  obtain ⟨record, hget, hused⟩ := hs'.consumed.2
  obtain ⟨record₁, hget₁, hused₁, -⟩ := credential_kept hbetween hget
  obtain ⟨record₂, hget₂, hunused, -⟩ := hs.consumed.1
  rw [hget₁] at hget₂
  cases hget₂
  rw [hused₁ hused] at hunused
  cases hunused

/-- A credential that is issued and then revoked stays revoked. -/
theorem stays_revoked (h : Exec (Serves dateParse sha256) P log Q) {i j : ι}
    {before after : List (ι × ConnectorEvent)} {e e' : ConnectorEvent} {vault : ObjectRef}
    {id : JsString} (hlog : log = before ++ (j, e') :: after) (hmem : (i, e) ∈ before)
    (he : issuedCredential e = some (vault, id)) (he' : revokedCredential e' = some (vault, id)) :
    ∃ record, (Q.state.vaults vault).get id = some record ∧ record.revoked = true := by
  subst hlog
  obtain ⟨b₁, b₂, rfl⟩ := List.append_of_mem hmem
  obtain ⟨R, _, _, hbefore, -, hs, hafter⟩ := h.split
  obtain ⟨R', _, _, -, -, hs', hbetween⟩ := hbefore.split
  unfold issuedCredential at he
  split at he
  · cases he
    obtain ⟨record, hget⟩ := hs'.issued
    obtain ⟨record₁, hget₁, -⟩ := credential_kept hbetween hget
    unfold revokedCredential at he'
    split at he'
    · cases he'
      obtain ⟨record₂, hget₂, hrevoked⟩ := hs.revoked hget₁
      obtain ⟨record₃, hget₃, -, hkept⟩ := credential_kept hafter hget₂
      exact ⟨record₃, hget₃, hkept hrevoked⟩
    · cases he'
  · cases he

end Together

/-! ## The result -/

/-- The values that are hashed for a call. -/
def boundValues : ConnectorCall → List Data
  | .createSession release .. =>
    [contentData release.executableContent, authorizationData release.authorization]
  | .consumeSession request .. =>
    [contentData request.executableContent, authorizationData request.authorization]
  | _ => []

section Result
variable {ι : Type} [DecidableEq ι] (dateParse : JsString → Option Int)
  (sha256 : List UInt8 → JsString) (execution : ι → Execution) (issuanceAuthentication : ObjectRef)

/-- The bytes that are hashed in a run. -/
def boundBytes (log : List (ι × ConnectorEvent)) : Set (List UInt8) :=
  {bytes | ∃ x ∈ log, ∃ value ∈ boundValues x.2.1, Crypto.serialize value = .ok bytes}

/-- `Date.parse` reads the expiry back that a session is created with. -/
def ReadsExpiries (log : List (ι × ConnectorEvent)) : Prop :=
  ∀ x ∈ log, ∀ release connectorId lifetimeMs issuanceAuthentication now expiry,
    x.2.1 = .createSession release connectorId lifetimeMs issuanceAuthentication now →
      sessionExpiry dateParse release lifetimeMs now = some expiry →
        dateParse (toISOString expiry) = some expiry

/-- The executions, over empty stores. -/
def start : Pool ConnectorCall ConnectorCall.Answer Failure (fun _ : ι => Json) ControlState where
  threads i := (execution i).program
  state := ⟨⟨issuanceAuthentication, .empty⟩, fun _ => .empty⟩

/-- The two are written with the same canonical bytes. -/
def SameBytes (a b : Data) : Prop := ∃ bytes, Crypto.serialize a = .ok bytes ∧
  Crypto.serialize b = .ok bytes

/-- The request an executor is called with was admitted to a session, before its expiry
and that of the authorization, and the session was created for this connector and for a
release of the same content under the same authorization. -/
def ReleasedTo (log : List (ι × ConnectorEvent)) (i : ι) (connector : SecureConnector)
    (request : GatewayExecutionRequest) : Prop :=
  ∃ now j release lifetimeMs authentication created,
    (i, ⟨.consumeSession request connector.connectorId now, .ok true⟩) ∈ log ∧
    (j, ⟨.createSession release connector.connectorId lifetimeMs authentication created,
      .ok request.gatewaySession⟩) ∈ log ∧
    (∃ expiry, dateParse request.gatewaySession.expiresAt = some expiry ∧ now < expiry) ∧
    (∃ expiry, dateParse release.authorization.payload.expiresAt = some expiry ∧ now < expiry) ∧
    SameBytes (contentData request.executableContent) (contentData release.executableContent) ∧
    SameBytes (authorizationData request.authorization) (authorizationData release.authorization)

/-- What holds of the executions at any point. -/
structure SingleUse (log : List (ι × ConnectorEvent))
    (Q : Pool ConnectorCall ConnectorCall.Answer Failure (fun _ : ι => Json) ControlState) :
    Prop where
  /-- No executor returns twice for one session. -/
  executedOnce : (log.filterMap fun x => executedSession x.2).Nodup
  /-- No executor is called for a session one has been called for. -/
  startedOnce : ∀ i connector request credential k,
    Q.threads i = .call (.execute connector request credential) k →
      some request.gatewaySession.sessionId ∉ log.map (fun x => executedSession x.2) ∧
      ∀ j connector' request' credential' k',
        Q.threads j = .call (.execute connector' request' credential') k' →
          request'.gatewaySession.sessionId = request.gatewaySession.sessionId → j = i
  /-- An executor is called with what was released. -/
  released : ∀ i connector request credential k,
    Q.threads i = .call (.execute connector request credential) k →
      ReleasedTo dateParse log i connector request
  consumedOnce : (log.filterMap fun x => consumedCredential x.2).Nodup
  /-- A credential is consumed by the execution it was issued to. -/
  consumedByHolder : ∀ i e vault id, (i, e) ∈ log → consumedCredential e = some (vault, id) →
    ∃ e', (i, e') ∈ log ∧ issuedCredential e' = some (vault, id)
  /-- What an execution that has ended was issued is revoked. -/
  revoked : ∀ i r, Q.threads i = .done r → ∀ e vault id, (i, e) ∈ log →
    issuedCredential e = some (vault, id) →
      ∃ record, (Q.state.vaults vault).get id = some record ∧ record.revoked = true

variable {dateParse sha256 execution issuanceAuthentication}
  {Q : Pool ConnectorCall ConnectorCall.Answer Failure (fun _ : ι => Json) ControlState}
  {log : List (ι × ConnectorEvent)}

/-- Whoever calls an executor has been admitted, and has called none before. -/
theorem call_earned
    (h : Exec (Serves dateParse sha256) (start execution issuanceAuthentication) log Q) {i : ι}
    {connector : SecureConnector} {request : GatewayExecutionRequest} {credential : Json}
    {k : Except Failure Json → ConnectorProgram Json}
    (hi : Q.threads i = .call (.execute connector request credential) k) :
    (∃ now, (i, ⟨.consumeSession request connector.connectorId now, .ok true⟩) ∈ log) ∧
      ∀ e, (i, e) ∈ log → executedSession e = none := by
  have hsteps := h.steps_of_thread i
  rw [hi] at hsteps
  obtain ⟨⟨now, hmem⟩, hnot⟩ := execute_admitted hsteps
  exact ⟨⟨now, mem_eventsOf.mp hmem⟩, fun e he => hnot e (mem_eventsOf.mpr he)⟩

/-- The session of an executor's call has been admitted to by the same thread. -/
theorem executed_admitted
    (h : Exec (Serves dateParse sha256) (start execution issuanceAuthentication) log Q) {i : ι}
    {e : ConnectorEvent} {s : JsString} (hmem : (i, e) ∈ log) (he : executedSession e = some s) :
    ∃ a, (i, a) ∈ log ∧ admittedSession a = some s := by
  obtain ⟨before, after, rfl⟩ := List.append_of_mem hmem
  obtain ⟨connector, request, credential, ans, rfl, rfl⟩ := executedSession_some he
  obtain ⟨R, _, _, hbefore, hi, -⟩ := h.split
  obtain ⟨⟨now, hadmitted⟩, -⟩ := call_earned hbefore hi
  exact ⟨_, List.mem_append_left _ hadmitted, rfl⟩

/-- No executor has been called for the session of one that is being called. -/
theorem not_executed_before
    (h : Exec (Serves dateParse sha256) (start execution issuanceAuthentication) log Q) {i : ι}
    {connector : SecureConnector} {request : GatewayExecutionRequest} {credential : Json}
    {k : Except Failure Json → ConnectorProgram Json}
    (hi : Q.threads i = .call (.execute connector request credential) k) :
    ∀ y ∈ log, executedSession y.2 ≠ some request.gatewaySession.sessionId := by
  rintro ⟨j, e⟩ hmem he
  obtain ⟨⟨now, hadmitted⟩, hnot⟩ := call_earned h hi
  obtain ⟨a, ha, hsession⟩ := executed_admitted h hmem he
  have hij : i = j := admitted_by_one h hadmitted ha rfl hsession
  subst hij
  rw [hnot e hmem] at he
  cases he

theorem call_released (hdates : ∀ text time, dateParse text = some time → time.natAbs ≤ maxTime)
    (h : Exec (Serves dateParse sha256) (start execution issuanceAuthentication) log Q)
    (hreads : ReadsExpiries dateParse log) (hinj : Set.InjOn sha256 (boundBytes log)) {i : ι}
    {connector : SecureConnector} {request : GatewayExecutionRequest} {credential : Json}
    {k : Except Failure Json → ConnectorProgram Json}
    (hi : Q.threads i = .call (.execute connector request credential) k) :
    ReleasedTo dateParse log i connector request := by
  obtain ⟨⟨now, hadmitted⟩, -⟩ := call_earned h hi
  obtain ⟨before, after, hlog⟩ := List.append_of_mem hadmitted
  have hrun := h
  rw [hlog] at hrun
  obtain ⟨R, _, _, hbefore, -, hs, -⟩ := hrun.split
  obtain ⟨record, hget, hvalid⟩ := hs.admitted.1
  obtain ⟨-, ⟨expiry, hexpiry, hlt⟩, hconnector, hsession, hcontent, hauthorization⟩ :=
    sessionValid_true hvalid
  obtain ⟨j, release, connectorId, lifetimeMs, authentication, created, hmem, hrecord⟩ :=
    session_created hbefore rfl hget
  obtain ⟨expiry', hexpiry', htext, -, hconnector', -, hcontent', hauthorization'⟩ :=
    sessionRecord_ok hrecord
  have hcreated : (j, (⟨.createSession release connectorId lifetimeMs authentication created,
      .ok record.toGatewaySession⟩ : ConnectorEvent)) ∈ log := by
    rw [hlog]
    exact List.mem_append_left _ hmem
  have hread := hreads _ hcreated release connectorId lifetimeMs authentication created expiry' rfl
    hexpiry'
  have htext' : record.expiresAt = toISOString expiry' := htext
  obtain ⟨time, htime, hle⟩ := sessionExpiry_le hdates hexpiry'
  rw [htext', hread] at hexpiry
  cases hexpiry
  have hbound : ∀ (a b : Data), a ∈ boundValues (.consumeSession request connector.connectorId now) →
      b ∈ boundValues (.createSession release connectorId lifetimeMs authentication created) →
      ∀ bytes, Crypto.serialize a = .ok bytes ∨ Crypto.serialize b = .ok bytes →
        bytes ∈ boundBytes log := by
    rintro a b ha hb bytes (hbytes | hbytes)
    · exact ⟨_, hadmitted, a, ha, hbytes⟩
    · exact ⟨_, hcreated, b, hb, hbytes⟩
  have hid : connectorId = connector.connectorId := hconnector'.symm.trans hconnector
  rw [hid, hsession] at hcreated
  refine ⟨now, j, release, lifetimeMs, authentication, created, hadmitted, hcreated, ?_, ?_, ?_, ?_⟩
  · rw [← hsession, htext']
    exact ⟨expiry, hread, hlt⟩
  · exact ⟨time, htime, lt_of_lt_of_le hlt hle⟩
  · refine bytes_of_bindings hinj (hbound _ _ ?_ ?_) hcontent hcontent'
    · exact List.mem_cons_self
    · exact List.mem_cons_self
  · refine bytes_of_bindings hinj (hbound _ _ ?_ ?_) hauthorization hauthorization'
    · exact List.mem_cons_of_mem _ List.mem_cons_self
    · exact List.mem_cons_of_mem _ List.mem_cons_self

theorem ended_revoked
    (h : Exec (Serves dateParse sha256) (start execution issuanceAuthentication) log Q) {i : ι}
    {r : Except Failure Json} (hi : Q.threads i = .done r) {e : ConnectorEvent} {vault : ObjectRef}
    {id : JsString} (hmem : (i, e) ∈ log) (he : issuedCredential e = some (vault, id)) :
    ∃ record, (Q.state.vaults vault).get id = some record ∧ record.revoked = true := by
  have hruns := h.steps_of_thread i
  rw [hi] at hruns
  obtain ⟨u, v, huv⟩ := List.append_of_mem (mem_eventsOf.mpr hmem)
  obtain ⟨e', he', hrevoked⟩ := execute_revokes hruns u e v _ huv he
  obtain ⟨v₁, v₂, rfl⟩ := List.append_of_mem he'
  rw [← List.cons_append, ← List.append_assoc] at huv
  obtain ⟨before, after, hlog, hbefore, -⟩ := eventsOf_split huv
  have hissued : e ∈ eventsOf i before := by
    rw [hbefore]
    exact List.mem_append_right _ List.mem_cons_self
  exact stays_revoked h hlog (mem_eventsOf.mp hissued) he hrevoked

/-- **One execution for one session**, of what was released, in every run of any number of
executions over the stores. -/
theorem single_use (hdates : ∀ text time, dateParse text = some time → time.natAbs ≤ maxTime)
    (h : Exec (Serves dateParse sha256) (start execution issuanceAuthentication) log Q)
    (hreads : ReadsExpiries dateParse log) (hinj : Set.InjOn sha256 (boundBytes log)) :
    SingleUse dateParse log Q where
  executedOnce := by
    refine nodup_filterMap ?_
    rintro before ⟨i, e⟩ after s rfl he
    obtain ⟨connector, request, credential, ans, rfl, rfl⟩ := executedSession_some he
    obtain ⟨R, _, _, hbefore, hi, -⟩ := h.split
    exact not_executed_before hbefore hi
  startedOnce := by
    intro i connector request credential k hi
    constructor
    · intro hmem
      obtain ⟨y, hy, hsession⟩ := List.mem_map.mp hmem
      exact not_executed_before h hi y hy hsession
    · intro j connector' request' credential' k' hj hsame
      obtain ⟨⟨now, hadmitted⟩, -⟩ := call_earned h hi
      obtain ⟨⟨now', hadmitted'⟩, -⟩ := call_earned h hj
      exact admitted_by_one h hadmitted' hadmitted (congrArg some hsame) rfl
  released := fun i connector request credential k hi => call_released hdates h hreads hinj hi
  consumedOnce := consumed_once h
  consumedByHolder := by
    intro i e vault id hmem he
    obtain ⟨now, connectorId, rfl⟩ := consumedCredential_some he
    obtain ⟨before, after, rfl⟩ := List.append_of_mem hmem
    obtain ⟨R, _, _, hbefore, hi, -⟩ := h.split
    have hsteps := hbefore.steps_of_thread i
    rw [hi] at hsteps
    obtain ⟨e', he', hissued⟩ := consume_issued hsteps
    exact ⟨e', List.mem_append_left _ (mem_eventsOf.mp he'), hissued⟩
  revoked := fun i r hi e vault id hmem he => ended_revoked h hi hmem he

end Result

/-! ## A session presented twice -/

namespace Refund

/-- `Date.parse`, on the two expiries of the run. -/
def dates (text : JsString) : Option Int :=
  if text = "2026-01-01T00:00:30.000Z" then some 1767225630000
  else if text = "2026-01-01T00:05:00.000Z" then some 1767225900000
  else none

/-- The canonical bytes of the content. -/
def contentBytes : List UInt8 := JsString.encode
  ("\x7b\"action\":\"refund\",\"businessTransactionId\":\"transaction-1\",\"parameters\":\x7b\x7d," ++
    "\"target\":\"customer-1\"\x7d" : String)

/-- SHA-256, on the two values of the run. -/
def digest (bytes : List UInt8) : JsString :=
  if bytes = contentBytes then "5dcc3ace5258d2413cda60c287f4202603014e4ee1ad4b39470aebc11296be2d"
  else "52061f5e7abf836db5e6e0906ce31168e3122793d8cabb947b11e3589169fb87"

/-- The release behind the service, and its request presented to the connector again. -/
def executions : Bool → Execution
  | true => execution
  | false => .direct connector (service.request release session)

/-- The stores answer as they do, under one identifier each. -/
def serve : (call : ConnectorCall) → ControlState → Except Failure call.Answer × ControlState
  | .createSession release connectorId lifetimeMs issuanceAuthentication now, s =>
    let answer := s.sessions.create dates digest release connectorId lifetimeMs
      issuanceAuthentication now "session-1"
    (answer.1, { s with sessions := answer.2 })
  | .consumeSession request connectorId now, s =>
    let answer := s.sessions.consume dates digest request connectorId now
    (answer.1, { s with sessions := answer.2 })
  | .issueSessionCredential vault connectorId authorizationId issuedAt, s =>
    let answer := (s.vaults vault.place).issue vault.lifetimeMs connectorId authorizationId issuedAt
      "credential-1"
    (answer.1, s.setVault vault.place answer.2)
  | .consumeSessionCredential vault id now, s =>
    let answer := (s.vaults vault).consume id now
    (answer.1, s.setVault vault answer.2)
  | .revoke vault id, s =>
    let answer := (s.vaults vault).revoke id
    (answer.1, s.setVault vault answer.2)
  | other, s => ((answers other 0).1, s)

/-- The identifiers are new, the expiry is the one `dates` reads, and only the content and
the authorization of the release are hashed. -/
def known (s : ControlState) : ConnectorCall → Bool
  | .createSession r _ lifetimeMs _ now =>
    (s.sessions.sessions.get "session-1").isNone && decide (r = release) &&
      decide (sessionExpiry dates r lifetimeMs now = some 1767225630000)
  | .consumeSession request _ _ =>
    decide (request.executableContent = release.executableContent) &&
      decide (request.authorization = release.authorization)
  | .issueSessionCredential vault .. => ((s.vaults vault.place).get "credential-1").isNone
  | _ => true

/-- Known calls are served. -/
theorem serve_serves {s s' : ControlState} {e : ConnectorEvent}
    (h : Handled serve s e s' ∧ known s e.1 = true) : Serves dates digest s e s' := by
  obtain ⟨call, answer⟩ := e
  obtain ⟨hserve, hknown⟩ := h
  cases call with
  | createSession =>
    cases hserve
    rw [known, Bool.and_eq_true, Bool.and_eq_true, Option.isNone_iff_eq_none] at hknown
    exact .createSession "session-1" hknown.1.1 rfl
  | consumeSession =>
    cases hserve
    exact .consumeSession rfl
  | issueSessionCredential =>
    cases hserve
    rw [known, Option.isNone_iff_eq_none] at hknown
    exact .issueSessionCredential "credential-1" hknown rfl
  | consumeSessionCredential =>
    cases hserve
    exact .consumeSessionCredential rfl
  | revoke =>
    cases hserve
    exact .revoke rfl
  | _ =>
    obtain ⟨-, rfl⟩ := Prod.mk.inj hserve
    exact .other rfl

/-- The release to its end, and then the request presented again. -/
def schedule : List Bool := List.replicate 19 true ++ List.replicate 5 false

/-- What is hashed is the content or the authorization of the release. -/
theorem bound_known {s : ControlState} {call : ConnectorCall} (h : known s call = true)
    {value : Data} (hvalue : value ∈ boundValues call) :
    value = contentData release.executableContent ∨
      value = authorizationData release.authorization := by
  cases call with
  | createSession =>
    rw [known, Bool.and_eq_true, Bool.and_eq_true, decide_eq_true_eq] at h
    obtain ⟨⟨-, rfl⟩, -⟩ := h
    simpa [boundValues] using hvalue
  | consumeSession =>
    rw [known, Bool.and_eq_true, decide_eq_true_eq, decide_eq_true_eq] at h
    simpa [boundValues, h.1, h.2] using hvalue
  | _ => simp [boundValues] at hvalue

end Refund

open Refund in
/-- The session of a release is used up by the service; presented to the connector again it
reaches no executor. -/
theorem single_use_refund : ∃ log Q, Exec (Serves dates digest) (start executions 1) log Q ∧
    types (eventsOf false log) = [.executionRejected] ∧
    (log.filterMap fun x => executedSession x.2) = ["session-1"] ∧ SingleUse dates log Q := by
  obtain ⟨hmeets, hrejected, hexecuted⟩ :
      (start executions 1).Meets serve (fun s e _ => known s e.1 = true) schedule ∧
        types (eventsOf false ((start executions 1).script serve schedule)) =
          [.executionRejected] ∧
        (((start executions 1).script serve schedule).filterMap fun x => executedSession x.2) =
          ["session-1"] := by
    decide +kernel
  have h := Exec.play serve schedule hmeets
  have hrun := h.mono fun _ _ _ => serve_serves
  have hknown : ∀ x ∈ (start executions 1).script serve schedule, ∃ s, known s x.2.1 = true := by
    refine h.events_induction (I := fun log _ => ∀ x ∈ log, ∃ s, known s x.2.1 = true)
      (fun x hx => absurd hx List.not_mem_nil) ?_
    intro log s i e s' ih hs x hx
    rcases List.mem_append.mp hx with hx | hx
    · exact ih x hx
    · rw [List.mem_singleton.mp hx]
      exact ⟨s, hs.2⟩
  have hdates : ∀ text time, dates text = some time → time.natAbs ≤ maxTime := by
    intro text time htime
    unfold dates at htime
    split at htime
    · cases htime
      decide
    · split at htime
      · cases htime
        decide
      · cases htime
  have hreads : ReadsExpiries dates ((start executions 1).script serve schedule) := by
    intro x hx r connectorId lifetimeMs authentication now expiry hcall hexpiry
    obtain ⟨s, hs⟩ := hknown x hx
    rw [hcall, known, Bool.and_eq_true, decide_eq_true_eq] at hs
    cases hexpiry.symm.trans hs.2
    decide
  have hcontent : Crypto.serialize (contentData release.executableContent) = .ok contentBytes := by
    decide
  have hinj : Set.InjOn digest (boundBytes ((start executions 1).script serve schedule)) := by
    have hbound : ∀ bytes ∈ boundBytes ((start executions 1).script serve schedule),
        bytes = contentBytes ∨
          Crypto.serialize (authorizationData release.authorization) = .ok bytes := by
      rintro bytes ⟨x, hx, value, hvalue, hbytes⟩
      obtain ⟨s, hs⟩ := hknown x hx
      rcases bound_known hs hvalue with rfl | rfl
      · exact .inl (Except.ok.inj (hbytes.symm.trans hcontent))
      · exact .inr hbytes
    have hother : ∀ bytes, Crypto.serialize (authorizationData release.authorization) = .ok bytes →
        bytes ≠ contentBytes := by
      rintro bytes hbytes rfl
      have hne : Crypto.serialize (authorizationData release.authorization) ≠ .ok contentBytes := by
        decide
      exact hne hbytes
    intro a ha b hb hab
    rcases hbound a ha with rfl | ha
    · rcases hbound b hb with rfl | hb
      · rfl
      · rw [digest, digest, if_pos rfl, if_neg (hother b hb)] at hab
        exact absurd hab (by decide)
    · rcases hbound b hb with rfl | hb
      · rw [digest, digest, if_pos rfl, if_neg (hother a ha)] at hab
        exact absurd hab (by decide)
      · exact Except.ok.inj (ha.symm.trans hb)
  exact ⟨_, _, hrun, hrejected, hexecuted, single_use hdates hrun hreads hinj⟩

end Parmana.ExecutionControl

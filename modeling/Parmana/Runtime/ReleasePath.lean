import Parmana.Gateway.SingleRelease
import Parmana.Interaction.Expansion
import Parmana.Runtime.ExecutionComponent
import Parmana.Runtime.InFlight
import Parmana.Runtime.Provenance

/-! # The way from a request to the connector

`Runtime.execute` calls its pipeline as one thing, the component of the pipeline calls the
execution system as one thing, and the execution system is the gateway, which hands the action
on.  Here the three are one program: the pipeline's stages stand in the place of the pipeline,
and the gateway's in the place of the execution system.

What the parts were shown to do each for itself then holds of the whole.  **Nothing is handed
on that the run was not cleared for** (`execute_mediated`): when the connector is called, the
policy of the request has been loaded, checked and has approved it, an authorization for just
this content was signed, the intent and the execution are stored, the gateway has found every
check of that authorization to pass and has used its nonce up, and nothing was handed on
before.  And **a run writes under its own transaction only** (`execute_writes_its_own`): the
pipeline gives back the transaction it was given.
-/
namespace Parmana
open Js Policy Interaction Interaction.Program Gateway

/-! ## One program -/

/-- The calls on the way: of the runtime, of the component that carries an action out, and of
the gateway. -/
inductive PathCall (Key : Type) where
  | runtime (call : RuntimeCall)
  | execution (call : ExecutionCall)
  | gateway (call : GatewayCall Key)

/-- What a call answers. -/
abbrev PathCall.Answer {Key : Type} : PathCall Key → Type
  | .runtime asked => asked.Answer
  | .execution asked => asked.Answer
  | .gateway asked => asked.Answer

/-- A program over all of them. -/
abbrev PathProgram (Key α : Type) := Program (PathCall Key) PathCall.Answer Failure α

abbrev PathEvent (Key : Type) := Event (PathCall Key) PathCall.Answer Failure

/-- `TrustChainValidationComponent.execute`.  Whether the transaction carries an authority and
an authorization of its own is given apart. -/
def TrustChainValidationComponent.execute (authority authorization : Bool)
    (context : RuntimeContext) : Except Failure RuntimeContext :=
  if !authority then
    .error (.parmanaError "Authority is required before execution." "AUTHORITY_REQUIRED")
  else if !authorization then
    .error (.parmanaError "Authorization is required before execution." "AUTHORIZATION_REQUIRED")
  else if context.decision.outcome ≠ .approved then
    .error (.parmanaError "Business Transaction was not approved for execution."
      "DECISION_NOT_APPROVED")
  else .ok context

/-- What a run is built with: the gateway and what it computes with, the identifier and the
times the component draws, and what the transaction carries. -/
structure ReleasePath (Key : Type) where
  gateway : ExecutionGateway Key
  dateParse : JsString → Option Int
  sha256 : List UInt8 → JsString
  /-- The answer of the connector, as the component reads it. -/
  readResult : Json → ExecutionResult
  drawn : Drawn
  authority : Bool
  authorization : Bool

namespace ReleasePath
variable {Key : Type} (path : ReleasePath Key)

/-- A call of the gateway. -/
def ofGateway (asked : GatewayCall Key) : PathProgram Key asked.Answer :=
  perform (PathCall.gateway asked)

/-- The execution system of the component is the gateway. -/
def executeSystem (request : ExecutionRequest) : PathProgram Key ExecutionResult := do
  let answer ← (path.gateway.execute path.dateParse path.sha256 request).expand ofGateway
  return path.readResult answer

/-- A call of the component. -/
def ofExecution : (asked : ExecutionCall) → PathProgram Key asked.Answer
  | .executeSystem request => path.executeSystem request
  | .findTransaction id => perform (PathCall.execution (.findTransaction id))
  | .chain draft previousChainHash => perform (PathCall.execution (.chain draft previousChainHash))
  | .appendExecution execution => perform (PathCall.execution (.appendExecution execution))
  | .replaceExecution execution => perform (PathCall.execution (.replaceExecution execution))

/-- `RuntimePipeline.execute`, with the two stages it is built of. -/
def pipeline (context : RuntimeContext) : PathProgram Key RuntimeContext := do
  let context ← Program.done
    (TrustChainValidationComponent.execute path.authority path.authorization context)
  (ExecutionComponent.execute path.drawn context).expand path.ofExecution

/-- A call of the runtime. -/
def ofRuntime : (asked : RuntimeCall) → PathProgram Key asked.Answer
  | .executePipeline context => path.pipeline context
  | asked => perform (PathCall.runtime asked)

/-- `Runtime.execute`, down to what is handed to the connector. -/
def execute (config : RuntimeConfig) (executionIntents : Bool) (transaction : BusinessTransaction) :
    PathProgram Key (RuntimeContext × ExecutionTrustRecord) :=
  (Runtime.execute config executionIntents transaction).expand path.ofRuntime

/-! ## Where it stops -/

/-- An event of the runtime, and one of the gateway, on the way. -/
def ofRuntimeEvent (e : RuntimeEvent) : PathEvent Key := ⟨.runtime e.1, e.2⟩

def ofExecutionEvent (e : ExecutionEvent) : PathEvent Key := ⟨.execution e.1, e.2⟩

def ofGatewayEvent (e : GatewayEvent Key) : PathEvent Key := ⟨.gateway e.1, e.2⟩

variable {path} {t : List (PathEvent Key)}

theorem ofRuntime_eq {asked : RuntimeCall} (h : asked.isRelease = false) :
    path.ofRuntime asked = perform (PathCall.runtime asked) := by
  cases asked with
  | executePipeline context => cases h
  | _ => rfl

theorem gateway_ne (asked : GatewayCall Key) (asked' : RuntimeCall) :
    (.gateway asked : PathCall Key) ≠ .runtime asked' := by
  rintro ⟨⟩

theorem execution_ne (asked : ExecutionCall) (asked' : RuntimeCall) :
    (.execution asked : PathCall Key) ≠ .runtime asked' := by
  rintro ⟨⟩

theorem ofExecution_eq {asked : ExecutionCall} (h : ∀ request, asked ≠ .executeSystem request) :
    path.ofExecution asked = perform (PathCall.execution asked) := by
  cases asked with
  | executeSystem request => exact absurd rfl (h request)
  | _ => rfl

section Stop
variable {config : RuntimeConfig} {executionIntents : Bool} {transaction : BusinessTransaction}
  {context : RuntimeContext} {request : ExecutionRequest}

/-- Below the runtime, a run has stopped in its pipeline: the calls before are the runtime's
own, and the pipeline is called for the first time. -/
theorem stop_execute {op : PathCall Key} (hop : ∀ asked, op ≠ .runtime asked)
    {k : Except Failure op.Answer → PathProgram Key (RuntimeContext × ExecutionTrustRecord)}
    (h : Steps (path.execute config executionIntents transaction) t (.call op k)) :
    ∃ t₀ t₁ context k₀ k₁, t = t₀.map ofRuntimeEvent ++ t₁ ∧
      Steps (Runtime.execute config executionIntents transaction) t₀
        (.call (.executePipeline context) k₀) ∧ InFlight.Quiet t₀ ∧
      Steps (path.pipeline context) t₁ (.call op k₁) := by
  obtain ⟨t₀, t₁, t₂, asked, k₀, k₁, rfl, houter, hexpands, hinner⟩ := steps_expand h
  by_cases hrelease : asked.isRelease = false
  · rw [ofRuntime_eq hrelease] at hinner
    exact absurd (steps_perform hinner).1 (hop asked)
  · cases asked with
    | executePipeline context =>
      have hquiet : InFlight.Quiet t₀ := pre_of_steps (InFlight.traced_execute _) houter
      refine ⟨t₀, t₂, context, k₀, k₁, ?_, houter, hquiet, hinner⟩
      rw [hexpands.eq_map fun e he t₁ hrun => ?_]
      rw [ofRuntime_eq (hquiet e he).1] at hrun
      exact runs_perform.mp hrun
    | _ => exact absurd rfl hrelease

theorem execute_ok {authority authorization : Bool} {context' : RuntimeContext}
    (h : TrustChainValidationComponent.execute authority authorization context = .ok context') :
    context' = context ∧ context.decision.outcome = .approved := by
  unfold TrustChainValidationComponent.execute at h
  split at h
  · cases h
  split at h
  · cases h
  split at h
  · cases h
  · rename_i happroved
    exact ⟨(Except.ok.inj h).symm, not_not.mp happroved⟩

/-- The stages of the pipeline before the component change nothing. -/
theorem stop_pipeline {op : PathCall Key}
    {k : Except Failure op.Answer → PathProgram Key RuntimeContext}
    (h : Steps (path.pipeline context) t (.call op k)) :
    context.decision.outcome = .approved ∧ ∃ k',
      Steps ((ExecutionComponent.execute path.drawn context).expand path.ofExecution) t
        (.call op k') := by
  rcases steps_bind h with ⟨k', hstop⟩ | ⟨context', t₁, t₂, rfl, hrun, hstop⟩
  · cases hstop
  · obtain ⟨rfl, hvalid⟩ := runs_done.mp hrun
    obtain ⟨rfl, happroved⟩ := execute_ok hvalid.symm
    exact ⟨happroved, k, hstop⟩

/-- What the component has done when it calls the execution system: the execution is stored as
`PROCESSING`, and the system is called for the first time, with the request of the context. -/
def AtSystem (context : RuntimeContext) (t : List ExecutionEvent) : ExecutionCall → Prop
  | .executeSystem request =>
    (∃ authorization, context.authorization = some authorization ∧
      ExecutionRequestBuilder.build context.transaction authorization = .ok request) ∧
    (∃ execution, ⟨.appendExecution execution, .ok ()⟩ ∈ t ∧ execution.status = .processing ∧
      execution.businessTransactionId = context.transaction.businessTransactionId) ∧
    ∀ e ∈ t, ∀ request', e.1 ≠ .executeSystem request'
  | _ => True

theorem atSystem_of_other {t : List ExecutionEvent} {asked : ExecutionCall}
    (h : ∀ request, asked ≠ .executeSystem request) : AtSystem context t asked := by
  cases asked with
  | executeSystem request => exact absurd rfl (h request)
  | _ => trivial

/-- The calls that store an execution, and no call of the execution system. -/
theorem only_replace {original draft : ExecutionArtifact} :
    (ExecutionService.replace original draft).Only
      fun asked => ∀ request, asked ≠ .executeSystem request :=
  Only.bind (only_perform.mpr nofun) fun _ => Only.bind (only_perform.mpr nofun) fun _ => only_done

theorem only_fail {drawn : Drawn} {execution : ExecutionArtifact} {α : Type} {error : Failure} :
    (do
      let _ ← ExecutionService.fail drawn execution
      throw error : ExecutionProgram α).Only
        fun asked => ∀ request, asked ≠ .executeSystem request :=
  Only.bind only_replace fun _ => only_done

theorem traced_other {α : Type} {p : ExecutionProgram α} {t : List ExecutionEvent}
    (h : p.Only fun asked => ∀ request, asked ≠ .executeSystem request) :
    Traced (AtSystem context) p (fun _ _ => True) t :=
  h.traced fun _ _ hasked => atSystem_of_other hasked

/-- **The execution is stored before its action is carried out**, which is tried once. -/
theorem component_traced (drawn : Drawn) :
    Traced (AtSystem context) (ExecutionComponent.execute drawn context) (fun _ _ => True) [] := by
  unfold ExecutionComponent.execute
  split
  · exact Traced.throw
  rename_i authorization hauthorization
  refine Traced.bind (R := fun execution t => (∃ stored, ⟨.appendExecution stored, .ok ()⟩ ∈ t ∧
    stored.status = .processing ∧
    stored.businessTransactionId = context.transaction.businessTransactionId) ∧
    ∀ e ∈ t, ∀ request', e.1 ≠ .executeSystem request') ?_ ?_
  · refine Traced.bind_perform trivial fun found => ?_
    dsimp only
    split
    · exact Traced.throw
    refine Traced.bind_perform trivial fun chain => Traced.bind_perform trivial fun _ =>
      Traced.pure ⟨⟨_, List.mem_append_right _ (List.mem_singleton_self _), rfl, rfl⟩, ?_⟩
    simp
  rintro execution t ⟨hstored, hnone⟩
  refine Traced.bind (R := fun _ _ => True) (Traced.tryCatch ?_ fun _ _ => traced_other only_fail)
    fun response t₁ _ => ?_
  · refine Traced.bind_done fun request hrequest => Traced.perform ?_ fun _ => trivial
    exact ⟨⟨authorization, hauthorization, hrequest⟩, hstored, hnone⟩
  · refine Traced.bind (traced_other (Only.tryCatch only_replace fun _ => only_fail))
      fun _ _ _ => ?_
    refine Traced.bind (traced_other (Only.tryCatch only_replace fun _ => only_fail))
      fun _ _ _ => ?_
    exact Traced.pure trivial

/-- Below the component, it has stopped in the execution system. -/
theorem stop_component {asked : GatewayCall Key}
    {k : Except Failure asked.Answer → PathProgram Key RuntimeContext}
    (h : Steps ((ExecutionComponent.execute path.drawn context).expand path.ofExecution) t
      (.call (.gateway asked) k)) :
    ∃ t₀ t₁ request k₁, t = t₀.map ofExecutionEvent ++ t₁ ∧
      AtSystem context t₀ (.executeSystem request) ∧
      Steps (path.executeSystem request) t₁ (.call (.gateway asked) k₁) := by
  obtain ⟨t₀, t₁, t₂, inner, k₀, k₁, rfl, houter, hexpands, hinner⟩ := steps_expand h
  by_cases hsystem : ∀ request, inner ≠ .executeSystem request
  · rw [ofExecution_eq hsystem] at hinner
    cases (steps_perform hinner).1
  · obtain ⟨request, hrequest⟩ := not_forall.mp hsystem
    obtain rfl := not_not.mp hrequest
    have hat : AtSystem context t₀ (.executeSystem request) :=
      pre_of_steps (component_traced path.drawn) houter
    refine ⟨t₀, t₂, request, k₁, ?_, hat, hinner⟩
    rw [hexpands.eq_map fun e he t₁ hrun => ?_]
    rw [ofExecution_eq (hat.2.2 e he)] at hrun
    exact runs_perform.mp hrun

/-- In the execution system the gateway has stopped. -/
theorem stop_system {asked : GatewayCall Key}
    {k : Except Failure asked.Answer → PathProgram Key ExecutionResult}
    (h : Steps (path.executeSystem request) t (.call (.gateway asked) k)) :
    ∃ t₀ k₀, t = t₀.map ofGatewayEvent ∧
      Steps (path.gateway.execute path.dateParse path.sha256 request) t₀ (.call asked k₀) := by
  rcases steps_bind h with ⟨k', hstop⟩ | ⟨answer, t₁, t₂, rfl, -, hstop⟩
  · obtain ⟨t₀, t₁, t₂, inner, k₀, k₁, rfl, houter, hexpands, hinner⟩ := steps_expand hstop
    obtain ⟨hsame, rfl⟩ := steps_perform hinner
    cases hsame
    refine ⟨t₀, k₀, ?_, houter⟩
    rw [List.append_nil, hexpands.eq_map fun e _ t₁ hrun => ?_]
    exact runs_perform.mp hrun
  · cases hstop

/-- **Where the gateway has stopped, so have the three**: the runtime in its pipeline, the
component in the execution system, and the gateway. -/
theorem stop_release {asked : GatewayCall Key}
    {k : Except Failure asked.Answer → PathProgram Key (RuntimeContext × ExecutionTrustRecord)}
    (h : Steps (path.execute config executionIntents transaction) t (.call (.gateway asked) k)) :
    ∃ t₀ t₁ t₂ context request k₀ k₁,
      t = t₀.map ofRuntimeEvent ++ (t₁.map ofExecutionEvent ++ t₂.map ofGatewayEvent) ∧
      Steps (Runtime.execute config executionIntents transaction) t₀
        (.call (.executePipeline context) k₀) ∧
      AtSystem context t₁ (.executeSystem request) ∧
      Steps (path.gateway.execute path.dateParse path.sha256 request) t₂ (.call asked k₁) := by
  obtain ⟨t₀, t₁, context, k₀, k₁, rfl, hruntime, -, hpipeline⟩ := stop_execute (gateway_ne asked) h
  obtain ⟨-, k₂, hcomponent⟩ := stop_pipeline hpipeline
  obtain ⟨t₂, t₃, request, k₃, rfl, hat, hsystem⟩ := stop_component hcomponent
  obtain ⟨t₄, k₄, rfl, hgateway⟩ := stop_system hsystem
  exact ⟨t₀, t₂, t₄, context, request, k₀, k₄, rfl, hruntime, hat, hgateway⟩

/-! ## At the pipeline -/

/-- The intent of a context is stored: that of its authorization, for its content. -/
def Intended (context : RuntimeContext) (t : List RuntimeEvent) : Prop :=
  ∃ intent authorization, context.authorization = some authorization ∧
    ⟨.createIntent intent, .ok ()⟩ ∈ t ∧
    intent.businessTransactionId = context.businessTransactionId ∧
    intent.authorizationId = authorization.payload.authorizationId ∧
    intent.businessTransactionHash = authorization.payload.businessTransactionHash

/-- The obligation at the pipeline: where intents are kept, that of the context is stored. -/
def WhenIntended (config : RuntimeConfig) (t : List RuntimeEvent) (asked : RuntimeCall) : Prop :=
  ∀ context, asked = .executePipeline context → config.executionIntents = true →
    Intended context t

theorem whenIntended_of_not_release {t : List RuntimeEvent} {asked : RuntimeCall}
    (h : asked.isRelease = false) : WhenIntended config t asked := by
  rintro context rfl
  cases h

theorem only_intended {α : Type} {p : RuntimeProgram α} {t : List RuntimeEvent}
    (h : p.Only fun asked => asked.isRelease = false) :
    Traced (WhenIntended config) p (fun _ _ => True) t :=
  h.traced fun _ _ hasked => whenIntended_of_not_release hasked

theorem intended_of_prepare {t : List RuntimeEvent}
    (h : Runs (ExecutionIntentService.prepare context) t (.ok ())) : Intended context t := by
  rcases runs_tryCatch.mp h with ⟨_, hprepare, -⟩ | ⟨_, _, _, -, -, hthrow⟩
  · obtain ⟨intent, t₁, t₂, rfl, hbuild, hcreate⟩ := runs_bind_ok.mp hprepare
    unfold ExecutionIntentBuilder.build at hbuild
    split at hbuild
    · cases (runs_done.mp hbuild).2
    rename_i authorization hauthorization
    obtain ⟨createdAt, _, _, rfl, -, hbuild⟩ := runs_bind_ok.mp hbuild
    obtain ⟨intentId, _, _, rfl, -, hbuild⟩ := runs_bind_ok.mp hbuild
    obtain ⟨sealing, _, _, rfl, -, hbuild⟩ := runs_bind_ok.mp hbuild
    cases (runs_done.mp hbuild).2
    exact ⟨_, authorization, hauthorization, List.mem_append_right _ (mem_of_perform hcreate), rfl,
      rfl, rfl⟩
  · obtain ⟨_, _, _, -, -, hthrow⟩ := runs_bind_ok.mp hthrow
    cases (runs_done.mp hthrow).2

/-- **The intent is stored before the pipeline is called.** -/
theorem release_intended {t : List RuntimeEvent} :
    Traced (WhenIntended config) (RuntimeEngine.release config context) (fun _ _ => True) t := by
  unfold RuntimeEngine.release
  refine Traced.bind (only_intended (only_whenConfigured (only_perform.mpr rfl))) fun _ t₁ _ => ?_
  refine Traced.bind (R := fun _ t' => config.executionIntents = true → Intended context t') ?_
    fun _ t₂ hintended => ?_
  · unfold RuntimeProgram.whenConfigured
    split
    · refine Only.traced_runs (straight_prepare (fun _ ho => RuntimeCall.not_release_of_preparing
        (RuntimeCall.isPreparing_of_ordinary ho)) (fun _ => rfl) context).only
        (fun _ _ hasked => whenIntended_of_not_release hasked) fun t' _ hrun _ => ?_
      obtain ⟨intent, authorization, hauthorization, hmem, hrest⟩ := intended_of_prepare hrun
      exact ⟨intent, authorization, hauthorization, List.mem_append_right _ hmem, hrest⟩
    · rename_i hoff
      exact Traced.pure fun hon => absurd hon hoff
  have hpipeline : WhenIntended config t₂ (.executePipeline context) := by
    rintro _ ⟨⟩ hon
    exact hintended hon
  refine Traced.bind (Traced.tryCatch (R := fun _ _ => True)
    (Traced.perform hpipeline fun _ => trivial) fun error t₃ => ?_) fun processed t₃ _ => ?_
  · exact Traced.bind (only_intended (only_whenConfigured (only_markErrored fun _ => rfl)))
      fun _ _ _ => Traced.bind_done fun _ _ => Traced.throw
  refine Traced.bind (only_intended (only_whenConfigured (only_markReleased rfl fun _ => rfl)))
    fun _ t₄ _ => ?_
  refine Traced.bind (only_intended ((plain_recordExecution processed).only.mono
    fun _ ho => RuntimeCall.not_release_of_preparing (RuntimeCall.isPreparing_of_ordinary ho)))
    fun _ _ _ => Traced.pure trivial

theorem engine_intended : Traced (WhenIntended config) (RuntimeEngine.execute config transaction)
    (fun _ _ => True) [] := by
  refine Traced.bind (only_intended (only_prepareExecution.mono fun _ h => h.1))
    fun context t₁ _ => Traced.tryCatch release_intended fun error t₂ => ?_
  exact Traced.bind (only_intended (only_hooks fun _ => rfl)) fun _ _ _ => Traced.throw

/-- The pipeline is called by the engine. -/
theorem stop_engine {t : List RuntimeEvent}
    {k : Except Failure RuntimeContext → RuntimeProgram (RuntimeContext × ExecutionTrustRecord)}
    (h : Steps (Runtime.execute config executionIntents transaction) t
      (.call (.executePipeline context) k)) :
    ∃ k', Steps (RuntimeEngine.execute config transaction) t
      (.call (.executePipeline context) k') := by
  rcases steps_bind h with hstop | ⟨⟨returned, record⟩, t₁, t₂, rfl, -, hstop⟩
  · exact hstop
  · have hnone : Traced (fun _ asked => asked.isRelease = false)
        (Runtime.finish executionIntents returned record) (fun _ _ => True) [] :=
      only_finish.traced fun _ _ h => h.1
    cases pre_of_steps hnone hstop

/-! ## At the gateway -/

variable {g : ExecutionGateway Key} {dateParse : JsString → Option Int}
  {sha256 : List UInt8 → JsString}

/-- The gateway hands on what it has just verified, and nothing before. -/
theorem stop_gateway {released : Release} {t : List (GatewayEvent Key)}
    {k : Except Failure Json → GatewayProgram Key Json}
    (h : Steps (g.execute dateParse sha256 request) t (.call (.release released) k)) :
    (∃ now t₁ result, t = ⟨.now, .ok now⟩ :: t₁ ∧
      Runs (g.verify dateParse sha256 request now) t₁ (.ok (result, released.content)) ∧
      result.valid = true ∧ released.authorization = request.authorization) ∧
    (∃ ans : Answers Key, Interaction.Program.Answered ans t) ∧
      ∀ e ∈ t, ∀ released', e.1 ≠ .release released' := by
  obtain ⟨t', r, hrun⟩ := (h.append (.call (.refl (k (.error default))))).exists_run
  rw [List.append_assoc] at hrun
  -- the calls of a run are ranked, and a release is the only one of its rank
  have hpairwise := (execute_ascends.pairwise hrun).1
  rw [List.map_append, List.pairwise_append, List.map_append, List.pairwise_append] at hpairwise
  have hbefore : ∀ e ∈ t, ∀ released', e.1 ≠ .release released' := by
    rintro ⟨asked, answer⟩ he released' rfl
    exact absurd (hpairwise.2.2 _ (List.mem_map_of_mem he) _
      (List.mem_append_left _ (List.mem_singleton_self _))) (Nat.lt_irrefl _)
  have hafter : ⟨.release released, .error default⟩ ∉ t' := fun he =>
    absurd (hpairwise.2.1.2.2 _ (List.mem_singleton_self _) _ (List.mem_map_of_mem he))
      (Nat.lt_irrefl _)
  obtain ⟨now, t₁, result, heq, hverify, hvalid, hauthorization⟩ := execute_released hrun
    (List.mem_append_right _ (List.mem_append_left _ (List.mem_singleton_self _)))
  have hsplit :=
    (List.append_cons_inj_of_notMem (fun he => hbefore _ he released rfl) hafter).mp heq
  obtain ⟨ans, hans, -⟩ := execute_ascends.answered hrun
  exact ⟨⟨now, t₁, result, hsplit.1, hverify, hvalid, hauthorization⟩, ⟨ans, hans.append_left⟩,
    hbefore⟩

end Stop

/-! ## What has come before a release -/

/-- The events of the runtime, and those of the gateway. -/
def runtimeEvents (t : List (PathEvent Key)) : List RuntimeEvent :=
  t.filterMap fun
    | ⟨.runtime asked, answer⟩ => some ⟨asked, answer⟩
    | _ => none

def gatewayEvents (t : List (PathEvent Key)) : List (GatewayEvent Key) :=
  t.filterMap fun
    | ⟨.gateway asked, answer⟩ => some ⟨asked, answer⟩
    | _ => none

@[simp] theorem runtimeEvents_append (t t' : List (PathEvent Key)) :
    runtimeEvents (t ++ t') = runtimeEvents t ++ runtimeEvents t' := List.filterMap_append ..

@[simp] theorem gatewayEvents_append (t t' : List (PathEvent Key)) :
    gatewayEvents (t ++ t') = gatewayEvents t ++ gatewayEvents t' := List.filterMap_append ..

@[simp] theorem runtimeEvents_runtime (t : List RuntimeEvent) :
    runtimeEvents (t.map ofRuntimeEvent : List (PathEvent Key)) = t := by
  unfold runtimeEvents
  rw [List.filterMap_map]
  exact List.filterMap_some

@[simp] theorem runtimeEvents_execution (t : List ExecutionEvent) :
    runtimeEvents (t.map ofExecutionEvent : List (PathEvent Key)) = [] := by
  unfold runtimeEvents
  rw [List.filterMap_map]
  exact List.filterMap_none t

@[simp] theorem runtimeEvents_gateway (t : List (GatewayEvent Key)) :
    runtimeEvents (t.map ofGatewayEvent) = [] := by
  unfold runtimeEvents
  rw [List.filterMap_map]
  exact List.filterMap_none t

@[simp] theorem gatewayEvents_runtime (t : List RuntimeEvent) :
    gatewayEvents (t.map ofRuntimeEvent : List (PathEvent Key)) = [] := by
  unfold gatewayEvents
  rw [List.filterMap_map]
  exact List.filterMap_none t

@[simp] theorem gatewayEvents_execution (t : List ExecutionEvent) :
    gatewayEvents (t.map ofExecutionEvent : List (PathEvent Key)) = [] := by
  unfold gatewayEvents
  rw [List.filterMap_map]
  exact List.filterMap_none t

@[simp] theorem gatewayEvents_gateway (t : List (GatewayEvent Key)) :
    gatewayEvents (t.map ofGatewayEvent) = t := by
  unfold gatewayEvents
  rw [List.filterMap_map]
  exact List.filterMap_some

/-- Everything a release rests on has come before it. -/
structure Mediated (path : ReleasePath Key) (config : RuntimeConfig)
    (transaction : BusinessTransaction) (t : List (PathEvent Key)) (released : Release) : Prop where
  /-- One policy was loaded, every configured check of it passed, and it approved. -/
  cleared : Cleared config transaction (runtimeEvents t)
  /-- What is handed on is what an authorization was asked for, with that authorization; and
  where intents are kept, the intent is stored. -/
  granted : ∃ (grant : Grant) (context : RuntimeContext),
    grant.Made config transaction context (runtimeEvents t) ∧
    released.content = grant.content ∧ released.authorization = grant.authorization ∧
    (config.executionIntents = true → Intended context (runtimeEvents t))
  /-- The execution is stored as `PROCESSING`. -/
  stored : ∃ execution, ⟨.execution (.appendExecution execution), .ok ()⟩ ∈ t ∧
    execution.status = .processing ∧
    execution.businessTransactionId = transaction.businessTransactionId
  /-- Every check of the gateway passes, as its collaborators have answered. -/
  verified : ∃ request now ans, request.authorization = released.authorization ∧
    ⟨.gateway .now, .ok now⟩ ∈ t ∧ Interaction.Program.Answered ans (gatewayEvents t) ∧
    path.gateway.Passes path.dateParse path.sha256 ans request now released.content
  /-- The nonce of the authorization is used up. -/
  consumed : ⟨.gateway (nonceCall released.authorization), .ok true⟩ ∈ t
  /-- Nothing was handed on before. -/
  first : ∀ e ∈ t, ∀ released', e.1 ≠ .gateway (.release released')

/-- **Nothing is handed to the connector that the run was not cleared for**: in every run from
the request on, however its calls are answered, whenever the gateway hands something on, that
rests on what came before. -/
theorem execute_mediated (path : ReleasePath Key) (config : RuntimeConfig)
    (executionIntents : Bool) (transaction : BusinessTransaction) {released : Release}
    {k : Except Failure Json → PathProgram Key (RuntimeContext × ExecutionTrustRecord)}
    (h : Steps (path.execute config executionIntents transaction) t
      (.call (.gateway (.release released)) k)) : path.Mediated config transaction t released := by
  obtain ⟨t₀, t₂, t₄, context, request, k₀, k₁, rfl, hruntime, hat, hgateway⟩ := stop_release h
  obtain ⟨⟨now, t₅, result, rfl, hverify, hvalid, hauthorization⟩, ⟨ans, hans⟩, hfirst⟩ :=
    stop_gateway hgateway
  obtain ⟨⟨authorization, hauthorized, hbuild⟩, ⟨execution, happended, hstatus, hid⟩, hsole⟩ := hat
  obtain ⟨k', hengine⟩ := stop_engine hruntime
  obtain ⟨grant, hmade⟩ := grant_of_release hengine
  have hpasses : path.gateway.Passes path.dateParse path.sha256 ans request now released.content :=
    verify_valid hverify hvalid fun e he => hans e (List.mem_cons_of_mem _ he)
  -- the component asks for what the grant was made for
  obtain rfl : grant.authorization = authorization :=
    Option.some.inj (hmade.authorization.symm.trans hauthorized)
  obtain ⟨request', hbuild', hcontent, -, hrequest⟩ := request_of_grant hmade
  obtain rfl : request' = request := Except.ok.inj (hbuild'.symm.trans hbuild)
  have hevents : runtimeEvents (t₀.map ofRuntimeEvent ++ (t₂.map ofExecutionEvent ++
      ((⟨.now, .ok now⟩ :: t₅).map ofGatewayEvent : List (PathEvent Key)))) = t₀ := by
    rw [runtimeEvents_append, runtimeEvents_append, runtimeEvents_runtime, runtimeEvents_execution,
      runtimeEvents_gateway, List.append_nil, List.append_nil]
  have hgatewayEvents : gatewayEvents (t₀.map ofRuntimeEvent ++ (t₂.map ofExecutionEvent ++
      ((⟨.now, .ok now⟩ :: t₅).map ofGatewayEvent : List (PathEvent Key)))) =
      ⟨.now, .ok now⟩ :: t₅ := by
    rw [gatewayEvents_append, gatewayEvents_append, gatewayEvents_runtime, gatewayEvents_execution,
      gatewayEvents_gateway, List.nil_append, List.nil_append]
  refine ⟨?_, ⟨grant, context, ?_, ?_, hauthorization.trans hrequest, ?_⟩, ?_, ?_, ?_, ?_⟩
  · rw [hevents]
    have hcleared : WhenCleared config transaction t₀ (.executePipeline context) :=
      pre_of_steps execute_traced hengine
    exact (hcleared rfl).1
  · rw [hevents]
    exact hmade
  · exact Except.ok.inj (hpasses.wellFormed.symm.trans hcontent)
  · rw [hevents]
    exact fun hon => pre_of_steps engine_intended hengine context rfl hon
  · refine ⟨execution, ?_, hstatus, ?_⟩
    · exact List.mem_append_right _ (List.mem_append_left _ (List.mem_map_of_mem happended))
    · rw [hid, hmade.transaction]
      rfl
  · refine ⟨request', now, ans, hauthorization.symm, ?_, ?_, hpasses⟩
    · exact List.mem_append_right _ (List.mem_append_right _ List.mem_cons_self)
    · rw [hgatewayEvents]
      exact hans
  · have hused : ⟨nonceCall request'.authorization, .ok true⟩ ∈ t₅ :=
      (verify_flags hverify).2.mp hvalid
    rw [hauthorization]
    exact List.mem_append_right _ (List.mem_append_right _ (List.mem_cons_of_mem _
      (List.mem_map_of_mem hused)))
  · rintro e he released' heq
    rcases List.mem_append.mp he with he | he
    · obtain ⟨e₀, -, rfl⟩ := List.mem_map.mp he
      cases heq
    · rcases List.mem_append.mp he with he | he
      · obtain ⟨e₀, -, rfl⟩ := List.mem_map.mp he
        cases heq
      · obtain ⟨e₀, he₀, rfl⟩ := List.mem_map.mp he
        exact hfirst e₀ he₀ released' (PathCall.gateway.inj heq)

/-! ## Whose transaction a run writes -/

/-- What the component owes when it stores an execution: it is of the transaction. -/
def OwnExecution (id : JsString) : ExecutionCall → Prop
  | .appendExecution execution | .replaceExecution execution => execution.businessTransactionId = id
  | _ => True

section Own
variable {id : JsString} {drawn : Drawn} {t : List ExecutionEvent}

/-- A replacement stores an execution of the same transaction, and returns one. -/
theorem traced_replace {original draft : ExecutionArtifact}
    (hdraft : draft.businessTransactionId = id) :
    Traced (fun _ => OwnExecution id) (ExecutionService.replace original draft)
      (fun updated _ => updated.businessTransactionId = id) t :=
  Traced.bind_perform trivial fun _ => Traced.bind_perform hdraft fun _ => Traced.pure hdraft

theorem traced_orFail {α : Type} {execution : ExecutionArtifact} {p : ExecutionProgram α}
    {R : α → List ExecutionEvent → Prop} (hexecution : execution.businessTransactionId = id)
    (h : Traced (fun _ => OwnExecution id) p R t) :
    Traced (fun _ => OwnExecution id) (ExecutionComponent.orFail drawn execution p) R t :=
  Traced.tryCatch h fun _ _ => Traced.bind (traced_replace hexecution) fun _ _ _ => Traced.throw

/-- **The component stores executions of the transaction only.** -/
theorem component_owns {context : RuntimeContext} :
    Traced (fun _ => OwnExecution context.transaction.businessTransactionId)
      (ExecutionComponent.execute drawn context) (fun _ _ => True) t := by
  unfold ExecutionComponent.execute
  split
  · exact Traced.throw
  refine Traced.bind (R := fun execution _ => execution.businessTransactionId =
    context.transaction.businessTransactionId) ?_ fun execution t₁ hexecution => ?_
  · refine Traced.bind_perform trivial fun found => ?_
    dsimp only
    split
    · exact Traced.throw
    · exact Traced.bind_perform trivial fun chain => Traced.bind_perform rfl fun _ =>
        Traced.pure rfl
  refine Traced.bind (traced_orFail (R := fun _ _ => True) hexecution
    (Traced.bind_done fun request _ => Traced.perform trivial fun _ => trivial))
    fun response t₂ _ => ?_
  refine Traced.bind (traced_orFail hexecution (traced_replace hexecution))
    fun attached t₃ hattached => ?_
  exact Traced.bind (traced_orFail hattached (traced_replace hattached)) fun _ _ _ =>
    Traced.pure trivial

end Own

/-- The pipeline gives back the transaction it was given. -/
theorem pipeline_returns (path : ReleasePath Key) {context : RuntimeContext} :
    (path.pipeline context).Returns
      fun processed => processed.transaction = context.transaction := by
  have hcomponent : ∀ context : RuntimeContext,
      (ExecutionComponent.execute path.drawn context).Returns
        fun processed => processed.transaction = context.transaction := by
    intro context
    unfold ExecutionComponent.execute
    split
    · exact returns_throw
    · exact Returns.bind fun _ => Returns.bind fun _ => Returns.bind fun _ => Returns.bind fun _ =>
        returns_pure rfl
  refine Returns.bind_of (Q := fun context' => context' = context) (fun context' h => ?_)
    fun context' h => ?_
  · exact (execute_ok h).1
  · rw [h]
    exact (hcomponent context).expand

/-- The pipeline makes no call of the runtime. -/
theorem only_pipeline {context : RuntimeContext} :
    (path.pipeline context).Only fun op => ∀ asked, op ≠ .runtime asked := by
  refine Only.bind only_done fun context => only_any.expand fun asked _ => ?_
  cases asked with
  | executeSystem request =>
    exact Only.bind (only_any.expand fun asked _ => only_perform.mpr (gateway_ne asked))
      fun _ => only_done
  | _ => exact only_perform.mpr (execution_ne _)

theorem only_executeSystem (request : ExecutionRequest) :
    (path.executeSystem request).Only fun op => ∀ asked, op ≠ .execution asked := by
  refine Only.bind (only_any.expand fun asked _ => only_perform.mpr ?_) fun _ => only_done
  rintro asked' ⟨⟩

/-- The gateway reads the content of the transaction. -/
theorem content_of_build {transaction : BusinessTransaction} {request : ExecutionRequest}
    {authorization : SignedExecutionAuthorization} {content : ExecutableContent}
    (hbuild : ExecutionRequestBuilder.build transaction authorization = .ok request)
    (hcontent : Gateway.toExecutableContent request = .ok content) :
    Parmana.toExecutableContent transaction = .ok content := by
  obtain ⟨built, hbuilt, hrequest⟩ := bind_eq_ok.mp hbuild
  cases hrequest
  unfold Gateway.toExecutableContent at hcontent
  split at hcontent
  · cases hcontent
  · cases hcontent
    exact hbuilt

/-- A call that writes nothing of another transaction, and hands on nothing but the content of
this one. -/
def OwnPathWrite (transaction : BusinessTransaction) : PathCall Key → Prop
  | .runtime asked => OwnWrite transaction asked
  | .execution asked => OwnExecution transaction.businessTransactionId asked
  | .gateway (.release released) =>
    Parmana.toExecutableContent transaction = .ok released.content
  | .gateway _ => True

section Writes
variable {config : RuntimeConfig} {executionIntents : Bool} {transaction : BusinessTransaction}

/-- The pipeline of a run is called with the transaction of the run. -/
theorem context_of_stop {t : List RuntimeEvent} {context : RuntimeContext}
    {k : Except Failure RuntimeContext → RuntimeProgram (RuntimeContext × ExecutionTrustRecord)}
    (h : Steps (Runtime.execute config executionIntents transaction) t
      (.call (.executePipeline context) k)) :
    context.transaction.businessTransactionId = transaction.businessTransactionId ∧
      Parmana.toExecutableContent context.transaction =
        Parmana.toExecutableContent transaction := by
  obtain ⟨k', hengine⟩ := stop_engine h
  obtain ⟨grant, hmade⟩ := grant_of_release hengine
  rw [hmade.transaction]
  exact ⟨rfl, rfl⟩

/-- What a run calls of the runtime is called by its own program, and the pipeline has given
back what it was given each time. -/
theorem stop_runtime {asked : RuntimeCall}
    {k : Except Failure asked.Answer → PathProgram Key (RuntimeContext × ExecutionTrustRecord)}
    (h : Steps (path.execute config executionIntents transaction) t (.call (.runtime asked) k)) :
    ∃ t₀ k₀, Steps (Runtime.execute config executionIntents transaction) t₀ (.call asked k₀) ∧
      GivesBack t₀ := by
  obtain ⟨t₀, t₁, t₂, outer, k₀, k₁, rfl, houter, hexpands, hinner⟩ := steps_expand h
  have hgives : GivesBack t₀ := by
    intro context processed hmem
    obtain ⟨t₃, -, hrun⟩ := hexpands.mem hmem
    exact (path.pipeline_returns).of_runs hrun
  by_cases hrelease : outer.isRelease = false
  · rw [ofRuntime_eq hrelease] at hinner
    cases (steps_perform hinner).1
    exact ⟨t₀, k₀, houter, hgives⟩
  · cases outer with
    | executePipeline context =>
      have hnone : Traced (fun _ op => ∀ asked, op ≠ .runtime asked) (path.pipeline context)
          (fun _ _ => True) [] := only_pipeline.traced fun _ _ h => h
      exact absurd rfl (pre_of_steps hnone hinner asked)
    | _ => exact absurd rfl hrelease

/-- **A run writes under its own transaction only**, wherever it stops and however its calls
are answered: the runtime's records, the executions, and what is handed on. -/
theorem execute_writes_its_own (path : ReleasePath Key) (config : RuntimeConfig)
    (executionIntents : Bool) (transaction : BusinessTransaction) (t : List (PathEvent Key))
    {q : PathProgram Key (RuntimeContext × ExecutionTrustRecord)}
    (h : Steps (path.execute config executionIntents transaction) t q) :
    ∀ e ∈ t, OwnPathWrite transaction e.1 := by
  rintro ⟨op, answer⟩ he
  obtain ⟨t₁, t₂, rfl⟩ := List.append_of_mem he
  obtain ⟨k, hstop⟩ := Steps.split h
  cases op with
  | runtime asked =>
    obtain ⟨t₀, k₀, houter, hgives⟩ := stop_runtime hstop
    -- the call can be answered with an error, which gives nothing back
    have hnext := houter.append (.call (.refl (k₀ (.error default))))
    refine Runtime.writes_its_own hnext ?_ _ (List.mem_append_right _ (List.mem_singleton_self _))
    intro context processed hmem
    rcases List.mem_append.mp hmem with hmem | hmem
    · exact hgives context processed hmem
    · cases List.mem_singleton.mp hmem
  | execution asked =>
    obtain ⟨t₀, t₃, context, k₀, k₁, rfl, hruntime, -, hpipeline⟩ :=
      stop_execute (execution_ne asked) hstop
    obtain ⟨-, k₂, hcomponent⟩ := stop_pipeline hpipeline
    obtain ⟨t₄, t₅, t₆, outer, k₃, k₄, rfl, houter, -, hinner⟩ := steps_expand hcomponent
    have howns : OwnExecution context.transaction.businessTransactionId outer :=
      pre_of_steps component_owns houter
    rw [(context_of_stop hruntime).1] at howns
    by_cases hsystem : ∀ request, outer ≠ .executeSystem request
    · rw [ofExecution_eq hsystem] at hinner
      cases (steps_perform hinner).1
      exact howns
    · obtain ⟨request, hrequest⟩ := not_forall.mp hsystem
      obtain rfl := not_not.mp hrequest
      have hgateway : Traced (fun _ op => ∀ asked', op ≠ PathCall.execution asked')
          (path.executeSystem request) (fun _ _ => True) [] :=
        (only_executeSystem request).traced fun _ _ h => h
      exact absurd rfl (pre_of_steps hgateway hinner asked)
  | gateway asked =>
    cases asked with
    | release released =>
      obtain ⟨t₀, t₃, t₄, context, request, k₀, k₁, -, hruntime, hat, hgateway⟩ :=
        stop_release hstop
      obtain ⟨⟨now, t₅, result, rfl, hverify, hvalid, -⟩, ⟨ans, hans⟩, -⟩ := stop_gateway hgateway
      have hpasses := verify_valid hverify hvalid fun e he => hans e (List.mem_cons_of_mem _ he)
      obtain ⟨⟨authorization, -, hbuild⟩, -⟩ := hat
      show Parmana.toExecutableContent transaction = .ok released.content
      rw [← (context_of_stop hruntime).2]
      exact content_of_build hbuild hpasses.wellFormed
    | _ => trivial

end Writes

/-! ## The sample request, carried out -/

namespace Built

/-- A gateway that binds policies, and a digest that is the same for all. -/
def releasePath : ReleasePath JsString where
  gateway := Parmana.Sample.gateway DEFAULT_MAX_TTL_SECONDS
  dateParse := Parmana.Sample.dates
  sha256 _ := "hash"
  readResult _ := ⟨"tx-1", "refund", "order-7", [], true, Parmana.Sample.newYear, none⟩
  drawn := ⟨"execution-1", 0, 1, 2⟩
  authority := true
  authorization := true

/-- An authorization for the content the signer is given, with its digest. -/
def authorization (input : AuthorizationInput) : SignedExecutionAuthorization :=
  let signed := Parmana.Sample.authorization input
  { signed with payload := { signed.payload with businessTransactionHash := "hash" } }

/-- Collaborators that do what they are asked and find nothing to refuse. -/
def answer : (asked : PathCall JsString) → Except Failure asked.Answer
  | .runtime (.signAuthorization input _) => .ok (authorization input)
  | .runtime asked => Parmana.Sample.answer asked
  | .execution (.findTransaction _) => .ok true
  | .execution (.chain ..) => .ok ⟨none, "chain", ⟨"Ed25519", "default", "signature".toList⟩⟩
  | .execution (.appendExecution _) | .execution (.replaceExecution _) => .ok ()
  | .execution (.executeSystem _) => .error (.error "not called")
  | .gateway (.verifySignature ..) => .ok true
  | .gateway asked => Parmana.Sample.gatewayAnswer asked

/-- The events of the sample request. -/
def events : List (PathEvent JsString) :=
  (releasePath.execute Parmana.Sample.config true Parmana.Sample.transaction).events
    (fun asked (_ : Unit) => (answer asked, ())) ()

/-- The gateway hands something on. -/
def isHandedOn : PathCall JsString → Bool
  | .gateway (.release _) => true
  | _ => false

/-- The record is stored at the end. -/
def isRecorded : PathCall JsString → Bool
  | .runtime (.createTrustRecord _) => true
  | _ => false

end Built

/-- The sample request reaches the connector, and what is handed on is cleared. -/
theorem sample_mediated : ∃ t released k,
    Steps (Built.releasePath.execute Parmana.Sample.config true Parmana.Sample.transaction) t
      (.call (.gateway (.release released)) k) ∧
    Built.releasePath.Mediated Parmana.Sample.config Parmana.Sample.transaction t released := by
  obtain ⟨op, k, hop, hs⟩ := (runs_events (fun asked (_ : Unit) => (Built.answer asked, ()))
    (Built.releasePath.execute Parmana.Sample.config true Parmana.Sample.transaction)
      ()).split_first (S := Built.isHandedOn) (by decide)
  cases op with
  | gateway asked =>
    cases asked with
    | release released => exact ⟨_, released, k, hs, Built.releasePath.execute_mediated _ _ _ hs⟩
    | _ => cases hop
  | _ => cases hop

/-- It is recorded, and has written of its own transaction only. -/
theorem sample_path_owned : Built.events.any (fun e => Built.isRecorded e.1) = true ∧
    ∀ e ∈ Built.events, OwnPathWrite Parmana.Sample.transaction e.1 :=
  ⟨by decide,
    Built.releasePath.execute_writes_its_own _ true _ _ (runs_events _ _ ())⟩

end ReleasePath
end Parmana

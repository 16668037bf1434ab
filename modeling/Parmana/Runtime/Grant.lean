import Parmana.Runtime.PolicyChecks

/-! # What a release is granted on

A context that reaches the pipeline carries an authorization, and what the
authorization was asked for can be read off the events before it: the policy that was
loaded and its hash, the signals and theirs, and the content of the transaction.  A
`Grant` is these values, and `Grant.Made` says that a run made it: every run that
reaches the pipeline has made the grant its context holds (`grant_of_release`).
-/
namespace Parmana
open Js Policy Interaction Interaction.Program RuntimeProgram

/-! ## Grants -/

/-- What an authorization is asked for, and the answer. -/
structure Grant where
  policy : Json
  policyContentHash : JsString
  signalsHash : JsString
  content : ExecutableContent
  decision : Decision
  anchor : Option PolicyGovernanceAnchor
  authorization : SignedExecutionAuthorization

/-- The events of a run made the grant, and its context holds it. -/
structure Grant.Made (grant : Grant) (config : RuntimeConfig) (transaction : BusinessTransaction)
    (context : RuntimeContext) (t : List RuntimeEvent) : Prop where
  loaded : ⟨.loadPolicy transaction.policy.name transaction.policy.version, .ok grant.policy⟩ ∈ t
  policyHash : ⟨.hash grant.policy, .ok grant.policyContentHash⟩ ∈ t
  signalsHash : ⟨.hash (.obj transaction.presentedSignals), .ok grant.signalsHash⟩ ∈ t
  content : toExecutableContent transaction = .ok grant.content
  signed : ⟨.signAuthorization (RuntimeEngine.authorizationInput transaction grant.decision
    grant.policyContentHash grant.signalsHash grant.content) config.authorizationTtlSeconds,
      .ok grant.authorization⟩ ∈ t
  transaction : context.transaction =
    RuntimeEngine.recordedTransaction transaction grant.policyContentHash grant.anchor
  authorization : context.authorization = some grant.authorization

section Runs
variable {config : RuntimeConfig} {transaction : BusinessTransaction} {context : RuntimeContext}
  {t : List RuntimeEvent}

theorem Grant.Made.mono {grant : Grant} {t' : List RuntimeEvent}
    (h : grant.Made config transaction context t) (ht : t ⊆ t') :
    grant.Made config transaction context t' :=
  ⟨ht h.loaded, ht h.policyHash, ht h.signalsHash, h.content, ht h.signed, h.transaction,
    h.authorization⟩

/-- A call that succeeded is among the events. -/
theorem mem_of_perform {call : RuntimeCall} {a : call.Answer}
    (h : Runs (ask call) t (.ok a)) : ⟨call, .ok a⟩ ∈ t := by
  rw [runs_perform.mp h]
  exact List.mem_singleton.mpr rfl

theorem loadPolicy_events {policy : Json} {policyContentHash : JsString}
    (h : Runs (RuntimeEngine.loadPolicy config transaction) t (.ok (policy, policyContentHash))) :
    ⟨.loadPolicy transaction.policy.name transaction.policy.version, .ok policy⟩ ∈ t ∧
      ⟨.hash policy, .ok policyContentHash⟩ ∈ t := by
  obtain ⟨_, t₁, _, rfl, -, h⟩ := runs_bind_ok.mp h
  obtain ⟨loaded, t₂, _, rfl, hload, h⟩ := runs_bind_ok.mp h
  obtain ⟨_, t₃, _, rfl, -, h⟩ := runs_bind_ok.mp h
  obtain ⟨text, t₄, t₅, rfl, hhash, h⟩ := runs_bind_ok.mp h
  obtain ⟨rfl, hloaded⟩ := runs_done.mp h
  cases hloaded
  obtain ⟨answer, t₆, _, rfl, hask, hload⟩ := runs_bind_ok.mp hload
  obtain ⟨_, t₇, _, rfl, -, hload⟩ := runs_bind_ok.mp hload
  obtain ⟨_, t₈, _, rfl, -, hload⟩ := runs_bind_ok.mp hload
  cases (runs_done.mp hload).2
  have hanswer := mem_of_perform hask
  have htext := mem_of_perform hhash
  simp [hanswer, htext]

theorem authorize_events {policyDecision : PolicyDecision} {decision : Decision}
    {policyContentHash : JsString} {authorization : SignedExecutionAuthorization}
    (h : Runs (RuntimeEngine.authorize config transaction policyDecision decision
      policyContentHash) t (.ok authorization)) :
    ∃ signalsHash content, ⟨.hash (.obj transaction.presentedSignals), .ok signalsHash⟩ ∈ t ∧
      toExecutableContent transaction = .ok content ∧
      ⟨.signAuthorization (RuntimeEngine.authorizationInput transaction decision policyContentHash
        signalsHash content) config.authorizationTtlSeconds, .ok authorization⟩ ∈ t := by
  obtain ⟨_, t₁, _, rfl, -, h⟩ := runs_bind_ok.mp h
  obtain ⟨content, t₂, _, rfl, hcontent, h⟩ := runs_bind_ok.mp h
  obtain ⟨_, t₃, _, rfl, -, h⟩ := runs_bind_ok.mp h
  obtain ⟨signalsHash, t₄, _, rfl, hhash, h⟩ := runs_bind_ok.mp h
  obtain ⟨signed, t₅, _, rfl, hsign, h⟩ := runs_bind_ok.mp h
  obtain ⟨_, t₆, _, rfl, -, h⟩ := runs_bind_ok.mp h
  cases (runs_done.mp h).2
  have htext := mem_of_perform hhash
  have hsigned := mem_of_perform hsign
  exact ⟨signalsHash, content, by simp [htext], (runs_done.mp hcontent).2.symm, by simp [hsigned]⟩

/-- **What comes before the release makes the grant of its context.** -/
theorem grant_of_prepareExecution
    (h : Runs (RuntimeEngine.prepareExecution config transaction) t (.ok context)) :
    ∃ grant : Grant, grant.Made config transaction context t := by
  obtain ⟨⟨policy, policyContentHash⟩, t₁, _, rfl, hload, h⟩ := runs_bind_ok.mp h
  obtain ⟨anchor, t₂, _, rfl, -, h⟩ := runs_bind_ok.mp h
  obtain ⟨findings, t₃, _, rfl, -, h⟩ := runs_bind_ok.mp h
  obtain ⟨policyDecision, t₄, _, rfl, -, h⟩ := runs_bind_ok.mp h
  obtain ⟨decision, t₅, _, rfl, -, h⟩ := runs_bind_ok.mp h
  obtain ⟨_, t₆, _, rfl, -, h⟩ := runs_bind_ok.mp h
  obtain ⟨authorization, t₇, _, rfl, hauthorize, h⟩ := runs_bind_ok.mp h
  obtain ⟨execution, t₈, _, rfl, -, h⟩ := runs_bind_ok.mp h
  obtain ⟨_, t₉, _, rfl, -, h⟩ := runs_bind_ok.mp h
  obtain ⟨_, t₁₀, _, rfl, -, h⟩ := runs_bind_ok.mp h
  cases (runs_done.mp h).2
  obtain ⟨hloaded, hhash⟩ := loadPolicy_events hload
  obtain ⟨signalsHash, content, hsignals, hcontent, hsigned⟩ := authorize_events hauthorize
  exact ⟨⟨policy, policyContentHash, signalsHash, content, decision, anchor, authorization⟩,
    by simp [hloaded], by simp [hhash], by simp [hsignals], hcontent, by simp [hsigned], rfl, rfl⟩

/-- The obligation at the pipeline: the context it is given holds a grant. -/
def WhenGranted (config : RuntimeConfig) (transaction : BusinessTransaction)
    (t : List RuntimeEvent) (call : RuntimeCall) : Prop :=
  ∀ context, call = .executePipeline context →
    ∃ grant : Grant, grant.Made config transaction context t

theorem whenGranted_of_not_release {call : RuntimeCall} (h : call.isRelease = false) :
    WhenGranted config transaction t call := by
  rintro context rfl
  cases h

/-- Only the pipeline has an obligation. -/
theorem only_granted {α : Type} {p : RuntimeProgram α}
    (h : p.Only (fun call => call.isRelease = false)) :
    Traced (WhenGranted config transaction) p (fun _ _ => True) t :=
  Only.traced h (fun _ _ hcall => whenGranted_of_not_release hcall)

/-- The release changes nothing of what the context was granted on. -/
theorem release_granted (ht : ∃ grant : Grant, grant.Made config transaction context t) :
    Traced (WhenGranted config transaction) (RuntimeEngine.release config context)
      (fun _ _ => True) t := by
  have hkept : ∀ (t : List RuntimeEvent) (e : RuntimeEvent),
      (∃ grant : Grant, grant.Made config transaction context t) →
      ∃ grant : Grant, grant.Made config transaction context (t ++ [e]) :=
    fun t e ⟨grant, h⟩ => ⟨grant, h.mono (List.subset_append_left t [e])⟩
  unfold RuntimeEngine.release
  refine Traced.bind (Straight.traced (S := fun call => call.isRelease = false)
    (Q := fun t => ∃ grant : Grant, grant.Made config transaction context t)
    (straight_whenConfigured (straight_perform.mpr rfl)) (fun _ _ h _ => whenGranted_of_not_release h)
    (fun t call a _ h => hkept t _ h) ht) ?_
  intro _ t₁ h₁
  refine Traced.bind (Straight.traced (S := fun call => call.isRelease = false)
    (Q := fun t => ∃ grant : Grant, grant.Made config transaction context t)
    (straight_whenConfigured (straight_prepare
      (fun _ ho => RuntimeCall.not_release_of_preparing (RuntimeCall.isPreparing_of_ordinary ho))
      (fun _ => rfl) context)) (fun _ _ h _ => whenGranted_of_not_release h)
    (fun t call a _ h => hkept t _ h) h₁) ?_
  intro _ t₂ h₂
  have hpipeline : WhenGranted config transaction t₂ (.executePipeline context) := by
    rintro _ ⟨⟩
    exact h₂
  refine Traced.bind (Traced.tryCatch (R := fun _ _ => True)
    (Traced.perform hpipeline (fun _ => trivial)) ?_) ?_
  · intro error t₃
    exact Traced.bind (only_granted (only_whenConfigured (only_markErrored fun _ => rfl)))
      (fun _ _ _ => Traced.bind_done fun _ _ => Traced.throw)
  intro processedContext t₃ _
  refine Traced.bind (only_granted (only_whenConfigured (only_markReleased rfl fun _ => rfl))) ?_
  intro _ t₄ _
  refine Traced.bind (only_granted ((plain_recordExecution processedContext).only.mono
    fun _ ho => RuntimeCall.not_release_of_preparing (RuntimeCall.isPreparing_of_ordinary ho))) ?_
  exact fun _ _ _ => Traced.pure trivial

/-- **The context that is released holds a grant of its run.** -/
theorem grant_of_release
    {k : Except Failure RuntimeContext → RuntimeProgram (RuntimeContext × ExecutionTrustRecord)}
    (h : Steps (RuntimeEngine.execute config transaction) t (.call (.executePipeline context) k)) :
    ∃ grant : Grant, grant.Made config transaction context t := by
  have hgranted : Traced (WhenGranted config transaction)
      (RuntimeEngine.execute config transaction) (fun _ _ => True) [] := by
    unfold RuntimeEngine.execute
    refine Traced.bind (Only.traced_runs (R := fun context t =>
      ∃ grant : Grant, grant.Made config transaction context t)
      (only_prepareExecution.mono fun _ h => h.1) (fun _ _ h => whenGranted_of_not_release h)
      fun t context hrun => grant_of_prepareExecution hrun) ?_
    intro context t₁ h₁
    refine Traced.tryCatch (release_granted h₁) (fun error t₂ => ?_)
    exact Traced.bind (only_granted (only_hooks fun _ => rfl)) (fun _ _ _ => Traced.throw)
  exact pre_of_steps hgranted h context rfl

end Runs

end Parmana

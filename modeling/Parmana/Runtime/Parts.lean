import Parmana.Interaction.History
import Parmana.Runtime.Engine

/-! # The calls of each part of the engine

Which calls the parts of `RuntimeEngine.execute` can make, and which parts end at
the first call that fails.  What a module proves about a run rests on these facts
and on the few calls it cares about.
-/
namespace Parmana
open Js Policy Interaction Interaction.Program RuntimeProgram

/-! ## Kinds of calls -/

namespace RuntimeCall

def isPolicyLoad : RuntimeCall → Bool
  | .loadPolicy .. => true
  | _ => false

/-- The pipeline, which executes the action. -/
def isRelease : RuntimeCall → Bool
  | .executePipeline _ => true
  | _ => false

/-- The signer of authorizations and the pipeline. -/
def isAuthorizing : RuntimeCall → Bool
  | .signAuthorization .. | .executePipeline _ => true
  | _ => false

def isAnchorResolution : RuntimeCall → Bool
  | .resolveGovernanceAnchor .. => true
  | _ => false

/-- The recorder of refusals and the notifier of needed approvals. -/
def isRefusalEvidence : RuntimeCall → Bool
  | .randomUUID .refusalRecord | .seal (.refusal _) | .createRefusalRecord _ | .notify _ => true
  | _ => false

/-- The hooks that run on an error. -/
def isErrorHook : RuntimeCall → Bool
  | .hook _ (.onRuntimeError ..) => true
  | _ => false

/-- The calls that store an intent or take it through a release. -/
def isBookkeeping : RuntimeCall → Bool
  | .createIntent _ | .markReleased .. | .markFinalized .. => true
  | _ => false

/-- The calls that settle a transaction: its release has failed, a person closed it, its
record is there. -/
def isSettling : RuntimeCall → Bool
  | .markErrored .. | .markResolved .. | .createTrustRecord _ => true
  | _ => false

/-- What can be called while an action is released. -/
def isReleasing (call : RuntimeCall) : Bool := !call.isErrorHook && !call.isRefusalEvidence

/-- What can be called before the release. -/
def isPreparing (call : RuntimeCall) : Bool :=
  call.isReleasing && !call.isRelease && !call.isBookkeeping && !call.isSettling

/-- What every part can call: a call of none of these kinds. -/
def isOrdinary (call : RuntimeCall) : Bool :=
  call.isReleasing && !call.isPolicyLoad && !call.isAuthorizing && !call.isBookkeeping &&
    !call.isSettling

variable {call : RuntimeCall}

theorem isReleasing_iff :
    call.isReleasing ↔ call.isErrorHook = false ∧ call.isRefusalEvidence = false := by
  simp only [isReleasing, Bool.and_eq_true, Bool.not_eq_true']

theorem isPreparing_iff : call.isPreparing ↔
    call.isReleasing ∧ call.isRelease = false ∧ call.isBookkeeping = false ∧
      call.isSettling = false := by
  simp only [isPreparing, Bool.and_eq_true, Bool.not_eq_true', and_assoc]

theorem isOrdinary_iff : call.isOrdinary ↔ call.isReleasing ∧ call.isPolicyLoad = false ∧
    call.isAuthorizing = false ∧ call.isBookkeeping = false ∧ call.isSettling = false := by
  simp only [isOrdinary, Bool.and_eq_true, Bool.not_eq_true', and_assoc]

theorem not_policyLoad (h : call.isOrdinary) : call.isPolicyLoad = false :=
  (isOrdinary_iff.mp h).2.1

theorem not_authorizing (h : call.isOrdinary) : call.isAuthorizing = false :=
  (isOrdinary_iff.mp h).2.2.1

theorem not_release_of_not_authorizing (h : call.isAuthorizing = false) :
    call.isRelease = false := by
  unfold isRelease
  split
  · exact h
  · rfl

theorem isPreparing_of_ordinary (h : call.isOrdinary) : call.isPreparing := by
  obtain ⟨hreleasing, -, hauthorizing, hrest⟩ := isOrdinary_iff.mp h
  exact isPreparing_iff.mpr ⟨hreleasing, not_release_of_not_authorizing hauthorizing, hrest⟩

theorem isReleasing_of_preparing (h : call.isPreparing) : call.isReleasing :=
  (isPreparing_iff.mp h).1

theorem not_release_of_preparing (h : call.isPreparing) : call.isRelease = false :=
  (isPreparing_iff.mp h).2.1

theorem not_bookkeeping_of_preparing (h : call.isPreparing) : call.isBookkeeping = false :=
  (isPreparing_iff.mp h).2.2.1

theorem not_settling_of_preparing (h : call.isPreparing) : call.isSettling = false :=
  (isPreparing_iff.mp h).2.2.2

theorem not_errorHook_of_releasing (h : call.isReleasing) : call.isErrorHook = false :=
  (isReleasing_iff.mp h).1

theorem not_refusalEvidence_of_releasing (h : call.isReleasing) :
    call.isRefusalEvidence = false := (isReleasing_iff.mp h).2

/-- The evidence of a refusal is of no other kind. -/
theorem kinds_of_refusalEvidence (h : call.isRefusalEvidence) :
    call.isAuthorizing = false ∧ call.isErrorHook = false ∧ call.isBookkeeping = false ∧
      call.isSettling = false := by
  unfold isRefusalEvidence at h
  split at h <;> first | exact ⟨rfl, rfl, rfl, rfl⟩ | exact absurd h Bool.false_ne_true

end RuntimeCall

/-! ## Errors without a text -/

/-- What a call threw. -/
def failureOf (e : RuntimeEvent) : Option Failure :=
  match e.2 with
  | .error failure => some failure
  | .ok _ => none

/-- What a result throws. -/
def thrownBy {α : Type} : Except Failure α → List Failure
  | .ok _ => []
  | .error failure => [failure]

/-- What `String` throws on an error that has no text. -/
def Failure.unprinted : Failure → Option Failure
  | .unprintable thrown => some thrown
  | _ => none

/-- What `String` throws on what a call threw. -/
def unprintedOf (e : RuntimeEvent) : Option Failure := (failureOf e).bind Failure.unprinted

/-- What `String` throws on what a result throws. -/
def unprintedBy {α : Type} (r : Except Failure α) : List Failure :=
  (thrownBy r).filterMap Failure.unprinted

theorem logged_eq (failure : Failure) :
    failure.logged = failure.unprinted.elim (.ok ()) .error := by
  cases failure <;> rfl

theorem unprinted_of_append {t t' : List RuntimeEvent} :
    (t ++ t').filterMap unprintedOf = t.filterMap unprintedOf ++ t'.filterMap unprintedOf :=
  List.filterMap_append

/-- An error without a text that a call throws is thrown on. -/
def Forwards {α : Type} (p : RuntimeProgram α) : Prop :=
  ∀ t r, Runs p t r → t.filterMap unprintedOf = unprintedBy r

/-- Where `p` returns, no call threw an error without a text. -/
def Printed {α : Type} (p : RuntimeProgram α) : Prop :=
  ∀ t a, Runs p t (.ok a) → t.filterMap unprintedOf = []

section Forwards
variable {α β : Type} {p : RuntimeProgram α}

theorem Forwards.printed (h : Forwards p) : Printed p := fun _ _ hr => h _ _ hr

theorem forwards_perform {call : RuntimeCall} : Forwards (ask call) := by
  intro t r hr
  rw [runs_perform.mp hr]
  cases r with
  | ok answer => rfl
  | error failure => cases failure <;> rfl

theorem forwards_done {r : Except Failure α} (h : unprintedBy r = []) :
    Forwards (.done r : RuntimeProgram α) := by
  intro t r' hr
  obtain ⟨rfl, rfl⟩ := runs_done.mp hr
  exact h.symm

theorem Forwards.bind {f : α → RuntimeProgram β} (h : Forwards p) (hf : ∀ a, Forwards (f a)) :
    Forwards (p >>= f) := by
  intro t r hr
  rcases runs_bind.mp hr with ⟨failure, hp, rfl⟩ | ⟨a, t₁, t₂, rfl, hp, hrest⟩
  · exact h _ _ hp
  · rw [unprinted_of_append, h.printed _ _ hp, List.nil_append, hf a _ _ hrest]

theorem Printed.bind {f : α → RuntimeProgram β} (h : Printed p) (hf : ∀ a, Printed (f a)) :
    Printed (p >>= f) := by
  intro t b hr
  obtain ⟨a, t₁, t₂, rfl, hp, hrest⟩ := runs_bind_ok.mp hr
  rw [unprinted_of_append, h _ _ hp, hf a _ _ hrest]
  rfl

theorem printed_done {r : Except Failure α} : Printed (.done r : RuntimeProgram α) := by
  intro t a hr
  obtain ⟨rfl, -⟩ := runs_done.mp hr
  rfl

theorem printed_whenConfigured {configured : Bool} {absent : α} (h : Printed p) :
    Printed (whenConfigured configured absent p) := by
  unfold whenConfigured
  split
  · exact h
  · exact printed_done

theorem forwards_hooks {config : RuntimeConfig} {point : HookPoint} :
    Forwards (hooks config point) := by
  unfold hooks
  induction List.range config.hooks with
  | nil => exact forwards_done rfl
  | cons index rest ih => exact forwards_perform.bind fun _ => ih

/-- **A best effort fails only where an error has no text**, and then with what `String`
throws. -/
theorem bestEffort_thrown {p : RuntimeProgram Unit} (h : Forwards p) {t : List RuntimeEvent}
    {r : Except Failure Unit} (hr : Runs (bestEffort p) t r) :
    t.filterMap unprintedOf = thrownBy r := by
  rcases runs_tryCatch.mp hr with ⟨_, hp, rfl⟩ | ⟨failure, t₁, t₂, rfl, hp, hlogged⟩
  · exact h _ _ hp
  · -- the failure is only logged, unless `String` throws on it
    obtain ⟨rfl, rfl⟩ := runs_done.mp hlogged
    rw [List.append_nil, h _ _ hp, logged_eq, unprintedBy, thrownBy, List.filterMap_cons]
    cases failure.unprinted <;> rfl

theorem printed_bestEffort {p : RuntimeProgram Unit} (h : Forwards p) : Printed (bestEffort p) :=
  fun _ _ hr => bestEffort_thrown h hr

/-- Where a part that ends at the first failure returns, no call failed. -/
theorem printed_of_straight {S : RuntimeCall → Prop} (h : p.Straight S) : Printed p := by
  intro t a hr
  refine List.filterMap_eq_nil_iff.mpr fun e he => ?_
  obtain ⟨answer, hanswer⟩ := h.answers_ok hr e he
  rw [unprintedOf, failureOf, hanswer]
  rfl

/-- To log an error and throw another is to throw. -/
theorem logged_throws (failure other : Failure) :
    ∃ e, (do Program.done failure.logged; throw other : RuntimeProgram α) = .done (.error e) := by
  rw [logged_eq]
  cases failure.unprinted with
  | none => exact ⟨other, rfl⟩
  | some thrown => exact ⟨thrown, rfl⟩

/-- To make an error and throw it is to throw. -/
theorem made_throws (made : Except Failure Failure) :
    ∃ e, (do throw (← Program.done made) : RuntimeProgram α) = .done (.error e) := by
  cases made with
  | ok other => exact ⟨other, rfl⟩
  | error thrown => exact ⟨thrown, rfl⟩

theorem logged_ensures {σ : Type} {sem : σ → RuntimeEvent → σ → Prop}
    {pre : σ → RuntimeCall → Prop} {post : σ → Except Failure α → Prop} {s : σ}
    {failure other : Failure} (h : ∀ e, post s (.error e)) :
    (do Program.done failure.logged; throw other : RuntimeProgram α).Ensures sem pre post s := by
  obtain ⟨e, he⟩ := logged_throws (α := α) failure other
  rw [he]
  exact h e

theorem made_ensures {σ : Type} {sem : σ → RuntimeEvent → σ → Prop}
    {pre : σ → RuntimeCall → Prop} {post : σ → Except Failure α → Prop} {s : σ}
    {made : Except Failure Failure} (h : ∀ e, post s (.error e)) :
    (do throw (← Program.done made) : RuntimeProgram α).Ensures sem pre post s := by
  obtain ⟨e, he⟩ := made_throws (α := α) made
  rw [he]
  exact h e

end Forwards

/-! ## Parts that give up at a failure -/

/-- Makes ordinary calls only, and ends at the first that fails. -/
abbrev Plain {α : Type} (p : RuntimeProgram α) : Prop := p.Straight (fun call => call.isOrdinary)

section Plain
variable {α : Type} {config : RuntimeConfig} {transaction : BusinessTransaction}

theorem plain_hooks {point : HookPoint} (h : ∀ index, RuntimeCall.isOrdinary (.hook index point)) :
    Plain (hooks config point) := by
  unfold hooks
  induction List.range config.hooks with
  | nil => exact straight_done
  | cons index rest ih => exact Straight.bind (straight_perform.mpr (h index)) (fun _ => ih)

theorem only_hooks {S : RuntimeCall → Prop} {point : HookPoint}
    (h : ∀ index, S (.hook index point)) : (hooks config point).Only S := by
  unfold hooks
  induction List.range config.hooks with
  | nil => exact only_done
  | cons index rest ih => exact Only.bind (only_perform.mpr (h index)) (fun _ => ih)

theorem straight_whenConfigured {S : RuntimeCall → Prop} {configured : Bool} {absent : α}
    {p : RuntimeProgram α} (h : p.Straight S) : (whenConfigured configured absent p).Straight S := by
  unfold whenConfigured
  split
  · exact h
  · exact straight_done

theorem plain_executionBuilder (decision : Decision) :
    Plain (ExecutionBuilder.build transaction decision) :=
  Straight.bind (straight_perform.mpr rfl) (fun _ => straight_done)

theorem plain_intentBuilder (context : RuntimeContext) :
    Plain (ExecutionIntentBuilder.build context) := by
  unfold ExecutionIntentBuilder.build
  split
  · exact straight_done
  · refine Straight.bind (straight_perform.mpr rfl) (fun _ => ?_)
    refine Straight.bind (straight_perform.mpr rfl) (fun _ => ?_)
    exact Straight.bind (straight_perform.mpr rfl) (fun _ => straight_done)

theorem straight_prepare {S : RuntimeCall → Prop} (hordinary : ∀ call, call.isOrdinary → S call)
    (hcreate : ∀ intent, S (.createIntent intent)) (context : RuntimeContext) :
    (ExecutionIntentService.prepare context).Straight S :=
  Straight.rethrow (Straight.bind ((plain_intentBuilder context).mono hordinary)
    (fun _ => straight_perform.mpr (hcreate _))) (fun _ => logged_throws _ _)

theorem plain_buildEvidenceAnchor (context : RuntimeContext) (execution : Execution) :
    Plain (buildEvidenceAnchor context execution) := by
  unfold buildEvidenceAnchor
  dsimp only
  split
  · exact straight_done
  · exact Straight.bind (straight_perform.mpr rfl) (fun _ => straight_done)

theorem plain_trustPipeline (context : RuntimeContext) :
    Plain (BusinessTrustPipeline.execute context) := by
  unfold BusinessTrustPipeline.execute
  split
  · exact straight_done
  · refine Straight.bind (plain_buildEvidenceAnchor ..) (fun _ => ?_)
    refine Straight.bind (straight_perform.mpr rfl) (fun _ => ?_)
    exact Straight.bind (straight_perform.mpr rfl) (fun _ => straight_done)

theorem plain_recordExecution (context : RuntimeContext) :
    Plain (RuntimeEngine.recordExecution config context) := by
  refine Straight.rethrow (Straight.bind (plain_hooks fun _ => rfl) (fun _ => ?_))
    (fun error => made_throws (RuntimeEngine.recordIncomplete context error))
  refine Straight.bind (plain_hooks fun _ => rfl) (fun _ => ?_)
  refine Straight.bind (plain_trustPipeline context) (fun _ => ?_)
  exact Straight.bind (plain_hooks fun _ => rfl) (fun _ => straight_done)

end Plain

/-! ## What a refusal leaves behind -/

section Refusal
variable {config : RuntimeConfig} {transaction : BusinessTransaction} {decision : Decision}
  {policy : Json} {findings : PolicyFindings}

theorem only_whenConfigured {α : Type} {S : RuntimeCall → Prop} {configured : Bool} {absent : α}
    {p : RuntimeProgram α} (h : p.Only S) : (whenConfigured configured absent p).Only S := by
  unfold whenConfigured
  split
  · exact h
  · exact only_done

theorem only_bestEffort {S : RuntimeCall → Prop} {p : RuntimeProgram Unit} (h : p.Only S) :
    (bestEffort p).Only S := Only.tryCatch h (fun _ => only_done)

theorem whenConfigured_thrown {configured : Bool} {p : RuntimeProgram Unit}
    (hp : ∀ t r, Runs p t r → t.filterMap unprintedOf = thrownBy r) {t : List RuntimeEvent}
    {r : Except Failure Unit} (h : Runs (whenConfigured configured () p) t r) :
    t.filterMap unprintedOf = thrownBy r := by
  unfold whenConfigured at h
  split at h
  · exact hp t r h
  · obtain ⟨rfl, rfl⟩ := runs_done.mp h
    rfl

theorem only_writeRefusalRecord {violations : List SignalIntentBindingViolation} :
    (RuntimeEngine.writeRefusalRecord config transaction decision violations).Only
      (fun call => call.isRefusalEvidence = true) := by
  refine only_whenConfigured (only_bestEffort (Only.bind ?_ (fun _ => only_perform.mpr rfl)))
  refine Only.bind (only_perform.mpr rfl) (fun _ => ?_)
  exact Only.bind (only_perform.mpr rfl) (fun _ => only_done)

theorem only_notifyApprovalNeeded :
    (RuntimeEngine.notifyApprovalNeeded config transaction decision policy).Only
      (fun call => call.isRefusalEvidence = true) := by
  refine only_whenConfigured (only_bestEffort (Only.bind only_done ?_))
  rintro (_ | approvals)
  · exact only_done
  · exact only_perform.mpr rfl

theorem only_recordRefusal :
    (RuntimeEngine.recordRefusal config transaction decision policy findings).Only
      (fun call => call.isRefusalEvidence = true) := by
  unfold RuntimeEngine.recordRefusal
  split
  · exact only_done
  · exact Only.bind only_writeRefusalRecord
      (fun _ => only_whenConfigured only_notifyApprovalNeeded)

theorem writeRefusalRecord_thrown {violations : List SignalIntentBindingViolation}
    {t : List RuntimeEvent} {r : Except Failure Unit}
    (h : Runs (RuntimeEngine.writeRefusalRecord config transaction decision violations) t r) :
    t.filterMap unprintedOf = thrownBy r := by
  refine whenConfigured_thrown (fun _ _ => bestEffort_thrown ?_) h
  refine Forwards.bind ?_ (fun _ => forwards_perform)
  refine forwards_perform.bind fun _ => ?_
  exact forwards_perform.bind fun _ => forwards_done rfl

theorem unprintedBy_bind {α β : Type} {x : Except Failure α} {f : α → Except Failure β}
    (hx : unprintedBy x = []) (hf : ∀ a, unprintedBy (f a) = []) : unprintedBy (x >>= f) = [] := by
  cases x with
  | error failure => exact hx
  | ok a => exact hf a

theorem member_printed (v : JsValue) (k : JsString) :
    unprintedBy (v.member k : Except Failure JsValue) = [] := by
  unfold JsValue.member
  split <;> rfl

theorem resolveDeclaredPath_printed (intent : Intent) (path : JsValue) :
    unprintedBy (resolveDeclaredPath intent path) = [] := by
  unfold resolveDeclaredPath
  split <;> rfl

theorem neededApproval_printed (intent : Intent) (signal : JsString) (declaration : Json) :
    unprintedBy (neededApproval intent signal declaration) = [] := by
  refine unprintedBy_bind (member_printed _ _) fun _ =>
    unprintedBy_bind (resolveDeclaredPath_printed _ _) fun _ => ?_
  dsimp only
  split
  · rfl
  · exact unprintedBy_bind (resolveDeclaredPath_printed _ _) fun _ => rfl

theorem neededApprovals_printed (intent : Intent) (declarations : Fields) :
    unprintedBy (neededApprovals intent declarations) = [] := by
  induction declarations with
  | nil => rfl
  | cons declaration rest ih =>
    exact unprintedBy_bind (neededApproval_printed _ _ _) fun _ =>
      unprintedBy_bind ih fun _ => rfl

/-- What the search for needed approvals throws has a text. -/
theorem findNeededApprovals_printed {re : RegExp} {signals : Fields} {intent : Intent} :
    unprintedBy (findNeededApprovals re policy signals intent) = [] := by
  unfold findNeededApprovals
  dsimp only
  split
  · rfl
  · split
    · rfl
    · split
      · rfl
      · refine unprintedBy_bind ?_ fun decision => ?_
        · unfold evaluatePolicy
          cases PolicyEngine.evaluate re _ policy <;> rfl
        · split
          · exact unprintedBy_bind (neededApprovals_printed _ _) fun _ => rfl
          · rfl

theorem notifyApprovalNeeded_thrown {t : List RuntimeEvent} {r : Except Failure Unit}
    (h : Runs (RuntimeEngine.notifyApprovalNeeded config transaction decision policy) t r) :
    t.filterMap unprintedOf = thrownBy r := by
  refine whenConfigured_thrown (fun _ _ => bestEffort_thrown ?_) h
  refine Forwards.bind (forwards_done findNeededApprovals_printed) ?_
  rintro (_ | approvals)
  · exact forwards_done rfl
  · exact forwards_perform

/-- Recording a refusal fails only where what the recorder or the notifier threw has no
text. -/
theorem recordRefusal_thrown {t : List RuntimeEvent} {r : Except Failure Unit}
    (h : Runs (RuntimeEngine.recordRefusal config transaction decision policy findings) t r) :
    t.filterMap unprintedOf = thrownBy r := by
  unfold RuntimeEngine.recordRefusal at h
  split at h
  · obtain ⟨rfl, rfl⟩ := runs_done.mp h
    rfl
  · rcases runs_bind.mp h with ⟨e, hwrite, rfl⟩ | ⟨_, t₁, t₂, rfl, hwrite, hnotify⟩
    · exact writeRefusalRecord_thrown hwrite
    · rw [unprinted_of_append, writeRefusalRecord_thrown hwrite,
        whenConfigured_thrown (fun _ _ => notifyApprovalNeeded_thrown) hnotify]
      rfl

end Refusal

/-! ## Before the release -/

/-- Calls nothing that the release, an error or a refusal calls. -/
abbrev Preparing {α : Type} (p : RuntimeProgram α) : Prop := p.Only (fun call => call.isPreparing)

section Preparing
variable {config : RuntimeConfig} {transaction : BusinessTransaction} {policy : Json}
  {policyContentHash : JsString}

theorem Plain.preparing {α : Type} {p : RuntimeProgram α} (h : Plain p) : Preparing p :=
  h.only.mono fun _ ho => RuntimeCall.isPreparing_of_ordinary ho

theorem preparing_hooks {point : HookPoint}
    (h : ∀ index, RuntimeCall.isPreparing (.hook index point)) : Preparing (hooks config point) :=
  only_hooks h

theorem preparing_loadPolicy : Preparing (RuntimeEngine.loadPolicy config transaction) := by
  refine Only.bind (preparing_hooks fun _ => rfl) (fun _ => Only.bind ?_ (fun policy => ?_))
  · refine Only.bind (only_perform.mpr rfl) (fun policy => ?_)
    refine Only.bind only_done (fun _ => ?_)
    exact Only.bind (only_perform.mpr rfl) (fun _ => only_done)
  · refine Only.bind (preparing_hooks fun _ => rfl) (fun _ => ?_)
    exact Only.bind (only_perform.mpr rfl) (fun _ => only_done)

theorem preparing_resolveAnchor :
    Preparing (RuntimeEngine.resolveAnchor config policy policyContentHash) :=
  only_whenConfigured (Only.tryCatch (Only.bind (only_perform.mpr rfl) (fun _ => only_done))
    (fun _ => Only.bind only_done (fun _ => only_done)))

theorem preparing_checkPolicy :
    Preparing (RuntimeEngine.checkPolicy config transaction policy policyContentHash) := by
  refine Only.bind (only_whenConfigured (only_perform.mpr rfl)) (fun _ => ?_)
  refine Only.bind (only_whenConfigured (only_perform.mpr rfl)) (fun _ => ?_)
  exact Only.bind (only_whenConfigured only_done) (fun _ => only_done)

theorem preparing_decide {findings : PolicyFindings} :
    Preparing (RuntimeEngine.decide config transaction policy findings) := by
  refine Only.bind (preparing_hooks fun _ => rfl) (fun _ => Only.bind only_done (fun _ => ?_))
  refine Only.bind (only_whenConfigured (only_perform.mpr rfl)) (fun _ => ?_)
  refine Only.bind (preparing_hooks fun _ => rfl) (fun _ => ?_)
  exact Only.bind (preparing_hooks fun _ => rfl) (fun _ => only_done)

theorem preparing_decisionBuilder {policyDecision : PolicyDecision} :
    Preparing (DecisionBuilder.build transaction policyDecision) :=
  Only.bind (only_perform.mpr rfl) (fun _ => only_done)

theorem preparing_authorize {policyDecision : PolicyDecision} {decision : Decision} :
    Preparing (RuntimeEngine.authorize config transaction policyDecision decision
      policyContentHash) := by
  refine Only.bind only_done (fun _ => Only.bind only_done (fun _ => ?_))
  refine Only.bind (preparing_hooks fun _ => rfl) (fun _ => ?_)
  refine Only.bind (only_perform.mpr rfl) (fun _ => Only.bind (only_perform.mpr rfl) (fun _ => ?_))
  exact Only.bind (preparing_hooks fun _ => rfl) (fun _ => only_done)

/-- Before the release nothing is executed, no error is reported to a hook, no intent
moves and nothing is settled. -/
theorem only_prepareExecution :
    (RuntimeEngine.prepareExecution config transaction).Only (fun call =>
      call.isRelease = false ∧ call.isErrorHook = false ∧ call.isBookkeeping = false ∧
        call.isSettling = false) := by
  have hprep : ∀ call : RuntimeCall, call.isPreparing → call.isRelease = false ∧
      call.isErrorHook = false ∧ call.isBookkeeping = false ∧ call.isSettling = false := by
    intro call h
    obtain ⟨hreleasing, hrelease, hrest⟩ := RuntimeCall.isPreparing_iff.mp h
    exact ⟨hrelease, RuntimeCall.not_errorHook_of_releasing hreleasing, hrest⟩
  refine Only.bind (preparing_loadPolicy.mono hprep) ?_
  rintro ⟨policy, policyContentHash⟩
  refine Only.bind (preparing_resolveAnchor.mono hprep) (fun anchor => ?_)
  refine Only.bind (preparing_checkPolicy.mono hprep) (fun findings => ?_)
  refine Only.bind (preparing_decide.mono hprep) (fun policyDecision => ?_)
  refine Only.bind (preparing_decisionBuilder.mono hprep) (fun decision => ?_)
  refine Only.bind (only_recordRefusal.mono fun _ h =>
    ⟨RuntimeCall.not_release_of_not_authorizing (RuntimeCall.kinds_of_refusalEvidence h).1,
      (RuntimeCall.kinds_of_refusalEvidence h).2⟩) (fun _ => ?_)
  refine Only.bind (preparing_authorize.mono hprep) (fun authorization => ?_)
  refine Only.bind ((plain_executionBuilder decision).preparing.mono hprep) (fun execution => ?_)
  refine Only.bind ((preparing_hooks fun _ => rfl).mono hprep) (fun _ => ?_)
  exact Only.bind ((preparing_hooks fun _ => rfl).mono hprep) (fun _ => only_done)

end Preparing

/-! ## The release -/

section Release
variable {config : RuntimeConfig} {context : RuntimeContext}

theorem only_markErrored {S : RuntimeCall → Prop} {businessTransactionId : JsString}
    {cause : Failure} (h : ∀ reason, S (.markErrored businessTransactionId reason)) :
    (ExecutionIntentService.markErrored businessTransactionId cause).Only S :=
  only_bestEffort (Only.bind only_done fun reason => only_perform.mpr (h reason))

theorem only_markReleased {S : RuntimeCall → Prop} (hnow : S .now)
    (h : ∀ releasedAt, S (.markReleased context.businessTransactionId context releasedAt)) :
    (ExecutionIntentService.markReleased context).Only S :=
  only_bestEffort (Only.bind (only_perform.mpr hnow) (fun releasedAt => only_perform.mpr (h releasedAt)))

/-- What the release stage calls: it stores an intent, hands the action to the pipeline
and marks the intent released with the context it got back. -/
theorem only_release {S : RuntimeCall → Prop}
    (hpreparing : ∀ call : RuntimeCall, call.isPreparing → S call)
    (hcreate : ∀ intent, S (.createIntent intent))
    (hpipeline : ∀ context, S (.executePipeline context))
    (herrored : ∀ id reason, S (.markErrored id reason))
    (hreleased : ∀ context releasedAt,
      S (.markReleased context.businessTransactionId context releasedAt)) :
    (RuntimeEngine.release config context).Only S := by
  refine Only.bind (only_whenConfigured (only_perform.mpr (hpreparing _ rfl))) (fun _ => ?_)
  refine Only.bind (only_whenConfigured
    (straight_prepare (fun _ ho => hpreparing _ (RuntimeCall.isPreparing_of_ordinary ho))
      hcreate context).only) (fun _ => ?_)
  refine Only.bind (Only.tryCatch (only_perform.mpr (hpipeline _)) (fun _ => ?_)) (fun _ => ?_)
  · exact Only.bind (only_whenConfigured (only_markErrored (herrored _)))
      (fun _ => Only.bind only_done (fun _ => only_done))
  · refine Only.bind (only_whenConfigured
      (only_markReleased (hpreparing _ rfl) (hreleased _))) (fun _ => ?_)
    exact Only.bind ((plain_recordExecution _).preparing.mono hpreparing) (fun _ => only_done)

theorem releasing_release :
    (RuntimeEngine.release config context).Only (fun call => call.isReleasing) :=
  only_release (fun _ h => RuntimeCall.isReleasing_of_preparing h) (fun _ => rfl) (fun _ => rfl)
    (fun _ _ => rfl) (fun _ _ => rfl)

/-- What the engine calls. -/
theorem only_engine {transaction : BusinessTransaction} {S : RuntimeCall → Prop}
    (hfree : ∀ call : RuntimeCall, call.isRelease = false → call.isBookkeeping = false → S call)
    (hcreate : ∀ intent, S (.createIntent intent))
    (hpipeline : ∀ context, S (.executePipeline context))
    (hreleased : ∀ context releasedAt,
      S (.markReleased context.businessTransactionId context releasedAt)) :
    (RuntimeEngine.execute config transaction).Only S := by
  refine Only.bind (only_prepareExecution.mono fun call h => hfree call h.1 h.2.2.1)
    (fun context => Only.tryCatch ?_ (fun _ => ?_))
  · exact only_release (fun call h => hfree call (RuntimeCall.not_release_of_preparing h)
      (RuntimeCall.not_bookkeeping_of_preparing h)) hcreate hpipeline
      (fun _ _ => hfree _ rfl rfl) hreleased
  · exact Only.bind (only_hooks fun _ => hfree _ rfl rfl) (fun _ => only_done)

/-- The record of a context is of its transaction. -/
theorem trustPipeline_record {σ : Type} {sem : σ → RuntimeEvent → σ → Prop}
    {pre : σ → RuntimeCall → Prop} (hpre : ∀ s call, call.isOrdinary → pre s call) (s : σ) :
    (BusinessTrustPipeline.execute context).Ensures sem pre (fun _ r => ∀ record,
      r = .ok record → record.businessTransactionId = context.businessTransactionId) s := by
  unfold BusinessTrustPipeline.execute
  split
  · rintro _ ⟨⟩
  refine ensures_bind.mpr (((plain_buildEvidenceAnchor ..).only.ensures (P := fun _ => True)
    (fun s call h _ => hpre s call h) (fun _ _ _ _ _ _ => trivial) trivial).mono ?_)
  rintro s₁ (_ | evidenceAnchor) -
  · rintro _ ⟨⟩
  refine ensures_bind.mpr (ensures_perform.mpr ⟨hpre _ _ rfl, ?_⟩)
  rintro (_ | trustRecordId) s₂ -
  · rintro _ ⟨⟩
  refine ensures_bind.mpr (ensures_perform.mpr ⟨hpre _ _ rfl, ?_⟩)
  rintro (_ | sealing) s₃ -
  · rintro _ ⟨⟩
  · rintro record ⟨⟩
    rfl

end Release
end Parmana

import Parmana.Approval.Backing
import Parmana.Interaction.Concurrent
import Mathlib.Data.List.Pairwise
import Mathlib.Data.Set.Basic

/-! # Single use under concurrency

Any number of verifications run side by side, in any number of processes, and
share one nonce store.  All that is asked of the store is `Serves`: what it has
recorded it keeps, and it answers that a nonce is new only for a nonce it did not
have and then has.  `PostgresServes` is the store of the source, an insert into a
table whose key is the nonce.  The store may be one part of a larger shared state,
from which `consumed` reads it.

The log of such a run lists the events of every verification in the order they
happened.  Over the whole log no nonce is found new twice (`used_nodup`), and a
verification that reports no violation has found new exactly the nonces of the
approvals it counts (`used_of_accepted`).  **So no approval is counted twice**
(`counted_once`).
-/
namespace Parmana.Approval
open Js Interaction Interaction.Program

variable {Key : Type}

/-! ## The store -/

/-- An event of a verification. -/
abbrev VerificationEvent (Key : Type) := Event (Call Key) Call.Answer Thrown

/-- The nonce an event found new. -/
def usedBy : VerificationEvent Key → Option JsString
  | ⟨.checkAndRecord nonce _, .ok true⟩ => some nonce
  | _ => none

/-- The nonces found new, in order. -/
def usedIn (t : List (VerificationEvent Key)) : List JsString := t.filterMap usedBy

/-- A store that forgets nothing, and that finds a nonce new only once.  Nonces
can also be recorded from elsewhere. -/
def Serves (s : Set JsString) (e : VerificationEvent Key) (s' : Set JsString) : Prop :=
  s ⊆ s' ∧ ∀ nonce, usedBy e = some nonce → nonce ∉ s ∧ nonce ∈ s'

/-- One `INSERT` into `consumed_approval_nonces`: a unique violation answers
`false`, and a failure may come before or after the row is written. -/
inductive PostgresServes : Set JsString → VerificationEvent Key → Set JsString → Prop where
  | inserted {s nonce expiresAt} (h : nonce ∉ s) :
      PostgresServes s ⟨.checkAndRecord nonce expiresAt, .ok true⟩ (insert nonce s)
  | uniqueViolation {s nonce expiresAt} (h : nonce ∈ s) :
      PostgresServes s ⟨.checkAndRecord nonce expiresAt, .ok false⟩ s
  | failed {s nonce expiresAt error} :
      PostgresServes s ⟨.checkAndRecord nonce expiresAt, .error error⟩ s
  | failedAfterInsert {s nonce expiresAt error} :
      PostgresServes s ⟨.checkAndRecord nonce expiresAt, .error error⟩ (insert nonce s)
  | other {s call answer} (h : ∀ nonce expiresAt, call ≠ .checkAndRecord nonce expiresAt) :
      PostgresServes s ⟨call, answer⟩ s

theorem PostgresServes.serves {s s' : Set JsString} {e : VerificationEvent Key}
    (h : PostgresServes s e s') : Serves s e s' := by
  cases h with
  | inserted h =>
    refine ⟨Set.subset_insert _ _, fun n hn => ?_⟩
    cases hn
    exact ⟨h, Set.mem_insert _ _⟩
  | uniqueViolation h => exact ⟨le_rfl, fun n hn => (nomatch hn)⟩
  | failed => exact ⟨le_rfl, fun n hn => (nomatch hn)⟩
  | failedAfterInsert => exact ⟨Set.subset_insert _ _, fun n hn => (nomatch hn)⟩
  | other h =>
    refine ⟨le_rfl, fun n hn => ?_⟩
    unfold usedBy at hn
    split at hn
    · rename_i heq
      cases heq
      exact absurd rfl (h _ _)
    · cases hn

/-- A shared state serves a call when the store in it does. -/
def ServesIn {σ : Type} (consumed : σ → Set JsString) (s : σ) (e : VerificationEvent Key) (s' : σ) :
    Prop :=
  Serves (consumed s) e (consumed s')

/-- A verification's environment serves its calls. -/
theorem Environment.answer_serves (env : Environment Key) (call : Call Key) (w : World) :
    ServesIn (fun w => {n | n ∈ w.consumed}) w ⟨call, (env.answer call w).1⟩
      (env.answer call w).2 := by
  refine ⟨fun n hn => env.mem_run_consumed (perform call) hn, fun n hn => ?_⟩
  cases call with
  | checkAndRecord nonce expiresAt =>
    simp only [answer] at hn ⊢
    cases hfails : (env.moment (w.checks - 1)).storeFails with
    | some failure =>
      rw [hfails] at hn
      cases hn
    | none =>
      rw [hfails] at hn
      by_cases hmem : nonce ∈ w.consumed
      · simp [usedBy, hmem] at hn
      · simp only [usedBy, hmem, not_false_eq_true, decide_true, Option.some.injEq] at hn
        subst hn
        exact ⟨hmem, mem_record.mpr (.inl rfl)⟩
  | _ => cases hn

section Log
variable {ι : Type} [DecidableEq ι] {α : ι → Type} {σ : Type} {consumed : σ → Set JsString}
  {P Q : Pool (Call Key) Call.Answer Thrown α σ} {log : List (ι × VerificationEvent Key)}

/-- **No nonce is found new twice** in one log, and every nonce found new is in
the store. -/
theorem used_nodup (h : Exec (ServesIn consumed) P log Q) :
    (usedIn (log.map Prod.snd)).Nodup ∧ ∀ n ∈ usedIn (log.map Prod.snd), n ∈ consumed Q.state := by
  refine h.events_induction
    (I := fun log s => (usedIn (log.map Prod.snd)).Nodup ∧
      ∀ n ∈ usedIn (log.map Prod.snd), n ∈ consumed s)
    ⟨List.nodup_nil, fun _ hn => absurd hn List.not_mem_nil⟩ ?_
  rintro log s i e s' ⟨hnodup, hmem⟩ ⟨hkeep, hnew⟩
  rw [List.map_append, usedIn, List.filterMap_append]
  cases hused : usedBy e with
  | none =>
    simp only [List.map_cons, List.map_nil, List.filterMap_cons, hused, List.filterMap_nil,
      List.append_nil]
    exact ⟨hnodup, fun n hn => hkeep (hmem n hn)⟩
  | some nonce =>
    obtain ⟨hout, hin⟩ := hnew nonce hused
    simp only [List.map_cons, List.map_nil, List.filterMap_cons, hused, List.filterMap_nil]
    refine ⟨List.nodup_append.mpr ⟨hnodup, List.nodup_singleton _, ?_⟩, ?_⟩
    · rintro n hn m hm rfl
      rw [List.mem_singleton] at hm
      exact hout (hm ▸ hmem n hn)
    · intro n hn
      rcases List.mem_append.mp hn with hn | hn
      · exact hkeep (hmem n hn)
      · rw [List.mem_singleton] at hn
        exact hn ▸ hin

omit [DecidableEq ι] in
/-- One event found each nonce new. -/
theorem eq_of_used {log : List (ι × VerificationEvent Key)}
    (hnodup : (usedIn (log.map Prod.snd)).Nodup) {x y : ι × VerificationEvent Key} {n : JsString}
    (hx : x ∈ log) (hy : y ∈ log) (hxn : usedBy x.2 = some n) (hyn : usedBy y.2 = some n) :
    x = y := by
  rw [usedIn, List.filterMap_map, List.Nodup, List.pairwise_filterMap] at hnodup
  by_contra hne
  have hsymm : Std.Symm (fun x y : ι × VerificationEvent Key =>
      ∀ b, (usedBy ∘ Prod.snd) x = some b → ∀ b', (usedBy ∘ Prod.snd) y = some b' → b ≠ b') :=
    ⟨fun x y h b hb b' hb' => (h b' hb' b hb).symm⟩
  exact hnodup.forall hx hy hne n hxn n hyn rfl

theorem mem_used_of_thread {i : ι} {n : JsString} (h : n ∈ usedIn (eventsOf i log)) :
    ∃ e, (i, e) ∈ log ∧ usedBy e = some n := by
  simp only [usedIn, eventsOf, List.mem_filterMap, List.mem_map, List.mem_filter,
    decide_eq_true_eq] at h
  obtain ⟨e, ⟨x, ⟨hx, rfl⟩, rfl⟩, hn⟩ := h
  exact ⟨x.2, hx, hn⟩

theorem used_of_thread_nodup {i : ι} (hnodup : (usedIn (log.map Prod.snd)).Nodup) :
    (usedIn (eventsOf i log)).Nodup :=
  hnodup.sublist ((List.filter_sublist.map _).filterMap _)

end Log

/-! ## One verification -/

section Runs
variable {dateParse : JsString → Option Int}

@[simp] theorem usedIn_nil : usedIn ([] : List (VerificationEvent Key)) = [] := rfl

theorem usedIn_append (t t' : List (VerificationEvent Key)) :
    usedIn (t ++ t') = usedIn t ++ usedIn t' := List.filterMap_append ..

/-- Looking at the nonce uses it only when the request asks for that, and then
only when the artifact is found valid. -/
theorem runs_attemptNonce {a : SignedApproval} {request : ApprovalVerificationRequest}
    {checks : ApprovalChecks} {t : List (VerificationEvent Key)}
    {r : Except Thrown ApprovalVerificationResult}
    (h : Runs (attemptNonce a request checks) t r) :
    (request.consumeNonce = some false → usedIn t = []) ∧
      (request.consumeNonce = some true → ∀ result, r = .ok result → result.valid = true →
        usedIn t = [a.nonce]) := by
  unfold attemptNonce at h
  split at h
  · rename_i hfailed
    obtain ⟨rfl, rfl⟩ := runs_done.mp h
    refine ⟨fun _ => rfl, fun _ result hr hvalid => ?_⟩
    cases hr
    simp_all
  · split at h
    · rename_i hconsume
      refine ⟨fun hno => absurd hno hconsume, fun _ result hr hvalid => ?_⟩
      subst hr
      rcases runs_bind.mp h with ⟨e, -, he⟩ | ⟨unseen, t₁, t₂, rfl, hcall, hdone⟩
      · cases he
      · rw [checkAndRecord, runs_perform] at hcall
        subst hcall
        obtain ⟨rfl, hr⟩ := runs_done.mp hdone
        cases hr
        rw [Bool.and_eq_true] at hvalid
        rw [hvalid.2]
        rfl
    · rename_i hconsume
      obtain ⟨rfl, -⟩ := runs_done.mp h
      exact ⟨fun _ => rfl, fun hyes => absurd (hyes ▸ hconsume) (by simp)⟩

/-- No run of the program finds a nonce new. -/
def Quiet {β : Type} (p : Verification Key β) : Prop := ∀ t r, Runs p t r → usedIn t = []

theorem quiet_done {β : Type} (r : Except Thrown β) : Quiet (.done r : Verification Key β) := by
  intro t r' h
  rw [(runs_done.mp h).1]
  rfl

theorem quiet_call {call : Call Key} (h : ∀ nonce expiresAt, call ≠ .checkAndRecord nonce expiresAt) :
    Quiet (perform call : Verification Key call.Answer) := by
  intro t r hruns
  rw [runs_perform.mp hruns]
  cases call with
  | checkAndRecord nonce expiresAt => exact absurd rfl (h nonce expiresAt)
  | _ => rfl

/-- A quiet beginning can be left out of account. -/
theorem used_bind_quiet {β γ : Type} {p : Verification Key β} {f : β → Verification Key γ}
    (hquiet : Quiet p) {t : List (VerificationEvent Key)} {r : Except Thrown γ}
    (h : Runs (p >>= f) t r) :
    (usedIn t = [] ∧ ∃ e, r = .error e) ∨ ∃ b t', Runs (f b) t' r ∧ usedIn t = usedIn t' := by
  rcases runs_bind.mp h with ⟨e, hp, rfl⟩ | ⟨b, t₁, t₂, rfl, hp, hf⟩
  · exact .inl ⟨hquiet _ _ hp, e, rfl⟩
  · refine .inr ⟨b, t₂, hf, ?_⟩
    rw [usedIn_append, hquiet _ _ hp, List.nil_append]

theorem Quiet.bind {β γ : Type} {p : Verification Key β} {f : β → Verification Key γ}
    (hp : Quiet p) (hf : ∀ b, Quiet (f b)) : Quiet (p >>= f) := by
  intro t r h
  rcases used_bind_quiet hp h with ⟨hused, -⟩ | ⟨b, t', hrest, hused⟩
  · exact hused
  · rw [hused, hf b t' r hrest]

/-- A verification uses nothing before it looks at the nonce. -/
theorem runs_verify {a : SignedApproval} {request : ApprovalVerificationRequest}
    {t : List (VerificationEvent Key)} {r : Except Thrown ApprovalVerificationResult}
    (h : Runs (verify dateParse a request) t r) :
    (request.consumeNonce = some false → usedIn t = []) ∧
      (request.consumeNonce = some true → ∀ result, r = .ok result → result.valid = true →
        usedIn t = [a.nonce]) := by
  unfold verify at h
  rcases used_bind_quiet (quiet_call (by simp)) h with ⟨hused, e, rfl⟩ | ⟨now, t₁, h, hused⟩
  · exact ⟨fun _ => hused, fun _ _ hr => (nomatch hr)⟩
  rw [hused, if_pos a.version_supported] at *
  rcases used_bind_quiet (quiet_call (by simp)) h with ⟨hused, e, rfl⟩ | ⟨issuer, t₂, h, hused⟩
  · exact ⟨fun _ => hused, fun _ _ hr => (nomatch hr)⟩
  rw [hused]
  cases issuer with
  | none =>
    simp only [pure_eq, done_ok_bind] at h
    exact runs_attemptNonce h
  | some issuer =>
    rcases used_bind_quiet (quiet_call (by simp)) h with ⟨hused, e, rfl⟩ | ⟨verified, t₃, h, hused⟩
    · exact ⟨fun _ => hused, fun _ _ hr => (nomatch hr)⟩
    rw [hused]
    exact runs_attemptNonce h

/-- The first pass uses nothing. -/
theorem quiet_checkPass (as : List PendingApproval) :
    Quiet (verifyAll dateParse false as : Verification Key _) := by
  induction as with
  | nil => exact quiet_done _
  | cons a as ih =>
    refine Quiet.bind (fun t r h => (runs_verify h).1 rfl) fun result => ?_
    refine Quiet.bind ih fun violations => ?_
    split <;> exact quiet_done _

/-- A second pass that finds no violation has used exactly its approvals. -/
theorem runs_usePass {as : List PendingApproval} {t : List (VerificationEvent Key)}
    (h : Runs (verifyAll dateParse true as) t (.ok [])) :
    usedIn t = as.map (fun a => a.artifact.nonce) := by
  induction as generalizing t with
  | nil => rw [(runs_done.mp h).1]; rfl
  | cons a as ih =>
    rcases runs_bind.mp h with ⟨e, -, he⟩ | ⟨result, t₁, t₂, rfl, hverify, h⟩
    · cases he
    rcases runs_bind.mp h with ⟨e, -, he⟩ | ⟨violations, t₃, t₄, rfl, hrest, h⟩
    · cases he
    split at h
    · rename_i hvalid
      obtain ⟨rfl, hr⟩ := runs_done.mp h
      cases hr
      rw [usedIn_append, usedIn_append, (runs_verify hverify).2 rfl result rfl hvalid, ih hrest,
        usedIn_nil, List.append_nil, List.map_cons, List.singleton_append]
    · obtain ⟨-, hr⟩ := runs_done.mp h
      cases hr

/-- The approvals an accepted request counts, one for each declared signal that
is true. -/
def countedApprovals (request : SignalStateVerificationRequest) (signals : Fields) :
    List PendingApproval :=
  match request.policy.bind declaredSignals with
  | none => []
  | some entries =>
    match prepareAll request signals (trueEntries signals entries) with
    | .ok (_, pending) => pending
    | .error _ => []

/-- **A verification that reports no violation has used exactly the approvals it
counts.** -/
theorem used_of_accepted {request : SignalStateVerificationRequest} {signals : Fields}
    (hstage : request.stage ≠ some .release) {t : List (VerificationEvent Key)}
    (h : Runs (findViolations dateParse request signals) t (.ok [])) :
    usedIn t = (countedApprovals request signals).map (fun a => a.artifact.nonce) := by
  unfold findViolations at h
  unfold countedApprovals
  split at h
  · rename_i hpolicy
    rw [hpolicy]
    split at h
    · cases (runs_done.mp h).2
    · rw [(runs_done.mp h).1]
      rfl
  rename_i policy hpolicy
  rw [hpolicy, Option.bind_some, declaredSignals]
  cases hmember : ((JsValue.json policy).member "approvalSignals" : Except Thrown JsValue) with
  | error e =>
    rw [hmember] at h
    cases (runs_done.mp h).2
  | ok declarations =>
    rw [hmember, done_ok_bind] at h
    split at h
    · rename_i hundefined
      rw [(runs_done.mp h).1, hundefined]
      rfl
    rename_i hundefined
    rcases runs_bind.mp h with ⟨e, -, he⟩ | ⟨⟨violations, pending⟩, t₁, t₂, rfl, hcheck, h⟩
    · cases he
    dsimp only at h
    split at h
    · -- Violations or the release stage: the result is not the empty list of an authorization.
      rename_i hstop
      obtain ⟨-, hr⟩ := runs_done.mp h
      cases hr
      simp [hstage] at hstop
    · unfold checkApprovals at hcheck
      split at hcheck
      · cases (runs_done.mp hcheck).2
      rename_i hnull
      cases hprepare : prepareAll request signals (trueEntries signals (sortedEntries declarations)) with
      | error e =>
        rw [hprepare] at hcheck
        cases (runs_done.mp hcheck).2
      | ok prepared =>
        rw [hprepare, done_ok_bind] at hcheck
        rcases used_bind_quiet (quiet_checkPass prepared.2) hcheck with
          ⟨-, e, he⟩ | ⟨refusals, t', hdone, hused⟩
        · cases he
        obtain ⟨rfl, hpending⟩ := runs_done.mp hdone
        have hpending : pending = prepared.2 := (Prod.mk.inj (Except.ok.inj hpending)).2
        rw [usedIn_append, hused, runs_usePass h, hpending]
        split <;> simp_all

/-- **No approval is counted twice.**  In any interleaving of verifications at
authorization that share a nonce store, two approvals counted by accepted
verifications that have the same nonce are one approval: counted by the same
verification, for the same signal. -/
theorem counted_once {ι : Type} [DecidableEq ι] (requests : ι → SignalStateVerificationRequest)
    (signals : ι → Fields) {σ : Type} {consumed : σ → Set JsString}
    {P Q : Pool (Call Key) Call.Answer Thrown (fun _ : ι => List SignalStateViolation) σ}
    {log : List (ι × VerificationEvent Key)}
    (hstage : ∀ i, (requests i).stage ≠ some .release)
    (hstart : ∀ i, P.threads i = findViolations dateParse (requests i) (signals i))
    (hrun : Exec (ServesIn consumed) P log Q) (i j : ι) (hi : Q.threads i = .done (.ok []))
    (hj : Q.threads j = .done (.ok [])) (m n : Nat) (a b : PendingApproval)
    (ha : (countedApprovals (requests i) (signals i))[m]? = some a)
    (hb : (countedApprovals (requests j) (signals j))[n]? = some b)
    (hnonce : a.artifact.nonce = b.artifact.nonce) : i = j ∧ m = n := by
  obtain ⟨hnodup, -⟩ := used_nodup hrun
  have hused : ∀ k, Q.threads k = .done (.ok []) → usedIn (eventsOf k log) =
      (countedApprovals (requests k) (signals k)).map (fun a => a.artifact.nonce) := by
    intro k hk
    have hsteps := hrun.steps_of_thread k
    rw [hstart k, hk] at hsteps
    exact used_of_accepted (hstage k) hsteps
  have hai : (usedIn (eventsOf i log))[m]? = some a.artifact.nonce := by
    rw [hused i hi, List.getElem?_map, ha]
    rfl
  have hbj : (usedIn (eventsOf j log))[n]? = some a.artifact.nonce := by
    rw [hused j hj, List.getElem?_map, hb, hnonce]
    rfl
  -- The event that found the nonce new belongs to one thread.
  obtain ⟨e, he, hen⟩ := mem_used_of_thread (List.mem_of_getElem? hai)
  obtain ⟨e', he', hen'⟩ := mem_used_of_thread (List.mem_of_getElem? hbj)
  obtain ⟨rfl, -⟩ := Prod.mk.inj (eq_of_used hnodup he he' hen hen')
  exact ⟨rfl, (List.getElem?_inj (List.getElem?_eq_some_iff.mp hai).1
    (used_of_thread_nodup hnodup)).mp (hai.trans hbj.symm)⟩

end Runs

/-- Two requests with the manager's approval. -/
def managerPool : Pool (Call Unit) Call.Answer Thrown
    (fun _ : Bool => List SignalStateViolation) World :=
  ⟨fun _ => findViolations trustingEnvironment.dateParse (refundRequest oneApproval) managerSignals,
    ⟨0, []⟩⟩

/-- Of two requests with the manager's approval the first is accepted and the second
refused, and the approval is counted for one signal. -/
theorem managerApproval_counted_once :
    ∃ log Q a, Exec (ServesIn fun w => {n | n ∈ w.consumed}) managerPool log Q ∧
      Q.threads true = .done (.ok []) ∧ Q.threads false = .done (.ok [refused "managerApproved"]) ∧
      (countedApprovals (refundRequest oneApproval) managerSignals)[0]? = some a ∧
      ∀ (i : Bool) (n : Nat) (b : PendingApproval), Q.threads i = .done (.ok []) →
        (countedApprovals (refundRequest oneApproval) managerSignals)[n]? = some b →
        a.artifact.nonce = b.artifact.nonce → true = i ∧ 0 = n := by
  have hcounted : (countedApprovals (refundRequest oneApproval) managerSignals)[0]?.isSome := by
    decide
  obtain ⟨a, ha⟩ := Option.isSome_iff_exists.mp hcounted
  -- One request runs to its end, and then the other, which finds the nonce used.
  have haccepted : trustingEnvironment.run (findViolations trustingEnvironment.dateParse
      (refundRequest oneApproval) managerSignals) ⟨0, []⟩ = (.ok [], ⟨2, ["nonce-1"]⟩) := by
    decide
  have hrefused : (trustingEnvironment.run (findViolations trustingEnvironment.dateParse
      (refundRequest oneApproval) managerSignals) ⟨2, ["nonce-1"]⟩).1 =
        .ok [refused "managerApproved"] := by
    decide
  obtain ⟨P, hfirst, hdone, hstate, hothers⟩ :=
    Exec.run_thread _ trustingEnvironment.answer_serves true (.refl managerPool)
  obtain ⟨Q, hrun, hsecond, -, hkeeps⟩ :=
    Exec.run_thread _ trustingEnvironment.answer_serves false hfirst
  have htrue : Q.threads true = .done (.ok []) :=
    (hkeeps true (by decide)).trans (hdone.trans (congrArg (fun r => Program.done r.1) haccepted))
  have hfalse : Q.threads false = .done (.ok [refused "managerApproved"]) := by
    rw [hsecond, hothers false (by decide), hstate]
    exact congrArg Program.done ((congrArg (fun w => (trustingEnvironment.run _ w).1)
      (congrArg Prod.snd haccepted)).trans hrefused)
  refine ⟨_, Q, a, hrun, htrue, hfalse, ha, fun i n b hi hb hnonce => ?_⟩
  exact counted_once (fun _ => refundRequest oneApproval) (fun _ => managerSignals)
    (fun _ => by decide) (fun _ => rfl) hrun true i htrue hi 0 n a b ha hb hnonce

end Parmana.Approval

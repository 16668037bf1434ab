import Parmana.Api.Isolation

/-! # Who a stored transaction is of

A submission of an authenticated caller is let in by two checks, of the principal it names and
of the capability it asks for, and each answer is put on the audit trail before anything else
is done.  What is then stored is the transaction as it was sent, with three members the server
writes: the identifier that was validated, the caller, and the capability.

So in every interleaving of requests **each transaction in the store is one its caller was
allowed to submit**, and where there is an audit trail, the grant was recorded before the
transaction was stored (`stored_granted`).
-/
namespace Parmana.Api
open Js Interaction Interaction.Program Governance

/-! ## What a submission stores -/

/-- The event a submission records when it is let in. -/
def grantEvent (caller : Caller) (route : JsString) (transaction : SubmittedTransaction)
    (occurredAt : JsString) : Audit.CallerAuditEvent :=
  Application.submissionEvent caller .capabilityGranted route none none
    (some transaction.intent.action) none occurredAt

/-- A transaction that a caller was allowed to submit: what was sent, with the identifier, the
caller and the capability written into it. -/
structure Granted (caller : Caller) (callerId : JsString) (submission : Submission)
    (transaction : SubmittedTransaction) : Prop where
  sent : transaction = withCaller { submission.transaction with
    businessTransactionId := transaction.businessTransactionId } callerId
  identified : validBusinessTransactionId 5 submission.businessTransactionId =
    some transaction.businessTransactionId
  principal : isPrincipalAllowed submission.principalId callerId caller.allowedPrincipalIds = true
  capability : isCapabilityAllowed transaction.intent.action caller.allowedCapabilities = true

/-- The submission of a request, with the route it is sent to. -/
def Request.submission : Request → Option (JsString × Submission)
  | .execute submission => some ("/execute", submission)
  | .createTransaction submission => some ("/transactions", submission)
  | _ => none

section Thread
variable (application : Application) (caller : Caller) (callerId : JsString) (request : Request)

/-- What a request owes when it stores a transaction: it was granted, and the grant was
recorded. -/
def OwesGrant (t : List ApiEvent) : ApiCall → Prop
  | .createTransaction transaction => ∃ route submission,
    request.submission = some (route, submission) ∧
    Granted caller callerId submission transaction ∧
      (application.auditSink = true → ∃ occurredAt,
        (⟨.recordAudit (grantEvent caller route transaction occurredAt), .ok ()⟩ : ApiEvent) ∈ t)
  | _ => True

/-- The calls that store no transaction. -/
def ApiCall.Stores : ApiCall → Prop
  | .createTransaction _ => True
  | _ => False

variable {application caller callerId request} {t : List ApiEvent} {α : Type}

theorem Only.owesGrant {p : ApiProgram α} (h : p.Only fun asked => ¬ asked.Stores) :
    Traced (OwesGrant application caller callerId request) p (fun _ _ => True) t :=
  h.traced fun t asked hasked => by
    cases asked with
    | createTransaction transaction => exact absurd trivial hasked
    | _ => trivial

/-! ### Calls that store no transaction -/

theorem only_ofRepair {p : RepairProgram α} :
    (ApiProgram.ofRepair p).Only fun asked => ¬ asked.Stores :=
  only_relabel fun _ => id

theorem only_service {asked : ApplicationCall} (h : ∀ transaction, asked ≠ .createTransaction
    transaction) : (service asked).Only fun asked => ¬ asked.Stores := by
  cases asked with
  | createTransaction transaction => exact absurd rfl (h transaction)
  | verify id => exact Only.bind only_ofRepair fun _ => trivial
  | generateReceipt id => exact Only.bind only_ofRepair fun _ => trivial
  | transactionExists id => exact only_perform.mpr fun h => h
  | runtime asked => exact only_perform.mpr fun h => h
  | findTrustRecord id => exact only_perform.mpr fun h => h

/-- What is done with an accepted transaction. -/
def ApplicationCall.AfterAccepting (asked : ApplicationCall) : Prop :=
  ∀ transaction, asked ≠ .createTransaction transaction

theorem only_executeAccepted {config : RuntimeConfig} {executionIntents : Bool}
    {transaction : SubmittedTransaction} :
    (ExecutionTrustApplication.executeAccepted config executionIntents transaction).Only
      ApplicationCall.AfterAccepting := by
  refine Only.bind (only_relabel fun _ _ => nofun) fun _ => ?_
  refine Only.bind (only_perform.mpr fun _ => nofun) fun _ => ?_
  refine Only.bind (only_perform.mpr fun _ => nofun) fun _ => ?_
  refine Only.bind (only_perform.mpr fun _ => nofun) fun found => ?_
  cases found with
  | none => trivial
  | some trustRecord => trivial

theorem only_findTrustRecords (transactions : List SubmittedTransaction) :
    (findTrustRecords transactions).Only fun asked => ¬ asked.Stores := by
  induction transactions with
  | nil => trivial
  | cons transaction rest ih =>
    exact Only.bind (only_perform.mpr fun h => h) fun _ => Only.bind ih fun _ => trivial

theorem only_owned {id error : JsString} {route : ApiProgram Response}
    (h : route.Only fun asked => ¬ asked.Stores) :
    (caller.owned id error route).Only fun asked => ¬ asked.Stores := by
  unfold Caller.owned
  split
  · exact h
  · refine Only.bind (Only.bind (only_perform.mpr fun h => h) fun found => ?_) fun allowed => ?_
    · cases found with
      | none => trivial
      | some transaction => trivial
    · split
      · exact h
      · trivial

theorem only_ofTrustRecord {id : JsString} {answer : ExecutionTrustRecord → Response} :
    (caller.ofTrustRecord id answer).Only fun asked => ¬ asked.Stores := by
  refine only_owned (Only.bind (only_perform.mpr fun h => h) fun found => ?_)
  cases found with
  | none => trivial
  | some trustRecord => trivial

theorem only_ofBody {sent : JsValue} {route : JsString → ApiProgram Response}
    (h : ∀ id, (route id).Only fun asked => ¬ asked.Stores) :
    (caller.ofBody sent route).Only fun asked => ¬ asked.Stores := by
  unfold Caller.ofBody
  split
  · trivial
  split
  · trivial
  · exact only_owned (h _)

theorem only_humanOnly {route : ApiProgram Response} (h : route.Only fun asked => ¬ asked.Stores) :
    (caller.humanOnly route).Only fun asked => ¬ asked.Stores := by
  unfold Caller.humanOnly
  split
  · exact h
  · trivial

/-- A request that is no submission stores no transaction. -/
theorem only_reads (h : request.submission = none) :
    (request.handle application caller).Only fun asked => ¬ asked.Stores := by
  cases request with
  | execute submission => cases h
  | createTransaction submission => cases h
  | listTransactions page pageSize =>
    exact Only.bind (only_perform.mpr fun h => h) fun _ => trivial
  | getTransaction id =>
    refine Only.bind (only_perform.mpr fun h => h) fun found => ?_
    cases found with
    | none => trivial
    | some transaction =>
      dsimp only
      split
      · trivial
      · trivial
  | listTrustRecords page pageSize within =>
    exact Only.bind (only_perform.mpr fun h => h) fun transactions =>
      Only.bind (only_findTrustRecords transactions) fun _ => trivial
  | getTrustRecord id => exact only_ofTrustRecord
  | verify sent => exact only_ofBody fun id => Only.bind only_ofRepair fun _ => trivial
  | getVerification id => exact only_ofTrustRecord
  | generateReceipt sent => exact only_ofBody fun id => Only.bind only_ofRepair fun _ => trivial
  | getReceipt id => exact only_ofTrustRecord
  | getRefusalRecord id =>
    refine only_owned ?_
    split
    · refine Only.bind (only_perform.mpr fun h => h) fun found => ?_
      cases found with
      | none => trivial
      | some refusalRecord => trivial
    · trivial
  | replay sent =>
    show (caller.replay sent).Only _
    unfold Caller.replay
    split
    · trivial
    split
    · refine only_owned (Only.bind (only_perform.mpr fun h => h) fun found => ?_)
      cases found with
      | none => trivial
      | some trustRecord => exact Only.bind (only_perform.mpr fun h => h) fun _ => trivial
    · trivial
  | listUnfinalized requested =>
    refine only_humanOnly ?_
    split
    · exact Only.bind (only_perform.mpr fun h => h) fun _ => trivial
    · trivial
  | getExecutionIntent id =>
    refine only_owned ?_
    split
    · refine Only.bind (only_perform.mpr fun h => h) fun found => ?_
      cases found with
      | none => trivial
      | some stored => trivial
    · trivial
  | finalize id => exact only_humanOnly (Only.bind only_ofRepair fun _ => trivial)
  | resolve id resolution note => exact only_humanOnly (Only.bind only_ofRepair fun _ => trivial)

/-! ### Submissions -/

/-- Where the grant is recorded, what is stored was granted. -/
theorem execute_owesGrant {transaction : SubmittedTransaction}
    (h : OwesGrant application caller callerId request t (.createTransaction transaction)) :
    Traced (OwesGrant application caller callerId request) (application.execute transaction)
      (fun _ _ => True) t := by
  -- the one call of `accept` that stores is its last, and the events before it have only grown
  have hgrows : ∀ u, OwesGrant application caller callerId request (t ++ u)
      (.createTransaction transaction) := by
    intro u
    obtain ⟨route, submission, hsubmission, hgranted, haudited⟩ := h
    refine ⟨route, submission, hsubmission, hgranted, fun hsink => ?_⟩
    obtain ⟨occurredAt, hmem⟩ := haudited hsink
    exact ⟨occurredAt, List.mem_append_left _ hmem⟩
  refine Traced.expand_bind (R := fun _ _ => True) ?_ fun _ t₁ _ => ?_
  · refine Traced.expand_bind (R := fun _ t' => t' = t) (Traced.done fun _ _ => rfl)
      fun _ t' ht' => ?_
    rw [ht']
    refine Traced.expand_bind (R := fun found t' => ∃ e, t' = t ++ [e]) ?_ ?_
    · rw [expand_perform]
      exact Traced.perform trivial fun found => ⟨_, rfl⟩
    rintro found _ ⟨e, rfl⟩
    dsimp only
    split
    · exact Traced.throw
    · rw [expand_perform]
      exact Traced.perform (hgrows _) fun _ => trivial
  · exact Only.owesGrant (only_executeAccepted.expand fun asked hasked => only_service hasked)

theorem audited_owesGrant {event : JsString → Audit.CallerAuditEvent} {p : ApiProgram Response}
    (hp : ∀ t, (application.auditSink = true → ∃ occurredAt,
      (⟨.recordAudit (event occurredAt), .ok ()⟩ : ApiEvent) ∈ t) →
      Traced (OwesGrant application caller callerId request) p (fun _ _ => True) t) :
    Traced (OwesGrant application caller callerId request) (application.audited event p)
      (fun _ _ => True) t := by
  refine Traced.bind (R := fun recorded t' => recorded = true → application.auditSink = true →
    ∃ occurredAt, (⟨.recordAudit (event occurredAt), .ok ()⟩ : ApiEvent) ∈ t') ?_
    fun recorded t' hrecorded => ?_
  · unfold Application.recordCallerAuditEvent
    split
    · refine Traced.bind_perform trivial fun occurredAt => ?_
      refine Traced.tryCatch (Traced.bind_perform trivial fun _ => Traced.pure fun _ _ => ?_)
        fun _ _ => Traced.bind_done fun _ _ => Traced.pure fun h => absurd h Bool.false_ne_true
      exact ⟨_, List.mem_append_right _ (List.mem_singleton_self _)⟩
    · rename_i hsink
      exact Traced.pure fun _ h => absurd h hsink
  · split
    · rename_i hgoes
      exact hp t' (hrecorded hgoes)
    · exact Traced.pure trivial

/-- A submission stores what it was granted. -/
theorem submitRoute_owesGrant {route : JsString} {submission : Submission}
    (hcaller : caller.callerId = some callerId)
    (hsubmission : request.submission = some (route, submission)) :
    Traced (OwesGrant application caller callerId request)
      (application.submitRoute caller route submission) (fun _ _ => True) t := by
  have hdenied : ∀ {event : JsString → Audit.CallerAuditEvent} {response : Response} {t},
      Traced (OwesGrant application caller callerId request)
        (application.audited event (return response)) (fun _ _ => True) t :=
    audited_owesGrant fun _ _ => Traced.pure trivial
  unfold Application.submitRoute
  split
  · exact hdenied
  rename_i id hid
  refine Traced.tryCatch ?_ fun failure t' => ?_
  · unfold Application.submit
    rw [hcaller]
    dsimp only
    split
    · exact hdenied
    rename_i hprincipal
    split
    · exact hdenied
    rename_i hcapability
    refine audited_owesGrant fun t' haudited => Traced.bind (R := fun _ _ => True) ?_
      fun _ _ _ => Traced.pure trivial
    refine execute_owesGrant ⟨route, submission, hsubmission, ⟨rfl, hid, ?_, ?_⟩, haudited⟩
    · exact Bool.of_not_eq_false fun h => hprincipal (by rw [h]; rfl)
    · exact Bool.of_not_eq_false fun h => hcapability (by
        show (!isCapabilityAllowed submission.transaction.intent.action _) = true
        rw [show isCapabilityAllowed submission.transaction.intent.action _ = false from h]
        rfl)
  · split
    · exact audited_owesGrant fun _ _ => Traced.throw
    · exact Traced.throw

theorem handle_owesGrant (hcaller : caller.callerId = some callerId) :
    Traced (OwesGrant application caller callerId request) (request.handle application caller)
      (fun _ _ => True) t := by
  cases hsubmission : request.submission with
  | none => exact Only.owesGrant (only_reads hsubmission)
  | some submitted =>
    obtain ⟨route, submission⟩ := submitted
    cases request with
    | execute sent =>
      cases hsubmission
      exact submitRoute_owesGrant hcaller rfl
    | createTransaction sent =>
      cases hsubmission
      exact submitRoute_owesGrant hcaller rfl
    | _ => cases hsubmission

end Thread

/-! ## The run -/

/-- A transaction that a request of the run was granted, and its grant is in the log. -/
def StoredBy {ι : Type} (application : Application) (callers : ι → Caller)
    (callerIds : ι → JsString) (requests : ι → Request) (log : List (ι × ApiEvent))
    (transaction : SubmittedTransaction) : Prop :=
  ∃ i route submission, (requests i).submission = some (route, submission) ∧
    Granted (callers i) (callerIds i) submission transaction ∧
    (application.auditSink = true → ∃ occurredAt,
      (i, ⟨.recordAudit (grantEvent (callers i) route transaction occurredAt), .ok ()⟩) ∈ log)

theorem StoredBy.mono {ι : Type} {application : Application} {callers : ι → Caller}
    {callerIds : ι → JsString} {requests : ι → Request} {log more : List (ι × ApiEvent)}
    {transaction : SubmittedTransaction}
    (h : StoredBy application callers callerIds requests log transaction) :
    StoredBy application callers callerIds requests (log ++ more) transaction := by
  obtain ⟨i, route, submission, hsubmission, hgranted, haudited⟩ := h
  refine ⟨i, route, submission, hsubmission, hgranted, fun hsink => ?_⟩
  obtain ⟨occurredAt, hmem⟩ := haudited hsink
  exact ⟨occurredAt, List.mem_append_left _ hmem⟩

/-- A transaction that is stored after a call was there, or the call was to store it. -/
theorem ApiStore.Serves.stores {storage : TrustRecordStorage} {s s' : ApiStore storage}
    {e : ApiEvent} {transaction : SubmittedTransaction} (h : s.Serves e s')
    (hmem : transaction ∈ s'.transactions) :
    transaction ∈ s.transactions ∨ ∃ answer, e = ⟨.createTransaction transaction, answer⟩ := by
  cases h with
  | createTransaction created =>
    rcases List.mem_append.mp hmem with hold | hnew
    · exact .inl hold
    · rw [List.mem_singleton.mp hnew]
      exact .inr ⟨_, rfl⟩
  | lostTransaction created failure =>
    rcases List.mem_append.mp hmem with hold | hnew
    · exact .inl hold
    · rw [List.mem_singleton.mp hnew]
      exact .inr ⟨_, rfl⟩
  | _ => exact .inl hmem

/-- **Each transaction in the store was there, or is one its caller was allowed to submit**, in
any interleaving of requests of authenticated callers: it is what was sent under a validated
identifier, with the caller and the capability written into it, and where there is an audit
trail, the grant was recorded. -/
theorem stored_granted {storage : TrustRecordStorage} {ι : Type} [DecidableEq ι]
    {application : Application} {callers : ι → Caller} {callerIds : ι → JsString}
    {requests : ι → Request} {s : ApiStore storage} {log : List (ι × ApiEvent)}
    {Q : Pool ApiCall ApiCall.Answer Failure (fun _ : ι => Response) (ApiStore storage)}
    (hcallers : ∀ i, (callers i).callerId = some (callerIds i))
    (h : Exec ApiStore.Serves ⟨fun i => (requests i).handle application (callers i), s⟩ log Q) :
    ∀ transaction ∈ Q.state.transactions, transaction ∈ s.transactions ∨
      StoredBy application callers callerIds requests log transaction := by
  have hmeets : ∀ i, ((requests i).handle application (callers i)).Ensures history
      (OwesGrant application (callers i) (callerIds i) (requests i)) (fun _ _ => True) [] :=
    fun i => Ensures.mono (handle_owesGrant (hcallers i)) fun _ _ _ => trivial
  refine h.where_true.induction (I := fun log s' => ∀ transaction ∈ s'.transactions,
    transaction ∈ s.transactions ∨
      StoredBy application callers callerIds requests log transaction) hmeets
    (fun _ => .inl) fun log s₁ i e s₂ hstored howes _ hserves transaction hmem => ?_
  rcases hserves.stores hmem with hold | ⟨answer, rfl⟩
  · exact (hstored transaction hold).imp_right fun h => h.mono
  · obtain ⟨route, submission, hsubmission, hgranted, haudited⟩ := howes
    refine .inr ⟨i, route, submission, hsubmission, hgranted, fun hsink => ?_⟩
    obtain ⟨occurredAt, hrecorded⟩ := haudited hsink
    exact ⟨occurredAt, List.mem_append_left _ (mem_eventsOf.mp hrecorded)⟩

/-- In the sample run there is one transaction, and its caller was granted it. -/
theorem before_granted : ∃ log Q, Exec ApiStore.Serves Sample.pool log Q ∧
    Q.state.transactions.length = 1 ∧
    ∀ transaction ∈ Q.state.transactions, transaction ∈ Sample.nothing.transactions ∨
      StoredBy Sample.application Sample.callers Sample.callerIds Sample.requests log
        transaction :=
  ⟨_, _, Sample.before_run.exec, by decide +kernel,
    stored_granted (fun i => show (Sample.callers i).callerId = _ from rfl) Sample.before_run.exec⟩

end Parmana.Api

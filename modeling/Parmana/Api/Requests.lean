import Parmana.Audit.CallerAuditSink
import Parmana.Governance.ChangeResolution
import Parmana.Interaction.Expansion
import Parmana.Runtime.InFlight
import Parmana.Runtime.Repair
import Parmana.Runtime.Submission

/-! # Requests of callers

A caller submits transactions and reads what became of them: the transaction, its trust
record, its verifications and receipts, its refusal, its intent.  What a caller may read is
decided by `metadata.submittedBy`, which the server writes into a transaction when it is
submitted.  Two lists are filtered by it.  Every other route asks `isOwnedByCaller` first,
which looks for the transaction, and goes on to its own read when there is none.

The routes are written over the calls of the application's repositories and services.  A
submission is `ExecutionTrustApplication.execute` with the services it calls written out, so
that requests of other callers can come between any two of its calls.
-/
namespace Parmana.Api
open Js Interaction Interaction.Program Audit Governance

/-! ## Calls -/

/-- The calls of a request. -/
inductive ApiCall where
  /-- `BusinessTransactionRepository`. -/
  | transactionExists (businessTransactionId : JsString)
  | createTransaction (transaction : SubmittedTransaction)
  | findTransaction (businessTransactionId : JsString)
  | listTransactions (page pageSize : JsNumber)
  /-- What the runtime calls, and the two services that complete a record. -/
  | repair (call : RepairCall)
  /-- `RefusalRecordRepository.findByTransactionId`. -/
  | findRefusalRecord (businessTransactionId : JsString)
  /-- `ExecutionIntentService.listUnfinalized`. -/
  | listUnfinalized (limit : Nat)
  /-- `VerificationCrypto.verify`. -/
  | verifyTrustRecord (trustRecord : ExecutionTrustRecord)
  /-- `auditSink.record`. -/
  | recordAudit (event : CallerAuditEvent)

/-- What a call answers. -/
abbrev ApiCall.Answer : ApiCall → Type
  | .transactionExists _ | .verifyTrustRecord _ => Bool
  | .createTransaction _ => SubmittedTransaction
  | .findTransaction _ => Option SubmittedTransaction
  | .listTransactions .. => List SubmittedTransaction
  | .repair asked => asked.Answer
  | .findRefusalRecord _ => Option RefusalRecord
  | .listUnfinalized _ => List StoredExecutionIntent
  | .recordAudit _ => Unit

/-- The program of a request. -/
abbrev ApiProgram (α : Type) := Program ApiCall ApiCall.Answer Failure α

/-- A call of a request and its answer. -/
abbrev ApiEvent := Event ApiCall ApiCall.Answer Failure

namespace ApiProgram

/-- Makes one call. -/
abbrev ask (call : ApiCall) : ApiProgram call.Answer := perform call

/-- A service of the application. -/
abbrev ofRepair {α : Type} (p : RepairProgram α) : ApiProgram α :=
  p.relabel ApiCall.repair fun _ answer => answer

/-- `ExecutionTrustRecordRepository.findByTransactionId`. -/
abbrev findTrustRecord (businessTransactionId : JsString) :
    ApiProgram (Option ExecutionTrustRecord) :=
  ask (.repair (.runtime (.findTrustRecord businessTransactionId)))

/-- `new Date()`. -/
abbrev now : ApiProgram Int := ask (.repair (.runtime .now))

end ApiProgram

open ApiProgram

/-! ## Requests -/

/-- What the authentication of a caller sets on a request. -/
structure Caller where
  callerId : Option JsString
  allowedPrincipalIds : Option (List JsString)
  allowedCapabilities : Option (List JsString)
  credentialHolderType : Option AuthorityType

/-- A transaction as it is sent: the identifier in the body, and the transaction with the
principal it is to be submitted for. -/
structure Submission where
  businessTransactionId : JsValue
  principalId : Option JsString
  transaction : SubmittedTransaction

/-- A request, with the route it is sent to. -/
inductive Request where
  /-- `POST /execute` -/
  | execute (submission : Submission)
  /-- `POST /transactions` -/
  | createTransaction (submission : Submission)
  /-- `GET /transactions`, with `Number(req.query.page ?? 1)` and the size of a page -/
  | listTransactions (page pageSize : JsNumber)
  /-- `GET /transactions/:id` -/
  | getTransaction (id : JsString)
  /-- `GET /trust-records`, and whether the creation of a transaction is within the period
  that is asked for -/
  | listTrustRecords (page pageSize : JsNumber) (within : ExecutionTrustRecord → Bool)
  /-- `GET /trust-records/:businessTransactionId` -/
  | getTrustRecord (id : JsString)
  /-- `POST /verify` -/
  | verify (businessTransactionId : JsValue)
  /-- `GET /verify/:id` -/
  | getVerification (id : JsString)
  /-- `POST /receipt` -/
  | generateReceipt (businessTransactionId : JsValue)
  /-- `GET /receipt/:id` -/
  | getReceipt (id : JsString)
  /-- `GET /refusal/:businessTransactionId` -/
  | getRefusalRecord (id : JsString)
  /-- `POST /replay` -/
  | replay (businessTransactionId : JsValue)
  /-- `GET /execution-intents/unfinalized`, with the positive integer that is asked for -/
  | listUnfinalized (requested : Option Nat)
  /-- `GET /execution-intents/:businessTransactionId` -/
  | getExecutionIntent (id : JsString)
  /-- `POST /execution-intents/:businessTransactionId/finalize` -/
  | finalize (id : JsString)
  /-- `POST /execution-intents/:businessTransactionId/resolve` -/
  | resolve (id : JsString) (resolution note : JsValue)

/-- What a request is answered, apart from the error of a program that fails. -/
inductive Response where
  /-- 400 -/
  | badRequest (error : JsString)
  /-- 403 -/
  | forbidden (error : JsString) (code : Option JsString)
  /-- 404 -/
  | notFound (error : JsString)
  /-- `next(new AuditUnavailableError())` -/
  | auditUnavailable
  | transaction (transaction : SubmittedTransaction)
  | transactions (transactions : List SubmittedTransaction)
  | trustRecord (trustRecord : ExecutionTrustRecord)
  | trustRecords (trustRecords : List ExecutionTrustRecord)
  | verification (verification : Verification)
  | receipt (receipt : Receipt)
  /-- A verification or a receipt as its record holds it. -/
  | artifact (artifact : Json)
  | refusalRecord (refusalRecord : RefusalRecord)
  | replay (businessTransactionId trustRecordHash : JsString) (verified : Bool)
  /-- `publicView` -/
  | executionIntent (intent : ExecutionIntent) (status : ExecutionIntentStatus)
  | executionIntents (intents : List (ExecutionIntent × ExecutionIntentStatus))
  | finalized (outcome : ExecutionIntentFinalizer.Outcome) (trustRecord : ExecutionTrustRecord)
  | resolved (outcome : ExecutionIntentService.ResolveOutcome) (intent : ExecutionIntent)
      (status : ExecutionIntentStatus)

/-- `publicView`: the saved context is never returned. -/
def publicView (stored : StoredExecutionIntent) : ExecutionIntent × ExecutionIntentStatus :=
  (stored.intent, stored.status)

/-- `NonHumanCallerDeniedError`, as the routes of intents answer it. -/
def denyNonHumanCaller : Response :=
  .forbidden (nonHumanCallerDenied.message.getD "") (some "NON_HUMAN_CALLER_DENIED")

/-! ## Identifiers -/

/-- `[0-9a-f]`, in either case. -/
def isHexDigit (u : UInt16) : Bool :=
  (0x30 ≤ u && u ≤ 0x39) || (0x61 ≤ u && u ≤ 0x66) || (0x41 ≤ u && u ≤ 0x46)

/-- `[1-n]` -/
def isVersion (n : UInt16) (u : UInt16) : Bool := 0x31 ≤ u && u ≤ 0x30 + n

/-- `[89ab]`, in either case. -/
def isVariant (u : UInt16) : Bool :=
  u ∈ ([0x38, 0x39, 0x61, 0x62, 0x41, 0x42] : List UInt16)

/-- What may stand at each place of a UUID whose version is at most `n`. -/
def uuidPlaces (n : UInt16) : List (UInt16 → Bool) :=
  let dash : UInt16 → Bool := fun u => u = 0x2D
  List.replicate 8 isHexDigit ++ [dash] ++ List.replicate 4 isHexDigit ++ [dash, isVersion n] ++
    List.replicate 3 isHexDigit ++ [dash, isVariant] ++ List.replicate 3 isHexDigit ++ [dash] ++
    List.replicate 12 isHexDigit

/-- `isValidBusinessTransactionId`: the identifier, where it is one. -/
def validBusinessTransactionId (n : UInt16) : JsValue → Option JsString
  | .json (.str id) =>
    if id.units.length = (uuidPlaces n).length ∧
      (List.zipWith (fun place u => place u) (uuidPlaces n) id.units).all (fun b => b) then some id
    else none
  | _ => none

/-! ## What a caller may submit -/

/-- `isPrincipalAllowed`. -/
def isPrincipalAllowed (principalId : Option JsString) (callerId : JsString)
    (allowedPrincipalIds : Option (List JsString)) : Bool :=
  match principalId with
  | none => false
  | some principalId =>
    if principalId.isEmpty then false
    else match allowedPrincipalIds with
      | some allowed => decide (principalId ∈ allowed)
      | none => decide (principalId = callerId)

/-- `isCapabilityAllowed`. -/
def isCapabilityAllowed (action : JsString) (allowedCapabilities : Option (List JsString)) : Bool :=
  if action.isEmpty then false
  else match allowedCapabilities with
    | none => false
    | some allowed => decide (("*" : JsString) ∈ allowed) || decide (action ∈ allowed)

/-- The transaction with the caller and the capability that was granted. -/
def withCaller (transaction : SubmittedTransaction) (callerId : JsString) : SubmittedTransaction :=
  { transaction with metadata := { transaction.metadata with
      submittedBy := some callerId
      grantedCapability := some transaction.intent.action } }

/-! ## Submitting -/

/-- What the application is built with. -/
structure Application where
  config : RuntimeConfig
  executionIntents : Bool
  refusalRecords : Bool
  auditSink : Bool

/-- The program of each call of the application. -/
def service : (call : ApplicationCall) → ApiProgram call.Answer
  | .transactionExists id => ask (.transactionExists id)
  | .createTransaction transaction => ask (.createTransaction transaction)
  | .runtime asked => ask (.repair (.runtime asked))
  | .verify id => do
    let _ ← ofRepair (VerificationService.verify id)
    return ()
  | .generateReceipt id => do
    let _ ← ofRepair (ReceiptService.generate id)
    return ()
  | .findTrustRecord id => findTrustRecord id

/-- `error instanceof BusinessTransactionValidationError ||
DuplicateBusinessTransactionError`. -/
def isStructuralRejection : Failure → Bool
  | .runtimeError _ code _ => code = "RUNTIME_ERROR"
  | .parmanaError _ code => code = "DUPLICATE_BUSINESS_TRANSACTION"
  | _ => false

namespace Application
variable (application : Application) (caller : Caller)

/-- `application.execute`. -/
def execute (transaction : SubmittedTransaction) : ApiProgram ExecutionTrustRecord :=
  (ExecutionTrustApplication.execute application.config application.executionIntents
    transaction).expand service

/-- `recordCallerAuditEvent`, where there is a sink: whether the request may go on. -/
def recordCallerAuditEvent (event : JsString → CallerAuditEvent) : ApiProgram Bool :=
  if application.auditSink then do
    let occurredAt ← now
    tryCatch (do
      ask (.recordAudit (event (toISOString occurredAt)))
      return true)
      fun error => do
        .done error.logged
        return false
  else return true

/-- An event about a submission. -/
def submissionEvent (type : CallerAuditEventType) (route : JsString) (reason : Option JsString)
    (businessTransactionId capability principalId : Option JsString) (occurredAt : JsString) :
    CallerAuditEvent where
  type := type
  occurredAt := occurredAt
  route := route
  callerId := caller.callerId
  reason := reason
  businessTransactionId := businessTransactionId
  capability := capability
  principalId := principalId
  severity := none

/-- Records an event, and goes on only where it is recorded. -/
def audited (event : JsString → CallerAuditEvent) (p : ApiProgram Response) :
    ApiProgram Response := do
  if ← application.recordCallerAuditEvent event then p else return .auditUnavailable

/-- A submission with a valid identifier, up to the catch of its errors. -/
def submit (route : JsString) (submission : Submission) (transaction : SubmittedTransaction) :
    ApiProgram Response :=
  match caller.callerId with
  | none => do return .trustRecord (← application.execute transaction)
  | some callerId =>
    if !isPrincipalAllowed submission.principalId callerId caller.allowedPrincipalIds then
      application.audited (submissionEvent caller .principalDenied route
          (some "principal not allowed") none none submission.principalId)
        (return .forbidden "Caller is not permitted to assert this authority.principalId." none)
    else if !isCapabilityAllowed transaction.intent.action caller.allowedCapabilities then
      application.audited (submissionEvent caller .capabilityDenied route
          (some "capability not allowed") none (some transaction.intent.action) none)
        (return .forbidden "Caller is not permitted to invoke this capability."
          (some "CAPABILITY_NOT_ALLOWED"))
    else
      application.audited (submissionEvent caller .capabilityGranted route none none
          (some transaction.intent.action) none)
        (do return .trustRecord (← application.execute (withCaller transaction callerId)))

/-- `POST /execute`, and `POST /transactions`, which differs in the status of its answer. -/
def submitRoute (route : JsString) (submission : Submission) : ApiProgram Response :=
  match validBusinessTransactionId 5 submission.businessTransactionId with
  | none =>
    let sent : Option JsString := match submission.businessTransactionId with
      | .json (.str id) => some id
      | _ => none
    application.audited (submissionEvent caller .structuralRejected route
        (some "businessTransactionId must be a valid UUID.") sent none none)
      (return .badRequest "businessTransactionId must be a valid UUID.")
  | some id =>
    tryCatch (application.submit caller route submission
        { submission.transaction with businessTransactionId := id })
      fun failure =>
        if isStructuralRejection failure then
          application.audited (submissionEvent caller .structuralRejected route failure.message
            (some id) none none) (throw failure)
        else throw failure

end Application

/-! ## Reading -/

/-- `isOwnedByCaller`. -/
def isOwnedByCaller (businessTransactionId callerId : JsString) : ApiProgram Bool := do
  match ← ask (.findTransaction businessTransactionId) with
  | none => return true
  | some transaction => return decide (transaction.metadata.submittedBy = some callerId)

/-- `listTrustRecords`: the records of the transactions that have one. -/
def findTrustRecords : List SubmittedTransaction → ApiProgram (List ExecutionTrustRecord)
  | [] => return []
  | transaction :: rest => do
    let found ← findTrustRecord transaction.businessTransactionId
    let trustRecords ← findTrustRecords rest
    return found.toList ++ trustRecords

/-- `ExecutionTrustApplication.replay`. -/
def replayTrustRecord (businessTransactionId : JsString) : ApiProgram Response := do
  match ← findTrustRecord businessTransactionId with
  | none => throw (.runtimeError ("Execution Trust Record not found." : String)
      ("VERIFICATION_FAILED" : String) 404)
  | some trustRecord => do
    let verified ← ask (.verifyTrustRecord trustRecord)
    return .replay businessTransactionId trustRecord.sealing.hash verified

namespace Caller
variable (caller : Caller)

/-- What every route of one transaction does first: it goes on where the caller is not
known, or may read the transaction. -/
def owned (businessTransactionId error : JsString) (route : ApiProgram Response) :
    ApiProgram Response :=
  match caller.callerId with
  | none => route
  | some callerId => do
    if ← isOwnedByCaller businessTransactionId callerId then route else return .notFound error

/-- Whether something is in a list the caller is answered with. -/
def sees (submittedBy : Option JsString) : Bool :=
  match caller.callerId with
  | none => true
  | some callerId => decide (submittedBy = some callerId)

/-- `GET /transactions`. -/
def listTransactions (page pageSize : JsNumber) : ApiProgram Response := do
  let transactions ← ask (.listTransactions page pageSize)
  return .transactions (transactions.filter fun transaction =>
    caller.sees transaction.metadata.submittedBy)

/-- `GET /transactions/:id`. -/
def getTransaction (id : JsString) : ApiProgram Response := do
  match ← ask (.findTransaction id) with
  | none => return .notFound "Business Transaction not found."
  | some transaction =>
    if caller.sees transaction.metadata.submittedBy then return .transaction transaction
    else return .notFound "Business Transaction not found."

/-- `GET /trust-records`. -/
def listTrustRecords (page pageSize : JsNumber) (within : ExecutionTrustRecord → Bool) :
    ApiProgram Response := do
  let transactions ← ask (.listTransactions page pageSize)
  let trustRecords ← findTrustRecords transactions
  return .trustRecords ((trustRecords.filter fun trustRecord =>
    caller.sees trustRecord.transaction.metadata.submittedBy).filter within)

/-- A route that answers with something of a stored record. -/
def ofTrustRecord (id : JsString) (answer : ExecutionTrustRecord → Response) :
    ApiProgram Response :=
  caller.owned id "Execution Trust Record not found." do
    match ← findTrustRecord id with
    | none => return .notFound "Execution Trust Record not found."
    | some trustRecord => return answer trustRecord

/-- `GET /trust-records/:businessTransactionId`. -/
def getTrustRecord (id : JsString) : ApiProgram Response := caller.ofTrustRecord id .trustRecord

/-- The last of some artifacts. -/
def latest (error : JsString) (artifacts : List Json) : Response :=
  match artifacts.getLast? with
  | none => .notFound error
  | some artifact => .artifact artifact

/-- `GET /verify/:id`. -/
def getVerification (id : JsString) : ApiProgram Response :=
  caller.ofTrustRecord id fun trustRecord =>
    latest "Verification not found." trustRecord.verifications

/-- `GET /receipt/:id`. -/
def getReceipt (id : JsString) : ApiProgram Response :=
  caller.ofTrustRecord id fun trustRecord => latest "Receipt not found." trustRecord.receipts

/-- `!businessTransactionId` is answered first, and then what is not a UUID. -/
def ofBody (businessTransactionId : JsValue) (route : JsString → ApiProgram Response) :
    ApiProgram Response :=
  if !businessTransactionId.truthy then
    return .badRequest "businessTransactionId is required."
  else match validBusinessTransactionId 8 businessTransactionId with
    | none => return .badRequest "businessTransactionId must be a valid UUID."
    | some id => caller.owned id "Execution Trust Record not found." (route id)

/-- `POST /verify`. -/
def verify (businessTransactionId : JsValue) : ApiProgram Response :=
  caller.ofBody businessTransactionId fun id => do
    return .verification (← ofRepair (VerificationService.verify id))

/-- `POST /receipt`. -/
def generateReceipt (businessTransactionId : JsValue) : ApiProgram Response :=
  caller.ofBody businessTransactionId fun id => do
    return .receipt (← ofRepair (ReceiptService.generate id))

/-- `GET /refusal/:businessTransactionId`, with or without a repository of refusals. -/
def getRefusalRecord (refusalRecords : Bool) (id : JsString) : ApiProgram Response :=
  caller.owned id "Refusal Record not found." do
    if refusalRecords then
      match ← ask (.findRefusalRecord id) with
      | none => return .notFound "Refusal Record not found."
      | some refusalRecord => return .refusalRecord refusalRecord
    else return .notFound "Refusal Record not found."

/-- `POST /replay`.  The identifier need not be a UUID; nothing is stored under one that is
not a string. -/
def replay (businessTransactionId : JsValue) : ApiProgram Response :=
  if !businessTransactionId.truthy then
    return .badRequest "businessTransactionId is required."
  else match businessTransactionId with
    | .json (.str id) => caller.owned id "Execution Trust Record not found." (replayTrustRecord id)
    | _ => throw (.runtimeError ("Execution Trust Record not found." : String)
        ("VERIFICATION_FAILED" : String) 404)

/-- `GET /execution-intents/:businessTransactionId`. -/
def getExecutionIntent (executionIntents : Bool) (id : JsString) : ApiProgram Response :=
  caller.owned id "Execution Intent not found." do
    if executionIntents then
      match ← ask (.repair (.runtime (.findIntent id))) with
      | none => return .notFound "Execution Intent not found."
      | some stored => return .executionIntent (publicView stored).1 (publicView stored).2
    else return .notFound "Execution Intent not found."

/-! ## Routes for people -/

/-- A route for verified humans. -/
def humanOnly (route : ApiProgram Response) : ApiProgram Response :=
  if isHumanCaller caller.credentialHolderType then route else return denyNonHumanCaller

/-- `DEFAULT_UNFINALIZED_LIMIT`, unless another is asked for, up to
`MAX_UNFINALIZED_LIMIT`. -/
def unfinalizedLimit (requested : Option Nat) : Nat := requested.elim 50 fun limit => min limit 200

/-- `GET /execution-intents/unfinalized`. -/
def listUnfinalized (executionIntents : Bool) (requested : Option Nat) : ApiProgram Response :=
  caller.humanOnly do
    if executionIntents then
      let intents ← ask (.listUnfinalized (unfinalizedLimit requested))
      return .executionIntents (intents.map publicView)
    else return .executionIntents []

/-- `POST /execution-intents/:businessTransactionId/finalize`. -/
def finalize (executionIntents : Bool) (id : JsString) : ApiProgram Response :=
  caller.humanOnly do
    let result ← ofRepair (ExecutionTrustApplication.finalizeExecutionIntent executionIntents id)
    return .finalized result.1 result.2

/-- `POST /execution-intents/:businessTransactionId/resolve`. -/
def resolve (executionIntents : Bool) (id : JsString) (resolution note : JsValue) :
    ApiProgram Response :=
  caller.humanOnly do
    let result ← ofRepair (RepairProgram.ofRuntime
      (ExecutionTrustApplication.resolveExecutionIntent executionIntents id
        { resolution := resolution, note := note, resolvedBy := caller.callerId }))
    return .resolved result.1 result.2.intent result.2.status

end Caller

/-- What a request does. -/
def Request.handle (application : Application) (caller : Caller) : Request → ApiProgram Response
  | .execute submission => application.submitRoute caller "/execute" submission
  | .createTransaction submission => application.submitRoute caller "/transactions" submission
  | .listTransactions page pageSize => caller.listTransactions page pageSize
  | .getTransaction id => caller.getTransaction id
  | .listTrustRecords page pageSize within => caller.listTrustRecords page pageSize within
  | .getTrustRecord id => caller.getTrustRecord id
  | .verify businessTransactionId => caller.verify businessTransactionId
  | .getVerification id => caller.getVerification id
  | .generateReceipt businessTransactionId => caller.generateReceipt businessTransactionId
  | .getReceipt id => caller.getReceipt id
  | .getRefusalRecord id => caller.getRefusalRecord application.refusalRecords id
  | .replay businessTransactionId => caller.replay businessTransactionId
  | .listUnfinalized requested => caller.listUnfinalized application.executionIntents requested
  | .getExecutionIntent id => caller.getExecutionIntent application.executionIntents id
  | .finalize id => caller.finalize application.executionIntents id
  | .resolve id resolution note => caller.resolve application.executionIntents id resolution note

end Parmana.Api

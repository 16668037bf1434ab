import Parmana.Governance.ApprovalIssuers
import Parmana.Interaction.Transactions
import Parmana.Js.WellFormed

/-! # The repository of approver keys in Postgres

`SupabaseApprovalIssuerRepository` resolves a change in a transaction: it locks the row of the
change, writes the row of the key, writes the row of the change and commits.  Between these
statements the other calls may run theirs.

Here are the statements, the repository's programs over them and what the database answers.
Every text of a statement is a `TEXT` parameter: it arrives in UTF-8, so that two identifiers
that differ in a lone surrogate are one there (`sent`), and one with a NUL is refused.  What a
call has found under its locks still holds when it commits (`Ready.unmoved`), so that a commit
carries its request out as `ApproverKeys.Step` says (`Ready.step`).
-/
namespace Parmana.Governance
open Js Interaction Interaction.Program Approval

/-! ## Rows and statements -/

/-- A row of `approval_issuer_changes`, by its primary key, or of `approval_issuers`. -/
inductive ApproverRow where
  | change (changeId : JsString)
  | issuer (approverId keyId : JsString)
  deriving DecidableEq

/-- What is stored in a row, if there is one.  The columns are the fields of the record. -/
abbrev ApproverRow.Value : ApproverRow → Type
  | .change _ => Option ApprovalIssuerChange
  | .issuer .. => Option ApprovalIssuerRecord

/-- The database, with a client for each call. -/
abbrev ApproverRows (ι : Type) := Database ApproverRow ApproverRow.Value ι

/-- `POSTGRES_UNIQUE_VIOLATION`. -/
def POSTGRES_UNIQUE_VIOLATION : JsString := "23505"

/-- What a statement throws: an error of the database, with its code, or one of the program. -/
inductive StatementError where
  | database (code : JsString)
  | failure (failure : Failure)
  deriving DecidableEq

/-- `isUniqueViolation`. -/
def isUniqueViolation : StatementError → Bool
  | .database code => code = POSTGRES_UNIQUE_VIOLATION
  | .failure _ => false

/-- `console.error`, with the text of the error; the database throws an `Error`. -/
def StatementError.logged : StatementError → Except StatementError Unit
  | .database _ => .ok ()
  | .failure thrown => thrown.logged.mapError .failure

/-- A statement.  The client a call gets from the pool is its own until it is given back, so it
is named after the call. -/
inductive ApproverStatement (ι : Type) where
  /-- `pool.connect()` -/
  | connect (client : ι)
  /-- `BEGIN` -/
  | begin (client : ι)
  /-- `LOCK_CHANGE_SQL` -/
  | lockChange (client : ι) (changeId : JsString)
  /-- `INSERT_ISSUER_SQL` -/
  | insertIssuer (client : ι) (approverId keyId : JsString) (publicKeyPem : Option JsString)
    (changeId : JsString) (addedAt : Int)
  /-- `REVOKE_ISSUER_SQL`, which answers how many rows it changed -/
  | revokeIssuer (client : ι) (approverId keyId changeId : JsString) (revokedAt : Int)
  /-- `RESOLVE_CHANGE_SQL` -/
  | resolveChange (client : ι) (changeId : JsString) (status : PendingPolicyChangeStatus)
    (resolvedBy : JsString) (resolvedAt : Int) (rejectionReason : Option JsString)
  /-- `COMMIT` -/
  | commit (client : ι)
  /-- `ROLLBACK` -/
  | rollback (client : ι)
  /-- `INSERT_CHANGE_SQL`, outside a transaction -/
  | insertChange (client : ι) (change : ApprovalIssuerChange)
  /-- `SELECT_ISSUER_SQL`, outside a transaction -/
  | selectIssuer (approverId keyId : JsString)

/-- The client a statement is run on. -/
def ApproverStatement.client {ι : Type} : ApproverStatement ι → Option ι
  | .connect client | .begin client | .lockChange client _ | .insertIssuer client ..
  | .revokeIssuer client .. | .resolveChange client .. | .commit client | .rollback client
  | .insertChange client _ => some client
  | .selectIssuer .. => none

/-- The texts a statement is given. -/
def ApproverStatement.texts {ι : Type} : ApproverStatement ι → List JsString
  | .lockChange _ changeId => [changeId]
  | .insertIssuer _ approverId keyId publicKeyPem changeId _ =>
    [approverId, keyId, changeId] ++ publicKeyPem.toList
  | .revokeIssuer _ approverId keyId changeId _ => [approverId, keyId, changeId]
  | .resolveChange _ changeId _ resolvedBy _ rejectionReason =>
    [changeId, resolvedBy] ++ rejectionReason.toList
  | .insertChange _ change => change.texts
  | .selectIssuer approverId keyId => [approverId, keyId]
  | _ => []

/-- What a statement answers. -/
abbrev ApproverStatement.Answer {ι : Type} : ApproverStatement ι → Type
  | .lockChange .. => Option ApprovalIssuerChange
  | .revokeIssuer .. => Nat
  | .selectIssuer .. => Option ApprovalIssuerRecord
  | _ => Unit

/-- A statement, with its answer. -/
abbrev ApproverEvent (ι : Type) :=
  Event (ApproverStatement ι) ApproverStatement.Answer StatementError

abbrev ApproverProgram (ι : Type) :=
  Program (ApproverStatement ι) ApproverStatement.Answer StatementError

/-! ## The repository -/

namespace SupabaseApprovalIssuerRepository
variable {ι : Type}

/-- Runs a statement. -/
abbrev query (statement : ApproverStatement ι) : ApproverProgram ι statement.Answer :=
  perform statement

/-- `inTransaction`. -/
def inTransaction {α : Type} (client : ι) (work : ApproverProgram ι α) : ApproverProgram ι α := do
  query (.connect client)
  tryCatch (do
    query (.begin client)
    let result ← work
    query (.commit client)
    return result) fun error => do
      tryCatch (query (.rollback client)) fun _ => return ()
      throw error

/-- `lockPending`. -/
def lockPending (client : ι) (changeId : JsString) : ApproverProgram ι ApprovalIssuerChange := do
  match ← query (.lockChange client changeId) with
  | none => throw (.failure (approvalIssuerChangeNotFound changeId))
  | some change =>
    if change.status = .pendingApproval then return change
    else throw (.failure change.alreadyResolved)

/-- What an approval does to the key. -/
def applyChange (client : ι) (change : ApprovalIssuerChange) (resolvedAt : Int) :
    ApproverProgram ι Unit :=
  match change.action with
  | .add =>
    tryCatch (query (.insertIssuer client change.approverId change.keyId change.publicKeyPem
      change.changeId resolvedAt)) fun error =>
        if isUniqueViolation error then throw (.failure change.alreadyExists) else throw error
  | .revoke => do
    let rowCount ← query (.revokeIssuer client change.approverId change.keyId change.changeId
      resolvedAt)
    if rowCount = 0 then throw (.failure change.notRevocable) else return ()

/-- `approveChange`. -/
def approveChange (client : ι) (changeId approvedBy : JsString) (resolvedAt : Int) :
    ApproverProgram ι ApprovalIssuerChange :=
  inTransaction client do
    let change ← lockPending client changeId
    applyChange client change resolvedAt
    query (.resolveChange client changeId .approved approvedBy resolvedAt none)
    return change.approved approvedBy resolvedAt

/-- `rejectChange`. -/
def rejectChange (client : ι) (changeId rejectedBy rejectionReason : JsString)
    (resolvedAt : Int) : ApproverProgram ι ApprovalIssuerChange :=
  inTransaction client do
    let change ← lockPending client changeId
    query (.resolveChange client changeId .rejected rejectedBy resolvedAt (some rejectionReason))
    return change.rejected rejectedBy rejectionReason resolvedAt

/-- `createChange`. -/
def createChange (client : ι) (change : ApprovalIssuerChange) :
    ApproverProgram ι ApprovalIssuerChange := do
  tryCatch (query (.insertChange client change)) fun error =>
    if isUniqueViolation error then throw (.failure change.pendingConflict) else throw error
  return change

/-- `findIssuer`. -/
def findIssuer (approverId keyId : JsString) :
    ApproverProgram ι (Option ApprovalIssuerRecord) := query (.selectIssuer approverId keyId)

end SupabaseApprovalIssuerRepository

/-! ## The database -/

section Serves
variable {ι : Type} [DecidableEq ι]

/-- `INSERT_CHANGE_SQL` takes effect: the primary key is new, the key is there exactly for an
addition (`CHECK`), and no other pending change is of the pair
(`ux_approval_issuer_changes_open`). -/
structure Inserts (db : ApproverRows ι) (client : ι) (change : ApprovalIssuerChange)
    (db' : ApproverRows ι) : Prop where
  new : db.rows (.change change.changeId) = none
  free : db.holder (.change change.changeId) = none
  publicKey : change.publicKeyPem.isSome ↔ change.action = .add
  onePending : change.status = .pendingApproval → ∀ id c, db.rows (.change id) = some c →
    c.status = .pendingApproval → ¬ c.Of change.approverId change.keyId
  written : db' = db.write client ⟨.change change.changeId, some change⟩

/-- The row `INSERT_ISSUER_SQL` makes. -/
def insertedIssuer (approverId keyId publicKeyPem changeId : JsString) (addedAt : Int) :
    ApprovalIssuerRecord :=
  ⟨approverId, keyId, publicKeyPem, false, changeId, addedAt, none, none⟩

/-- The row of a change, resolved. -/
def ApprovalIssuerChange.resolvedRow (change : ApprovalIssuerChange)
    (status : PendingPolicyChangeStatus) (resolvedBy : JsString) (resolvedAt : Int)
    (rejectionReason : Option JsString) : ApprovalIssuerChange :=
  { change with
    status
    resolvedBy := some resolvedBy
    resolvedAt := some resolvedAt
    rejectionReason }

section Statements
variable (db : ApproverRows ι) (client : ι) (db' : ApproverRows ι)

/-- `LOCK_CHANGE_SQL` finds a row, and locks it. -/
def LocksChange (changeId : JsString) (found : Option ApprovalIssuerChange) : Prop :=
  found = db.rows (.change changeId) ∧
    if found.isSome then
      db.Free client (.change changeId) ∧ db' = db.lock client (.change changeId)
    else db' = db

/-- `INSERT_ISSUER_SQL` takes effect: the primary key is new, and the key is there. -/
def InsertsIssuer (approverId keyId : JsString) (publicKeyPem : Option JsString)
    (changeId : JsString) (addedAt : Int) : Prop :=
  db.Free client (.issuer approverId keyId) ∧ db.rows (.issuer approverId keyId) = none ∧
    ∃ pem, publicKeyPem = some pem ∧
      db' = (db.lock client (.issuer approverId keyId)).stage client
        ⟨.issuer approverId keyId, some (insertedIssuer approverId keyId pem changeId addedAt)⟩

/-- `REVOKE_ISSUER_SQL` changes the row of a key that is not revoked, and no other. -/
def RevokesIssuer (approverId keyId changeId : JsString) (revokedAt : Int) (rowCount : Nat) :
    Prop :=
  match db.rows (.issuer approverId keyId) with
  | some current =>
    if current.revoked then rowCount = 0 ∧ db' = db
    else rowCount = 1 ∧ db.Free client (.issuer approverId keyId) ∧
      db' = (db.lock client (.issuer approverId keyId)).stage client
        ⟨.issuer approverId keyId, some (current.revokedBy changeId revokedAt)⟩
  | none => rowCount = 0 ∧ db' = db

/-- `RESOLVE_CHANGE_SQL` changes the row of a pending change, which its proposer may not resolve
(`CHECK`), and no other. -/
def ResolvesChange (changeId : JsString) (status : PendingPolicyChangeStatus)
    (resolvedBy : JsString) (resolvedAt : Int) (rejectionReason : Option JsString) : Prop :=
  match db.rows (.change changeId) with
  | some change =>
    if change.status = .pendingApproval then
      db.Free client (.change changeId) ∧ resolvedBy ≠ change.proposedBy ∧
        db' = (db.lock client (.change changeId)).stage client
          ⟨.change changeId, some (change.resolvedRow status resolvedBy resolvedAt rejectionReason)⟩
    else db' = db
  | none => db' = db

end Statements

/-- The change, as its texts arrive. -/
def ApprovalIssuerChange.sent (change : ApprovalIssuerChange) : ApprovalIssuerChange :=
  { change with
    changeId := change.changeId.toWellFormed
    approverId := change.approverId.toWellFormed
    keyId := change.keyId.toWellFormed
    publicKeyPem := change.publicKeyPem.map JsString.toWellFormed
    reason := change.reason.toWellFormed
    proposedBy := change.proposedBy.toWellFormed
    resolvedBy := change.resolvedBy.map JsString.toWellFormed
    rejectionReason := change.rejectionReason.map JsString.toWellFormed }

/-- A statement as it arrives, with its answer: its texts are written as UTF-8. -/
def sent : ApproverEvent ι → ApproverEvent ι
  | ⟨.lockChange client changeId, ans⟩ => ⟨.lockChange client changeId.toWellFormed, ans⟩
  | ⟨.insertIssuer client approverId keyId publicKeyPem changeId addedAt, ans⟩ =>
    ⟨.insertIssuer client approverId.toWellFormed keyId.toWellFormed
      (publicKeyPem.map JsString.toWellFormed) changeId.toWellFormed addedAt, ans⟩
  | ⟨.revokeIssuer client approverId keyId changeId revokedAt, ans⟩ =>
    ⟨.revokeIssuer client approverId.toWellFormed keyId.toWellFormed changeId.toWellFormed
      revokedAt, ans⟩
  | ⟨.resolveChange client changeId status resolvedBy resolvedAt rejectionReason, ans⟩ =>
    ⟨.resolveChange client changeId.toWellFormed status resolvedBy.toWellFormed resolvedAt
      (rejectionReason.map JsString.toWellFormed), ans⟩
  | ⟨.insertChange client change, ans⟩ => ⟨.insertChange client change.sent, ans⟩
  | ⟨.selectIssuer approverId keyId, ans⟩ =>
    ⟨.selectIssuer approverId.toWellFormed keyId.toWellFormed, ans⟩
  | e => e

/-- What the database answers to a statement that arrives.  A statement that writes a row locks
it, and so does `FOR UPDATE`; it is answered when no other client has the row locked.  Where
answers can be lost, a write that is answered with an error may have taken effect. -/
def ApproverRows.Answers (lossless : Bool) (db : ApproverRows ι) :
    ApproverEvent ι → ApproverRows ι → Prop
  | ⟨.lockChange client changeId, .ok found⟩, db' => LocksChange db client db' changeId found
  | ⟨.insertIssuer client approverId keyId publicKeyPem changeId addedAt, .ok _⟩, db' =>
    InsertsIssuer db client db' approverId keyId publicKeyPem changeId addedAt
  | ⟨.revokeIssuer client approverId keyId changeId revokedAt, .ok rowCount⟩, db' =>
    RevokesIssuer db client db' approverId keyId changeId revokedAt rowCount
  | ⟨.resolveChange client changeId status resolvedBy resolvedAt rejectionReason, .ok _⟩, db' =>
    ResolvesChange db client db' changeId status resolvedBy resolvedAt rejectionReason
  | ⟨.commit client, .ok _⟩, db' => db' = db.commit client
  | ⟨.commit client, .error _⟩, db' =>
    db' = db.rollback client ∨ lossless = false ∧ db' = db.commit client
  | ⟨.rollback client, _⟩, db' => db' = db.rollback client
  | ⟨.insertChange client change, .ok _⟩, db' => Inserts db client change db'
  | ⟨.insertChange client change, .error _⟩, db' =>
    db' = db ∨ lossless = false ∧ Inserts db client change db'
  | ⟨.selectIssuer approverId keyId, .ok found⟩, db' =>
    found = db.rows (.issuer approverId keyId) ∧ db' = db
  | _, db' => db' = db

/-- What the database answers: an error where a text has a NUL. -/
def ApproverRows.Serves (lossless : Bool) (db : ApproverRows ι) (e : ApproverEvent ι)
    (db' : ApproverRows ι) : Prop :=
  if ∀ text ∈ e.1.texts, NulFree text then db.Answers lossless (sent e) db'
  else (∃ error, e.2 = .error error) ∧ db' = db

omit [DecidableEq ι] in
theorem sent_change {change : ApprovalIssuerChange}
    (h : ∀ text ∈ change.texts, JsString.paired text.units = true) : change.sent = change := by
  have htext : ∀ text ∈ change.texts, text.toWellFormed = text :=
    fun text hmem => JsString.toWellFormed_of_paired (h text hmem)
  have hmap : ∀ text : Option JsString, (∀ t ∈ text.toList, t ∈ change.texts) →
      text.map JsString.toWellFormed = text := by
    rintro (_ | text) hmem
    · rfl
    · exact congrArg some (htext text (hmem text (List.mem_singleton_self text)))
  unfold ApprovalIssuerChange.sent
  rw [htext change.changeId (by simp [ApprovalIssuerChange.texts]),
    htext change.approverId (by simp [ApprovalIssuerChange.texts]),
    htext change.keyId (by simp [ApprovalIssuerChange.texts]),
    htext change.reason (by simp [ApprovalIssuerChange.texts]),
    htext change.proposedBy (by simp [ApprovalIssuerChange.texts]),
    hmap change.publicKeyPem (by simp +contextual [ApprovalIssuerChange.texts]),
    hmap change.resolvedBy (by simp +contextual [ApprovalIssuerChange.texts]),
    hmap change.rejectionReason (by simp +contextual [ApprovalIssuerChange.texts])]

omit [DecidableEq ι] in
/-- Texts without a lone surrogate arrive as they are. -/
theorem sent_of_paired {e : ApproverEvent ι}
    (h : ∀ text ∈ e.1.texts, JsString.paired text.units = true) : sent e = e := by
  have hmap : ∀ text : Option JsString, (∀ t ∈ text, JsString.paired t.units = true) →
      text.map JsString.toWellFormed = text := by
    rintro (_ | text) hpaired
    · rfl
    · exact congrArg some (JsString.toWellFormed_of_paired (hpaired text rfl))
  obtain ⟨statement, ans⟩ := e
  cases statement with
  | insertChange client change =>
    dsimp only [sent]
    rw [sent_change h]
  | insertIssuer client approverId keyId publicKeyPem changeId addedAt =>
    simp only [ApproverStatement.texts, List.forall_mem_append, List.forall_mem_cons,
      Option.mem_toList] at h
    dsimp only [sent]
    rw [JsString.toWellFormed_of_paired h.1.1, JsString.toWellFormed_of_paired h.1.2.1,
      JsString.toWellFormed_of_paired h.1.2.2.1, hmap _ h.2]
  | resolveChange client changeId status resolvedBy resolvedAt rejectionReason =>
    simp only [ApproverStatement.texts, List.forall_mem_append, List.forall_mem_cons,
      Option.mem_toList] at h
    dsimp only [sent]
    rw [JsString.toWellFormed_of_paired h.1.1, JsString.toWellFormed_of_paired h.1.2.1,
      hmap _ h.2]
  | revokeIssuer client approverId keyId changeId revokedAt =>
    simp only [ApproverStatement.texts, List.forall_mem_cons] at h
    dsimp only [sent]
    rw [JsString.toWellFormed_of_paired h.1, JsString.toWellFormed_of_paired h.2.1,
      JsString.toWellFormed_of_paired h.2.2.1]
  | lockChange client changeId =>
    simp only [ApproverStatement.texts, List.forall_mem_cons] at h
    dsimp only [sent]
    rw [JsString.toWellFormed_of_paired h.1]
  | selectIssuer approverId keyId =>
    simp only [ApproverStatement.texts, List.forall_mem_cons] at h
    dsimp only [sent]
    rw [JsString.toWellFormed_of_paired h.1, JsString.toWellFormed_of_paired h.2.1]
  | _ => rfl

end Serves

/-! ## What the rows stand for -/

namespace ApproverRows
variable {ι : Type} {db db' : ApproverRows ι} {client : ι}
  {rows : (row : ApproverRow) → row.Value}

/-- The changes and the records of the rows. -/
def keys (rows : (row : ApproverRow) → row.Value) : ApproverKeys where
  change changeId := rows (.change changeId)
  issuer approverId keyId := rows (.issuer approverId keyId)

theorem keys_change (changeId : JsString) (change : ApprovalIssuerChange) :
    keys (Function.update rows (.change changeId) (some change)) =
      (keys rows).setChange changeId change := by
  unfold keys ApproverKeys.setChange
  congr 1
  funext id
  by_cases hid : id = changeId
  · subst hid
    rw [Function.update_self, Function.update_self]
  · rw [Function.update_of_ne hid, Function.update_of_ne]
    exact fun h => hid (ApproverRow.change.inj h)

theorem keys_issuer (approverId keyId : JsString) (record : ApprovalIssuerRecord) :
    keys (Function.update rows (.issuer approverId keyId) (some record)) =
      (keys rows).setIssuer approverId keyId record := by
  unfold keys ApproverKeys.setIssuer
  congr 1
  funext a k
  by_cases hof : approverId = a ∧ keyId = k
  · obtain ⟨rfl, rfl⟩ := hof
    rw [Function.update_self, if_pos ⟨rfl, rfl⟩]
  · rw [if_neg hof, Function.update_of_ne]
    intro h
    obtain ⟨rfl, rfl⟩ := ApproverRow.issuer.inj h
    exact hof ⟨rfl, rfl⟩

/-! ## Ready to commit -/

/-- A client has a row locked that it has read. -/
structure Holds (db : ApproverRows ι) (client : ι) (row : ApproverRow) (value : row.Value) :
    Prop where
  holder : db.holder row = some client
  rows : db.rows row = value

theorem Holds.unmoved {row : ApproverRow} {value : row.Value} (h : Holds db client row value)
    (hmoved : db.Unmoved client db') : Holds db' client row value :=
  ⟨hmoved.holder row h.holder, (hmoved.rows row h.holder).trans h.rows⟩

/-- A client has staged what its request comes to, under rows that it has locked. -/
inductive Ready (db : ApproverRows ι) (client : ι) : IssuerRequest → Prop where
  | add {changeId approvedBy resolvedAt change publicKeyPem}
      (hchange : Holds db client (.change changeId) (some change))
      (hpending : change.status = .pendingApproval) (haction : change.action = .add)
      (hkey : change.publicKeyPem = some publicKeyPem)
      (hissuer : Holds db client (.issuer change.approverId change.keyId) none)
      (hstaged : db.staged client = [⟨.issuer change.approverId change.keyId,
          some (change.issuer publicKeyPem resolvedAt)⟩,
        ⟨.change changeId, some (change.resolvedRow .approved approvedBy resolvedAt none)⟩]) :
      Ready db client (.approveChange changeId approvedBy resolvedAt)
  | revoke {changeId approvedBy resolvedAt change current}
      (hchange : Holds db client (.change changeId) (some change))
      (hpending : change.status = .pendingApproval) (haction : change.action = .revoke)
      (hissuer : Holds db client (.issuer change.approverId change.keyId) (some current))
      (hactive : current.revoked = false)
      (hstaged : db.staged client = [⟨.issuer change.approverId change.keyId,
          some (current.revokedBy change.changeId resolvedAt)⟩,
        ⟨.change changeId, some (change.resolvedRow .approved approvedBy resolvedAt none)⟩]) :
      Ready db client (.approveChange changeId approvedBy resolvedAt)
  | reject {changeId rejectedBy rejectionReason resolvedAt change}
      (hchange : Holds db client (.change changeId) (some change))
      (hpending : change.status = .pendingApproval)
      (hstaged : db.staged client = [⟨.change changeId,
        some (change.resolvedRow .rejected rejectedBy resolvedAt (some rejectionReason))⟩]) :
      Ready db client (.rejectChange changeId rejectedBy rejectionReason resolvedAt)

variable {request : IssuerRequest}

/-- **What is ready stays so**, whatever the other clients do. -/
theorem Ready.unmoved (h : Ready db client request) (hmoved : db.Unmoved client db') :
    Ready db' client request := by
  cases h with
  | add hchange hpending haction hkey hissuer hstaged =>
    exact .add (hchange.unmoved hmoved) hpending haction hkey (hissuer.unmoved hmoved)
      (hmoved.staged.trans hstaged)
  | revoke hchange hpending haction hissuer hactive hstaged =>
    exact .revoke (hchange.unmoved hmoved) hpending haction (hissuer.unmoved hmoved) hactive
      (hmoved.staged.trans hstaged)
  | reject hchange hpending hstaged =>
    exact .reject (hchange.unmoved hmoved) hpending (hmoved.staged.trans hstaged)

/-- **A commit carries the request out.** -/
theorem Ready.step [DecidableEq ι] (h : Ready db client request) (hs : (keys db.rows).Lifecycle) :
    ApproverKeys.Step (keys db.rows) request (keys (db.commit client).rows) := by
  have hcommit : (db.commit client).rows = Database.apply db.rows (db.staged client) := rfl
  rw [hcommit]
  cases h with
  | @add changeId approvedBy resolvedAt change publicKeyPem hchange hpending haction hkey hissuer
      hstaged =>
    have happroved : change.resolvedRow .approved approvedBy resolvedAt none =
        change.approved approvedBy resolvedAt := by
      unfold ApprovalIssuerChange.resolvedRow ApprovalIssuerChange.approved
      rw [hs.unresolved _ _ hchange.rows hpending]
    rw [hstaged, happroved]
    rw [Database.apply_cons, Database.apply_cons, Database.apply_nil, keys_change, keys_issuer]
    exact .add hchange.rows hpending haction hkey hissuer.rows
  | @revoke changeId approvedBy resolvedAt change current hchange hpending haction hissuer hactive
      hstaged =>
    have happroved : change.resolvedRow .approved approvedBy resolvedAt none =
        change.approved approvedBy resolvedAt := by
      unfold ApprovalIssuerChange.resolvedRow ApprovalIssuerChange.approved
      rw [hs.unresolved _ _ hchange.rows hpending]
    rw [hstaged, happroved]
    rw [Database.apply_cons, Database.apply_cons, Database.apply_nil, keys_change, keys_issuer]
    exact .revoke hchange.rows hpending haction hissuer.rows hactive
  | reject hchange hpending hstaged =>
    rw [hstaged, Database.apply_cons, Database.apply_nil, keys_change]
    exact .reject hchange.rows hpending

end ApproverRows
end Parmana.Governance

import Parmana.Governance.ApprovalIssuerRows

/-! # The transactions of the approver keys

Each call of `SupabaseApprovalIssuerRepository` commits only when it is ready, and what one
statement does leaves the other calls' locks and writes theirs (`answers_kept`).  So the rows
are at any time what the requests that have taken effect, one after another, make of them
(`rows_keep`), as the maps of the repository in memory are: `approver_keys_kept` is of both.
-/
namespace Parmana.Governance
open Js Interaction Interaction.Program Approval

namespace ApproverRows
variable {ι : Type} {db db' : ApproverRows ι}

/-! ## The calls -/

section Calls
variable {requests : ι → IssuerRequest} {lossless : Bool} {i : ι}

/-- What is so between any two statements: nothing is staged under a row that is not locked, and
the rows come of the requests that have taken effect. -/
structure Kept (requests : ι → IssuerRequest) (db : ApproverRows ι) : Prop where
  guarded : db.Guarded
  run : ApproverKeys.Run requests db.journal .empty (keys db.rows)

/-- What the call of a request may do: use its own client, with texts that arrive as they are,
and make its changes when they are ready, once. -/
def Allowed (requests : ι → IssuerRequest) (i : ι) (db : ApproverRows ι)
    (statement : ApproverStatement ι) : Prop :=
  (∀ client, statement.client = some client → client = i) ∧
    (∀ text ∈ statement.texts, JsString.paired text.units = true) ∧
    match statement with
    | .commit _ => i ∉ db.journal ∧ Ready db i (requests i)
    | .insertChange _ change => i ∉ db.journal ∧ requests i = .createChange change
    | _ => True

theorem allowed_unmoved {statement : ApproverStatement ι} (hmoved : db.Unmoved i db')
    (h : Allowed requests i db statement) : Allowed requests i db' statement := by
  obtain ⟨hclient, htexts, hready⟩ := h
  refine ⟨hclient, htexts, ?_⟩
  cases statement with
  | commit client => exact ⟨fun hmem => hready.1 (hmoved.journal.mp hmem), hready.2.unmoved hmoved⟩
  | insertChange client change =>
    exact ⟨fun hmem => hready.1 (hmoved.journal.mp hmem), hready.2⟩
  | _ => trivial

/-- A statement of its own client that changes nothing for good. -/
theorem allowed_own {statement : ApproverStatement ι} (hclient : statement.client = some i)
    (htexts : ∀ text ∈ statement.texts, JsString.paired text.units = true)
    (hother : match statement with | .commit _ | .insertChange .. => False | _ => True) :
    Allowed requests i db statement := by
  refine ⟨fun client h => Option.some.inj (h.symm.trans hclient), htexts, ?_⟩
  cases statement with
  | commit => exact absurd hother id
  | insertChange => exact absurd hother id
  | _ => trivial

/-- Rows and journal are as they were. -/
theorem Kept.of_same (h : Kept requests db) (hguarded : db'.Guarded) (hrows : db'.rows = db.rows)
    (hjournal : db'.journal = db.journal) : Kept requests db' :=
  ⟨hguarded, by rw [hrows, hjournal]; exact h.run⟩

theorem Kept.commit [DecidableEq ι] (h : Kept requests db) (hready : Ready db i (requests i)) :
    Kept requests (db.commit i) :=
  ⟨h.guarded.commit, h.run.snoc
    (hready.step (ApproverKeys.lifecycle_of_run h.run ApproverKeys.lifecycle_empty))⟩

theorem Kept.insert (h : Kept requests db) {change : ApprovalIssuerChange}
    (hproposed : change.Proposed) (hrequest : requests i = .createChange change)
    (hinserts : Inserts db i change db') : Kept requests db' := by
  obtain ⟨hnew, -, -, honePending, rfl⟩ := hinserts
  refine ⟨h.guarded.write, h.run.snoc (i := i) ?_⟩
  have hrows : keys (db.write i ⟨.change change.changeId, some change⟩).rows =
      (keys db.rows).setChange change.changeId change := keys_change ..
  rw [hrequest, hrows]
  exact .create hproposed hnew (honePending hproposed.pending)

/-- A stored change has the texts of a request. -/
theorem Kept.texts (h : Kept requests db)
    (htexts : ∀ i, ∀ text ∈ (requests i).texts, JsString.paired text.units = true)
    {changeId : JsString} {change : ApprovalIssuerChange}
    (hget : db.rows (.change changeId) = some change) :
    ∀ text ∈ change.proposal.texts, JsString.paired text.units = true := by
  intro text hmem
  -- whatever became of the change, a request that has taken effect created it
  rcases ApproverKeys.created_of_run h.run hget with
    ⟨_, ⟨⟩, -⟩ | ⟨i, -, created, hrequest, -, hsame⟩
  rw [hsame] at hmem
  have hcreated := htexts i text
  rw [hrequest] at hcreated
  exact hcreated (created.texts_proposal hmem)

variable [DecidableEq ι]

/-- **What a statement can do**: nothing, lock a row, lock it and stage a write, give up, commit,
or insert a change. -/
theorem answers_cases {e : ApproverEvent ι} (h : Answers lossless db e db') :
    db' = db ∨
    (∃ client row, e.1.client = some client ∧ db.Free client row ∧
      (db' = db.lock client row ∨
        ∃ value, db' = (db.lock client row).stage client ⟨row, value⟩)) ∨
    (∃ client, e.1.client = some client ∧ db' = db.rollback client) ∨
    (∃ client, e.1 = .commit client ∧ db' = db.commit client) ∨
    ∃ client change, e.1 = .insertChange client change ∧ Inserts db client change db' := by
  obtain ⟨statement, ans⟩ := e
  cases statement with
  | connect client => exact .inl h
  | begin client => exact .inl h
  | selectIssuer approverId keyId =>
    cases ans with
    | ok found => exact .inl h.2
    | error e => exact .inl h
  | lockChange client changeId =>
    cases ans with
    | error e => exact .inl h
    | ok found =>
      obtain ⟨-, h⟩ := h
      split at h
      · exact .inr (.inl ⟨client, _, rfl, h.1, .inl h.2⟩)
      · exact .inl h
  | insertIssuer client approverId keyId publicKeyPem changeId addedAt =>
    cases ans with
    | error e => exact .inl h
    | ok _ =>
      obtain ⟨hfree, -, pem, -, hdb⟩ := h
      exact .inr (.inl ⟨client, _, rfl, hfree, .inr ⟨_, hdb⟩⟩)
  | revokeIssuer client approverId keyId changeId revokedAt =>
    cases ans with
    | error e => exact .inl h
    | ok rowCount =>
      have h : RevokesIssuer db client db' approverId keyId changeId revokedAt rowCount := h
      unfold RevokesIssuer at h
      split at h
      · split at h
        · exact .inl h.2
        · exact .inr (.inl ⟨client, _, rfl, h.2.1, .inr ⟨_, h.2.2⟩⟩)
      · exact .inl h.2
  | resolveChange client changeId status resolvedBy resolvedAt rejectionReason =>
    cases ans with
    | error e => exact .inl h
    | ok _ =>
      have h : ResolvesChange db client db' changeId status resolvedBy resolvedAt
        rejectionReason := h
      unfold ResolvesChange at h
      split at h
      · split at h
        · exact .inr (.inl ⟨client, _, rfl, h.1, .inr ⟨_, h.2.2⟩⟩)
        · exact .inl h
      · exact .inl h
  | rollback client =>
    cases ans with
    | ok _ => exact .inr (.inr (.inl ⟨client, rfl, h⟩))
    | error e => exact .inr (.inr (.inl ⟨client, rfl, h⟩))
  | commit client =>
    cases ans with
    | ok _ => exact .inr (.inr (.inr (.inl ⟨client, rfl, h⟩)))
    | error e =>
      -- the connection may be lost before the commit or after it
      rcases h with h | ⟨-, h⟩
      · exact .inr (.inr (.inl ⟨client, rfl, h⟩))
      · exact .inr (.inr (.inr (.inl ⟨client, rfl, h⟩)))
  | insertChange client change =>
    cases ans with
    | ok _ => exact .inr (.inr (.inr (.inr ⟨client, change, rfl, h⟩)))
    | error e =>
      rcases h with h | ⟨-, h⟩
      · exact .inl h
      · exact .inr (.inr (.inr (.inr ⟨client, change, rfl, h⟩)))

/-- What is allowed is answered as it is sent. -/
theorem serves_answers {e : ApproverEvent ι} (hallowed : Allowed requests i db e.1)
    (hs : Serves lossless db e db') : Answers lossless db e db' := by
  unfold Serves at hs
  split at hs
  · rwa [sent_of_paired hallowed.2.1] at hs
  · rename_i hnul
    obtain ⟨⟨error, herror⟩, rfl⟩ := hs
    obtain ⟨statement, ans⟩ := e
    obtain rfl : ans = .error error := herror
    cases statement with
    | insertChange => exact .inl rfl
    | commit => exact absurd nofun hnul
    | rollback => exact absurd nofun hnul
    | _ => rfl

/-- **What one statement does leaves the other clients theirs**, and what is so between any
two. -/
theorem answers_kept (hproposed : ∀ i change, requests i = .createChange change → change.Proposed)
    {e : ApproverEvent ι} (h : Kept requests db) (hallowed : Allowed requests i db e.1)
    (hs : Answers lossless db e db') : (∀ j, j ≠ i → db.Unmoved j db') ∧ Kept requests db' := by
  rcases answers_cases hs with rfl | ⟨client, row, hclient, hfree, hlocked⟩ |
    ⟨client, hclient, rfl⟩ | ⟨client, hcommit, rfl⟩ | ⟨client, change, hinsert, hinserts⟩
  · exact ⟨fun _ _ => .refl, h⟩
  -- a row is locked only while no other client holds it, so theirs stay as they are
  · obtain rfl := hallowed.1 client hclient
    rcases hlocked with rfl | ⟨value, rfl⟩
    · exact ⟨fun j hj => Database.unmoved_lock hfree hj,
        h.of_same (h.guarded.lock hfree) rfl rfl⟩
    · exact ⟨fun j hj => (Database.unmoved_lock hfree hj).trans (Database.unmoved_stage hj),
        h.of_same ((h.guarded.lock hfree).stage Database.holder_lock) rfl rfl⟩
  · obtain rfl := hallowed.1 client hclient
    exact ⟨fun j hj => Database.unmoved_rollback hj, h.of_same h.guarded.rollback rfl rfl⟩
  · rw [hcommit] at hallowed
    obtain rfl := hallowed.1 client rfl
    exact ⟨fun j hj => Database.unmoved_commit h.guarded hj, h.commit hallowed.2.2.2⟩
  · rw [hinsert] at hallowed
    obtain rfl := hallowed.1 client rfl
    have hrequest := hallowed.2.2.2
    refine ⟨fun j hj => ?_, h.insert (hproposed client change hrequest) hrequest hinserts⟩
    rw [hinserts.written]
    exact Database.unmoved_write hinserts.free hj

theorem answers_journal {e : ApproverEvent ι} (hs : Answers lossless db e db') :
    ∃ more, db'.journal = db.journal ++ more := by
  rcases answers_cases hs with rfl | ⟨client, row, -, -, rfl | ⟨value, rfl⟩⟩ | ⟨client, -, rfl⟩ |
    ⟨client, -, rfl⟩ | ⟨client, change, -, hinserts⟩
  · exact ⟨[], (List.append_nil _).symm⟩
  · exact ⟨[], (List.append_nil _).symm⟩
  · exact ⟨[], (List.append_nil _).symm⟩
  · exact ⟨[], (List.append_nil _).symm⟩
  · exact ⟨[client], rfl⟩
  · rw [hinserts.written]
    exact ⟨[client], rfl⟩

/-- The requests that have taken effect stay the first to have done so. -/
theorem serves_journal {e : ApproverEvent ι} (hs : Serves lossless db e db') :
    ∃ more, db'.journal = db.journal ++ more := by
  unfold Serves at hs
  split at hs
  · exact answers_journal hs
  · obtain ⟨-, rfl⟩ := hs
    exact ⟨[], (List.append_nil _).symm⟩

/-! ## The transaction of a call -/

open SupabaseApprovalIssuerRepository

/-- The answers a call can get while the others run their statements. -/
abbrev Replies (requests : ι → IssuerRequest) (lossless : Bool) (i : ι) :
    ApproverRows ι → ApproverEvent ι → ApproverRows ι → Prop :=
  Under (Database.Unmoved i) fun db e db' =>
    (∃ _ : List (ι × ApproverEvent ι), Kept requests db) ∧ Serves lossless db e db'

/-- A call has done nothing so far. -/
structure Fresh (i : ι) (db : ApproverRows ι) : Prop where
  journal : i ∉ db.journal
  staged : db.staged i = []

/-- What a call has come to: it has taken effect, or, if no answer is lost, it has not. -/
def Settles {α : Type} (lossless : Bool) (i : ι) (db : ApproverRows ι) :
    Except StatementError α → Prop
  | .ok _ => i ∈ db.journal
  | .error _ => lossless = true → i ∉ db.journal

theorem query_ensures {statement : ApproverStatement ι}
    {post : ApproverRows ι → Except StatementError statement.Answer → Prop}
    (hallowed : Allowed requests i db statement)
    (hpost : ∀ db₁ db' ans, db.Unmoved i db₁ → Kept requests db₁ →
      Answers lossless db₁ ⟨statement, ans⟩ db' → post db' ans) :
    (query statement).Ensures (Replies requests lossless i) (Allowed requests i) post db := by
  refine ensures_perform.mpr ⟨hallowed, ?_⟩
  rintro ans db' ⟨db₁, hmoved, ⟨-, hkept⟩, hs⟩
  exact hpost db₁ db' ans hmoved hkept (serves_answers (allowed_unmoved hmoved hallowed) hs)

omit [DecidableEq ι] in
theorem Fresh.unmoved (h : Fresh i db) (hmoved : db.Unmoved i db') : Fresh i db' :=
  ⟨fun hmem => h.journal (hmoved.journal.mp hmem), hmoved.staged.trans h.staged⟩

/-- What is thrown is settled by the rollback, whether that is answered or not. -/
theorem rollback_ensures {α : Type} {error : StatementError}
    (h : lossless = true → i ∉ db.journal) :
    (do
      tryCatch (query (.rollback i)) fun _ => return ()
      throw error : ApproverProgram ι α).Ensures (Replies requests lossless i)
        (Allowed requests i) (fun db r => Settles lossless i db r) db := by
  refine ensures_bind.mpr (ensures_tryCatch.mpr (query_ensures (allowed_own rfl nofun trivial)
    fun db₁ db₂ ans hmoved _ hs => ?_))
  have hback : lossless = true → i ∉ db₂.journal := by
    intro hlossless hmem
    have hdb : db₂ = db₁.rollback i := by cases ans <;> exact hs
    rw [hdb] at hmem
    exact h hlossless (hmoved.journal.mp hmem)
  cases ans with
  | ok _ => exact hback
  | error e => exact hback

/-- A commit that is ready settles the call. -/
theorem commit_ensures {α : Type} {result : α} (hnew : i ∉ db.journal)
    (hready : Ready db i (requests i)) :
    (do
      query (.commit i)
      return result : ApproverProgram ι α).Ensures (Replies requests lossless i)
        (Allowed requests i) (fun db r => Settles lossless i db r) db := by
  refine ensures_bind.mpr (query_ensures ⟨fun _ h => (Option.some.inj h).symm, nofun, hnew, hready⟩
    fun db₁ db₂ ans hmoved _ hs => ?_)
  cases ans with
  | ok _ =>
    obtain rfl : db₂ = db₁.commit i := hs
    exact List.mem_append_right _ (List.mem_singleton_self i)
  | error e =>
    rcases hs with rfl | ⟨hlossy, -⟩
    · exact fun _ hmem => hnew (hmoved.journal.mp hmem)
    · intro hlossless
      rw [hlossy] at hlossless
      cases hlossless

/-- **A transaction settles its call**, where the work in it leaves the call ready to commit, or
throws before anything has taken effect. -/
theorem inTransaction_ensures {α : Type} {work : ApproverProgram ι α} (hfresh : Fresh i db)
    (hwork : ∀ db, Fresh i db → work.Ensures (Replies requests lossless i) (Allowed requests i)
      (fun db r => i ∉ db.journal ∧ ∀ result, r = .ok result → Ready db i (requests i)) db) :
    (inTransaction i work).Ensures (Replies requests lossless i) (Allowed requests i)
      (fun db r => Settles lossless i db r) db := by
  refine ensures_bind.mpr (query_ensures (allowed_own rfl nofun trivial)
    fun db₁ db₂ ans hmoved _ hs => ?_)
  obtain rfl : db₂ = db₁ := hs
  have hconnected := hfresh.unmoved hmoved
  cases ans with
  | error e => exact fun _ => hconnected.journal
  | ok _ =>
    have hbody : (do
        query (.begin i)
        let result ← work
        query (.commit i)
        return result : ApproverProgram ι α).Ensures (Replies requests lossless i)
          (Allowed requests i) (fun db r => Settles lossless i db r) db₂ := by
      refine ensures_bind.mpr (query_ensures (allowed_own rfl nofun trivial)
        fun db₁ db₂ ans hmoved _ hs => ?_)
      obtain rfl : db₂ = db₁ := hs
      have hbegun := hconnected.unmoved hmoved
      cases ans with
      | error e => exact fun _ => hbegun.journal
      | ok _ =>
        refine ensures_bind.mpr ((hwork db₂ hbegun).mono ?_)
        rintro db (e | result) ⟨hnew, hready⟩
        · exact fun _ => hnew
        · exact commit_ensures hnew (hready result rfl)
    refine ensures_tryCatch.mpr (hbody.mono ?_)
    rintro db (e | result) hsettled
    · exact rollback_ensures hsettled
    · exact hsettled

/-! ## The work in a transaction -/

/-- A call has locked a pending change and done nothing else. -/
structure Locked (i : ι) (db : ApproverRows ι) (changeId : JsString)
    (change : ApprovalIssuerChange) : Prop extends Fresh i db where
  row : Holds db i (.change changeId) (some change)
  pending : change.status = .pendingApproval
  texts : ∀ text ∈ change.proposal.texts, JsString.paired text.units = true

/-- An approval has staged what it does to the key. -/
inductive Applied (i : ι) (db : ApproverRows ι) (change : ApprovalIssuerChange)
    (resolvedAt : Int) : Prop where
  | add {publicKeyPem} (haction : change.action = .add)
      (hkey : change.publicKeyPem = some publicKeyPem)
      (hissuer : Holds db i (.issuer change.approverId change.keyId) none)
      (hstaged : db.staged i = [⟨.issuer change.approverId change.keyId,
        some (change.issuer publicKeyPem resolvedAt)⟩])
  | revoke {current} (haction : change.action = .revoke)
      (hissuer : Holds db i (.issuer change.approverId change.keyId) (some current))
      (hactive : current.revoked = false)
      (hstaged : db.staged i = [⟨.issuer change.approverId change.keyId,
        some (current.revokedBy change.changeId resolvedAt)⟩])

variable {changeId : JsString} {change : ApprovalIssuerChange} {resolvedAt : Int}

omit [DecidableEq ι] in
theorem Locked.unmoved (h : Locked i db changeId change) (hmoved : db.Unmoved i db') :
    Locked i db' changeId change :=
  ⟨h.toFresh.unmoved hmoved, h.row.unmoved hmoved, h.pending, h.texts⟩

omit [DecidableEq ι] in
theorem Applied.unmoved (h : Applied i db change resolvedAt) (hmoved : db.Unmoved i db') :
    Applied i db' change resolvedAt := by
  cases h with
  | add haction hkey hissuer hstaged =>
    exact .add haction hkey (hissuer.unmoved hmoved) (hmoved.staged.trans hstaged)
  | revoke haction hissuer hactive hstaged =>
    exact .revoke haction (hissuer.unmoved hmoved) hactive (hmoved.staged.trans hstaged)

/-- A lock that a client has stays when it writes another row. -/
theorem Holds.lockStage {row row' : ApproverRow} {value : row.Value} {w : Sigma ApproverRow.Value}
    (h : Holds db i row value) : Holds ((db.lock i row').stage i w) i row value :=
  ⟨Database.holder_lock_of_held h.holder, h.rows⟩

theorem staged_lockStage {row : ApproverRow} {w : Sigma ApproverRow.Value} :
    ((db.lock i row).stage i w).staged i = db.staged i ++ [w] := Database.staged_stage

theorem lockPending_ensures
    (htexts : ∀ i, ∀ text ∈ (requests i).texts, JsString.paired text.units = true)
    (hid : changeId ∈ (requests i).texts) (hfresh : Fresh i db) :
    (lockPending i changeId).Ensures (Replies requests lossless i) (Allowed requests i)
      (fun db r => i ∉ db.journal ∧ ∀ change, r = .ok change → Locked i db changeId change) db := by
  have hallowed : Allowed requests i db (.lockChange i changeId) :=
    allowed_own rfl (List.forall_mem_singleton.mpr (htexts i changeId hid)) trivial
  refine ensures_bind.mpr (query_ensures hallowed fun db₁ db₂ ans hmoved hkept hs => ?_)
  have hstill := hfresh.unmoved hmoved
  cases ans with
  | error e =>
    obtain rfl : db₂ = db₁ := hs
    exact ⟨hstill.journal, nofun⟩
  | ok found =>
    obtain ⟨hfound, hs⟩ : LocksChange db₁ i db₂ changeId found := hs
    cases found with
    | none =>
      obtain rfl : db₂ = db₁ := hs
      exact ⟨hstill.journal, nofun⟩
    | some change =>
      obtain ⟨-, rfl⟩ : db₁.Free i (.change changeId) ∧ db₂ = db₁.lock i (.change changeId) := hs
      by_cases hpending : change.status = .pendingApproval
      · show Program.Ensures _ _ (if _ then _ else _) _ _
        rw [if_pos hpending]
        refine ⟨hstill.journal, ?_⟩
        rintro _ ⟨⟩
        exact ⟨⟨hstill.journal, hstill.staged⟩, ⟨Database.holder_lock, hfound.symm⟩, hpending,
          hkept.texts htexts hfound.symm⟩
      · show Program.Ensures _ _ (if _ then _ else _) _ _
        rw [if_neg hpending]
        exact ⟨hstill.journal, nofun⟩

theorem applyChange_ensures (hlocked : Locked i db changeId change) :
    (applyChange i change resolvedAt).Ensures (Replies requests lossless i) (Allowed requests i)
      (fun db r => i ∉ db.journal ∧ (∀ u, r = .ok u → Holds db i (.change changeId) (some change) ∧
        Applied i db change resolvedAt)) db := by
  unfold applyChange
  split
  · rename_i haction
    have hallowed : Allowed requests i db (.insertIssuer i change.approverId change.keyId
        change.publicKeyPem change.changeId resolvedAt) := by
      refine allowed_own rfl (fun text hmem => hlocked.texts text ?_) trivial
      simp only [ApproverStatement.texts, ApprovalIssuerChange.texts,
        ApprovalIssuerChange.proposal, List.mem_append, List.mem_cons] at hmem ⊢
      rcases hmem with (h | h | h | h) | h <;> simp [h]
    refine ensures_tryCatch.mpr (query_ensures hallowed fun db₁ db₂ ans hmoved _ hs => ?_)
    have hstill := hlocked.unmoved hmoved
    cases ans with
    | error e =>
      obtain rfl : db₂ = db₁ := hs
      show Program.Ensures _ _ (if _ then _ else _) _ _
      split
      · exact ⟨hstill.journal, by rintro _ ⟨⟩⟩
      · exact ⟨hstill.journal, by rintro _ ⟨⟩⟩
    | ok _ =>
      obtain ⟨-, hnone, pem, hkey, rfl⟩ := hs
      refine ⟨hstill.journal, fun _ _ => ⟨hstill.row.lockStage, .add haction hkey ?_ ?_⟩⟩
      · exact ⟨Database.holder_lock, hnone⟩
      · rw [staged_lockStage, hstill.staged]
        rfl
  · rename_i haction
    have hallowed : Allowed requests i db (.revokeIssuer i change.approverId change.keyId
        change.changeId resolvedAt) := by
      refine allowed_own rfl (fun text hmem => hlocked.texts text ?_) trivial
      simp only [ApproverStatement.texts, ApprovalIssuerChange.texts,
        ApprovalIssuerChange.proposal, List.mem_append, List.mem_cons] at hmem ⊢
      rcases hmem with h | h | h | h <;> simp [h]
    refine ensures_bind.mpr (query_ensures hallowed fun db₁ db₂ ans hmoved _ hs => ?_)
    have hstill := hlocked.unmoved hmoved
    cases ans with
    | error e =>
      obtain rfl : db₂ = db₁ := hs
      exact ⟨hstill.journal, by rintro _ ⟨⟩⟩
    | ok rowCount =>
      have hs : RevokesIssuer db₁ i db₂ change.approverId change.keyId change.changeId resolvedAt
        rowCount := hs
      have hnone : rowCount = 0 ∧ db₂ = db₁ → Program.Ensures (Replies requests lossless i)
          (Allowed requests i) (if rowCount = 0 then throw (.failure change.notRevocable)
            else return () : ApproverProgram ι Unit)
          (fun db r => i ∉ db.journal ∧ (∀ u, r = .ok u →
            Holds db i (.change changeId) (some change) ∧ Applied i db change resolvedAt)) db₂ := by
        rintro ⟨rfl, rfl⟩
        exact ⟨hstill.journal, by rintro _ ⟨⟩⟩
      unfold RevokesIssuer at hs
      split at hs
      · rename_i current hcurrent
        split at hs
        · exact hnone hs
        · rename_i hactive
          obtain ⟨rfl, -, rfl⟩ := hs
          refine ⟨hstill.journal, fun _ _ => ⟨hstill.row.lockStage, .revoke haction
            ⟨Database.holder_lock, hcurrent⟩ (Bool.eq_false_of_not_eq_true hactive) ?_⟩⟩
          rw [staged_lockStage, hstill.staged]
          rfl
      · exact hnone hs

/-- The row that a client has locked is resolved. -/
theorem resolves_held {status : PendingPolicyChangeStatus} {resolvedBy : JsString}
    {rejectionReason : Option JsString} (hrow : Holds db i (.change changeId) (some change))
    (hpending : change.status = .pendingApproval)
    (h : ResolvesChange db i db' changeId status resolvedBy resolvedAt rejectionReason) :
    db' = (db.lock i (.change changeId)).stage i ⟨.change changeId,
      some (change.resolvedRow status resolvedBy resolvedAt rejectionReason)⟩ := by
  unfold ResolvesChange at h
  rw [hrow.rows] at h
  dsimp only at h
  rw [if_pos hpending] at h
  exact h.2.2

theorem Applied.ready {approvedBy : JsString} (h : Applied i db change resolvedAt)
    (hrow : Holds db i (.change changeId) (some change))
    (hpending : change.status = .pendingApproval) :
    Ready ((db.lock i (.change changeId)).stage i ⟨.change changeId,
      some (change.resolvedRow .approved approvedBy resolvedAt none)⟩) i
      (.approveChange changeId approvedBy resolvedAt) := by
  cases h with
  | add haction hkey hissuer hstaged =>
    refine .add hrow.lockStage hpending haction hkey hissuer.lockStage ?_
    rw [staged_lockStage, hstaged]
    rfl
  | revoke haction hissuer hactive hstaged =>
    refine .revoke hrow.lockStage hpending haction hissuer.lockStage hactive ?_
    rw [staged_lockStage, hstaged]
    rfl

theorem approveChange_ensures {approvedBy : JsString}
    (htexts : ∀ i, ∀ text ∈ (requests i).texts, JsString.paired text.units = true)
    (hrequest : requests i = .approveChange changeId approvedBy resolvedAt) (hfresh : Fresh i db) :
    (approveChange i changeId approvedBy resolvedAt).Ensures (Replies requests lossless i)
      (Allowed requests i) (fun db r => Settles lossless i db r) db := by
  have hresolve : ∀ text ∈ [changeId, approvedBy], text ∈ (requests i).texts := by
    rw [hrequest]
    exact fun text hmem => hmem
  refine inTransaction_ensures hfresh fun db hfresh => ?_
  refine ensures_bind.mpr ((lockPending_ensures htexts (hresolve _ (by simp)) hfresh).mono ?_)
  rintro db (e | change) ⟨hnew, hlocked⟩
  · exact ⟨hnew, nofun⟩
  have hlocked := hlocked change rfl
  refine ensures_bind.mpr ((applyChange_ensures hlocked).mono ?_)
  rintro db (e | u) ⟨hnew, happlied⟩
  · exact ⟨hnew, nofun⟩
  obtain ⟨hrow, happlied⟩ := happlied u rfl
  have hallowed : Allowed requests i db (.resolveChange i changeId .approved approvedBy resolvedAt
      none) := allowed_own rfl (fun text hmem => htexts i text (hresolve text hmem)) trivial
  refine ensures_bind.mpr (query_ensures hallowed fun db₁ db₂ ans hmoved _ hs => ?_)
  have hstill : i ∉ db₁.journal := fun hmem => hnew (hmoved.journal.mp hmem)
  cases ans with
  | error e =>
    obtain rfl : db₂ = db₁ := hs
    exact ⟨hstill, nofun⟩
  | ok _ =>
    obtain rfl := resolves_held (hrow.unmoved hmoved) hlocked.pending hs
    refine ⟨hstill, fun _ _ => ?_⟩
    rw [hrequest]
    exact (happlied.unmoved hmoved).ready (hrow.unmoved hmoved) hlocked.pending

theorem rejectChange_ensures {rejectedBy rejectionReason : JsString}
    (htexts : ∀ i, ∀ text ∈ (requests i).texts, JsString.paired text.units = true)
    (hrequest : requests i = .rejectChange changeId rejectedBy rejectionReason resolvedAt)
    (hfresh : Fresh i db) :
    (rejectChange i changeId rejectedBy rejectionReason resolvedAt).Ensures
      (Replies requests lossless i) (Allowed requests i)
      (fun db r => Settles lossless i db r) db := by
  have hresolve : ∀ text ∈ [changeId, rejectedBy, rejectionReason],
      text ∈ (requests i).texts := by
    rw [hrequest]
    exact fun text hmem => hmem
  refine inTransaction_ensures hfresh fun db hfresh => ?_
  refine ensures_bind.mpr ((lockPending_ensures htexts (hresolve _ (by simp)) hfresh).mono ?_)
  rintro db (e | change) ⟨hnew, hlocked⟩
  · exact ⟨hnew, nofun⟩
  have hlocked := hlocked change rfl
  have hallowed : Allowed requests i db (.resolveChange i changeId .rejected rejectedBy resolvedAt
      (some rejectionReason)) :=
    allowed_own rfl (fun text hmem => htexts i text (hresolve text hmem)) trivial
  refine ensures_bind.mpr (query_ensures hallowed fun db₁ db₂ ans hmoved _ hs => ?_)
  have hstill := hlocked.unmoved hmoved
  cases ans with
  | error e =>
    obtain rfl : db₂ = db₁ := hs
    exact ⟨hstill.journal, nofun⟩
  | ok _ =>
    obtain rfl := resolves_held hstill.row hstill.pending hs
    refine ⟨hstill.journal, fun _ _ => ?_⟩
    rw [hrequest]
    refine .reject hstill.row.lockStage hstill.pending ?_
    rw [staged_lockStage, hstill.staged]
    rfl

theorem createChange_ensures
    (htexts : ∀ i, ∀ text ∈ (requests i).texts, JsString.paired text.units = true)
    (hrequest : requests i = .createChange change) (hfresh : Fresh i db) :
    (createChange i change).Ensures (Replies requests lossless i) (Allowed requests i)
      (fun db r => Settles lossless i db r) db := by
  have hchange : ∀ text ∈ change.texts, JsString.paired text.units = true := by
    have hi := htexts i
    rwa [hrequest] at hi
  refine ensures_bind.mpr (ensures_tryCatch.mpr (query_ensures
    ⟨fun _ h => (Option.some.inj h).symm, hchange, hfresh.journal, hrequest⟩
    fun db₁ db₂ ans hmoved _ hs => ?_))
  cases ans with
  | ok _ =>
    obtain ⟨-, -, -, -, rfl⟩ := hs
    exact List.mem_append_right _ (List.mem_singleton_self i)
  | error e =>
    have hfailed : lossless = true → i ∉ db₂.journal := by
      intro hlossless
      rcases hs with rfl | ⟨hlossy, -⟩
      · exact (hfresh.unmoved hmoved).journal
      · rw [hlossy] at hlossless
        cases hlossless
    show Program.Ensures _ _ (if _ then _ else _) _ _
    split
    · exact hfailed
    · exact hfailed

/-! ## Requests side by side -/

variable {Key : Type} (registry : GovernedApprovalIssuerRegistry Key)

/-- What the server runs for a request. -/
def program (client : ι) : IssuerRequest → ApproverProgram ι (IssuerAnswer Key)
  | .createChange change => do return .change (← createChange client change)
  | .approveChange changeId approvedBy resolvedAt => do
    return .change (← approveChange client changeId approvedBy resolvedAt)
  | .rejectChange changeId rejectedBy rejectionReason resolvedAt => do
    return .change (← rejectChange client changeId rejectedBy rejectionReason resolvedAt)
  | .resolve approverId keyId => do
    return .issuer (← registry.resolve StatementError.logged (findIssuer approverId keyId)
      approverId keyId)

/-- Empty tables. -/
def nothing : ApproverRows ι where
  rows
    | .change _ => none
    | .issuer .. => none
  holder _ := none
  staged _ := []
  journal := []

/-- The requests, over empty tables. -/
def requestsPool (requests : ι → IssuerRequest) :
    Pool (ApproverStatement ι) ApproverStatement.Answer StatementError
      (fun _ : ι => IssuerAnswer Key) (ApproverRows ι) :=
  ⟨fun i => program registry i (requests i), nothing⟩

/-- What is settled of a part is settled of the call. -/
theorem settles_map {α β : Type} {p : ApproverProgram ι α} {f : α → β}
    (h : p.Ensures (Replies requests lossless i) (Allowed requests i)
      (fun db r => Settles lossless i db r) db) :
    (do return f (← p) : ApproverProgram ι β).Ensures (Replies requests lossless i)
      (Allowed requests i) (fun db r => Settles lossless i db r) db := by
  refine ensures_bind.mpr (h.mono ?_)
  rintro db (e | a) hsettled
  · exact hsettled
  · exact hsettled

theorem resolve_ensures {approverId keyId : JsString}
    (htexts : ∀ text ∈ [approverId, keyId], JsString.paired text.units = true) :
    (program registry i (.resolve approverId keyId)).Ensures (Replies requests lossless i)
      (Allowed requests i) (fun _ _ => True) db := by
  have hallowed : ∀ db, Allowed requests i db (.selectIssuer approverId keyId) :=
    fun db => ⟨nofun, htexts, trivial⟩
  have hprogram : program registry i (.resolve approverId keyId) = do
      return .issuer (← registry.resolve StatementError.logged (findIssuer approverId keyId)
        approverId keyId) := rfl
  rw [hprogram]
  unfold GovernedApprovalIssuerRegistry.resolve
  split
  · trivial
  · refine ensures_bind.mpr (ensures_tryCatch.mpr (ensures_bind.mpr
      (query_ensures (hallowed db) fun db₁ db₂ ans _ _ _ => ?_)))
    cases ans with
    | ok record => trivial
    | error e =>
      show (do Program.done e.logged; return none : ApproverProgram ι _).Ensures _ _ _ _
      cases e.logged with
      | ok _ => trivial
      | error thrown => trivial

/-- The program of a request settles it. -/
theorem program_ensures
    (htexts : ∀ i, ∀ text ∈ (requests i).texts, JsString.paired text.units = true)
    (hfresh : Fresh i db) : (program registry i (requests i)).Ensures
      (Replies requests lossless i) (Allowed requests i)
      (fun db r => (requests i).IsChange → Settles lossless i db r) db := by
  cases hrequest : requests i with
  | createChange change =>
    exact (settles_map (createChange_ensures htexts hrequest hfresh)).mono fun _ _ h _ => h
  | approveChange changeId approvedBy resolvedAt =>
    exact (settles_map (approveChange_ensures htexts hrequest hfresh)).mono fun _ _ h _ => h
  | rejectChange changeId rejectedBy rejectionReason resolvedAt =>
    exact (settles_map (rejectChange_ensures htexts hrequest hfresh)).mono fun _ _ h _ => h
  | resolve approverId keyId =>
    have hi := htexts i
    rw [hrequest] at hi
    exact (resolve_ensures registry hi).mono fun _ _ _ hchange => absurd hchange id

variable {registry}
  {log log' : List (ι × Event (ApproverStatement ι) ApproverStatement.Answer StatementError)}
  {Q R : Pool (ApproverStatement ι) ApproverStatement.Answer StatementError
    (fun _ : ι => IssuerAnswer Key) (ApproverRows ι)}

/-- In every state reached, the rows come of the requests that have taken effect, and a call that
has finished has settled its request. -/
theorem reached_kept (hproposed : ∀ i change, requests i = .createChange change → change.Proposed)
    (htexts : ∀ i, ∀ text ∈ (requests i).texts, JsString.paired text.units = true)
    (h : Exec (Serves lossless) (requestsPool registry requests) log Q) :
    Kept requests Q.state ∧ ∀ i r, Q.threads i = .done r → (requests i).IsChange →
      Settles lossless i Q.state r := by
  have hkept : Kept requests (nothing : ApproverRows ι) := ⟨fun _ _ hw => (nomatch hw), rfl⟩
  have hstays : ∀ i db db' (r : Except StatementError (IssuerAnswer Key)),
      Database.Unmoved i db db' → ((requests i).IsChange → Settles lossless i db r) →
        (requests i).IsChange → Settles lossless i db' r := by
    rintro i db db' (e | answer) hmoved hsettles hchange
    · exact fun hlossless hmem => hsettles hchange hlossless (hmoved.journal.mp hmem)
    · exact hmoved.journal.mpr (hsettles hchange)
  have hrefl : ∀ i (db : ApproverRows ι), Database.Unmoved i db db := fun _ _ => .refl
  have htrans : ∀ i (a b c : ApproverRows ι), Database.Unmoved i a b → Database.Unmoved i b c →
      Database.Unmoved i a c := fun _ _ _ _ => .trans
  have hallowed : ∀ i (a b : ApproverRows ι) statement, Database.Unmoved i a b →
      Allowed requests i a statement → Allowed requests i b statement :=
    fun _ _ _ _ => allowed_unmoved
  obtain ⟨hQ, hthreads⟩ := h.ensures_each (I := fun _ => Kept requests) hrefl htrans hallowed
    hstays (fun _ _ _ _ _ hkept hallowed hs =>
      answers_kept hproposed hkept hallowed (serves_answers hallowed hs)) hkept
    (fun i => program_ensures registry htexts ⟨List.not_mem_nil, rfl⟩)
  refine ⟨hQ, fun i r hdone hchange => ?_⟩
  have hpost := hthreads i
  rw [hdone] at hpost
  exact hpost hchange

theorem journal_of_exec (h : Exec (Serves lossless) Q log' R) :
    ∃ more, R.state.journal = Q.state.journal ++ more := by
  refine h.events_induction (I := fun _ db => ∃ more, db.journal = Q.state.journal ++ more)
    ⟨[], (List.append_nil _).symm⟩ ?_
  rintro log db i e db' ⟨more, hmore⟩ hs
  obtain ⟨more', hmore'⟩ := serves_journal hs
  exact ⟨more ++ more', by rw [hmore', hmore, List.append_assoc]⟩

/-- **The repository in Postgres keeps the lifecycle of approver keys.** -/
theorem rows_keep (lossless : Bool)
    (hproposed : ∀ i change, requests i = .createChange change → change.Proposed)
    (htexts : ∀ i, ∀ text ∈ (requests i).texts, JsString.paired text.units = true) :
    KeepsApproverKeys requests registry (Serves lossless) (fun db => keys db.rows)
      (lossless = true) (requestsPool registry requests) := by
  refine .of_order (fun _ db => db.journal) (fun log Q h => (reached_kept hproposed htexts h).1.run)
    (fun log Q log' R _ h' => journal_of_exec h')
    (fun log Q h i answer hchange hreturn =>
      (reached_kept hproposed htexts h).2 i _ hreturn hchange)
    (fun log Q h i e hlossless hchange hfail =>
      (reached_kept hproposed htexts h).2 i _ hfail hchange hlossless) ?_
  intro i approverId keyId t r hrequest hruns
  have hprogram : (requestsPool registry requests).threads i =
      program registry i (.resolve approverId keyId) := congrArg (program registry i) hrequest
  rw [hprogram] at hruns
  obtain ⟨found, t₁, t₂, rfl, hfound, hreturn⟩ := runs_bind_ok.mp hruns
  obtain ⟨rfl, hsame⟩ := runs_done.mp hreturn
  cases hsame
  rcases registry.resolve_runs hfound with hcode | ⟨hcode, record, hrecord, hissuer⟩
  · exact .inl hcode
  · obtain rfl := runs_perform.mp hrecord
    refine .inr ⟨hcode, _, List.mem_append_left _ (List.mem_singleton_self _), ?_⟩
    intro db db' hs
    have hi := htexts i
    rw [hrequest] at hi
    have hallowed : Allowed requests i db (.selectIssuer approverId keyId) := ⟨nofun, hi, trivial⟩
    obtain ⟨hrow, -⟩ := serves_answers hallowed hs
    exact ⟨record, hrow.symm, hissuer⟩

end Calls

end ApproverRows

/-! ## Both repositories -/

section Both
variable {ι Key : Type} [DecidableEq ι]

/-- **The lifecycle of approver keys**, in every interleaving of requests, of the repository in
memory, and of the one in Postgres where no text has a lone surrogate. -/
theorem approver_keys_kept (requests : ι → IssuerRequest)
    (registry : GovernedApprovalIssuerRegistry Key)
    (hproposed : ∀ i change, requests i = .createChange change → change.Proposed)
    (hfresh : ∀ i j change change', requests i = .createChange change →
      requests j = .createChange change' → change.changeId = change'.changeId → i = j)
    (hresolve : ∀ i approverId keyId, requests i = .resolve approverId keyId →
      NulFree approverId ∧ NulFree keyId) :
    KeepsApproverKeys requests registry (Handled MemoryApprovalIssuerRepository.run)
        MemoryApprovalIssuerRepository.keys True
        (MemoryApprovalIssuerRepository.requestsPool registry requests) ∧
      ((∀ i, ∀ text ∈ (requests i).texts, JsString.paired text.units = true) →
        ∀ lossless, KeepsApproverKeys requests registry (ApproverRows.Serves lossless)
          (fun db => ApproverRows.keys db.rows) (lossless = true)
          (ApproverRows.requestsPool registry requests)) :=
  ⟨MemoryApprovalIssuerRepository.memory_keeps hproposed hfresh hresolve,
    fun htexts lossless => ApproverRows.rows_keep lossless hproposed htexts⟩

end Both

namespace ApproverSample
open ApproverRows

/-- The three calls of the sample. -/
inductive Call where
  | propose
  | approve
  | lookUp
  deriving DecidableEq

/-- The addition of a key of an approver. -/
def addition (approverId : JsString) : ApprovalIssuerChange where
  changeId := "change-1"
  action := .add
  approverId
  keyId := "key-1"
  publicKeyPem := some "pem"
  reason := "joins"
  proposedBy := "carol"
  proposedAt := 10
  status := .pendingApproval
  resolvedBy := none
  resolvedAt := none
  rejectionReason := none

/-- An addition that Bob approves, and a look-up. -/
def requests (proposed lookedUp : JsString) : Call → IssuerRequest
  | .propose => .createChange (addition proposed)
  | .approve => .approveChange "change-1" "bob" 20
  | .lookUp => .resolve lookedUp "key-1"

theorem requests_proposed {proposed lookedUp : JsString} (hfree : NulFree proposed) :
    ∀ i change, requests proposed lookedUp i = .createChange change → change.Proposed := by
  rintro (_ | _ | _) change ⟨⟩
  have hkey : NulFree "key-1" := by decide
  exact ⟨⟨hfree, hkey, iff_of_true rfl rfl⟩, rfl, rfl, rfl, rfl⟩

/-- No key is listed in code. -/
def registry : GovernedApprovalIssuerRegistry Nat where
  code := []
  createPublicKey pem := if pem = "pem" then some 7 else none
  asymmetricKeyType _ := "ed25519"

/-- The requests, over empty tables. -/
abbrev pool (proposed lookedUp : JsString) :
    Pool (ApproverStatement Call) ApproverStatement.Answer StatementError
      (fun _ : Call => IssuerAnswer Nat) (ApproverRows Call) :=
  requestsPool registry (requests proposed lookedUp)

/-- The database answers an approval that nothing stands in the way of, and the look-up. -/
def answering : (statement : ApproverStatement Call) → ApproverRows Call →
    Except StatementError statement.Answer × ApproverRows Call
  | .connect _, db => (.ok (), db)
  | .begin _, db => (.ok (), db)
  | .commit client, db => (.ok (), db.commit client)
  | .rollback client, db => (.ok (), db.rollback client)
  | .lockChange client changeId, db =>
    match db.rows (.change changeId.toWellFormed) with
    | some change =>
      if db.holder (.change changeId.toWellFormed) = none then
        (.ok (some change), db.lock client (.change changeId.toWellFormed))
      else (.error (.database "55P03"), db)
    | none => (.ok none, db)
  | .insertIssuer client approverId keyId publicKeyPem changeId addedAt, db =>
    match publicKeyPem.map JsString.toWellFormed with
    | some pem =>
      if db.holder (.issuer approverId.toWellFormed keyId.toWellFormed) = none ∧
          db.rows (.issuer approverId.toWellFormed keyId.toWellFormed) = none then
        (.ok (), (db.lock client (.issuer approverId.toWellFormed keyId.toWellFormed)).stage client
          ⟨.issuer approverId.toWellFormed keyId.toWellFormed,
            some (insertedIssuer approverId.toWellFormed keyId.toWellFormed pem
              changeId.toWellFormed addedAt)⟩)
      else (.error (.database POSTGRES_UNIQUE_VIOLATION), db)
    | none => (.error (.database "23502"), db)
  | .resolveChange client changeId status resolvedBy resolvedAt rejectionReason, db =>
    match db.rows (.change changeId.toWellFormed) with
    | some change =>
      if change.status = .pendingApproval ∧
          db.holder (.change changeId.toWellFormed) = some client ∧
          resolvedBy.toWellFormed ≠ change.proposedBy then
        (.ok (), (db.lock client (.change changeId.toWellFormed)).stage client
          ⟨.change changeId.toWellFormed, some (change.resolvedRow status
            resolvedBy.toWellFormed resolvedAt (rejectionReason.map JsString.toWellFormed))⟩)
      else (.error (.database "23514"), db)
    | none => (.ok (), db)
  | .selectIssuer approverId keyId, db =>
    (.ok (db.rows (.issuer approverId.toWellFormed keyId.toWellFormed)), db)
  | .revokeIssuer .., db => (.error (.database "57014"), db)
  | .insertChange .., db => (.error (.database "57014"), db)

theorem serves_answering {db db' : ApproverRows Call} {e : ApproverEvent Call}
    (h : Handled answering db e db') (hnul : ∀ text ∈ e.1.texts, NulFree text) :
    ApproverRows.Serves true db e db' := by
  unfold ApproverRows.Serves
  rw [if_pos hnul]
  obtain ⟨statement, ans⟩ := e
  unfold Handled at h
  dsimp only at h
  cases statement with
  | lockChange client changeId =>
    dsimp only [answering] at h
    split at h
    · rename_i change hchange
      split at h
      · rename_i hfree
        cases h
        exact ⟨hchange.symm, .inl hfree, rfl⟩
      · cases h
        rfl
    · rename_i hnone
      cases h
      exact ⟨hnone.symm, rfl⟩
  | insertIssuer client approverId keyId publicKeyPem changeId addedAt =>
    dsimp only [answering] at h
    split at h
    · rename_i pem hpem
      split at h
      · rename_i hfree
        cases h
        exact ⟨.inl hfree.1, hfree.2, pem, hpem, rfl⟩
      · cases h
        rfl
    · cases h
      rfl
  | resolveChange client changeId status resolvedBy resolvedAt rejectionReason =>
    dsimp only [answering] at h
    split at h
    · rename_i change hchange
      split at h
      · rename_i hresolves
        cases h
        show ResolvesChange ..
        unfold ResolvesChange
        rw [hchange]
        dsimp only
        rw [if_pos hresolves.1]
        exact ⟨.inr hresolves.2.1, hresolves.2.2, rfl⟩
      · cases h
        rfl
    · rename_i hnone
      cases h
      show ResolvesChange ..
      unfold ResolvesChange
      rw [hnone]
  | selectIssuer approverId keyId =>
    cases h
    exact ⟨rfl, rfl⟩
  | insertChange =>
    cases h
    exact .inl rfl
  | _ =>
    cases h
    rfl

/-- The rows, with the addition proposed. -/
def proposing (proposed : JsString) : ApproverRows Call :=
  (nothing : ApproverRows Call).write .propose ⟨.change "change-1", some (addition proposed).sent⟩

/-- The pool, with the addition proposed. -/
abbrev proposedPool (proposed lookedUp : JsString) :
    Pool (ApproverStatement Call) ApproverStatement.Answer StatementError
      (fun _ : Call => IssuerAnswer Nat) (ApproverRows Call) :=
  (pool proposed lookedUp).advance .propose (.done (.ok (.change (addition proposed))))
    (proposing proposed)

theorem propose_run {proposed lookedUp : JsString}
    (hfree : ∀ text ∈ (addition proposed).texts, NulFree text) :
    Exec (ApproverRows.Serves true) (pool proposed lookedUp)
      [(.propose, ⟨.insertChange .propose (addition proposed), .ok ()⟩)]
      (proposedPool proposed lookedUp) := by
  have hserves : ApproverRows.Serves true nothing
      ⟨.insertChange Call.propose (addition proposed), .ok ()⟩
      (proposing proposed) := by
    refine (if_pos hfree).mpr ⟨rfl, rfl, iff_of_true rfl rfl, ?_, rfl⟩
    rintro - id c ⟨⟩
  exact Exec.step (i := Call.propose) (Exec.refl (pool proposed lookedUp)) rfl hserves

/-- The approval, from its connection to its commit, and the look-up. -/
def schedule : List Call :=
  [.approve, .approve, .approve, .approve, .approve, .approve, .lookUp]

/-- Whether a look-up has found the key. -/
def found : ApproverProgram Call (IssuerAnswer Nat) → Bool
  | .done (.ok (.issuer (some ⟨publicKey, revoked⟩))) => publicKey = 7 ∧ revoked = false
  | _ => false

theorem of_found {p : ApproverProgram Call (IssuerAnswer Nat)} (h : found p = true) :
    p = .done (.ok (.issuer (some ⟨7, false⟩))) := by
  unfold found at h
  split at h
  · obtain ⟨rfl, rfl⟩ := of_decide_eq_true h
    rfl
  · cases h

theorem rows_run (proposed lookedUp : JsString)
    (hfree : ∀ text ∈ (addition proposed).texts, NulFree text)
    (hmeets : (proposedPool proposed lookedUp).Meets answering
      (fun _ e _ => ∀ text ∈ e.1.texts, NulFree text) schedule) :
    ∃ log, Exec (ApproverRows.Serves true) (pool proposed lookedUp) log
      ((proposedPool proposed lookedUp).play answering schedule) := by
  have hplay := (Exec.play answering schedule hmeets).mono
    fun _ _ _ h => serves_answering h.1 h.2
  exact ⟨_, (propose_run hfree).append hplay⟩

end ApproverSample

open ApproverSample in
/-- In memory and in Postgres, a key that was proposed, approved and looked up is found, and it
was stored. -/
theorem approver_key_found :
    (∃ log Q, Exec (Handled MemoryApprovalIssuerRepository.run)
        (MemoryApprovalIssuerRepository.requestsPool registry (requests "alice" "alice")) log Q ∧
      Q.state.keys.Lifecycle ∧ ∃ before S after record, log = before ++ after ∧
        Exec (Handled MemoryApprovalIssuerRepository.run)
          (MemoryApprovalIssuerRepository.requestsPool registry (requests "alice" "alice"))
          before S ∧
        S.state.keys.issuer "alice" "key-1" = some record ∧ record.revoked = false ∧
        registry.issuer record = some ⟨7, false⟩) ∧
    ∃ log Q, Exec (ApproverRows.Serves true) (pool "alice" "alice") log Q ∧
      (ApproverRows.keys Q.state.rows).Lifecycle ∧
      ∃ before S after record, log = before ++ after ∧
        Exec (ApproverRows.Serves true) (pool "alice" "alice") before S ∧
        (ApproverRows.keys S.state.rows).issuer "alice" "key-1" = some record ∧
        record.revoked = false ∧ registry.issuer record = some ⟨7, false⟩ := by
  have hfresh : ∀ i j change change', requests "alice" "alice" i = .createChange change →
      requests "alice" "alice" j = .createChange change' → change.changeId = change'.changeId →
        i = j := by
    rintro (_ | _ | _) (_ | _ | _) change change' ⟨⟩ ⟨⟩ -
    rfl
  have hresolve : ∀ i approverId keyId, requests "alice" "alice" i = .resolve approverId keyId →
      NulFree approverId ∧ NulFree keyId := by
    rintro (_ | _ | _) approverId keyId ⟨⟩
    exact ⟨by decide, by decide⟩
  have htexts : ∀ i, ∀ text ∈ (requests "alice" "alice" i).texts,
      JsString.paired text.units = true := by
    rintro (_ | _ | _)
    · decide
    · decide
    · decide
  obtain ⟨hmemory, hrows⟩ := approver_keys_kept (requests "alice" "alice") registry
    (requests_proposed (by decide)) hfresh hresolve
  constructor
  · let P := MemoryApprovalIssuerRepository.requestsPool registry (requests "alice" "alice")
    have hrun : Exec (Handled MemoryApprovalIssuerRepository.run) P _ _ :=
      (Exec.play MemoryApprovalIssuerRepository.run [.propose, .approve, .lookUp]
        (Pool.meets_true ..)).mono fun _ _ _ h => h.1
    have hreturned : (P.play MemoryApprovalIssuerRepository.run
        [.propose, .approve, .lookUp]).threads .lookUp =
          .done (.ok (.issuer (some ⟨7, false⟩))) := rfl
    rcases hmemory.resolve _ _ hrun .lookUp _ _ _ rfl hreturned rfl with hcode | ⟨-, hstored⟩
    · cases hcode
    · exact ⟨_, _, hrun, hmemory.lifecycle _ _ hrun, hstored⟩
  · obtain ⟨log, hrun⟩ := rows_run "alice" "alice" (by decide)
      (by decide)
    have hreturned : ((proposedPool "alice" "alice").play answering schedule).threads .lookUp =
        .done (.ok (.issuer (some ⟨7, false⟩))) := of_found (by decide)
    have hkeeps := hrows htexts true
    rcases hkeeps.resolve _ _ hrun .lookUp _ _ _ rfl hreturned rfl with hcode | ⟨-, hstored⟩
    · cases hcode
    · exact ⟨log, _, hrun, hkeeps.lifecycle _ _ hrun, hstored⟩

open ApproverSample in
/-- In Postgres, two identifiers that differ in a lone surrogate are one: the key that was added
for the first is found for the second, of which there never was a change. -/
theorem approver_row_shared : ∃ log Q,
    Exec (ApproverRows.Serves true) (pool ⟨[0x61, 0xD800]⟩ ⟨[0x61, 0xD801]⟩) log Q ∧
    Q.threads .lookUp = .done (.ok (.issuer (some ⟨7, false⟩))) ∧
    (∀ i change, requests ⟨[0x61, 0xD800]⟩ ⟨[0x61, 0xD801]⟩ i = .createChange change →
      change.Proposed ∧ change.approverId ≠ ⟨[0x61, 0xD801]⟩) ∧
    ¬ KeepsApproverKeys (requests ⟨[0x61, 0xD800]⟩ ⟨[0x61, 0xD801]⟩) registry
      (ApproverRows.Serves true) (fun db => ApproverRows.keys db.rows) True
      (pool ⟨[0x61, 0xD800]⟩ ⟨[0x61, 0xD801]⟩) := by
  obtain ⟨log, hrun⟩ := rows_run ⟨[0x61, 0xD800]⟩ ⟨[0x61, 0xD801]⟩
    (by decide) (by decide)
  have hreturned : ((proposedPool ⟨[0x61, 0xD800]⟩ ⟨[0x61, 0xD801]⟩).play answering
      schedule).threads .lookUp = .done (.ok (.issuer (some ⟨7, false⟩))) :=
    of_found (by decide +kernel)
  have hother : ∀ i change, requests ⟨[0x61, 0xD800]⟩ ⟨[0x61, 0xD801]⟩ i = .createChange change →
      change.Proposed ∧ change.approverId ≠ ⟨[0x61, 0xD801]⟩ := by
    intro i change hrequest
    refine ⟨requests_proposed (by decide) i change hrequest, ?_⟩
    rcases i with _ | _ | _
    · cases hrequest
      decide
    · cases hrequest
    · cases hrequest
  refine ⟨log, _, hrun, hreturned, hother, fun hkeeps => ?_⟩
  rcases hkeeps.resolve _ _ hrun .lookUp _ _ _ rfl hreturned rfl with
    hcode | ⟨-, before, S, after, record, -, hbefore, hrecord, -⟩
  · cases hcode
  -- the record is of an approved addition, which comes of a request
  obtain ⟨id, change, hget, -, -, happrover, -⟩ :=
    ((hkeeps.lifecycle _ _ hbefore).stored _ _).mp ⟨record, hrecord⟩
  obtain ⟨order, hordered, -⟩ := hkeeps.effects _ _ hbefore
  rcases ApproverKeys.created_of_run hordered hget with
    ⟨_, ⟨⟩, -⟩ | ⟨i, -, created, hrequest, -, hsame⟩
  have hcreated := congrArg ApprovalIssuerChange.approverId hsame
  exact (hother i created hrequest).2 (hcreated.symm.trans happrover)

end Parmana.Governance

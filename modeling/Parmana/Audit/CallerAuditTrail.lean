import Parmana.Audit.CallerAuditSink

/-! # The calls of the audit trail

Between the moment a call has locked its caller and the moment it commits, no row of that caller
is added by another.  So the hash it signs is that of the row before its own, and its row gets the
greatest number of them (`next_of_read`): the rows of a caller stay accepted by the verifier, and
the order of their numbers stays that in which they were committed (`answers_kept`).

`record_ensures` is that every call does so, whatever the others do in between and whatever fails.
-/
namespace Parmana.Audit
open Js Crypto Interaction Interaction.Program CallerAuditChainVerifier

section
variable {Key ι : Type} (sink : SupabaseCallerAuditSink Key)

/-! ## The rows of a caller -/

/-- The lock under which a row is inserted. -/
def lockKey (row : CallerAuditEventRow) : Option Int := row.event.callerId.map sink.hashtext

/-- The rows of a caller, in the order in which they were committed. -/
def callerRows (callerId : JsString) (rows : List (Nat × CallerAuditEventRow)) :
    List CallerAuditEventRow :=
  (rows.filter fun row => row.2.event.callerId = some callerId).map Prod.snd

/-- The rows of a caller, as they are read back. -/
def history (callerId : JsString) (t : CallerAuditEvents ι) : List ChainedCallerAuditEventRow :=
  (callerRows callerId t.rows).map CallerAuditEventRow.readBack

variable {sink} {callerId : JsString} {rows more : List (Nat × CallerAuditEventRow)}
  {t t' start : CallerAuditEvents ι} {i : ι} {row : CallerAuditEventRow}

theorem callerRows_append :
    callerRows callerId (rows ++ more) = callerRows callerId rows ++ callerRows callerId more := by
  unfold callerRows
  rw [List.filter_append, List.map_append]

theorem callerRows_singleton (n : Nat) : callerRows callerId [(n, row)] =
    if row.event.callerId = some callerId then [row] else [] := by
  unfold callerRows
  by_cases hcaller : row.event.callerId = some callerId
  · simp [hcaller]
  · simp [hcaller]

/-- The rows of a caller are under its lock. -/
theorem filter_under (sink : SupabaseCallerAuditSink Key) (callerId : JsString)
    (rows : List (Nat × CallerAuditEventRow)) :
    (LockedTable.under (lockKey sink) (sink.hashtext callerId) rows).filter
      (fun row => row.2.event.callerId = some callerId) =
    rows.filter fun row => row.2.event.callerId = some callerId := by
  unfold LockedTable.under
  rw [List.filter_filter]
  refine List.filter_congr fun row _ => ?_
  by_cases hcaller : row.2.event.callerId = some callerId
  · have hkey : lockKey sink row.2 = some (sink.hashtext callerId) := by
      unfold lockKey
      rw [hcaller]
      rfl
    simp [hcaller, hkey]
  · simp [hcaller]

/-- **The order of the numbers is the order of the commits**, for the rows of one caller. -/
theorem rowsOf_eq (h : t.Ordered (lockKey sink)) (callerId : JsString) :
    rowsOf callerId t.rows = callerRows callerId t.rows := by
  have hincreasing : (t.rows.filter fun row => row.2.event.callerId = some callerId).Pairwise
      fun a b => a.1 < b.1 := by
    rw [← filter_under sink]
    exact (h.rows (sink.hashtext callerId)).sublist List.filter_sublist
  unfold rowsOf callerRows
  rw [List.mergeSort_of_pairwise]
  exact hincreasing.imp fun hlt => decide_eq_true (Nat.le_of_lt hlt)

/-- While a caller is locked, its rows stay. -/
theorem callerRows_unmoved (hmoved : t.Unmoved (lockKey sink) i t')
    (hheld : t.holder (sink.hashtext callerId) = some i) :
    callerRows callerId t'.rows = callerRows callerId t.rows := by
  unfold callerRows
  rw [← filter_under sink, hmoved.rows _ hheld, filter_under]

/-! ## What is kept -/

/-- A table from before there were chains: its rows are in the order of their numbers, signed and
not chained, and no transaction is open. -/
structure Legacy (sink : SupabaseCallerAuditSink Key) (t : CallerAuditEvents ι) : Prop where
  increasing : t.rows.Pairwise fun a b => a.1 < b.1
  before : ∀ row ∈ t.rows, row.1 < t.nextId
  signed : ∀ row ∈ t.rows, ∃ keyId, sink.crypto.sign keyId (.obj row.2.event.members) =
    .ok row.2.signature
  unchained : ∀ row ∈ t.rows, row.2.chainHash = none
  unlocked : ∀ k, t.holder k = none
  idle : ∀ i, t.staged i = []

/-- What is so between any two steps: the rows of each caller have increasing numbers, only
chained rows have been added to them, and they are accepted. -/
structure Kept (sink : SupabaseCallerAuditSink Key) (start t : CallerAuditEvents ι) : Prop where
  ordered : t.Ordered (lockKey sink)
  added : ∀ callerId, ∃ added,
    callerRows callerId t.rows = callerRows callerId start.rows ++ added ∧
      ∀ row ∈ added, row.readBack.isChained = true
  accepted : ∀ callerId, sink.AcceptedFrom none (history callerId t)

theorem Legacy.ordered (h : Legacy sink t) : t.Ordered (lockKey sink) := by
  have hline : ∀ k, t.line (lockKey sink) k = LockedTable.under (lockKey sink) k t.rows :=
    fun k => LockedTable.line_of_none (h.unlocked k)
  refine ⟨fun i row hrow => ?_, fun k row hrow => ?_, fun k => ?_⟩
  · rw [h.idle] at hrow
    cases hrow
  · rw [hline] at hrow
    exact h.before row (List.mem_of_mem_filter hrow)
  · rw [hline]
    exact h.increasing.sublist List.filter_sublist

/-- Rows that are signed and not chained are accepted. -/
theorem Legacy.kept (hsigns : sink.crypto.Signs) (h : Legacy sink t) : Kept sink t t := by
  refine ⟨h.ordered, fun callerId => ⟨[], (List.append_nil _).symm,
    fun row hrow => absurd hrow List.not_mem_nil⟩, fun callerId => ?_⟩
  have hrows : ∀ row ∈ history callerId t, row.isChained = false ∧
      sink.crypto.verify row.signedContent row.signature = .ok true := by
    intro row hrow
    obtain ⟨old, hold, rfl⟩ := List.mem_map.mp hrow
    obtain ⟨numbered, hnumbered, rfl⟩ := List.mem_map.mp hold
    have hmem := List.mem_of_mem_filter hnumbered
    have hnone := h.unchained numbered hmem
    obtain ⟨keyId, hsigned⟩ := h.signed numbered hmem
    have hcontent : numbered.2.readBack.signedContent = .obj numbered.2.event.members := by
      unfold CallerAuditEventRow.readBack ChainedCallerAuditEventRow.signedContent
      rw [hnone]
      rfl
    refine ⟨?_, ?_⟩
    · show (numbered.2.chainHash.isSome && _) = false
      rw [hnone]
      rfl
    · rw [hcontent]
      exact AuditEventCrypto.verify_sign hsigns hsigned
  -- whatever hash comes before, a row without a chain hash is held against none
  generalize history callerId t = rows at hrows
  generalize (none : Option JsString) = previousHash
  induction rows generalizing previousHash with
  | nil => trivial
  | cons row rows ih =>
    obtain ⟨hunchained, hverified⟩ := hrows row List.mem_cons_self
    have hnot : row.isChained ≠ true := by
      rw [hunchained]
      exact Bool.false_ne_true
    exact ⟨⟨hverified, fun h => absurd h hnot, fun h => absurd h hnot⟩,
      ih (fun r hr => hrows r (List.mem_cons_of_mem _ hr)) _⟩

/-- A client has the caller of a row locked, and the row is the next of the caller's chain. -/
inductive Next (sink : SupabaseCallerAuditSink Key) (i : ι) (t : CallerAuditEvents ι)
    (row : CallerAuditEventRow) : Prop where
  | intro (callerId : JsString) (hcaller : row.event.callerId = some callerId)
      (hheld : t.holder (sink.hashtext callerId) = some i)
      (hchained : row.readBack.isChained = true)
      (hchecked : sink.Checked (hashAfter none (history callerId t)) row.readBack)

/-- What a call may sign: an event without a caller, or an event as the next of a caller that it
has locked. -/
inductive Signable (sink : SupabaseCallerAuditSink Key) (i : ι) (t : CallerAuditEvents ι) :
    Data → Prop where
  | alone (event : CallerAuditEvent) : Signable sink i t (.obj event.members)
  | chained (event : CallerAuditEvent) (callerId : JsString) (chainPosition : JsNumber)
      (hheld : t.holder (sink.hashtext callerId) = some i) :
      Signable sink i t (chainedContent event.members (hashAfter none (history callerId t))
        chainPosition)

/-- What a call may do: use its own client with what arrives as it is, sign and insert what comes
next. -/
def Allowed (sink : SupabaseCallerAuditSink Key) (i : ι) (t : CallerAuditEvents ι)
    (step : AuditCall ι) : Prop :=
  (∀ client, step.client = some client → client = i) ∧
    (∀ ans, sent sink ⟨step, ans⟩ = some ⟨step, ans⟩) ∧
    match step with
    | .sign content => Signable sink i t content
    | .insertRow _ row => Next sink i t row
    | .commit _ => ∃ n row, t.staged i = [(n, row)] ∧ Next sink i t row
    | .insertAlone row => row.event.callerId = none
    | _ => True

/-! ### What arrives as it is -/

section Sent
variable {event : CallerAuditEvent}

theorem sent_insertRow (h : sink.Holds row.event)
    (ans : Except JsString (AuditCall.insertRow i row).Answer) :
    sent sink ⟨.insertRow i row, ans⟩ = some ⟨.insertRow i row, ans⟩ := by
  have hcolumns : sink.columns row.event = some row.event := h
  dsimp only [sent]
  rw [hcolumns]
  rfl

theorem sent_insertAlone (h : sink.Holds row.event)
    (ans : Except JsString (AuditCall.insertAlone (ι := ι) row).Answer) :
    sent sink ⟨.insertAlone row, ans⟩ = some ⟨.insertAlone row, ans⟩ := by
  have hcolumns : sink.columns row.event = some row.event := h
  dsimp only [sent]
  rw [hcolumns]
  rfl

/-- The caller of an event that the columns hold is one that they hold. -/
theorem holds_caller (h : sink.Holds event) (hcaller : event.callerId = some callerId) :
    (0 : UInt16) ∉ callerId.units ∧ callerId.toWellFormed = callerId := by
  have hmem : callerId ∈ event.texts := by
    unfold CallerAuditEvent.texts
    rw [hcaller]
    simp
  obtain ⟨hnul, hpaired⟩ := (SupabaseCallerAuditSink.holds_iff.mp h).2 callerId hmem
  exact ⟨hnul, JsString.toWellFormed_of_paired hpaired⟩

theorem sent_lock (h : sink.Holds event) (hcaller : event.callerId = some callerId)
    (ans : Except JsString (AuditCall.lock i callerId).Answer) :
    sent sink ⟨.lock i callerId, ans⟩ = some ⟨.lock i callerId, ans⟩ := by
  obtain ⟨hnul, hsame⟩ := holds_caller h hcaller
  dsimp only [sent]
  rw [if_pos hnul, hsame]

theorem sent_lastLink (h : sink.Holds event) (hcaller : event.callerId = some callerId)
    (ans : Except JsString (AuditCall.lastLink i callerId).Answer) :
    sent sink ⟨.lastLink i callerId, ans⟩ = some ⟨.lastLink i callerId, ans⟩ := by
  obtain ⟨hnul, hsame⟩ := holds_caller h hcaller
  dsimp only [sent]
  rw [if_pos hnul, hsame]

end Sent

theorem history_unmoved (hmoved : t.Unmoved (lockKey sink) i t')
    (hheld : t.holder (sink.hashtext callerId) = some i) :
    history callerId t' = history callerId t := by
  unfold history
  rw [callerRows_unmoved hmoved hheld]

theorem Next.unmoved (h : Next sink i t row) (hmoved : t.Unmoved (lockKey sink) i t') :
    Next sink i t' row := by
  obtain ⟨callerId, hcaller, hheld, hchained, hchecked⟩ := h
  refine .intro callerId hcaller (hmoved.holder _ hheld) hchained ?_
  rw [history_unmoved hmoved hheld]
  exact hchecked

/-- Inserting a row does not change what comes next. -/
theorem Next.inserted [DecidableEq ι] {row' : CallerAuditEventRow} (h : Next sink i t row) :
    Next sink i (t.insert i row') row := by
  obtain ⟨callerId, hcaller, hheld, hchained, hchecked⟩ := h
  exact .intro callerId hcaller hheld hchained hchecked

theorem Signable.unmoved {content : Data} (h : Signable sink i t content)
    (hmoved : t.Unmoved (lockKey sink) i t') : Signable sink i t' content := by
  cases h with
  | alone event => exact .alone event
  | chained event callerId chainPosition hheld =>
    rw [← history_unmoved hmoved hheld]
    exact .chained event callerId chainPosition (hmoved.holder _ hheld)

theorem allowed_unmoved {step : AuditCall ι} (hmoved : t.Unmoved (lockKey sink) i t')
    (h : Allowed sink i t step) : Allowed sink i t' step := by
  obtain ⟨hclient, hsent, h⟩ := h
  refine ⟨hclient, hsent, ?_⟩
  cases step with
  | sign content => exact h.unmoved hmoved
  | insertRow client row => exact h.unmoved hmoved
  | insertAlone row => exact h
  | commit client =>
    obtain ⟨n, row, hstaged, hnext⟩ := h
    exact ⟨n, row, hmoved.staged.trans hstaged, hnext.unmoved hmoved⟩
  | _ => trivial

/-! ### What a step does -/

/-- Nothing is committed. -/
theorem Kept.of_rows (h : Kept sink start t) (hordered : t'.Ordered (lockKey sink))
    (hrows : t'.rows = t.rows) : Kept sink start t' := by
  refine ⟨hordered, fun callerId => ?_, fun callerId => ?_⟩
  · rw [hrows]
    exact h.added callerId
  · unfold history
    rw [hrows]
    exact h.accepted callerId

/-- A row of no caller is added. -/
theorem Kept.add (h : Kept sink start t) (hcaller : row.event.callerId = none) :
    Kept sink start (t.add row) := by
  have hkey : lockKey sink row = none := by
    unfold lockKey
    rw [hcaller]
    rfl
  have hsame : ∀ callerId, callerRows callerId (t.add row).rows = callerRows callerId t.rows := by
    intro callerId
    refine callerRows_append.trans ?_
    rw [callerRows_singleton, hcaller, if_neg (Option.some_ne_none callerId).symm, List.append_nil]
  refine ⟨h.ordered.add hkey, fun callerId => ?_, fun callerId => ?_⟩
  · rw [hsame]
    exact h.added callerId
  · unfold history
    rw [hsame]
    exact h.accepted callerId

/-- **The next row of a caller is committed.** -/
theorem Kept.commit [DecidableEq ι] (h : Kept sink start t) {n : Nat}
    (hstaged : t.staged i = [(n, row)]) (hnext : Next sink i t row) :
    Kept sink start (t.commit i) := by
  obtain ⟨callerId, hcaller, -, hchained, hchecked⟩ := hnext
  have hrows : ∀ callerId', callerRows callerId' (t.commit i).rows =
      callerRows callerId' t.rows ++ if callerId = callerId' then [row] else [] := by
    intro callerId'
    refine callerRows_append.trans ?_
    rw [hstaged, callerRows_singleton, hcaller]
    simp only [Option.some.injEq]
  refine ⟨h.ordered.commit, fun callerId' => ?_, fun callerId' => ?_⟩
  · obtain ⟨added, hadded, hall⟩ := h.added callerId'
    refine ⟨added ++ if callerId = callerId' then [row] else [], ?_, fun r hr => ?_⟩
    · rw [hrows, hadded, List.append_assoc]
    · rcases List.mem_append.mp hr with hr | hr
      · exact hall r hr
      · split at hr
        · rw [List.mem_singleton.mp hr]
          exact hchained
        · cases hr
  · unfold history
    rw [hrows]
    by_cases hsame : callerId = callerId'
    · subst hsame
      rw [if_pos rfl, List.map_append]
      exact acceptedFrom_concat.mpr ⟨h.accepted callerId, hchecked⟩
    · rw [if_neg hsame, List.append_nil]
      exact h.accepted callerId'

variable [DecidableEq ι]

/-- **What a step can do**: nothing, lock a caller, insert, give up, commit, or add a row. -/
theorem answers_cases {e : AuditStep ι} (h : Answers sink t e t') :
    t' = t ∨
    (∃ client k, e.1.client = some client ∧ t.Free client k ∧ t' = t.lock client k) ∨
    (∃ client row, e.1 = .insertRow client row ∧ t' = t.insert client row) ∨
    (∃ client, e.1.client = some client ∧ t' = t.rollback client) ∨
    (∃ client, e.1 = .commit client ∧ t' = t.commit client) ∨
    ∃ row, e.1 = .insertAlone row ∧ t' = t.add row := by
  obtain ⟨step, ans⟩ := e
  have hfailed : (t' = t ∨ ∃ client, step.client = some client ∧ t' = t.rollback client) →
      t' = t ∨
      (∃ client k, step.client = some client ∧ t.Free client k ∧ t' = t.lock client k) ∨
      (∃ client row, step = .insertRow client row ∧ t' = t.insert client row) ∨
      (∃ client, step.client = some client ∧ t' = t.rollback client) ∨
      (∃ client, step = .commit client ∧ t' = t.commit client) ∨
      ∃ row, step = .insertAlone row ∧ t' = t.add row := by
    rintro (h | h)
    · exact .inl h
    · exact .inr (.inr (.inr (.inl h)))
  cases step with
  | connect client =>
    cases ans with
    | ok _ => exact .inl h
    | error e => exact hfailed h
  | begin client =>
    cases ans with
    | ok _ => exact .inl h
    | error e => exact hfailed h
  | lock client callerId =>
    cases ans with
    | ok _ => exact .inr (.inl ⟨client, _, rfl, h.1, h.2⟩)
    | error e => exact hfailed h
  | lastLink client callerId =>
    cases ans with
    | ok found => exact .inl h.2
    | error e => exact hfailed h
  | sign content =>
    cases ans with
    | ok signature => exact .inl h.2
    | error e => exact hfailed h
  | insertRow client row =>
    cases ans with
    | ok _ => exact .inr (.inr (.inl ⟨client, row, rfl, h⟩))
    | error e => exact hfailed h
  | commit client =>
    cases ans with
    | ok _ => exact .inr (.inr (.inr (.inr (.inl ⟨client, rfl, h⟩))))
    | error e =>
      rcases h with h | h
      · exact .inr (.inr (.inr (.inl ⟨client, rfl, h⟩)))
      · exact .inr (.inr (.inr (.inr (.inl ⟨client, rfl, h⟩))))
  | rollback client =>
    cases ans with
    | ok _ => exact .inr (.inr (.inr (.inl ⟨client, rfl, h⟩)))
    | error e => exact .inr (.inr (.inr (.inl ⟨client, rfl, h⟩)))
  | insertAlone row =>
    cases ans with
    | ok _ => exact .inr (.inr (.inr (.inr (.inr ⟨row, rfl, h⟩))))
    | error e =>
      rcases h with h | h
      · exact .inl h
      · exact .inr (.inr (.inr (.inr (.inr ⟨row, rfl, h⟩))))

/-- A step that arrives as it is is answered so. -/
theorem serves_answers {e : AuditStep ι} (hallowed : Allowed sink i t e.1)
    (hs : Serves sink t e t') : Answers sink t e t' := by
  unfold Serves at hs
  rw [hallowed.2.1 e.2] at hs
  exact hs

/-- **What a step that is allowed does leaves the other clients theirs**, and what is so between
any two. -/
theorem answers_kept {e : AuditStep ι} (h : Kept sink start t)
    (hallowed : Allowed sink i t e.1) (hs : Answers sink t e t') :
    (∀ j, j ≠ i → t.Unmoved (lockKey sink) j t') ∧ Kept sink start t' := by
  rcases answers_cases hs with rfl | ⟨client, k, hclient, hfree, rfl⟩ |
    ⟨client, row, hinsert, rfl⟩ | ⟨client, hclient, rfl⟩ | ⟨client, hcommit, rfl⟩ |
    ⟨row, halone, rfl⟩
  · exact ⟨fun _ _ => .refl, h⟩
  · obtain rfl := hallowed.1 client hclient
    exact ⟨fun j hj => LockedTable.unmoved_lock hfree hj,
      h.of_rows (h.ordered.lock hfree) rfl⟩
  · rw [hinsert] at hallowed
    obtain rfl := hallowed.1 client rfl
    obtain ⟨callerId, hcaller, hheld, -, -⟩ := hallowed.2.2
    have hkey : lockKey sink row = some (sink.hashtext callerId) := by
      unfold lockKey
      rw [hcaller]
      rfl
    exact ⟨fun j hj => LockedTable.unmoved_insert hj,
      h.of_rows (h.ordered.insert hkey hheld) rfl⟩
  · obtain rfl := hallowed.1 client hclient
    exact ⟨fun j hj => LockedTable.unmoved_rollback hj, h.of_rows h.ordered.rollback rfl⟩
  · rw [hcommit] at hallowed
    obtain rfl := hallowed.1 client rfl
    obtain ⟨n, row, hstaged, hnext⟩ := hallowed.2.2
    exact ⟨fun j hj => LockedTable.unmoved_commit h.ordered hj, h.commit hstaged hnext⟩
  · rw [halone] at hallowed
    have hkey : lockKey sink row = none := by
      unfold lockKey
      rw [hallowed.2.2]
      rfl
    exact ⟨fun j _ => LockedTable.unmoved_add hkey, h.add hallowed.2.2⟩

/-! ## The calls -/

/-- The answers a call can get while the others take their steps. -/
abbrev Replies (sink : SupabaseCallerAuditSink Key) (start : CallerAuditEvents ι) (i : ι) :
    CallerAuditEvents ι → AuditStep ι → CallerAuditEvents ι →
      Prop :=
  Under (LockedTable.Unmoved (lockKey sink) i) fun t e t' => Kept sink start t ∧ Serves sink t e t'

open SupabaseCallerAuditSink

theorem run_ensures {step : AuditCall ι}
    {post : CallerAuditEvents ι → Except JsString step.Answer → Prop}
    (hallowed : Allowed sink i t step)
    (hpost : ∀ t₁ t' ans, t.Unmoved (lockKey sink) i t₁ → Kept sink start t₁ →
      Answers sink t₁ ⟨step, ans⟩ t' → post t' ans) :
    (run step).Ensures (Replies sink start i) (Allowed sink i) post t := by
  refine ensures_perform.mpr ⟨hallowed, ?_⟩
  rintro ans t' ⟨t₁, hmoved, hkept, hs⟩
  exact hpost t₁ t' ans hmoved hkept (serves_answers (allowed_unmoved hmoved hallowed) hs)

omit [DecidableEq ι] in
/-- A step of its own client that inserts and commits nothing. -/
theorem allowed_own {step : AuditCall ι} (hclient : step.client = some i)
    (hsent : ∀ ans, sent sink ⟨step, ans⟩ = some ⟨step, ans⟩)
    (hother : match step with | .commit _ | .insertRow .. => False | _ => True) :
    Allowed sink i t step := by
  refine ⟨fun client h => Option.some.inj (h.symm.trans hclient), hsent, ?_⟩
  cases step with
  | commit => exact absurd hother id
  | insertRow => exact absurd hother id
  | sign => cases hclient
  | insertAlone => cases hclient
  | _ => trivial

omit [DecidableEq ι] in
/-- What a call finds last in its caller's rows is what the verifier expects next. -/
theorem hashAfter_eq (hlegacy : Legacy sink start) (h : Kept sink start t) (callerId : JsString) :
    hashAfter none (history callerId t) =
      (callerRows callerId t.rows).getLast?.bind CallerAuditEventRow.chainHash := by
  unfold hashAfter history
  rw [List.getLast?_map]
  cases hlast : (callerRows callerId t.rows).getLast? with
  | none => rfl
  | some row =>
    show row.readBack.hashAfter = row.chainHash
    unfold ChainedCallerAuditEventRow.hashAfter
    obtain ⟨added, hadded, hchained⟩ := h.added callerId
    have hmem := List.mem_of_getLast? hlast
    rw [hadded, List.mem_append] at hmem
    rcases hmem with hmem | hmem
    · obtain ⟨old, hold, rfl⟩ := List.mem_map.mp hmem
      have hnone := hlegacy.unchained old (List.mem_of_mem_filter hold)
      rw [hnone]
      split
      · exact hnone
      · rfl
    · rw [if_pos (hchained row hmem)]
      rfl

omit [DecidableEq ι] in
/-- **What a call that has locked its caller and read its last row signs comes next.** -/
theorem next_of_read (hsigns : sink.crypto.Signs) {event : CallerAuditEvent} {keyId : JsString}
    {chainPosition : JsNumber} {signature : Signature} {chainHash : JsString}
    (hcaller : event.callerId = some callerId)
    (hheld : t.holder (sink.hashtext callerId) = some i)
    (hsigned : sink.crypto.sign keyId (chainedContent event.members
      (hashAfter none (history callerId t)) chainPosition) = .ok signature)
    (hhash : TrustRecordHasher.hash sink.sha256 (chainedContent event.members
      (hashAfter none (history callerId t)) chainPosition) = .ok chainHash) :
    Next sink i t ⟨event, signature, some chainHash, hashAfter none (history callerId t),
      some chainPosition⟩ := by
  refine .intro callerId hcaller hheld rfl ⟨AuditEventCrypto.verify_sign hsigns hsigned, ?_, ?_⟩
  · rintro - _ ⟨⟩
    exact hhash
  · exact fun _ => rfl

theorem rollback_ensures {error : JsString} :
    (do
      tryCatch (run (.rollback i)) fun _ => return ()
      throw error : AuditProgram ι Unit).Ensures (Replies sink start i) (Allowed sink i)
        (fun _ _ => True) t := by
  refine ensures_bind.mpr (ensures_tryCatch.mpr (run_ensures
    (allowed_own rfl (fun _ => rfl) trivial) fun t₁ t₂ ans _ _ _ => ?_))
  cases ans with
  | ok _ => trivial
  | error e => trivial

/-- The end of the chain is found: what is signed, inserted and committed comes next. -/
theorem recordNext_ensures (hsigns : sink.crypto.Signs) {event : CallerAuditEvent}
    (hholds : sink.Holds event) {chainPosition : JsNumber}
    (hcaller : event.callerId = some callerId)
    (hheld : t.holder (sink.hashtext callerId) = some i) (hidle : t.staged i = []) :
    (sink.recordNext i event (hashAfter none (history callerId t)) chainPosition).Ensures
      (Replies sink start i) (Allowed sink i) (fun _ _ => True) t := by
  refine ensures_bind.mpr (run_ensures ⟨nofun, fun _ => rfl, .chained event callerId _ hheld⟩
    fun t₁ t₂ ans hmoved _ hs => ?_)
  cases ans with
  | error e => trivial
  | ok signature =>
    obtain rfl : t₂ = t₁ := hs.2
    have hanswer : ∃ keyId, sink.crypto.sign keyId _ = .ok signature := hs.1
    cases hanswer with | intro keyId hsigned => ?_
    -- the lock is held, so the history is still the one that was read
    rw [← history_unmoved hmoved hheld] at hsigned ⊢
    have hheld₁ := hmoved.holder _ hheld
    have hidle₁ := hmoved.staged.trans hidle
    refine ensures_bind.mpr ?_
    cases hhash : TrustRecordHasher.hash sink.sha256 (chainedContent event.members
      (hashAfter none (history callerId t₂)) chainPosition) with
    | error e => trivial
    | ok chainHash =>
      have hnext := next_of_read hsigns hcaller hheld₁ hsigned hhash
      refine ensures_bind.mpr (run_ensures
        ⟨fun _ h => (Option.some.inj h).symm, sent_insertRow hholds, hnext⟩
        fun t₃ t₄ ans hmoved _ hs => ?_)
      cases ans with
      | error e => trivial
      | ok _ =>
        obtain rfl : t₄ = t₃.insert i _ := hs
        refine run_ensures ⟨fun _ h => (Option.some.inj h).symm, fun _ => rfl, t₃.nextId, _, ?_,
          (hnext.unmoved hmoved).inserted⟩ fun _ _ _ _ _ _ => trivial
        rw [LockedTable.staged_insert, hmoved.staged, hidle₁]
        rfl

theorem recordChained_ensures (hlegacy : Legacy sink start) (hsigns : sink.crypto.Signs)
    {event : CallerAuditEvent} (hholds : sink.Holds event)
    (hcaller : event.callerId = some callerId)
    (hidle : t.staged i = []) :
    (sink.recordChained i event callerId).Ensures (Replies sink start i) (Allowed sink i)
      (fun _ _ => True) t := by
  refine ensures_bind.mpr (run_ensures (allowed_own rfl (fun _ => rfl) trivial)
    fun t₁ t₂ ans hmoved _ hs => ?_)
  cases ans with
  | error e => trivial
  | ok _ =>
    obtain rfl : t₂ = t₁ := hs
    have hidle₁ := hmoved.staged.trans hidle
    refine ensures_bind.mpr (run_ensures (allowed_own rfl (sent_lock hholds hcaller) trivial)
      fun t₁ t₃ ans hmoved _ hs => ?_)
    cases ans with
    | error e => trivial
    | ok _ =>
      obtain ⟨-, rfl⟩ : t₁.Free i (sink.hashtext callerId) ∧
        t₃ = t₁.lock i (sink.hashtext callerId) := hs
      have hlocked : (t₁.lock i (sink.hashtext callerId)).holder (sink.hashtext callerId) =
        some i := LockedTable.holder_lock
      have hidle₂ : (t₁.lock i (sink.hashtext callerId)).staged i = [] :=
        hmoved.staged.trans hidle₁
      refine ensures_bind.mpr (run_ensures (allowed_own rfl (sent_lastLink hholds hcaller) trivial)
        fun t₄ t₅ ans hmoved hkept hs => ?_)
      cases ans with
      | error e => trivial
      | ok found =>
        obtain ⟨hfound, rfl⟩ : found = (rowsOf callerId (t₄.rows ++ t₄.staged i)).getLast?.map
          CallerAuditEventRow.lastLink ∧ t₅ = t₄ := hs
        have hidle₃ := hmoved.staged.trans hidle₂
        have hprevious : found.bind LastChainLinkRow.chainHash =
            hashAfter none (history callerId t₅) := by
          rw [hashAfter_eq hlegacy hkept, hfound, hidle₃, List.append_nil,
            rowsOf_eq hkept.ordered]
          cases (callerRows callerId t₅.rows).getLast? <;> rfl
        show (sink.recordNext i event (found.bind LastChainLinkRow.chainHash) _).Ensures _ _ _ _
        rw [hprevious]
        exact recordNext_ensures hsigns hholds hcaller (hmoved.holder _ hlocked) hidle₃

/-- **A call signs, inserts and commits what comes next.** -/
theorem record_ensures (hlegacy : Legacy sink start) (hsigns : sink.crypto.Signs)
    (event : CallerAuditEvent) (hholds : sink.Holds event) (hidle : t.staged i = []) :
    (sink.record i event).Ensures (Replies sink start i) (Allowed sink i) (fun _ _ => True) t := by
  unfold record
  split
  · rename_i hcaller
    refine ensures_bind.mpr (run_ensures ⟨nofun, fun _ => rfl, .alone event⟩
      fun t₁ t₂ ans _ _ _ => ?_)
    cases ans with
    | error e => trivial
    | ok signature =>
      exact run_ensures ⟨nofun, sent_insertAlone hholds, hcaller⟩ fun _ _ _ _ _ _ => trivial
  · rename_i callerId hcaller
    refine ensures_bind.mpr (run_ensures (allowed_own rfl (fun _ => rfl) trivial)
    fun t₁ t₂ ans hmoved _ hs => ?_)
    cases ans with
    | error e => trivial
    | ok _ =>
      obtain rfl : t₂ = t₁ := hs
      refine ensures_tryCatch.mpr ((recordChained_ensures hlegacy hsigns hholds hcaller
        (hmoved.staged.trans hidle)).mono ?_)
      rintro t₃ (e | _) -
      · exact rollback_ensures
      · trivial

end
end Parmana.Audit

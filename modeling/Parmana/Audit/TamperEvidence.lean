import Parmana.Audit.CallerAuditTrail

/-! # The evidence of the audit trail

Whatever the interleaving of the calls, the rows stored for a caller are those from before there
were chains and then a chain, and the verifier accepts them in the order of their numbers.

What it accepts is in turn what was recorded.  Where the signatures that are accepted are of
recorded rows, a list of chained rows is accepted only if it begins the chain of one caller.  A
call signs before it commits: where the signatures that are accepted are of anything that was
signed, the last row of such a list may be one whose call never committed, and no other
(`caller_audit_trail`).
-/
namespace Parmana.Audit
open Js Crypto Interaction Interaction.Program CallerAuditChainVerifier

section
variable {Key ι : Type} (sink : SupabaseCallerAuditSink Key)

/-! ## Stored, recorded and signed -/

/-- The rows stored for a caller, in the order of their numbers, as they are read back. -/
def stored (callerId : JsString) (t : CallerAuditEvents ι) : List ChainedCallerAuditEventRow :=
  (rowsOf callerId t.rows).map CallerAuditEventRow.readBack

/-- The chained ones of them. -/
def recorded (callerId : JsString) (t : CallerAuditEvents ι) : List ChainedCallerAuditEventRow :=
  (stored callerId t).filter ChainedCallerAuditEventRow.isChained

/-- What the recorded rows say, in canonical bytes. -/
def recordedContents (t : CallerAuditEvents ι) : Set (List UInt8) :=
  {bytes | ∃ callerId, ∃ row ∈ recorded callerId t, serialize row.signedContent = .ok bytes}

/-- What was signed, in canonical bytes. -/
def signedContents (log : List (ι × AuditStep ι)) :
    Set (List UInt8) :=
  {bytes | ∃ i content signature,
    (i, ⟨AuditCall.sign content, .ok signature⟩) ∈ log ∧ serialize content = .ok bytes}

/-- What was signed: an event without a caller, or the next link of a caller's chain as it was
then. -/
inductive Attempted (t : CallerAuditEvents ι) : Data → Prop where
  | alone (event : CallerAuditEvent) : Attempted t (.obj event.members)
  | chained (callerId : JsString) (links : List AuditLink) (link : AuditLink)
      (hlinked : sink.Linked none (links ++ [link]))
      (hbegins : linkContents links <+: contents (recorded callerId t)) :
      Attempted t link.content

variable {sink} {callerId : JsString} {t t' start : CallerAuditEvents ι} {i : ι}

theorem stored_eq (h : t.Ordered (lockKey sink)) (callerId : JsString) :
    stored callerId t = history callerId t := by
  unfold stored history
  rw [rowsOf_eq h]

/-- What is kept, of the rows in the order of their numbers. -/
theorem Kept.stored_eq_append (hlegacy : Legacy sink start) (h : Kept sink start t)
    (callerId : JsString) : stored callerId t = stored callerId start ++ recorded callerId t ∧
      ∀ row ∈ stored callerId start, row.isChained = false := by
  have hold : ∀ row ∈ history callerId start, row.isChained = false := by
    intro row hrow
    obtain ⟨old, hold, rfl⟩ := List.mem_map.mp hrow
    obtain ⟨numbered, hnumbered, rfl⟩ := List.mem_map.mp hold
    have hnone := hlegacy.unchained numbered (List.mem_of_mem_filter hnumbered)
    show (numbered.2.chainHash.isSome && _) = false
    rw [hnone]
    rfl
  obtain ⟨added, hadded, hchained⟩ := h.added callerId
  have hsplit : history callerId t =
      history callerId start ++ added.map CallerAuditEventRow.readBack := by
    unfold history
    rw [hadded, List.map_append]
  rw [stored_eq hlegacy.ordered, recorded, stored_eq h.ordered]
  refine ⟨?_, hold⟩
  rw [hsplit, List.filter_append, List.filter_eq_nil_iff.mpr, List.nil_append,
    List.filter_eq_self.mpr]
  · intro row hrow
    obtain ⟨new, hnew, rfl⟩ := List.mem_map.mp hrow
    exact hchained new hnew
  · intro row hrow
    rw [hold row hrow]
    exact Bool.false_ne_true

/-- **The recorded rows of a caller are a chain**, and its last hash is the one to name next. -/
theorem Kept.links (hlegacy : Legacy sink start) (h : Kept sink start t) (callerId : JsString) :
    ∃ links, sink.Linked none links ∧ contents (recorded callerId t) = linkContents links ∧
      hashAfter none (history callerId t) =
        HashChain.lastHash AuditLink.bytes sink.sha256 none links := by
  obtain ⟨hsplit, hold⟩ := h.stored_eq_append hlegacy callerId
  rw [stored_eq h.ordered] at hsplit
  have haccepted := h.accepted callerId
  have hnone : hashAfter none (stored callerId start) = none := by
    unfold hashAfter
    cases hlast : (stored callerId start).getLast? with
    | none => rfl
    | some row =>
      show row.hashAfter = none
      unfold ChainedCallerAuditEventRow.hashAfter
      rw [hold row (List.mem_of_getLast? hlast)]
      rfl
  rw [hsplit] at haccepted ⊢
  have hrest := (acceptedFrom_append.mp haccepted).2
  rw [hnone] at hrest
  have hchained : ∀ row ∈ recorded callerId t, row.isChained = true :=
    fun row hrow => (List.mem_filter.mp hrow).2
  obtain ⟨links, hlinked, hcontents, hlast⟩ := linked_of_accepted hrest hchained
  refine ⟨links, hlinked, hcontents, ?_⟩
  rw [← hlast, hashAfter_append, hnone]

/-- A call signs the next link of its caller's chain. -/
theorem attempted_of_signable (hlegacy : Legacy sink start) (h : Kept sink start t) {content : Data}
    (hsignable : Signable sink i t content) {keyId : JsString} {signature : Signature}
    (hsigned : sink.crypto.sign keyId content = .ok signature) : Attempted sink t content := by
  cases hsignable with
  | alone event => exact .alone event
  | chained event callerId chainPosition hheld =>
    obtain ⟨links, hlinked, hcontents, hlast⟩ := h.links hlegacy callerId
    obtain ⟨bytes, hbytes, -⟩ := bind_eq_ok.mp hsigned
    refine .chained callerId links ⟨event.toAuditEvent, _, chainPosition, bytes, hbytes⟩ ?_ ?_
    · exact HashChain.linked_concat.mpr ⟨hlinked, hlast⟩
    · rw [hcontents]

/-! ## Runs -/

/-- What is recorded stays so. -/
theorem Attempted.mono {content : Data} (h : Attempted sink t content)
    (hrecorded : ∀ callerId, recorded callerId t <+: recorded callerId t') :
    Attempted sink t' content := by
  cases h with
  | alone event => exact .alone event
  | chained callerId links link hlinked hbegins =>
    exact .chained callerId links link hlinked (hbegins.trans ((hrecorded callerId).map _))

variable [DecidableEq ι]

theorem answers_recorded {e : AuditStep ι}
    (h : t.Ordered (lockKey sink)) (h' : t'.Ordered (lockKey sink)) (hs : Answers sink t e t')
    (callerId : JsString) : recorded callerId t <+: recorded callerId t' := by
  have hrows : t.rows <+: t'.rows := by
    rcases answers_cases hs with rfl | ⟨client, k, -, -, rfl⟩ | ⟨client, row, -, rfl⟩ |
      ⟨client, -, rfl⟩ | ⟨client, -, rfl⟩ | ⟨row, -, rfl⟩
    · exact List.prefix_refl _
    · exact List.prefix_refl _
    · exact List.prefix_refl _
    · exact List.prefix_refl _
    · exact List.prefix_append _ _
    · exact List.prefix_append _ _
  unfold recorded
  rw [stored_eq h, stored_eq h']
  exact (((hrows.filter _).map _).map _).filter _

/-- What is so after any number of steps. -/
structure Recorded (sink : SupabaseCallerAuditSink Key) (start : CallerAuditEvents ι)
    (log : List (ι × AuditStep ι)) (t : CallerAuditEvents ι) :
    Prop where
  kept : Kept sink start t
  attempted : ∀ i content signature, (i, ⟨AuditCall.sign content, .ok signature⟩) ∈ log →
    Attempted sink t content

/-- **In every run the rows of each caller are kept**, and what is signed is what comes next. -/
theorem recorded_of_exec (hsigns : sink.crypto.Signs) (hlegacy : Legacy sink start)
    (events : ι → CallerAuditEvent) (hholds : ∀ i, sink.Holds (events i))
    {log : List (ι × AuditStep ι)}
    {Q : Pool (AuditCall ι) AuditCall.Answer JsString (fun _ : ι => Unit) (CallerAuditEvents ι)}
    (h : Exec (Serves sink) (recordPool sink events start) log Q) :
    Recorded sink start log Q.state := by
  have hrefl : ∀ i (t : CallerAuditEvents ι), t.Unmoved (lockKey sink) i t := fun _ _ => .refl
  have htrans : ∀ i (a b c : CallerAuditEvents ι), a.Unmoved (lockKey sink) i b →
      b.Unmoved (lockKey sink) i c → a.Unmoved (lockKey sink) i c := fun _ _ _ _ h h' => h.trans h'
  have hpre : ∀ i (a b : CallerAuditEvents ι) step, a.Unmoved (lockKey sink) i b →
      Allowed sink i a step → Allowed sink i b step := fun _ _ _ _ => allowed_unmoved
  have hpost : ∀ (i : ι) (a b : CallerAuditEvents ι) (_ : Except JsString Unit),
      a.Unmoved (lockKey sink) i b → True → True := fun _ _ _ _ _ => id
  refine (h.ensures_each hrefl htrans hpre hpost ?_ ⟨hlegacy.kept hsigns, nofun⟩ fun i => ?_).1
  · intro log t i e t' hrecorded hallowed hs
    have hs := serves_answers hallowed hs
    obtain ⟨hmoved, hkept⟩ := answers_kept hrecorded.kept hallowed hs
    have hgrows := answers_recorded hrecorded.kept.ordered hkept.ordered hs
    refine ⟨hmoved, hkept, fun j content signature hmem => ?_⟩
    rcases List.mem_append.mp hmem with hmem | hmem
    · exact (hrecorded.attempted j content signature hmem).mono hgrows
    · obtain ⟨rfl, rfl⟩ := Prod.mk.inj (List.mem_singleton.mp hmem)
      obtain ⟨⟨keyId, hsigned⟩, -⟩ : (∃ keyId, sink.crypto.sign keyId content = .ok signature) ∧
        t' = t := hs
      exact (attempted_of_signable hlegacy hrecorded.kept hallowed.2.2 hsigned).mono hgrows
  · refine (record_ensures hlegacy hsigns (events i) (hholds i) (hlegacy.idle i)).answers ?_
    rintro t e t' ⟨t₁, hmoved, ⟨log, hrecorded⟩, hs⟩
    exact ⟨t₁, hmoved, hrecorded.kept, hs⟩

/-! ## What is accepted -/

omit [DecidableEq ι] in
theorem mem_contents {rows : List ChainedCallerAuditEventRow} {bytes : List UInt8} :
    .ok bytes ∈ contents rows ↔ ∃ row ∈ rows, serialize row.signedContent = .ok bytes :=
  List.mem_map

omit [DecidableEq ι] in
theorem mem_linkContents {links : List AuditLink} {bytes : List UInt8} :
    .ok bytes ∈ linkContents links ↔ ∃ link ∈ links, link.bytes = bytes := by
  unfold linkContents
  rw [List.mem_map]
  simp only [Except.ok.injEq]

omit [DecidableEq ι] in
/-- **Where signatures are of recorded rows, what is accepted begins the chain of a caller.** -/
theorem Kept.prefix_of_accepted (hlegacy : Legacy sink start) (h : Kept sink start t)
    (hunforgeable : sink.Unforgeable (recordedContents t))
    (hhash : Set.InjOn sink.sha256 (recordedContents t)) {rows : List ChainedCallerAuditEventRow}
    (haccepts : sink.Accepts rows) (hchained : ∀ row ∈ rows, row.isChained = true) :
    ∃ callerId, contents rows <+: contents (recorded callerId t) := by
  by_cases hne : rows = []
  · rw [hne]
    exact ⟨"", List.nil_prefix⟩
  · -- the chains that can be cut are those of the callers
    let chains : Set (List AuditLink) :=
      {links | sink.Linked none links ∧
        ∃ callerId, contents (recorded callerId t) = linkContents links}
    have hbytes : bytesOf chains = recordedContents t := by
      ext bytes
      constructor
      · rintro ⟨links, ⟨-, callerId, hcontents⟩, hlink⟩
        rw [← mem_linkContents, ← hcontents] at hlink
        exact ⟨callerId, mem_contents.mp hlink⟩
      · rintro ⟨callerId, hrow⟩
        obtain ⟨links, hlinked, hcontents, -⟩ := h.links hlegacy callerId
        rw [← mem_contents, hcontents] at hrow
        exact ⟨links, ⟨hlinked, callerId, hcontents⟩, mem_linkContents.mp hrow⟩
    rw [← hbytes] at hunforgeable hhash
    obtain ⟨links, ⟨-, callerId, hcontents⟩, hbegins⟩ :=
      CallerAuditChainVerifier.prefix_of_accepted (fun _ h => h.1) hunforgeable hhash haccepts
        hchained hne
    rw [← hcontents] at hbegins
    exact ⟨callerId, hbegins⟩

omit [DecidableEq ι] in
/-- What is signed without a caller does not read as a chained row. -/
theorem signedContent_ne {row : ChainedCallerAuditEventRow} (hchained : row.isChained = true)
    {bytes : List UInt8} (hbytes : serialize row.signedContent = .ok bytes)
    (event : CallerAuditEvent) : serialize (.obj event.members) ≠ .ok bytes := by
  obtain ⟨link, rfl, -⟩ := exists_link hchained hbytes
  refine chainedContent_ne link.event.distinct event.toAuditEvent.distinct ?_ link.serialized
  show (List.lookup _ event.members).getD Data.undefined = _
  rw [Members.lookup_eq_none fun hmem => ?_]
  · rfl
  · exact absurd (event.members_names.subset hmem) (by decide)

omit [DecidableEq ι] in
/-- **Where signatures are of what was signed, only the last row that is accepted may be of a call
that has not committed.** -/
theorem Recorded.prefix_of_accepted
    {log : List (ι × AuditStep ι)} (h : Recorded sink start log t)
    (hunforgeable : sink.Unforgeable (signedContents log))
    (hhash : Set.InjOn sink.sha256 (signedContents log ∪ recordedContents t))
    {rows : List ChainedCallerAuditEventRow} (haccepts : sink.Accepts rows)
    (hchained : ∀ row ∈ rows, row.isChained = true) :
    ∃ callerId, contents rows <+: contents (recorded callerId t) ∨
      ∃ before row, rows = before ++ [row] ∧
        contents before <+: contents (recorded callerId t) := by
  by_cases hne : rows = []
  · rw [hne]
    exact ⟨"", .inl List.nil_prefix⟩
  · -- what was signed for a caller continues a beginning of the caller's chain by one link
    let chains : Set (List AuditLink) :=
      {links | sink.Linked none links ∧ ∃ callerId before link, links = before ++ [link] ∧
        linkContents before <+: contents (recorded callerId t) ∧ link.bytes ∈ signedContents log}
    have hsigned : sink.Unforgeable (bytesOf chains) := by
      intro row hrow hverified
      obtain ⟨bytes, ⟨i, content, signature, hmem, hcontent⟩, hbytes⟩ :=
        hunforgeable row hrow hverified
      refine ⟨bytes, ?_, hbytes⟩
      cases h.attempted i content signature hmem with
      | alone event => exact absurd hcontent (signedContent_ne hrow hbytes event)
      | chained callerId links link hlinked hbegins =>
        have hsame : link.bytes = bytes := Except.ok.inj (link.serialized.symm.trans hcontent)
        refine ⟨links ++ [link], ⟨hlinked, callerId, links, link, rfl, hbegins, ?_⟩, link, ?_,
          hsame⟩
        · exact ⟨i, _, signature, hmem, link.serialized⟩
        · exact List.mem_append_right _ (List.mem_singleton_self _)
    have hinjective : Set.InjOn sink.sha256 (bytesOf chains) := by
      refine hhash.mono ?_
      rintro bytes ⟨links, ⟨-, callerId, before, link, rfl, hbegins, hlast⟩, hlink⟩
      obtain ⟨other, hother, rfl⟩ := hlink
      rcases List.mem_append.mp hother with hother | hother
      · have hmem := hbegins.subset (mem_linkContents.mpr ⟨other, hother, rfl⟩)
        exact .inr ⟨callerId, mem_contents.mp hmem⟩
      · rw [List.mem_singleton.mp hother]
        exact .inl hlast
    obtain ⟨links, ⟨-, callerId, before, link, rfl, hbefore, -⟩, hbegins⟩ :=
      CallerAuditChainVerifier.prefix_of_accepted (fun _ h => h.1) hsigned hinjective haccepts
        hchained hne
    refine ⟨callerId, ?_⟩
    have hsplit : linkContents (before ++ [link]) = linkContents before ++ [.ok link.bytes] :=
      List.map_append
    rw [hsplit, List.prefix_concat_iff] at hbegins
    rcases hbegins with hwhole | hbegins
    · right
      obtain ⟨init, last, rfl⟩ := (List.eq_nil_or_concat' rows).resolve_left hne
      refine ⟨init, last, rfl, ?_⟩
      have hinit : contents (init ++ [last]) =
          contents init ++ [serialize last.signedContent] := List.map_append
      rw [hinit] at hwhole
      rw [(List.append_inj' hwhole rfl).1]
      exact hbefore
    · exact .inl (hbegins.trans hbefore)

/-- **The evidence of the audit trail**: in every run the rows stored for a caller, after those
from before there were chains, are accepted in their order, and what is accepted was recorded. -/
theorem caller_audit_trail (hsigns : sink.crypto.Signs) (hlegacy : Legacy sink start)
    (events : ι → CallerAuditEvent) (hholds : ∀ i, sink.Holds (events i))
    {log : List (ι × AuditStep ι)}
    {Q : Pool (AuditCall ι) AuditCall.Answer JsString (fun _ : ι => Unit) (CallerAuditEvents ι)}
    (h : Exec (Serves sink) (recordPool sink events start) log Q) :
    (∀ callerId, stored callerId Q.state = stored callerId start ++ recorded callerId Q.state ∧
      (∀ row ∈ stored callerId start, row.isChained = false) ∧
      sink.Accepts (stored callerId Q.state)) ∧
    (sink.Unforgeable (recordedContents Q.state) →
      Set.InjOn sink.sha256 (recordedContents Q.state) → ∀ rows, sink.Accepts rows →
        (∀ row ∈ rows, row.isChained = true) →
          ∃ callerId, contents rows <+: contents (recorded callerId Q.state)) ∧
    (sink.Unforgeable (signedContents log) →
      Set.InjOn sink.sha256 (signedContents log ∪ recordedContents Q.state) → ∀ rows,
        sink.Accepts rows → (∀ row ∈ rows, row.isChained = true) →
          ∃ callerId, contents rows <+: contents (recorded callerId Q.state) ∨
            ∃ before row, rows = before ++ [row] ∧
              contents before <+: contents (recorded callerId Q.state)) := by
  have hrecorded := recorded_of_exec hsigns hlegacy events hholds h
  refine ⟨fun callerId => ?_, fun hunforgeable hhash rows => ?_, fun hunforgeable hhash rows => ?_⟩
  · obtain ⟨hsplit, hold⟩ := hrecorded.kept.stored_eq_append hlegacy callerId
    refine ⟨hsplit, hold, accepts_iff.mpr ?_⟩
    rw [stored_eq hrecorded.kept.ordered]
    exact hrecorded.kept.accepted callerId
  · exact hrecorded.kept.prefix_of_accepted hlegacy hunforgeable hhash
  · exact hrecorded.prefix_of_accepted hunforgeable hhash

end

namespace AuditSample

/-! ## A sink that signs some bytes and no others -/

/-- An event of a caller. -/
def event (callerId : JsString) (businessTransactionId : Option JsString) : CallerAuditEvent where
  type := .authenticated
  occurredAt := "2026-01-01T00:00:00.000Z"
  route := "/execute"
  callerId := some callerId
  reason := none
  businessTransactionId
  capability := none
  principalId := none
  severity := none

/-- The canonical bytes of what is signed. -/
def written (content : Data) : List UInt8 := (serialize content).toOption.getD []

/-- A digest that is another for any other bytes. -/
def digest (bytes : List UInt8) : JsString := ⟨bytes.map UInt8.toUInt16⟩

theorem digest_injective : Function.Injective digest := by
  intro bytes bytes' h
  refine List.map_injective_iff.mpr ?_ (congrArg JsString.units h)
  intro b b' hb
  have hval := congrArg UInt16.toNat hb
  rw [UInt8.toNat_toUInt16, UInt8.toNat_toUInt16] at hval
  exact UInt8.toNat_inj.mp hval

/-- The sink. -/
def sink (signed : List (List UInt8)) : SupabaseCallerAuditSink Unit where
  crypto := {
    signature := ⟨"ed25519", fun data _ _ => .ok (decide (data ∈ signed))⟩
    signer := fun _ data => if data ∈ signed then .ok [] else .error "not signed"
    getPublicKey := fun _ => .ok ⟨"ed25519", ()⟩ }
  sha256 := digest
  hashtext text := (text.units.map UInt16.toNat).sum
  timestamptz := some

/-- What is signed of an event after what is found last of its caller. -/
def content (event : CallerAuditEvent) (found : Option LastChainLinkRow) : Data :=
  chainedContent event.members (found.bind LastChainLinkRow.chainHash)
    (nextPosition (found.bind LastChainLinkRow.chainPosition))

/-- The row of an event. -/
def row (event : CallerAuditEvent) (found : Option LastChainLinkRow) : CallerAuditEventRow :=
  ⟨event, ⟨"ed25519", "default", []⟩, some (digest (written (content event found))),
    found.bind LastChainLinkRow.chainHash,
    some (nextPosition (found.bind LastChainLinkRow.chainPosition))⟩

section
variable {signed : List (List UInt8)} {event : CallerAuditEvent}
  {found : Option LastChainLinkRow}

theorem serialize_content :
    serialize (content event found) = .ok (written (content event found)) := by
  have hdistinct : (content event found).distinct = true :=
    chainedContent_distinct event.toAuditEvent.distinct
  have hdates : (content event found).datesValid = true := by
    refine chainedContent_datesValid ?_
    rw [Data.datesValid, Data.datesValidMembers_iff]
    intro p hp
    obtain ⟨text, htext⟩ := event.members_text hp
    rw [htext]
    rfl
  obtain ⟨bytes, hbytes⟩ : ∃ bytes, serialize (content event found) = .ok bytes :=
    ⟨_, serialize_eq hdistinct hdates⟩
  unfold written
  rw [hbytes]
  rfl

/-- The content of a row that is read back is what was signed. -/
theorem serialize_row : serialize (row event found).readBack.signedContent =
    .ok (written (content event found)) := serialize_content

-- that it is written is all that is said of the bytes of a content
attribute [irreducible] written

theorem sink_signs : (sink signed).crypto.Signs := by
  intro keyId data value hvalue
  refine ⟨_, rfl, congrArg Except.ok (decide_eq_true ?_)⟩
  by_contra hdata
  have hrefused : (sink signed).crypto.signer keyId data = .error "not signed" := if_neg hdata
  rw [hrefused] at hvalue
  cases hvalue

theorem sign_content (h : written (content event found) ∈ signed) :
    (sink signed).crypto.sign "default" (content event found) =
      .ok ⟨"ed25519", "default", []⟩ := by
  have hsigner : (sink signed).crypto.signer "default" (written (content event found)) = .ok [] :=
    if_pos h
  unfold AuditEventCrypto.sign
  simp only [serialize_content, hsigner, Bind.bind, Except.bind]
  rfl

/-- A row that is read back has the signature of its content. -/
theorem verify_row (h : written (content event found) ∈ signed) :
    (sink signed).crypto.verify (row event found).readBack.signedContent
      (row event found).readBack.signature = .ok true :=
  AuditEventCrypto.verify_sign sink_signs (sign_content h)

/-- What verifies is of the bytes that were signed. -/
theorem of_verified {row : ChainedCallerAuditEventRow}
    (h : (sink signed).crypto.verify row.signedContent row.signature = .ok true) :
    ∃ bytes ∈ signed, serialize row.signedContent = .ok bytes := by
  obtain ⟨_, bytes, _, hbytes, hsame⟩ := AuditEventCrypto.verify_iff.mp h
  exact ⟨bytes, of_decide_eq_true (Except.ok.inj hsame), hbytes⟩

end

/-! ## A call while no other is in a transaction -/

section Call
variable {ι : Type} {i : ι} {signed : List (List UInt8)} {callerId : JsString}
  {event event' : CallerAuditEvent} {found : Option LastChainLinkRow}
  {rest : List (AuditStep ι)}

/-- The steps of a call until it has signed. -/
def signing (i : ι) (callerId : JsString) (event : CallerAuditEvent)
    (found : Option LastChainLinkRow) : List (AuditStep ι) :=
  [⟨.connect i, .ok ()⟩, ⟨.begin i, .ok ()⟩, ⟨.lock i callerId, .ok ()⟩,
    ⟨.lastLink i callerId, .ok found⟩,
    ⟨.sign (content event found), .ok ⟨"ed25519", "default", []⟩⟩]

/-- The steps of a call that is committed. -/
def committed (i : ι) (callerId : JsString) (event : CallerAuditEvent)
    (found : Option LastChainLinkRow) : List (AuditStep ι) :=
  signing i callerId event found ++ [⟨.insertRow i (row event found), .ok ()⟩, ⟨.commit i, .ok ()⟩]

/-- The steps of a call whose row is not inserted. -/
def refused (i : ι) (callerId : JsString) (event : CallerAuditEvent)
    (found : Option LastChainLinkRow) : List (AuditStep ι) :=
  signing i callerId event found ++
    [⟨.insertRow i (row event found), .error "disk full"⟩, ⟨.rollback i, .ok ()⟩]

theorem signing_runs {r : Except JsString Unit} (h : Runs (do
      SupabaseCallerAuditSink.run (.insertRow i (row event found))
      SupabaseCallerAuditSink.run (.commit i) : AuditProgram ι Unit) rest r) :
    Runs ((sink signed).recordChained i event callerId)
      ((signing i callerId event found).drop 1 ++ rest) r := by
  have hhash : TrustRecordHasher.hash (sink signed).sha256 (content event found) =
      .ok (digest (written (content event found))) := by
    unfold TrustRecordHasher.hash
    rw [serialize_content]
    rfl
  have hnext : Runs ((sink signed).recordNext i event (found.bind LastChainLinkRow.chainHash)
      (nextPosition (found.bind LastChainLinkRow.chainPosition)))
      (⟨.sign (content event found), .ok ⟨"ed25519", "default", []⟩⟩ :: rest) r :=
    runs_perform_bind.mpr (.inr ⟨_, _, rfl, runs_bind.mpr
      (.inr ⟨_, [], rest, rfl, runs_done.mpr ⟨rfl, hhash.symm⟩, h⟩)⟩)
  exact runs_perform_bind.mpr (.inr ⟨(), _, rfl, runs_perform_bind.mpr (.inr ⟨(), _, rfl,
    runs_perform_bind.mpr (.inr ⟨found, _, rfl, hnext⟩)⟩)⟩)

theorem committed_runs (hcaller : event.callerId = some callerId) :
    Runs ((sink signed).record i event) (committed i callerId event found) (.ok ()) := by
  unfold SupabaseCallerAuditSink.record
  rw [hcaller]
  refine runs_perform_bind.mpr (.inr ⟨(), _, rfl, runs_tryCatch.mpr (.inl ⟨(), ?_, rfl⟩)⟩)
  exact signing_runs (runs_perform_bind.mpr (.inr ⟨(), _, rfl, runs_perform.mpr rfl⟩))

theorem refused_runs (hcaller : event.callerId = some callerId) :
    Runs ((sink signed).record i event) (refused i callerId event found)
      (.error "disk full") := by
  have hchained : Runs ((sink signed).recordChained i event callerId)
      ((signing i callerId event found).drop 1 ++
        [⟨.insertRow i (row event found), .error "disk full"⟩]) (.error "disk full") :=
    signing_runs (runs_perform_bind.mpr (.inl ⟨_, rfl, rfl⟩))
  unfold SupabaseCallerAuditSink.record
  rw [hcaller]
  refine runs_perform_bind.mpr (.inr ⟨(), _, rfl, runs_tryCatch.mpr
    (.inr ⟨_, _, [⟨.rollback i, .ok ()⟩], ?_, hchained, ?_⟩)⟩)
  · rfl
  · refine runs_bind.mpr (.inr ⟨(), [⟨.rollback i, .ok ()⟩], [], rfl, ?_, ?_⟩)
    · exact runs_tryCatch.mpr (.inl ⟨(), runs_perform.mpr rfl, rfl⟩)
    · exact runs_done.mpr ⟨rfl, rfl⟩

variable [DecidableEq ι] {t t' : CallerAuditEvents ι}

/-- No transaction is open. -/
structure Quiet (t : CallerAuditEvents ι) : Prop where
  unlocked : ∀ k, t.holder k = none
  idle : ∀ i, t.staged i = []

/-- The table while a caller is locked. -/
abbrev locked (t : CallerAuditEvents ι) (i : ι) (callerId : JsString) : CallerAuditEvents ι :=
  t.lock i ((sink []).hashtext callerId)

theorem signing_along (hquiet : Quiet t) (hnul : (0 : UInt16) ∉ callerId.units)
    (hpaired : JsString.paired callerId.units = true)
    (hfound : found = (rowsOf callerId t.rows).getLast?.map CallerAuditEventRow.lastLink)
    (hsigned : written (content event found) ∈ signed)
    (hrest : Along (Serves (sink signed)) (locked t i callerId) rest t') :
    Along (Serves (sink signed)) t (signing i callerId event found ++ rest) t' := by
  have hsame : callerId.toWellFormed = callerId := JsString.toWellFormed_of_paired hpaired
  have hlock : Serves (sink signed) t ⟨.lock i callerId, .ok ()⟩ (locked t i callerId) := by
    dsimp only [Serves, sent]
    rw [if_pos hnul, hsame]
    exact ⟨.inl (hquiet.unlocked _), rfl⟩
  have hlast : Serves (sink signed) (locked t i callerId) ⟨.lastLink i callerId, .ok found⟩
      (locked t i callerId) := by
    have hrows : (locked t i callerId).rows ++ (locked t i callerId).staged i = t.rows := by
      rw [show (locked t i callerId).staged i = [] from hquiet.idle i, List.append_nil]
      rfl
    dsimp only [Serves, sent]
    rw [if_pos hnul, hsame]
    refine ⟨?_, rfl⟩
    rw [hrows]
    exact hfound
  have hsign : Serves (sink signed) (locked t i callerId)
      ⟨.sign (content event found), .ok ⟨"ed25519", "default", []⟩⟩ (locked t i callerId) :=
    ⟨⟨"default", sign_content hsigned⟩, rfl⟩
  have hconnect : Serves (sink signed) t ⟨.connect i, .ok ()⟩ t := rfl
  have hbegin : Serves (sink signed) t ⟨.begin i, .ok ()⟩ t := rfl
  exact .cons hconnect (.cons hbegin (.cons hlock (.cons hlast (.cons hsign hrest))))

/-- The table after a call that was committed. -/
abbrev after (t : CallerAuditEvents ι) (i : ι) (callerId : JsString)
    (row : CallerAuditEventRow) : CallerAuditEvents ι :=
  ((locked t i callerId).insert i row).commit i

theorem committed_along (hquiet : Quiet t) (hnul : (0 : UInt16) ∉ callerId.units)
    (hpaired : JsString.paired callerId.units = true)
    (hfound : found = (rowsOf callerId t.rows).getLast?.map CallerAuditEventRow.lastLink)
    (hsigned : written (content event found) ∈ signed)
    (hcolumns : (sink signed).columns event = some event') :
    Along (Serves (sink signed)) t (committed i callerId event found)
      (after t i callerId { row event found with event := event' }) := by
  have hcolumns' : (sink signed).columns (row event found).event = some event' := hcolumns
  have hinsert : Serves (sink signed) (locked t i callerId) ⟨.insertRow i (row event found), .ok ()⟩
      ((locked t i callerId).insert i { row event found with event := event' }) := by
    dsimp only [Serves, sent]
    rw [hcolumns']
    rfl
  exact signing_along hquiet hnul hpaired hfound hsigned (.cons hinsert (.cons rfl (.nil _)))

theorem refused_along (hquiet : Quiet t) (hnul : (0 : UInt16) ∉ callerId.units)
    (hpaired : JsString.paired callerId.units = true)
    (hfound : found = (rowsOf callerId t.rows).getLast?.map CallerAuditEventRow.lastLink)
    (hsigned : written (content event found) ∈ signed)
    (hholds : (sink signed).Holds event) :
    Along (Serves (sink signed)) t (refused i callerId event found)
      ((locked t i callerId).rollback i) := by
  refine signing_along hquiet hnul hpaired hfound hsigned (.cons ?_ (.cons rfl (.nil _)))
  have hheld : (sink signed).Holds (row event found).event := hholds
  have hsent := sent_insertRow (i := i) hheld (.error "disk full")
  unfold Serves
  rw [hsent]
  exact .inl rfl

theorem rows_after (hquiet : Quiet t) (row : CallerAuditEventRow) :
    (after t i callerId row).rows = t.rows ++ [(t.nextId, row)] := by
  show t.rows ++ (Function.update t.staged i (t.staged i ++ [(t.nextId, row)])) i = _
  rw [Function.update_self, hquiet.idle, List.nil_append]

theorem quiet_after (hquiet : Quiet t) (row : CallerAuditEventRow) :
    Quiet (after t i callerId row) := by
  constructor
  · intro k
    show (if Function.update t.holder _ (some i) k = some i then none
      else Function.update t.holder _ (some i) k) = none
    by_cases hk : k = (sink []).hashtext callerId
    · rw [hk, Function.update_self, if_pos rfl]
    · rw [Function.update_of_ne hk, hquiet.unlocked, if_neg (Option.some_ne_none i).symm]
  · intro j
    show Function.update (Function.update t.staged i _) i [] j = []
    by_cases hj : j = i
    · rw [hj, Function.update_self]
    · rw [Function.update_of_ne hj, Function.update_of_ne hj, hquiet.idle]

variable {P Q : Pool (AuditCall ι) AuditCall.Answer JsString (fun _ : ι => Unit)
  (CallerAuditEvents ι)} {log : List (ι × AuditStep ι)}

/-- A call that is made while no transaction is open commits its row. -/
theorem commits (callerId : JsString) (h : Exec (Serves (sink signed)) P log Q)
    (hthread : Q.threads i = (sink signed).record i event)
    (hcaller : event.callerId = some callerId) (hquiet : Quiet Q.state)
    (hnul : (0 : UInt16) ∉ callerId.units) (hpaired : JsString.paired callerId.units = true)
    (hfound : found = (rowsOf callerId Q.state.rows).getLast?.map CallerAuditEventRow.lastLink)
    (hsigned : written (content event found) ∈ signed)
    (hcolumns : (sink signed).columns event = some event') :
    ∃ Q', Exec (Serves (sink signed)) P
        (log ++ (committed i callerId event found).map (Prod.mk i)) Q' ∧
      Quiet Q'.state ∧ Q'.threads i = .done (.ok ()) ∧
      Q'.state.rows =
        Q.state.rows ++ [(Q.state.nextId, { row event found with event := event' })] ∧
      Q'.state.nextId = Q.state.nextId + 1 ∧ ∀ j, j ≠ i → Q'.threads j = Q.threads j := by
  have hruns : Runs (Q.threads i) (committed i callerId event found) (.ok ()) := by
    rw [hthread]
    exact committed_runs hcaller
  refine ⟨_, h.advance_thread hruns
    (committed_along hquiet hnul hpaired hfound hsigned hcolumns), quiet_after hquiet _,
    Pool.advance_self .., rows_after hquiet _, rfl, fun j hj => Pool.advance_of_ne _ hj _ _⟩

end Call

/-- An empty table. -/
def start {ι : Type} : CallerAuditEvents ι := ⟨[], 0, fun _ => none, fun _ => []⟩

theorem quiet_start {ι : Type} : Quiet (start : CallerAuditEvents ι) := ⟨fun _ => rfl, fun _ => rfl⟩

theorem legacy_start {ι : Type} {signed : List (List UInt8)} :
    Legacy (sink signed) (start : CallerAuditEvents ι) where
  increasing := .nil
  before _ h := absurd h List.not_mem_nil
  signed _ h := absurd h List.not_mem_nil
  unchained _ h := absurd h List.not_mem_nil
  unlocked _ := rfl
  idle _ := rfl

/-! ## Three events of two callers -/

/-- The calls of the sample. -/
inductive Call where
  | first
  | other
  | second
  deriving DecidableEq

/-- Their events. -/
def events : Call → CallerAuditEvent
  | .first => event "caller-1" none
  | .other => event "caller-2" none
  | .second => event "caller-1" (some "transaction-1")

/-- The row of the first. -/
def firstRow : CallerAuditEventRow := row (events .first) none

/-- The row of the other caller. -/
def otherRow : CallerAuditEventRow := row (events .other) none

/-- The row of the second, after the first. -/
def secondRow : CallerAuditEventRow := row (events .second) (some firstRow.lastLink)

/-- What the sink signs. -/
def signed : List (List UInt8) :=
  [written (content (events .first) none), written (content (events .other) none),
    written (content (events .second) (some firstRow.lastLink))]

/-- The pool. -/
abbrev pool : Pool (AuditCall Call) AuditCall.Answer JsString (fun _ : Call => Unit)
    (CallerAuditEvents Call) := recordPool (sink signed) events start

/-- The three, one after another. -/
def log : List (Call × AuditStep Call) :=
  (committed .first "caller-1" (events .first) none).map (Prod.mk .first) ++
    (committed .other "caller-2" (events .other) none).map (Prod.mk .other) ++
    (committed .second "caller-1" (events .second) (some firstRow.lastLink)).map (Prod.mk .second)

theorem events_held : ∀ i, (sink signed).Holds (events i) := by
  intro i
  refine SupabaseCallerAuditSink.holds_iff.mpr ⟨rfl, ?_⟩
  cases i with
  | first => decide
  | other => decide
  | second => decide

/-- Where a caller has no row there is none to read. -/
theorem rowsOf_eq_nil {callerId : JsString} {rows : List (Nat × CallerAuditEventRow)}
    (h : (rows.filter fun row => row.2.event.callerId = some callerId) = []) :
    rowsOf callerId rows = [] := by
  unfold rowsOf
  rw [h, List.mergeSort_nil]
  rfl

/-- Where a caller has one row it is the one to read. -/
theorem rowsOf_eq_singleton {callerId : JsString} {rows : List (Nat × CallerAuditEventRow)}
    (found : Nat × CallerAuditEventRow)
    (h : (rows.filter fun row => row.2.event.callerId = some callerId) = [found]) :
    rowsOf callerId rows = [found.2] := by
  unfold rowsOf
  rw [h, List.mergeSort_singleton]
  rfl

theorem three_run : ∃ Q, Exec (Serves (sink signed)) pool log Q ∧
    Q.state.rows = [(0, firstRow), (1, otherRow), (2, secondRow)] := by
  have hfirst : written (content (events .first) none) ∈ signed := by simp [signed]
  have hother : written (content (events .other) none) ∈ signed := by simp [signed]
  have hsecond : written (content (events .second) (some firstRow.lastLink)) ∈ signed := by
    simp [signed]
  have hfound₁ : none =
      (rowsOf "caller-1" pool.state.rows).getLast?.map CallerAuditEventRow.lastLink := by
    rw [rowsOf_eq_nil rfl]
    rfl
  have hthread : ∀ i, pool.threads i = (sink signed).record i (events i) := fun _ => rfl
  obtain ⟨Q₁, hrun₁, hquiet₁, -, hrows₁, hnext₁, hthreads₁⟩ :=
    commits (i := .first) "caller-1" (Exec.refl pool) (hthread .first) rfl quiet_start
      (by decide) (by decide) hfound₁ hfirst (events_held .first)
  have hrows₁ : Q₁.state.rows = [(0, firstRow)] := hrows₁
  have hfound₂ : none =
      (rowsOf "caller-2" Q₁.state.rows).getLast?.map CallerAuditEventRow.lastLink := by
    rw [hrows₁, rowsOf_eq_nil rfl]
    rfl
  obtain ⟨Q₂, hrun₂, hquiet₂, -, hrows₂, hnext₂, hthreads₂⟩ :=
    commits (i := .other) "caller-2" hrun₁
      ((hthreads₁ .other (by decide)).trans (hthread .other)) rfl hquiet₁ (by decide) (by decide)
      hfound₂ hother (events_held .other)
  have hrows₂ : Q₂.state.rows = [(0, firstRow), (1, otherRow)] := by
    rw [hrows₂, hrows₁, hnext₁]
    rfl
  have hfound₃ : some firstRow.lastLink =
      (rowsOf "caller-1" Q₂.state.rows).getLast?.map CallerAuditEventRow.lastLink := by
    rw [hrows₂, rowsOf_eq_singleton (0, firstRow) rfl]
    rfl
  obtain ⟨Q₃, hrun₃, -, -, hrows₃, -, -⟩ :=
    commits (i := .second) "caller-1" hrun₂
      ((hthreads₂ .second (by decide)).trans ((hthreads₁ .second (by decide)).trans
        (hthread .second))) rfl hquiet₂ (by decide) (by decide) hfound₃ hsecond
      (events_held .second)
  refine ⟨Q₃, hrun₃, ?_⟩
  rw [hrows₃, hrows₂, hnext₂, hnext₁]
  rfl

theorem signed_cases {bytes : List UInt8} (h : bytes ∈ signed) :
    bytes = written (content (events .first) none) ∨
      bytes = written (content (events .other) none) ∨
      bytes = written (content (events .second) (some firstRow.lastLink)) := by
  unfold signed at h
  simpa only [List.mem_cons, List.not_mem_nil, or_false] using h

/-- What the sink signs, it has signed. -/
theorem mem_signedContents {bytes : List UInt8} (h : bytes ∈ signed) :
    bytes ∈ signedContents log := by
  rcases signed_cases h with rfl | rfl | rfl
  · refine ⟨.first, _, ⟨"ed25519", "default", []⟩, ?_, serialize_content⟩
    simp [log, committed, signing]
  · refine ⟨.other, _, ⟨"ed25519", "default", []⟩, ?_, serialize_content⟩
    simp [log, committed, signing]
  · refine ⟨.second, _, ⟨"ed25519", "default", []⟩, ?_, serialize_content⟩
    simp [log, committed, signing]

end AuditSample

open AuditSample in
/-- Three events of two callers are recorded and accepted, and nothing else is. -/
theorem caller_audited : ∃ log Q,
    Exec (Serves (sink signed)) (recordPool (sink signed) events start) log Q ∧
    recorded "caller-1" Q.state = [firstRow.readBack, secondRow.readBack] ∧
    recorded "caller-2" Q.state = [otherRow.readBack] ∧
    (∀ callerId, (sink signed).Accepts (stored callerId Q.state)) ∧
    (∀ rows, (sink signed).Accepts rows → (∀ row ∈ rows, row.isChained = true) →
      ∃ callerId, contents rows <+: contents (recorded callerId Q.state)) ∧
    ∀ rows, (sink signed).Accepts rows → (∀ row ∈ rows, row.isChained = true) →
      ∃ callerId, contents rows <+: contents (recorded callerId Q.state) ∨
        ∃ before row, rows = before ++ [row] ∧
          contents before <+: contents (recorded callerId Q.state) := by
  obtain ⟨Q, hrun, hrows⟩ := three_run
  have hordered := (recorded_of_exec sink_signs legacy_start events events_held hrun).kept.ordered
  obtain ⟨hstored, hbegins, hlast⟩ :=
    caller_audit_trail sink_signs legacy_start events events_held hrun
  have hfirst : recorded "caller-1" Q.state = [firstRow.readBack, secondRow.readBack] := by
    rw [recorded, stored_eq hordered, history, hrows]
    rfl
  have hother : recorded "caller-2" Q.state = [otherRow.readBack] := by
    rw [recorded, stored_eq hordered, history, hrows]
    rfl
  refine ⟨log, Q, hrun, hfirst, hother, fun callerId => (hstored callerId).2.2,
    hbegins ?_ digest_injective.injOn, hlast ?_ digest_injective.injOn⟩
  · rintro r - hverified
    obtain ⟨bytes, hbytes, hserialized⟩ := of_verified hverified
    refine ⟨bytes, ?_, hserialized⟩
    rcases signed_cases hbytes with rfl | rfl | rfl
    · exact ⟨"caller-1", firstRow.readBack, by rw [hfirst]; simp, serialize_row⟩
    · exact ⟨"caller-2", otherRow.readBack, by rw [hother]; simp, serialize_row⟩
    · exact ⟨"caller-1", secondRow.readBack, by rw [hfirst]; simp, serialize_row⟩
  · rintro r - hverified
    obtain ⟨bytes, hbytes, hserialized⟩ := of_verified hverified
    exact ⟨bytes, mem_signedContents hbytes, hserialized⟩

namespace AuditSample

/-- An event whose identifier is a lone surrogate. -/
def surrogate : CallerAuditEvent := event "caller-1" (some ⟨[0xD800]⟩)

/-- The event, as the columns give it back. -/
def replaced : CallerAuditEvent := event "caller-1" (some ⟨[0xFFFD]⟩)

/-- A sink that signs what is signed of it. -/
abbrev surrogateSink : SupabaseCallerAuditSink Unit := sink [written (content surrogate none)]

/-- A sink that signs what is signed of the first event. -/
abbrev firstSink : SupabaseCallerAuditSink Unit := sink [written (content (events .first) none)]

/-- What the columns give back is not what was signed. -/
theorem written_replaced :
    serialize (content replaced none) ≠ .ok (written (content surrogate none)) := by
  intro h
  have hdistinct : ∀ event : CallerAuditEvent, (content event none).distinct = true :=
    fun event => chainedContent_distinct event.toAuditEvent.distinct
  have hagree := (serialize_agree (hdistinct replaced) (hdistinct surrogate) (obj_written _)
    (obj_written _) h serialize_content).get (hdistinct replaced) (hdistinct surrogate)
      "businessTransactionId"
  have hreplaced : (content replaced none).get "businessTransactionId" = .str ⟨[0xFFFD]⟩ := rfl
  have hsurrogate : (content surrogate none).get "businessTransactionId" = .str ⟨[0xD800]⟩ := rfl
  rw [hreplaced, hsurrogate] at hagree
  cases Option.some.inj hagree

theorem found_start : none =
    (rowsOf "caller-1" (start : CallerAuditEvents Unit).rows).getLast?.map
      CallerAuditEventRow.lastLink := by
  rw [rowsOf_eq_nil rfl]
  rfl

/-- The row of the lone surrogate is stored, and refused. -/
theorem surrogate_run : ∃ log Q, Exec (Serves surrogateSink)
      (recordPool surrogateSink (fun _ : Unit => surrogate) start) log Q ∧
    Q.threads () = .done (.ok ()) ∧ ¬ surrogateSink.Accepts (stored "caller-1" Q.state) := by
  have hcolumns : surrogateSink.columns surrogate = some replaced := by decide
  have hthread : (recordPool surrogateSink (fun _ : Unit => surrogate) start).threads () =
      surrogateSink.record () surrogate := rfl
  obtain ⟨Q, hrun, -, hdone, hrows, -, -⟩ := commits "caller-1" (Exec.refl _) hthread rfl
    quiet_start
    (by decide) (by decide) found_start (List.mem_singleton_self _) hcolumns
  refine ⟨_, Q, hrun, hdone, fun haccepts => ?_⟩
  have hrows : Q.state.rows = [(0, { row surrogate none with event := replaced })] := hrows
  have hstored : stored "caller-1" Q.state = [CallerAuditEventRow.readBack
      { row surrogate none with event := replaced }] := by
    unfold stored
    rw [hrows, rowsOf_eq_singleton (0, { row surrogate none with event := replaced }) rfl]
    rfl
  rw [hstored] at haccepts
  obtain ⟨hchecked, -⟩ := accepts_iff.mp haccepts
  obtain ⟨bytes, hbytes, hserialized⟩ := of_verified hchecked.verified
  rw [List.mem_singleton.mp hbytes] at hserialized
  exact written_replaced hserialized

/-- The row that was signed and not inserted is accepted. -/
theorem refused_run : ∃ log Q, Exec (Serves firstSink)
      (recordPool firstSink (fun _ : Unit => events .first) start) log Q ∧
    firstSink.Unforgeable (signedContents log) ∧ Function.Injective firstSink.sha256 ∧
    firstSink.Accepts [firstRow.readBack] ∧
    ∀ callerId, ¬ contents [firstRow.readBack] <+: contents (recorded callerId Q.state) := by
  have hsigned : written (content (events .first) none) ∈
    [written (content (events .first) none)] := List.mem_singleton_self _
  have hholds : firstSink.Holds (events .first) :=
    SupabaseCallerAuditSink.holds_iff.mpr ⟨rfl, by decide⟩
  have hcaller : (events .first).callerId = some "caller-1" := rfl
  have hruns : Runs ((recordPool firstSink (fun _ : Unit => events .first) start).threads ())
      (refused () "caller-1" (events .first) none) (.error "disk full") :=
    refused_runs hcaller
  have hrun := (Exec.refl _).advance_thread hruns
    (refused_along quiet_start (by decide) (by decide) found_start hsigned hholds)
  refine ⟨_, _, hrun, ?_, digest_injective, accepts_iff.mpr ⟨⟨?_, ?_, fun _ => rfl⟩, trivial⟩, ?_⟩
  -- the call signed these bytes before its insertion failed
  · rintro r - hverified
    obtain ⟨bytes, hbytes, hserialized⟩ := of_verified hverified
    rw [List.mem_singleton.mp hbytes] at hserialized
    refine ⟨_, ⟨(), _, ⟨"ed25519", "default", []⟩, ?_, serialize_content⟩, hserialized⟩
    simp [refused, signing]
  · exact verify_row hsigned
  · rintro - _ ⟨⟩
    show (serialize firstRow.readBack.signedContent).map digest = _
    rw [firstRow, serialize_row]
    rfl
  · intro callerId hbegins
    have hnone : recorded callerId ((locked (start : CallerAuditEvents Unit) () "caller-1").rollback
        ()) = [] := by
      unfold recorded stored
      rw [rowsOf_eq_nil (by rfl)]
      rfl
    have hprefix : contents [firstRow.readBack] <+: contents (recorded callerId
        ((locked (start : CallerAuditEvents Unit) () "caller-1").rollback ())) := hbegins
    rw [hnone] at hprefix
    cases List.prefix_nil.mp hprefix

end AuditSample

open AuditSample in
/-- A row of an identifier with a lone surrogate is refused, as it is read back; and a row whose
call did not commit is accepted, where no one but the sink signs and no two contents have one
hash. -/
theorem audit_row_refused :
    (∃ log Q, Exec (Serves surrogateSink)
        (recordPool surrogateSink (fun _ : Unit => surrogate) start) log Q ∧
      Q.threads () = .done (.ok ()) ∧ ¬ surrogateSink.Accepts (stored "caller-1" Q.state)) ∧
    ∃ log Q, Exec (Serves firstSink)
        (recordPool firstSink (fun _ : Unit => events .first) start) log Q ∧
      firstSink.Unforgeable (signedContents log) ∧ Function.Injective firstSink.sha256 ∧
      firstSink.Accepts [firstRow.readBack] ∧
      ∀ callerId, ¬ contents [firstRow.readBack] <+: contents (recorded callerId Q.state) :=
  ⟨surrogate_run, refused_run⟩

end Parmana.Audit

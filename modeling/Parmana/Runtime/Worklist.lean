import Parmana.Interaction.Concurrent
import Parmana.Runtime.Release

/-! # The worklist of released actions

Between the release of an action and the storing of its record many writes can
fail, and the repair of a record can fail again.  What makes up for it is the
worklist: an action is released only under a stored intent, and an intent leaves
the list only when a record of its transaction is stored or a person resolved it.

The stores are shared by any number of runs of the runtime, of the finalizer and of
the resolution by hand, interleaved at their calls, and a write that fails may have
taken effect.  Each thread meets three obligations at its calls (`Stores.Allows`),
which no other thread can take back; the stores then keep `Stores.Sound`.
-/
namespace Parmana
open Js Interaction Interaction.Program RuntimeProgram

/-! ## The shared stores -/

/-- The repositories the runtime, the finalizer and a person share. -/
structure Stores where
  intents : IntentRepository
  trustRecords : TrustRecordRepository
  /-- The intents the signer has signed so far. -/
  signed : List ExecutionIntent

namespace Stores

/-- Nothing is stored. -/
def empty : Stores := ⟨[], [], []⟩

/-- The record of a transaction is stored. -/
def Recorded (s : Stores) (id : JsString) : Prop :=
  (s.trustRecords.findByTransactionId id).isSome

/-- The intent of a transaction is stored. -/
def Intended (s : Stores) (id : JsString) : Prop := (s.intents.findByTransactionId id).isSome

/-- Writes of the pipeline amend stored records in place. -/
def Amends (s s' : Stores) : Prop :=
  s'.intents = s.intents ∧ s'.signed = s.signed ∧ ∀ id, s'.Recorded id ↔ s.Recorded id

/-- The stores after a write that takes effect; other calls leave them alone. -/
def write (s : Stores) : RuntimeCall → Except Failure Stores
  | .createIntent intent => (s.intents.create intent).map (fun intents => { s with intents })
  | .markReleased id context releasedAt =>
    .ok { s with intents := s.intents.markReleased id context releasedAt }
  | .markErrored id reason => .ok { s with intents := s.intents.markErrored id reason }
  | .markFinalized id trustRecordId mode finalizedAt =>
    .ok { s with intents := s.intents.markFinalized id trustRecordId mode finalizedAt }
  | .markResolved id input => .ok { s with intents := (s.intents.markResolved id input).2 }
  | .createTrustRecord record => .ok { s with trustRecords := s.trustRecords.create record }
  | _ => .ok s

/-- The stores after an answer of the signer of intents. -/
def signs (s : Stores) : (call : RuntimeCall) → call.Answer → Stores
  | .seal (.intent draft), sealing =>
    { s with signed := { draft with sealing := sealing } :: s.signed }
  | _, _ => s

/-- What a read finds; any other answer is the collaborator's own. -/
def Finds (s : Stores) : (call : RuntimeCall) → call.Answer → Prop
  | .findIntent id, found => found = s.intents.findByTransactionId id
  | .findTrustRecord id, found => found = s.trustRecords.findByTransactionId id
  | .markResolved id input, moved => moved = (s.intents.markResolved id input).1
  | _, _ => True

/-- The stores answer a call: a write that fails may have taken effect. -/
def Serves (s : Stores) (e : RuntimeEvent) (s' : Stores) : Prop :=
  if e.1.isRelease then s.Amends s'
  else match e.2 with
    | .ok a => (s.signs e.1 a).write e.1 = .ok s' ∧ s.Finds e.1 a
    | .error _ => s' = s ∨ s.write e.1 = .ok s'

/-! ## Obligations and invariant -/

/-- What a thread owes at a call: an intent that is stored is signed, an action is
released under a stored intent, a context is saved under its own transaction, and an
intent is finalized once a record is stored. -/
def Allows (s : Stores) : RuntimeCall → Prop
  | .createIntent intent => intent ∈ s.signed
  | .executePipeline context => s.Intended context.businessTransactionId
  | .markReleased id context _ => context.businessTransactionId = id
  | .markFinalized id _ _ _ => s.Recorded id
  | _ => True

/-- The stores keep what they have. -/
structure Extends (s s' : Stores) : Prop where
  intended : ∀ id, s.Intended id → s'.Intended id
  recorded : ∀ id, s.Recorded id → s'.Recorded id
  signed : ∀ intent ∈ s.signed, intent ∈ s'.signed

/-- **What holds of the stores after the calls in `log`.** -/
structure Sound {ι : Type} (log : List (ι × RuntimeEvent)) (s : Stores) : Prop where
  /-- An action was released only under an intent that is stored. -/
  intended : ∀ x ∈ log, ∀ context, x.2.1 = .executePipeline context →
    s.Intended context.businessTransactionId
  /-- Stored intents are signed. -/
  signed : ∀ id stored, s.intents.findByTransactionId id = some stored → stored.intent ∈ s.signed
  /-- What is signed was sealed by the signer. -/
  sealed : ∀ intent ∈ s.signed, ∃ x ∈ log,
    x.2 = ⟨.seal (.intent intent.toExecutionIntentDraft), .ok intent.sealing⟩
  /-- A finalized intent has its record. -/
  finalized : ∀ id stored, s.intents.findByTransactionId id = some stored →
    stored.status.state = .finalized → s.Recorded id
  /-- A resolved intent was resolved by hand. -/
  resolved : ∀ id stored, s.intents.findByTransactionId id = some stored →
    stored.status.state = .resolved → ∃ x ∈ log, ∃ input, x.2.1 = .markResolved id input
  /-- A saved context is of the transaction it is saved under. -/
  saved : ∀ id stored context, s.intents.findByTransactionId id = some stored →
    stored.releasedContext = some context → context.businessTransactionId = id

/-! ## What a call does to the stores -/

/-- A call that moves the intent of a transaction. -/
inductive Moves : RuntimeCall → JsString → (StoredExecutionIntent → StoredExecutionIntent) → Prop
  | released (id context releasedAt) :
    Moves (.markReleased id context releasedAt) id (.release context releasedAt)
  | errored (id reason) : Moves (.markErrored id reason) id (.failWith reason)
  | finalized (id trustRecordId mode finalizedAt) :
    Moves (.markFinalized id trustRecordId mode finalizedAt) id
      (.finalize trustRecordId mode finalizedAt)
  | resolved (id input) : Moves (.markResolved id input) id (.resolve input)

section Effects
variable {s s' : Stores} {e : RuntimeEvent} {call : RuntimeCall} {id : JsString}
  {move : StoredExecutionIntent → StoredExecutionIntent} {stored : StoredExecutionIntent}

theorem Moves.keeps_intent (h : Moves call id move) (stored : StoredExecutionIntent) :
    (move stored).intent = stored.intent := by
  cases h with
  | released => unfold StoredExecutionIntent.release; split <;> rfl
  | errored => unfold StoredExecutionIntent.failWith; split <;> rfl
  | finalized => unfold StoredExecutionIntent.finalize; split <;> rfl
  | resolved => unfold StoredExecutionIntent.resolve; split <;> rfl

/-- Only `markFinalized` makes an intent finalized. -/
theorem Moves.finalized_cases (h : Moves call id move)
    (hstate : (move stored).status.state = .finalized) :
    stored.status.state = .finalized ∨
      ∃ trustRecordId mode finalizedAt, call = .markFinalized id trustRecordId mode finalizedAt := by
  cases h with
  | released =>
    unfold StoredExecutionIntent.release at hstate
    split at hstate
    · exact .inl hstate
    · exact absurd hstate (nomatch ·)
  | errored =>
    unfold StoredExecutionIntent.failWith at hstate
    split at hstate
    · exact .inl hstate
    · exact absurd hstate (nomatch ·)
  | finalized => exact .inr ⟨_, _, _, rfl⟩
  | resolved =>
    unfold StoredExecutionIntent.resolve at hstate
    split at hstate
    · exact absurd hstate (nomatch ·)
    · exact .inl hstate

/-- Only `markResolved` makes an intent resolved. -/
theorem Moves.resolved_cases (h : Moves call id move)
    (hstate : (move stored).status.state = .resolved) :
    stored.status.state = .resolved ∨ ∃ input, call = .markResolved id input := by
  cases h with
  | released =>
    unfold StoredExecutionIntent.release at hstate
    split at hstate
    · exact .inl hstate
    · exact absurd hstate (nomatch ·)
  | errored =>
    unfold StoredExecutionIntent.failWith at hstate
    split at hstate
    · exact .inl hstate
    · exact absurd hstate (nomatch ·)
  | finalized =>
    unfold StoredExecutionIntent.finalize at hstate
    split at hstate
    · exact .inl hstate
    · exact absurd hstate (nomatch ·)
  | resolved => exact .inr ⟨_, rfl⟩

/-- Only `markReleased` saves a context. -/
theorem Moves.saved_cases {context : RuntimeContext} (h : Moves call id move)
    (hsaved : (move stored).releasedContext = some context) :
    stored.releasedContext = some context ∨
      ∃ releasedAt, call = .markReleased id context releasedAt := by
  cases h with
  | released id context' releasedAt =>
    unfold StoredExecutionIntent.release at hsaved
    split at hsaved
    · exact .inl hsaved
    · cases hsaved
      exact .inr ⟨releasedAt, rfl⟩
  | errored =>
    unfold StoredExecutionIntent.failWith at hsaved
    split at hsaved <;> exact .inl hsaved
  | finalized =>
    unfold StoredExecutionIntent.finalize at hsaved
    split at hsaved
    · exact .inl hsaved
    · exact absurd hsaved (nomatch ·)
  | resolved =>
    unfold StoredExecutionIntent.resolve at hsaved
    split at hsaved
    · exact absurd hsaved (nomatch ·)
    · exact .inl hsaved

theorem signs_cases (s : Stores) (call : RuntimeCall) (a : call.Answer) : s.signs call a = s ∨
    ∃ draft sealing, (⟨call, .ok a⟩ : RuntimeEvent) = ⟨.seal (.intent draft), .ok sealing⟩ ∧
      s.signs call a = { s with signed := { draft with sealing := sealing } :: s.signed } := by
  unfold signs
  split
  · exact .inr ⟨_, _, rfl, rfl⟩
  · exact .inl rfl

/-- What a served call can do: the pipeline amends, the signer signs an intent, and
any other call leaves the stores, creates an intent, moves one, or stores a record. -/
theorem Serves.cases (h : s.Serves e s') :
    (e.1.isRelease ∧ s.Amends s') ∨ s' = s ∨
    (∃ draft sealing, e = ⟨.seal (.intent draft), .ok sealing⟩ ∧
      s' = { s with signed := { draft with sealing := sealing } :: s.signed }) ∨
    (∃ intent intents, e.1 = .createIntent intent ∧ s.intents.create intent = .ok intents ∧
      s' = { s with intents }) ∨
    (∃ id move, Moves e.1 id move ∧ s' = { s with intents := s.intents.update id move }) ∨
    (∃ record, e.1 = .createTrustRecord record ∧
      s' = { s with trustRecords := s.trustRecords.create record }) := by
  unfold Serves at h
  split at h
  · rename_i hrelease
    exact .inl ⟨hrelease, h⟩
  have hwrite : s' = s ∨ s.write e.1 = .ok s' ∨
      ∃ draft sealing, e = ⟨.seal (.intent draft), .ok sealing⟩ ∧
        s' = { s with signed := { draft with sealing := sealing } :: s.signed } := by
    rcases e with ⟨call, _ | a⟩
    · exact h.imp_right .inl
    · obtain ⟨hwrite, -⟩ := h
      rcases s.signs_cases call a with hsigns | ⟨draft, sealing, hcall, hsigns⟩
      · exact .inr (.inl (hsigns ▸ hwrite))
      · cases hcall
        cases hwrite
        exact .inr (.inr ⟨draft, sealing, rfl, hsigns⟩)
  rcases hwrite with rfl | hwrite | hsign
  · exact .inr (.inl rfl)
  · unfold write at hwrite
    split at hwrite
    · rename_i intent hcall
      rcases hcreate : s.intents.create intent with failure | intents
      · rw [hcreate] at hwrite
        cases hwrite
      · rw [hcreate] at hwrite
        cases hwrite
        exact .inr (.inr (.inr (.inl ⟨intent, intents, hcall, hcreate, rfl⟩)))
    · rename_i hcall
      cases hwrite
      exact .inr (.inr (.inr (.inr (.inl ⟨_, _, hcall ▸ .released .., rfl⟩))))
    · rename_i hcall
      cases hwrite
      exact .inr (.inr (.inr (.inr (.inl ⟨_, _, hcall ▸ .errored .., rfl⟩))))
    · rename_i hcall
      cases hwrite
      exact .inr (.inr (.inr (.inr (.inl ⟨_, _, hcall ▸ .finalized .., rfl⟩))))
    · rename_i hcall
      cases hwrite
      exact .inr (.inr (.inr (.inr (.inl ⟨_, _, hcall ▸ .resolved .., rfl⟩))))
    · rename_i record hcall
      cases hwrite
      exact .inr (.inr (.inr (.inr (.inr ⟨record, hcall, rfl⟩))))
    · cases hwrite
      exact .inr (.inl rfl)
  · exact .inr (.inr (.inl hsign))

/-- What is stored under an identifier after a move. -/
theorem Moves.find_update (h : Moves call id move) {intents : IntentRepository} (id' : JsString) :
    (intents.update id move).findByTransactionId id' =
      if id' = id then (intents.findByTransactionId id').map move
      else intents.findByTransactionId id' :=
  IntentRepository.findByTransactionId_update h.keeps_intent

/-- The stores lose nothing. -/
theorem Serves.extends (h : s.Serves e s') : s.Extends s' := by
  rcases h.cases with ⟨-, hintents, hsigned, hrecords⟩ | rfl | ⟨draft, sealing, -, rfl⟩ |
    ⟨intent, intents, -, hcreate, rfl⟩ | ⟨id, move, hmove, rfl⟩ | ⟨record, -, rfl⟩
  · refine ⟨fun id hid => ?_, fun id hid => (hrecords id).mpr hid, fun _ hmem => hsigned ▸ hmem⟩
    unfold Intended
    rw [hintents]
    exact hid
  · exact ⟨fun _ h => h, fun _ h => h, fun _ h => h⟩
  · exact ⟨fun _ h => h, fun _ h => h, fun _ h => List.mem_cons_of_mem _ h⟩
  · refine ⟨fun id hid => ?_, fun _ h => h, fun _ h => h⟩
    unfold Intended at hid ⊢
    dsimp only
    rw [(IntentRepository.create_ok hcreate).2 id]
    split
    · rfl
    · exact hid
  · refine ⟨fun id' hid => ?_, fun _ h => h, fun _ h => h⟩
    unfold Intended at hid ⊢
    dsimp only
    rw [hmove.find_update]
    split
    · rwa [Option.isSome_map]
    · exact hid
  · refine ⟨fun _ h => h, fun id hid => ?_, fun _ h => h⟩
    unfold Recorded at hid ⊢
    dsimp only
    rw [TrustRecordRepository.findByTransactionId_create]
    split
    · rfl
    · exact hid

/-- Where an intent that is stored after a call comes from: it was there, it was
created, or it was moved. -/
theorem Serves.origin (h : s.Serves e s')
    (hfind : s'.intents.findByTransactionId id = some stored) :
    s.intents.findByTransactionId id = some stored ∨
    (e.1 = .createIntent stored.intent ∧ stored.status.state = .prepared ∧
      stored.releasedContext = none) ∨
    (∃ before move, Moves e.1 id move ∧ s.intents.findByTransactionId id = some before ∧
      stored = move before) := by
  rcases h.cases with ⟨-, hintents, -⟩ | rfl | ⟨draft, sealing, -, rfl⟩ |
    ⟨intent, intents, hcall, hcreate, rfl⟩ | ⟨id', move, hmove, rfl⟩ | ⟨record, -, rfl⟩
  · rw [hintents] at hfind
    exact .inl hfind
  · exact .inl hfind
  · exact .inl hfind
  · rw [(IntentRepository.create_ok hcreate).2 id] at hfind
    split at hfind
    · cases hfind
      exact .inr (.inl ⟨hcall, rfl, rfl⟩)
    · exact .inl hfind
  · rw [hmove.find_update] at hfind
    split at hfind
    · rename_i hid
      subst hid
      obtain ⟨before, hbefore, rfl⟩ := Option.map_eq_some_iff.mp hfind
      exact .inr (.inr ⟨before, move, hmove, hbefore, rfl⟩)
    · exact .inl hfind
  · exact .inl hfind

/-- What is signed after a call was signed before it, or by it. -/
theorem Serves.signed_origin (h : s.Serves e s') {intent : ExecutionIntent}
    (hmem : intent ∈ s'.signed) :
    intent ∈ s.signed ∨ e = ⟨.seal (.intent intent.toExecutionIntentDraft), .ok intent.sealing⟩ := by
  rcases h.cases with ⟨-, -, hsigned, -⟩ | rfl | ⟨draft, sealing, he, rfl⟩ |
    ⟨_, _, -, -, rfl⟩ | ⟨_, _, -, rfl⟩ | ⟨_, -, rfl⟩
  · exact .inl (hsigned ▸ hmem)
  · exact .inl hmem
  · rcases List.mem_cons.mp hmem with rfl | hmem
    · exact .inr he
    · exact .inl hmem
  all_goals exact .inl hmem

section Step
variable {ι : Type} {log : List (ι × RuntimeEvent)}

/-- Found in the log, or the call itself. -/
theorem exists_mem_snoc {i : ι} {P : RuntimeEvent → Prop}
    (h : (∃ x ∈ log, P x.2) ∨ P e) : ∃ x ∈ log ++ [(i, e)], P x.2 := by
  rcases h with ⟨x, hx, hP⟩ | hP
  · exact ⟨x, List.mem_append_left _ hx, hP⟩
  · exact ⟨(i, e), List.mem_append_right _ (List.mem_singleton.mpr rfl), hP⟩

/-- **A call that is allowed keeps the stores sound.** -/
theorem Sound.step (hs : Sound log s) (i : ι) (hallows : s.Allows e.1) (h : s.Serves e s') :
    Sound (log ++ [(i, e)]) s' := by
  have hext := h.extends
  refine ⟨?_, ?_, ?_, ?_, ?_, ?_⟩
  · intro x hx context hcall
    rcases List.mem_append.mp hx with hx | hx
    · exact hext.intended _ (hs.intended x hx context hcall)
    · rw [List.mem_singleton.mp hx] at hcall
      rw [hcall] at hallows
      exact hext.intended _ hallows
  · intro id stored hfind
    rcases h.origin hfind with hold | ⟨hcall, -⟩ | ⟨before, move, hmove, hold, rfl⟩
    · exact hext.signed _ (hs.signed id stored hold)
    · rw [hcall] at hallows
      exact hext.signed _ hallows
    · rw [hmove.keeps_intent]
      exact hext.signed _ (hs.signed id before hold)
  · intro intent hmem
    exact exists_mem_snoc (P := fun e =>
      e = ⟨.seal (.intent intent.toExecutionIntentDraft), .ok intent.sealing⟩)
      ((h.signed_origin hmem).imp_left (hs.sealed intent))
  · intro id stored hfind hstate
    rcases h.origin hfind with hold | ⟨-, hprepared, -⟩ | ⟨before, move, hmove, hold, rfl⟩
    · exact hext.recorded id (hs.finalized id stored hold hstate)
    · rw [hprepared] at hstate
      cases hstate
    · rcases hmove.finalized_cases hstate with hbefore | ⟨_, _, _, hcall⟩
      · exact hext.recorded id (hs.finalized id before hold hbefore)
      · rw [hcall] at hallows
        exact hext.recorded id hallows
  · intro id stored hfind hstate
    -- a resolution is in the log already, or it is the call itself
    refine exists_mem_snoc (P := fun e => ∃ input, e.1 = .markResolved id input) ?_
    rcases h.origin hfind with hold | ⟨-, hprepared, -⟩ | ⟨before, move, hmove, hold, rfl⟩
    · exact .inl (hs.resolved id stored hold hstate)
    · rw [hprepared] at hstate
      cases hstate
    · rcases hmove.resolved_cases hstate with hbefore | hcall
      · exact .inl (hs.resolved id before hold hbefore)
      · exact .inr hcall
  · intro id stored context hfind hsaved
    rcases h.origin hfind with hold | ⟨-, -, hnone⟩ | ⟨before, move, hmove, hold, rfl⟩
    · exact hs.saved id stored context hold hsaved
    · rw [hnone] at hsaved
      cases hsaved
    · rcases hmove.saved_cases hsaved with hbefore | ⟨releasedAt, hcall⟩
      · exact hs.saved id before context hold hbefore
      · rw [hcall] at hallows
        exact hallows

theorem sound_empty : Sound (ι := ι) [] empty := by
  refine ⟨fun _ hx => absurd hx List.not_mem_nil, ?_, fun _ hmem => absurd hmem List.not_mem_nil,
    ?_, ?_, ?_⟩
  · rintro id stored ⟨⟩
  · rintro id stored ⟨⟩
  · rintro id stored ⟨⟩
  · rintro id stored context ⟨⟩

end Step

theorem extends_refl (s : Stores) : s.Extends s :=
  ⟨fun _ h => h, fun _ h => h, fun _ h => h⟩

theorem extends_trans {s₁ s₂ s₃ : Stores} (h : s₁.Extends s₂) (h' : s₂.Extends s₃) :
    s₁.Extends s₃ where
  intended id hid := h'.intended id (h.intended id hid)
  recorded id hid := h'.recorded id (h.recorded id hid)
  signed intent hmem := h'.signed intent (h.signed intent hmem)

/-- What is allowed stays allowed. -/
theorem Allows.extends (h : s.Extends s') (hallows : s.Allows call) : s'.Allows call := by
  unfold Allows at hallows ⊢
  split at hallows
  · exact h.signed _ hallows
  · exact h.intended _ hallows
  · exact hallows
  · exact h.recorded _ hallows
  · trivial

end Effects

/-! ## The obligations of each thread -/

/-- What a thread can be answered while the others move the stores. -/
abbrev Answers (ι : Type) : Stores → RuntimeEvent → Stores → Prop :=
  Under Extends (fun s e s' =>
    (∃ log : List (ι × RuntimeEvent), Sound log s) ∧ s.Serves e s')

section Threads
variable {ι : Type} {s s' : Stores} {α : Type} {id : JsString}

theorem answers_extends {e : RuntimeEvent} (h : Answers ι s e s') : s.Extends s' := by
  obtain ⟨s₁, hext, -, hserves⟩ := h
  exact extends_trans hext hserves.extends

theorem allows_of_free {call : RuntimeCall} (hrelease : call.isRelease = false)
    (hbookkeeping : call.isBookkeeping = false) : s.Allows call := by
  unfold Allows
  split
  · exact absurd hbookkeeping (nomatch ·)
  · exact absurd hrelease (nomatch ·)
  · exact absurd hbookkeeping (nomatch ·)
  · exact absurd hbookkeeping (nomatch ·)
  · trivial

/-- A part that owes nothing. -/
theorem free_ensures {p : RuntimeProgram α}
    (h : p.Only (fun call => call.isRelease = false ∧ call.isBookkeeping = false)) :
    p.Ensures (Answers ι) Allows (fun _ _ => True) s :=
  h.ensures (P := fun _ => True) (fun _ _ hcall _ => allows_of_free hcall.1 hcall.2)
    (fun _ _ _ _ _ _ => trivial) trivial

theorem preparing_ensures {p : RuntimeProgram α} (h : Preparing p) :
    p.Ensures (Answers ι) Allows (fun _ _ => True) s :=
  free_ensures (h.mono fun _ hcall => ⟨RuntimeCall.not_release_of_preparing hcall,
    RuntimeCall.not_bookkeeping_of_preparing hcall⟩)

/-- One call. -/
theorem ask_ensures {call : RuntimeCall} {post : Stores → Except Failure call.Answer → Prop}
    (hallows : s.Allows call)
    (hpost : ∀ ans s', Answers ι s ⟨call, ans⟩ s' → post s' ans) :
    (ask call).Ensures (Answers ι) Allows post s :=
  ensures_perform.mpr ⟨hallows, hpost⟩

theorem whenConfigured_ensures {configured : Bool} {p : RuntimeProgram Unit}
    (h : p.Ensures (Answers ι) Allows (fun _ _ => True) s) :
    (whenConfigured configured () p).Ensures (Answers ι) Allows (fun _ _ => True) s := by
  unfold whenConfigured
  split
  · exact h
  · trivial

/-! ### The release -/

/-- The built intent is of the transaction, and signed. -/
theorem intentBuilder_ensures (context : RuntimeContext) :
    (ExecutionIntentBuilder.build context).Ensures (Answers ι) Allows (fun s' r => ∀ intent,
      r = .ok intent → intent.businessTransactionId = context.businessTransactionId ∧
        intent ∈ s'.signed) s := by
  unfold ExecutionIntentBuilder.build
  split
  · rintro _ ⟨⟩
  refine ensures_bind.mpr (ask_ensures trivial ?_)
  rintro (_ | createdAt) s₁ -
  · rintro _ ⟨⟩
  refine ensures_bind.mpr (ask_ensures trivial ?_)
  rintro (_ | intentId) s₂ -
  · rintro _ ⟨⟩
  refine ensures_bind.mpr (ask_ensures trivial ?_)
  rintro (_ | sealing) s₃ ⟨s', -, -, hserves⟩
  · rintro _ ⟨⟩
  · rintro intent ⟨⟩
    simp only [Serves, RuntimeCall.isRelease, Bool.false_eq_true, if_false, signs, write,
      Except.ok.injEq] at hserves
    rw [← hserves.1]
    exact ⟨rfl, List.mem_cons_self⟩

/-- Once the service has prepared a release, the intent is stored. -/
theorem prepare_ensures (context : RuntimeContext) :
    (ExecutionIntentService.prepare context).Ensures (Answers ι) Allows
      (fun s' r => r = .ok () → s'.Intended context.businessTransactionId) s := by
  refine ensures_tryCatch.mpr (ensures_bind.mpr ((intentBuilder_ensures context).mono ?_))
  rintro s₁ (failure | intent) hbuilt
  · exact logged_ensures fun _ => nofun
  obtain ⟨hid, hsigned⟩ := hbuilt intent rfl
  refine ask_ensures hsigned ?_
  rintro (failure | ⟨⟨⟩⟩) s₂ ⟨s', -, -, hserves⟩
  · exact logged_ensures fun _ => nofun
  rintro -
  obtain ⟨hwrite, -⟩ : s'.write (.createIntent intent) = .ok s₂ ∧ True := hserves
  rcases hcreate : s'.intents.create intent with failure | intents
  · rw [write, hcreate] at hwrite
    cases hwrite
  · rw [write, hcreate] at hwrite
    cases hwrite
    unfold Intended
    dsimp only
    rw [(IntentRepository.create_ok hcreate).2, if_pos hid.symm]
    rfl

theorem markReleased_ensures (context : RuntimeContext) :
    (ExecutionIntentService.markReleased context).Ensures (Answers ι) Allows
      (fun _ _ => True) s := by
  refine ensures_tryCatch.mpr (ensures_bind.mpr (ask_ensures trivial ?_))
  rintro (_ | releasedAt) s₁ -
  · trivial
  · refine ask_ensures rfl ?_
    rintro (_ | ⟨⟨⟩⟩) s₂ - <;> trivial

theorem markFinalized_ensures {trustRecordId : JsString} {mode : FinalizationMode}
    (h : s.Recorded id) : (ExecutionIntentService.markFinalized id trustRecordId mode).Ensures
      (Answers ι) Allows (fun _ _ => True) s := by
  refine ensures_tryCatch.mpr (ensures_bind.mpr (ask_ensures trivial ?_))
  rintro (_ | finalizedAt) s₁ hanswer
  · trivial
  · refine ask_ensures ((answers_extends hanswer).recorded id h) ?_
    rintro (_ | ⟨⟨⟩⟩) s₂ - <;> trivial

/-- After the pipeline nothing is owed that is not met at once. -/
theorem released_ensures {config : RuntimeConfig} (processed : RuntimeContext) :
    (do
      whenConfigured config.executionIntents () (ExecutionIntentService.markReleased processed)
      let trustRecord ← RuntimeEngine.recordExecution config processed
      return (processed, trustRecord)).Ensures (Answers ι) Allows (fun _ _ => True) s := by
  refine ensures_bind.mpr ((whenConfigured_ensures (markReleased_ensures processed)).mono ?_)
  rintro s₁ (_ | ⟨⟨⟩⟩) -
  · trivial
  refine ensures_bind.mpr ((preparing_ensures
    (plain_recordExecution processed).preparing).mono ?_)
  rintro s₂ (_ | trustRecord) - <;> trivial

/-- The engine releases an action under a stored intent. -/
theorem release_ensures {config : RuntimeConfig} (hconfig : config.executionIntents = true)
    (context : RuntimeContext) : (RuntimeEngine.release config context).Ensures (Answers ι) Allows
      (fun _ _ => True) s := by
  unfold RuntimeEngine.release
  refine ensures_bind.mpr ((preparing_ensures
    (only_whenConfigured (only_perform.mpr rfl))).mono ?_)
  rintro s₁ (_ | ⟨⟨⟩⟩) -
  · trivial
  rw [whenConfigured, if_pos hconfig]
  refine ensures_bind.mpr ((prepare_ensures context).mono ?_)
  rintro s₂ (_ | ⟨⟨⟩⟩) hintended
  · trivial
  refine ensures_bind.mpr (ensures_tryCatch.mpr (ask_ensures (hintended rfl) ?_))
  rintro (failure | processed) s₃ -
  · refine (free_ensures (Only.bind
      (only_whenConfigured (only_markErrored fun _ => ⟨rfl, rfl⟩))
      (fun _ => Only.bind only_done fun _ => only_done))).mono ?_
    rintro s₄ (_ | processed) -
    · trivial
    · exact released_ensures processed
  · exact released_ensures processed

theorem engine_ensures {config : RuntimeConfig} (hconfig : config.executionIntents = true)
    (transaction : BusinessTransaction) : (RuntimeEngine.execute config transaction).Ensures
      (Answers ι) Allows (fun _ _ => True) s := by
  refine ensures_bind.mpr ((free_ensures
    (only_prepareExecution.mono fun _ h => ⟨h.1, h.2.2.1⟩)).mono ?_)
  rintro s₁ (_ | context) -
  · trivial
  refine ensures_tryCatch.mpr ((release_ensures hconfig context).mono ?_)
  rintro s₂ (failure | _) -
  · exact free_ensures (Only.bind (only_hooks fun _ => ⟨rfl, rfl⟩)
      (fun _ => only_done))
  · trivial

/-! ### The record -/

/-- A record that was stored is there. -/
theorem createTrustRecord_ensures (record : ExecutionTrustRecord) :
    (ask (.createTrustRecord record)).Ensures (Answers ι) Allows
      (fun s' r => r = .ok () → s'.Recorded record.businessTransactionId) s := by
  refine ask_ensures trivial ?_
  rintro (_ | ⟨⟨⟩⟩) s₂ ⟨s', -, -, hserves⟩
  · rintro ⟨⟩
  rintro -
  obtain ⟨hwrite, -⟩ : s'.write (.createTrustRecord record) = .ok s₂ ∧ True := hserves
  cases hwrite
  unfold Recorded
  dsimp only
  rw [TrustRecordRepository.findByTransactionId_create, if_pos rfl]
  rfl

theorem finish_ensures {executionIntents : Bool} {context : RuntimeContext}
    {trustRecord : ExecutionTrustRecord} :
    (Runtime.finish executionIntents context trustRecord).Ensures (Answers ι) Allows
      (fun _ _ => True) s := by
  refine ensures_bind.mpr (ensures_tryCatch.mpr ((createTrustRecord_ensures trustRecord).mono ?_))
  rintro s₁ (failure | ⟨⟨⟩⟩) hrecorded
  · exact logged_ensures fun _ => trivial
  refine ensures_bind.mpr ((whenConfigured_ensures (markFinalized_ensures (hrecorded rfl))).mono ?_)
  rintro s₂ (_ | ⟨⟨⟩⟩) - <;> trivial

/-- **`Runtime.execute` meets its obligations**, with the service of intents in the
engine. -/
theorem execute_ensures {config : RuntimeConfig} {executionIntents : Bool}
    (hconfig : config.executionIntents = true) (transaction : BusinessTransaction) :
    (Runtime.execute config executionIntents transaction).Ensures (Answers ι) Allows
      (fun _ _ => True) s := by
  refine ensures_bind.mpr ((engine_ensures hconfig transaction).mono ?_)
  rintro s₁ (_ | ⟨context, trustRecord⟩) -
  · trivial
  · exact finish_ensures

/-- A record that was found is stored. -/
theorem findTrustRecord_ensures (id : JsString) :
    (ask (.findTrustRecord id)).Ensures (Answers ι) Allows
      (fun s' r => ∀ record, r = .ok (some record) → s'.Recorded id) s := by
  refine ask_ensures trivial ?_
  rintro (_ | found) s₂ ⟨s', -, -, hserves⟩ record hfound
  · cases hfound
  cases hfound
  obtain ⟨hwrite, hfind⟩ : s'.write (.findTrustRecord id) = .ok s₂ ∧
    some record = s'.trustRecords.findByTransactionId id := hserves
  cases hwrite
  unfold Recorded
  rw [← hfind]
  rfl

/-- The context a stored intent keeps is of its transaction. -/
theorem findIntent_ensures (id : JsString) :
    (ask (.findIntent id)).Ensures (Answers ι) Allows (fun _ r => ∀ stored context,
      r = .ok (some stored) → stored.releasedContext = some context →
        context.businessTransactionId = id) s := by
  refine ask_ensures trivial ?_
  rintro (_ | found) s₂ ⟨s', -, ⟨log, hsound⟩, hserves⟩ stored context hfound hsaved
  · cases hfound
  cases hfound
  obtain ⟨-, hfind⟩ : s'.write (.findIntent id) = .ok s₂ ∧
    some stored = s'.intents.findByTransactionId id := hserves
  exact hsound.saved id stored context hfind.symm hsaved

/-- The record of a context is of its transaction. -/
theorem trustPipeline_ensures (context : RuntimeContext) :
    (BusinessTrustPipeline.execute context).Ensures (Answers ι) Allows (fun _ r => ∀ record,
      r = .ok record → record.businessTransactionId = context.businessTransactionId) s := by
  refine trustPipeline_record (fun s call h => ?_) s
  exact allows_of_free (RuntimeCall.not_release_of_preparing
    (RuntimeCall.isPreparing_of_ordinary h)) (RuntimeCall.not_bookkeeping_of_preparing
    (RuntimeCall.isPreparing_of_ordinary h))

theorem recoverRecord_ensures (error : Failure) :
    (ExecutionIntentFinalizer.recoverRecord id error).Ensures (Answers ι) Allows
      (fun _ _ => True) s := by
  refine ensures_bind.mpr ((findTrustRecord_ensures id).mono ?_)
  rintro s₁ (_ | _ | raced) hrecorded
  · trivial
  · trivial
  refine ensures_bind.mpr ((markFinalized_ensures (hrecorded raced rfl)).mono ?_)
  rintro s₂ (_ | ⟨⟨⟩⟩) - <;> trivial

/-- The rebuilt record is stored before its intent is finalized. -/
theorem rebuild_ensures {context : RuntimeContext} (hid : context.businessTransactionId = id) :
    (ExecutionIntentFinalizer.rebuild id context).Ensures (Answers ι) Allows
      (fun _ _ => True) s := by
  refine ensures_bind.mpr ((trustPipeline_ensures context).mono ?_)
  rintro s₁ (_ | trustRecord) hbuilt
  · trivial
  have hrecordId : trustRecord.businessTransactionId = id := (hbuilt trustRecord rfl).trans hid
  refine ensures_bind.mpr (ensures_tryCatch.mpr (ensures_bind.mpr
    ((createTrustRecord_ensures trustRecord).mono ?_)))
  rintro s₂ (failure | ⟨⟨⟩⟩) hrecorded
  · refine ensures_bind.mpr ((recoverRecord_ensures failure).mono ?_)
    rintro s₃ (_ | result) - <;> trivial
  · rw [hrecordId] at hrecorded
    refine ensures_bind.mpr ((markFinalized_ensures (hrecorded rfl)).mono ?_)
    rintro s₃ (_ | ⟨⟨⟩⟩) - <;> trivial

/-- **`finalize` meets its obligations.** -/
theorem finalize_ensures (id : JsString) :
    (ExecutionIntentFinalizer.finalize id).Ensures (Answers ι) Allows (fun _ _ => True) s := by
  refine ensures_bind.mpr ((findIntent_ensures id).mono ?_)
  rintro s₁ (_ | _ | stored) hsaved
  · trivial
  · trivial
  refine ensures_bind.mpr ((findTrustRecord_ensures id).mono ?_)
  rintro s₂ (_ | _ | existing) hrecorded
  · trivial
  · rcases hcontext : stored.releasedContext with _ | context
    · trivial
    · exact rebuild_ensures (hsaved stored context rfl hcontext)
  · dsimp only
    unfold ExecutionIntentFinalizer.alreadyRecorded
    split
    · trivial
    · refine ensures_bind.mpr ((markFinalized_ensures (hrecorded existing rfl)).mono ?_)
      rintro s₃ (_ | ⟨⟨⟩⟩) - <;> trivial

/-- A resolution by hand neither releases an action nor takes an intent through a
release. -/
theorem free_resolve (id : JsString) (input : ExecutionIntentService.ResolveInput) :
    (ExecutionIntentService.resolve id input).Only
      (fun call => call.isRelease = false ∧ call.isBookkeeping = false) := by
  refine Only.bind only_done ?_
  rintro ⟨resolution, note⟩
  refine Only.bind (only_perform.mpr ⟨rfl, rfl⟩) ?_
  rintro (_ | stored)
  · exact only_done
  dsimp only
  split
  · exact only_done
  refine Only.bind only_done (fun _ => ?_)
  refine Only.bind (only_perform.mpr ⟨rfl, rfl⟩) (fun resolvedAt => ?_)
  refine Only.bind (only_perform.mpr ⟨rfl, rfl⟩) (fun moved => ?_)
  refine Only.bind (only_perform.mpr ⟨rfl, rfl⟩) ?_
  rintro (_ | after)
  · exact only_done
  · dsimp only
    split <;> exact only_done

/-- **`resolve` owes nothing.** -/
theorem resolve_ensures (id : JsString) (input : ExecutionIntentService.ResolveInput) :
    (ExecutionIntentService.resolve id input).Ensures (Answers ι) Allows
      (fun _ _ => True) s := free_ensures (free_resolve id input)

end Threads

end Stores

/-! ## Any number of runs -/

/-- What shares the stores. -/
inductive Operation where
  /-- `Runtime.execute`. -/
  | execute (config : RuntimeConfig) (executionIntents : Bool) (transaction : BusinessTransaction)
  /-- `ExecutionIntentFinalizer.finalize`. -/
  | finalize (businessTransactionId : JsString)
  /-- `ExecutionIntentService.resolve`, by a person. -/
  | resolve (businessTransactionId : JsString) (input : ExecutionIntentService.ResolveInput)

namespace Operation

/-- What an operation returns. -/
abbrev Result : Operation → Type
  | .execute .. => RuntimeContext × ExecutionTrustRecord
  | .finalize _ => ExecutionIntentFinalizer.Outcome × ExecutionTrustRecord
  | .resolve .. => ExecutionIntentService.ResolveOutcome × StoredExecutionIntent

/-- The program of an operation. -/
def program : (operation : Operation) → RuntimeProgram operation.Result
  | .execute config executionIntents transaction =>
    Runtime.execute config executionIntents transaction
  | .finalize id => ExecutionIntentFinalizer.finalize id
  | .resolve id input => ExecutionIntentService.resolve id input

/-- The engine of a run has the service of intents. -/
def keepsIntents : Operation → Bool
  | .execute config .. => config.executionIntents
  | _ => true

/-- The operations over empty stores. -/
def pool {ι : Type} (operations : ι → Operation) :
    Pool RuntimeCall RuntimeCall.Answer Failure (fun i => (operations i).Result) Stores :=
  ⟨fun i => (operations i).program, .empty⟩

theorem program_ensures {ι : Type} {s : Stores} {operation : Operation}
    (h : operation.keepsIntents = true) :
    operation.program.Ensures (Stores.Answers ι) Stores.Allows (fun _ _ => True) s := by
  cases operation with
  | execute config executionIntents transaction => exact Stores.execute_ensures h transaction
  | finalize id => exact Stores.finalize_ensures id
  | resolve id input => exact Stores.resolve_ensures id input

variable {ι : Type} [DecidableEq ι] {operations : ι → Operation}
  {log : List (ι × RuntimeEvent)}
  {Q : Pool RuntimeCall RuntimeCall.Answer Failure (fun i => (operations i).Result) Stores}

/-- In every state reached the stores are sound, and each thread still meets its
obligations. -/
theorem reached_sound (hintents : ∀ i, (operations i).keepsIntents = true)
    (h : Exec Stores.Serves (pool operations) log Q) : Stores.Sound log Q.state ∧
      ∀ i, (Q.threads i).Ensures (Stores.Answers ι) Stores.Allows (fun _ _ => True) Q.state :=
  h.safe Stores.extends_refl (fun _ _ _ => Stores.extends_trans)
    (fun _ _ _ => Stores.Allows.extends)
    (fun _ _ i _ _ hs hallows hserves => ⟨hserves.extends, hs.step i hallows hserves⟩)
    Stores.sound_empty (fun i => program_ensures (hintents i))

end Operation

namespace Stores
variable {ι : Type} {log : List (ι × RuntimeEvent)} {s : Stores} {id : JsString}

/-- A signed intent of the transaction is stored. -/
def SignedIntent (log : List (ι × RuntimeEvent)) (s : Stores) (id : JsString) : Prop :=
  ∃ stored, s.intents.findByTransactionId id = some stored ∧ ∃ x ∈ log,
    x.2 = ⟨.seal (.intent stored.intent.toExecutionIntentDraft), .ok stored.intent.sealing⟩

/-- The intent of the transaction is listed, by every listing that is long enough for
the worklist. -/
def Listed (s : Stores) (id : JsString) : Prop :=
  ∀ limit, (s.intents.filter StoredExecutionIntent.isUnfinalized).length ≤ limit →
    ∃ stored ∈ s.intents.listUnfinalized limit, stored.businessTransactionId = id

theorem Sound.signedIntent (hs : Sound log s) (h : s.Intended id) : SignedIntent log s id := by
  obtain ⟨stored, hstored⟩ := Option.isSome_iff_exists.mp h
  exact ⟨stored, hstored, hs.sealed _ (hs.signed id stored hstored)⟩

/-- An intent without a record is listed, unless it was resolved by hand. -/
theorem Sound.listed (hs : Sound log s) (h : s.Intended id) (hrecord : ¬ s.Recorded id) :
    s.Listed id ∨ ∃ x ∈ log, ∃ input, x.2.1 = .markResolved id input := by
  obtain ⟨stored, hstored⟩ := Option.isSome_iff_exists.mp h
  by_cases hresolved : stored.status.state = .resolved
  · exact .inr (hs.resolved id stored hstored hresolved)
  · left
    intro limit hlimit
    have hfinalized : stored.status.state ≠ .finalized := fun hstate =>
      hrecord (hs.finalized id stored hstored hstate)
    refine ⟨stored, IntentRepository.mem_listUnfinalized (Keyed.mem_of_find hstored) ?_ hlimit,
      Keyed.key_of_find hstored⟩
    simp [StoredExecutionIntent.isUnfinalized, hfinalized, hresolved]

end Stores

/-- **No released action is lost.**  In every state that any number of executions,
finalizations and resolutions by hand reach, interleaved at their calls and with any
failures: a run at the pipeline has a signed intent of its transaction stored, a
finalized intent has its record stored, and a transaction that was given to the
pipeline and has no record is listed unless it was resolved by hand. -/
theorem Operation.released_not_lost {ι : Type} [DecidableEq ι] (operations : ι → Operation)
    (hintents : ∀ i, (operations i).keepsIntents = true) (log : List (ι × RuntimeEvent))
    (Q : Pool RuntimeCall RuntimeCall.Answer Failure (fun i => (operations i).Result) Stores)
    (h : Exec Stores.Serves (Operation.pool operations) log Q) :
    (∀ i context k, Q.threads i = .call (.executePipeline context) k →
      Stores.SignedIntent log Q.state context.businessTransactionId) ∧
    (∀ id stored, Q.state.intents.findByTransactionId id = some stored →
      stored.status.state = .finalized → Q.state.Recorded id) ∧
    (∀ x ∈ log, ∀ context, x.2.1 = .executePipeline context →
      ¬ Q.state.Recorded context.businessTransactionId →
      Q.state.Listed context.businessTransactionId ∨
        ∃ y ∈ log, ∃ input, y.2.1 = .markResolved context.businessTransactionId input) := by
  obtain ⟨hsound, hthreads⟩ := Operation.reached_sound hintents h
  refine ⟨fun i context k hcall => ?_, hsound.finalized, fun x hx context hcall hrecord => ?_⟩
  · have hensures := hthreads i
    rw [hcall] at hensures
    exact hsound.signedIntent hensures.1
  · exact hsound.listed (hsound.intended x hx context hcall) hrecord

/-! ## Runs that lose sight of an action -/

namespace Sample

/-- What the stores read, in the place of a collaborator's answer. -/
def stored (s : Stores) : (call : RuntimeCall) → call.Answer → call.Answer
  | .findIntent id, _ => s.intents.findByTransactionId id
  | .findTrustRecord id, _ => s.trustRecords.findByTransactionId id
  | .markResolved id input, _ => (s.intents.markResolved id input).1
  | _, answer => answer

/-- The sample collaborators over the stores: the pipeline cannot be reached, and
every write takes effect. -/
def serve (call : RuntimeCall) (s : Stores) : Except Failure call.Answer × Stores :=
  match breaking RuntimeCall.isRelease call with
  | .error failure => (.error failure, s)
  | .ok answer =>
    match (s.signs call (stored s call answer)).write call with
    | .ok s' => (.ok (stored s call answer), s')
    | .error failure => (.error failure, s)

theorem stored_finds (s : Stores) (call : RuntimeCall) (answer : call.Answer) :
    s.Finds call (stored s call answer) := by
  unfold Stores.Finds stored
  cases call <;> first | rfl | trivial

theorem serve_serves (call : RuntimeCall) (s : Stores) :
    s.Serves ⟨call, (serve call s).1⟩ (serve call s).2 := by
  unfold serve Stores.Serves
  by_cases hrelease : call.isRelease = true
  · rw [breaking, if_pos hrelease, if_pos hrelease]
    exact ⟨rfl, rfl, fun _ => Iff.rfl⟩
  · rw [if_neg hrelease]
    rcases breaking RuntimeCall.isRelease call with failure | answer
    · exact .inl rfl
    rcases hwrite : (s.signs call (stored s call answer)).write call with failure | s'
    · simp only [hwrite]
      exact .inl trivial
    · simp only [hwrite]
      exact ⟨trivial, stored_finds s call answer⟩

/-- A request like the sample, under its own identifier. -/
def request (id : JsString) : BusinessTransaction := { transaction with businessTransactionId := id }

/-- Two requests, executed with the service of intents or without. -/
def requests (executionIntents second : Bool) : Operation :=
  .execute { config with executionIntents := executionIntents } executionIntents
    (request (if second then "tx-2" else "tx-1"))

/-- The events of the first request and then of the second, and the stores after
both. -/
def requestEvents (executionIntents : Bool) : List (Bool × RuntimeEvent) :=
  let first := (requests executionIntents false).program
  let second := (requests executionIntents true).program
  (first.events serve .empty).map (Prod.mk false) ++
    (second.events serve (first.runState serve .empty).2).map (Prod.mk true)

def requestStores (executionIntents : Bool) : Stores :=
  ((requests executionIntents true).program.runState serve
    ((requests executionIntents false).program.runState serve .empty).2).2

/-- The two requests, one after the other. -/
theorem requests_run (executionIntents : Bool) :
    ∃ (Q : Pool RuntimeCall RuntimeCall.Answer Failure
        (fun i => (requests executionIntents i).Result) Stores),
      Exec Stores.Serves (Operation.pool (requests executionIntents))
        (requestEvents executionIntents) Q ∧ Q.state = requestStores executionIntents := by
  obtain ⟨Q₁, hrun₁, -, hstate₁, hothers₁⟩ := Exec.run_thread serve serve_serves false
    (.refl (Operation.pool (requests executionIntents)))
  obtain ⟨Q₂, hrun₂, -, hstate₂, -⟩ := Exec.run_thread serve serve_serves true hrun₁
  rw [hothers₁ true (by decide), hstate₁] at hrun₂ hstate₂
  exact ⟨Q₂, hrun₂, hstate₂⟩

end Sample

namespace Sample

/-- The pipeline is asked to execute a transaction. -/
def releases (id : JsString) (x : Bool × RuntimeEvent) : Bool :=
  match x.2.1 with
  | .executePipeline context => context.businessTransactionId = id
  | _ => false

/-- An intent is resolved. -/
def resolves (x : Bool × RuntimeEvent) : Bool :=
  match x.2.1 with
  | .markResolved .. => true
  | _ => false

theorem requests_unresolved (x : Bool × RuntimeEvent) (hx : x ∈ requestEvents true)
    (id : JsString) (input : ResolutionInput) : x.2.1 ≠ .markResolved id input := by
  have hnone : (requestEvents true).all (fun x => !resolves x) = true := by decide
  have hkeeps := List.all_eq_true.mp hnone x hx
  rintro hcall
  unfold resolves at hkeeps
  rw [hcall] at hkeeps
  exact absurd hkeeps Bool.false_ne_true

end Sample

/-- Without the service of intents an action is released under no intent; with it, a
listing that is shorter than the worklist leaves out the intent of a released action
that has no record and that nobody resolved. -/
theorem released_unlisted :
    (∃ log Q, Exec Stores.Serves (Operation.pool (Sample.requests false)) log Q ∧
      log.any (Sample.releases "tx-2") ∧ Q.state.intents = [] ∧ Q.state.trustRecords = []) ∧
    (∃ log Q, Exec Stores.Serves (Operation.pool (Sample.requests true)) log Q ∧
      log.any (Sample.releases "tx-2") ∧ Q.state.trustRecords = [] ∧
      (∀ x ∈ log, ∀ id input, x.2.1 ≠ .markResolved id input) ∧
      ∀ stored ∈ Q.state.intents.listUnfinalized 1, stored.businessTransactionId ≠ "tx-2") := by
  obtain ⟨Q₁, hrun₁, hstate₁⟩ := Sample.requests_run false
  obtain ⟨Q₂, hrun₂, hstate₂⟩ := Sample.requests_run true
  refine ⟨⟨_, Q₁, hrun₁, by decide, ?_⟩, ⟨_, Q₂, hrun₂, by decide, ?_,
    Sample.requests_unresolved, ?_⟩⟩
  · rw [hstate₁]
    decide
  · rw [hstate₂]
    decide
  · rw [hstate₂]
    decide

/-- The first sample request, released and without a record, is listed. -/
theorem first_request_listed : (Sample.requestStores true).Listed "tx-1" := by
  obtain ⟨Q, hrun, hstate⟩ := Sample.requests_run true
  have hreleased : (Sample.requestEvents true).any (Sample.releases "tx-1") = true := by decide
  obtain ⟨x, hx, hrelease⟩ := List.any_eq_true.mp hreleased
  unfold Sample.releases at hrelease
  split at hrelease
  · rename_i context hcall
    have hid : context.businessTransactionId = "tx-1" := of_decide_eq_true hrelease
    have hlisted := (Operation.released_not_lost (Sample.requests true) (by decide) _ Q hrun).2.2
      x hx context hcall
    rw [hid, hstate] at hlisted
    refine (hlisted ?_).resolve_right ?_
    · show ¬ ((Sample.requestStores true).trustRecords.findByTransactionId "tx-1").isSome = true
      decide
    · rintro ⟨y, hy, input, hresolved⟩
      exact Sample.requests_unresolved y hy _ _ hresolved
  · cases hrelease

end Parmana

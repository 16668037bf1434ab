import Parmana.Collections.Table
import Parmana.Runtime.Repositories
import Mathlib.Data.List.Induction

/-! # The life of an execution intent

An intent is stored once and then moved by four marks: that it was released, that
the release failed, that a person resolved it, that its record is there.  A mark
looks at the state it finds, and one that comes too late leaves the intent as it
is.  The release, the repair and the person call in any order and may call again, so
what is said here holds for every sequence of calls.

A mark that an intent has seen is settled (`Settled`): no later call unsettles it, and
the mark does nothing to it any more.  Which states follow which, what the intent
keeps and when it holds a saved context is put together in `Lifecycle`.
-/
namespace Parmana
open Js

/-- The marks of an intent. -/
inductive IntentMark where
  | released
  | finalized
  | errored
  | resolved
  deriving DecidableEq, Repr

/-- A call that stores an intent or marks the stored one. -/
inductive ExecutionIntentCall where
  | create (intent : ExecutionIntent)
  | markReleased (businessTransactionId : JsString) (releasedContext : RuntimeContext)
    (releasedAt : Int)
  | markFinalized (businessTransactionId trustRecordId : JsString) (mode : FinalizationMode)
    (finalizedAt : Int)
  | markErrored (businessTransactionId reason : JsString)
  | markResolved (businessTransactionId : JsString) (input : ResolutionInput)
  deriving DecidableEq

namespace ExecutionIntentCall

/-- The transaction a call is about. -/
def businessTransactionId : ExecutionIntentCall → JsString
  | .create intent => intent.businessTransactionId
  | .markReleased id _ _ => id
  | .markFinalized id _ _ _ => id
  | .markErrored id _ => id
  | .markResolved id _ => id

/-- The mark a call sets. -/
def mark : ExecutionIntentCall → Option IntentMark
  | .create _ => none
  | .markReleased .. => some .released
  | .markFinalized .. => some .finalized
  | .markErrored .. => some .errored
  | .markResolved .. => some .resolved

/-- What a call does to an intent that is stored. -/
def move : ExecutionIntentCall → StoredExecutionIntent → StoredExecutionIntent
  | .create _ => id
  | .markReleased _ context releasedAt => .release context releasedAt
  | .markFinalized _ trustRecordId mode finalizedAt => .finalize trustRecordId mode finalizedAt
  | .markErrored _ reason => .failWith reason
  | .markResolved _ input => .resolve input

end ExecutionIntentCall

/-- What a call answers: whether an intent moved, where the call says so. -/
abbrev ExecutionIntentAnswer := Except Failure (Option Bool)

/-- `MemoryExecutionIntentRepository` takes a call. -/
def IntentRepository.call (repository : IntentRepository) :
    ExecutionIntentCall → ExecutionIntentAnswer × IntentRepository
  | .create intent =>
    match repository.create intent with
    | .ok repository => (.ok none, repository)
    | .error failure => (.error failure, repository)
  | .markReleased id context releasedAt => (.ok none, repository.markReleased id context releasedAt)
  | .markFinalized id trustRecordId mode finalizedAt =>
    (.ok none, repository.markFinalized id trustRecordId mode finalizedAt)
  | .markErrored id reason => (.ok none, repository.markErrored id reason)
  | .markResolved id input =>
    (.ok (some (repository.markResolved id input).1), (repository.markResolved id input).2)

/-- The repository after calls. -/
def IntentRepository.after (repository : IntentRepository) (calls : List ExecutionIntentCall) :
    IntentRepository :=
  calls.foldl (fun repository call => (repository.call call).2) repository

/-! ## What a move does -/

namespace StoredExecutionIntent
open ExecutionIntentCall
variable {call : ExecutionIntentCall} {stored : StoredExecutionIntent} {mark : IntentMark}

theorem move_intent (call : ExecutionIntentCall) (stored : StoredExecutionIntent) :
    (call.move stored).intent = stored.intent := by
  cases call with
  | create => rfl
  | markReleased => unfold move release; dsimp only; split <;> rfl
  | markFinalized => unfold move finalize; dsimp only; split <;> rfl
  | markErrored => unfold move failWith; dsimp only; split <;> rfl
  | markResolved => unfold move resolve; dsimp only; split <;> rfl

/-- A finalized intent stays as it is. -/
theorem move_finalized (h : stored.status.state = .finalized) : call.move stored = stored := by
  cases call with
  | create => rfl
  | markReleased => simp [move, release, h]
  | markFinalized => simp [move, finalize, h]
  | markErrored => simp [move, failWith, h]
  | markResolved => simp [move, resolve, isResolvable, h]

/-- Any intent that is marked finalized is. -/
theorem finalize_state (trustRecordId : JsString) (mode : FinalizationMode) (finalizedAt : Int) :
    (stored.finalize trustRecordId mode finalizedAt).status.state = .finalized := by
  unfold finalize
  by_cases h : stored.status.state = .finalized
  · rw [if_pos h]
    exact h
  · rw [if_neg h]

/-- A resolved intent stays as it is until it is finalized. -/
theorem move_resolved (h : stored.status.state = .resolved) :
    call.move stored = stored ∨ (call.move stored).status.state = .finalized := by
  cases call with
  | create => exact .inl rfl
  | markReleased => exact .inl (by simp [move, release, h])
  | markFinalized => exact .inr (finalize_state _ _ _)
  | markErrored => exact .inl (by simp [move, failWith, h])
  | markResolved => exact .inl (by simp [move, resolve, isResolvable, h])

/-- The mark has been set, or came too late: it does nothing to the intent. -/
def Settled : IntentMark → StoredExecutionIntent → Prop
  | .released, stored => stored.status.state ≠ .prepared
  | .finalized, stored => stored.status.state = .finalized
  | .errored, stored => stored.status.state ≠ .prepared
  | .resolved, stored => stored.status.state ≠ .prepared ∧ stored.status.state ≠ .errored

/-- The state after a move: the one before, or one that the call leads to. -/
theorem move_state (call : ExecutionIntentCall) (stored : StoredExecutionIntent) :
    (call.move stored).status.state = stored.status.state ∨
      (call.move stored).status.state ≠ .prepared ∧
        ((call.move stored).status.state = .errored → stored.status.state = .prepared) := by
  cases call with
  | create => exact .inl rfl
  | markReleased =>
    by_cases h : stored.status.state = .prepared
    · exact .inr (by simp [move, release, h])
    · exact .inl (by simp [move, release, h])
  | markFinalized id trustRecordId mode finalizedAt =>
    refine .inr ?_
    have hstate : ((markFinalized id trustRecordId mode finalizedAt).move stored).status.state =
        .finalized := finalize_state trustRecordId mode finalizedAt
    rw [hstate]
    exact ⟨nofun, nofun⟩
  | markErrored =>
    by_cases h : stored.status.state = .prepared
    · exact .inr (by simp [move, failWith, h])
    · exact .inl (by simp [move, failWith, h])
  | markResolved =>
    by_cases h : stored.isResolvable = true
    · exact .inr (by simp [move, resolve, h])
    · exact .inl (by simp [move, resolve, h])

/-- No call unsettles a mark. -/
theorem Settled.move (h : Settled mark stored) : Settled mark (call.move stored) := by
  rcases move_state call stored with hstate | ⟨hprepared, herrored⟩
  · cases mark <;> simpa only [Settled, hstate] using h
  · cases mark with
    | released => exact hprepared
    | finalized =>
      rw [move_finalized h]
      exact h
    | errored => exact hprepared
    | resolved => exact ⟨hprepared, fun h' => h.1 (herrored h')⟩

/-- A call settles its mark. -/
theorem settled_move (h : call.mark = some mark) : Settled mark (call.move stored) := by
  cases call with
  | create => cases h
  | markReleased =>
    cases h
    show (stored.release _ _).status.state ≠ _
    by_cases hstate : stored.status.state = .prepared
    · simp [release, hstate]
    · simp [release, hstate]
  | markFinalized =>
    cases h
    exact finalize_state _ _ _
  | markErrored =>
    cases h
    show (stored.failWith _).status.state ≠ _
    by_cases hstate : stored.status.state = .prepared
    · simp [failWith, hstate]
    · simp [failWith, hstate]
  | markResolved =>
    cases h
    show (stored.resolve _).status.state ≠ _ ∧ (stored.resolve _).status.state ≠ _
    by_cases hresolvable : stored.isResolvable = true
    · simp [resolve, hresolvable]
    · have hstate : ¬ (stored.status.state = .prepared ∨ stored.status.state = .errored) := by
        simpa [isResolvable] using hresolvable
      rw [resolve, if_neg hresolvable]
      exact not_or.mp hstate

/-- **A mark that is settled does nothing.** -/
theorem Settled.move_eq (h : Settled mark stored) (hmark : call.mark = some mark) :
    call.move stored = stored := by
  cases call with
  | create => cases hmark
  | markReleased =>
    cases hmark
    exact if_pos h
  | markFinalized =>
    cases hmark
    exact if_pos h
  | markErrored =>
    cases hmark
    exact if_pos h
  | markResolved =>
    cases hmark
    have hresolvable : ¬ stored.isResolvable = true := by
      simpa [isResolvable, Settled] using h
    exact if_neg hresolvable

/-- What the states say of the other fields of an intent that is stored. -/
structure Orderly (stored : StoredExecutionIntent) : Prop where
  prepared : stored.status.state = .prepared → stored.status = { state := .prepared }
  errored : stored.status.state = .errored →
    ∃ reason, stored.status = { state := .errored, failureReason := some reason }
  resolved : stored.status.state = .resolved → stored.status.resolution.isSome ∧
    stored.status.resolutionNote.isSome ∧ stored.status.resolvedAt.isSome
  saved : stored.releasedContext.isSome ↔ stored.status.state = .released

theorem orderly_created (intent : ExecutionIntent) :
    Orderly { intent := intent, status := { state := .prepared } } :=
  ⟨fun _ => rfl, nofun, nofun, by simp⟩

theorem Orderly.move (h : Orderly stored) : Orderly (call.move stored) := by
  cases call with
  | create => exact h
  | markReleased =>
    show Orderly (stored.release _ _)
    unfold release
    split
    · exact h
    · exact ⟨nofun, nofun, nofun, by simp⟩
  | markFinalized =>
    show Orderly (stored.finalize _ _ _)
    unfold finalize
    split
    · exact h
    · exact ⟨nofun, nofun, nofun, by simp⟩
  | markErrored _ reason =>
    show Orderly (stored.failWith _)
    unfold failWith
    split
    · exact h
    · rename_i hstate
      rw [not_not] at hstate
      refine ⟨nofun, fun _ => ⟨reason, rfl⟩, nofun, ?_⟩
      have hsaved := h.saved
      rw [hstate] at hsaved
      simpa using hsaved
  | markResolved =>
    show Orderly (stored.resolve _)
    unfold resolve
    split
    · exact ⟨nofun, nofun, fun _ => ⟨rfl, rfl, rfl⟩, by simp⟩
    · exact h

/-- The call that the release stands on: nothing has finalized the intent since. -/
theorem move_released (h : (call.move stored).status.state = .released) :
    call.mark ≠ some .finalized ∧ (stored.status.state = .released ∨
      stored.status.state = .prepared ∧ call.mark = some .released) := by
  cases call with
  | create => exact ⟨nofun, .inl h⟩
  | markReleased _ context releasedAt =>
    refine ⟨nofun, ?_⟩
    by_cases hstate : stored.status.state = .prepared
    · exact .inr ⟨hstate, rfl⟩
    · have hsame : stored.release context releasedAt = stored := if_pos hstate
      exact .inl ((congrArg (·.status.state) hsame).symm.trans h)
  | markFinalized =>
    have hstate := (finalize_state _ _ _).symm.trans h
    cases hstate
  | markErrored _ reason =>
    refine ⟨nofun, .inl ?_⟩
    by_cases hstate : stored.status.state = .prepared
    · simp [move, failWith, hstate] at h
    · have hsame : stored.failWith reason = stored := if_pos hstate
      exact (congrArg (·.status.state) hsame).symm.trans h
  | markResolved _ input =>
    refine ⟨nofun, .inl ?_⟩
    by_cases hresolvable : stored.isResolvable = true
    · simp [move, resolve, hresolvable] at h
    · have hsame : stored.resolve input = stored := if_neg hresolvable
      exact (congrArg (·.status.state) hsame).symm.trans h

theorem move_of_released (h : stored.status.state = .released)
    (hmark : call.mark ≠ some .finalized) : call.move stored = stored := by
  cases call with
  | create => rfl
  | markReleased => simp [move, release, h]
  | markFinalized => exact absurd rfl hmark
  | markErrored => simp [move, failWith, h]
  | markResolved => simp [move, resolve, isResolvable, h]

end StoredExecutionIntent

/-! ## What a run does -/

namespace IntentRepository
open StoredExecutionIntent
variable {repository : IntentRepository} {calls more : List ExecutionIntentCall}
  {call : ExecutionIntentCall} {id : JsString} {stored : StoredExecutionIntent} {mark : IntentMark}

theorem after_append :
    repository.after (calls ++ more) = (repository.after calls).after more :=
  List.foldl_append

theorem after_concat :
    repository.after (calls ++ [call]) = ((repository.after calls).call call).2 :=
  List.foldl_append

theorem call_mark (hmark : call.mark = some mark) :
    (repository.call call).2 = repository.update call.businessTransactionId call.move := by
  cases call with
  | create => cases hmark
  | markReleased => rfl
  | markFinalized => rfl
  | markErrored => rfl
  | markResolved => rfl

/-- Storing an intent: it comes last, or its transaction has one. -/
theorem call_create (repository : IntentRepository) (intent : ExecutionIntent) :
    (repository.call (.create intent)).2 = repository ∧
        (repository.findByTransactionId intent.businessTransactionId).isSome = true ∨
      (repository.call (.create intent)).2 =
          repository ++ [{ intent := intent, status := { state := .prepared } }] ∧
        repository.findByTransactionId intent.businessTransactionId = none := by
  by_cases hsome : (repository.findByTransactionId intent.businessTransactionId).isSome = true
  · exact .inl ⟨by simp [call, create, hsome], hsome⟩
  · exact .inr ⟨by simp [call, create, hsome], Option.not_isSome_iff_eq_none.mp hsome⟩

/-- A call moves the intent of its own transaction. -/
theorem find_call (call : ExecutionIntentCall)
    (h : repository.findByTransactionId id = some stored) :
    (repository.call call).2.findByTransactionId id =
      some (if call.businessTransactionId = id then call.move stored else stored) := by
  cases hmark : call.mark with
  | some mark =>
    rw [call_mark hmark, findByTransactionId_update (fun stored => move_intent call stored), h]
    by_cases hid : id = call.businessTransactionId
    · rw [if_pos hid, if_pos hid.symm]
      rfl
    · rw [if_neg hid, if_neg (Ne.symm hid)]
  | none =>
    cases call with
    | create intent =>
      have hstored : (if intent.businessTransactionId = id then
          (ExecutionIntentCall.create intent).move stored else stored) = stored := ite_self _
      refine Eq.trans ?_ (congrArg some hstored.symm)
      rcases call_create repository intent with ⟨hcall, -⟩ | ⟨hcall, hnone⟩
      · rw [hcall, h]
      · rw [hcall, findByTransactionId, Keyed.find_append_singleton]
        rw [findByTransactionId] at h
        rw [h]
        rfl
    | _ => cases hmark

/-- What each move of a run preserves is true of the intent after the run. -/
theorem find_after (calls : List ExecutionIntentCall) {P : StoredExecutionIntent → Prop}
    (h : repository.findByTransactionId id = some stored) (hP : P stored)
    (hmove : ∀ call ∈ calls, call.businessTransactionId = id →
      ∀ stored, P stored → P (call.move stored)) :
    ∃ stored', (repository.after calls).findByTransactionId id = some stored' ∧ P stored' := by
  induction calls generalizing repository stored with
  | nil => exact ⟨stored, h, hP⟩
  | cons call calls ih =>
    refine ih (find_call call h) ?_ fun c hc => hmove c (List.mem_cons_of_mem call hc)
    by_cases hid : call.businessTransactionId = id
    · rw [if_pos hid]
      exact hmove call List.mem_cons_self hid stored hP
    · rw [if_neg hid]
      exact hP

/-- The stored intents are of different transactions. -/
def Distinct (repository : IntentRepository) : Prop :=
  (repository.map StoredExecutionIntent.businessTransactionId).Nodup

theorem Distinct.find (h : repository.Distinct) (hmem : stored ∈ repository) :
    repository.findByTransactionId stored.businessTransactionId = some stored :=
  Table.mem_iff.mp (show stored ∈ (Table.mk repository h).values from hmem)

theorem Distinct.after_call (h : repository.Distinct) : Distinct (repository.call call).2 := by
  cases hmark : call.mark with
  | some mark =>
    have hkeys : ((repository.call call).2).map StoredExecutionIntent.businessTransactionId =
        repository.map StoredExecutionIntent.businessTransactionId := by
      rw [call_mark hmark, update, Keyed.update, List.map_map]
      refine List.map_congr_left fun stored _ => ?_
      show StoredExecutionIntent.businessTransactionId (if _ then _ else _) = _
      split
      · rw [StoredExecutionIntent.businessTransactionId, move_intent]
        rfl
      · rfl
    rw [Distinct, hkeys]
    exact h
  | none =>
    cases call with
    | create intent =>
      rcases call_create repository intent with ⟨hcall, -⟩ | ⟨hcall, hnone⟩
      · rw [hcall]
        exact h
      · rw [hcall, Distinct, List.map_append, List.map_singleton, ← List.concat_eq_append,
          List.nodup_concat]
        refine ⟨fun hmem => ?_, h⟩
        obtain ⟨stored, hmem, hid⟩ := List.mem_map.mp hmem
        have hfind := h.find hmem
        rw [hid] at hfind
        exact Option.some_ne_none _ (hfind.symm.trans hnone)
    | _ => cases hmark

/-- The states of the stored intents say what their other fields hold. -/
theorem orderly_call (h : ∀ stored ∈ repository, Orderly stored) :
    ∀ stored ∈ (repository.call call).2, Orderly stored := by
  cases hmark : call.mark with
  | some mark =>
    rw [call_mark hmark]
    intro stored hmem
    obtain ⟨before, hbefore, rfl⟩ := List.mem_map.mp hmem
    split
    · exact (h before hbefore).move
    · exact h before hbefore
  | none =>
    cases call with
    | create intent =>
      rcases call_create repository intent with ⟨hcall, -⟩ | ⟨hcall, hnone⟩
      · rw [hcall]
        exact h
      · rw [hcall]
        intro stored hmem
        rcases List.mem_append.mp hmem with hmem | hmem
        · exact h stored hmem
        · rw [List.mem_singleton.mp hmem]
          exact orderly_created intent
    | _ => cases hmark

/-- What holds of the repository after every run. -/
theorem after_empty (calls : List ExecutionIntentCall) :
    Distinct (after [] calls) ∧ ∀ stored ∈ after [] calls, Orderly stored := by
  induction calls using List.reverseRecOn with
  | nil => exact ⟨List.nodup_nil, fun _ h => absurd h List.not_mem_nil⟩
  | append_singleton calls call ih =>
    rw [after_concat]
    exact ⟨ih.1.after_call, orderly_call ih.2⟩

/-- A mark that is settled leaves the repository as it is. -/
theorem call_settled (h : repository.Distinct) (hmark : call.mark = some mark)
    (hsettled : ∀ stored, repository.findByTransactionId call.businessTransactionId = some stored →
      Settled mark stored) : (repository.call call).2 = repository := by
  rw [call_mark hmark]
  refine (List.map_congr_left fun stored hmem => ?_).trans (List.map_id repository)
  split
  · rename_i hid
    have hfind := h.find hmem
    rw [hid] at hfind
    exact (hsettled stored hfind).move_eq hmark
  · rfl

end IntentRepository

/-! ## The life of an intent -/

/-- A release of the transaction was accepted, and nothing has finalized it since.
`held` is what is stored after the calls. -/
def ReleaseStands (held : List ExecutionIntentCall → IntentRepository)
    (calls : List ExecutionIntentCall) (id : JsString) : Prop :=
  ∃ before context releasedAt since stored,
    calls = before ++ .markReleased id context releasedAt :: since ∧
      (held before).findByTransactionId id = some stored ∧ stored.status.state = .prepared ∧
      ∀ call ∈ since, call.businessTransactionId = id → call.mark ≠ some .finalized

/-- **The life of the intents that are stored.**  `held` is what is stored after calls,
for the sequences of calls that are admitted. -/
structure IntentLifecycle (Admits : List ExecutionIntentCall → Prop)
    (held : List ExecutionIntentCall → IntentRepository) : Prop where
  /-- The intent that is created is the one that is stored. -/
  created : ∀ calls intent, Admits (calls ++ [.create intent]) →
    (held calls).findByTransactionId intent.businessTransactionId = none →
      (held (calls ++ [.create intent])).findByTransactionId intent.businessTransactionId =
        some { intent := intent, status := { state := .prepared } }
  /-- Whatever is called later, the intent stays and its content with it; a finalized
  intent stays as it is, and a resolved one until it is finalized. -/
  kept : ∀ calls more id stored, Admits (calls ++ more) →
    (held calls).findByTransactionId id = some stored →
      ∃ stored', (held (calls ++ more)).findByTransactionId id = some stored' ∧
        stored'.intent = stored.intent ∧
        (stored.status.state = .finalized → stored' = stored) ∧
        (stored.status.state = .resolved →
          stored' = stored ∨ stored'.status.state = .finalized)
  /-- Any intent can be finalized. -/
  finalizes : ∀ calls id trustRecordId mode finalizedAt stored,
    Admits (calls ++ [.markFinalized id trustRecordId mode finalizedAt]) →
      (held calls).findByTransactionId id = some stored →
        ∃ stored', (held (calls ++ [.markFinalized id trustRecordId mode finalizedAt])
          ).findByTransactionId id = some stored' ∧ stored'.status.state = .finalized
  /-- The saved context is there in the state `RELEASED` alone: from the release that was
  accepted until the intent is finalized. -/
  saved : ∀ calls id stored, Admits calls → (held calls).findByTransactionId id = some stored →
    (stored.releasedContext.isSome ↔ stored.status.state = .released) ∧
      (stored.status.state = .released ↔ ReleaseStands held calls id)
  /-- A mark that is set again does nothing. -/
  repeated : ∀ calls call more again mark stored,
    Admits (calls ++ call :: more ++ [again]) → call.mark = some mark → again.mark = some mark →
      again.businessTransactionId = call.businessTransactionId →
        (held calls).findByTransactionId call.businessTransactionId = some stored →
          held (calls ++ call :: more ++ [again]) = held (calls ++ call :: more)
  /-- A call that is made again at once does nothing, also where there is no intent. -/
  again : ∀ calls call, Admits (calls ++ [call, call]) → call.mark ≠ none →
    held (calls ++ [call, call]) = held (calls ++ [call])

namespace IntentRepository
open StoredExecutionIntent
variable {calls more : List ExecutionIntentCall} {call : ExecutionIntentCall} {id : JsString}
  {stored : StoredExecutionIntent}

theorem find_call_none {repository : IntentRepository}
    (h : repository.findByTransactionId id = none)
    (hfind : (repository.call call).2.findByTransactionId id = some stored) :
    stored.status.state = .prepared := by
  cases hmark : call.mark with
  | some mark =>
    rw [call_mark hmark, findByTransactionId_update (fun stored => move_intent call stored), h]
      at hfind
    split at hfind <;> cases hfind
  | none =>
    cases call with
    | create intent =>
      rcases call_create repository intent with ⟨hcall, -⟩ | ⟨hcall, -⟩
      · rw [hcall, h] at hfind
        cases hfind
      · rw [hcall, findByTransactionId, Keyed.find_append_singleton] at hfind
        rw [findByTransactionId] at h
        rw [h, Option.none_or] at hfind
        split at hfind
        · cases hfind
          rfl
        · cases hfind
    | _ => cases hmark

/-- An intent is `RELEASED` while the release that was accepted stands. -/
theorem released_iff (h : (after [] calls).findByTransactionId id = some stored) :
    stored.status.state = .released ↔ ReleaseStands (after []) calls id := by
  constructor
  · intro hreleased
    induction calls using List.reverseRecOn generalizing stored with
    | nil => cases h
    | append_singleton calls call ih =>
      rw [after_concat] at h
      cases hbefore : (after [] calls).findByTransactionId id with
      | none => exact nomatch (find_call_none hbefore h).symm.trans hreleased
      | some before =>
        have hfind := h.symm.trans (find_call call hbefore)
        cases hfind
        -- the release is an earlier one, unless this call is it
        have hearlier : before.status.state = .released →
            (call.businessTransactionId = id → call.mark ≠ some .finalized) →
            ReleaseStands (after []) (calls ++ [call]) id := by
          intro hstate hopen
          obtain ⟨first, context, releasedAt, since, prepared, rfl, hprepared, hstate, hsince⟩ :=
            ih hbefore hstate
          refine ⟨first, context, releasedAt, since ++ [call], prepared, by simp, hprepared,
            hstate, fun c hc => ?_⟩
          rcases List.mem_append.mp hc with hc | hc
          · exact hsince c hc
          · rw [List.mem_singleton.mp hc]
            exact hopen
        by_cases hid : call.businessTransactionId = id
        · rw [if_pos hid] at hreleased
          obtain ⟨hopen, hstate | ⟨hstate, hmark⟩⟩ := move_released hreleased
          · exact hearlier hstate fun _ => hopen
          · cases call with
            | markReleased id' context releasedAt =>
              obtain rfl : id' = id := hid
              exact ⟨calls, context, releasedAt, [], before, rfl, hbefore, hstate,
                fun _ h => absurd h List.not_mem_nil⟩
            | _ => cases hmark
        · rw [if_neg hid] at hreleased
          exact hearlier hreleased fun h => absurd h hid
  · rintro ⟨before, context, releasedAt, since, prepared, rfl, hprepared, hstate, hsince⟩
    have hmoved := find_call (.markReleased id context releasedAt) hprepared
    rw [show (ExecutionIntentCall.markReleased id context releasedAt).businessTransactionId = id
      from rfl, if_pos rfl] at hmoved
    have hreleased : ((ExecutionIntentCall.markReleased id context releasedAt).move
        prepared).status.state = .released := by
      simp [ExecutionIntentCall.move, release, hstate]
    obtain ⟨last, hlast, hstate⟩ := find_after since hmoved
      (P := fun stored => stored.status.state = .released) hreleased
      fun c hc hid stored hstored => by
        rw [move_of_released hstored (hsince c hc hid)]
        exact hstored
    rw [after_append, show ∀ c : ExecutionIntentCall, ∀ r : IntentRepository,
      r.after (c :: since) = (r.call c).2.after since from fun _ _ => rfl, hlast] at h
    cases h
    exact hstate

/-- **The intents in memory live so, whatever is called.** -/
theorem lifecycle : IntentLifecycle (fun _ => True) (after []) where
  created calls intent _ hnone := by
    rw [after_concat]
    rcases call_create (after [] calls) intent with ⟨-, hsome⟩ | ⟨hcall, -⟩
    · rw [hnone] at hsome
      cases hsome
    · rw [hcall, findByTransactionId, Keyed.find_append_singleton]
      rw [findByTransactionId] at hnone
      rw [hnone]
      simp [StoredExecutionIntent.businessTransactionId]
  kept calls more id stored _ h := by
    rw [after_append]
    refine find_after more h ⟨rfl, fun _ => rfl, fun _ => .inl rfl⟩ fun call _ _ stored' hstored' => ?_
    obtain ⟨hintent, hfinalized, hresolved⟩ := hstored'
    refine ⟨(move_intent call stored').trans hintent, fun hstate => ?_, fun hstate => ?_⟩
    · rw [hfinalized hstate]
      exact move_finalized hstate
    · rcases hresolved hstate with rfl | hstate
      · exact move_resolved hstate
      · rw [move_finalized hstate]
        exact .inr hstate
  finalizes calls id trustRecordId mode finalizedAt stored _ h := by
    refine ⟨_, (congrArg _ after_concat).trans (find_call _ h), ?_⟩
    rw [show (ExecutionIntentCall.markFinalized id trustRecordId mode
      finalizedAt).businessTransactionId = id from rfl, if_pos rfl]
    exact finalize_state trustRecordId mode finalizedAt
  saved calls id stored _ h :=
    ⟨((after_empty calls).2 stored (Keyed.mem_of_find h)).saved, released_iff h⟩
  repeated calls call more again mark stored _ hmark hagain hid h := by
    rw [after_concat]
    refine call_settled (after_empty _).1 hagain fun last hlast => ?_
    have hmoved := find_call call h
    rw [if_pos rfl] at hmoved
    obtain ⟨last', hlast', hsettled⟩ := find_after more hmoved (settled_move hmark)
      fun _ _ _ _ hstored => hstored.move
    rw [hid, after_append] at hlast
    cases hlast.symm.trans hlast'
    exact hsettled
  again calls call _ hcall := by
    obtain ⟨mark, hmark⟩ := Option.ne_none_iff_exists'.mp hcall
    rw [show calls ++ [call, call] = calls ++ [call] ++ [call] by simp, after_concat]
    refine call_settled (after_empty _).1 hmark fun last hlast => ?_
    rw [after_concat, call_mark hmark,
      findByTransactionId_update (fun stored => move_intent call stored), if_pos rfl,
      Option.map_eq_some_iff] at hlast
    obtain ⟨stored, -, rfl⟩ := hlast
    exact settled_move hmark

end IntentRepository
end Parmana

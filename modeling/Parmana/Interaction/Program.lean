import Mathlib.Tactic.Common

/-! # Programs that call collaborators

A `Program` is the text of an asynchronous function seen from outside: it
finishes with a value or an error, or it calls a collaborator and goes on with
the answer.  An answer is a value or a thrown error, so "every behaviour of the
collaborators" is simply every answer to every call.  Between two calls a
program runs alone, which is what `await` gives: other work can happen only
where a call is made.

Three readings of a program are developed:

* `Steps` and `Runs` are its possible event sequences, for arbitrary answers;
* `Ensures` is a weakest precondition over a state that the calls move, with an
  obligation at each call; a history of events is one such state;
* `runState` executes it against a handler, so that a definition can be tested
  and two passes over the same store compared.

Nothing here depends on what the calls are.
-/
namespace Interaction

universe u

variable {Op : Type} {Ret : Op → Type} {ε α β : Type}

/-- A program with calls `op : Op` answered in `Ret op`, errors `ε` and result
`α`. -/
inductive Program (Op : Type) (Ret : Op → Type) (ε α : Type) where
  | done (r : Except ε α)
  | call (op : Op) (k : Except ε (Ret op) → Program Op Ret ε α)

/-- A call together with its answer. -/
abbrev Event (Op : Type) (Ret : Op → Type) (ε : Type) := (op : Op) × Except ε (Ret op)

namespace Program

/-! ## Sequencing and `try` -/

/-- Runs `p`, then `f` on its value; an error of `p` skips `f`. -/
protected def bind : Program Op Ret ε α → (α → Program Op Ret ε β) → Program Op Ret ε β
  | .done (.ok a), f => f a
  | .done (.error e), _ => .done (.error e)
  | .call op k, f => .call op (fun ans => (k ans).bind f)

/-- Runs `p`, then `h` on its error. -/
protected def catchWith :
    Program Op Ret ε α → (ε → Program Op Ret ε α) → Program Op Ret ε α
  | .done (.ok a), _ => .done (.ok a)
  | .done (.error e), h => h e
  | .call op k, h => .call op (fun ans => (k ans).catchWith h)

/-- Calls one collaborator. -/
def perform (op : Op) : Program Op Ret ε (Ret op) := .call op .done

instance : Monad (Program Op Ret ε) where
  pure a := .done (.ok a)
  bind := Program.bind

instance : MonadExceptOf ε (Program Op Ret ε) where
  throw e := .done (.error e)
  tryCatch := Program.catchWith

@[simp] theorem pure_eq (a : α) : (pure a : Program Op Ret ε α) = .done (.ok a) := rfl

@[simp] theorem throw_eq (e : ε) : (throw e : Program Op Ret ε α) = .done (.error e) := rfl

@[simp] theorem done_ok_bind (a : α) (f : α → Program Op Ret ε β) :
    (Program.done (.ok a) : Program Op Ret ε α) >>= f = f a := rfl

@[simp] theorem done_error_bind (e : ε) (f : α → Program Op Ret ε β) :
    (Program.done (.error e) : Program Op Ret ε α) >>= f = .done (.error e) := rfl

@[simp] theorem call_bind (op : Op) (k : Except ε (Ret op) → Program Op Ret ε α)
    (f : α → Program Op Ret ε β) :
    (Program.call op k) >>= f = .call op (fun ans => k ans >>= f) := rfl

theorem bind_bind {γ : Type} (p : Program Op Ret ε α) (f : α → Program Op Ret ε β)
    (g : β → Program Op Ret ε γ) : p >>= f >>= g = p >>= fun a => f a >>= g := by
  induction p with
  | done r => cases r <;> rfl
  | call op k ih => exact congrArg (Program.call op) (funext ih)

@[simp] theorem tryCatch_done_ok (a : α) (h : ε → Program Op Ret ε α) :
    tryCatch (Program.done (.ok a) : Program Op Ret ε α) h = .done (.ok a) := rfl

@[simp] theorem tryCatch_done_error (e : ε) (h : ε → Program Op Ret ε α) :
    tryCatch (Program.done (.error e) : Program Op Ret ε α) h = h e := rfl

@[simp] theorem tryCatch_call (op : Op) (k : Except ε (Ret op) → Program Op Ret ε α)
    (h : ε → Program Op Ret ε α) :
    tryCatch (Program.call op k) h = .call op (fun ans => tryCatch (k ans) h) := rfl

/-- The same program where its calls are some of the calls of a larger system: each is made
as `f` of it, and `g` reads the answer back. -/
def relabel {Op' : Type} {Ret' : Op' → Type} (f : Op → Op') (g : ∀ op, Ret' (f op) → Ret op) :
    Program Op Ret ε α → Program Op' Ret' ε α
  | .done r => .done r
  | .call op k => .call (f op) fun ans => (k (ans.map (g op))).relabel f g

/-! ## Event sequences -/

/-- `Steps p t q`: answered as in `t`, the program `p` has become `q`. -/
inductive Steps : Program Op Ret ε α → List (Event Op Ret ε) → Program Op Ret ε α → Prop where
  | refl (p) : Steps p [] p
  | call {op k ans t q} : Steps (k ans) t q → Steps (.call op k) (⟨op, ans⟩ :: t) q

/-- `Runs p t r`: answered as in `t`, the program `p` finishes with `r`. -/
def Runs (p : Program Op Ret ε α) (t : List (Event Op Ret ε)) (r : Except ε α) : Prop :=
  Steps p t (.done r)

@[simp] theorem runs_done {r r' : Except ε α} {t : List (Event Op Ret ε)} :
    Runs (.done r) t r' ↔ t = [] ∧ r' = r := by
  constructor
  · intro h
    cases h
    exact ⟨rfl, rfl⟩
  · rintro ⟨rfl, rfl⟩
    exact .refl _

theorem runs_call {op : Op} {k : Except ε (Ret op) → Program Op Ret ε α}
    {t : List (Event Op Ret ε)} {r : Except ε α} :
    Runs (.call op k) t r ↔ ∃ ans t', t = ⟨op, ans⟩ :: t' ∧ Runs (k ans) t' r := by
  constructor
  · intro h
    cases h with
    | call h => exact ⟨_, _, rfl, h⟩
  · rintro ⟨ans, t', rfl, h⟩
    exact .call h

theorem runs_perform {op : Op} {t : List (Event Op Ret ε)} {r : Except ε (Ret op)} :
    Runs (perform op) t r ↔ t = [⟨op, r⟩] := by
  rw [perform, runs_call]
  constructor
  · rintro ⟨ans, t', rfl, h⟩
    obtain ⟨rfl, rfl⟩ := runs_done.mp h
    rfl
  · rintro rfl
    exact ⟨r, [], rfl, .refl _⟩

/-- A run of a sequence is a run of its first part that fails, or one that
succeeds followed by a run of the second. -/
theorem runs_bind {p : Program Op Ret ε α} {f : α → Program Op Ret ε β}
    {t : List (Event Op Ret ε)} {r : Except ε β} :
    Runs (p >>= f) t r ↔
      (∃ e, Runs p t (.error e) ∧ r = .error e) ∨
      (∃ a t₁ t₂, t = t₁ ++ t₂ ∧ Runs p t₁ (.ok a) ∧ Runs (f a) t₂ r) := by
  induction p generalizing t with
  | done res =>
    cases res with
    | error e =>
      rw [done_error_bind, runs_done]
      constructor
      · rintro ⟨rfl, rfl⟩
        exact .inl ⟨e, .refl _, rfl⟩
      · rintro (⟨e', h, rfl⟩ | ⟨a, t₁, t₂, -, h, -⟩)
        · obtain ⟨ht, he⟩ := runs_done.mp h
          exact ⟨ht, congrArg _ (Except.error.inj he)⟩
        · cases (runs_done.mp h).2
    | ok a =>
      rw [done_ok_bind]
      constructor
      · intro h
        exact .inr ⟨a, [], t, rfl, .refl _, h⟩
      · rintro (⟨e', h, -⟩ | ⟨a', t₁, t₂, rfl, h, h'⟩)
        · cases (runs_done.mp h).2
        · obtain ⟨rfl, ha⟩ := runs_done.mp h
          cases ha
          exact h'
  | call op k ih =>
    rw [call_bind, runs_call]
    constructor
    · rintro ⟨ans, t', rfl, hk⟩
      rcases (ih ans).mp hk with ⟨e, hp, rfl⟩ | ⟨a, t₁, t₂, rfl, hp, hf⟩
      · exact .inl ⟨e, .call hp, rfl⟩
      · exact .inr ⟨a, ⟨op, ans⟩ :: t₁, t₂, rfl, .call hp, hf⟩
    · rintro (⟨e, hp, rfl⟩ | ⟨a, t₁, t₂, rfl, hp, hf⟩)
      · obtain ⟨ans, t', rfl, hk⟩ := runs_call.mp hp
        exact ⟨ans, t', rfl, (ih ans).mpr (.inl ⟨e, hk, rfl⟩)⟩
      · obtain ⟨ans, t', rfl, hk⟩ := runs_call.mp hp
        exact ⟨ans, t' ++ t₂, rfl, (ih ans).mpr (.inr ⟨a, t', t₂, rfl, hk, hf⟩)⟩

/-- A run of a sequence that succeeds is one of each part. -/
theorem runs_bind_ok {p : Program Op Ret ε α} {f : α → Program Op Ret ε β}
    {t : List (Event Op Ret ε)} {b : β} : Runs (p >>= f) t (.ok b) ↔
      ∃ a t₁ t₂, t = t₁ ++ t₂ ∧ Runs p t₁ (.ok a) ∧ Runs (f a) t₂ (.ok b) := by
  rw [runs_bind]
  constructor
  · rintro (⟨e, -, he⟩ | h)
    · cases he
    · exact h
  · intro h
    exact .inr h

/-- A run of a call and what follows it. -/
theorem runs_perform_bind {op : Op} {f : Ret op → Program Op Ret ε β} {t : List (Event Op Ret ε)}
    {r : Except ε β} : Runs (perform op >>= f) t r ↔
      (∃ e, t = [⟨op, .error e⟩] ∧ r = .error e) ∨
      (∃ a t', t = ⟨op, .ok a⟩ :: t' ∧ Runs (f a) t' r) := by
  rw [runs_bind]
  constructor
  · rintro (⟨e, hp, rfl⟩ | ⟨a, t₁, t₂, rfl, hp, hf⟩)
    · exact .inl ⟨e, runs_perform.mp hp, rfl⟩
    · exact .inr ⟨a, t₂, by rw [runs_perform.mp hp, List.singleton_append], hf⟩
  · rintro (⟨e, rfl, rfl⟩ | ⟨a, t', rfl, hf⟩)
    · exact .inl ⟨e, runs_perform.mpr rfl, rfl⟩
    · exact .inr ⟨a, _, t', rfl, runs_perform.mpr rfl, hf⟩

/-- A run of `try p catch h` is a run of `p` that succeeds, or one that fails
followed by a run of the handler. -/
theorem runs_tryCatch {p : Program Op Ret ε α} {h : ε → Program Op Ret ε α}
    {t : List (Event Op Ret ε)} {r : Except ε α} :
    Runs (tryCatch p h) t r ↔
      (∃ a, Runs p t (.ok a) ∧ r = .ok a) ∨
      (∃ e t₁ t₂, t = t₁ ++ t₂ ∧ Runs p t₁ (.error e) ∧ Runs (h e) t₂ r) := by
  induction p generalizing t with
  | done res =>
    cases res with
    | ok a =>
      rw [tryCatch_done_ok, runs_done]
      constructor
      · rintro ⟨rfl, rfl⟩
        exact .inl ⟨a, .refl _, rfl⟩
      · rintro (⟨a', h, rfl⟩ | ⟨e, t₁, t₂, -, h, -⟩)
        · obtain ⟨ht, he⟩ := runs_done.mp h
          exact ⟨ht, congrArg _ (Except.ok.inj he)⟩
        · cases (runs_done.mp h).2
    | error e =>
      rw [tryCatch_done_error]
      constructor
      · intro h
        exact .inr ⟨e, [], t, rfl, .refl _, h⟩
      · rintro (⟨e', h, -⟩ | ⟨e', t₁, t₂, rfl, h, h'⟩)
        · cases (runs_done.mp h).2
        · obtain ⟨rfl, ha⟩ := runs_done.mp h
          cases ha
          exact h'
  | call op k ih =>
    rw [tryCatch_call, runs_call]
    constructor
    · rintro ⟨ans, t', rfl, hk⟩
      rcases (ih ans).mp hk with ⟨a, hp, rfl⟩ | ⟨e, t₁, t₂, rfl, hp, hh⟩
      · exact .inl ⟨a, .call hp, rfl⟩
      · exact .inr ⟨e, ⟨op, ans⟩ :: t₁, t₂, rfl, .call hp, hh⟩
    · rintro (⟨a, hp, rfl⟩ | ⟨e, t₁, t₂, rfl, hp, hh⟩)
      · obtain ⟨ans, t', rfl, hk⟩ := runs_call.mp hp
        exact ⟨ans, t', rfl, (ih ans).mpr (.inl ⟨a, hk, rfl⟩)⟩
      · obtain ⟨ans, t', rfl, hk⟩ := runs_call.mp hp
        exact ⟨ans, t' ++ t₂, rfl, (ih ans).mpr (.inr ⟨e, t', t₂, rfl, hk, hh⟩)⟩

/-- Runs `p` and hands on its error as a value. -/
def attempt (p : Program Op Ret ε α) : Program Op Ret ε (Except ε α) :=
  tryCatch (do return .ok (← p)) fun e => return .error e

theorem runs_attempt {p : Program Op Ret ε α} {t : List (Event Op Ret ε)}
    {r : Except ε (Except ε α)} : Runs (attempt p) t r ↔ ∃ x, Runs p t x ∧ r = .ok x := by
  unfold attempt
  simp only [runs_tryCatch, runs_bind, pure_eq, runs_done]
  constructor
  · rintro (⟨_, ⟨e, -, h⟩ | ⟨a, t₁, t₂, rfl, hp, rfl, h⟩, rfl⟩ |
      ⟨e, t₁, t₂, rfl, ⟨e', hp, h⟩ | ⟨a, _, _, -, -, -, h⟩, rfl, rfl⟩)
    · cases h
    · rw [List.append_nil]
      exact ⟨.ok a, hp, h⟩
    · cases h
      rw [List.append_nil]
      exact ⟨.error e, hp, rfl⟩
    · cases h
  · rintro ⟨x | a, hp, rfl⟩
    · exact .inr ⟨x, t, [], (List.append_nil t).symm, .inl ⟨x, hp, rfl⟩, rfl, rfl⟩
    · exact .inl ⟨_, .inr ⟨a, t, [], (List.append_nil t).symm, hp, rfl, rfl⟩, rfl⟩

/-! ## Weakest preconditions -/

section Ensures
variable {σ : Type u} (sem : σ → Event Op Ret ε → σ → Prop) (pre : σ → Op → Prop)

/-- Started in a state, `p` meets the obligation `pre` at every call it makes
and finishes in a state and with a result that satisfy `post`, however the
calls are answered within `sem`. -/
def Ensures : Program Op Ret ε α → (σ → Except ε α → Prop) → σ → Prop
  | .done r, post, s => post s r
  | .call op k, post, s =>
    pre s op ∧ ∀ ans s', sem s ⟨op, ans⟩ s' → (k ans).Ensures post s'

variable {sem pre}

theorem Ensures.mono {p : Program Op Ret ε α} {post post' : σ → Except ε α → Prop} {s : σ}
    (h : p.Ensures sem pre post s) (hpost : ∀ s r, post s r → post' s r) :
    p.Ensures sem pre post' s := by
  induction p generalizing s with
  | done r => exact hpost s r h
  | call op k ih => exact ⟨h.1, fun ans s' hs => ih ans (h.2 ans s' hs)⟩

/-- What is ensured of more answers is ensured of fewer. -/
theorem Ensures.answers {sem' : σ → Event Op Ret ε → σ → Prop} {p : Program Op Ret ε α}
    {post : σ → Except ε α → Prop} {s : σ} (h : p.Ensures sem pre post s)
    (hsem : ∀ s e s', sem' s e s' → sem s e s') : p.Ensures sem' pre post s := by
  induction p generalizing s with
  | done r => exact h
  | call op k ih => exact ⟨h.1, fun ans s' hs => ih ans (h.2 ans s' (hsem _ _ _ hs))⟩

/-- The rule for sequencing: the first part must leave a state from which the
second ensures the postcondition, and must satisfy it when it fails. -/
theorem ensures_bind {p : Program Op Ret ε α} {f : α → Program Op Ret ε β}
    {post : σ → Except ε β → Prop} {s : σ} :
    (p >>= f).Ensures sem pre post s ↔
      p.Ensures sem pre (fun s' r => match r with
        | .ok a => (f a).Ensures sem pre post s'
        | .error e => post s' (.error e)) s := by
  induction p generalizing s with
  | done r => cases r <;> exact Iff.rfl
  | call op k ih =>
    rw [call_bind]
    simp only [Ensures, ih]

/-- The rule for `try`. -/
theorem ensures_tryCatch {p : Program Op Ret ε α} {h : ε → Program Op Ret ε α}
    {post : σ → Except ε α → Prop} {s : σ} :
    (tryCatch p h).Ensures sem pre post s ↔
      p.Ensures sem pre (fun s' r => match r with
        | .ok a => post s' (.ok a)
        | .error e => (h e).Ensures sem pre post s') s := by
  induction p generalizing s with
  | done r => cases r <;> exact Iff.rfl
  | call op k ih =>
    rw [tryCatch_call]
    simp only [Ensures, ih]

theorem ensures_perform {op : Op} {post : σ → Except ε (Ret op) → Prop} {s : σ} :
    (perform op : Program Op Ret ε (Ret op)).Ensures sem pre post s ↔
      pre s op ∧ ∀ ans s', sem s ⟨op, ans⟩ s' → post s' ans := Iff.rfl

end Ensures

/-! ## Execution against a handler -/

/-- Runs a program against a handler that answers each call and moves a
state. -/
def runState {σ : Type u} (handler : (op : Op) → σ → Except ε (Ret op) × σ) :
    Program Op Ret ε α → σ → Except ε α × σ
  | .done r, s => (r, s)
  | .call op k, s => (k (handler op s).1).runState handler (handler op s).2

section RunState
variable {σ : Type u} (handler : (op : Op) → σ → Except ε (Ret op) × σ)

@[simp] theorem runState_done (r : Except ε α) (s : σ) :
    (Program.done r : Program Op Ret ε α).runState handler s = (r, s) := rfl

@[simp] theorem runState_perform (op : Op) (s : σ) :
    (perform op : Program Op Ret ε (Ret op)).runState handler s = handler op s := rfl

theorem runState_bind (p : Program Op Ret ε α) (f : α → Program Op Ret ε β) (s : σ) :
    (p >>= f).runState handler s =
      match p.runState handler s with
      | (.ok a, s') => (f a).runState handler s'
      | (.error e, s') => (.error e, s') := by
  induction p generalizing s with
  | done r => cases r <;> rfl
  | call op k ih => exact ih _ _

theorem runState_tryCatch (p : Program Op Ret ε α) (h : ε → Program Op Ret ε α) (s : σ) :
    (tryCatch p h).runState handler s =
      match p.runState handler s with
      | (.ok a, s') => (.ok a, s')
      | (.error e, s') => (h e).runState handler s' := by
  induction p generalizing s with
  | done r => cases r <;> rfl
  | call op k ih => exact ih _ _

end RunState

end Program
end Interaction

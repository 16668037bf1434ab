import Parmana.Interaction.Concurrent
import Mathlib.Data.List.Forall2

/-! # Sessions one after another

A program that is stopped leaves the state its calls have made so far, and another program
is started there: a request that dies halfway and is repaired, perhaps by a repair that
dies too.  A `Session` is one program taken as far as it goes, to its end or to one of its
calls, and `Sessions` are any number of sessions of one program, each started where the
last one stopped.

Both have one rule.  If what a program ensures at each of its calls is enough for the call
to keep an invariant, the invariant holds wherever a session stops (`Session.invariant`),
and if every session can be started in a state of the invariant, it holds after any number
of them (`Sessions.invariant`).
-/
namespace Interaction
open Program

universe u

variable {Op : Type} {Ret : Op → Type} {ε α β : Type} {σ : Type u}
  {sem : σ → Event Op Ret ε → σ → Prop} {pre : σ → Op → Prop}

/-- Started in `s` and answered as in `t`, the program `p` has become `q`, in the state
`s'`. -/
structure Session (sem : σ → Event Op Ret ε → σ → Prop) (p : Program Op Ret ε α) (s : σ)
    (t : List (Event Op Ret ε)) (q : Program Op Ret ε α) (s' : σ) : Prop where
  steps : Steps p t q
  answered : Along sem s t s'

/-- Sessions of `p`, one after another. -/
inductive Sessions (sem : σ → Event Op Ret ε → σ → Prop) (p : Program Op Ret ε α) :
    σ → List (Event Op Ret ε) → σ → Prop where
  | nil (s) : Sessions sem p s [] s
  | next {s t s₁ t' q s'} (before : Sessions sem p s t s₁) (session : Session sem p s₁ t' q s') :
    Sessions sem p s (t ++ t') s'

section Rules
variable {p q : Program Op Ret ε α} {s s' : σ} {t : List (Event Op Ret ε)}
  {post : σ → Except ε α → Prop}

/-- What is left of a program ensures what the program did. -/
theorem Session.ensures (h : Session sem p s t q s') (hp : p.Ensures sem pre post s) :
    q.Ensures sem pre post s' := by
  obtain ⟨hsteps, hanswered⟩ := h
  induction hsteps generalizing s with
  | refl p =>
    cases hanswered
    exact hp
  | call _ ih =>
    cases hanswered with
    | cons hsem ht => exact ih (hp.2 _ _ hsem) ht

/-- A session that finishes meets the postcondition. -/
theorem Session.finished {r : Except ε α} (h : Session sem p s t (.done r) s')
    (hp : p.Ensures sem pre post s) : post s' r :=
  h.ensures hp

/-- **An invariant that holds at the start holds where a session stops.** -/
theorem Session.invariant {I : List (Event Op Ret ε) → σ → Prop} (log : List (Event Op Ret ε))
    (h : Session sem p s t q s') (hp : p.Ensures sem pre post s) (hI : I log s)
    (step : ∀ log s e s', I log s → pre s e.1 → sem s e s' → I (log ++ [e]) s') :
    I (log ++ t) s' := by
  obtain ⟨hsteps, hanswered⟩ := h
  induction hsteps generalizing s log with
  | refl p =>
    cases hanswered
    rwa [List.append_nil]
  | call _ ih =>
    cases hanswered with
    | cons hsem ht =>
      have hnext := ih _ (hp.2 _ _ hsem) (step _ _ _ _ hI hp.1 hsem) ht
      rwa [List.append_assoc] at hnext

/-- **An invariant that lets every session start holds after any number of them.** -/
theorem Sessions.invariant {I : List (Event Op Ret ε) → σ → Prop} (log : List (Event Op Ret ε))
    (h : Sessions sem p s t s') (hp : ∀ log s, I log s → p.Ensures sem pre post s)
    (hI : I log s)
    (step : ∀ log s e s', I log s → pre s e.1 → sem s e s' → I (log ++ [e]) s') :
    I (log ++ t) s' := by
  induction h with
  | nil => rwa [List.append_nil]
  | next _ session ih =>
    rw [← List.append_assoc]
    exact session.invariant _ (hp _ _ ih) ih step

/-- Where more answers are allowed a session stays a session. -/
theorem Session.mono {sem' : σ → Event Op Ret ε → σ → Prop} (h : Session sem p s t q s')
    (hsem : ∀ s, ∀ e ∈ t, ∀ s', sem s e s' → sem' s e s') : Session sem' p s t q s' := by
  refine ⟨h.steps, ?_⟩
  have hanswered := h.answered
  clear h
  induction hanswered with
  | nil => exact .nil _
  | cons hs _ ih =>
    refine .cons (hsem _ _ List.mem_cons_self _ hs) (ih fun s e he => ?_)
    exact hsem s e (List.mem_cons_of_mem _ he)

end Rules

/-! ## Values a program can return -/

namespace Program

/-- However its calls are answered, `p` returns only values that satisfy `Q`. -/
def Returns (Q : α → Prop) : Program Op Ret ε α → Prop
  | .done r => ∀ a, r = .ok a → Q a
  | .call _ k => ∀ ans, (k ans).Returns Q

section Returns
variable {Q : α → Prop} {p : Program Op Ret ε α}

theorem returns_pure {a : α} (h : Q a) : (pure a : Program Op Ret ε α).Returns Q := by
  rintro b ⟨⟩
  exact h

theorem returns_throw {e : ε} : (throw e : Program Op Ret ε α).Returns Q := by
  rintro b ⟨⟩

/-- What a sequence returns its last part returns. -/
theorem Returns.bind {Q : β → Prop} {f : α → Program Op Ret ε β} (hf : ∀ a, (f a).Returns Q) :
    (p >>= f).Returns Q := by
  induction p with
  | done r =>
    rcases r with e | a
    · rintro b ⟨⟩
    · exact hf a
  | call op k ih => exact fun ans => ih ans

theorem Returns.bind_of {Q' : β → Prop} {f : α → Program Op Ret ε β} (h : p.Returns Q)
    (hf : ∀ a, Q a → (f a).Returns Q') : (p >>= f).Returns Q' := by
  induction p with
  | done r =>
    rcases r with e | a
    · rintro b ⟨⟩
    · exact hf a (h a rfl)
  | call op k ih => exact fun ans => ih ans (h ans)

theorem Returns.tryCatch {handler : ε → Program Op Ret ε α} (h : p.Returns Q)
    (hh : ∀ e, (handler e).Returns Q) : (MonadExcept.tryCatch p handler).Returns Q := by
  induction p with
  | done r =>
    rcases r with e | a
    · exact hh e
    · exact h
  | call op k ih => exact fun ans => ih ans (h ans)

/-- A value that is returned satisfies `Q`, whatever else is ensured. -/
theorem Ensures.returns {post : σ → Except ε α → Prop} {s : σ} (h : p.Ensures sem pre post s)
    (hQ : p.Returns Q) :
    p.Ensures sem pre (fun s' r => post s' r ∧ ∀ a, r = .ok a → Q a) s := by
  induction p generalizing s with
  | done r => exact ⟨h, hQ⟩
  | call op k ih => exact ⟨h.1, fun ans s' hs => ih ans (h.2 ans s' hs) (hQ ans)⟩

/-- A program that is followed, and what it returns. -/
theorem Traced.returns {pre : List (Event Op Ret ε) → Op → Prop}
    {R : α → List (Event Op Ret ε) → Prop} {t : List (Event Op Ret ε)} (h : Traced pre p R t)
    (hQ : p.Returns Q) : Traced pre p (fun a t' => R a t' ∧ Q a) t :=
  (Ensures.returns h hQ).mono fun _ _ hr a ha => ⟨hr.1 a ha, hr.2 a ha⟩

end Returns

/-! ## Programs among the calls of a larger system -/

section Relabel
variable {Op' : Type} {Ret' : Op' → Type} {f : Op → Op'} {g : ∀ op, Ret' (f op) → Ret op}
  {sem' : σ → Event Op' Ret' ε → σ → Prop} {pre' : σ → Op' → Prop}

theorem only_relabel {S : Op' → Prop} {p : Program Op Ret ε α} (h : ∀ op, S (f op)) :
    (p.relabel f g).Only S := by
  induction p with
  | done r => trivial
  | call op k ih => exact ⟨h op, fun ans => ih _⟩

/-- **A relabelled program ensures what the program does** where its calls are answered as
the larger system answers them. -/
theorem ensures_relabel {p : Program Op Ret ε α} {post : σ → Except ε α → Prop} {s : σ} :
    (p.relabel f g).Ensures sem' pre' post s ↔
      p.Ensures (fun s e s' => ∃ ans, ans.map (g e.1) = e.2 ∧ sem' s ⟨f e.1, ans⟩ s')
        (fun s op => pre' s (f op)) post s := by
  induction p generalizing s with
  | done r => exact Iff.rfl
  | call op k ih =>
    refine and_congr_right fun _ => ⟨fun h ans s' hs => ?_, fun h ans s' hs => ?_⟩
    · obtain ⟨ans', hans, hs⟩ := hs
      rw [← show ans'.map (g op) = ans from hans]
      exact (ih _).mp (h ans' s' hs)
    · exact (ih _).mpr (h _ s' ⟨ans, rfl, hs⟩)

end Relabel

section Traced
variable {Op' : Type} {Ret' : Op' → Type} {f : Op → Op'} {g : ∀ op, Ret' (f op) → Ret op}

theorem relabel_bind (p : Program Op Ret ε α) (h : α → Program Op Ret ε β) :
    (p >>= h).relabel f g = p.relabel f g >>= fun a => (h a).relabel f g := by
  induction p with
  | done r => cases r <;> rfl
  | call op k ih => exact congrArg (Program.call (f op)) (funext fun ans => ih _)

variable {pre : List (Event Op' Ret' ε) → Op' → Prop} {t : List (Event Op' Ret' ε)}

theorem Traced.relabel_perform {op : Op} {R : Ret op → List (Event Op' Ret' ε) → Prop}
    (hpre : pre t (f op)) (h : ∀ a, R (g op a) (t ++ [⟨f op, .ok a⟩])) :
    Traced pre ((Program.perform op : Program Op Ret ε (Ret op)).relabel f g) R t := by
  refine ⟨hpre, ?_⟩
  rintro (e | a) _ rfl
  · rintro b ⟨⟩
  · rintro b ⟨⟩
    exact h a

/-- An event of a program, as the larger system sees it. -/
def Lifts (f : Op → Op') (g : ∀ op, Ret' (f op) → Ret op) (e : Event Op Ret ε)
    (e' : Event Op' Ret' ε) : Prop :=
  ∃ ans, e' = ⟨f e.1, ans⟩ ∧ ans.map (g e.1) = e.2

theorem Lifts.exists_mem {t₀ : List (Event Op Ret ε)} {t₁ : List (Event Op' Ret' ε)}
    {e : Event Op Ret ε} (h : List.Forall₂ (Lifts f g) t₀ t₁) (he : e ∈ t₀) :
    ∃ e' ∈ t₁, Lifts f g e e' := by
  induction h with
  | nil => cases he
  | cons hlifts _ ih =>
    rcases List.mem_cons.mp he with rfl | he
    · exact ⟨_, List.mem_cons_self, hlifts⟩
    · obtain ⟨e', he', hlifts'⟩ := ih he
      exact ⟨e', List.mem_cons_of_mem _ he', hlifts'⟩

/-- **What is followed in a program is followed in the larger system.** -/
theorem Traced.relabel {p : Program Op Ret ε α} {pre₀ : List (Event Op Ret ε) → Op → Prop}
    {R : α → List (Event Op Ret ε) → Prop} (h : Traced pre₀ p R [])
    (hpre : ∀ t₀ t₁ op, List.Forall₂ (Lifts f g) t₀ t₁ → pre₀ t₀ op → pre (t ++ t₁) (f op)) :
    Traced pre (p.relabel f g)
      (fun a t' => ∃ t₀ t₁, t' = t ++ t₁ ∧ List.Forall₂ (Lifts f g) t₀ t₁ ∧ R a t₀) t := by
  have hfollow : ∀ (p : Program Op Ret ε α) t₀ t₁, List.Forall₂ (Lifts f g) t₀ t₁ →
      Traced pre₀ p R t₀ → Traced pre (p.relabel f g)
        (fun a t' => ∃ t₀ t₁, t' = t ++ t₁ ∧ List.Forall₂ (Lifts f g) t₀ t₁ ∧ R a t₀)
        (t ++ t₁) := by
    intro p
    induction p with
    | done r =>
      rintro t₀ t₁ hlifts h a rfl
      exact ⟨t₀, t₁, rfl, hlifts, h a rfl⟩
    | call op k ih =>
      rintro t₀ t₁ hlifts h
      refine ⟨hpre t₀ t₁ op hlifts h.1, ?_⟩
      rintro ans _ rfl
      have hnext : List.Forall₂ (Lifts f g) (t₀ ++ [⟨op, ans.map (g op)⟩]) (t₁ ++ [⟨f op, ans⟩]) :=
        List.rel_append hlifts (.cons ⟨ans, rfl, rfl⟩ .nil)
      rw [List.append_assoc]
      exact ih _ _ _ hnext (h.2 _ _ rfl)
  have hstart := hfollow p [] [] .nil h
  rwa [List.append_nil] at hstart

/-- A relabelled call, and what is done with its answer. -/
theorem Traced.relabel_bind_perform {op : Op} {h : Ret op → Program Op Ret ε β}
    {R : β → List (Event Op' Ret' ε) → Prop} (hpre : pre t (f op))
    (hh : ∀ a, Traced pre ((h (g op a)).relabel f g) R (t ++ [⟨f op, .ok a⟩])) :
    Traced pre ((Program.perform op >>= h).relabel f g) R t := by
  refine ⟨hpre, ?_⟩
  rintro (e | a) _ rfl
  · rintro b ⟨⟩
  · exact hh a

end Traced

/-! ## Stopping a program -/

section Halted
variable (handler : (op : Op) → σ → Except ε (Ret op) × σ)

/-- The program after at most `n` calls, each answered by a handler: the events, what is
left of it, and the state. -/
def halted : Nat → Program Op Ret ε α → σ →
    List (Event Op Ret ε) × Program Op Ret ε α × σ
  | 0, p, s => ([], p, s)
  | _ + 1, .done r, s => ([], .done r, s)
  | n + 1, .call op k, s =>
    let (t, q, s') := halted n (k (handler op s).1) (handler op s).2
    (⟨op, (handler op s).1⟩ :: t, q, s')

theorem session_halted (hhandler : ∀ op s, sem s ⟨op, (handler op s).1⟩ (handler op s).2) (n : Nat)
    (p : Program Op Ret ε α) (s : σ) :
    Session sem p s (p.halted handler n s).1 (p.halted handler n s).2.1
      (p.halted handler n s).2.2 := by
  induction n generalizing p s with
  | zero => exact ⟨.refl _, .nil _⟩
  | succ n ih =>
    cases p with
    | done r => exact ⟨.refl _, .nil _⟩
    | call op k =>
      obtain ⟨hsteps, hanswered⟩ := ih (k (handler op s).1) (handler op s).2
      exact ⟨.call hsteps, .cons (hhandler op s) hanswered⟩

end Halted
end Program
end Interaction

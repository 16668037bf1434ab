import Parmana.Interaction.History
import Mathlib.Data.List.Basic
import Mathlib.Logic.Function.Basic

/-! # Programs running side by side

A pool holds one program per thread and the state their calls share.  One step
of a pool answers the pending call of one thread: between calls a thread is not
interrupted, and at a call any thread may be the next to move, so the logs of a
pool are the interleavings of its programs at their `await` points.

Two ways to reason about a pool are given.  `Exec.steps_of_thread` reads one
thread's own events out of the log: what is known of a program alone is known of
it in any company.  `Exec.safe` is a rely–guarantee rule: if every thread meets
the obligations at its own calls however the others move the state within the
rely, and a call that meets its obligation stays within the rely and keeps an
invariant, then the invariant holds in every state reached.
-/
namespace Interaction
open Program

universe u

variable {ι : Type} {Op : Type} {Ret : Op → Type} {ε : Type} {α : ι → Type} {σ : Type u}

/-- One program per thread, over a shared state. -/
structure Pool (Op : Type) (Ret : Op → Type) (ε : Type) (α : ι → Type) (σ : Type u) where
  threads : (i : ι) → Program Op Ret ε (α i)
  state : σ

variable [DecidableEq ι]

/-- The pool after thread `i` has been answered. -/
def Pool.advance (P : Pool Op Ret ε α σ) (i : ι) (p : Program Op Ret ε (α i)) (s : σ) :
    Pool Op Ret ε α σ :=
  ⟨Function.update P.threads i p, s⟩

@[simp] theorem Pool.advance_state (P : Pool Op Ret ε α σ) (i : ι) (p : Program Op Ret ε (α i))
    (s : σ) : (P.advance i p s).state = s := rfl

@[simp] theorem Pool.advance_self (P : Pool Op Ret ε α σ) (i : ι) (p : Program Op Ret ε (α i))
    (s : σ) : (P.advance i p s).threads i = p := Function.update_self ..

theorem Pool.advance_of_ne (P : Pool Op Ret ε α σ) {i j : ι} (h : j ≠ i)
    (p : Program Op Ret ε (α i)) (s : σ) : (P.advance i p s).threads j = P.threads j :=
  Function.update_of_ne h ..

/-- `Exec sem P log Q`: the pool `P` becomes `Q` by the calls in `log`, each
tagged with the thread that made it and answered within `sem`. -/
inductive Exec (sem : σ → Event Op Ret ε → σ → Prop) :
    Pool Op Ret ε α σ → List (ι × Event Op Ret ε) → Pool Op Ret ε α σ → Prop where
  | refl (P) : Exec sem P [] P
  | step {P log Q i op k ans s'} (h : Exec sem P log Q) (hi : Q.threads i = .call op k)
      (hs : sem Q.state ⟨op, ans⟩ s') :
      Exec sem P (log ++ [(i, ⟨op, ans⟩)]) (Q.advance i (k ans) s')

/-- Thread `i`'s own events. -/
def eventsOf (i : ι) (log : List (ι × Event Op Ret ε)) : List (Event Op Ret ε) :=
  (log.filter (fun x => x.1 = i)).map Prod.snd

theorem eventsOf_append_self (i : ι) (log : List (ι × Event Op Ret ε)) (e : Event Op Ret ε) :
    eventsOf i (log ++ [(i, e)]) = eventsOf i log ++ [e] := by
  simp [eventsOf]

theorem eventsOf_append_other {i j : ι} (h : j ≠ i) (log : List (ι × Event Op Ret ε))
    (e : Event Op Ret ε) : eventsOf i (log ++ [(j, e)]) = eventsOf i log := by
  simp [eventsOf, h]

/-- Where a thread's own events are split, the log can be. -/
theorem eventsOf_split {i : ι} {log : List (ι × Event Op Ret ε)} {u v : List (Event Op Ret ε)}
    {e : Event Op Ret ε} (h : eventsOf i log = u ++ e :: v) :
    ∃ before after, log = before ++ (i, e) :: after ∧ eventsOf i before = u ∧
      eventsOf i after = v := by
  induction log generalizing u with
  | nil => cases u <;> cases h
  | cons x log ih =>
    obtain ⟨j, e'⟩ := x
    by_cases hj : j = i
    · subst hj
      have hcons : eventsOf j ((j, e') :: log) = e' :: eventsOf j log := by simp [eventsOf]
      rw [hcons] at h
      cases u with
      | nil =>
        cases h
        exact ⟨[], log, rfl, rfl, rfl⟩
      | cons e₁ u =>
        obtain ⟨rfl, htail⟩ := List.cons.inj h
        obtain ⟨before, after, rfl, hbefore, hafter⟩ := ih htail
        refine ⟨(j, e') :: before, after, rfl, ?_, hafter⟩
        simp [eventsOf, ← hbefore]
    · have hcons : ∀ l, eventsOf i ((j, e') :: l) = eventsOf i l := by simp [eventsOf, hj]
      rw [hcons] at h
      obtain ⟨before, after, rfl, hbefore, hafter⟩ := ih h
      exact ⟨(j, e') :: before, after, rfl, (hcons _).trans hbefore, hafter⟩

theorem mem_eventsOf {i : ι} {log : List (ι × Event Op Ret ε)} {e : Event Op Ret ε} :
    e ∈ eventsOf i log ↔ (i, e) ∈ log := by
  simp [eventsOf]

omit [DecidableEq ι] in
theorem Program.Steps.snoc {β : Type} {p : Program Op Ret ε β} {t : List (Event Op Ret ε)}
    {op : Op} {k : Except ε (Ret op) → Program Op Ret ε β} (ans : Except ε (Ret op))
    (h : Steps p t (.call op k)) : Steps p (t ++ [⟨op, ans⟩]) (k ans) := by
  generalize hq : Program.call op k = q at h
  induction h with
  | refl q =>
    subst hq
    exact .call (.refl _)
  | call _ ih => exact .call (ih hq)

/-- Calls answered by a handler, each a block of code that runs without a pause. -/
def Handled (handler : (op : Op) → σ → Except ε (Ret op) × σ) (s : σ) (e : Event Op Ret ε)
    (s' : σ) : Prop := handler e.1 s = (e.2, s')

/-- `Along sem s t s'`: the calls in `t` are answered within `sem` and take `s` to
`s'`. -/
inductive Along (sem : σ → Event Op Ret ε → σ → Prop) : σ → List (Event Op Ret ε) → σ → Prop where
  | nil (s) : Along sem s [] s
  | cons {s e s₁ t s'} (h : sem s e s₁) (ht : Along sem s₁ t s') : Along sem s (e :: t) s'

namespace Exec

variable {sem : σ → Event Op Ret ε → σ → Prop} {P Q : Pool Op Ret ε α σ}
  {log : List (ι × Event Op Ret ε)}

/-- **In company a thread does what it can do alone**: its own events are steps
of its own program. -/
theorem steps_of_thread (h : Exec sem P log Q) (i : ι) :
    Steps (P.threads i) (eventsOf i log) (Q.threads i) := by
  induction h with
  | refl => exact .refl _
  | @step log Q j op k ans s' _ hj _ ih =>
    by_cases hij : j = i
    · subst hij
      rw [eventsOf_append_self, Pool.advance_self]
      rw [hj] at ih
      exact ih.snoc ans
    · rw [eventsOf_append_other hij, Pool.advance_of_ne _ (Ne.symm hij)]
      exact ih

/-- A run stays a run where more answers are allowed. -/
theorem mono {sem' : σ → Event Op Ret ε → σ → Prop} (h : Exec sem P log Q)
    (hsem : ∀ s e s', sem s e s' → sem' s e s') : Exec sem' P log Q := by
  induction h with
  | refl => exact .refl _
  | step _ hi hs ih => exact ih.step hi (hsem _ _ _ hs)

/-- A run can be taken further. -/
theorem append {R : Pool Op Ret ε α σ} {log' : List (ι × Event Op Ret ε)} (h : Exec sem P log Q)
    (h' : Exec sem Q log' R) : Exec sem P (log ++ log') R := by
  induction h' with
  | refl => rwa [List.append_nil]
  | step _ hi hs ih =>
    rw [← List.append_assoc]
    exact ih.step hi hs

/-- What every call establishes about the events so far and the state holds of
every log. -/
theorem events_induction {I : List (ι × Event Op Ret ε) → σ → Prop} (h : Exec sem P log Q)
    (init : I [] P.state)
    (next : ∀ log s i e s', I log s → sem s e s' → I (log ++ [(i, e)]) s') : I log Q.state := by
  induction h with
  | refl => exact init
  | step _ _ hs ih => exact next _ _ _ _ _ ih hs

/-- **A log can be stopped at any of its events**: what was run before it, the call its
thread was at, how the call was answered, and what is run from there. -/
theorem split {before after : List (ι × Event Op Ret ε)} {i : ι} {op : Op}
    {ans : Except ε (Ret op)} (h : Exec sem P (before ++ (i, ⟨op, ans⟩) :: after) Q) :
    ∃ R k s', Exec sem P before R ∧ R.threads i = .call op k ∧ sem R.state ⟨op, ans⟩ s' ∧
      Exec sem (R.advance i (k ans) s') after Q := by
  generalize hlog : before ++ (i, ⟨op, ans⟩) :: after = log at h
  induction h generalizing after with
  | refl =>
    cases before <;> cases hlog
  | @step log R j op' k' ans' s' hrun hj hs ih =>
    rcases List.eq_nil_or_concat after with rfl | ⟨after, last, rfl⟩
    · obtain ⟨rfl, heq⟩ := List.append_inj' hlog rfl
      cases heq
      exact ⟨R, k', s', hrun, hj, hs, .refl _⟩
    · rw [List.concat_eq_append, ← List.cons_append, ← List.append_assoc] at hlog
      obtain ⟨hinit, heq⟩ := List.append_inj' hlog rfl
      cases heq
      obtain ⟨S, k, s₁, hbefore, hi, hsem, hafter⟩ := ih hinit
      rw [List.concat_eq_append]
      exact ⟨S, k, s₁, hbefore, hi, hsem, hafter.step hj hs⟩

/-- One thread can take some of its steps, while the others wait. -/
theorem advance_thread {i : ι} {t : List (Event Op Ret ε)} {q : Program Op Ret ε (α i)} {s' : σ}
    (h : Exec sem P log Q) (hsteps : Steps (Q.threads i) t q) (hs : Along sem Q.state t s') :
    Exec sem P (log ++ t.map (Prod.mk i)) (Q.advance i q s') := by
  generalize hp : Q.threads i = p at hsteps
  induction hsteps generalizing log Q with
  | refl p =>
    cases hs with
    | nil =>
      have hself : Q.advance i p Q.state = Q := by
        unfold Pool.advance
        rw [← hp, Function.update_eq_self]
      rw [hself, List.map_nil, List.append_nil]
      exact h
  | @call op k ans t q hrest ih =>
    cases hs with
    | @cons _ _ s₁ _ _ hsem htail =>
      have hnext := ih (h.step hp hsem) htail (Pool.advance_self ..)
      rw [List.append_assoc] at hnext
      have hidem : (Q.advance i (k ans) s₁).advance i q s' = Q.advance i q s' := by
        unfold Pool.advance
        rw [Function.update_idem]
      rw [hidem] at hnext
      exact hnext

/-- One thread can be run to its end against a handler that answers within
`sem`, while the others wait. -/
theorem run_thread (handler : (op : Op) → σ → Except ε (Ret op) × σ)
    (hhandler : ∀ op s, sem s ⟨op, (handler op s).1⟩ (handler op s).2) (i : ι)
    (h : Exec sem P log Q) :
    ∃ Q', Exec sem P (log ++ ((Q.threads i).events handler Q.state).map (Prod.mk i)) Q' ∧
      Q'.threads i = .done ((Q.threads i).runState handler Q.state).1 ∧
      Q'.state = ((Q.threads i).runState handler Q.state).2 ∧
      ∀ j, j ≠ i → Q'.threads j = Q.threads j := by
  generalize hp : Q.threads i = p
  induction p generalizing log Q with
  | done r =>
    refine ⟨Q, ?_, hp, rfl, fun _ _ => rfl⟩
    rwa [events, List.map_nil, List.append_nil]
  | call op k ih =>
    obtain ⟨Q', hrun, hdone, hstate, hothers⟩ :=
      ih (handler op Q.state).1 (h.step hp (hhandler op Q.state)) (Pool.advance_self ..)
    refine ⟨Q', ?_, hdone, hstate, fun j hj => ?_⟩
    · rw [List.append_assoc] at hrun
      exact hrun
    · rw [hothers j hj, Pool.advance_of_ne _ hj]

end Exec

/-! ## Runs whose events meet a condition -/

/-- A run each of whose events meets `C`, a condition on the log before it, the state
it is answered in and the thread that made the call. -/
inductive ExecWhere (sem : σ → Event Op Ret ε → σ → Prop)
    (C : List (ι × Event Op Ret ε) → σ → ι → Event Op Ret ε → Prop) :
    Pool Op Ret ε α σ → List (ι × Event Op Ret ε) → Pool Op Ret ε α σ → Prop where
  | refl (P) : ExecWhere sem C P [] P
  | step {P log Q i op k ans s'} (h : ExecWhere sem C P log Q) (hi : Q.threads i = .call op k)
      (hs : sem Q.state ⟨op, ans⟩ s') (hC : C log Q.state i ⟨op, ans⟩) :
      ExecWhere sem C P (log ++ [(i, ⟨op, ans⟩)]) (Q.advance i (k ans) s')

section Where
variable {sem sem' : σ → Event Op Ret ε → σ → Prop}
  {C C' : List (ι × Event Op Ret ε) → σ → ι → Event Op Ret ε → Prop} {P Q : Pool Op Ret ε α σ}
  {log : List (ι × Event Op Ret ε)}

theorem ExecWhere.exec (h : ExecWhere sem C P log Q) : Exec sem P log Q := by
  induction h with
  | refl => exact .refl _
  | step _ hi hs _ ih => exact ih.step hi hs

/-- Where the condition is one of the state, it can be put among the answers. -/
theorem ExecWhere.within {C : σ → Event Op Ret ε → Prop}
    (h : ExecWhere sem (fun _ s _ e => C s e) P log Q) :
    Exec (fun s e s' => sem s e s' ∧ C s e) P log Q := by
  induction h with
  | refl => exact .refl _
  | step _ hi hs hC ih => exact ih.step hi ⟨hs, hC⟩

theorem Exec.where_true (h : Exec sem P log Q) : ExecWhere sem (fun _ _ _ _ => True) P log Q := by
  induction h with
  | refl => exact .refl _
  | step _ hi hs ih => exact ih.step hi hs trivial

theorem ExecWhere.mono (h : ExecWhere sem C P log Q)
    (hsem : ∀ log s i e s', C log s i e → sem s e s' → sem' s e s')
    (hC : ∀ log s i e, C log s i e → C' log s i e) : ExecWhere sem' C' P log Q := by
  induction h with
  | refl => exact .refl _
  | step _ hi hs h ih => exact ih.step hi (hsem _ _ _ _ _ h hs) (hC _ _ _ _ h)

/-- **An invariant of the log and the state**: it may count on what each thread ensures,
of its own events, at its calls. -/
theorem ExecWhere.induction {pre : ι → List (Event Op Ret ε) → Op → Prop}
    {I : List (ι × Event Op Ret ε) → σ → Prop} (h : ExecWhere sem C P log Q)
    (hthreads : ∀ i, (P.threads i).Ensures history (pre i) (fun _ _ => True) [])
    (init : I [] P.state)
    (next : ∀ log s i e s', I log s → pre i (eventsOf i log) e.1 → C log s i e → sem s e s' →
      I (log ++ [(i, e)]) s') : I log Q.state := by
  induction h with
  | refl => exact init
  | @step log Q i op k ans s' hrun hi hs hC ih =>
    have hsteps := hrun.exec.steps_of_thread i
    rw [hi] at hsteps
    exact next log Q.state i ⟨op, ans⟩ s' ih (pre_of_steps (hthreads i) hsteps) hC hs

end Where

/-! ## Playing a schedule -/

section Play
variable (handler : (op : Op) → σ → Except ε (Ret op) × σ)

/-- One thread is answered by the handler. -/
def Pool.serve (P : Pool Op Ret ε α σ) (i : ι) : Pool Op Ret ε α σ :=
  match P.threads i with
  | .done _ => P
  | .call op k => P.advance i (k (handler op P.state).1) (handler op P.state).2

/-- The threads are answered in the order of a schedule. -/
def Pool.play (P : Pool Op Ret ε α σ) : List ι → Pool Op Ret ε α σ
  | [] => P
  | i :: schedule => (P.serve handler i).play schedule

/-- Each call of the schedule is answered within `C`. -/
def Pool.Meets (C : σ → Event Op Ret ε → σ → Prop) (P : Pool Op Ret ε α σ) : List ι → Prop
  | [] => True
  | i :: schedule =>
    (match P.threads i with
      | .done _ => True
      | .call op _ => C P.state ⟨op, (handler op P.state).1⟩ (handler op P.state).2) ∧
    (P.serve handler i).Meets C schedule

/-- Whether each call of a schedule is answered within `C` can be computed. -/
instance Pool.decidableMeets (C : σ → Event Op Ret ε → σ → Prop) [∀ s e s', Decidable (C s e s')] :
    ∀ (schedule : List ι) (P : Pool Op Ret ε α σ), Decidable (P.Meets handler C schedule)
  | [], _ => .isTrue trivial
  | i :: schedule, P =>
    have met : ∀ p : Program Op Ret ε (α i), Decidable (match p with
        | .done _ => True
        | .call op _ => C P.state ⟨op, (handler op P.state).1⟩ (handler op P.state).2) :=
      fun
      | .done _ => .isTrue trivial
      | .call _ _ => inferInstance
    @instDecidableAnd _ _ (met (P.threads i)) (decidableMeets C schedule _)

/-- Whether a program has finished with a value. -/
def Program.succeeded {β : Type} : Program Op Ret ε β → Bool
  | .done (.ok _) => true
  | _ => false

omit [DecidableEq ι] in
theorem Program.succeeded_iff {β : Type} {p : Program Op Ret ε β} :
    p.succeeded = true ↔ ∃ a, p = .done (.ok a) := by
  cases p with
  | done r => cases r <;> simp [succeeded]
  | call op k => simp [succeeded]

/-- The call a thread is answered, with its answer. -/
def Pool.served (P : Pool Op Ret ε α σ) (i : ι) : List (ι × Event Op Ret ε) :=
  match P.threads i with
  | .done _ => []
  | .call op _ => [(i, ⟨op, (handler op P.state).1⟩)]

/-- The calls of a schedule. -/
def Pool.script (P : Pool Op Ret ε α σ) : List ι → List (ι × Event Op Ret ε)
  | [] => []
  | i :: schedule => P.served handler i ++ (P.serve handler i).script schedule

/-- **A schedule is a run.** -/
theorem Exec.play {C : σ → Event Op Ret ε → σ → Prop} {P : Pool Op Ret ε α σ} (schedule : List ι)
    (h : P.Meets handler C schedule) :
    Exec (fun s e s' => Handled handler s e s' ∧ C s e s') P (P.script handler schedule)
      (P.play handler schedule) := by
  have hplay : ∀ (schedule : List ι) (log : List (ι × Event Op Ret ε)) (Q : Pool Op Ret ε α σ),
      Exec (fun s e s' => Handled handler s e s' ∧ C s e s') P log Q → Q.Meets handler C schedule →
        Exec (fun s e s' => Handled handler s e s' ∧ C s e s') P (log ++ Q.script handler schedule)
          (Q.play handler schedule) := by
    intro schedule
    induction schedule with
    | nil =>
      intro log Q h _
      rw [Pool.script, List.append_nil]
      exact h
    | cons i schedule ih =>
      rintro log Q h ⟨hC, hrest⟩
      unfold Pool.serve at hrest
      rw [Pool.play, Pool.script, Pool.serve, Pool.served, ← List.append_assoc]
      cases hi : Q.threads i with
      | done r =>
        rw [hi] at hrest
        dsimp only
        rw [List.append_nil]
        exact ih log Q h hrest
      | call op k =>
        rw [hi] at hC hrest
        exact ih _ _ (h.step hi ⟨rfl, hC⟩) hrest
  exact hplay schedule [] P (.refl P) h

/-- Each call of the schedule meets `C`, after the events in `log`. -/
def Pool.MeetsWhere (C : List (ι × Event Op Ret ε) → σ → ι → Event Op Ret ε → Prop) :
    List (ι × Event Op Ret ε) → Pool Op Ret ε α σ → List ι → Prop
  | _, _, [] => True
  | log, P, i :: schedule =>
    (∀ e ∈ P.served handler i, C log P.state i e.2) ∧
      MeetsWhere C (log ++ P.served handler i) (P.serve handler i) schedule

instance Pool.decidableMeetsWhere (C : List (ι × Event Op Ret ε) → σ → ι → Event Op Ret ε → Prop)
    [∀ log s i e, Decidable (C log s i e)] :
    ∀ (schedule : List ι) (log : List (ι × Event Op Ret ε)) (P : Pool Op Ret ε α σ),
      Decidable (P.MeetsWhere handler C log schedule)
  | [], _, _ => .isTrue trivial
  | _ :: schedule, _, _ =>
    @instDecidableAnd _ _ inferInstance (decidableMeetsWhere C schedule _ _)

/-- **A schedule is a run**, where its calls meet the condition. -/
theorem ExecWhere.play {C : List (ι × Event Op Ret ε) → σ → ι → Event Op Ret ε → Prop}
    {P : Pool Op Ret ε α σ} (schedule : List ι) (h : P.MeetsWhere handler C [] schedule) :
    ExecWhere (Handled handler) C P (P.script handler schedule) (P.play handler schedule) := by
  have hplay : ∀ (schedule : List ι) (log : List (ι × Event Op Ret ε)) (Q : Pool Op Ret ε α σ),
      ExecWhere (Handled handler) C P log Q → Q.MeetsWhere handler C log schedule →
        ExecWhere (Handled handler) C P (log ++ Q.script handler schedule)
          (Q.play handler schedule) := by
    intro schedule
    induction schedule with
    | nil =>
      intro log Q h _
      rw [Pool.script, List.append_nil]
      exact h
    | cons i schedule ih =>
      rintro log Q h ⟨hC, hrest⟩
      rw [Pool.play, Pool.script, ← List.append_assoc]
      refine ih _ _ ?_ hrest
      unfold Pool.served at hC ⊢
      unfold Pool.serve
      cases hi : Q.threads i with
      | done r =>
        dsimp only
        rw [List.append_nil]
        exact h
      | call op k =>
        rw [hi] at hC
        exact h.step hi rfl (hC _ (List.mem_singleton_self _))
  exact hplay schedule [] P (.refl P) h

/-- Nothing need be met. -/
theorem Pool.meets_true (P : Pool Op Ret ε α σ) (schedule : List ι) :
    P.Meets handler (fun _ _ _ => True) schedule := by
  induction schedule generalizing P with
  | nil => trivial
  | cons i schedule ih =>
    refine ⟨?_, ih _⟩
    split
    · trivial
    · trivial

end Play

/-! ## Rely and guarantee -/

/-- The answers a thread can get when others move the state within `rely`
before its call is served. -/
def Under (rely : σ → σ → Prop) (sem : σ → Event Op Ret ε → σ → Prop) :
    σ → Event Op Ret ε → σ → Prop :=
  fun s e s' => ∃ s₁, rely s s₁ ∧ sem s₁ e s'

section Rely
variable {rely : σ → σ → Prop} {sem : σ → Event Op Ret ε → σ → Prop} {pre : σ → Op → Prop}

omit [DecidableEq ι] in
/-- What a thread ensures survives the moves of the others. -/
theorem Program.Ensures.stable {β : Type} {p : Program Op Ret ε β}
    {post : σ → Except ε β → Prop} {s s' : σ}
    (trans : ∀ a b c, rely a b → rely b c → rely a c)
    (hpre : ∀ a b op, rely a b → pre a op → pre b op)
    (hpost : ∀ a b r, rely a b → post a r → post b r)
    (hs : rely s s') (h : p.Ensures (Under rely sem) pre post s) :
    p.Ensures (Under rely sem) pre post s' := by
  cases p with
  | done r => exact hpost s s' r hs h
  | call op k =>
    refine ⟨hpre s s' op hs h.1, ?_⟩
    rintro ans s'' ⟨s₁, hs₁, hsem⟩
    exact h.2 ans s'' ⟨s₁, trans _ _ _ hs hs₁, hsem⟩

/-- **The rely–guarantee rule**, where each thread has a rely and obligations of its own.  The
invariant is of the log and the state; a thread may count on it at each of its answers.  What a
thread ensures of its result stays true while the others move. -/
theorem Exec.ensures_each {P Q : Pool Op Ret ε α σ} {log : List (ι × Event Op Ret ε)}
    {rely : ι → σ → σ → Prop} {pre : ι → σ → Op → Prop}
    {I : List (ι × Event Op Ret ε) → σ → Prop} {post : (i : ι) → σ → Except ε (α i) → Prop}
    (h : Exec sem P log Q)
    (refl : ∀ i s, rely i s s) (trans : ∀ i a b c, rely i a b → rely i b c → rely i a c)
    (hpre : ∀ i a b op, rely i a b → pre i a op → pre i b op)
    (hpost : ∀ i a b r, rely i a b → post i a r → post i b r)
    (guarantee : ∀ log s i e s', I log s → pre i s e.1 → sem s e s' →
      (∀ j, j ≠ i → rely j s s') ∧ I (log ++ [(i, e)]) s')
    (hI : I [] P.state)
    (hthreads : ∀ i, (P.threads i).Ensures
      (Under (rely i) (fun s e s' => (∃ log, I log s) ∧ sem s e s')) (pre i) (post i) P.state) :
    I log Q.state ∧ ∀ i, (Q.threads i).Ensures
      (Under (rely i) (fun s e s' => (∃ log, I log s) ∧ sem s e s')) (pre i) (post i) Q.state := by
  induction h with
  | refl => exact ⟨hI, hthreads⟩
  | @step log Q i op k ans s' _ hi hs ih =>
    obtain ⟨hIQ, hQ⟩ := ih
    have hcall := hQ i
    rw [hi] at hcall
    obtain ⟨hr, hI'⟩ := guarantee log Q.state i ⟨op, ans⟩ s' hIQ hcall.1 hs
    refine ⟨hI', fun j => ?_⟩
    by_cases hij : j = i
    · subst hij
      rw [Pool.advance_self, Pool.advance_state]
      exact hcall.2 ans s' ⟨Q.state, refl _ _, ⟨log, hIQ⟩, hs⟩
    · rw [Pool.advance_of_ne _ hij, Pool.advance_state]
      exact (hQ j).stable (trans j) (hpre j) (hpost j) (hr j hij)

/-- The rule with one rely and the same obligations for all. -/
theorem Exec.ensures {P Q : Pool Op Ret ε α σ} {log : List (ι × Event Op Ret ε)}
    {I : List (ι × Event Op Ret ε) → σ → Prop} {post : (i : ι) → σ → Except ε (α i) → Prop}
    (h : Exec sem P log Q)
    (refl : ∀ s, rely s s) (trans : ∀ a b c, rely a b → rely b c → rely a c)
    (hpre : ∀ a b op, rely a b → pre a op → pre b op)
    (hpost : ∀ i a b r, rely a b → post i a r → post i b r)
    (guarantee : ∀ log s i e s', I log s → pre s e.1 → sem s e s' →
      rely s s' ∧ I (log ++ [(i, e)]) s')
    (hI : I [] P.state)
    (hthreads : ∀ i, (P.threads i).Ensures
      (Under rely (fun s e s' => (∃ log, I log s) ∧ sem s e s')) pre (post i) P.state) :
    I log Q.state ∧ ∀ i, (Q.threads i).Ensures
      (Under rely (fun s e s' => (∃ log, I log s) ∧ sem s e s')) pre (post i) Q.state :=
  h.ensures_each (fun _ => refl) (fun _ => trans) (fun _ => hpre) hpost
    (fun log s i e s' hI hp hs =>
      have hmoved := guarantee log s i e s' hI hp hs
      ⟨fun _ _ => hmoved.1, hmoved.2⟩)
    hI hthreads

/-- The rule where nothing is asked of the results. -/
theorem Exec.safe {P Q : Pool Op Ret ε α σ} {log : List (ι × Event Op Ret ε)}
    {I : List (ι × Event Op Ret ε) → σ → Prop} (h : Exec sem P log Q)
    (refl : ∀ s, rely s s) (trans : ∀ a b c, rely a b → rely b c → rely a c)
    (hpre : ∀ a b op, rely a b → pre a op → pre b op)
    (guarantee : ∀ log s i e s', I log s → pre s e.1 → sem s e s' →
      rely s s' ∧ I (log ++ [(i, e)]) s')
    (hI : I [] P.state)
    (hthreads : ∀ i, (P.threads i).Ensures
      (Under rely (fun s e s' => (∃ log, I log s) ∧ sem s e s')) pre (fun _ _ => True) P.state) :
    I log Q.state ∧ ∀ i, (Q.threads i).Ensures
      (Under rely (fun s e s' => (∃ log, I log s) ∧ sem s e s')) pre (fun _ _ => True) Q.state :=
  h.ensures refl trans hpre (fun _ _ _ _ _ => id) guarantee hI hthreads

end Rely

end Interaction

import Parmana.Interaction.Program

/-! # What a program has done so far

The history of a program is the list of its calls with their answers.  Taken as
the state of a weakest precondition it turns an obligation at a call into a
statement about everything before the call, for every way the calls can be
answered: `pre_of_steps`.  `Traced` is that weakest precondition for programs
that are followed while they succeed, with one rule for each way a program is put
together.

`Only` bounds the calls a program can make, and `Erases` compares a program with
one that leaves some of its calls out: whatever these calls answer, the rest of
the run and its result are the same.
-/
namespace Interaction.Program

universe u

variable {Op : Type} {Ret : Op → Type} {ε α β : Type}

/-- A history grows by each call with its answer. -/
def history (t : List (Event Op Ret ε)) (e : Event Op Ret ε) (t' : List (Event Op Ret ε)) : Prop :=
  t' = t ++ [e]

/-! ## Steps and runs -/

theorem Steps.append {p q r : Program Op Ret ε α} {t t' : List (Event Op Ret ε)}
    (h : Steps p t q) (h' : Steps q t' r) : Steps p (t ++ t') r := by
  induction h with
  | refl => exact h'
  | call _ ih => exact .call (ih h')

/-- A program stops at each of its calls. -/
theorem Steps.split {p q : Program Op Ret ε α} {t t' : List (Event Op Ret ε)} {op : Op}
    {ans : Except ε (Ret op)} (h : Steps p (t ++ ⟨op, ans⟩ :: t') q) :
    ∃ k, Steps p t (.call op k) := by
  induction t generalizing p with
  | nil =>
    cases h with
    | call _ => exact ⟨_, .refl _⟩
  | cons e t ih =>
    cases h with
    | call hrest =>
      obtain ⟨k, hs⟩ := ih hrest
      exact ⟨k, .call hs⟩

/-- A run stops at each of its calls. -/
theorem Runs.split {p : Program Op Ret ε α} {t t' : List (Event Op Ret ε)} {op : Op}
    {ans : Except ε (Ret op)} {r : Except ε α} (h : Runs p (t ++ ⟨op, ans⟩ :: t') r) :
    ∃ k, Steps p t (.call op k) :=
  Steps.split h

/-- A run that makes a call of `S` stops at the first one. -/
theorem Runs.split_first {p : Program Op Ret ε α} {t : List (Event Op Ret ε)} {r : Except ε α}
    {S : Op → Bool} (h : Runs p t r) (hcall : t.any (fun e => S e.1) = true) :
    ∃ op k, S op = true ∧ Steps p (t.takeWhile (fun e => !S e.1)) (.call op k) := by
  induction p generalizing t with
  | done res =>
    rw [(runs_done.mp h).1] at hcall
    exact absurd hcall Bool.false_ne_true
  | call op k ih =>
    obtain ⟨ans, t', rfl, hk⟩ := runs_call.mp h
    by_cases hop : S op = true
    · refine ⟨op, k, hop, ?_⟩
      rw [List.takeWhile_cons_of_neg (by simp [hop])]
      exact .refl _
    · rw [List.any_cons, Bool.or_eq_true, or_iff_right hop] at hcall
      obtain ⟨op', k', hop', hs⟩ := ih ans hk hcall
      refine ⟨op', k', hop', ?_⟩
      rw [List.takeWhile_cons_of_pos (by simpa using hop)]
      exact .call hs

/-- The answers decide the result. -/
theorem Runs.unique {p : Program Op Ret ε α} {t : List (Event Op Ret ε)} {r r' : Except ε α}
    (h : Runs p t r) (h' : Runs p t r') : r = r' := by
  induction p generalizing t with
  | done res =>
    rw [(runs_done.mp h).2, (runs_done.mp h').2]
  | call op k ih =>
    obtain ⟨ans, t₁, rfl, hk⟩ := runs_call.mp h
    obtain ⟨ans', t₂, ht, hk'⟩ := runs_call.mp h'
    cases ht
    exact ih ans hk hk'

section Ensures
variable {pre : List (Event Op Ret ε) → Op → Prop} {p : Program Op Ret ε α}
  {post : List (Event Op Ret ε) → Except ε α → Prop} {t t' : List (Event Op Ret ε)}

theorem ensures_of_steps {q : Program Op Ret ε α} (h : p.Ensures history pre post t)
    (hs : Steps p t' q) : q.Ensures history pre post (t ++ t') := by
  induction hs generalizing t with
  | refl => rwa [List.append_nil]
  | @call op k ans t₁ q _ ih =>
    rw [List.append_cons]
    exact ih (h.2 ans _ rfl)

/-- **What a program ensures at a call holds of the events before the call**,
however they were answered. -/
theorem pre_of_steps {op : Op} {k : Except ε (Ret op) → Program Op Ret ε α}
    (h : p.Ensures history pre post []) (hs : Steps p t (.call op k)) : pre t op :=
  (ensures_of_steps h hs).1

/-- What a program ensures at its calls holds of each of its events. -/
theorem pre_of_mem {q : Program Op Ret ε α} {e : Event Op Ret ε}
    (h : p.Ensures history pre post []) (hs : Steps p t q) (he : e ∈ t) :
    ∃ t₁ t₂, t = t₁ ++ e :: t₂ ∧ pre t₁ e.1 := by
  obtain ⟨t₁, t₂, rfl⟩ := List.append_of_mem he
  obtain ⟨k, hstop⟩ := Steps.split hs
  exact ⟨t₁, t₂, rfl, pre_of_steps h hstop⟩

theorem post_of_runs {r : Except ε α} (h : p.Ensures history pre post []) (hr : Runs p t r) :
    post t r :=
  ensures_of_steps h hr

end Ensures

/-! ## Following a program while it succeeds -/

section Traced
variable {pre : List (Event Op Ret ε) → Op → Prop}

/-- Started after the events `t`, `p` meets `pre` at each of its calls, and when it
succeeds its value and the events satisfy `R`. -/
def Traced (pre : List (Event Op Ret ε) → Op → Prop) (p : Program Op Ret ε α)
    (R : α → List (Event Op Ret ε) → Prop) (t : List (Event Op Ret ε)) : Prop :=
  p.Ensures history pre (fun t' r => ∀ a, r = .ok a → R a t') t

variable {R : α → List (Event Op Ret ε) → Prop} {t : List (Event Op Ret ε)}

theorem Traced.pure {a : α} (h : R a t) : Traced pre (Pure.pure a) R t := by
  rintro _ ⟨⟩
  exact h

theorem Traced.done {x : Except ε α} (h : ∀ a, x = .ok a → R a t) : Traced pre (.done x) R t := h

theorem Traced.throw {e : ε} : Traced pre (throw e : Program Op Ret ε α) R t := by
  rintro a ⟨⟩

theorem Traced.perform {op : Op} {R : Ret op → List (Event Op Ret ε) → Prop} (hpre : pre t op)
    (h : ∀ a, R a (t ++ [⟨op, .ok a⟩])) : Traced pre (perform op) R t := by
  refine ensures_perform.mpr ⟨hpre, ?_⟩
  rintro ans s' rfl a rfl
  exact h a

theorem Traced.mono {p : Program Op Ret ε α} {R' : α → List (Event Op Ret ε) → Prop}
    (h : Traced pre p R t) (hR : ∀ a t', R a t' → R' a t') : Traced pre p R' t :=
  Ensures.mono h (fun t' _ hr a ha => hR a t' (hr a ha))

theorem Traced.bind {p : Program Op Ret ε α} {f : α → Program Op Ret ε β}
    {R' : β → List (Event Op Ret ε) → Prop} (h : Traced pre p R t)
    (hf : ∀ a t', R a t' → Traced pre (f a) R' t') : Traced pre (p >>= f) R' t := by
  refine ensures_bind.mpr (Ensures.mono h ?_)
  rintro t' (_ | a) hr
  · rintro b ⟨⟩
  · exact hf a t' (hr a rfl)

/-- A call, and what is done with its answer. -/
theorem Traced.bind_perform {op : Op} {f : Ret op → Program Op Ret ε β}
    {R : β → List (Event Op Ret ε) → Prop} (hpre : pre t op)
    (hf : ∀ a, Traced pre (f a) R (t ++ [⟨op, .ok a⟩])) :
    Traced pre (Program.perform op >>= f) R t := by
  refine Traced.bind (Traced.perform (R := fun a t' => t' = t ++ [⟨op, .ok a⟩]) hpre fun _ => rfl)
    fun a t' ht => ?_
  rw [ht]
  exact hf a

/-- A computation that makes no call, and what is done with its value. -/
theorem Traced.bind_done {x : Except ε α} {f : α → Program Op Ret ε β}
    {R : β → List (Event Op Ret ε) → Prop} (hf : ∀ a, x = .ok a → Traced pre (f a) R t) :
    Traced pre (Program.done x >>= f) R t := by
  cases x with
  | error e =>
    rintro b ⟨⟩
  | ok a => exact hf a rfl

theorem Traced.tryCatch {p : Program Op Ret ε α} {handler : ε → Program Op Ret ε α}
    (h : Traced pre p R t) (hh : ∀ e t', Traced pre (handler e) R t') :
    Traced pre (MonadExcept.tryCatch p handler) R t := by
  refine ensures_tryCatch.mpr (Ensures.mono h ?_)
  rintro t' (e | a) hr
  · exact hh e t'
  · exact hr

/-- What has happened stays. -/
theorem Traced.mem {p : Program Op Ret ε α} {e : Event Op Ret ε} (h : Traced pre p R t)
    (he : e ∈ t) : Traced pre p (fun a t' => R a t' ∧ e ∈ t') t := by
  induction p generalizing t with
  | done r =>
    rintro a rfl
    exact ⟨h a rfl, he⟩
  | call op k ih =>
    refine ⟨h.1, ?_⟩
    rintro ans _ rfl
    exact ih ans (h.2 ans _ rfl) (List.mem_append_left _ he)

end Traced

/-! ## The errors a program can fail with -/

/-- `p` fails with an error of its own or with one that a call threw. -/
def Relays : (ε → Prop) → Program Op Ret ε α → Prop
  | own, .done r => ∀ e, r = .error e → own e
  | own, .call _ k => (∀ a, (k (.ok a)).Relays own) ∧
      ∀ e, (k (.error e)).Relays fun e' => own e' ∨ e' = e

section Relays
variable {own : ε → Prop} {p : Program Op Ret ε α}

theorem Relays.mono {own' : ε → Prop} (h : p.Relays own) (hown : ∀ e, own e → own' e) :
    p.Relays own' := by
  induction p generalizing own own' with
  | done r => exact fun e he => hown e (h e he)
  | call op k ih =>
    refine ⟨fun a => ih (.ok a) (h.1 a) hown, fun e => ih (.error e) (h.2 e) fun e' he' => ?_⟩
    exact he'.imp_left (hown e')

theorem Relays.pure {a : α} : (Pure.pure a : Program Op Ret ε α).Relays own := by
  rintro e ⟨⟩

theorem Relays.perform {op : Op} : (perform op : Program Op Ret ε (Ret op)).Relays own := by
  refine ⟨fun a => Relays.pure, fun e => ?_⟩
  rintro e' ⟨⟩
  exact Or.inr rfl

theorem Relays.bind {f : α → Program Op Ret ε β} (h : p.Relays own) (hf : ∀ a, (f a).Relays own) :
    (p >>= f).Relays own := by
  induction p generalizing own with
  | done r =>
    rcases r with e | a
    · rintro e' ⟨⟩
      exact h e rfl
    · exact hf a
  | call op k ih =>
    refine ⟨fun a => ih (.ok a) (h.1 a) hf, fun e => ih (.error e) (h.2 e) fun a => ?_⟩
    exact (hf a).mono fun e' => Or.inl

/-- What the first part fails with is caught. -/
theorem Relays.tryCatch {handler : ε → Program Op Ret ε α} (hh : ∀ e, (handler e).Relays own) :
    (MonadExcept.tryCatch p handler).Relays own := by
  induction p generalizing own with
  | done r =>
    rcases r with e | a
    · exact hh e
    · exact Relays.pure
  | call op k ih =>
    refine ⟨fun a => ih (.ok a) hh, fun e => ih (.error e) fun e' => ?_⟩
    exact (hh e').mono fun e'' => Or.inl

theorem Relays.of_runs {t : List (Event Op Ret ε)} {e : ε} (h : p.Relays own)
    (hr : Runs p t (.error e)) : own e ∨ ∃ event ∈ t, event.2 = .error e := by
  induction p generalizing own t with
  | done r =>
    exact Or.inl (h e (runs_done.mp hr).2.symm)
  | call op k ih =>
    obtain ⟨ans, t', rfl, hk⟩ := runs_call.mp hr
    rcases ans with e' | a
    · rcases ih (.error e') (h.2 e') hk with (hown | rfl) | ⟨event, hevent, he⟩
      · exact Or.inl hown
      · exact Or.inr ⟨_, List.mem_cons_self, rfl⟩
      · exact Or.inr ⟨event, List.mem_cons_of_mem _ hevent, he⟩
    · rcases ih (.ok a) (h.1 a) hk with hown | ⟨event, hevent, he⟩
      · exact Or.inl hown
      · exact Or.inr ⟨event, List.mem_cons_of_mem _ hevent, he⟩

end Relays

/-! ## The calls a program can make -/

/-- `p` makes no call outside `S`. -/
def Only (S : Op → Prop) : Program Op Ret ε α → Prop
  | .done _ => True
  | .call op k => S op ∧ ∀ ans, (k ans).Only S

section Only
variable {S : Op → Prop} {p : Program Op Ret ε α}

@[simp] theorem only_done {r : Except ε α} : (Program.done r : Program Op Ret ε α).Only S := trivial

@[simp] theorem only_perform {op : Op} : (perform op : Program Op Ret ε (Ret op)).Only S ↔ S op :=
  ⟨fun h => h.1, fun h => ⟨h, fun _ => trivial⟩⟩

theorem Only.bind {f : α → Program Op Ret ε β} (h : p.Only S) (hf : ∀ a, (f a).Only S) :
    (p >>= f).Only S := by
  induction p with
  | done r =>
    rcases r with _ | a
    · trivial
    · exact hf a
  | call op k ih => exact ⟨h.1, fun ans => ih ans (h.2 ans)⟩

theorem Only.tryCatch {handler : ε → Program Op Ret ε α} (h : p.Only S)
    (hh : ∀ e, (handler e).Only S) : (MonadExcept.tryCatch p handler).Only S := by
  induction p with
  | done r =>
    rcases r with e | _
    · exact hh e
    · trivial
  | call op k ih => exact ⟨h.1, fun ans => ih ans (h.2 ans)⟩

theorem Only.attempt (h : p.Only S) : (attempt p).Only S :=
  Only.tryCatch (h.bind fun _ => trivial) fun _ => trivial

theorem Only.mono {S' : Op → Prop} (h : p.Only S) (hS : ∀ op, S op → S' op) : p.Only S' := by
  induction p with
  | done r => trivial
  | call op k ih => exact ⟨hS op h.1, fun ans => ih ans (h.2 ans)⟩

theorem Only.of_runs {t : List (Event Op Ret ε)} {r : Except ε α} (h : p.Only S)
    (hr : Runs p t r) : ∀ e ∈ t, S e.1 := by
  induction p generalizing t with
  | done res =>
    obtain ⟨rfl, -⟩ := runs_done.mp hr
    exact fun e he => absurd he List.not_mem_nil
  | call op k ih =>
    obtain ⟨ans, t', rfl, hk⟩ := runs_call.mp hr
    intro e he
    rcases List.mem_cons.mp he with rfl | he
    · exact h.1
    · exact ih ans (h.2 ans) hk e he

/-- A program none of whose calls has an obligation, and each of whose calls keeps
a property of the state. -/
theorem Only.ensures {σ : Type u} {sem : σ → Event Op Ret ε → σ → Prop} {pre : σ → Op → Prop}
    {P : σ → Prop} {s : σ} (h : p.Only S) (hpre : ∀ s op, S op → P s → pre s op)
    (hP : ∀ s e s', S e.1 → P s → sem s e s' → P s') (hs : P s) :
    p.Ensures sem pre (fun s' _ => P s') s := by
  induction p generalizing s with
  | done r => exact hs
  | call op k ih =>
    exact ⟨hpre s op h.1 hs, fun ans s' hsem => ih ans (h.2 ans) (hP s _ s' h.1 hs hsem)⟩

/-- The same for a history, and nothing to keep. -/
theorem Only.traced {pre : List (Event Op Ret ε) → Op → Prop} {t : List (Event Op Ret ε)}
    (h : p.Only S) (hpre : ∀ t op, S op → pre t op) : Traced pre p (fun _ _ => True) t :=
  Ensures.mono (h.ensures (P := fun _ => True) (fun t op hop _ => hpre t op hop)
    (fun _ _ _ _ _ _ => trivial) trivial) (fun _ _ _ _ _ => trivial)

/-- A program none of whose calls has an obligation is traced to what its runs show. -/
theorem Only.traced_runs {pre : List (Event Op Ret ε) → Op → Prop}
    {R : α → List (Event Op Ret ε) → Prop} {t : List (Event Op Ret ε)}
    (h : p.Only S) (hpre : ∀ t op, S op → pre t op)
    (hR : ∀ t' a, Runs p t' (.ok a) → R a (t ++ t')) : Traced pre p R t := by
  induction p generalizing t with
  | done r =>
    rintro a rfl
    simpa using hR [] a (runs_done.mpr ⟨rfl, rfl⟩)
  | call op k ih =>
    refine ⟨hpre t op h.1, ?_⟩
    rintro ans _ rfl
    refine ih ans (h.2 ans) fun t' a hrun => ?_
    rw [← List.append_cons]
    exact hR _ a (.call hrun)

end Only

/-! ## Programs that give up at a failure -/

/-- `p` makes no call outside `S`, and the first call that fails ends it. -/
def Straight (S : Op → Prop) : Program Op Ret ε α → Prop
  | .done _ => True
  | .call op k =>
    S op ∧ (∀ e, ∃ e', k (.error e) = .done (.error e')) ∧ ∀ a, (k (.ok a)).Straight S

section Straight
variable {S : Op → Prop} {p : Program Op Ret ε α}

@[simp] theorem straight_done {r : Except ε α} :
    (Program.done r : Program Op Ret ε α).Straight S := trivial

@[simp] theorem straight_perform {op : Op} :
    (perform op : Program Op Ret ε (Ret op)).Straight S ↔ S op :=
  ⟨fun h => h.1, fun h => ⟨h, fun e => ⟨e, rfl⟩, fun _ => trivial⟩⟩

theorem Straight.bind {f : α → Program Op Ret ε β} (h : p.Straight S)
    (hf : ∀ a, (f a).Straight S) : (p >>= f).Straight S := by
  induction p with
  | done r =>
    rcases r with _ | a
    · trivial
    · exact hf a
  | call op k ih =>
    obtain ⟨hop, herr, hok⟩ := h
    refine ⟨hop, fun e => ?_, fun a => ih (.ok a) (hok a)⟩
    obtain ⟨e', he⟩ := herr e
    exact ⟨e', congrArg (fun q => q.bind f) he⟩

/-- A handler that calls nothing and throws. -/
theorem Straight.rethrow {handler : ε → Program Op Ret ε α} (h : p.Straight S)
    (hthrows : ∀ e, ∃ e', handler e = .done (.error e')) :
    (MonadExcept.tryCatch p handler).Straight S := by
  induction p with
  | done r =>
    rcases r with e | a
    · obtain ⟨e', he⟩ := hthrows e
      rw [tryCatch_done_error, he]
      trivial
    · trivial
  | call op k ih =>
    obtain ⟨hop, herr, hok⟩ := h
    refine ⟨hop, fun e => ?_, fun a => ih (.ok a) (hok a)⟩
    obtain ⟨e', he⟩ := herr e
    obtain ⟨e'', he'⟩ := hthrows e'
    exact ⟨e'', (congrArg (fun q => q.catchWith handler) he).trans he'⟩

theorem Straight.mono {S' : Op → Prop} (h : p.Straight S) (hS : ∀ op, S op → S' op) :
    p.Straight S' := by
  induction p with
  | done r => trivial
  | call op k ih =>
    obtain ⟨hop, herr, hok⟩ := h
    exact ⟨hS op hop, herr, fun a => ih (.ok a) (hok a)⟩

theorem Straight.only (h : p.Straight S) : p.Only S := by
  induction p with
  | done r => trivial
  | call op k ih =>
    obtain ⟨hop, herr, hok⟩ := h
    refine ⟨hop, ?_⟩
    rintro (e | a)
    · obtain ⟨e', he⟩ := herr e
      rw [he]
      trivial
    · exact ih (.ok a) (hok a)

/-- Where `p` succeeds, each of its calls did. -/
theorem Straight.answers_ok {t : List (Event Op Ret ε)} {a : α} (h : p.Straight S)
    (hr : Runs p t (.ok a)) : ∀ e ∈ t, ∃ answer, e.2 = .ok answer := by
  induction p generalizing t with
  | done r =>
    rw [(runs_done.mp hr).1]
    exact fun e he => absurd he List.not_mem_nil
  | call op k ih =>
    obtain ⟨-, herr, hok⟩ := h
    obtain ⟨ans, t', rfl, hk⟩ := runs_call.mp hr
    cases ans with
    | error e =>
      obtain ⟨e', he⟩ := herr e
      rw [he] at hk
      cases (runs_done.mp hk).2
    | ok answer =>
      intro e he
      rcases List.mem_cons.mp he with rfl | he
      · exact ⟨answer, rfl⟩
      · exact ih (.ok answer) (hok answer) hk e he

/-- What the successful calls of `p` keep holds when `p` succeeds. -/
theorem Straight.traced {pre : List (Event Op Ret ε) → Op → Prop}
    {Q : List (Event Op Ret ε) → Prop} {t : List (Event Op Ret ε)} (h : p.Straight S)
    (hpre : ∀ t op, S op → Q t → pre t op)
    (hQ : ∀ t op a, S op → Q t → Q (t ++ [⟨op, .ok a⟩])) (ht : Q t) :
    Traced pre p (fun _ t' => Q t') t := by
  induction p generalizing t with
  | done r => exact fun _ _ => ht
  | call op k ih =>
    obtain ⟨hop, herr, hok⟩ := h
    refine ⟨hpre t op hop ht, ?_⟩
    rintro (e | a) t' rfl
    · obtain ⟨e', he⟩ := herr e
      rw [he]
      rintro b ⟨⟩
    · exact ih (.ok a) (hok a) (hQ t op a hop ht)

end Straight

/-! ## Leaving calls out -/

section Erases
variable {S : Op → Bool} {ok : Event Op Ret ε → Prop}

/-- The events outside `S`. -/
def keep (S : Op → Bool) (t : List (Event Op Ret ε)) : List (Event Op Ret ε) :=
  t.filter (fun e => !S e.1)

theorem keep_append (t t' : List (Event Op Ret ε)) : keep S (t ++ t') = keep S t ++ keep S t' :=
  List.filter_append ..

/-- Without its calls in `S`, each run of `p` whose events are `ok` is a run of `p'` with the
same result. -/
def Erases (S : Op → Bool) (ok : Event Op Ret ε → Prop) (p p' : Program Op Ret ε α) : Prop :=
  ∀ t r, (∀ e ∈ t, ok e) → Runs p t r → Runs p' (keep S t) r

theorem Erases.refl {p : Program Op Ret ε α} (h : p.Only (fun op => S op = false)) :
    Erases S ok p p := by
  intro t r _ hr
  have hkeep : keep S t = t := by
    refine List.filter_eq_self.mpr (fun e he => ?_)
    rw [h.of_runs hr e he]
    rfl
  rwa [hkeep]

theorem Erases.bind {p p' : Program Op Ret ε α} {f f' : α → Program Op Ret ε β}
    (h : Erases S ok p p') (hf : ∀ a, Erases S ok (f a) (f' a)) :
    Erases S ok (p >>= f) (p' >>= f') := by
  intro t r hok hr
  rcases runs_bind.mp hr with ⟨e, hp, rfl⟩ | ⟨a, t₁, t₂, rfl, hp, hfa⟩
  · exact runs_bind.mpr (.inl ⟨e, h _ _ hok hp, rfl⟩)
  · obtain ⟨hok₁, hok₂⟩ := List.forall_mem_append.mp hok
    rw [keep_append]
    exact runs_bind.mpr (.inr ⟨a, _, _, rfl, h _ _ hok₁ hp, hf a _ _ hok₂ hfa⟩)

/-- A program that makes only calls of `S` and succeeds where its events are `ok` can be left
out. -/
theorem Erases.silent {p : Program Op Ret ε Unit} (h : p.Only (fun op => S op = true))
    (hsucceeds : ∀ t r, (∀ e ∈ t, ok e) → Runs p t r → r = .ok ()) :
    Erases S ok p (Pure.pure ()) := by
  intro t r hok hr
  have hkeep : keep S t = [] := by
    refine List.filter_eq_nil_iff.mpr (fun e he => ?_)
    rw [h.of_runs hr e he]
    exact Bool.false_ne_true
  rw [hkeep, hsucceeds t r hok hr]
  exact .refl _

/-- Runs that agree outside `S` have the same result. -/
theorem Erases.same_result {p p' : Program Op Ret ε α} (h : Erases S ok p p')
    {t₁ t₂ : List (Event Op Ret ε)} {r₁ r₂ : Except ε α} (hok₁ : ∀ e ∈ t₁, ok e)
    (hok₂ : ∀ e ∈ t₂, ok e) (h₁ : Runs p t₁ r₁) (h₂ : Runs p t₂ r₂)
    (heq : keep S t₁ = keep S t₂) : r₁ = r₂ :=
  (h _ _ hok₁ h₁).unique (heq ▸ h _ _ hok₂ h₂)

end Erases

/-! ## The events of an execution -/

section Events
variable {σ : Type u} (handler : (op : Op) → σ → Except ε (Ret op) × σ)

/-- The events of `p` against a handler. -/
def events : Program Op Ret ε α → σ → List (Event Op Ret ε)
  | .done _, _ => []
  | .call op k, s =>
    ⟨op, (handler op s).1⟩ :: (k (handler op s).1).events (handler op s).2

theorem runs_events (p : Program Op Ret ε α) (s : σ) :
    Runs p (p.events handler s) (p.runState handler s).1 := by
  induction p generalizing s with
  | done r => exact .refl _
  | call op k ih => exact .call (ih _ _)

/-- The events against fixed answers are so answered. -/
theorem mem_events (ans : (op : Op) → Except ε (Ret op)) {p : Program Op Ret ε α}
    {e : Event Op Ret ε} (h : e ∈ p.events (fun op (_ : Unit) => (ans op, ())) ()) :
    e.2 = ans e.1 := by
  induction p with
  | done r => exact absurd h List.not_mem_nil
  | call op k ih =>
    rcases List.mem_cons.mp h with rfl | h
    · rfl
    · exact ih _ h

end Events

end Interaction.Program

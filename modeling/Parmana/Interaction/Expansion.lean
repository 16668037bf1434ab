import Parmana.Interaction.Sessions

/-! # Programs whose calls are programs

A call of one layer is often a program of the layer below: a service is called as one thing
and does several.  `expand` puts the program of each call in the place of the call, so that
what was one step of a thread becomes the steps it consists of, with whatever the other
threads do in between.

Expansion goes through the text of a program part by part (`expand_bind`, `expand_perform`),
so a proof about an expanded program follows the program it was made from.
-/
namespace Interaction.Program

variable {Op Op' : Type} {Ret : Op → Type} {Ret' : Op' → Type} {ε α β : Type}

/-- Runs `p`, then `f` on its result, a value or an error. -/
def thenResult : Program Op Ret ε α → (Except ε α → Program Op Ret ε β) → Program Op Ret ε β
  | .done r, f => f r
  | .call op k, f => .call op fun ans => (k ans).thenResult f

/-- The program `f` of each call in the place of the call. -/
def expand (f : ∀ op, Program Op' Ret' ε (Ret op)) :
    Program Op Ret ε α → Program Op' Ret' ε α
  | .done r => .done r
  | .call op k => (f op).thenResult fun ans => (k ans).expand f

theorem thenResult_done (p : Program Op Ret ε α) : p.thenResult .done = p := by
  induction p with
  | done r => rfl
  | call op k ih => exact congrArg (Program.call op) (funext ih)

theorem thenResult_bind {γ : Type} (p : Program Op Ret ε α)
    (f : Except ε α → Program Op Ret ε β) (g : β → Program Op Ret ε γ) :
    p.thenResult f >>= g = p.thenResult fun r => f r >>= g := by
  induction p with
  | done r => rfl
  | call op k ih => exact congrArg (Program.call op) (funext ih)

section Expand
variable {f : ∀ op, Program Op' Ret' ε (Ret op)}

@[simp] theorem expand_done (r : Except ε α) :
    (Program.done r : Program Op Ret ε α).expand f = .done r := rfl

@[simp] theorem expand_perform (op : Op) :
    (perform op : Program Op Ret ε (Ret op)).expand f = f op :=
  thenResult_done (f op)

/-- **A sequence is expanded part by part.** -/
theorem expand_bind (p : Program Op Ret ε α) (h : α → Program Op Ret ε β) :
    (p >>= h).expand f = p.expand f >>= fun a => (h a).expand f := by
  induction p with
  | done r => cases r <;> rfl
  | call op k ih =>
    have hnext : (fun ans => (k ans >>= h).expand f) =
        fun ans => (k ans).expand f >>= fun a => (h a).expand f := funext ih
    rw [call_bind, expand, expand, thenResult_bind, hnext]

/-- A sequence is followed part by part. -/
theorem Traced.expand_bind {pre : List (Event Op' Ret' ε) → Op' → Prop}
    {R : α → List (Event Op' Ret' ε) → Prop} {R' : β → List (Event Op' Ret' ε) → Prop}
    {t : List (Event Op' Ret' ε)} {p : Program Op Ret ε α} {h : α → Program Op Ret ε β}
    (hp : Traced pre (p.expand f) R t)
    (hh : ∀ a t', R a t' → Traced pre ((h a).expand f) R' t') :
    Traced pre ((p >>= h).expand f) R' t := by
  rw [Program.expand_bind]
  exact Traced.bind hp hh

theorem Only.thenResult {S : Op → Prop} {p : Program Op Ret ε α}
    {g : Except ε α → Program Op Ret ε β} (h : p.Only S) (hg : ∀ r, (g r).Only S) :
    (p.thenResult g).Only S := by
  induction p with
  | done r => exact hg r
  | call op k ih => exact ⟨h.1, fun ans => ih ans (h.2 ans)⟩

theorem only_any {p : Program Op Ret ε α} : p.Only fun _ => True := by
  induction p with
  | done r => trivial
  | call op k ih => exact ⟨trivial, ih⟩

/-- The calls of the programs in the places of the calls. -/
theorem Only.expand {S : Op → Prop} {S' : Op' → Prop} {p : Program Op Ret ε α} (h : p.Only S)
    (hf : ∀ op, S op → (f op).Only S') : (p.expand f).Only S' := by
  induction p with
  | done r => trivial
  | call op k ih => exact (hf op h.1).thenResult fun ans => ih ans (h.2 ans)

theorem Returns.thenResult {Q : α → Prop} {Q' : β → Prop} {p : Program Op Ret ε α}
    {g : Except ε α → Program Op Ret ε β} (h : p.Returns Q)
    (hg : ∀ r, (∀ a, r = .ok a → Q a) → (g r).Returns Q') : (p.thenResult g).Returns Q' := by
  induction p with
  | done r => exact hg r h
  | call op k ih => exact fun ans => ih ans (h ans)

/-- What a program returns it returns expanded. -/
theorem Returns.expand {Q : α → Prop} {p : Program Op Ret ε α} (h : p.Returns Q) :
    (p.expand f).Returns Q := by
  induction p with
  | done r => exact h
  | call op k ih =>
    have hany : (f op).Returns fun _ => True := by
      induction f op with
      | done r => exact fun _ _ => trivial
      | call op' k' ih' => exact fun ans => ih' ans
    exact hany.thenResult fun ans _ => ih ans (h ans)

end Expand

/-! ## Runs of an expanded program -/

section Runs
variable {f : ∀ op, Program Op' Ret' ε (Ret op)} {p : Program Op Ret ε α}
  {t : List (Event Op' Ret' ε)}

/-- The events of an expanded program, for those of the program it was made from: each call
stands for a run of the program in its place that ended with the answer of the call. -/
inductive Expands (f : ∀ op, Program Op' Ret' ε (Ret op)) :
    List (Event Op Ret ε) → List (Event Op' Ret' ε) → Prop where
  | nil : Expands f [] []
  | cons {e : Event Op Ret ε} {t₀ : List (Event Op Ret ε)} {t₁ t₂ : List (Event Op' Ret' ε)}
      (h : Runs (f e.1) t₁ e.2) (rest : Expands f t₀ t₂) : Expands f (e :: t₀) (t₁ ++ t₂)

/-- A program followed by another stops at a call of the first, or the first has ended. -/
theorem steps_thenResult {q : Program Op' Ret' ε α} {g : Except ε α → Program Op' Ret' ε β}
    {op : Op'} {k : Except ε (Ret' op) → Program Op' Ret' ε β}
    (h : Steps (q.thenResult g) t (.call op k)) :
    (∃ k', Steps q t (.call op k')) ∨
      ∃ r t₁ t₂, t = t₁ ++ t₂ ∧ Runs q t₁ r ∧ Steps (g r) t₂ (.call op k) := by
  induction q generalizing t with
  | done r => exact .inr ⟨r, [], t, rfl, .refl _, h⟩
  | call op' k' ih =>
    cases h with
    | refl => exact .inl ⟨_, .refl _⟩
    | call h =>
      rcases ih _ h with ⟨k'', hstop⟩ | ⟨r, t₁, t₂, rfl, hrun, hstop⟩
      · exact .inl ⟨k'', .call hstop⟩
      · exact .inr ⟨r, _ :: t₁, t₂, rfl, .call hrun, hstop⟩

/-- **An expanded program stops inside the program of a call** that the program it was made
from has stopped at, after the programs of the calls before. -/
theorem steps_expand {op : Op'} {k : Except ε (Ret' op) → Program Op' Ret' ε α}
    (h : Steps (p.expand f) t (.call op k)) :
    ∃ t₀ t₁ t₂ call k₀ k₁, t = t₁ ++ t₂ ∧ Steps p t₀ (.call call k₀) ∧ Expands f t₀ t₁ ∧
      Steps (f call) t₂ (.call op k₁) := by
  induction p generalizing t with
  | done r => cases h
  | call op' k' ih =>
    rcases steps_thenResult h with ⟨k₁, hstop⟩ | ⟨r, t₁, t₂, rfl, hrun, hrest⟩
    · exact ⟨[], [], t, op', k', k₁, rfl, .refl _, .nil, hstop⟩
    · obtain ⟨t₀, t₃, t₄, call, k₀, k₁, rfl, houter, hexpands, hstop⟩ := ih r hrest
      exact ⟨⟨op', r⟩ :: t₀, t₁ ++ t₃, t₄, call, k₀, k₁, (List.append_assoc ..).symm,
        .call houter, .cons hrun hexpands, hstop⟩

/-- The run in the place of a call is among the events. -/
theorem Expands.mem {t₀ : List (Event Op Ret ε)} {e : Event Op Ret ε} (h : Expands f t₀ t)
    (he : e ∈ t₀) : ∃ t₁, t₁ ⊆ t ∧ Runs (f e.1) t₁ e.2 := by
  induction h with
  | nil => cases he
  | @cons e' t₀ t₁ t₂ hrun _ ih =>
    rcases List.mem_cons.mp he with rfl | he
    · exact ⟨t₁, List.subset_append_left .., hrun⟩
    · obtain ⟨t₃, hsub, hrun'⟩ := ih he
      exact ⟨t₃, List.Subset.trans hsub (List.subset_append_right ..), hrun'⟩

/-- Where each call stands for one event, the events are those. -/
theorem Expands.eq_map {g : Event Op Ret ε → Event Op' Ret' ε} {t₀ : List (Event Op Ret ε)}
    (h : Expands f t₀ t) (hg : ∀ e ∈ t₀, ∀ t₁, Runs (f e.1) t₁ e.2 → t₁ = [g e]) :
    t = t₀.map g := by
  induction h with
  | nil => rfl
  | @cons e t₀ t₁ t₂ hrun _ ih =>
    rw [hg e List.mem_cons_self t₁ hrun, ih fun e' he' => hg e' (List.mem_cons_of_mem _ he')]
    rfl

end Runs

theorem steps_perform {op op' : Op} {k : Except ε (Ret op) → Program Op Ret ε (Ret op')}
    {t : List (Event Op Ret ε)} (h : Steps (perform op') t (.call op k)) : op = op' ∧ t = [] := by
  cases h with
  | refl => exact ⟨rfl, rfl⟩
  | call h => cases h

theorem Returns.of_runs {Q : α → Prop} {p : Program Op Ret ε α} {t : List (Event Op Ret ε)} {a : α}
    (h : p.Returns Q) (hrun : Runs p t (.ok a)) : Q a := by
  induction p generalizing t with
  | done r => exact h a (runs_done.mp hrun).2.symm
  | call op k ih =>
    obtain ⟨ans, t', rfl, hk⟩ := runs_call.mp hrun
    exact ih ans (h ans) hk

/-- What has been stopped can be run to its end. -/
theorem Steps.exists_run [Inhabited ε] {p q : Program Op Ret ε α} {t : List (Event Op Ret ε)}
    (h : Steps p t q) : ∃ t' r, Runs p (t ++ t') r := by
  have hends : ∀ q : Program Op Ret ε α, ∃ t' r, Runs q t' r := by
    intro q
    induction q with
    | done r => exact ⟨[], r, .refl _⟩
    | call op k ih =>
      obtain ⟨t', r, hrun⟩ := ih (.error default)
      exact ⟨_, r, .call hrun⟩
  obtain ⟨t', r, hrun⟩ := hends q
  exact ⟨t', r, h.append hrun⟩

/-- A program with a last part stops at a call of the program, or in the last part. -/
theorem steps_bind {p : Program Op Ret ε α} {g : α → Program Op Ret ε β} {op : Op}
    {k : Except ε (Ret op) → Program Op Ret ε β} {t : List (Event Op Ret ε)}
    (h : Steps (p >>= g) t (.call op k)) :
    (∃ k', Steps p t (.call op k')) ∨
      ∃ a t₁ t₂, t = t₁ ++ t₂ ∧ Runs p t₁ (.ok a) ∧ Steps (g a) t₂ (.call op k) := by
  induction p generalizing t with
  | done r =>
    cases r with
    | error e => cases h
    | ok a => exact .inr ⟨a, [], t, rfl, .refl _, h⟩
  | call op' k' ih =>
    cases h with
    | refl => exact .inl ⟨_, .refl _⟩
    | call h =>
      rcases ih _ h with ⟨k'', hstop⟩ | ⟨a, t₁, t₂, rfl, hrun, hstop⟩
      · exact .inl ⟨k'', .call hstop⟩
      · exact .inr ⟨a, _ :: t₁, t₂, rfl, .call hrun, hstop⟩

end Interaction.Program

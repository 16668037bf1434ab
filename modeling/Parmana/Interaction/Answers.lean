import Parmana.Interaction.Program
import Mathlib.Data.List.Nodup

/-! # Programs whose calls are answered by a function

When every call has one answer, a program makes one list of calls and finishes
with one result, and both are computed by recursion on the program: `calls` and
`result`.

That is no loss for a program that asks each question once.  `Ascends` says so by
giving every call a rank and letting the program make its calls in ascending
order; then each of its runs is answered by a function (`Ascends.answered`), and
what is shown of `calls` and `result` for all functions holds of all runs.
-/
namespace Interaction.Program

variable {Op : Type} {Ret : Op → Type} {ε α β : Type}

section Function
variable (ans : (op : Op) → Except ε (Ret op))

/-- What `p` finishes with. -/
def result : Program Op Ret ε α → Except ε α
  | .done r => r
  | .call op k => (k (ans op)).result

/-- The calls `p` makes. -/
def calls : Program Op Ret ε α → List Op
  | .done _ => []
  | .call op k => op :: (k (ans op)).calls

@[simp] theorem result_done (r : Except ε α) :
    (Program.done r : Program Op Ret ε α).result ans = r := rfl

@[simp] theorem result_perform (op : Op) :
    (perform op : Program Op Ret ε (Ret op)).result ans = ans op := rfl

theorem result_bind (p : Program Op Ret ε α) (f : α → Program Op Ret ε β) :
    (p >>= f).result ans = p.result ans >>= fun a => (f a).result ans := by
  induction p with
  | done r => cases r <;> rfl
  | call op k ih => exact ih (ans op)

theorem result_tryCatch (p : Program Op Ret ε α) (h : ε → Program Op Ret ε α) :
    (MonadExcept.tryCatch p h).result ans =
      match p.result ans with
      | .ok a => .ok a
      | .error e => (h e).result ans := by
  induction p with
  | done r => cases r <;> rfl
  | call op k ih => exact ih (ans op)

/-- The answers of a run are those of a function. -/
def Answered (t : List (Event Op Ret ε)) : Prop := ∀ e ∈ t, ans e.1 = e.2

variable {ans}

theorem Answered.append_left {t t' : List (Event Op Ret ε)} (h : Answered ans (t ++ t')) :
    Answered ans t := fun e he => h e (List.mem_append_left _ he)

/-- **A run answered by a function makes the calls of the program and has its
result.** -/
theorem Runs.of_answered {p : Program Op Ret ε α} {t : List (Event Op Ret ε)} {r : Except ε α}
    (h : Runs p t r) (ht : Answered ans t) : t.map Sigma.fst = p.calls ans ∧ r = p.result ans := by
  induction p generalizing t with
  | done res =>
    obtain ⟨rfl, rfl⟩ := runs_done.mp h
    exact ⟨rfl, rfl⟩
  | call op k ih =>
    obtain ⟨a, t', rfl, hk⟩ := runs_call.mp h
    have ha : ans op = a := ht ⟨op, a⟩ List.mem_cons_self
    subst ha
    obtain ⟨hcalls, hresult⟩ := ih (ans op) hk fun e he => ht e (List.mem_cons_of_mem _ he)
    exact ⟨congrArg (op :: ·) hcalls, hresult⟩

variable (ans) in
/-- There is such a run. -/
theorem runs_answered (p : Program Op Ret ε α) :
    Runs p ((p.calls ans).map fun op => ⟨op, ans op⟩) (p.result ans) := by
  induction p with
  | done r => exact .refl _
  | call op k ih => exact .call (ih (ans op))

end Function

/-- Answers to different questions are those of a function, which need answer
nothing else. -/
theorem exists_answered [Inhabited ε] {t : List (Event Op Ret ε)}
    (h : (t.map Sigma.fst).Nodup) : ∃ ans : (op : Op) → Except ε (Ret op), Answered ans t ∧
      ∀ op a, ans op = .ok a → ⟨op, .ok a⟩ ∈ t := by
  classical
  refine ⟨fun op => if h : ∃ a, ⟨op, a⟩ ∈ t then h.choose else .error default, ?_, ?_⟩
  · rintro ⟨op, a⟩ he
    have hex : ∃ a, (⟨op, a⟩ : Event Op Ret ε) ∈ t := ⟨a, he⟩
    have heq := List.inj_on_of_nodup_map h hex.choose_spec he rfl
    refine (dif_pos hex).trans ?_
    exact eq_of_heq (Sigma.mk.inj heq).2
  · intro op a hop
    dsimp only at hop
    split at hop
    · rename_i hex
      rw [← hop]
      exact hex.choose_spec
    · cases hop

/-! ## Asking each question once -/

section Ascends
variable {rank : Op → Nat}

/-- `p` makes its calls in ascending order of their rank, within the bounds. -/
def Ascends (rank : Op → Nat) : Nat → Nat → Program Op Ret ε α → Prop
  | lo, hi, .done _ => lo ≤ hi
  | lo, hi, .call op k => lo ≤ rank op ∧ rank op < hi ∧ ∀ ans, Ascends rank (rank op + 1) hi (k ans)

theorem Ascends.of_le {p : Program Op Ret ε α} {lo lo' hi : Nat} (h : Ascends rank lo hi p)
    (hlo : lo' ≤ lo) : Ascends rank lo' hi p := by
  cases p with
  | done r => exact Nat.le_trans hlo h
  | call op k => exact ⟨Nat.le_trans hlo h.1, h.2⟩

theorem Ascends.done {r : Except ε α} {lo hi : Nat} (h : lo ≤ hi) :
    Ascends rank lo hi (Program.done r : Program Op Ret ε α) := h

theorem Ascends.perform {op : Op} {lo hi : Nat} (hlo : lo ≤ rank op) (hhi : rank op < hi) :
    Ascends rank lo hi (perform op : Program Op Ret ε (Ret op)) := ⟨hlo, hhi, fun _ => hhi⟩

theorem Ascends.bind {p : Program Op Ret ε α} {f : α → Program Op Ret ε β} {lo mid hi : Nat}
    (h : Ascends rank lo mid p) (hmid : mid ≤ hi) (hf : ∀ a, Ascends rank mid hi (f a)) :
    Ascends rank lo hi (p >>= f) := by
  induction p generalizing lo with
  | done r =>
    rcases r with e | a
    · exact Nat.le_trans h hmid
    · exact (hf a).of_le h
  | call op k ih =>
    obtain ⟨hlo, hhi, hk⟩ := h
    exact ⟨hlo, Nat.lt_of_lt_of_le hhi hmid, fun ans => ih ans (hk ans)⟩

theorem Ascends.tryCatch {p : Program Op Ret ε α} {handler : ε → Program Op Ret ε α}
    {lo mid hi : Nat} (h : Ascends rank lo mid p) (hmid : mid ≤ hi)
    (hh : ∀ e, Ascends rank mid hi (handler e)) :
    Ascends rank lo hi (MonadExcept.tryCatch p handler) := by
  induction p generalizing lo with
  | done r =>
    rcases r with e | a
    · exact (hh e).of_le h
    · exact Nat.le_trans h hmid
  | call op k ih =>
    obtain ⟨hlo, hhi, hk⟩ := h
    exact ⟨hlo, Nat.lt_of_lt_of_le hhi hmid, fun ans => ih ans (hk ans)⟩

theorem Ascends.pairwise {p : Program Op Ret ε α} {lo hi : Nat} {t : List (Event Op Ret ε)}
    {r : Except ε α} (h : Ascends rank lo hi p) (hr : Runs p t r) :
    (t.map fun e => rank e.1).Pairwise (· < ·) ∧ ∀ e ∈ t, lo ≤ rank e.1 := by
  induction p generalizing lo t with
  | done res =>
    obtain ⟨rfl, -⟩ := runs_done.mp hr
    exact ⟨List.Pairwise.nil, fun e he => absurd he List.not_mem_nil⟩
  | call op k ih =>
    obtain ⟨a, t', rfl, hk⟩ := runs_call.mp hr
    obtain ⟨hlo, -, hrest⟩ := h
    obtain ⟨hpairwise, hbound⟩ := ih a (hrest a) hk
    constructor
    · rw [List.map_cons, List.pairwise_cons]
      refine ⟨fun n hn => ?_, hpairwise⟩
      obtain ⟨e, he, rfl⟩ := List.mem_map.mp hn
      exact hbound e he
    · intro e he
      rcases List.mem_cons.mp he with rfl | he
      · exact hlo
      · exact Nat.le_trans hlo (Nat.le_of_succ_le (hbound e he))

theorem Ascends.lt {p : Program Op Ret ε α} {lo hi : Nat} {t : List (Event Op Ret ε)}
    {r : Except ε α} (h : Ascends rank lo hi p) (hr : Runs p t r) : ∀ e ∈ t, rank e.1 < hi := by
  induction p generalizing lo t with
  | done res =>
    obtain ⟨rfl, -⟩ := runs_done.mp hr
    exact fun e he => absurd he List.not_mem_nil
  | call op k ih =>
    obtain ⟨a, t', rfl, hk⟩ := runs_call.mp hr
    intro e he
    rcases List.mem_cons.mp he with rfl | he
    · exact h.2.1
    · exact ih a (h.2.2 a) hk e he

/-- **Every run of a program that asks each question once is answered by a
function.** -/
theorem Ascends.answered [Inhabited ε] {p : Program Op Ret ε α} {lo hi : Nat}
    {t : List (Event Op Ret ε)} {r : Except ε α} (h : Ascends rank lo hi p) (hr : Runs p t r) :
    ∃ ans : (op : Op) → Except ε (Ret op), Answered ans t ∧
      ∀ op a, ans op = .ok a → ⟨op, .ok a⟩ ∈ t := by
  refine exists_answered (List.pairwise_map.mpr ?_)
  refine (List.pairwise_map.mp (h.pairwise hr).1).imp fun hlt heq => ?_
  exact absurd (congrArg rank heq) (Nat.ne_of_lt hlt)

end Ascends

end Interaction.Program

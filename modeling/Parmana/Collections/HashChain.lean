import Mathlib.Data.List.Infix
import Mathlib.Data.Set.Function
import Mathlib.Tactic.Common

/-! # Hash chains

Each link of a chain names the link before it by the hash of its content, and the
first names none (`Linked`).  Where no two contents have one hash, a link fixes the
whole chain before it: two chains that end in the same content are the same
(`Linked.eq_of_last`), and so a chain whose links all come from given chains is the
beginning of one of them (`Linked.prefix_of_links`).  A chain whose first link names
whatever it likes is so fixed up to what is missing before it: if it ends as a whole
chain does, it is the end of that chain (`Linked.suffix_of_last`).
-/
namespace HashChain

variable {α β η : Type} (content : α → β) (hash : β → η) (prev : α → Option η)

/-- The links name one another in order, the first of them naming `p`. -/
def Linked : Option η → List α → Prop
  | _, [] => True
  | p, a :: as => prev a = p ∧ Linked (some (hash (content a))) as

/-- The hash of the last link, or `p`. -/
def lastHash (p : Option η) (as : List α) : Option η :=
  (as.getLast?.map fun a => hash (content a)).or p

variable {content hash prev}

@[simp] theorem lastHash_nil (p : Option η) : lastHash content hash p [] = p := rfl

@[simp] theorem lastHash_concat (p : Option η) (as : List α) (a : α) :
    lastHash content hash p (as ++ [a]) = some (hash (content a)) := by
  rw [lastHash, List.getLast?_concat]
  rfl

theorem lastHash_cons (p : Option η) (a : α) (as : List α) :
    lastHash content hash p (a :: as) = lastHash content hash (some (hash (content a))) as := by
  rcases List.eq_nil_or_concat' as with rfl | ⟨bs, b, rfl⟩
  · rfl
  · rw [← List.cons_append, lastHash_concat, lastHash_concat]

theorem linked_append {p : Option η} {as bs : List α} :
    Linked content hash prev p (as ++ bs) ↔
      Linked content hash prev p as ∧
        Linked content hash prev (lastHash content hash p as) bs := by
  induction as generalizing p with
  | nil => simp [Linked]
  | cons a as ih => rw [List.cons_append, Linked, Linked, ih, lastHash_cons, and_assoc]

theorem linked_concat {p : Option η} {as : List α} {a : α} :
    Linked content hash prev p (as ++ [a]) ↔
      Linked content hash prev p as ∧ prev a = lastHash content hash p as := by
  rw [linked_append]
  simp [Linked]

/-- A content fixes the link it names. -/
def Named (content : α → β) (prev : α → Option η) : Prop :=
  ∀ a b, content a = content b → prev a = prev b

/-- **A link fixes the chain before it.** -/
theorem Linked.eq_of_last (hnamed : Named content prev) {links : Set α}
    (hhash : Set.InjOn hash (content '' links)) {as bs : List α} {a b : α}
    (has : ∀ x ∈ as ++ [a], x ∈ links) (hbs : ∀ x ∈ bs ++ [b], x ∈ links)
    (h : Linked content hash prev none (as ++ [a])) (h' : Linked content hash prev none (bs ++ [b]))
    (hlast : content a = content b) : (as ++ [a]).map content = (bs ++ [b]).map content := by
  induction as using List.reverseRecOn generalizing bs a b with
  | nil =>
    rw [linked_concat] at h h'
    have hprev : lastHash content hash none bs = none := by
      rw [← h'.2, ← hnamed a b hlast, h.2, lastHash_nil]
    rcases List.eq_nil_or_concat' bs with rfl | ⟨cs, c, rfl⟩
    · simp [hlast]
    · rw [lastHash_concat] at hprev
      cases hprev
  | append_singleton as x ih =>
    rw [linked_concat] at h h'
    have hprev : lastHash content hash none bs = some (hash (content x)) := by
      rw [← h'.2, ← hnamed a b hlast, h.2, lastHash_concat]
    rcases List.eq_nil_or_concat' bs with rfl | ⟨cs, c, rfl⟩
    · cases hprev
    · rw [lastHash_concat, Option.some.injEq] at hprev
      have hx : x ∈ links := has x (by simp)
      have hc : c ∈ links := hbs c (by simp)
      have hcontent : content x = content c :=
        (hhash (Set.mem_image_of_mem _ hc) (Set.mem_image_of_mem _ hx) hprev).symm
      have hbefore := ih (fun y hy => has y (List.mem_append_left _ hy))
        (fun y hy => hbs y (List.mem_append_left _ hy)) h.1 h'.1 hcontent
      rw [List.map_append, hbefore]
      simp [hlast]

/-- Links with the contents of a chain are a chain. -/
theorem Linked.of_map_eq (hnamed : Named content prev) {as bs : List α}
    (heq : as.map content = bs.map content) {p : Option η}
    (h : Linked content hash prev p bs) : Linked content hash prev p as := by
  induction bs generalizing as p with
  | nil =>
    obtain rfl := List.map_eq_nil_iff.mp heq
    trivial
  | cons b bs ih =>
    obtain ⟨a, as, rfl, hab, hrest⟩ := List.map_eq_cons_iff.mp heq
    refine ⟨(hnamed a b hab).trans h.1, ?_⟩
    rw [hab]
    exact ih hrest h.2

/-- The end of a chain is a chain, whatever is before it. -/
theorem Linked.of_suffix (hnamed : Named content prev) {as bs : List α}
    (hsuffix : as.map content <:+ bs.map content) {p : Option η}
    (h : Linked content hash prev p bs) : ∃ q, Linked content hash prev q as := by
  obtain ⟨before, hbefore⟩ := hsuffix
  obtain ⟨cs, ds, rfl, -, hds⟩ := List.map_eq_append_iff.mp hbefore.symm
  exact ⟨_, (linked_append.mp h).2.of_map_eq hnamed hds.symm⟩

/-- **A chain that ends as a whole chain does is the end of it.** -/
theorem Linked.suffix_of_last (hnamed : Named content prev) {links : Set α}
    (hhash : Set.InjOn hash (content '' links)) {as bs : List α} {a b : α} {p : Option η}
    (has : ∀ x ∈ as ++ [a], x ∈ links) (hbs : ∀ x ∈ bs ++ [b], x ∈ links)
    (h : Linked content hash prev p (as ++ [a])) (h' : Linked content hash prev none (bs ++ [b]))
    (hlast : content a = content b) : (as ++ [a]).map content <:+ (bs ++ [b]).map content := by
  induction as using List.reverseRecOn generalizing bs a b with
  | nil =>
    refine ⟨bs.map content, ?_⟩
    simp [hlast]
  | append_singleton as x ih =>
    rw [linked_concat] at h h'
    have hprev : lastHash content hash none bs = some (hash (content x)) := by
      rw [← h'.2, ← hnamed a b hlast, h.2, lastHash_concat]
    rcases List.eq_nil_or_concat' bs with rfl | ⟨cs, c, rfl⟩
    · cases hprev
    · rw [lastHash_concat, Option.some.injEq] at hprev
      have hx : x ∈ links := has x (by simp)
      have hc : c ∈ links := hbs c (by simp)
      have hcontent : content x = content c :=
        (hhash (Set.mem_image_of_mem _ hc) (Set.mem_image_of_mem _ hx) hprev).symm
      obtain ⟨before, hbefore⟩ := ih (fun y hy => has y (List.mem_append_left _ hy))
        (fun y hy => hbs y (List.mem_append_left _ hy)) h.1 h'.1 hcontent
      refine ⟨before, ?_⟩
      rw [List.map_append, ← List.append_assoc, hbefore]
      simp [hlast]

/-- **A chain whose links all come from given chains begins one of them.** -/
theorem Linked.prefix_of_links (hnamed : Named content prev) {chains : Set (List α)}
    (hchains : ∀ c ∈ chains, Linked content hash prev none c)
    (hhash : Set.InjOn hash {x | ∃ c ∈ chains, ∃ a ∈ c, content a = x}) {as : List α}
    (has : ∀ a ∈ as, ∃ c ∈ chains, ∃ b ∈ c, content b = content a)
    (h : Linked content hash prev none as) (hne : as ≠ []) :
    ∃ c ∈ chains, as.map content <+: c.map content := by
  obtain ⟨init, a, rfl⟩ := (List.eq_nil_or_concat' as).resolve_left hne
  obtain ⟨c, hc, b, hb, hcontent⟩ := has a (by simp)
  obtain ⟨before, after, rfl⟩ := List.append_of_mem hb
  refine ⟨_, hc, ?_⟩
  have hlinked := hchains _ hc
  rw [List.append_cons, linked_append] at hlinked
  -- the links that have a content of one of the chains
  have hinj : Set.InjOn hash (content '' {x | ∃ c ∈ chains, ∃ b ∈ c, content b = content x}) := by
    refine hhash.mono ?_
    rintro _ ⟨x, ⟨c', hc', y, hy, hxy⟩, rfl⟩
    exact ⟨c', hc', y, hy, hxy⟩
  have hsame := Linked.eq_of_last hnamed hinj has ?_ h hlinked.1 hcontent.symm
  · rw [hsame]
    refine List.IsPrefix.map content ⟨after, ?_⟩
    rw [List.append_assoc, List.singleton_append]
  · rintro x hx
    refine ⟨_, hc, x, ?_, rfl⟩
    rw [List.append_cons]
    exact List.mem_append_left _ hx

end HashChain

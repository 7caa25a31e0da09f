/-
# Sorting by insertion

`sortBy key` is a stable sort. `perm_sortBy` says that no element is lost, `pairwise_sortBy` that the
keys grow, and `pairwise_sortBy_of_pairwise` that elements with equal keys stay in order. `ascending`
lists the numbers of a list in increasing order, each once; `mem_ascending` and `pairwise_ascending` say
the same of it.
-/

namespace ArcCoverage.Order

/-- An element put before the first that has no smaller key. -/
def insertBy {α : Type} (key : α → Nat) (a : α) : List α → List α
  | [] => [a]
  | b :: bs => if key a ≤ key b then a :: b :: bs else b :: insertBy key a bs

/-- **A list by increasing key.** -/
def sortBy {α : Type} (key : α → Nat) (as : List α) : List α := as.foldr (insertBy key) []

theorem perm_insertBy {α : Type} (key : α → Nat) (a : α) (as : List α) :
    (insertBy key a as).Perm (a :: as) := by
  induction as with
  | nil => exact .refl _
  | cons b bs ih =>
    unfold insertBy
    split
    · exact .refl _
    · exact (ih.cons b).trans (.swap a b bs)

/-- **Sorting loses nothing.** -/
theorem perm_sortBy {α : Type} (key : α → Nat) (as : List α) : (sortBy key as).Perm as := by
  induction as with
  | nil => exact .refl _
  | cons a as ih => exact (perm_insertBy key a _).trans (ih.cons a)

/-- **The order of a stable sort:** by key, and elements with equal keys by another relation. -/
def ByKey {α : Type} (key : α → Nat) (r : α → α → Prop) (a b : α) : Prop :=
  key a < key b ∨ key a = key b ∧ r a b

theorem pairwise_insertBy {α : Type} {key : α → Nat} {r : α → α → Prop} {a : α} {as : List α}
    (h : as.Pairwise (ByKey key r)) (ha : ∀ b ∈ as, r a b) :
    (insertBy key a as).Pairwise (ByKey key r) := by
  induction as with
  | nil => exact .cons (fun _ hm => nomatch hm) .nil
  | cons b bs ih =>
    obtain ⟨hb, hbs⟩ := List.pairwise_cons.1 h
    unfold insertBy
    split
    · next hab =>
      refine List.pairwise_cons.2 ⟨fun c hc => ?_, h⟩
      have hkey : key a ≤ key c := by
        rcases List.mem_cons.1 hc with rfl | hmem
        · exact hab
        · rcases hb c hmem with hlt | ⟨heq, -⟩ <;> omega
      exact (Nat.lt_or_eq_of_le hkey).imp_right fun heq => ⟨heq, ha c hc⟩
    · next hab =>
      refine List.pairwise_cons.2 ⟨fun c hc => ?_, ih hbs fun c hc => ha c (List.mem_cons_of_mem b hc)⟩
      rcases List.mem_cons.1 ((perm_insertBy key a bs).mem_iff.1 hc) with rfl | hc
      · exact .inl (by omega)
      · exact hb c hc

/-- **A sorted list is in order by key,** and elements with equal keys stay in the order they were in. -/
theorem pairwise_sortBy_of_pairwise {α : Type} (key : α → Nat) {r : α → α → Prop} {as : List α}
    (h : as.Pairwise r) : (sortBy key as).Pairwise (ByKey key r) := by
  induction as with
  | nil => exact .nil
  | cons a as ih =>
    obtain ⟨ha, has⟩ := List.pairwise_cons.1 h
    exact pairwise_insertBy (ih has) fun b hb => ha b ((perm_sortBy key as).mem_iff.1 hb)

/-- **The keys of a sorted list grow.** -/
theorem pairwise_sortBy {α : Type} (key : α → Nat) (as : List α) :
    (sortBy key as).Pairwise (key · ≤ key ·) := by
  have hany : as.Pairwise fun _ _ => True := List.pairwise_of_forall fun _ _ => trivial
  exact (pairwise_sortBy_of_pairwise key hany).imp fun h => h.elim Nat.le_of_lt fun h => Nat.le_of_eq h.1

/-- A number put in its place, unless it is there. -/
def insertOnce (n : Nat) : List Nat → List Nat
  | [] => [n]
  | m :: ms => if n < m then n :: m :: ms else if n = m then m :: ms else m :: insertOnce n ms

/-- **The numbers of a list in increasing order,** each once. -/
def ascending (ns : List Nat) : List Nat := ns.foldr insertOnce []

theorem mem_insertOnce {k n : Nat} {ms : List Nat} : k ∈ insertOnce n ms ↔ k = n ∨ k ∈ ms := by
  induction ms with
  | nil => simp [insertOnce]
  | cons m ms ih => grind [insertOnce]

theorem mem_ascending {k : Nat} {ns : List Nat} : k ∈ ascending ns ↔ k ∈ ns := by
  induction ns with
  | nil => simp [ascending]
  | cons n ns ih =>
    rw [List.mem_cons, ← ih]
    exact mem_insertOnce

theorem pairwise_insertOnce {n : Nat} {ms : List Nat} (h : ms.Pairwise (· < ·)) :
    (insertOnce n ms).Pairwise (· < ·) := by
  induction ms with
  | nil => simp [insertOnce]
  | cons m ms ih =>
    rw [List.pairwise_cons] at h
    unfold insertOnce
    split
    · next hn =>
      refine List.pairwise_cons.2 ⟨fun k hk => ?_, List.pairwise_cons.2 h⟩
      rcases List.mem_cons.1 hk with rfl | hk
      · exact hn
      · exact Nat.lt_trans hn (h.1 k hk)
    · split
      · exact List.pairwise_cons.2 h
      · refine List.pairwise_cons.2 ⟨fun k hk => ?_, ih h.2⟩
        rcases mem_insertOnce.1 hk with rfl | hk
        · omega
        · exact h.1 k hk

/-- **The numbers increase.** -/
theorem pairwise_ascending (ns : List Nat) : (ascending ns).Pairwise (· < ·) := by
  induction ns with
  | nil => simp [ascending]
  | cons n ns ih => exact pairwise_insertOnce ih

end ArcCoverage.Order

import Mathlib.Tactic

/-!
# Sorting

Where an order is total on a list and tells its elements apart, the list has one sorted form: sorting forgets the order the
elements came in, and leaving some of them out can be done before or after.
-/

namespace Sorted

variable {α : Type} {r : α → α → Prop} [DecidableRel r] [Std.Total r] [IsTrans α r]

/-- Lists with the same elements are sorted alike. -/
theorem sort_perm {xs ys : List α} (h : xs.Perm ys) (hanti : ∀ a ∈ xs, ∀ b ∈ xs, r a b → r b a → a = b) :
    xs.insertionSort r = ys.insertionSort r := by
  refine @List.Perm.eq_of_pairwise _ r _ _ ?_ (List.pairwise_insertionSort _ _) (List.pairwise_insertionSort _ _)
    ((List.perm_insertionSort _ _).trans (h.trans (List.perm_insertionSort _ _).symm))
  intro a b ha hb hab hba
  rw [List.mem_insertionSort] at ha hb
  exact hanti a ha b (h.mem_iff.2 hb) hab hba

/-- Leaving elements out and sorting can be exchanged. -/
theorem sort_filter (p : α → Bool) {xs : List α} (hanti : ∀ a ∈ xs, ∀ b ∈ xs, r a b → r b a → a = b) :
    (xs.filter p).insertionSort r = (xs.insertionSort r).filter p := by
  refine @List.Perm.eq_of_pairwise _ r _ _ ?_ (List.pairwise_insertionSort _ _) ((List.pairwise_insertionSort _ _).filter _)
    ((List.perm_insertionSort _ _).trans ((List.perm_insertionSort _ _).symm.filter p))
  intro a b ha hb hab hba
  rw [List.mem_insertionSort, List.mem_filter] at ha
  rw [List.mem_filter, List.mem_insertionSort] at hb
  exact hanti a ha.1 b hb.1 hab hba

/-- Of two elements of a list one stands before the other. -/
theorem either_before {β : Type} {q : β → β → Prop} {xs : List β} (h : xs.Pairwise q) {a b : β} (ha : a ∈ xs) (hb : b ∈ xs)
    (hne : a ≠ b) : q a b ∨ q b a := by
  have hsymm : Std.Symm fun a b => q a b ∨ q b a := ⟨fun _ _ => Or.symm⟩
  have heither : xs.Pairwise fun a b => q a b ∨ q b a := h.imp fun hab => .inl hab
  exact heither.forall ha hb hne

/-! ## Sorting by two keys -/

section Lex

variable {β T S : Type} [LinearOrder T] [LinearOrder S] {f : β → T} {g : β → S}

/-- The order by one key, and by a second where the first ones are equal. -/
def Lex (f : β → T) (g : β → S) (a b : β) : Prop := f a < f b ∨ (f a = f b ∧ g a ≤ g b)

instance : DecidableRel (Lex f g) := fun a b => inferInstanceAs (Decidable (f a < f b ∨ (f a = f b ∧ g a ≤ g b)))

instance : Std.Total (Lex f g) where
  total a b := by
    unfold Lex
    rcases lt_trichotomy (f a) (f b) with h | h | h
    · exact .inl (.inl h)
    · rcases le_total (g a) (g b) with h' | h'
      · exact .inl (.inr ⟨h, h'⟩)
      · exact .inr (.inr ⟨h.symm, h'⟩)
    · exact .inr (.inl h)

instance : IsTrans β (Lex f g) where
  trans a b c hab hbc := by
    unfold Lex at *
    rcases hab with hab | ⟨hab, hab'⟩
    · rcases hbc with hbc | ⟨hbc, -⟩
      · exact .inl (hab.trans hbc)
      · exact .inl (hbc ▸ hab)
    · rcases hbc with hbc | ⟨hbc, hbc'⟩
      · exact .inl (hab ▸ hbc)
      · exact .inr ⟨hab.trans hbc, hab'.trans hbc'⟩

/-- Where the second keys differ, the order tells the elements apart. -/
theorem lex_antisymm {xs : List β} (h : (xs.map g).Nodup) : ∀ a ∈ xs, ∀ b ∈ xs, Lex f g a b → Lex f g b a → a = b := by
  intro a ha b hb hab hba
  have hg : g a = g b := by
    rcases hab with hab | ⟨hab, hab'⟩
    · rcases hba with hba | ⟨hba, -⟩
      · exact absurd hba (not_lt.2 hab.le)
      · exact absurd hba hab.ne'
    · rcases hba with hba | ⟨-, hba'⟩
      · exact absurd hab hba.ne'
      · exact le_antisymm hab' hba'
  exact List.inj_on_of_nodup_map h ha hb hg

end Lex

end Sorted

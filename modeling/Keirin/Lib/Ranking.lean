import Mathlib.Tactic

/-!
# Ranking

The elements of a list in descending order of a value, those of one value in the order they were given. A ranking is determined by
this, and leaving elements out can be done before or after.
-/

namespace Ranking

variable {α β : Type} [LinearOrder β] {f : α → β} {xs ys zs : List α}

/-- A list ranked: the same elements in descending order, elements of one value in the order they were given. -/
structure Ranks (f : α → β) (xs ys : List α) : Prop where
  perm : ys.Perm xs
  sorted : ys.Pairwise fun a b => f b ≤ f a
  stable : ∀ v, ys.filter (fun a => f a = v) = xs.filter fun a => f a = v

/-- A stable sort by descending values. -/
def rank (f : α → β) (xs : List α) : List α := xs.insertionSort fun a b => f b ≤ f a

/-- The first elements of a ranked list. -/
def Top (n : ℕ) (f : α → β) (xs ys : List α) : Prop := ∃ zs, Ranks f xs zs ∧ ys = zs.take n

instance totalBy (f : α → β) : Std.Total fun a b : α => f b ≤ f a := ⟨fun a b => le_total (f b) (f a)⟩

instance transBy (f : α → β) : IsTrans α fun a b => f b ≤ f a := ⟨fun _ _ _ hab hbc => le_trans hbc hab⟩

/-- An element is inserted before those of its value. -/
theorem filter_orderedInsert (a : α) (v : β) (xs : List α) :
    (xs.orderedInsert (fun a b => f b ≤ f a) a).filter (fun b => f b = v) = (a :: xs).filter fun b => f b = v := by
  induction xs with
  | nil => rfl
  | cons b xs ih =>
    rw [List.orderedInsert_cons]
    split_ifs with hab
    · rfl
    · -- `b` has a greater value than `a`, so at most one of them has the value `v`
      have hne : f b ≠ f a := fun he => hab he.le
      rw [List.filter_cons, ih]
      by_cases hb : f b = v
      · have ha : f a ≠ v := fun ha => hne (hb.trans ha.symm)
        simp [hb, ha]
      · simp [List.filter_cons, hb]

theorem rank_ranks (f : α → β) (xs : List α) : Ranks f xs (rank f xs) where
  perm := List.perm_insertionSort _ xs
  sorted := List.pairwise_insertionSort _ xs
  stable := by
    intro v
    induction xs with
    | nil => rfl
    | cons a xs ih =>
      show ((rank f xs).orderedInsert _ a).filter _ = _
      rw [filter_orderedInsert, List.filter_cons, List.filter_cons, ih]

/-- The first of a ranked list has the greatest value. -/
theorem Ranks.head_max {y : α} (h : Ranks f xs (y :: ys)) : ∀ x ∈ xs, f x ≤ f y := by
  intro x hx
  rcases List.mem_cons.1 (h.perm.mem_iff.2 hx) with rfl | hx
  · exact le_rfl
  · exact List.rel_of_pairwise_cons h.sorted hx

/-- A list has one ranking. -/
theorem Ranks.unique (hy : Ranks f xs ys) (hz : Ranks f xs zs) : ys = zs := by
  induction ys generalizing xs zs with
  | nil => exact ((hz.perm.trans hy.perm.symm).eq_nil).symm
  | cons y ys ih =>
    cases zs with
    | nil => exact absurd (hy.perm.trans hz.perm.symm).eq_nil (List.cons_ne_nil y ys)
    | cons z zs =>
      have hvalue : f y = f z := le_antisymm (hz.head_max y (hy.perm.subset List.mem_cons_self))
        (hy.head_max z (hz.perm.subset List.mem_cons_self))
      have hfirst := (hy.stable (f y)).trans (hz.stable (f y)).symm
      rw [List.filter_cons, List.filter_cons, if_pos (decide_eq_true rfl), if_pos (decide_eq_true hvalue.symm)] at hfirst
      obtain ⟨rfl, -⟩ := List.cons.inj hfirst
      have hrest : Ranks f ys ys := ⟨List.Perm.refl _, hy.sorted.of_cons, fun _ => rfl⟩
      refine congrArg (y :: ·) (ih hrest ⟨?_, hz.sorted.of_cons, ?_⟩)
      · exact ((hz.perm.trans hy.perm.symm).cons_inv)
      · intro v
        have hsame := (hz.stable v).trans (hy.stable v).symm
        rw [List.filter_cons, List.filter_cons] at hsame
        split_ifs at hsame with hv
        · exact List.tail_eq_of_cons_eq hsame
        · exact hsame

/-- Elements left out of a ranked list can be left out before. -/
theorem Ranks.filter (h : Ranks f xs ys) (p : α → Bool) : Ranks f (xs.filter p) (ys.filter p) where
  perm := h.perm.filter p
  sorted := h.sorted.filter p
  stable := by
    intro v
    rw [List.filter_comm, h.stable v, List.filter_comm]

theorem rank_filter (f : α → β) (p : α → Bool) (xs : List α) : rank f (xs.filter p) = (rank f xs).filter p :=
  (rank_ranks f _).unique ((rank_ranks f xs).filter p)

end Ranking

import Mathlib.Tactic

/-!
# Lists without repetition

Of a list each element is kept whose fingerprint no element before it has; taking a fingerprint may fail. What is kept has
distinct fingerprints, so keeping again changes nothing; and where equal fingerprints tell elements of one class, keeping and
selecting a class can change places.
-/

namespace Distinct

variable {α κ ε : Type} [DecidableEq κ] {f : α → Except ε κ}

/-- The elements whose fingerprint is not among `seen` and was not met before. -/
def keep (f : α → Except ε κ) : (seen : List κ) → List α → Except ε (List α)
  | _, [] => .ok []
  | seen, x :: xs =>
    match f x with
    | .error e => .error e
    | .ok k => if k ∈ seen then keep f seen xs else (keep f (k :: seen) xs).map (x :: ·)

theorem keep_cons_ok {seen : List κ} {x : α} {xs ys : List α} (h : keep f seen (x :: xs) = .ok ys) :
    ∃ k, f x = .ok k ∧ ((k ∈ seen ∧ keep f seen xs = .ok ys) ∨
      (k ∉ seen ∧ ∃ zs, keep f (k :: seen) xs = .ok zs ∧ ys = x :: zs)) := by
  rw [keep] at h
  split at h
  · nomatch h
  · rename_i k hk
    refine ⟨k, hk, ?_⟩
    split_ifs at h with hseen
    · exact .inl ⟨hseen, h⟩
    · cases hz : keep f (k :: seen) xs with
      | error e => simp [hz, Except.map] at h
      | ok zs =>
        rw [hz] at h
        cases h
        exact .inr ⟨hseen, zs, rfl, rfl⟩

/-- What is kept is a part of the list. -/
theorem keep_sublist {seen : List κ} {xs ys : List α} (h : keep f seen xs = .ok ys) : ys.Sublist xs := by
  induction xs generalizing seen ys with
  | nil =>
    cases h
    exact .slnil
  | cons x xs ih =>
    obtain ⟨k, -, ⟨-, h⟩ | ⟨-, zs, hz, rfl⟩⟩ := keep_cons_ok h
    · exact (ih h).cons x
    · exact (ih hz).cons₂ x

/-- Every element has a fingerprint. -/
theorem keep_defined {seen : List κ} {xs ys : List α} (h : keep f seen xs = .ok ys) : ∀ x ∈ xs, ∃ k, f x = .ok k := by
  induction xs generalizing seen ys with
  | nil => simp
  | cons x xs ih =>
    obtain ⟨k, hk, ⟨-, h⟩ | ⟨-, zs, hz, rfl⟩⟩ := keep_cons_ok h
    · exact List.forall_mem_cons.2 ⟨⟨k, hk⟩, ih h⟩
    · exact List.forall_mem_cons.2 ⟨⟨k, hk⟩, ih hz⟩

/-- What is kept has fingerprints that were not seen. -/
theorem keep_fresh {seen : List κ} {xs ys : List α} (h : keep f seen xs = .ok ys) : ∀ y ∈ ys, ∀ k ∈ seen, f y ≠ .ok k := by
  induction xs generalizing seen ys with
  | nil =>
    cases h
    simp
  | cons x xs ih =>
    obtain ⟨k, hk, ⟨-, h⟩ | ⟨hnew, zs, hz, rfl⟩⟩ := keep_cons_ok h
    · exact ih h
    · refine List.forall_mem_cons.2 ⟨fun k' hk' he => ?_, fun y hy k' hk' => ih hz y hy k' (List.mem_cons_of_mem _ hk')⟩
      rw [hk] at he
      cases he
      exact hnew hk'

/-- What is kept has distinct fingerprints. -/
theorem keep_pairwise {seen : List κ} {xs ys : List α} (h : keep f seen xs = .ok ys) : ys.Pairwise fun x y => f x ≠ f y := by
  induction xs generalizing seen ys with
  | nil =>
    cases h
    exact .nil
  | cons x xs ih =>
    obtain ⟨k, hk, ⟨-, h⟩ | ⟨-, zs, hz, rfl⟩⟩ := keep_cons_ok h
    · exact ih h
    · refine .cons (fun y hy he => ?_) (ih hz)
      exact keep_fresh hz y hy k List.mem_cons_self (he ▸ hk)

/-- Elements with distinct fingerprints, none of them seen, are all kept. -/
theorem keep_of_pairwise {seen : List κ} {ys : List α} (hdef : ∀ y ∈ ys, ∃ k, f y = .ok k) (hfresh : ∀ y ∈ ys, ∀ k ∈ seen, f y ≠ .ok k)
    (hne : ys.Pairwise fun x y => f x ≠ f y) : keep f seen ys = .ok ys := by
  induction ys generalizing seen with
  | nil => rfl
  | cons y ys ih =>
    obtain ⟨k, hk⟩ := hdef y List.mem_cons_self
    have hnew : k ∉ seen := fun hs => hfresh y List.mem_cons_self k hs hk
    have hrest : keep f (k :: seen) ys = .ok ys := by
      refine ih (fun z hz => hdef z (List.mem_cons_of_mem _ hz)) (fun z hz k' hk' he => ?_) hne.tail
      rcases List.mem_cons.1 hk' with rfl | hk'
      · exact (List.pairwise_cons.1 hne).1 z hz (hk.trans he.symm)
      · exact hfresh z (List.mem_cons_of_mem _ hz) k' hk' he
    rw [keep, hk]
    simp only [hnew, if_false, hrest]
    rfl

/-- Keeping again changes nothing, also of a part of what was kept. -/
theorem keep_again {seen : List κ} {xs ys zs : List α} (h : keep f seen xs = .ok ys) (hz : zs.Sublist ys) : keep f [] zs = .ok zs := by
  refine keep_of_pairwise (fun z hzs => ?_) (by simp) ((keep_pairwise h).sublist hz)
  exact keep_defined h z ((keep_sublist h).subset (hz.subset hzs))

/-- Keeping and selecting a class change places, where elements with one fingerprint are in one class. -/
theorem keep_filter {p : α → Bool} {seen seen' : List κ} {xs ys : List α} (h : keep f seen xs = .ok ys)
    (hclass : ∀ x ∈ xs, ∀ y ∈ xs, f x = f y → p x = p y)
    (hseen : ∀ x ∈ xs, p x = true → ∀ k, f x = .ok k → (k ∈ seen ↔ k ∈ seen')) :
    keep f seen' (xs.filter p) = .ok (ys.filter p) := by
  induction xs generalizing seen seen' ys with
  | nil =>
    cases h
    rfl
  | cons x xs ih =>
    have hclass' : ∀ y ∈ xs, ∀ z ∈ xs, f y = f z → p y = p z := fun y hy z hz =>
      hclass y (List.mem_cons_of_mem _ hy) z (List.mem_cons_of_mem _ hz)
    have htail : ∀ y ∈ xs, p y = true → ∀ k, f y = .ok k → (k ∈ seen ↔ k ∈ seen') := fun y hy =>
      hseen y (List.mem_cons_of_mem _ hy)
    obtain ⟨k, hk, hcase⟩ := keep_cons_ok h
    cases hp : p x with
    | false =>
      rw [List.filter_cons_of_neg (by simp [hp])]
      rcases hcase with ⟨-, h⟩ | ⟨-, zs, hz, rfl⟩
      · exact ih h hclass' htail
      · rw [List.filter_cons_of_neg (by simp [hp])]
        refine ih hz hclass' fun y hy hpy k' hk' => ?_
        have hne : k' ≠ k := fun he => by
          have := hclass y (List.mem_cons_of_mem _ hy) x List.mem_cons_self (by rw [hk', hk, he])
          rw [hpy, hp] at this
          nomatch this
        rw [List.mem_cons, or_iff_right hne]
        exact htail y hy hpy k' hk'
    | true =>
      rw [List.filter_cons_of_pos hp, keep, hk]
      have hmem := hseen x List.mem_cons_self hp k hk
      rcases hcase with ⟨hin, h⟩ | ⟨hout, zs, hz, rfl⟩
      · simp only [hmem.1 hin, if_true]
        exact ih h hclass' htail
      · have hrest : keep f (k :: seen') (xs.filter p) = .ok (zs.filter p) :=
          ih hz hclass' fun y hy hpy k' hk' => by rw [List.mem_cons, List.mem_cons, htail y hy hpy k' hk']
        have hout' : k ∉ seen' := fun hin => hout (hmem.2 hin)
        simp only [hout', if_false, hrest, List.filter_cons_of_pos hp]
        rfl

end Distinct

import Mathlib.Tactic

/-!
# Orders with ties

Groups of elements, one after the other, where the elements of one group are tied. A list refines the groups where it breaks the
ties: it puts the groups one after the other, each in some order. The first places of such lists are its prefixes.
-/

namespace WeakOrder

variable {α : Type}

/-- The list puts the groups one after the other, each in some order. -/
def Refines (groups : List (List α)) (order : List α) : Prop :=
  ∃ parts, List.Forall₂ List.Perm parts groups ∧ order = parts.flatten

/-- What can stand at the first `n` places. -/
def Prefixes (groups : List (List α)) (n : ℕ) : Set (List α) := {l | l.length = n ∧ ∃ order, Refines groups order ∧ l <+: order}

@[simp] theorem refines_nil {order : List α} : Refines [] order ↔ order = [] := by
  constructor
  · rintro ⟨parts, hparts, rfl⟩
    cases hparts
    rfl
  · rintro rfl
    exact ⟨[], .nil, rfl⟩

theorem refines_cons {g : List α} {groups : List (List α)} {order : List α} :
    Refines (g :: groups) order ↔ ∃ p rest, p.Perm g ∧ Refines groups rest ∧ order = p ++ rest := by
  constructor
  · rintro ⟨parts, hparts, rfl⟩
    cases hparts with
    | cons hp hrest => exact ⟨_, _, hp, ⟨_, hrest, rfl⟩, rfl⟩
  · rintro ⟨p, _, hp, ⟨parts, hparts, rfl⟩, rfl⟩
    exact ⟨p :: parts, .cons hp hparts, rfl⟩

theorem refines_flatten (groups : List (List α)) : Refines groups groups.flatten :=
  ⟨groups, List.forall₂_same.2 fun g _ => .refl g, rfl⟩

/-- A list that refines groups has their elements. -/
theorem Refines.perm {groups : List (List α)} {order : List α} (h : Refines groups order) : order.Perm groups.flatten := by
  obtain ⟨parts, hparts, rfl⟩ := h
  induction hparts with
  | nil => exact .refl _
  | cons hp _ ih => exact hp.append ih

theorem Refines.length_eq {groups : List (List α)} {order : List α} (h : Refines groups order) :
    order.length = (groups.map List.length).sum := by rw [h.perm.length_eq, List.length_flatten]

/-- Each group may be given in any order. -/
theorem refines_congr {groups groups' : List (List α)} (h : List.Forall₂ List.Perm groups groups') {order : List α} :
    Refines groups order ↔ Refines groups' order := by
  have hmono : ∀ {gs gs' : List (List α)}, List.Forall₂ List.Perm gs gs' → Refines gs order → Refines gs' order := by
    rintro gs gs' hgs ⟨parts, hparts, rfl⟩
    refine ⟨parts, ?_, rfl⟩
    clear h
    induction hparts generalizing gs' with
    | nil =>
      cases hgs
      exact .nil
    | cons hp _ ih =>
      cases hgs with
      | cons hg hgs => exact .cons (hp.trans hg) (ih hgs)
  exact ⟨hmono h, hmono (List.Forall₂.flip (h.imp fun _ _ hg => hg.symm))⟩

/-- The first places are the first ones of a list that is long enough. -/
theorem mem_prefixes {groups : List (List α)} {n : ℕ} {l : List α} :
    l ∈ Prefixes groups n ↔ n ≤ (groups.map List.length).sum ∧ ∃ order, Refines groups order ∧ l = order.take n := by
  constructor
  · rintro ⟨rfl, order, horder, hl⟩
    exact ⟨horder.length_eq ▸ hl.length_le, order, horder, List.prefix_iff_eq_take.1 hl⟩
  · rintro ⟨hn, order, horder, rfl⟩
    refine ⟨List.length_take_of_le (horder.length_eq ▸ hn), order, horder, List.take_prefix _ _⟩

/-- Where there are as many elements as the more places, the fewer first places are those of the more. -/
theorem prefixes_take {groups : List (List α)} {n m : ℕ} (hnm : n ≤ m) (hm : m ≤ (groups.map List.length).sum) :
    Prefixes groups n = (fun l => l.take n) '' Prefixes groups m := by
  ext l
  rw [Set.mem_image, mem_prefixes]
  constructor
  · rintro ⟨-, order, horder, rfl⟩
    refine ⟨order.take m, mem_prefixes.2 ⟨hm, order, horder, rfl⟩, ?_⟩
    rw [List.take_take, min_eq_left hnm]
  · rintro ⟨t, ht, rfl⟩
    obtain ⟨-, order, horder, rfl⟩ := mem_prefixes.1 ht
    refine ⟨hnm.trans hm, order, horder, ?_⟩
    rw [List.take_take, min_eq_left hnm]

/-! ## Distinct elements -/

variable [DecidableEq α]

/-- The group an element stands in, counted from the first. -/
def place (groups : List (List α)) (a : α) : ℕ := groups.findIdx fun g => decide (a ∈ g)

theorem place_head {g : List α} {groups : List (List α)} {a : α} (h : a ∈ g) : place (g :: groups) a = 0 := by
  simp [place, List.findIdx_cons, h]

theorem place_tail {g : List α} {groups : List (List α)} {a : α} (h : a ∉ g) : place (g :: groups) a = place groups a + 1 := by
  simp [place, List.findIdx_cons, h]

/-- A list in which no element of a group stands after one of another group begins with the group. -/
theorem eq_filter_append {g : List α} {order : List α} (h : order.Pairwise fun a b => b ∈ g → a ∈ g) :
    order = (order.filter fun a => decide (a ∈ g)) ++ order.filter fun a => decide (a ∉ g) := by
  induction order with
  | nil => rfl
  | cons a order ih =>
    obtain ⟨ha, horder⟩ := List.pairwise_cons.1 h
    by_cases hmem : a ∈ g
    · rw [List.filter_cons_of_pos (by simpa using hmem), List.filter_cons_of_neg (by simpa using hmem), List.cons_append, ← ih horder]
    · have hnone : ∀ b ∈ a :: order, b ∉ g :=
        List.forall_mem_cons.2 ⟨hmem, fun b hb hbg => hmem (ha b hb hbg)⟩
      rw [List.filter_eq_nil_iff.2 fun b hb => by simpa using hnone b hb, List.nil_append,
        List.filter_eq_self.2 fun b hb => by simpa using hnone b hb]

/-- Where the elements are distinct, the lists that refine the groups are the orders of the elements in which none stands before one of
an earlier group. -/
theorem refines_iff_pairwise {groups : List (List α)} (hd : groups.flatten.Nodup) {order : List α} :
    Refines groups order ↔ order.Perm groups.flatten ∧ order.Pairwise fun a b => place groups a ≤ place groups b := by
  induction groups generalizing order with
  | nil =>
    rw [refines_nil, List.flatten_nil, List.perm_nil]
    refine ⟨fun h => ⟨h, ?_⟩, And.left⟩
    rw [h]
    exact .nil
  | cons g groups ih =>
    rw [List.flatten_cons] at hd ⊢
    obtain ⟨-, hrest, hdisjoint⟩ := List.nodup_append'.1 hd
    rw [refines_cons]
    constructor
    · rintro ⟨p, rest, hp, hrefines, rfl⟩
      obtain ⟨hperm, hpair⟩ := (ih hrest).1 hrefines
      have hout : ∀ b ∈ rest, b ∉ g := fun b hb hbg => hdisjoint hbg (hperm.mem_iff.1 hb)
      refine ⟨hp.append hperm, List.pairwise_append.2 ⟨?_, ?_, ?_⟩⟩
      · refine List.pairwise_of_forall_mem_list fun a ha b _ => ?_
        rw [place_head (hp.mem_iff.1 ha)]
        exact Nat.zero_le _
      · refine hpair.imp_of_mem fun ha hb hab => ?_
        rw [place_tail (hout _ ha), place_tail (hout _ hb)]
        exact Nat.succ_le_succ hab
      · intro a ha b _
        rw [place_head (hp.mem_iff.1 ha)]
        exact Nat.zero_le _
    · rintro ⟨hperm, hpair⟩
      have hfirst : order.Pairwise fun a b => b ∈ g → a ∈ g := by
        refine hpair.imp fun {a b} hab hb => ?_
        by_contra ha
        rw [place_head hb, place_tail ha] at hab
        omega
      refine ⟨_, _, ?_, (ih hrest).2 ⟨?_, ?_⟩, eq_filter_append hfirst⟩
      · refine (hperm.filter _).trans (.of_eq ?_)
        rw [List.filter_append, List.filter_eq_self.2 fun a ha => by simpa using ha,
          List.filter_eq_nil_iff.2 fun a ha => by simpa using fun hag => hdisjoint hag ha, List.append_nil]
      · refine (hperm.filter _).trans (.of_eq ?_)
        rw [List.filter_append, List.filter_eq_nil_iff.2 fun a ha => by simpa using ha,
          List.filter_eq_self.2 fun a ha => by simpa using fun hag => hdisjoint hag ha, List.nil_append]
      · refine (hpair.filter _).imp_of_mem fun {a b} ha hb hab => ?_
        have hout : ∀ c ∈ order.filter fun c => decide (c ∉ g), c ∉ g := fun c hc => of_decide_eq_true (List.mem_filter.1 hc).2
        rw [place_tail (hout _ ha), place_tail (hout _ hb)] at hab
        exact Nat.le_of_succ_le_succ hab

end WeakOrder

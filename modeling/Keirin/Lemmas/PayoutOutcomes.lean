import Keirin.Lib.WeakOrder
import Keirin.Lemmas.HistoricalPayouts
import Keirin.OfficialDetail

/-!
# The outcomes of a finish

The outcomes of a width are the first places of the orders of the finishers that break the ties of the groups, whether they are built
group by group or prefix by prefix; and the groups are in order exactly where the ranks are those of a competition.
-/

namespace Keirin.HistoricalPayouts

open WeakOrder

/-! ## Selections -/

/-- A selection is what begins an order of the group. -/
theorem mem_selections {n : ℕ} {group l : List ℕ} : l ∈ selections n group ↔ l.length = n ∧ ∃ rest, (l ++ rest).Perm group := by
  induction n generalizing group l with
  | zero =>
    rw [selections, List.mem_singleton, List.length_eq_zero_iff]
    refine ⟨fun h => ⟨h, group, ?_⟩, And.left⟩
    rw [h]
    exact .refl _
  | succ n ih =>
    rw [selections, List.mem_flatMap]
    constructor
    · rintro ⟨c, hc, hmem⟩
      obtain ⟨tail, htail, rfl⟩ := List.mem_map.1 hmem
      obtain ⟨rfl, rest, hrest⟩ := ih.1 htail
      exact ⟨rfl, rest, List.cons_perm_iff_perm_erase.2 ⟨hc, hrest⟩⟩
    · rintro ⟨hlength, rest, hrest⟩
      cases l with
      | nil => nomatch hlength
      | cons c l =>
        obtain ⟨hc, hrest⟩ := List.cons_perm_iff_perm_erase.1 hrest
        exact ⟨c, hc, List.mem_map_of_mem (ih.2 ⟨Nat.succ.inj hlength, rest, hrest⟩)⟩

/-- The selections for the places a group can fill are the first places of its orders. -/
theorem mem_selections_min {n : ℕ} {group l : List ℕ} :
    l ∈ selections (min n group.length) group ↔ ∃ p : List ℕ, p.Perm group ∧ l = p.take n := by
  rw [mem_selections]
  constructor
  · rintro ⟨hlength, rest, hrest⟩
    refine ⟨l ++ rest, hrest, ?_⟩
    have hsize := hrest.length_eq
    rw [List.length_append] at hsize
    rcases le_total n group.length with hn | hn
    · rw [min_eq_left hn] at hlength
      rw [← hlength, List.take_left]
    · rw [min_eq_right hn] at hlength
      have : rest = [] := List.length_eq_zero_iff.1 (by omega)
      rw [this, List.append_nil, List.take_of_length_le (hlength.trans_le hn)]
  · rintro ⟨p, hp, rfl⟩
    refine ⟨by rw [List.length_take, hp.length_eq], p.drop n, ?_⟩
    rwa [List.take_append_drop]

theorem selections_ne_nil {n : ℕ} {group : List ℕ} : selections (min n group.length) group ≠ [] :=
  List.ne_nil_of_mem (mem_selections_min.2 ⟨group, .refl _, rfl⟩)

/-! ## Group by group -/

/-- The first group is arranged, and the groups after it at the places that are left. -/
theorem mem_arrange_cons {width : ℕ} {group : List ℕ} {groups : List (List ℕ)} {l : List ℕ} :
    l ∈ arrange width (group :: groups) ↔
      ∃ first ∈ selections (min width group.length) group, ∃ rest ∈ arrange (width - min width group.length) groups,
        l = first ++ rest := by
  cases width with
  | zero =>
    have hzero : arrange 0 groups = [[]] := by cases groups <;> rfl
    simp [arrange, selections, hzero]
  | succ n =>
    rw [arrange]
    simp only [List.mem_flatMap, List.mem_map, eq_comm (a := l)]

/-- What is arranged group by group is the beginning of an order that refines the groups. -/
theorem mem_arrange {width : ℕ} {groups : List (List ℕ)} {l : List ℕ} :
    l ∈ arrange width groups ↔ ∃ order, Refines groups order ∧ l = order.take width := by
  induction groups generalizing width l with
  | nil =>
    rw [arrange, List.mem_singleton]
    simp only [refines_nil, exists_eq_left, List.take_nil]
  | cons group groups ih =>
    have hleft : width - min width group.length = width - group.length := by omega
    rw [mem_arrange_cons, hleft]
    simp only [mem_selections_min, ih, refines_cons]
    constructor
    · rintro ⟨_, ⟨p, hp, rfl⟩, _, ⟨order, horder, rfl⟩, rfl⟩
      refine ⟨p ++ order, ⟨p, order, hp, horder, rfl⟩, ?_⟩
      rw [List.take_append, hp.length_eq]
    · rintro ⟨_, ⟨p, order, hp, horder, rfl⟩, rfl⟩
      refine ⟨p.take width, ⟨p, hp, rfl⟩, order.take (width - group.length), ⟨order, horder, rfl⟩, ?_⟩
      rw [List.take_append, hp.length_eq]

/-- The outcomes are what can stand at the first places. -/
theorem mem_outcomes {groups : List (List ℕ)} {width : ℕ} {l : List ℕ} : l ∈ outcomes groups width ↔ l ∈ Prefixes groups width := by
  rw [mem_prefixes, outcomes]
  split_ifs with hfew
  · simp [Nat.not_le.2 hfew]
  · rw [List.mem_dedup, mem_arrange, and_iff_right (Nat.not_lt.1 hfew)]

theorem nodup_outcomes (groups : List (List ℕ)) (width : ℕ) : (outcomes groups width).Nodup := by
  rw [outcomes]
  split_ifs
  · exact List.nodup_nil
  · exact List.nodup_dedup _

/-! ## The groups of the ranks -/

/-- The cars of each rank, the ranks in their order. -/
def finishGroups (ranks : List (ℕ × ℕ)) : List (List ℕ) :=
  ((ranks.map Prod.fst).dedup.insertionSort (· ≤ ·)).map fun rank =>
    ((ranks.filter fun r => r.1 = rank).map Prod.snd).insertionSort (· ≤ ·)

/-- The ranks of a competition: a rank is one more than the number of those that are better. -/
def Competition (ranks : List ℕ) : Prop := ∀ n ∈ ranks, n = ranks.countP (· < n) + 1

instance (ranks : List ℕ) : Decidable (Competition ranks) := List.decidableBAll _ _

/-- Those outside a list are those outside the longer list and the ones equal to its first element. -/
theorem countP_not_mem {rank : ℕ} {rest : List ℕ} (h : rank ∉ rest) (ranks : List ℕ) :
    ranks.countP (fun n => decide (n ∉ rest)) = ranks.countP (fun n => decide (n ∉ rank :: rest)) + ranks.count rank := by
  induction ranks with
  | nil => rfl
  | cons n ranks ih =>
    rw [List.countP_cons, List.countP_cons, List.count_cons, ih]
    by_cases hn : n = rank
    · subst hn
      simp only [h, not_false_eq_true, decide_true, List.mem_cons_self, not_true_eq_false, decide_false, beq_self_eq_true, if_true,
        Bool.false_eq_true, if_false]
      omega
    · simp only [List.mem_cons, hn, false_or, beq_eq_false_iff_ne.2 hn, Bool.false_eq_true, if_false]
      omega

/-- Where the ranks of a list stand in their order and all others are better, those outside the list are those better than its first. -/
theorem countP_better {ranks : List ℕ} {rank : ℕ} {rest : List ℕ} (hsorted : (rank :: rest).Pairwise (· < ·))
    (hall : ∀ n ∈ ranks, n ∈ rank :: rest ∨ ∀ m ∈ rank :: rest, n < m) :
    ranks.countP (fun n => decide (n ∉ rank :: rest)) = ranks.countP (· < rank) := by
  refine List.countP_congr fun n hn => ?_
  rw [decide_eq_true_iff, decide_eq_true_iff]
  constructor
  · intro hmem
    exact (hall n hn).resolve_left hmem rank List.mem_cons_self
  · intro hlt hmem
    rcases List.mem_cons.1 hmem with rfl | hmem
    · exact lt_irrefl _ hlt
    · exact lt_asymm hlt ((List.pairwise_cons.1 hsorted).1 n hmem)

theorem better_tail {ranks : List ℕ} {rank : ℕ} {rest : List ℕ} (hsorted : (rank :: rest).Pairwise (· < ·))
    (hall : ∀ n ∈ ranks, n ∈ rank :: rest ∨ ∀ m ∈ rank :: rest, n < m) : ∀ n ∈ ranks, n ∈ rest ∨ ∀ m ∈ rest, n < m := by
  intro n hn
  rcases hall n hn with hmem | hlt
  · rcases List.mem_cons.1 hmem with rfl | hmem
    · exact .inr (List.pairwise_cons.1 hsorted).1
    · exact .inl hmem
  · exact .inr fun m hm => hlt m (List.mem_cons_of_mem _ hm)

/-- The cars of a rank are as many as the ranks equal to it. -/
theorem length_group (ranks : List (ℕ × ℕ)) (rank : ℕ) :
    ((ranks.filter fun r => r.1 = rank).map Prod.snd).length = (ranks.map Prod.fst).count rank := by
  rw [List.length_map, ← List.countP_eq_length_filter, List.count, List.countP_map]
  exact List.countP_congr fun r _ => by simp

/-- The groups are in order exactly where each of their ranks is one more than the number of those that are better. -/
theorem rankGroups_ok {ranks : List (ℕ × ℕ)} {keys : List ℕ} {groups : List (List ℕ)} (hsorted : keys.Pairwise (· < ·))
    (hall : ∀ n ∈ ranks.map Prod.fst, n ∈ keys ∨ ∀ m ∈ keys, n < m) :
    rankGroups ranks ((ranks.map Prod.fst).countP (fun n => decide (n ∉ keys)) + 1) keys = .ok groups ↔
      (∀ n ∈ keys, n = (ranks.map Prod.fst).countP (· < n) + 1) ∧
        groups = keys.map fun rank => ((ranks.filter fun r => r.1 = rank).map Prod.snd).insertionSort (· ≤ ·) := by
  induction keys generalizing groups with
  | nil =>
    rw [rankGroups, Except.ok.injEq, List.map_nil]
    exact ⟨fun h => ⟨fun _ hn => (nomatch hn), h.symm⟩, fun h => h.2.symm⟩
  | cons rank rest ih =>
    have hnot : rank ∉ rest := fun h => lt_irrefl _ ((List.pairwise_cons.1 hsorted).1 rank h)
    have hnext : (ranks.map Prod.fst).countP (fun n => decide (n ∉ rank :: rest)) + 1 +
        ((ranks.filter fun r => r.1 = rank).map Prod.snd).length = (ranks.map Prod.fst).countP (fun n => decide (n ∉ rest)) + 1 := by
      rw [length_group, countP_not_mem hnot]
      omega
    rw [rankGroups, demand_bind_ok, decide_eq_true_iff, List.forall_mem_cons, countP_better hsorted hall]
    rw [countP_better hsorted hall] at hnext
    simp only [hnext, bind_ok, ih (List.pairwise_cons.1 hsorted).2 (better_tail hsorted hall), List.map_cons]
    constructor
    · rintro ⟨hrank, _, ⟨hrest, rfl⟩, h⟩
      exact ⟨⟨hrank, hrest⟩, (Except.ok.inj h).symm⟩
    · rintro ⟨⟨hrank, hrest⟩, rfl⟩
      exact ⟨hrank, _, ⟨hrest, rfl⟩, rfl⟩

/-- The ranks, each once and in their order. -/
theorem sorted_ranks (ranks : List ℕ) : (ranks.dedup.insertionSort (· ≤ ·)).Pairwise (· < ·) := by
  have hle := List.pairwise_insertionSort (· ≤ ·) ranks.dedup
  have hne : (ranks.dedup.insertionSort (· ≤ ·)).Nodup := (List.perm_insertionSort _ _).nodup_iff.2 (List.nodup_dedup _)
  exact (hle.and hne).imp fun h => lt_of_le_of_ne h.1 h.2

theorem mem_sorted_ranks {ranks : List ℕ} {n : ℕ} : n ∈ ranks.dedup.insertionSort (· ≤ ·) ↔ n ∈ ranks := by
  rw [List.mem_insertionSort, List.mem_dedup]

/-- The ranks are grouped exactly where they are those of a competition. -/
theorem rankGroups_iff {ranks : List (ℕ × ℕ)} {groups : List (List ℕ)} :
    rankGroups ranks 1 ((ranks.map Prod.fst).dedup.insertionSort (· ≤ ·)) = .ok groups ↔
      Competition (ranks.map Prod.fst) ∧ groups = finishGroups ranks := by
  have hnone : (ranks.map Prod.fst).countP (fun n => decide (n ∉ (ranks.map Prod.fst).dedup.insertionSort (· ≤ ·))) = 0 := by
    rw [List.countP_eq_zero]
    intro n hn
    simpa only [mem_sorted_ranks, decide_eq_true_eq, not_not] using hn
  have h := @rankGroups_ok ranks _ groups (sorted_ranks _) fun n hn => .inl (mem_sorted_ranks.2 hn)
  rw [hnone] at h
  rw [h]
  simp only [mem_sorted_ranks]
  rfl

/-! ## Prefix by prefix -/

section Tied

open OfficialDetail

theorem checkRanks_ok {expectedRank last : ℕ} {groups : List (ℕ × List ℕ)} (h : checkRanks expectedRank groups = .ok last) :
    last = expectedRank + (groups.map fun g => g.2.length).sum := by
  induction groups generalizing expectedRank with
  | nil =>
    cases h
    rfl
  | cons g groups ih =>
    obtain ⟨-, h⟩ := demand_bind_ok.1 h
    rw [ih h, List.map_cons, List.sum_cons]
    omega

/-- Prefixes of one length are extended by what is arranged at the places that are left. -/
theorem mem_extendPrefixes {width k : ℕ} {prefixes : List (List ℕ)} (hk : k ≤ width) (hlength : ∀ p ∈ prefixes, p.length = k)
    (hne : prefixes ≠ []) {groups : List (List ℕ)} {l : List ℕ} :
    l ∈ extendPrefixes width prefixes groups ↔
      ∃ p ∈ prefixes, ∃ rest ∈ arrange (width - k) (groups.map (List.insertionSort (· ≤ ·))), l = p ++ rest := by
  induction groups generalizing k prefixes with
  | nil => simp [extendPrefixes, arrange]
  | cons cars groups ih =>
    have hhead : (prefixes.headD []).length = k := by
      obtain ⟨p, rest, rfl⟩ := List.exists_cons_of_ne_nil hne
      exact hlength p List.mem_cons_self
    have hsize : (cars.insertionSort (· ≤ ·)).length = cars.length := List.length_insertionSort _ _
    rw [extendPrefixes, hhead]
    simp only
    split_ifs with hzero
    · rw [hzero, List.map_cons, arrange]
      simp
    · have hmin : min cars.length (width - k) = min (width - k) (cars.insertionSort (· ≤ ·)).length := by rw [hsize, min_comm]
      have hlonger : ∀ p ∈ (prefixes.flatMap fun first => (selections (min cars.length (width - k))
          (cars.insertionSort (· ≤ ·))).map (first ++ ·)).dedup, p.length = k + min cars.length (width - k) := by
        intro p hp
        obtain ⟨first, hfirst, hp⟩ := List.mem_flatMap.1 (List.mem_dedup.1 hp)
        obtain ⟨suffix, hsuffix, rfl⟩ := List.mem_map.1 hp
        rw [List.length_append, hlength first hfirst, (mem_selections.1 hsuffix).1]
      have hsome : (prefixes.flatMap fun first => (selections (min cars.length (width - k))
          (cars.insertionSort (· ≤ ·))).map (first ++ ·)).dedup ≠ [] := by
        obtain ⟨p, hp⟩ := List.exists_mem_of_ne_nil _ hne
        obtain ⟨suffix, hsuffix⟩ := List.exists_mem_of_ne_nil _ (@selections_ne_nil (width - k) (cars.insertionSort (· ≤ ·)))
        rw [← hmin] at hsuffix
        exact List.ne_nil_of_mem (List.mem_dedup.2 (List.mem_flatMap.2 ⟨p, hp, List.mem_map_of_mem hsuffix⟩))
      have hleft : width - (k + min cars.length (width - k)) = width - k - min (width - k) (cars.insertionSort (· ≤ ·)).length := by
        rw [← hmin]
        omega
      rw [ih (by omega) hlonger hsome, List.map_cons, hleft]
      simp only [mem_arrange_cons, List.mem_dedup, List.mem_flatMap, List.mem_map, ← hmin]
      constructor
      · rintro ⟨_, ⟨p, hp, suffix, hsuffix, rfl⟩, rest, hrest, rfl⟩
        exact ⟨p, hp, _, ⟨suffix, hsuffix, rest, hrest, rfl⟩, List.append_assoc ..⟩
      · rintro ⟨p, hp, _, ⟨suffix, hsuffix, rest, hrest, rfl⟩, rfl⟩
        exact ⟨_, ⟨p, hp, suffix, hsuffix, rfl⟩, rest, hrest, (List.append_assoc ..).symm⟩

/-- The ranks of the rows that have one, with the cars. -/
def rankings (rows : List RankedRow) : List (ℕ × ℕ) :=
  rows.filterMap fun row => row.finishPosition.map fun rank => (rank, row.carNumber)

theorem rankings_fst (rows : List RankedRow) : (rankings rows).map Prod.fst = rows.filterMap RankedRow.finishPosition := by
  induction rows with
  | nil => rfl
  | cons row rows ih =>
    rw [rankings] at ih ⊢
    cases hrank : row.finishPosition with
    | none => simpa [hrank] using ih
    | some n => simpa [hrank] using ih

theorem rankings_filter (rows : List RankedRow) (rank : ℕ) : ((rankings rows).filter fun r => r.1 = rank).map Prod.snd =
    (rows.filter fun row => row.finishPosition = some rank).map RankedRow.carNumber := by
  induction rows with
  | nil => rfl
  | cons row rows ih =>
    rw [rankings] at ih ⊢
    cases hrank : row.finishPosition with
    | none => simpa [hrank] using ih
    | some n =>
      by_cases hn : n = rank
      · simpa [hrank, hn] using ih
      · simpa [hrank, hn] using ih

/-- The cars of the ranks are the groups, each in the order of its cars. -/
theorem rankedCars_sorted (rows : List RankedRow) :
    ((rankedCars rows).map Prod.snd).map (List.insertionSort (· ≤ ·)) = finishGroups (rankings rows) := by
  rw [rankedCars, finishGroups, rankings_fst, List.map_map, List.map_map]
  exact List.map_congr_left fun rank _ => by rw [rankings_filter]; rfl

/-- Where the ranks are in order, prefix by prefix comes to the outcomes of the groups. -/
theorem mem_tiedRankOutcomes {rows : List RankedRow} {width : ℕ} {found : List (List ℕ)} (h : tiedRankOutcomes rows width = .ok found)
    {l : List ℕ} : l ∈ found ↔ l ∈ outcomes (finishGroups (rankings rows)) width := by
  obtain ⟨last, hlast, h⟩ := bind_ok.1 h
  obtain ⟨hwidth, h⟩ := demand_bind_ok.1 h
  cases h
  have hsum : ((finishGroups (rankings rows)).map List.length).sum = last - 1 := by
    rw [checkRanks_ok hlast, ← rankedCars_sorted, List.map_map, List.map_map, Nat.add_sub_cancel_left]
    exact congrArg List.sum (List.map_congr_left fun g _ => List.length_insertionSort _ _)
  have henough : ¬((finishGroups (rankings rows)).map List.length).sum < width := by
    rw [hsum]
    exact Nat.not_lt.2 (of_decide_eq_true hwidth)
  rw [mem_extendPrefixes (Nat.zero_le width) (fun p hp => by rw [List.mem_singleton.1 hp]; rfl) (List.cons_ne_nil _ _),
    rankedCars_sorted, outcomes, if_neg henough, List.mem_dedup]
  simp

end Tied

end Keirin.HistoricalPayouts

import Keirin.Lemmas.CategorySelection

/-!
# The structure of a selection

Of a table that is accepted every category picks the most probable three of the rows it admits that no category before it has picked.
-/

namespace Keirin.CategorySelection

open Ranking

section Table

variable {table : List Doc} {known : ℕ}

/-- The picks of a category are the first three of the ranking of what the categories before it have left. -/
theorem top_of_split {before after : List Category} {c : Category} (h : selectCategories table = before ++ c :: after) :
    Top 3 probabilityOf (table.filter fun row => fresh (combosBy before) row && admissible c.rule row) c.chosen := by
  obtain ⟨rule, rest, -, hhit, hselect, hrest⟩ := selectCategories_eq table
  rw [hselect] at h
  cases before with
  | nil =>
    obtain ⟨rfl, -⟩ := List.cons.inj h
    have hall : (table.filter fun row => fresh (combosBy []) row && admissible rule row) = table := by
      refine List.filter_eq_self.2 fun row _ => ?_
      have hfresh : fresh (combosBy []) row = true := by
        cases htext : (row.field "combo_key").text? <;> simp [fresh, combosBy, htext]
      rw [hfresh, admissible, hhit]
      rfl
    rw [hall]
    exact ⟨_, rank_ranks _ _, rfl⟩
  | cons b before =>
    obtain ⟨rfl, hsplit⟩ := List.cons.inj h
    rw [hrest] at hsplit
    have hcandidates := candidates_of_split bandRules hsplit
    refine ⟨_, rank_ranks _ _, ?_⟩
    rw [Category.chosen, hcandidates]
    rfl

/-- The rows of a category are rows of the table. -/
theorem mem_table_of_chosen {c : Category} (hc : c ∈ selectCategories table) {row : Doc} (hrow : row ∈ c.chosen) :
    row ∈ table ∧ admissible c.rule row = true := by
  obtain ⟨before, after, hsplit⟩ := List.append_of_mem hc
  obtain ⟨ranked, hranked, htake⟩ := top_of_split hsplit
  have hmem := hranked.perm.mem_iff.1 (List.mem_of_mem_take (htake ▸ hrow))
  rw [List.mem_filter, Bool.and_eq_true] at hmem
  exact ⟨hmem.1, hmem.2.2⟩

theorem disjoint_categories : (selectCategories table).Pairwise fun a b => ∀ key ∈ combosOf a.chosen, key ∉ combosOf b.chosen := by
  obtain ⟨rule, rest, -, -, hselect, hrest⟩ := selectCategories_eq table
  rw [hselect, hrest]
  refine List.pairwise_cons.2 ⟨fun c hc key hkey hmem => ?_, disjoint_categoriesFrom bandRules⟩
  exact fresh_categoriesFrom bandRules hc hmem hkey

/-- A category picks a combination once. -/
theorem nodup_chosen (h : Accepted table known) {c : Category} (hc : c ∈ selectCategories table) : (combosOf c.chosen).Nodup := by
  obtain ⟨before, after, hsplit⟩ := List.append_of_mem hc
  obtain ⟨ranked, hranked, htake⟩ := top_of_split hsplit
  have hnodup : (combosOf ranked).Nodup := by
    refine (hranked.perm.filterMap _).nodup_iff.2 (h.nodup.sublist ?_)
    exact List.filter_sublist.filterMap _
  rw [htake]
  exact hnodup.sublist ((List.take_sublist 3 ranked).filterMap _)

/-- Every row that is picked has a combination. -/
theorem length_combosOf (h : Accepted table known) {rows : List Doc} (hrows : ∀ row ∈ rows, row ∈ table) :
    (combosOf rows).length = rows.length := by
  induction rows with
  | nil => rfl
  | cons row rows ih =>
    rw [List.forall_mem_cons] at hrows
    obtain ⟨n, key, -, hkey⟩ := h.exists_key hrows.1
    have hcons : combosOf (row :: rows) = key :: combosOf rows := List.filterMap_cons_some (by rw [hkey.combo]; rfl)
    rw [hcons, List.length_cons, List.length_cons, ih hrows.2]

/-- No combination is picked twice, so the combinations used are as many as the picks. -/
theorem total_picks (h : Accepted table known) :
    (usedBy (selectCategories table)).length = ((selectCategories table).map fun c => c.chosen.length).sum := by
  have hnodup : ((selectCategories table).flatMap fun c => combosOf c.chosen).Nodup := by
    refine List.nodup_flatMap.2 ⟨fun c hc => nodup_chosen h hc, disjoint_categories.imp fun hab => ?_⟩
    exact fun key ha hb => hab key ha hb
  rw [usedBy, hnodup.dedup, List.length_flatMap]
  refine congrArg List.sum (List.map_congr_left fun c hc => ?_)
  exact length_combosOf h fun row hrow => (mem_table_of_chosen hc hrow).1

/-- A row that is picked for its odds has confirmed odds in the band. -/
theorem odds_in_band (h : Accepted table known) {c : Category} (hc : c ∈ selectCategories table) (hband : c.rule.key ≠ "hit_priority")
    {row : Doc} (hrow : row ∈ c.chosen) : ∃ odds, finiteValue (row.field "odds") = .ok (some odds) ∧
      (∀ m ∈ c.rule.minimum, (m : ℚ) ≤ odds) ∧ ∀ m ∈ c.rule.maximum, odds < (m : ℚ) := by
  obtain ⟨hmem, hadmissible⟩ := mem_table_of_chosen hc hrow
  obtain ⟨n, key, -, hkey⟩ := h.exists_key hmem
  simp only [admissible, inBand, hband, decide_false, Bool.false_or, Bool.and_eq_true, decide_eq_true_eq] at hadmissible
  obtain ⟨⟨hnull, hmin⟩, hmax⟩ := hadmissible
  rcases hkey.odds with hnone | ⟨odds, hodds, -⟩
  · exact absurd hnone hnull
  · rw [valueOf_of_finite hodds] at hmin hmax
    refine ⟨odds, hodds, fun m hm => ?_, fun m hm => ?_⟩
    · rw [Option.mem_def.1 hm] at hmin
      simpa using hmin
    · rw [Option.mem_def.1 hm] at hmax
      simpa using hmax

end Table

/-- Of every table that is accepted a selection is made. Its five categories pick different combinations, those of the bands with
confirmed odds in the band; the picks of a category are the first three of the ranking by probability of the rows it admits and no
category before it has picked; and the total is the sum of the sizes. -/
theorem category_structure (rows riderCount : Doc) : match validateModelScores rows riderCount with
    | .error _ => True
    | .ok known => ∃ table, rows = .arr table ∧
        selectModelCategories rows riderCount = .ok (selectionDoc known (selectCategories table)) ∧
        (selectCategories table).map Category.rule = CATEGORY_RULES ∧
        ((selectCategories table).Pairwise fun a b => ∀ key ∈ combosOf a.chosen, key ∉ combosOf b.chosen) ∧
        (∀ c ∈ selectCategories table, c.rule.key ≠ "hit_priority" → ∀ row ∈ c.chosen, ∃ odds,
          finiteValue (row.field "odds") = .ok (some odds) ∧ (∀ m ∈ c.rule.minimum, (m : ℚ) ≤ odds) ∧
            ∀ m ∈ c.rule.maximum, odds < (m : ℚ)) ∧
        (∀ before c after, selectCategories table = before ++ c :: after →
          Top 3 probabilityOf (table.filter fun row => fresh (combosBy before) row && admissible c.rule row) c.chosen) ∧
        (selectionDoc known (selectCategories table)).field "total_picks" =
          count ((selectCategories table).map fun c => c.picks.length).sum := by
  split
  · trivial
  rename_i known hknown
  obtain ⟨table, rfl, h⟩ := validateModelScores_ok hknown
  refine ⟨table, rfl, bind_ok.2 ⟨known, hknown, rfl⟩, rules_categoriesFrom _ _ _, disjoint_categories, fun c hc hband row hrow =>
    odds_in_band h hc hband hrow, fun before c after hsplit => top_of_split hsplit, ?_⟩
  have hpicks : (selectCategories table).map (fun c => c.picks.length) = (selectCategories table).map fun c => c.chosen.length := by
    refine List.map_congr_left fun c _ => ?_
    rw [Category.picks, List.length_map, List.length_zipIdx]
  rw [hpicks, ← total_picks h]
  rfl

end Keirin.CategorySelection

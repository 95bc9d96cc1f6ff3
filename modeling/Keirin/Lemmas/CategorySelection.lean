import Keirin.CategorySelection
import Keirin.Lemmas.PythonData
import Keirin.Lemmas.HistoricalPayouts
import Keirin.Lib.Ranking

/-!
# Tables and their categories

What a table that was accepted is like, and what the categories picked from it are: each ranks the admissible rows whose combinations
no category before it has used.
-/

namespace Keirin.CategorySelection

open HistoricalPayouts (demand_bind_ok require_bind_ok)

/-! ## Tables -/

/-- The value that was checked is the value that is used. -/
theorem valueOf_of_finite {v : Doc} {q : ℚ} (h : finiteValue v = .ok (some q)) : valueOf v = q := by
  unfold finiteValue at h
  split at h
  · rename_i n
    cases hn : floatOfInt n with
    | error e => simp [hn, Except.map] at h
    | ok x =>
      rw [hn] at h
      cases h
      rfl
  · rename_i x _
    simp only [Except.ok.injEq] at h
    simp [valueOf, Doc.number, h]
  · cases h

theorem isPositive_ok {v : Doc} (h : isPositive v = .ok true) : ∃ q, finiteValue v = .ok (some q) ∧ 0 < q := by
  unfold isPositive at h
  cases hv : finiteValue v with
  | error e => simp [hv, Except.map] at h
  | ok q =>
    rw [hv] at h
    cases q with
    | none => nomatch h
    | some q => exact ⟨q, rfl, by simpa [Except.map] using h⟩

theorem isProbability_ok {v : Doc} (h : isProbability v = .ok true) : ∃ q, finiteValue v = .ok (some q) ∧ 0 ≤ q ∧ q ≤ 1 := by
  unfold isProbability at h
  cases hv : finiteValue v with
  | error e => simp [hv, Except.map] at h
  | ok q =>
    rw [hv] at h
    cases q with
    | none => nomatch h
    | some q => exact ⟨q, rfl, by simpa [Except.map] using h⟩

/-- A row that was accepted, with its combination. -/
structure Scored (expected : List String) (row : Doc) (key : String) : Prop where
  combo : row.field "combo_key" = .str key
  mem : key ∈ expected
  probability : ∃ p, finiteValue (row.field "estimated_probability") = .ok (some p) ∧ 0 ≤ p ∧ p ≤ 1
  odds : row.field "odds" = .null ∨ ∃ q, finiteValue (row.field "odds") = .ok (some q) ∧ 0 < q

theorem checkScore_ok {expected seen : List String} {row : Doc} {key : String} (h : checkScore expected seen row = .ok key) :
    Scored expected row key ∧ key ∉ seen := by
  obtain ⟨key', hkey, h⟩ := require_bind_ok.1 h
  obtain ⟨probability, hprobability, h⟩ := bind_ok.1 h
  obtain ⟨hprob, h⟩ := demand_bind_ok.1 h
  obtain ⟨_, -, h⟩ := bind_ok.1 h
  obtain ⟨_, hodds, h⟩ := bind_ok.1 h
  obtain ⟨-, h⟩ := demand_bind_ok.1 h
  obtain ⟨-, h⟩ := demand_bind_ok.1 h
  cases h
  obtain ⟨htext, hkey⟩ := Option.filter_eq_some_iff.1 hkey
  obtain ⟨hmem, hseen⟩ := of_decide_eq_true hkey
  refine ⟨⟨?_, hmem, isProbability_ok (hprob ▸ hprobability), ?_⟩, hseen⟩
  · cases hfield : row.field "combo_key" with
    | str s =>
      rw [hfield] at htext
      cases htext
      rfl
    | _ =>
      rw [hfield] at htext
      nomatch htext
  · unfold checkOdds at hodds
    split_ifs at hodds with hnull
    · exact .inl hnull
    · obtain ⟨positive, hpositive, hodds⟩ := bind_ok.1 hodds
      refine .inr (isPositive_ok ?_)
      cases positive with
      | true => exact hpositive
      | false => nomatch hodds

theorem checkScores_ok {expected seen : List String} {mass : ℚ} {known : ℕ} {rows : List Doc} {checked : ℚ × ℕ}
    (h : checkScores expected seen mass known rows = .ok checked) : ∃ keys, List.Forall₂ (Scored expected) rows keys ∧ keys.Nodup ∧
      (∀ key ∈ keys, key ∉ seen) ∧ checked.2 = known + rows.countP fun row => row.field "odds" ≠ .null := by
  induction rows generalizing seen mass known with
  | nil =>
    cases h
    exact ⟨[], .nil, .nil, fun _ hkey => (nomatch hkey), rfl⟩
  | cons row rows ih =>
    obtain ⟨key, hkey, h⟩ := bind_ok.1 h
    obtain ⟨hscored, hfresh⟩ := checkScore_ok hkey
    obtain ⟨keys, hrows, hnodup, hseen, hknown⟩ := ih h
    refine ⟨key :: keys, .cons hscored hrows, List.nodup_cons.2 ⟨fun hmem => hseen key hmem List.mem_cons_self, hnodup⟩,
      List.forall_mem_cons.2 ⟨hfresh, fun k hk hmem => hseen k hk (List.mem_cons_of_mem _ hmem)⟩, ?_⟩
    rw [hknown, List.countP_cons]
    by_cases hodds : row.field "odds" = .null
    · simp [hodds]
    · simp [hodds]
      omega

/-- A table that was accepted: every combination of the riders has one row. -/
structure Accepted (table : List Doc) (known : ℕ) : Prop where
  scored : ∃ n keys, (n = 7 ∨ n = 9) ∧ table.length = (combinations n).length ∧ List.Forall₂ (Scored (combinations n)) table keys ∧
    keys.Nodup
  known : known = table.countP fun row => row.field "odds" ≠ .null

theorem validateModelScores_ok {rows riderCount : Doc} {known : ℕ} (h : validateModelScores rows riderCount = .ok known) :
    ∃ table, rows = .arr table ∧ Accepted table known := by
  obtain ⟨n, hn, h⟩ := require_bind_ok.1 h
  obtain ⟨table, htable, h⟩ := require_bind_ok.1 h
  obtain ⟨checked, hchecked, h⟩ := bind_ok.1 h
  obtain ⟨-, h⟩ := demand_bind_ok.1 h
  cases h
  obtain ⟨helements, hlength⟩ := Option.filter_eq_some_iff.1 htable
  obtain ⟨keys, hrows, hnodup, -, hknown⟩ := checkScores_ok hchecked
  have hcount : n.toNat = 7 ∨ n.toNat = 9 := by
    rcases of_decide_eq_true (Option.filter_eq_some_iff.1 hn).2 with rfl | rfl
    · exact .inl rfl
    · exact .inr rfl
  refine ⟨table, ?_, ⟨n.toNat, keys, hcount, of_decide_eq_true hlength, hrows, hnodup⟩, by simpa using hknown⟩
  cases rows with
  | arr xs =>
    cases helements
    rfl
  | _ => nomatch helements

namespace Accepted

variable {table : List Doc} {known : ℕ}

/-- The combinations of the rows are distinct. -/
theorem nodup (h : Accepted table known) : (combosOf table).Nodup := by
  obtain ⟨n, keys, -, -, hrows, hnodup⟩ := h.scored
  have hkeys : combosOf table = keys := by
    clear hnodup h
    induction hrows with
    | nil => rfl
    | cons hrow _ ih => rw [combosOf, List.filterMap_cons_some (b := _) (by rw [hrow.combo]; rfl), ← combosOf, ih]
  rwa [hkeys]

theorem exists_key (h : Accepted table known) {row : Doc} (hrow : row ∈ table) :
    ∃ n key, (n = 7 ∨ n = 9) ∧ Scored (combinations n) row key := by
  obtain ⟨n, keys, hn, -, hrows, -⟩ := h.scored
  obtain ⟨key, -, hkey⟩ := exists_of_mem_left hrows hrow
  exact ⟨n, key, hn, hkey⟩

end Accepted

/-! ## Categories -/

/-- `row["estimated_probability"]` -/
def probabilityOf (row : Doc) : ℚ := valueOf (row.field "estimated_probability")

/-- Whether a row can be picked for a category at all. -/
def admissible (rule : CategoryRule) (row : Doc) : Bool := rule.key = "hit_priority" || inBand rule row

/-- Whether the combination of a row is not used. -/
def fresh (used : List String) (row : Doc) : Bool := (row.field "combo_key").text?.all (· ∉ used)

/-- The combinations the categories have used. -/
def combosBy (categories : List Category) : List String := categories.flatMap fun c => combosOf c.chosen

theorem ranked_eq (table : List Doc) : ranked table = Ranking.rank probabilityOf table := rfl

theorem eligible_hit {rule : CategoryRule} (h : rule.key = "hit_priority") (used : List String) (rows : List Doc) :
    eligible rule used rows = rows := if_pos h

theorem eligible_band {rule : CategoryRule} (h : rule.key ≠ "hit_priority") (used : List String) (table : List Doc) :
    eligible rule used (ranked table) = ranked (table.filter fun row => fresh used row && admissible rule row) := by
  rw [eligible, if_neg h, ranked_eq, ranked_eq, Ranking.rank_filter]
  refine List.filter_congr fun row _ => ?_
  simp [fresh, admissible, h]

theorem mem_combosOf {rows : List Doc} {key : String} : key ∈ combosOf rows ↔ ∃ row ∈ rows, (row.field "combo_key").text? = some key :=
  List.mem_filterMap

/-- The combinations of rows that are fresh are not used. -/
theorem not_used_of_fresh {used : List String} {rows : List Doc} (h : ∀ row ∈ rows, fresh used row = true) {key : String}
    (hkey : key ∈ combosOf rows) : key ∉ used := by
  obtain ⟨row, hrow, htext⟩ := mem_combosOf.1 hkey
  have hfresh := h row hrow
  rw [fresh, htext] at hfresh
  simpa using hfresh

section Bands

variable {table : List Doc} {rules : List CategoryRule}

theorem rules_categoriesFrom (ranked : List Doc) (used : List String) (rules : List CategoryRule) :
    (categoriesFrom ranked used rules).map Category.rule = rules := by
  induction rules generalizing used with
  | nil => rfl
  | cons rule rules ih => rw [categoriesFrom, List.map_cons, ih]

/-- A category of the odds ranks the rows of its band whose combinations are not used. -/
theorem candidates_of_split {used : List String} (hrules : ∀ rule ∈ rules, rule.key ≠ "hit_priority") {before after : List Category}
    {c : Category} (h : categoriesFrom (ranked table) used rules = before ++ c :: after) :
    c.candidates = ranked (table.filter fun row => fresh (used ++ combosBy before) row && admissible c.rule row) := by
  induction rules generalizing used before with
  | nil =>
    rw [categoriesFrom] at h
    exact absurd h.symm (by simp)
  | cons rule rules ih =>
    rw [List.forall_mem_cons] at hrules
    cases before with
    | nil =>
      obtain ⟨rfl, -⟩ := List.cons.inj h
      rw [combosBy, List.flatMap_nil, List.append_nil]
      exact eligible_band hrules.1 used table
    | cons b before =>
      obtain ⟨rfl, hrest⟩ := List.cons.inj h
      rw [combosBy, List.flatMap_cons, ← combosBy, ← List.append_assoc]
      exact ih hrules.2 hrest

/-- No category of the odds uses a combination again. -/
theorem fresh_categoriesFrom {used : List String} (hrules : ∀ rule ∈ rules, rule.key ≠ "hit_priority") {c : Category}
    (hc : c ∈ categoriesFrom (ranked table) used rules) {key : String} (hkey : key ∈ combosOf c.chosen) : key ∉ used := by
  obtain ⟨before, after, hsplit⟩ := List.append_of_mem hc
  have hcandidates := candidates_of_split hrules hsplit
  have hfresh : ∀ row ∈ c.chosen, fresh (used ++ combosBy before) row = true := by
    intro row hrow
    have hmem : row ∈ c.candidates := List.mem_of_mem_take hrow
    rw [hcandidates, ranked_eq, (Ranking.rank_ranks _ _).perm.mem_iff, List.mem_filter, Bool.and_eq_true] at hmem
    exact hmem.2.1
  exact fun hused => not_used_of_fresh hfresh hkey (List.mem_append_left _ hused)

theorem disjoint_categoriesFrom {used : List String} (hrules : ∀ rule ∈ rules, rule.key ≠ "hit_priority") :
    (categoriesFrom (ranked table) used rules).Pairwise fun a b => ∀ key ∈ combosOf a.chosen, key ∉ combosOf b.chosen := by
  induction rules generalizing used with
  | nil => exact .nil
  | cons rule rules ih =>
    rw [List.forall_mem_cons] at hrules
    rw [categoriesFrom]
    refine List.pairwise_cons.2 ⟨fun c hc key hkey hmem => ?_, ih hrules.2⟩
    exact fresh_categoriesFrom hrules.2 hc hmem (List.mem_append_right _ hkey)

end Bands

/-- The rules after the first go by the odds. -/
theorem bandRules : ∀ rule ∈ CATEGORY_RULES.tail, rule.key ≠ "hit_priority" := by decide

/-- The first category takes any rows, the others follow it. -/
theorem selectCategories_eq (table : List Doc) : ∃ rule rest, CATEGORY_RULES = rule :: CATEGORY_RULES.tail ∧ rule.key = "hit_priority" ∧
    selectCategories table = ⟨rule, ranked table⟩ :: rest ∧
    rest = categoriesFrom (ranked table) (combosOf (Category.mk rule (ranked table)).chosen) CATEGORY_RULES.tail :=
  ⟨_, _, rfl, rfl, rfl, rfl⟩

end Keirin.CategorySelection

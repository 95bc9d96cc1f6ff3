import Keirin.Theorems.CategoryStructure
import Keirin.Lemmas.PayoutOutcomes
import Keirin.Lemmas.PredictEngine
import Keirin.Lib.JsOrder

/-!
# Two selectors

The selector of the engine, given the rows of a table the offline model made, picks what the offline selector picks. Both rank by the
probability alone: a row of such a table has no score, and the engine counts that as a score of zero.
-/

namespace Keirin.CategorySelection

open JsFloat
open PredictEngine (Row Combo prob inRange take oddsCategories oddsRules select)

/-! ## Rows -/

/-- A number of a row as the engine reads it. -/
def jsNumber : Doc → JsFloat
  | .num (.int n) => ofRat n
  | .num (.float x) => num (.finite x)
  | _ => nan

def jsCar (c : Char) : JsFloat := ofRat ((c.toNat - 48 : ℕ) : ℚ)

/-- The cars of a combination. -/
def jsCombo (key : String) : Combo :=
  match key.toList with
  | [a, _, b, _, c] => ⟨jsCar a, jsCar b, jsCar c⟩
  | _ => ⟨nan, nan, nan⟩

/-- A row of a table as the engine reads it; what is undefined is no number. -/
def jsRow (row : Doc) : Row where
  combo := jsCombo ((row.field "combo_key").text?.getD "")
  score := nan
  contributions := []
  odds := if row.field "odds" = .null then none else some (jsNumber (row.field "odds"))
  estimatedProbability := jsNumber (row.field "estimated_probability")
  oddsProbabilityProduct := none

/-- A number that was checked is a double for the engine: its own value, where it is a double, and compared with the limits like the
number itself. -/
theorem jsNumber_of_finite {v : Doc} {q : ℚ} (h : finiteValue v = .ok (some q)) (hq : 0 ≤ q) : ∃ z : Binary64, jsNumber v = num (.finite z) ∧
    (q ≤ 1 → z.toRat = q) ∧ ∀ m : ℕ, m < 2 ^ 53 → (z.toRat < m ↔ q < m) := by
  unfold finiteValue at h
  split at h
  · rename_i n
    unfold floatOfInt at h
    split_ifs at h with hrange
    · cases h
      have hn : (0 : ℤ) ≤ n := Int.cast_nonneg_iff.1 hq
      obtain ⟨k, rfl⟩ := Int.eq_ofNat_of_zero_le hn
      have habs : |((k : ℤ) : ℚ)| = k := by simp
      have hcast : ((k : ℤ) : ℚ) = (k : ℚ) := by simp
      rw [habs] at hrange
      have hk : (0 : ℚ) ≤ k := Nat.cast_nonneg k
      refine ⟨⟨false, Binary64.roundMag k, Binary64.isDouble_roundMag hk hrange⟩, ?_, fun hone => ?_, fun m hm => ?_⟩
      · show round false ((k : ℤ) : ℚ) = _
        have hmag : Binary64.ofMag false (k : ℚ) = some ⟨false, Binary64.roundMag k, Binary64.isDouble_roundMag hk hrange⟩ :=
          dif_pos ⟨hk, hrange⟩
        have hsign : (if ((k : ℤ) : ℚ) = 0 then false else decide (((k : ℤ) : ℚ) < 0)) = false := by
          rw [hcast, decide_eq_false (not_lt.2 hk), ite_self]
        unfold JsFloat.round
        simp only [hsign, habs, hmag]
      · rw [hcast] at hone ⊢
        have hsmall : k < 2 ^ 53 := by
          have hle : k ≤ 1 := by exact_mod_cast hone
          omega
        exact Binary64.roundMag_of_isDouble (Binary64.isDouble_natCast hsmall)
      · show Binary64.roundMag k < m ↔ ((k : ℤ) : ℚ) < m
        rw [hcast]
        constructor
        · intro hlt
          by_contra hge
          exact absurd hlt (not_lt.2 (Binary64.le_roundMag (Binary64.isDouble_natCast hm) (not_lt.1 hge)))
        · intro hlt
          have hsmall : k < 2 ^ 53 := lt_trans (by exact_mod_cast hlt) hm
          rwa [Binary64.roundMag_of_isDouble (Binary64.isDouble_natCast hsmall)]
    · cases h
  · rename_i x _
    cases x with
    | float x =>
      cases h
      exact ⟨x, rfl, fun _ => rfl, fun _ _ => Iff.rfl⟩
    | int n => rename_i hne; exact absurd rfl (hne n)
    | _ => cases h
  · cases h

/-- A limit is read as it is written. -/
theorem ofRat_limit {m : ℕ} (hm : m < 2 ^ 53) : ∃ z : Binary64, ofRat (m : ℚ) = num (.finite z) ∧ z.toRat = m := by
  have hm0 : (0 : ℚ) ≤ m := by positivity
  have hdouble := Binary64.isDouble_natCast hm
  have hround := Binary64.roundMag_of_isDouble hdouble
  refine ⟨⟨false, m, hdouble⟩, ?_, rfl⟩
  have hmag : Binary64.ofMag false (m : ℚ) = some ⟨false, m, hdouble⟩ := Binary64.ofMag_of_roundMag ⟨false, m, hdouble⟩ hm0 hround
  unfold ofRat JsFloat.round
  have hsign : (if (m : ℚ) = 0 then false else decide ((m : ℚ) < 0)) = false := by
    rw [decide_eq_false (not_lt.2 hm0), ite_self]
  simp only [hsign, abs_of_nonneg hm0, hmag]

/-! ## Rankings -/

section Rows

variable {expected : List String} {row : Doc} {key : String}

/-- The probability of a row is the same double for the engine. -/
theorem estimatedProbability_jsRow (h : Scored expected row key) :
    ∃ z : Binary64, (jsRow row).estimatedProbability = num (.finite z) ∧ z.toRat = probabilityOf row := by
  obtain ⟨p, hp, hnonneg, hle⟩ := h.probability
  obtain ⟨z, hz, hone, -⟩ := jsNumber_of_finite hp hnonneg
  exact ⟨z, hz, (hone hle).trans (valueOf_of_finite hp).symm⟩

/-- `x || 0` keeps the value of a number. -/
theorem or_zero (z : Binary64) : ∃ w : Binary64, JsFloat.or (num (.finite z)) zero = num (.finite w) ∧ w.toRat = z.toRat := by
  unfold JsFloat.or
  by_cases hz : truthy (num (.finite z)) = true
  · exact ⟨z, if_pos hz, rfl⟩
  · have hzero : z.toRat = 0 := by
      by_contra hne
      exact hz ((truthy_finite z).2 hne)
    exact ⟨_, if_neg hz, by rw [hzero]; exact toRat_zero⟩

/-- The engine compares rows by their probabilities. -/
theorem compare_rows {row' : Doc} {key' : String} (h : Scored expected row key) (h' : Scored expected row' key') :
    lt zero (PredictEngine.firstTruthy [sub (JsFloat.or (jsRow row').estimatedProbability zero)
      (JsFloat.or (jsRow row).estimatedProbability zero), sub (JsFloat.or (jsRow row').score zero) (JsFloat.or (jsRow row).score zero)]) =
      false ↔ probabilityOf row' ≤ probabilityOf row := by
  obtain ⟨x, hx, hxp⟩ := estimatedProbability_jsRow h
  obtain ⟨y, hy, hyp⟩ := estimatedProbability_jsRow h'
  obtain ⟨a, ha, hax⟩ := or_zero x
  obtain ⟨b, hb, hby⟩ := or_zero y
  have hscore : ∀ row : Doc, JsFloat.or (jsRow row).score zero = num (.finite ⟨false, 0, Binary64.isDouble_zero⟩) := fun _ => rfl
  rw [hx, hy, ha, hb, hscore, hscore, ← hxp, ← hyp, ← hax, ← hby, PredictEngine.firstTruthy]
  obtain ⟨hlt, htruthy⟩ := sign_sub b a
  by_cases he : truthy (sub (num (.finite b)) (num (.finite a))) = true
  · rw [if_pos he, ← Bool.not_eq_true, hlt, not_lt]
  · have hsame : b.toRat = a.toRat := by
      by_contra hne
      exact he (htruthy.2 hne)
    have hequal := (sign_sub ⟨false, 0, Binary64.isDouble_zero⟩ ⟨false, 0, Binary64.isDouble_zero⟩).1
    rw [if_neg he, PredictEngine.firstTruthy, ← Bool.not_eq_true, hequal, hsame]
    exact ⟨fun _ => le_rfl, fun _ => lt_irrefl _⟩

/-- The engine ranks rows as the selector does. -/
theorem prob_jsRow {table : List Doc} (h : ∀ row ∈ table, ∃ key, Scored expected row key) :
    prob (table.map jsRow) = (ranked table).map jsRow := by
  refine (List.map_insertionSort _ _ jsRow table fun row hrow row' hrow' => ?_).symm
  obtain ⟨key, hkey⟩ := h row hrow
  obtain ⟨key', hkey'⟩ := h row' hrow'
  exact (compare_rows hkey hkey').symm

/-- The engine sees odds in a band where the selector does. -/
theorem inRange_jsRow (h : Scored expected row key) {rule : CategoryRule} (hmin : ∀ m ∈ rule.minimum, m < 2 ^ 53)
    (hmax : ∀ m ∈ rule.maximum, m < 2 ^ 53) :
    inRange (jsRow row).odds (rule.minimum.map Nat.cast) (rule.maximum.map Nat.cast) = inBand rule row := by
  rcases h.odds with hnull | ⟨q, hq, hpos⟩
  · simp [jsRow, inBand, hnull, inRange]
  · have hodds : row.field "odds" ≠ .null := by
      intro hnull
      rw [hnull] at hq
      cases hq
    obtain ⟨z, hz, -, hlimit⟩ := jsNumber_of_finite hq hpos.le
    have hlow : (rule.minimum.map (Nat.cast : ℕ → ℚ)).any (fun m => lt (num (.finite z)) (ofRat m)) =
        !rule.minimum.all fun m : ℕ => decide ((m : ℚ) ≤ q) := by
      cases hm : rule.minimum with
      | none => rfl
      | some m =>
        obtain ⟨w, hw, hwm⟩ := ofRat_limit (hmin m hm)
        have hlt : lt (num (.finite z)) (num (.finite w)) = decide (z.toRat < w.toRat) := rfl
        simp only [Option.map_some, Option.any_some, Option.all_some, hw, hlt, hwm, hlimit m (hmin m hm)]
        rw [← decide_not]
        exact decide_eq_decide.2 not_le.symm
    have hhigh : (rule.maximum.map (Nat.cast : ℕ → ℚ)).any (fun m => JsFloat.le (ofRat m) (num (.finite z))) =
        !rule.maximum.all fun m : ℕ => decide (q < (m : ℚ)) := by
      cases hm : rule.maximum with
      | none => rfl
      | some m =>
        obtain ⟨w, hw, hwm⟩ := ofRat_limit (hmax m hm)
        have hle : JsFloat.le (num (.finite w)) (num (.finite z)) = (decide (w.toRat < z.toRat) || decide (w.toRat = z.toRat)) := rfl
        simp only [Option.map_some, Option.any_some, Option.all_some, hw, hle, hwm]
        rw [← decide_not, ← Bool.decide_or]
        refine decide_eq_decide.2 ?_
        rw [← hlimit m (hmax m hm), not_lt, le_iff_lt_or_eq]
    simp only [jsRow, hodds, if_false, hz, inRange, hlow, hhigh, inBand, valueOf_of_finite hq, Bool.not_not, decide_true, Bool.true_and,
      ne_eq, not_false_eq_true]

end Rows

/-! ## Combinations -/

theorem text_car : ∀ a ∈ List.range' 1 9, (toString a).toList = [Nat.digitChar a] ∧ (jsCar (Nat.digitChar a)).text = toString a := by
  decide +kernel

/-- The combinations are those of three cars. -/
theorem mem_combinations {n : ℕ} (hn : n = 7 ∨ n = 9) {key : String} (h : key ∈ combinations n) :
    ∃ a ∈ List.range' 1 9, ∃ b ∈ List.range' 1 9, ∃ c ∈ List.range' 1 9, key = toString a ++ "-" ++ toString b ++ "-" ++ toString c := by
  obtain ⟨cars, hcars, rfl⟩ := List.mem_map.1 h
  obtain ⟨hlength, rest, hperm⟩ := HistoricalPayouts.mem_selections.1 hcars
  have hrange : ∀ car ∈ cars, car ∈ List.range' 1 9 := by
    intro car hcar
    have hmem := hperm.subset (List.mem_append_left rest hcar)
    rw [List.mem_range'_1] at hmem ⊢
    omega
  match cars, hlength with
  | [a, b, c], _ => exact ⟨a, hrange a (by simp), b, hrange b (by simp), c, hrange c (by simp), rfl⟩

/-- The engine reads the combination of a row. -/
theorem key_jsRow {n : ℕ} (hn : n = 7 ∨ n = 9) {row : Doc} {key : String} (h : Scored (combinations n) row key) : (jsRow row).key = key := by
  obtain ⟨a, ha, b, hb, c, hc, hkey⟩ := mem_combinations hn h.mem
  obtain ⟨hta, hja⟩ := text_car a ha
  obtain ⟨htb, hjb⟩ := text_car b hb
  obtain ⟨htc, hjc⟩ := text_car c hc
  have hlist : key.toList = [Nat.digitChar a, '-', Nat.digitChar b, '-', Nat.digitChar c] := by
    rw [hkey, String.toList_append, String.toList_append, String.toList_append, String.toList_append, hta, htb, htc]
    rfl
  have htext : (row.field "combo_key").text? = some key := by rw [h.combo]; rfl
  have hcombo : (jsRow row).combo = ⟨jsCar (Nat.digitChar a), jsCar (Nat.digitChar b), jsCar (Nat.digitChar c)⟩ := by
    show jsCombo ((row.field "combo_key").text?.getD "") = _
    rw [htext, Option.getD_some, jsCombo, hlist]
  rw [Row.key, hcombo, Combo.key, hja, hjb, hjc, hkey]

/-- Rows whose keys are new are taken as they come. -/
theorem take_fresh {limit : ℕ} {used : List String} {rows : List Row} (hnodup : (rows.map Row.key).Nodup)
    (hfresh : ∀ r ∈ rows, r.key ∉ used) : take limit used rows = (rows.take limit, used ++ (rows.take limit).map Row.key) := by
  induction rows generalizing limit used with
  | nil => cases limit <;> simp [take]
  | cons r rows ih =>
    cases limit with
    | zero => simp [take]
    | succ limit =>
      rw [List.forall_mem_cons] at hfresh
      rw [List.map_cons, List.nodup_cons] at hnodup
      have hrest : ∀ x ∈ rows, x.key ∉ used ++ [r.key] := by
        intro x hx hmem
        rcases List.mem_append.1 hmem with hmem | hmem
        · exact hfresh.2 x hx hmem
        · exact hnodup.1 (List.mem_singleton.1 hmem ▸ List.mem_map_of_mem hx)
      rw [take, if_neg hfresh.1, ih hnodup.2 hrest, List.take_succ_cons, List.map_cons, List.append_assoc]
      rfl

/-! ## Categories -/

/-- A rule as the engine has it. -/
structure SameRule (rule : CategoryRule) (r : PredictEngine.CategoryRule) : Prop where
  key : r.key = rule.key
  band : rule.key ≠ "hit_priority"
  min : r.minOdds = rule.minimum.map Nat.cast
  max : r.maxOdds = rule.maximum.map Nat.cast
  minimum : ∀ m ∈ rule.minimum, m < 2 ^ 53
  maximum : ∀ m ∈ rule.maximum, m < 2 ^ 53

/-- What the selectors report of a category. -/
structure SameCategory (c : Category) (d : PredictEngine.Category) : Prop where
  key : d.key = c.rule.key
  picks : d.picks.map (fun p => p.toRow.key) = combosOf c.chosen
  available : d.availableCandidates = c.candidates.length
  length : d.picks.length = c.chosen.length
  status : d.status = if c.chosen.length = 3 then "ready" else if c.chosen = [] then "skipped" else "partial"

/-- The rules the engine goes by are those of the selector. -/
theorem sameRules : List.Forall₂ SameRule CATEGORY_RULES.tail oddsRules := by
  refine .cons ⟨rfl, by decide, rfl, rfl, ?_, ?_⟩ (.cons ⟨rfl, by decide, rfl, rfl, ?_, ?_⟩ (.cons ⟨rfl, by decide, rfl, rfl, ?_, ?_⟩
    (.cons ⟨rfl, by decide, rfl, rfl, ?_, ?_⟩ .nil))) <;> simp

section Table

variable {n : ℕ} (hn : n = 7 ∨ n = 9)

include hn

/-- The engine reads the combinations of rows. -/
theorem keys_jsRow {rows : List Doc} (h : ∀ row ∈ rows, ∃ key, Scored (combinations n) row key) :
    (rows.map jsRow).map Row.key = combosOf rows := by
  induction rows with
  | nil => rfl
  | cons row rows ih =>
    rw [List.forall_mem_cons] at h
    obtain ⟨key, hkey⟩ := h.1
    have hcons : combosOf (row :: rows) = key :: combosOf rows := List.filterMap_cons_some (by rw [hkey.combo]; rfl)
    rw [hcons, List.map_cons, List.map_cons, key_jsRow hn hkey, ih h.2]

/-- The engine takes the first three of ranked rows that are fresh. -/
theorem take_ranked {used : List String} {rows : List Doc} (h : ∀ row ∈ rows, ∃ key, Scored (combinations n) row key)
    (hnodup : (combosOf rows).Nodup) (hfresh : ∀ row ∈ rows, fresh used row = true) :
    take 3 used (prob (rows.map jsRow)) =
      (((ranked rows).take 3).map jsRow, used ++ combosOf ((ranked rows).take 3)) := by
  have hperm : (ranked rows).Perm rows := (Ranking.rank_ranks probabilityOf rows).perm
  have hranked : ∀ row ∈ ranked rows, ∃ key, Scored (combinations n) row key := fun row hrow => h row (hperm.mem_iff.1 hrow)
  have hkeys := keys_jsRow hn hranked
  rw [prob_jsRow h, take_fresh]
  · rw [← List.map_take, keys_jsRow hn fun row hrow => hranked row (List.mem_of_mem_take hrow)]
  · rw [hkeys]
    exact (hperm.filterMap _).nodup_iff.2 hnodup
  · intro r hr
    obtain ⟨row, hrow, rfl⟩ := List.mem_map.1 hr
    obtain ⟨key, hkey⟩ := hranked row hrow
    rw [key_jsRow hn hkey]
    refine not_used_of_fresh hfresh (mem_combosOf.2 ⟨row, hperm.mem_iff.1 hrow, ?_⟩)
    rw [hkey.combo]
    rfl

/-- A category of the engine with the picks of a category of the selector. -/
theorem sameCategory_category {c : Category} (name scope : String) {available : ℕ} (hasOdds : Bool)
    (h : ∀ row ∈ c.chosen, ∃ key, Scored (combinations n) row key) (havailable : available = c.candidates.length) :
    SameCategory c (PredictEngine.category c.rule.key name scope available (c.chosen.map jsRow) hasOdds) where
  key := rfl
  picks := by
    have hkeys : ∀ (rows : List Row) (start : ℕ), ((rows.zipIdx start).map fun r => r.1.key) = rows.map Row.key := by
      intro rows start
      have hfirst := congrArg (List.map Row.key) (List.zipIdx_map_fst start rows)
      rwa [List.map_map] at hfirst
    rw [← keys_jsRow hn h, ← hkeys (c.chosen.map jsRow) 0]
    exact List.map_map
  available := havailable
  length := by simp [PredictEngine.category]
  status := by
    have hlength : c.chosen.length ≤ 3 := List.length_take_le 3 _
    show PredictEngine.status (c.chosen.map jsRow).length = _
    rw [List.length_map, PredictEngine.status]
    by_cases hthree : c.chosen.length = 3
    · rw [if_pos hthree, if_pos hthree.ge]
    · have hshort : ¬ 3 ≤ c.chosen.length := fun hge => hthree (le_antisymm hlength hge)
      rw [if_neg hthree, if_neg hshort]
      by_cases hempty : c.chosen = []
      · simp [hempty]
      · rw [if_neg hempty, if_pos (List.length_pos_iff.2 hempty)]

/-- The candidates of a category of the odds are those of the selector. -/
theorem eligible_jsRow {table : List Doc} (h : ∀ row ∈ table, ∃ key, Scored (combinations n) row key) {rule : CategoryRule}
    {r : PredictEngine.CategoryRule} (hrule : SameRule rule r) (used : List String) :
    ((table.map jsRow).filter fun r => r.odds.isSome).filter (fun x => x.key ∉ used ∧ inRange x.odds r.minOdds r.maxOdds) =
      (table.filter fun row => fresh used row && admissible rule row).map jsRow := by
  rw [List.filter_filter, List.filter_map]
  refine congrArg (List.map jsRow) (List.filter_congr fun row hrow => ?_)
  obtain ⟨key, hkey⟩ := h row hrow
  have hfresh : fresh used row = decide (key ∉ used) := by
    rw [fresh, hkey.combo]
    rfl
  have hband : admissible rule row = inBand rule row := by simp [admissible, hrule.band]
  have hodds : inBand rule row = true → (jsRow row).odds.isSome = true := by
    intro hin
    simp only [inBand, Bool.and_eq_true, decide_eq_true_eq] at hin
    simp [jsRow, hin.1.1]
  rw [hfresh, hband, Function.comp_apply, key_jsRow hn hkey, hrule.min, hrule.max, inRange_jsRow hkey hrule.minimum hrule.maximum,
    Bool.decide_and, Bool.decide_eq_true]
  cases hin : inBand rule row with
  | false => simp
  | true => simp [hodds hin]

/-- The engine picks for the categories of the odds what the selector picks. -/
theorem sameCategories {table : List Doc} (h : ∀ row ∈ table, ∃ key, Scored (combinations n) row key) (hnodup : (combosOf table).Nodup)
    {known : List Row} (hknown : known = (table.map jsRow).filter fun r => r.odds.isSome) {rules : List CategoryRule}
    {oddsRules : List PredictEngine.CategoryRule} (hrules : List.Forall₂ SameRule rules oddsRules) (used : List String) :
    List.Forall₂ SameCategory (categoriesFrom (ranked table) used rules)
        (oddsCategories known (decide (0 < known.length)) oddsRules used).1 ∧
      (oddsCategories known (decide (0 < known.length)) oddsRules used).2 =
        used ++ combosBy (categoriesFrom (ranked table) used rules) := by
  induction hrules generalizing used with
  | nil => exact ⟨.nil, by simp [oddsCategories, categoriesFrom, combosBy]⟩
  | @cons rule r rules oddsRules hrule _ ih =>
    have hmem : ∀ row ∈ table.filter (fun row => fresh used row && admissible rule row), row ∈ table ∧ fresh used row = true := by
      intro row hrow
      rw [List.mem_filter, Bool.and_eq_true] at hrow
      exact ⟨hrow.1, hrow.2.1⟩
    have hscored := fun row hrow => h row (hmem row hrow).1
    have heligible := eligible_jsRow hn h hrule used
    rw [← hknown] at heligible
    have htake := take_ranked hn hscored (hnodup.sublist (List.filter_sublist.filterMap _)) fun row hrow => (hmem row hrow).2
    -- without odds there are no candidates, and the first of none are none
    have hguard : (if decide (0 < known.length) = true then known.filter fun x => x.key ∉ used ∧ inRange x.odds r.minOdds r.maxOdds else []) =
        (table.filter fun row => fresh used row && admissible rule row).map jsRow := by
      rw [← heligible]
      split_ifs with hodds
      · rfl
      · have hempty : known = [] := by simpa using hodds
        rw [hempty, List.filter_nil]
    have hpicked : (if decide (0 < known.length) = true then
          take 3 used (prob ((table.filter fun row => fresh used row && admissible rule row).map jsRow)) else ([], used)) =
        ((eligible rule used (ranked table)).take 3 |>.map jsRow, used ++ combosOf ((eligible rule used (ranked table)).take 3)) := by
      rw [eligible_band hrule.band]
      split_ifs with hodds
      · exact htake
      · have hempty : known = [] := by simpa using hodds
        rw [hempty, List.filter_nil] at heligible
        rw [List.map_eq_nil_iff.1 heligible.symm]
        simp [ranked, combosOf]
    have hstep := ih (used ++ combosOf ((eligible rule used (ranked table)).take 3))
    have hperm : (eligible rule used (ranked table)).Perm (table.filter fun row => fresh used row && admissible rule row) := by
      rw [eligible_band hrule.band]
      exact (Ranking.rank_ranks probabilityOf _).perm
    rw [oddsCategories, categoriesFrom]
    simp only [hguard, hpicked, List.length_map, hrule.key]
    refine ⟨.cons (sameCategory_category hn (c := ⟨rule, eligible rule used (ranked table)⟩) _ _ _ ?_ hperm.length_eq.symm) hstep.1, ?_⟩
    · intro row hrow
      exact hscored row (hperm.mem_iff.1 (List.mem_of_mem_take hrow))
    · rw [hstep.2, List.append_assoc]
      rfl

/-- The engine selects what the selector selects. -/
theorem select_jsRow {table : List Doc} (h : ∀ row ∈ table, ∃ key, Scored (combinations n) row key) (hnodup : (combosOf table).Nodup) :
    List.Forall₂ SameCategory (selectCategories table) (select (table.map jsRow)).categories ∧
      (select (table.map jsRow)).uniquePicks = (combosBy (selectCategories table)).length := by
  obtain ⟨rule, rest, hrules, hhit, hselect, hrest⟩ := selectCategories_eq table
  obtain ⟨rfl, -⟩ := List.cons.inj hrules
  have hall : ∀ row ∈ table, fresh [] row = true := by
    intro row hrow
    obtain ⟨key, hkey⟩ := h row hrow
    rw [fresh, hkey.combo]
    rfl
  have htake := take_ranked hn h hnodup hall
  obtain ⟨hbands, hused⟩ := sameCategories hn h hnodup rfl sameRules (combosOf ((ranked table).take 3))
  have hranked : (ranked table).Perm table := (Ranking.rank_ranks probabilityOf table).perm
  rw [List.nil_append] at htake
  rw [hselect, hrest]
  simp only [select, htake]
  refine ⟨.cons (sameCategory_category hn (c := ⟨_, ranked table⟩) _ _ _ ?_ ?_) hbands, ?_⟩
  · intro row hrow
    exact h row (hranked.mem_iff.1 (List.mem_of_mem_take hrow))
  · rw [List.length_map, hranked.length_eq]
  · exact (congrArg List.length hused).trans rfl

end Table

/-- The report of a category: its combinations in their order, its status and how many candidates it had. -/
def Reports (c : String × Doc) (d : PredictEngine.Category) : Prop :=
  c.1 = d.key ∧ combosOf ((c.2.field "picks").elements?.getD []) = d.picks.map (fun p => p.toRow.key) ∧
    c.2.field "status" = .str d.status ∧ c.2.field "available_candidates" = count d.availableCandidates

/-- A pick keeps the combination of its row. -/
theorem combosOf_picks (c : Category) : combosOf c.picks = combosOf c.chosen := by
  have hpick : ∀ (row : Doc × ℕ), ((pick c.rule (row.2 + 1) row.1).field "combo_key").text? = (row.1.field "combo_key").text? := by
    intro row
    have hget : (pick c.rule (row.2 + 1) row.1).get? "combo_key" = Dict.get? "combo_key" row.1.entries := by
      refine (HistoricalPayouts.get?_update _ (by simp) _ _).trans ?_
      simp [Dict.get?]
    rw [Doc.field, Doc.field, hget]
    cases row.1 <;> rfl
  rw [combosOf, Category.picks, List.filterMap_map]
  have hcongr : ∀ row ∈ c.chosen.zipIdx, ((fun row => (Doc.field row "combo_key").text?) ∘ fun row => pick c.rule (row.2 + 1) row.1) row =
      ((fun row => (Doc.field row "combo_key").text?) ∘ Prod.fst) row := fun row _ => hpick row
  rw [List.filterMap_congr hcongr, ← List.filterMap_map, List.zipIdx_map_fst, combosOf]

/-- The report of a category that is picked by both. -/
theorem SameCategory.reports {c : Category} {d : PredictEngine.Category} (h : SameCategory c d) (known : ℕ) :
    Reports (c.rule.key, c.toDoc known) d := by
  refine ⟨h.key.symm, ?_, ?_, ?_⟩
  · rw [h.picks, ← combosOf_picks]
    rfl
  · rw [h.status]
    rfl
  · rw [h.available]
    rfl

/-- Categories that are picked by both have the same keys and sizes. -/
theorem sizes_eq {categories : List Category} {picked : List PredictEngine.Category} (h : List.Forall₂ SameCategory categories picked) :
    picked.map (fun d => (d.key, d.picks.length)) = categories.map fun c => (c.rule.key, c.chosen.length) := by
  induction h with
  | nil => rfl
  | cons hsame _ ih => rw [List.map_cons, List.map_cons, ih, hsame.key, hsame.length]

/-- Of every table that is accepted the engine selects what the selector selects: for every category the same combinations in the same
order, with the same status and number of candidates, and the counts are the same. -/
theorem selectors_agree (rows riderCount : Doc) : match validateModelScores rows riderCount with
    | .error _ => True
    | .ok _ => ∃ table doc categories, rows = .arr table ∧ selectModelCategories rows riderCount = .ok doc ∧
        doc.field "categories" = .obj categories ∧ List.Forall₂ Reports categories (select (table.map jsRow)).categories ∧
        doc.field "odds_available" = .bool (select (table.map jsRow)).oddsAvailable ∧
        doc.field "known_odds_count" = count (select (table.map jsRow)).knownOddsCount ∧
        doc.field "total_picks" = count (select (table.map jsRow)).totalPicks ∧
        doc.field "unique_picks" = count (select (table.map jsRow)).uniquePicks ∧
        doc.field "complete_category_count" = count (select (table.map jsRow)).completeCategoryCount ∧
        doc.field "insufficient_categories" = .arr ((select (table.map jsRow)).insufficientCategories.map fun key => .str key) := by
  split
  · trivial
  rename_i known hknown
  obtain ⟨table, rfl, h⟩ := validateModelScores_ok hknown
  obtain ⟨n, keys, hn, -, hrows, -⟩ := h.scored
  have hscored : ∀ row ∈ table, ∃ key, Scored (combinations n) row key := by
    intro row hrow
    obtain ⟨key, -, hkey⟩ := exists_of_mem_left hrows hrow
    exact ⟨key, hkey⟩
  obtain ⟨hsame, hunique⟩ := select_jsRow hn hscored h.nodup
  have hodds : (select (table.map jsRow)).knownOddsCount = known := by
    show ((table.map jsRow).filter fun r => r.odds.isSome).length = known
    rw [h.known, ← List.countP_eq_length_filter, List.countP_map]
    refine List.countP_congr fun row _ => ?_
    by_cases hnull : row.field "odds" = .null <;> simp [jsRow, hnull]
  have hsizes := sizes_eq hsame
  have hcombos : (combosBy (selectCategories table)).length = (usedBy (selectCategories table)).length := by
    rw [total_picks h, combosBy, List.length_flatMap]
    refine congrArg List.sum (List.map_congr_left fun c hc => ?_)
    exact length_combosOf h fun row hrow => (mem_table_of_chosen hc hrow).1
  refine ⟨table, _, _, rfl, bind_ok.2 ⟨known, hknown, rfl⟩, rfl, ?_, ?_, ?_, ?_, ?_, ?_, ?_⟩
  · rw [List.forall₂_map_left_iff]
    exact hsame.imp fun _ _ hsame => hsame.reports known
  · rw [← hodds]
    rfl
  · rw [hodds]
    rfl
  · have htotal : (select (table.map jsRow)).totalPicks = ((selectCategories table).map fun c => c.chosen.length).sum := by
      have hsum := congrArg (fun sizes => (sizes.map Prod.snd).sum) hsizes
      simp only [List.map_map] at hsum
      exact hsum
    rw [htotal, ← total_picks h]
    rfl
  · rw [hunique, hcombos]
    rfl
  · have hcount := congrArg (fun sizes : List (String × ℕ) => sizes.countP fun size => size.2 = 3) hsizes
    simp only [List.countP_map] at hcount
    refine Eq.trans ?_ (congrArg count hcount.symm)
    rw [List.countP_eq_length_filter]
    rfl
  · have hkeys := congrArg (fun sizes : List (String × ℕ) => (sizes.filter fun size => size.2 < 3).map Prod.fst) hsizes
    simp only [List.filter_map, List.map_map] at hkeys
    have hfirst : (select (table.map jsRow)).insufficientCategories =
        ((selectCategories table).filter fun c => c.chosen.length < 3).map fun c => c.rule.key := hkeys
    rw [hfirst, List.map_map]
    rfl

end Keirin.CategorySelection

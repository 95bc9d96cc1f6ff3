import Keirin.HistoricalTraining
import Keirin.Lib.Rounding
import Keirin.Theorems.NoLookAhead

/-!
# Recent form within bounds

The rates of an entrant are percentages of the races he started in, his average finish is one of the ranks a roster has; so the gate
for features of the training preparation accepts a row with the values of `build` exactly when it accepts the row without them.
-/

namespace Keirin.HistoricalForm

open Doc (int?)

/-! ## Ranks -/

/-- The ranks of a race that passes the checks are among those of a roster. -/
theorem rank_of_examine {w : Window} {conflicts : List String} {key : String} {record : Dict Doc} {u : Usable}
    (h : examine w conflicts key record = .ok u) {p : Rider} (hp : p ∈ u.participants)
    (hstatus : Dict.getD p.row "status" .null = .str "FINISHED") {r : ℤ} (hr : int? (Dict.getD p.row "finish_rank" .null) = some r) :
    1 ≤ r ∧ r ≤ 9 := by
  simp only [examine, raiseIf_bind_ok] at h
  obtain ⟨-, -, -, -, -, -, h⟩ := h
  obtain ⟨start, -, h⟩ := bind_ok.1 h
  obtain ⟨available, -, h⟩ := bind_ok.1 h
  simp only [raiseIf_bind_ok] at h
  obtain ⟨-, -, -, h⟩ := h
  obtain ⟨participants, hroster, h⟩ := bind_ok.1 h
  obtain ⟨ranks, hranks, h⟩ := bind_ok.1 h
  obtain ⟨⟨⟩, -, h⟩ := bind_ok.1 h
  obtain ⟨sha, -, h⟩ := bind_ok.1 h
  cases h
  obtain ⟨xs, -, hsize, hriders, -⟩ := roster_ok hroster
  have hlength : participants.length ≤ 9 := (mapM_ok_iff.1 hriders).length_eq ▸ hsize.2
  obtain ⟨o, -, ho⟩ := exists_of_mem_left (mapM_ok_iff.1 hranks) hp
  unfold finishRank at ho
  rw [if_pos hstatus, hr] at ho
  simp only [] at ho
  split_ifs at ho with hrange
  exact ⟨hrange.1, hrange.2.trans (by exact_mod_cast hlength)⟩

/-- The races an entrant was seen in, with what was seen of him. -/
def observations (usable : List Usable) (entrant : Rider) : List (String × Rider) :=
  usable.filterMap fun u => (observe entrant.identity u).map fun p => (u.key, p)

/-- The ranks of an entrant in the races he finished. -/
def ranked (usable : List Usable) (entrant : Rider) : List ℤ :=
  (observations usable entrant).filterMap fun o =>
    if Dict.getD o.2.row "status" .null = .str "FINISHED" then int? (Dict.getD o.2.row "finish_rank" .null) else none

theorem ranked_le (usable : List Usable) (entrant : Rider) :
    (ranked usable entrant).length ≤ (observations usable entrant).length := List.length_filterMap_le _ _

theorem mem_ranked {usable : List Usable} (h : ∀ u ∈ usable, ∃ w c key record, examine w c key record = .ok u) {entrant : Rider} {r : ℤ}
    (hr : r ∈ ranked usable entrant) : 1 ≤ r ∧ r ≤ 9 := by
  obtain ⟨⟨key, p⟩, ho, hrank⟩ := List.mem_filterMap.1 hr
  obtain ⟨u, hu, hobs⟩ := List.mem_filterMap.1 ho
  obtain ⟨q, hq, hqp⟩ := Option.map_eq_some_iff.1 hobs
  cases hqp
  have hmem : p ∈ u.participants := List.mem_of_find?_eq_some (Option.filter_eq_some_iff.1 hq).1
  obtain ⟨w, c, k, record, hex⟩ := h u hu
  split_ifs at hrank with hstatus
  exact rank_of_examine hex hmem hstatus hrank

/-! ## Rates -/

theorem value_ofRat {q : ℚ} (hq : 0 ≤ q) (hlt : Binary64.roundMag q < 2 ^ 1024) :
    (Scalar.ofRat q).value = some (Binary64.roundMag q) := by
  have hneg : decide (q < 0) = false := decide_eq_false (not_lt.2 hq)
  have hof : Binary64.ofMag false q = some ⟨false, Binary64.roundMag q, Binary64.isDouble_roundMag hq hlt⟩ :=
    Binary64.ofMag_of_roundMag ⟨false, Binary64.roundMag q, Binary64.isDouble_roundMag hq hlt⟩ hq rfl
  unfold Scalar.ofRat
  rw [hneg, abs_of_nonneg hq, hof]
  simp only [Scalar.value, Bool.false_eq_true, if_false]

/-- A number between two doubles is written as a double between them. -/
theorem ofRat_between {q lo hi : ℚ} (hlo : IsDouble lo) (hhi : IsDouble hi) (h : lo ≤ q) (h' : q ≤ hi) :
    ∃ v, (Scalar.ofRat q).value = some v ∧ lo ≤ v ∧ v ≤ hi := by
  have hq : 0 ≤ q := (Binary64.isDouble_nonneg hlo).trans h
  have hup : Binary64.roundMag q ≤ hi := Binary64.roundMag_le hq hhi h'
  have hlt : Binary64.roundMag q < 2 ^ 1024 := hup.trans_lt (Binary64.isDouble_lt hhi)
  exact ⟨Binary64.roundMag q, value_ofRat hq hlt, Binary64.le_roundMag hlo h, hup⟩

/-- A part of the starts, as a percentage. -/
theorem percent_bounds {k l n : ℕ} (hkl : k ≤ l) (hln : l ≤ n) (hn : n ≠ 0) :
    (0 : ℚ) ≤ 100 * k / n ∧ (100 * k / n : ℚ) ≤ 100 * l / n ∧ (100 * l / n : ℚ) ≤ 100 := by
  have hpos : (0 : ℚ) < n := by exact_mod_cast Nat.pos_of_ne_zero hn
  have hkl' : (k : ℚ) ≤ l := by exact_mod_cast hkl
  have hln' : (l : ℚ) ≤ n := by exact_mod_cast hln
  refine ⟨by positivity, by gcongr, ?_⟩
  rw [div_le_iff₀ hpos]
  linarith

/-- The mean of ranks is between the first and the ninth. -/
theorem mean_bounds {ranks : List ℤ} (hne : ranks ≠ []) (h : ∀ r ∈ ranks, 1 ≤ r ∧ r ≤ 9) :
    (1 : ℚ) ≤ (ranks.sum : ℚ) / ranks.length ∧ (ranks.sum : ℚ) / ranks.length ≤ 9 := by
  have hpos : (0 : ℚ) < ranks.length := by exact_mod_cast List.length_pos_iff.2 hne
  have hlow : (ranks.length : ℤ) ≤ ranks.sum := by
    have := List.card_nsmul_le_sum ranks 1 fun r hr => (h r hr).1
    simpa using this
  have hup : ranks.sum ≤ 9 * ranks.length := by
    have := List.sum_le_card_nsmul ranks 9 fun r hr => (h r hr).2
    simpa [mul_comm] using this
  rw [le_div_iff₀ hpos, div_le_iff₀ hpos, one_mul]
  exact ⟨by exact_mod_cast hlow, by exact_mod_cast hup⟩

/-! ## The gate -/

/-- `FORM_FEATURES` -/
def formFeatures : List String := ["recent_win_rate", "recent_top2_rate", "recent_top3_rate", "recent_avg_finish"]

/-- A value the gate accepts under a name. -/
def Accepted (name : String) (value : Doc) : Prop := HistoricalTraining.checkFeature name value = .ok ()

theorem accepted_number {name : String} {n : Scalar} {v : ℚ} (hint : ∀ k, n ≠ .int k) (hv : n.value = some v)
    (hrate : name ∈ ["recent_win_rate", "recent_top2_rate", "recent_top3_rate"] → 0 ≤ v ∧ v ≤ 100)
    (hfinish : name = "recent_avg_finish" → 1 ≤ v ∧ v ≤ 9) : Accepted name (.num n) := by
  unfold Accepted HistoricalTraining.checkFeature
  rw [if_neg (by simp)]
  have hrequire : require n.value "invalid_numeric_feature" = .ok v := require_ok.2 hv
  cases n with
  | int k => exact absurd rfl (hint k)
  | _ =>
    simp only [bind, Except.bind, hrequire]
    rw [raiseIf_neg fun hbad => hbad.2 (hrate hbad.1), raiseIf_neg fun hbad => hbad.2 (hfinish hbad.1)]

theorem ofRat_ne_int (q : ℚ) (k : ℤ) : Scalar.ofRat q ≠ .int k := by
  unfold Scalar.ofRat
  split <;> exact fun h => nomatch h

theorem accepted_rate {name : String} (hname : name ≠ "recent_avg_finish") {k n : ℕ} (hkn : k ≤ n) : Accepted name (rate k n) := by
  unfold rate
  split_ifs with hn
  · rfl
  · obtain ⟨hlow, -, -⟩ := percent_bounds le_rfl hkn hn
    obtain ⟨-, -, hup⟩ := percent_bounds le_rfl hkn hn
    have hzero : IsDouble 0 := Binary64.isDouble_zero
    have hhundred : IsDouble 100 := by exact_mod_cast Binary64.isDouble_natCast (n := 100) (by norm_num)
    obtain ⟨v, hv, hlow, hup⟩ := ofRat_between hzero hhundred hlow hup
    exact accepted_number (ofRat_ne_int _) hv (fun _ => ⟨hlow, hup⟩) fun h => absurd h hname

theorem accepted_mean {ranks : List ℤ} (h : ∀ r ∈ ranks, 1 ≤ r ∧ r ≤ 9) :
    Accepted "recent_avg_finish" (if ranks.isEmpty then .null else .num (.ofRat ((ranks.sum : ℚ) / ranks.length))) := by
  split_ifs with hempty
  · rfl
  · obtain ⟨hlow, hup⟩ := mean_bounds (fun hnil => hempty (by simp [hnil])) h
    have hone : IsDouble 1 := by exact_mod_cast Binary64.isDouble_natCast (n := 1) (by norm_num)
    have hnine : IsDouble 9 := by exact_mod_cast Binary64.isDouble_natCast (n := 9) (by norm_num)
    obtain ⟨v, hv, hlow, hup⟩ := ofRat_between hone hnine hlow hup
    exact accepted_number (ofRat_ne_int _) hv (fun hmem => absurd hmem (by decide)) fun _ => ⟨hlow, hup⟩

/-- What a check says, without what it returns. -/
def outcome {α : Type} (x : Except PyError α) : Except PyError Unit := x.map fun _ => ()

/-- A row of features without the recent form. -/
def withoutForm (feature : Dict Doc) : Dict Doc := formFeatures.foldl (fun f name => Dict.pop name f) feature

open HistoricalTraining (featureRow featureRows checkFeature columns asRow)

/-- The gate says the same of a row without a feature whose value it accepts. -/
theorem featureRow_pop {feature : Dict Doc} {name : String} (hname : name ∈ formFeatures)
    (h : Accepted name (Dict.getD feature name .null)) : outcome (featureRow (Dict.pop name feature)) = outcome (featureRow feature) := by
  have hfacts : ∀ n ∈ formFeatures, n ∈ columns ∧ n ≠ "style" := by decide
  have hcolumns : (∀ k ∈ (Dict.pop name feature).map Prod.fst, k ∈ columns) ↔ ∀ k ∈ feature.map Prod.fst, k ∈ columns := by
    constructor
    · intro hk k hmem
      by_cases hkn : k = name
      · exact hkn ▸ (hfacts name hname).1
      · obtain ⟨e, he, rfl⟩ := List.mem_map.1 hmem
        exact hk _ (List.mem_map_of_mem (List.mem_filter.2 ⟨he, by simpa using hkn⟩))
    · intro hk k hmem
      obtain ⟨e, he, rfl⟩ := List.mem_map.1 hmem
      exact hk _ (List.mem_map_of_mem (List.mem_of_mem_filter he))
  have hstyle : Dict.getD (Dict.pop name feature) "style" .null = Dict.getD feature "style" .null :=
    Dict.getD_pop_of_ne (hfacts name hname).2.symm _ _
  have hcheck : (fun n => checkFeature n (Dict.getD (Dict.pop name feature) n .null)) = fun n => checkFeature n (Dict.getD feature n .null) := by
    funext n
    by_cases hn : n = name
    · subst hn
      rw [Dict.getD_pop_self]
      exact h.symm
    · rw [Dict.getD_pop_of_ne hn]
  unfold featureRow outcome
  simp only [hcolumns, hstyle, hcheck]
  cases raiseIf (¬∀ k ∈ feature.map Prod.fst, k ∈ columns) (PyError.valueError "unreviewed_feature_columns") with
  | error exc => rfl
  | ok _ =>
    cases raiseIf (Dict.getD feature "style" .null ∉ ([.str "逃", .str "両", .str "追"] : List Doc)) (PyError.valueError "invalid_style") with
    | error exc => rfl
    | ok _ =>
      simp only [bind, Except.bind]
      cases HistoricalTraining.features.forM fun n => checkFeature n (Dict.getD feature n .null) <;> rfl

theorem featureRow_pops {names : List String} (hnames : ∀ name ∈ names, name ∈ formFeatures) {feature : Dict Doc}
    (h : ∀ name ∈ names, Accepted name (Dict.getD feature name .null)) :
    outcome (featureRow (names.foldl (fun f name => Dict.pop name f) feature)) = outcome (featureRow feature) := by
  induction names generalizing feature with
  | nil => rfl
  | cons name names ih =>
    rw [List.forall_mem_cons] at hnames h
    rw [List.foldl_cons, ih hnames.2 fun n hn => ?_, featureRow_pop hnames.1 h.1]
    by_cases hsame : n = name
    · rw [hsame, Dict.getD_pop_self]
      rfl
    · rw [Dict.getD_pop_of_ne hsame]
      exact h.2 n hn

/-- The rows of features of a record without the recent form. -/
def recordWithoutForm (record : Dict Doc) : Dict Doc :=
  match Dict.getD record "pre_race_features" .null with
  | .arr rows => Dict.set "pre_race_features" (.arr (rows.map fun row =>
      match row with
      | .obj feature => .obj (withoutForm feature)
      | row => row)) record
  | _ => record

theorem getD_withoutForm {feature : Dict Doc} {name : String} (hname : name ∉ formFeatures) :
    Dict.getD (withoutForm feature) name .null = Dict.getD feature name .null := by
  have hpops : ∀ (names : List String) (f : Dict Doc), name ∉ names →
      Dict.getD (names.foldl (fun f n => Dict.pop n f) f) name .null = Dict.getD f name .null := by
    intro names
    induction names with
    | nil => exact fun f _ => rfl
    | cons n names ih =>
      intro f hmem
      rw [List.mem_cons, not_or] at hmem
      rw [List.foldl_cons, ih _ hmem.2, Dict.getD_pop_of_ne hmem.1]
  exact hpops formFeatures feature hname

theorem outcome_bind {α β : Type} {x : Except PyError α} {f g : α → Except PyError β} (h : ∀ a, outcome (f a) = outcome (g a)) :
    outcome (x >>= f) = outcome (x >>= g) := by
  cases x with
  | error exc => rfl
  | ok a => exact h a

theorem outcome_mapM {α β : Type} {f g : α → Except PyError β} {xs : List α} (h : ∀ x ∈ xs, outcome (f x) = outcome (g x)) :
    outcome (xs.mapM f) = outcome (xs.mapM g) := by
  induction xs with
  | nil => rfl
  | cons x xs ih =>
    rw [List.forall_mem_cons] at h
    have hrest := ih h.2
    have htail : ∀ y : β, outcome (xs.mapM f >>= fun ys => pure (y :: ys)) = outcome (xs.mapM f) := by
      intro y
      cases xs.mapM f <;> rfl
    have htail' : ∀ y : β, outcome (xs.mapM g >>= fun ys => pure (y :: ys)) = outcome (xs.mapM g) := by
      intro y
      cases xs.mapM g <;> rfl
    have hx := h.1
    rw [List.mapM_cons, List.mapM_cons]
    cases hf : f x with
    | error exc =>
      cases hg : g x with
      | error exc' =>
        rw [hf, hg] at hx
        cases hx
        rfl
      | ok y => rw [hf, hg] at hx; nomatch hx
    | ok y =>
      cases hg : g x with
      | error exc => rw [hf, hg] at hx; nomatch hx
      | ok y' => exact (htail y).trans (hrest.trans (htail' y').symm)

/-- The gate says the same of a record without recent form that it would accept. -/
theorem featureRows_withoutForm {record : Dict Doc}
    (h : ∀ rows, Dict.getD record "pre_race_features" .null = .arr rows → ∀ feature, .obj feature ∈ rows →
      ∀ name ∈ formFeatures, Accepted name (Dict.getD feature name .null)) :
    outcome (featureRows (recordWithoutForm record)) = outcome (featureRows record) := by
  unfold recordWithoutForm
  cases hfield : Dict.getD record "pre_race_features" .null with
  | arr rows =>
    have hrows := h rows hfield
    unfold featureRows
    have hriders : ∀ v : Doc, Dict.get? "riders" (Dict.set "pre_race_features" v record) = Dict.get? "riders" record :=
      fun v => Dict.get?_set_of_ne (by decide) _ _
    simp only [hriders, Dict.getD_set_self, hfield, List.length_map]
    have hasRow : ∀ f : Doc → Doc, (∀ row, asRow (f row) = (asRow row).map withoutForm) →
        (rows.map f).filterMap asRow = (rows.filterMap asRow).map withoutForm := by
      intro f hf
      rw [List.filterMap_map, List.map_filterMap]
      exact List.filterMap_congr fun row _ => hf row
    have hcars : ((rows.filterMap asRow).map withoutForm).filterMap (fun f => int? (Dict.getD f "car_number" .null)) =
        (rows.filterMap asRow).filterMap fun f => int? (Dict.getD f "car_number" .null) := by
      rw [List.filterMap_map]
      refine List.filterMap_congr fun f _ => ?_
      rw [Function.comp_apply, getD_withoutForm (by decide)]
    have hmap : outcome (((rows.filterMap asRow).map withoutForm).mapM featureRow) = outcome ((rows.filterMap asRow).mapM featureRow) := by
      rw [List.mapM_map]
      refine outcome_mapM fun f hf => ?_
      obtain ⟨row, hrow, hof⟩ := List.mem_filterMap.1 hf
      cases row with
      | obj feature =>
        cases hof
        exact featureRow_pops (fun _ hn => hn) (hrows _ hrow)
      | _ => cases hof
    rw [hasRow _ fun row => by cases row <;> rfl, hcars, List.length_map]
    refine outcome_bind fun riders => outcome_bind fun cars => outcome_bind fun _ => outcome_bind fun _ => outcome_bind fun _ =>
      outcome_bind fun _ => ?_
    exact hmap
  | _ => rfl

/-! ## Provenance -/

/-- Whether every entry of a dictionary tells the race it stands under. -/
def Named (d : Dict Doc) : Prop := ∀ e ∈ d, e.2.get? "race_id" = some (.str e.1)

theorem named_set {d : Dict Doc} (h : Named d) (u : Usable) : Named (Dict.set u.key (provenanceOf u) d) := by
  intro e he
  induction d with
  | nil =>
    rw [Dict.set, List.mem_singleton] at he
    rw [he]
    rfl
  | cons f d ih =>
    obtain ⟨k, v⟩ := f
    rw [Dict.set] at he
    split_ifs at he with hk
    · rcases List.mem_cons.1 he with rfl | he
      · exact congrArg (fun s => some (Json.str s)) hk.symm
      · exact h e (List.mem_cons_of_mem _ he)
    · rcases List.mem_cons.1 he with rfl | he
      · exact h _ List.mem_cons_self
      · exact ih (fun e he => h e (List.mem_cons_of_mem _ he)) he

/-- Races are added to the provenance, and none is taken out. -/
theorem provenance_races (us : List Usable) {d : Dict Doc} (h : Named d) :
    Named (us.foldl (fun d u => Dict.set u.key (provenanceOf u) d) d) ∧
      ∀ k, k ∈ (us.foldl (fun d u => Dict.set u.key (provenanceOf u) d) d).map Prod.fst ↔ k ∈ d.map Prod.fst ∨ ∃ u ∈ us, u.key = k := by
  induction us generalizing d with
  | nil => exact ⟨h, fun k => by simp⟩
  | cons u us ih =>
    obtain ⟨hnamed, hkeys⟩ := ih (named_set h u)
    refine ⟨hnamed, fun k => ?_⟩
    rw [List.foldl_cons, hkeys, Dict.keys_set, List.exists_mem_cons_iff]
    split_ifs with hmem
    · constructor
      · exact fun hk => hk.elim .inl fun hk => .inr (.inr hk)
      · rintro (hk | rfl | hk)
        · exact .inl hk
        · exact .inl hmem
        · exact .inr hk
    · rw [List.mem_append, List.mem_singleton, or_assoc, eq_comm]

theorem provenance_spec (usable : List Usable) (entrants : List Rider) :
    Named (provenance usable entrants) ∧ ∀ e ∈ entrants, ∀ u ∈ usable, (observe e.identity u).isSome = true →
      u.key ∈ (provenance usable entrants).map Prod.fst := by
  have hall : ∀ (es : List Rider) (d : Dict Doc), Named d →
      Named (es.foldl (fun d entrant => (usable.filter fun u => (observe entrant.identity u).isSome).foldl
        (fun d u => Dict.set u.key (provenanceOf u) d) d) d) ∧
      ∀ k, k ∈ d.map Prod.fst ∨ (∃ e ∈ es, ∃ u ∈ usable, (observe e.identity u).isSome = true ∧ u.key = k) →
        k ∈ (es.foldl (fun d entrant => (usable.filter fun u => (observe entrant.identity u).isSome).foldl
          (fun d u => Dict.set u.key (provenanceOf u) d) d) d).map Prod.fst := by
    intro es
    induction es with
    | nil =>
      intro d hd
      refine ⟨hd, fun k hk => hk.elim id ?_⟩
      rintro ⟨e, he, -⟩
      cases he
    | cons e es ih =>
      intro d hd
      obtain ⟨hnamed, hkeys⟩ := provenance_races (usable.filter fun u => (observe e.identity u).isSome) hd
      obtain ⟨hnamed', hrest⟩ := ih _ hnamed
      refine ⟨hnamed', fun k hk => hrest k ?_⟩
      rcases hk with hk | ⟨e', he', u, hu, hobs, hkey⟩
      · exact .inl ((hkeys k).2 (.inl hk))
      · rcases List.mem_cons.1 he' with rfl | he'
        · exact .inl ((hkeys k).2 (.inr ⟨u, List.mem_filter.2 ⟨hu, hobs⟩, hkey⟩))
        · exact .inr ⟨e', he', u, hu, hobs, hkey⟩
  obtain ⟨hnamed, hkeys⟩ := hall entrants [] fun e he => by cases he
  exact ⟨hnamed, fun e he u hu hobs => hkeys u.key (.inr ⟨e, he, u, hu, hobs, rfl⟩)⟩

/-! ## The report -/

/-- What a row of the report keeps to: its races are as many as its starts, each listed once and with its provenance; its rates are
percentages of the starts, of the races won, finished second or better, third or better; its average finish is one between the first
and the ninth; and the gate accepts its values. -/
structure WithinBounds (listed : List Doc) (row : Doc) (starts classified : ℕ) (ids : List String) (values : Dict Doc) : Prop where
  starts_eq : row.get? "starts" = some (.num (.int starts))
  classified_eq : row.get? "classified_finishes" = some (.num (.int classified))
  ids_eq : row.get? "history_race_ids" = some (.arr (ids.map .str))
  features_eq : row.get? "features" = some (.obj values)
  classified_le : classified ≤ starts
  starts_length : starts = ids.length
  distinct : ids.Nodup
  provenance : ∀ id ∈ ids, ∃ entry ∈ listed, entry.get? "race_id" = some (.str id)
  rates : ∃ wins seconds thirds : ℕ, Dict.getD values "recent_win_rate" .null = rate wins starts ∧
    Dict.getD values "recent_top2_rate" .null = rate seconds starts ∧ Dict.getD values "recent_top3_rate" .null = rate thirds starts ∧
    (starts ≠ 0 → (0 : ℚ) ≤ 100 * wins / starts ∧ (100 * wins / starts : ℚ) ≤ 100 * seconds / starts ∧
      (100 * seconds / starts : ℚ) ≤ 100 * thirds / starts ∧ (100 * thirds / starts : ℚ) ≤ 100)
  finish : ∃ total : ℤ, Dict.getD values "recent_avg_finish" .null =
      (if classified = 0 then .null else .num (.ofRat ((total : ℚ) / classified))) ∧
    (classified ≠ 0 → (1 : ℚ) ≤ (total : ℚ) / classified ∧ (total : ℚ) / classified ≤ 9)
  accepted : ∀ name ∈ formFeatures, Accepted name (Dict.getD values name .null)

/-- A row of races that passed the checks keeps to the bounds. -/
theorem formRow_within_bounds {usable : List Usable} {entrants : List Rider} (hkeys : (usable.map Usable.key).Nodup)
    (h : ∀ u ∈ usable, ∃ w c key record, examine w c key record = .ok u) {e : Rider} (he : e ∈ entrants) :
    ∃ starts classified ids values,
      WithinBounds ((provenance usable entrants).map Prod.snd) (formRow usable e) starts classified ids values := by
  have hranks : ∀ r ∈ ranked usable e, 1 ≤ r ∧ r ≤ 9 := fun r hr => mem_ranked h hr
  set n := (observations usable e).length with hn
  have hwins : (ranked usable e).countP (· = 1) ≤ (ranked usable e).countP (· ≤ 2) :=
    List.countP_mono_left fun r _ hr => by simp only [decide_eq_true_eq] at hr ⊢; omega
  have hseconds : (ranked usable e).countP (· ≤ 2) ≤ (ranked usable e).countP (· ≤ 3) :=
    List.countP_mono_left fun r _ hr => by simp only [decide_eq_true_eq] at hr ⊢; omega
  have hthirds : (ranked usable e).countP (· ≤ 3) ≤ n := List.countP_le_length.trans (ranked_le usable e)
  have hids : (observations usable e).map Prod.fst = (usable.filter fun u => (observe e.identity u).isSome).map Usable.key := by
    unfold observations
    clear_value n
    clear hn hthirds hseconds hwins hranks h hkeys
    induction usable with
    | nil => rfl
    | cons u usable ih => cases hobs : observe e.identity u <;> simp_all
  refine ⟨n, (ranked usable e).length, (observations usable e).map Prod.fst, [
    ("recent_win_rate", rate ((ranked usable e).countP (· = 1)) n), ("recent_top2_rate", rate ((ranked usable e).countP (· ≤ 2)) n),
    ("recent_top3_rate", rate ((ranked usable e).countP (· ≤ 3)) n),
    ("recent_avg_finish", if (ranked usable e).isEmpty then .null else
      .num (.ofRat (((ranked usable e).sum : ℚ) / (ranked usable e).length)))], ?_⟩
  constructor
  case starts_eq => rfl
  case classified_eq => rfl
  case ids_eq => rw [List.map_map]; rfl
  case features_eq => rfl
  case classified_le => exact ranked_le usable e
  case starts_length => rw [List.length_map]
  case distinct =>
    rw [hids]
    exact hkeys.sublist (List.filter_sublist.map _)
  case provenance =>
    intro id hid
    rw [hids] at hid
    obtain ⟨u, hu, rfl⟩ := List.mem_map.1 hid
    obtain ⟨hmem, hobs⟩ := List.mem_filter.1 hu
    obtain ⟨hnamed, hlisted⟩ := provenance_spec usable entrants
    obtain ⟨entry, hentry, hkey⟩ := List.mem_map.1 (hlisted e he u hmem hobs)
    exact ⟨entry.2, List.mem_map_of_mem hentry, hkey ▸ hnamed entry hentry⟩
  case rates =>
    refine ⟨_, _, _, rfl, rfl, rfl, fun hstarts => ?_⟩
    obtain ⟨hlow, hmid, -⟩ := percent_bounds hwins (hseconds.trans hthirds) hstarts
    obtain ⟨-, hmid', hup⟩ := percent_bounds hseconds hthirds hstarts
    exact ⟨hlow, hmid, hmid', hup⟩
  case finish =>
    refine ⟨(ranked usable e).sum, ?_, fun hne => mean_bounds (fun hnil => hne (by simp [hnil])) hranks⟩
    cases hall : ranked usable e <;> rfl
  case accepted =>
    intro name hname
    simp only [formFeatures, List.mem_cons, List.not_mem_nil, or_false] at hname
    rcases hname with rfl | rfl | rfl | rfl
    · exact accepted_rate (by decide) ((hwins.trans hseconds).trans hthirds)
    · exact accepted_rate (by decide) (hseconds.trans hthirds)
    · exact accepted_rate (by decide) hthirds
    · exact accepted_mean hranks

/-- Whether the recent form in a record is that of rows of a report. -/
def CarriesForm (rows : List Doc) (record : Dict Doc) : Prop :=
  ∀ features, Dict.getD record "pre_race_features" .null = .arr features → ∀ feature, .obj feature ∈ features →
    ∃ row ∈ rows, ∃ values, row.get? "features" = some (.obj values) ∧
      ∀ name ∈ formFeatures, Dict.getD feature name .null = Dict.getD values name .null

/-- For every target, window and history of which a report can be made, every row of the report keeps to the bounds, and the gate
for features says the same of a record that carries the recent form of the report as of the record without it. -/
theorem form_within_bounds {target history windowDays report : Doc} (h : build target history windowDays = .ok report) :
    ∃ rows listed, report.get? "riders" = some (.arr rows) ∧ report.get? "provenance" = some (.arr listed) ∧
      (∀ row ∈ rows, ∃ starts classified ids values, WithinBounds listed row starts classified ids values) ∧
      ∀ record, CarriesForm rows record →
        outcome (featureRows record) = outcome (featureRows (recordWithoutForm record)) := by
  unfold build at h
  obtain ⟨⟨w, entrants, records, days⟩, htarget, h⟩ := bind_ok.1 h
  obtain ⟨⟨races, rejected⟩, hsift, h⟩ := bind_ok.1 h
  obtain ⟨sha, hsha, h⟩ := bind_ok.1 h
  cases h
  obtain ⟨rejected', hsift'⟩ := sift_eq w (group records).conflicts (group records).seen
  cases hsift.symm.trans hsift'
  set usable := (usables w (group records).conflicts (group records).seen).insertionSort earlier with husable
  have hkeys : (usable.map Usable.key).Nodup :=
    ((List.perm_insertionSort _ _).map _).nodup_iff.2 (nodup_usables (group_nodup records))
  have hexamined : ∀ u ∈ usable, ∃ w c key record, examine w c key record = .ok u := by
    intro u hu
    obtain ⟨key, record, -, hex⟩ := mem_usables.1 ((List.mem_insertionSort _).1 hu)
    exact ⟨_, _, key, record, hex⟩
  have hrows : ∀ row ∈ entrants.map (formRow usable), ∃ starts classified ids values,
      WithinBounds ((provenance usable entrants).map Prod.snd) row starts classified ids values := by
    intro row hrow
    obtain ⟨e, he, rfl⟩ := List.mem_map.1 hrow
    exact formRow_within_bounds hkeys hexamined he
  refine ⟨entrants.map (formRow usable), (provenance usable entrants).map Prod.snd, rfl, rfl, hrows, fun record hcarries => ?_⟩
  refine (featureRows_withoutForm fun features hfeatures feature hfeature name hname => ?_).symm
  obtain ⟨row, hrow, values, hvalues, hsame⟩ := hcarries features hfeatures feature hfeature
  obtain ⟨starts, classified, ids, values', hbounds⟩ := hrows row hrow
  cases hbounds.features_eq.symm.trans hvalues
  rw [hsame name hname]
  exact hbounds.accepted name hname

theorem form_within_bounds_sample : ∃ report rows listed,
    build sampleTarget (.arr [samplePast "2020-01-01T11:00:00+09:00"]) sampleDays = .ok report ∧
      report.get? "riders" = some (.arr rows) ∧
      ∀ row ∈ rows, ∃ starts classified ids values, WithinBounds listed row starts classified ids values := by
  have hok : (build sampleTarget (.arr [samplePast "2020-01-01T11:00:00+09:00"]) sampleDays).isOk = true := by decide +kernel
  cases h : build sampleTarget (.arr [samplePast "2020-01-01T11:00:00+09:00"]) sampleDays with
  | error exc => rw [h] at hok; nomatch hok
  | ok report =>
    obtain ⟨rows, listed, hrows, -, hbounds, -⟩ := form_within_bounds h
    exact ⟨report, rows, listed, rfl, hrows, hbounds⟩

end Keirin.HistoricalForm

import Keirin.TrainingRows
import Keirin.Lemmas.PythonData

/-!
# What the training set is made of

A run of `buildRows` that returns has read every record and every time it compares, so it can be told without failures: the latest
eligible record of each race, sorted, and their rows one after the other.
-/

namespace Keirin.TrainingRows

open Dataset

variable {mktime : Datetime → Except PyError ℚ} {repr : Doc → String}

/-! ## Candidates -/

/-- The eligible records with a race. -/
def candidates (repr : Doc → String) (records : List Doc) : List Doc :=
  records.filter fun r => supervisedEligibility r = .ok none ∧ raceIdOf repr r ≠ ""

/-- The time of a record, where it has one. -/
def timeOf (mktime : Datetime → Except PyError ℚ) (record : Doc) : WithBot ℚ :=
  ((timeKey mktime (record.field "prediction_timestamp")).toOption).getD ⊥

/-- Whether the time of a record can be read. -/
def Timed (mktime : Datetime → Except PyError ℚ) (record : Doc) : Prop :=
  timeKey mktime (record.field "prediction_timestamp") = .ok (timeOf mktime record)

theorem timed_of_ok {record : Doc} {t : WithBot ℚ} (h : timeKey mktime (record.field "prediction_timestamp") = .ok t) :
    Timed mktime record := by
  simp [Timed, timeOf, h, Except.toOption]

theorem mem_candidates {records : List Doc} {r : Doc} :
    r ∈ candidates repr records ↔ r ∈ records ∧ supervisedEligibility r = .ok none ∧ raceIdOf repr r ≠ "" := by
  simp [candidates]

/-- The records kept of the races. -/
def kept (mktime : Datetime → Except PyError ℚ) (repr : Doc → String) (records : List Doc) : Dict Doc :=
  Latest.latest (raceIdOf repr) (timeOf mktime) (candidates repr records)

/-! ## Selection -/

/-- What one record does: it is counted, or it is kept if it is the latest so far. -/
theorem selectStep_ok {acc acc' : Dict Doc × Dict ℕ} {record : Doc} (h : selectStep mktime repr acc record = .ok acc') :
    (∃ verdict, supervisedEligibility record = .ok verdict) ∧
      if supervisedEligibility record = .ok none ∧ raceIdOf repr record ≠ "" then
        acc'.1 = Latest.keep (raceIdOf repr) (timeOf mktime) acc.1 record ∧
          ∀ current, Dict.get? (raceIdOf repr record) acc.1 = some current → Timed mktime record ∧ Timed mktime current
      else acc'.1 = acc.1 := by
  unfold selectStep at h
  obtain ⟨verdict, hverdict, h⟩ := bind_ok.1 h
  refine ⟨⟨verdict, hverdict⟩, ?_⟩
  cases verdict with
  | some reason =>
    cases h
    simp [hverdict]
  | none =>
    simp only [] at h
    by_cases hrace : raceIdOf repr record = ""
    · rw [if_pos hrace] at h
      cases h
      rw [if_neg fun hc => hc.2 hrace]
    · rw [if_neg hrace] at h
      rw [if_pos ⟨hverdict, hrace⟩]
      unfold Latest.keep
      cases hget : Dict.get? (raceIdOf repr record) acc.1 with
      | none =>
        rw [hget] at h
        cases h
        exact ⟨rfl, fun current hcurrent => (nomatch hcurrent)⟩
      | some current =>
        rw [hget] at h
        obtain ⟨time, htime, h⟩ := bind_ok.1 h
        obtain ⟨currentTime, hcurrent, h⟩ := bind_ok.1 h
        cases h
        have htimed := timed_of_ok htime
        have htimed' := timed_of_ok hcurrent
        have ht : timeOf mktime record = time := by simp [timeOf, htime, Except.toOption]
        have ht' : timeOf mktime current = currentTime := by simp [timeOf, hcurrent, Except.toOption]
        refine ⟨by simp [ht, ht'], fun other hother => ?_⟩
        cases hother
        exact ⟨htimed, htimed'⟩

/-- A record whose times can be read passes. -/
theorem selectStep_returns {acc : Dict Doc × Dict ℕ} {record : Doc} {verdict : Verdict}
    (hverdict : supervisedEligibility record = .ok verdict)
    (htimed : verdict = none → raceIdOf repr record ≠ "" → Timed mktime record)
    (hacc : ∀ current ∈ acc.1.map Prod.snd, Timed mktime current) : ∃ acc', selectStep mktime repr acc record = .ok acc' := by
  unfold selectStep
  rw [hverdict]
  cases verdict with
  | some reason => exact ⟨_, rfl⟩
  | none =>
    by_cases hrace : raceIdOf repr record = ""
    · simp only [bind, Except.bind, if_pos hrace]
      exact ⟨_, rfl⟩
    · simp only [bind, Except.bind, if_neg hrace]
      cases hget : Dict.get? (raceIdOf repr record) acc.1 with
      | none => exact ⟨_, rfl⟩
      | some current =>
        have hcurrent : Timed mktime current := hacc current (List.mem_map_of_mem (f := Prod.snd) (Dict.mem_of_get? hget))
        have hrecord := htimed rfl hrace
        unfold Timed at hcurrent hrecord
        simp only [hcurrent, hrecord]
        exact ⟨_, rfl⟩

/-- Every record is judged, and the candidates are kept one after the other. -/
theorem select_kept {records : List Doc} {acc acc' : Dict Doc × Dict ℕ}
    (h : records.foldlM (selectStep mktime repr) acc = .ok acc') :
    (∀ r ∈ records, ∃ verdict, supervisedEligibility r = .ok verdict) ∧
      acc'.1 = (candidates repr records).foldl (Latest.keep (raceIdOf repr) (timeOf mktime)) acc.1 := by
  induction records generalizing acc with
  | nil =>
    cases h
    exact ⟨fun r hr => (by cases hr), rfl⟩
  | cons record records ih =>
    rw [List.foldlM_cons] at h
    obtain ⟨mid, hmid, h⟩ := bind_ok.1 h
    obtain ⟨hjudged, hstep⟩ := selectStep_ok hmid
    obtain ⟨hrest, hkept⟩ := ih h
    refine ⟨List.forall_mem_cons.2 ⟨hjudged, hrest⟩, ?_⟩
    by_cases hc : supervisedEligibility record = .ok none ∧ raceIdOf repr record ≠ ""
    · rw [if_pos hc] at hstep
      have hcons : candidates repr (record :: records) = record :: candidates repr records :=
        List.filter_cons_of_pos (decide_eq_true hc)
      rw [hkept, hstep.1, hcons, List.foldl_cons]
    · rw [if_neg hc] at hstep
      have hcons : candidates repr (record :: records) = candidates repr records :=
        List.filter_cons_of_neg (by rw [decide_eq_true_eq]; exact hc)
      rw [hkept, hstep, hcons]

/-- A candidate whose time was never compared is still kept. -/
theorem select_timed {records : List Doc} {acc acc' : Dict Doc × Dict ℕ}
    (h : records.foldlM (selectStep mktime repr) acc = .ok acc') :
    ∀ r, r ∈ candidates repr records ∨ r ∈ acc.1.map Prod.snd → Timed mktime r ∨ r ∈ acc'.1.map Prod.snd := by
  induction records generalizing acc with
  | nil =>
    cases h
    exact fun r hr => .inr (hr.elim (fun hr => nomatch hr) id)
  | cons record records ih =>
    rw [List.foldlM_cons] at h
    obtain ⟨mid, hmid, hrest⟩ := bind_ok.1 h
    obtain ⟨-, hstep⟩ := selectStep_ok hmid
    intro r hr
    by_cases hc : supervisedEligibility record = .ok none ∧ raceIdOf repr record ≠ ""
    · rw [if_pos hc] at hstep
      obtain ⟨hkept, htimed⟩ := hstep
      have hcons : candidates repr (record :: records) = record :: candidates repr records :=
        List.filter_cons_of_pos (decide_eq_true hc)
      rw [hcons, List.mem_cons, or_assoc] at hr
      rcases hr with rfl | hr | hr
      · cases hget : Dict.get? (raceIdOf repr r) acc.1 with
        | none => exact ih hrest r (.inr (hkept ▸ Latest.self_mem_keep hget))
        | some current => exact .inl (htimed current hget).1
      · exact ih hrest r (.inl hr)
      · have hkeep : r ∈ mid.1.map Prod.snd ∨ Dict.get? (raceIdOf repr record) acc.1 = some r := hkept ▸ Latest.mem_keep hr
        rcases hkeep with hmem | hget
        · exact ih hrest r (.inr hmem)
        · exact .inl (htimed r hget).2
    · rw [if_neg hc] at hstep
      have hcons : candidates repr (record :: records) = candidates repr records :=
        List.filter_cons_of_neg (by rw [decide_eq_true_eq]; exact hc)
      rw [hcons] at hr
      exact ih hrest r (hr.imp_right fun hr => hstep ▸ hr)

/-- The selection returns where every record can be judged and every candidate timed. -/
theorem select_returns {records : List Doc} {acc : Dict Doc × Dict ℕ}
    (hjudged : ∀ r ∈ records, ∃ verdict, supervisedEligibility r = .ok verdict)
    (htimed : ∀ r ∈ candidates repr records, Timed mktime r) (hacc : ∀ r ∈ acc.1.map Prod.snd, Timed mktime r) :
    ∃ acc', records.foldlM (selectStep mktime repr) acc = .ok acc' := by
  induction records generalizing acc with
  | nil => exact ⟨acc, rfl⟩
  | cons record records ih =>
    obtain ⟨verdict, hverdict⟩ := hjudged record List.mem_cons_self
    have hrecord : verdict = none → raceIdOf repr record ≠ "" → Timed mktime record := by
      rintro rfl hrace
      exact htimed record (mem_candidates.2 ⟨List.mem_cons_self, hverdict, hrace⟩)
    obtain ⟨mid, hmid⟩ := selectStep_returns hverdict hrecord hacc
    have hmidtimed : ∀ r ∈ mid.1.map Prod.snd, Timed mktime r := by
      intro r hr
      have hstep := (selectStep_ok hmid).2
      split_ifs at hstep with hc
      · rw [hstep.1] at hr
        rcases Latest.mem_of_keep hr with hr | rfl
        · exact hacc r hr
        · exact htimed r (mem_candidates.2 ⟨List.mem_cons_self, hc⟩)
      · exact hacc r (hstep ▸ hr)
    obtain ⟨acc', hrest⟩ := ih (fun r hr => hjudged r (List.mem_cons_of_mem _ hr))
      (fun r hr => htimed r (mem_candidates.2 ((mem_candidates.1 hr).imp_left (List.mem_cons_of_mem _)))) hmidtimed
    exact ⟨acc', by rw [List.foldlM_cons, hmid]; exact hrest⟩

/-! ## Rows -/

/-- The rows of a record, where it has them. -/
def rowsIn (record : Doc) : List (Dict Doc) := ((riderRows record).toOption).getD []

theorem rowsIn_of_ok {record : Doc} {rows : List (Dict Doc)} (h : riderRows record = .ok rows) : rows = rowsIn record := by
  simp [rowsIn, h, Except.toOption]

/-- The names of the fields of a row, in their order. -/
def rowNames : List String :=
  ["race_id", "date", "venue", "race_number", "prediction_timestamp", "car_number", "style", "race_score", "S", "H", "B", "line_id",
    "line_position", "line_length", "is_line_leader", "recent_win_rate", "recent_top2_rate", "recent_top3_rate",
    "recent_avg_finish", "current_meet_avg_finish", "condition_score", "bank_fit_score", "comment_condition", "comment_training",
    "comment_equipment", "comment_confidence", "comment_motivation", "comment_fatigue", "known_trifecta_odds_count", "target_first",
    "target_second", "target_third", "target_top3"]

/-- A row of a record: it names its race and its time. -/
structure RowFor (record : Doc) (row : Dict Doc) : Prop where
  names : row.map Prod.fst = rowNames
  race : Dict.getD row "race_id" .null = record.field "race_id"
  time : Dict.getD row "prediction_timestamp" .null = record.field "prediction_timestamp"

theorem features_names {player : Doc} {car : ℤ} {features : Dict Doc}
    (h : extractPlayerModelFields player = .ok (car, features)) :
    features.map Prod.fst = (rowNames.drop 5).take 23 := by
  unfold extractPlayerModelFields at h
  iterate 26 obtain ⟨_, -, h⟩ := bind_ok.1 h
  cases h
  rfl

theorem rowFor_of_rowOf {record race player : Doc} {odds : ℕ} {outcome : List ℤ} {row : Dict Doc}
    (h : rowOf record race odds outcome player = .ok (some row)) : RowFor record row := by
  cases player with
  | obj fs =>
    obtain ⟨⟨car, features⟩, hfeatures, h⟩ := bind_ok.1 h
    obtain ⟨date, -, h⟩ := bind_ok.1 h
    cases h
    refine ⟨?_, rfl, rfl⟩
    simp only [List.map_append, List.map_cons, List.map_nil, features_names hfeatures]
    rfl
  | _ => nomatch h

/-- The rows of a record name its race and its time, and there is one. -/
theorem rowsFor {record : Doc} {rows : List (Dict Doc)} (h : riderRows record = .ok rows) :
    rows ≠ [] ∧ ∀ row ∈ rows, RowFor record row := by
  obtain ⟨verdict, -, h⟩ := bind_ok.1 h
  cases verdict with
  | some reason => nomatch h
  | none =>
    simp only [rowsOf] at h
    obtain ⟨race, -, h⟩ := bind_ok.1 h
    obtain ⟨outcome, -, h⟩ := bind_ok.1 h
    obtain ⟨-, h⟩ := raiseIf_bind_ok.1 h
    obtain ⟨odds, -, h⟩ := bind_ok.1 h
    obtain ⟨trifecta, -, h⟩ := bind_ok.1 h
    obtain ⟨values, -, h⟩ := bind_ok.1 h
    obtain ⟨marker, -, h⟩ := bind_ok.1 h
    obtain ⟨-, h⟩ := raiseIf_bind_ok.1 h
    obtain ⟨players, -, h⟩ := bind_ok.1 h
    obtain ⟨parts, hparts, h⟩ := bind_ok.1 h
    obtain ⟨⟨⟩, hlabels, h⟩ := bind_ok.1 h
    cases h
    constructor
    · intro hnil
      rw [hnil] at hlabels
      nomatch hlabels
    · intro row hrow
      obtain ⟨part, hpart, rfl⟩ := List.mem_filterMap.1 hrow
      obtain ⟨player, -, hplayer⟩ := exists_of_mem_right (mapM_ok_iff.1 hparts) hpart
      exact rowFor_of_rowOf hplayer

/-- A record with what it is sorted by. -/
def keyed (mktime : Datetime → Except PyError ℚ) (repr : Doc → String) (record : Doc) : Keyed :=
  ⟨timeOf mktime record, raceText repr record, record⟩

theorem sortKey_ok {record : Doc} {k : Keyed} (h : sortKey mktime repr record = .ok k) :
    Timed mktime record ∧ k = keyed mktime repr record := by
  obtain ⟨time, htime, h⟩ := bind_ok.1 h
  cases h
  have ht : timeOf mktime record = time := by simp [timeOf, htime, Except.toOption]
  exact ⟨timed_of_ok htime, by rw [keyed, ht]⟩

theorem sortKey_of_timed {record : Doc} (h : Timed mktime record) : sortKey mktime repr record = .ok (keyed mktime repr record) := by
  unfold sortKey
  rw [h]
  rfl

/-- The selected records in their order. -/
def chosen (mktime : Datetime → Except PyError ℚ) (repr : Doc → String) (records : List Doc) : List Keyed :=
  (((kept mktime repr records).map Prod.snd).map (keyed mktime repr)).insertionSort earlier

/-- What is known of records whose rows were built. -/
structure Built (mktime : Datetime → Except PyError ℚ) (repr : Doc → String) (records : List Doc) : Prop where
  judged : ∀ r ∈ records, ∃ verdict, supervisedEligibility r = .ok verdict
  timed : ∀ r ∈ candidates repr records, Timed mktime r
  rows : ∀ r ∈ (kept mktime repr records).map Prod.snd, riderRows r = .ok (rowsIn r)

theorem record_of_chosen {records : List Doc} {k : Keyed} (h : k ∈ chosen mktime repr records) :
    k.record ∈ (kept mktime repr records).map Prod.snd ∧ k = keyed mktime repr k.record := by
  rw [chosen, List.mem_insertionSort] at h
  obtain ⟨r, hr, rfl⟩ := List.mem_map.1 h
  exact ⟨hr, rfl⟩

/-- The rows that were built are those of the selected records. -/
theorem built_of_ok {records : List Doc} {rows : List (Dict Doc)} {summary : Summary}
    (h : buildRows mktime repr records = .ok (rows, summary)) :
    Built mktime repr records ∧ rows = (chosen mktime repr records).flatMap fun k => rowsIn k.record := by
  obtain ⟨⟨selected, excluded⟩, hselect, h⟩ := bind_ok.1 h
  obtain ⟨ks, hks, h⟩ := bind_ok.1 h
  obtain ⟨parts, hparts, h⟩ := bind_ok.1 h
  obtain ⟨hjudged, hselected⟩ := select_kept hselect
  have hkept : selected = kept mktime repr records := hselected
  subst hkept
  obtain ⟨rfl, hkeys⟩ := mapM_ok_map (fun r k hk => (sortKey_ok hk).2) hks
  obtain ⟨rfl, hrows⟩ := mapM_ok_map (fun k rs hrs => rowsIn_of_ok hrs) hparts
  have htimed : ∀ r ∈ candidates repr records, Timed mktime r := by
    intro r hr
    rcases select_timed hselect r (.inl hr) with h | h
    · exact h
    · exact (sortKey_ok (hkeys r h)).1
  refine ⟨⟨hjudged, htimed, fun r hr => ?_⟩, ?_⟩
  · exact hrows (keyed mktime repr r) ((List.mem_insertionSort _).2 (List.mem_map_of_mem hr))
  · cases h
    rw [List.flatMap_def]
    rfl

/-- Records that can be judged and timed, with rows of those selected, have their rows built. -/
theorem Built.returns {records : List Doc} (h : Built mktime repr records) :
    ∃ summary, buildRows mktime repr records = .ok ((chosen mktime repr records).flatMap fun k => rowsIn k.record, summary) := by
  have hreturns : ∃ acc, records.foldlM (selectStep mktime repr) ([], []) = .ok acc :=
    select_returns h.judged h.timed fun r hr => nomatch hr
  obtain ⟨⟨selected, excluded⟩, hfold⟩ := hreturns
  have hselected : selected = kept mktime repr records := (select_kept hfold).2
  subst hselected
  have hselect : selectLatestEligiblePerRace mktime repr records = .ok (kept mktime repr records, excluded) := hfold
  have htimed : ∀ r ∈ (kept mktime repr records).map Prod.snd, Timed mktime r := fun r hr =>
    h.timed r (Latest.isLatest_of_get? (Latest.get?_of_mem hr)).1.1
  have hkeys : ((kept mktime repr records).map Prod.snd).mapM (sortKey mktime repr) =
      .ok (((kept mktime repr records).map Prod.snd).map (keyed mktime repr)) :=
    mapM_eq_map (keyed mktime repr) fun r hr => sortKey_of_timed (htimed r hr)
  have hparts : (chosen mktime repr records).mapM (fun k => riderRows k.record) =
      .ok ((chosen mktime repr records).map fun k => rowsIn k.record) :=
    mapM_eq_map (fun k => rowsIn k.record) fun k hk => h.rows k.record (record_of_chosen hk).1
  unfold buildRows
  rw [hselect]
  simp only [bind, Except.bind, hkeys]
  unfold chosen at hparts ⊢
  rw [hparts, List.flatMap_def]
  exact ⟨_, rfl⟩

end Keirin.TrainingRows

import Keirin.Lemmas.TrainingRows
import Keirin.Lib.Sorted

/-!
# Training rows and the order of the records

Of several eligible records of a race with the same prediction timestamp the first is kept, so the rows depend on the order of the
records unless such records have the same rows.
-/

namespace Keirin.TrainingRows

open Dataset

variable {mktime : Datetime → Except PyError ℚ} {repr : Doc → String} {records records' : List Doc}

/-- Whether a record is one of the latest eligible records of its race. -/
def IsLatest (mktime : Datetime → Except PyError ℚ) (repr : Doc → String) (records : List Doc) (r : Doc) : Prop :=
  Latest.IsLatest (raceIdOf repr) (timeOf mktime) (candidates repr records) r

/-- Whether the latest eligible records of each race have the same rows, as far as they have rows. -/
def TiesAgree (mktime : Datetime → Except PyError ℚ) (repr : Doc → String) (records : List Doc) : Prop :=
  ∀ a b, IsLatest mktime repr records a → IsLatest mktime repr records b → raceIdOf repr a = raceIdOf repr b →
    ∀ rows rows', riderRows a = .ok rows → riderRows b = .ok rows' → rows = rows'

theorem candidates_perm (h : records.Perm records') : (candidates repr records).Perm (candidates repr records') := h.filter _

/-! ## Rows of rearranged records -/

/-- What a selected record gives: its time, the text of its race and its rows. -/
abbrev Entry := WithBot ℚ × String × List (Dict Doc)

def entry (mktime : Datetime → Except PyError ℚ) (repr : Doc → String) (r : Doc) : Entry :=
  (timeOf mktime r, raceText repr r, rowsIn r)

/-- The order of the selected records, by what they give. -/
abbrev entryEarlier : Entry → Entry → Prop := Sorted.Lex (fun e => e.1) fun e => e.2.1

/-- What the selected records give. -/
def entries (mktime : Datetime → Except PyError ℚ) (repr : Doc → String) (records : List Doc) : List Entry :=
  ((kept mktime repr records).map Prod.snd).map (entry mktime repr)

/-- The rows are those of the sorted entries. -/
theorem rows_eq_entries : ((chosen mktime repr records).flatMap fun k => rowsIn k.record) =
    ((entries mktime repr records).insertionSort entryEarlier).flatMap fun e => e.2.2 := by
  have hmap : (chosen mktime repr records).map (fun k => ((k.time, k.text, rowsIn k.record) : Entry)) =
      (entries mktime repr records).insertionSort entryEarlier := by
    unfold chosen entries
    rw [List.map_insertionSort (s := entryEarlier) (r := earlier) (fun k => ((k.time, k.text, rowsIn k.record) : Entry)) _
      fun a _ b _ => Iff.rfl, List.map_map]
    rfl
  rw [← hmap, List.flatMap_map]

/-- Records that agree on their rows agree on all they give. -/
theorem entry_eq (hties : TiesAgree mktime repr records) {a b : Doc} (ha : IsLatest mktime repr records a)
    (hb : IsLatest mktime repr records b) (hrace : raceIdOf repr a = raceIdOf repr b) (harows : riderRows a = .ok (rowsIn a))
    (hbrows : riderRows b = .ok (rowsIn b)) : entry mktime repr a = entry mktime repr b := by
  have hrows : rowsIn a = rowsIn b := hties a b ha hb hrace _ _ harows hbrows
  have hfield : a.field "race_id" = b.field "race_id" := by
    obtain ⟨hne, hfor⟩ := rowsFor harows
    obtain ⟨row, hrow⟩ := List.exists_mem_of_ne_nil _ hne
    exact (hfor row hrow).race.symm.trans ((rowsFor hbrows).2 row (hrows ▸ hrow)).race
  have htext : raceText repr a = raceText repr b := by rw [raceText, raceText, hfield]
  have htime : timeOf mktime a = timeOf mktime b := Latest.time_eq ha hb hrace
  rw [entry, entry, htime, htext, hrows]

/-- Rearranged records give the same, where the latest of a race agree. -/
theorem entries_perm (hties : TiesAgree mktime repr records) (hperm : records.Perm records') (hbuilt : Built mktime repr records)
    (hbuilt' : Built mktime repr records') : (entries mktime repr records).Perm (entries mktime repr records') := by
  have hvalues : ∀ rs : List Doc, entries mktime repr rs =
      ((kept mktime repr rs).map Prod.fst).map fun k => entry mktime repr (Dict.getD (kept mktime repr rs) k .null) := by
    intro rs
    have hkept : (kept mktime repr rs).map Prod.snd =
        ((kept mktime repr rs).map Prod.fst).map fun k => Dict.getD (kept mktime repr rs) k .null :=
      Dict.values_eq (Latest.nodup_keys _) Json.null
    rw [entries, hkept, List.map_map]
    rfl
  have hkeys : ((kept mktime repr records).map Prod.fst).Perm ((kept mktime repr records').map Prod.fst) :=
    Latest.keys_perm (candidates_perm hperm)
  rw [hvalues, hvalues]
  refine (List.Perm.of_eq (List.map_congr_left fun k hk => ?_)).trans (hkeys.map _)
  obtain ⟨a, ha⟩ := Option.isSome_iff_exists.1 (Dict.get?_isSome_iff.2 hk)
  obtain ⟨b, hb⟩ := Option.isSome_iff_exists.1 (Dict.get?_isSome_iff.2 (hkeys.mem_iff.1 hk))
  have hla := Latest.isLatest_of_get? ha
  have hlb := Latest.isLatest_of_get? hb
  have hlb' : IsLatest mktime repr records b := (Latest.isLatest_perm (candidates_perm hperm)).2 hlb.1
  have hrows : ∀ {rs : List Doc} {r : Doc}, Built mktime repr rs → Dict.get? k (kept mktime repr rs) = some r →
      riderRows r = .ok (rowsIn r) := fun hrs hr => hrs.rows _ (List.mem_map_of_mem (f := Prod.snd) (Dict.mem_of_get? hr))
  rw [Dict.getD, Dict.getD, ha, hb]
  exact entry_eq hties hla.1 hlb' (hla.2.trans hlb.2.symm) (hrows hbuilt ha) (hrows hbuilt' hb)

theorem nodup_texts : ((entries mktime repr records).map fun e => e.2.1).Nodup := by
  have hraces : (((kept mktime repr records).map Prod.snd).map (raceIdOf repr)).Nodup := Latest.nodup_map_key _
  have hids : (((entries mktime repr records).map fun e => e.2.1).map strip).Nodup := by
    rw [entries, List.map_map, List.map_map]
    exact hraces
  exact hids.of_map _

theorem rows_perm (hties : TiesAgree mktime repr records) (hperm : records.Perm records') (hbuilt : Built mktime repr records)
    (hbuilt' : Built mktime repr records') :
    ((chosen mktime repr records').flatMap fun k => rowsIn k.record) = (chosen mktime repr records).flatMap fun k => rowsIn k.record := by
  rw [rows_eq_entries, rows_eq_entries,
    Sorted.sort_perm (entries_perm hties hperm hbuilt hbuilt') (Sorted.lex_antisymm nodup_texts)]

/-! ## A record that comes first -/

/-- Without one record of a race, what is kept of the other races stays. -/
theorem kept_front {a : Doc} {k : String} (ha : a ∈ candidates repr records) (hk : raceIdOf repr a ≠ k) :
    Dict.get? k (kept mktime repr (a :: records.erase a)) = Dict.get? k (kept mktime repr records) := by
  refine Latest.get?_congr ?_
  have hfront : candidates repr (a :: records.erase a) = a :: (candidates repr records).erase a := by
    have hcons : candidates repr (a :: records.erase a) = a :: candidates repr (records.erase a) :=
      List.filter_cons_of_pos (decide_eq_true (mem_candidates.1 ha).2)
    rw [hcons]
    exact congrArg _ List.erase_filter.symm
  have hnot : a ∉ (candidates repr records).filter fun r => raceIdOf repr r = k := fun h =>
    hk (of_decide_eq_true (List.mem_filter.1 h).2)
  rw [hfront, List.filter_cons_of_neg (by simpa using hk), ← List.erase_filter, List.erase_of_not_mem hnot]

/-- One of the latest records of a race is kept if it comes first. -/
theorem kept_self {a : Doc} (ha : IsLatest mktime repr records a) :
    Dict.get? (raceIdOf repr a) (kept mktime repr (a :: records.erase a)) = some a := by
  have hmem : a ∈ records := (mem_candidates.1 ha.1).1
  have hcons : candidates repr (a :: records.erase a) = a :: candidates repr (records.erase a) :=
    List.filter_cons_of_pos (decide_eq_true (mem_candidates.1 ha.1).2)
  have hlatest := (Latest.isLatest_perm (candidates_perm (List.perm_cons_erase hmem))).1 ha
  unfold kept
  rw [hcons] at hlatest ⊢
  exact Latest.get?_latest_cons hlatest

/-- With one of the latest records of a race before the others the rows are built, if that record has rows. -/
theorem built_front {a : Doc} {rows : List (Dict Doc)} (hbuilt : Built mktime repr records) (ha : IsLatest mktime repr records a)
    (hrows : riderRows a = .ok rows) : Built mktime repr (a :: records.erase a) := by
  have hperm : records.Perm (a :: records.erase a) := List.perm_cons_erase (mem_candidates.1 ha.1).1
  refine ⟨fun r hr => hbuilt.judged r (hperm.mem_iff.2 hr), fun r hr => hbuilt.timed r ((candidates_perm hperm).mem_iff.2 hr),
    fun r hr => ?_⟩
  have hget : Dict.get? (raceIdOf repr r) (kept mktime repr (a :: records.erase a)) = some r := Latest.get?_of_mem hr
  by_cases hrace : raceIdOf repr a = raceIdOf repr r
  · rw [← hrace, kept_self ha] at hget
    cases hget
    exact rowsIn_of_ok hrows ▸ hrows
  · rw [kept_front ha.1 hrace] at hget
    exact hbuilt.rows r (List.mem_map_of_mem (f := Prod.snd) (Dict.mem_of_get? hget))

/-- The race a row names. -/
def raceOfRow (repr : Doc → String) (row : Dict Doc) : String :=
  strip ((Doc.orElse (Dict.getD row "race_id" .null) (.str "")).toStr repr)

theorem raceOfRow_eq {r : Doc} {row : Dict Doc} (h : riderRows r = .ok (rowsIn r)) (hrow : row ∈ rowsIn r) :
    raceOfRow repr row = raceIdOf repr r := by
  rw [raceOfRow, ((rowsFor h).2 row hrow).race]
  rfl

/-- A selected record stands alone for its race. -/
theorem chosen_of_race {a : Doc} (ha : a ∈ (kept mktime repr records).map Prod.snd) :
    ((chosen mktime repr records).filter fun k => raceIdOf repr k.record = raceIdOf repr a) = [keyed mktime repr a] := by
  have hnodup : ((((kept mktime repr records).map Prod.snd).map (keyed mktime repr)).map fun k => raceIdOf repr k.record).Nodup := by
    rw [List.map_map]
    exact Latest.nodup_map_key _
  have hone : ((((kept mktime repr records).map Prod.snd).map (keyed mktime repr)).filter fun k =>
      raceIdOf repr k.record = raceIdOf repr a) = [keyed mktime repr a] :=
    Latest.filter_key hnodup (List.mem_map_of_mem ha) rfl
  have hperm := (List.perm_insertionSort earlier (((kept mktime repr records).map Prod.snd).map (keyed mktime repr))).filter
    fun k => raceIdOf repr k.record = raceIdOf repr a
  rw [hone] at hperm
  exact List.perm_singleton.1 hperm

/-- The rows of a race are those of the record kept of it. -/
theorem rows_of_race (hbuilt : Built mktime repr records) {a : Doc} (ha : a ∈ (kept mktime repr records).map Prod.snd) :
    (((chosen mktime repr records).flatMap fun k => rowsIn k.record).filter fun row => raceOfRow repr row = raceIdOf repr a) =
      rowsIn a := by
  have hpart : ∀ k ∈ chosen mktime repr records,
      ((rowsIn k.record).filter fun row => raceOfRow repr row = raceIdOf repr a) =
        if raceIdOf repr k.record = raceIdOf repr a then rowsIn k.record else [] := by
    intro k hk
    have hrows := hbuilt.rows k.record (record_of_chosen hk).1
    split_ifs with hrace
    · refine List.filter_eq_self.2 fun row hrow => decide_eq_true ?_
      rw [raceOfRow_eq hrows hrow, hrace]
    · refine List.filter_eq_nil_iff.2 fun row hrow hk' => hrace ?_
      rw [← raceOfRow_eq hrows hrow]
      exact of_decide_eq_true hk'
  rw [List.filter_flatMap, List.flatMap_congr hpart]
  have hfilter : ∀ ks : List Keyed, (ks.flatMap fun k => if raceIdOf repr k.record = raceIdOf repr a then rowsIn k.record else []) =
      (ks.filter fun k => raceIdOf repr k.record = raceIdOf repr a).flatMap fun k => rowsIn k.record := by
    intro ks
    induction ks with
    | nil => simp
    | cons k ks ih => by_cases hrace : raceIdOf repr k.record = raceIdOf repr a <;> simp [hrace, ih]
  rw [hfilter, chosen_of_race ha]
  simp [keyed]

/-! ## The order of the records -/

/-- Where the rows of records are built, they are the same for every order of the records on which they are built exactly when
the latest eligible records of each race have the same rows, as far as they have rows. -/
theorem rows_order_free_iff (mktime : Datetime → Except PyError ℚ) (repr : Doc → String) (records : List Doc)
    (rows : List (Dict Doc)) (summary : Summary) (h : buildRows mktime repr records = .ok (rows, summary)) :
    (∀ records' rows' summary', records.Perm records' → buildRows mktime repr records' = .ok (rows', summary') → rows' = rows) ↔
      TiesAgree mktime repr records := by
  obtain ⟨hbuilt, rfl⟩ := built_of_ok h
  constructor
  · intro hsame a b ha hb hrace arows brows harows hbrows
    have hfront : ∀ {r : Doc} {rs : List (Dict Doc)}, IsLatest mktime repr records r → riderRows r = .ok rs →
        rs = ((chosen mktime repr records).flatMap fun k => rowsIn k.record).filter fun row => raceOfRow repr row = raceIdOf repr r := by
      intro r rs hr hrs
      have hbuilt' := built_front hbuilt hr hrs
      obtain ⟨summary', hok⟩ := hbuilt'.returns
      have hperm : records.Perm (r :: records.erase r) := List.perm_cons_erase (mem_candidates.1 hr.1).1
      rw [← hsame _ _ _ hperm hok, rows_of_race hbuilt' (List.mem_map_of_mem (f := Prod.snd) (Dict.mem_of_get? (kept_self hr)))]
      exact rowsIn_of_ok hrs
    rw [hfront ha harows, hfront hb hbrows, hrace]
  · intro hties records' rows' summary' hperm hok
    obtain ⟨hbuilt', rfl⟩ := built_of_ok hok
    exact rows_perm hties hperm hbuilt hbuilt'

/-! ## Two records of one time -/

/-- A machine without a time zone. -/
def noLocalTime (_ : Datetime) : Except PyError ℚ := .error (.valueError "year is out of range")

/-- A record of four riders with an outcome; the riders have one race score. -/
def sample (raceId time : String) (score : ℤ) : Doc :=
  .obj [("race_id", .str raceId), ("prediction_timestamp", .str time), ("outcome_combo", .str "1-2-3"),
    ("metadata", .obj [("evaluation_scope", .str "prospective"), ("temporal_order", .str "prediction_before_result"),
      ("training_eligibility", .obj [("supervised_training", .bool true)])]),
    ("training_input", .obj [("schema_version", .str trainingSchema), ("evaluation_scope", .str "prospective"),
      ("players", .arr ([1, 2, 3, 4].map fun car => .obj [("car_number", .num (.int car)), ("race_score", .num (.int score))]))])]

/-- Two records of a race with one time and different scores. -/
def tied : List Doc := [sample "R1" "2026-01-01T10:00:00+09:00" 80, sample "R1" "2026-01-01T10:00:00+09:00" 90]

/-- The race scores in the rows of records. -/
def scores (records : List Doc) : Option (List Doc) :=
  (buildRows noLocalTime (fun _ => "") records).toOption.map fun r => r.1.map fun row => Dict.getD row "race_score" .null

theorem scores_of_ok {rows : List (Dict Doc)} {summary : Summary}
    (h : buildRows noLocalTime (fun _ => "") records = .ok (rows, summary)) :
    scores records = some (rows.map fun row => Dict.getD row "race_score" .null) := by
  rw [scores, h]
  rfl

/-- The record that comes first gives the rows. -/
theorem scores_tied : scores tied = some (List.replicate 4 (.num (.ofRat 80))) ∧
    scores tied.reverse = some (List.replicate 4 (.num (.ofRat 90))) := by
  decide +kernel

theorem built_of_scores {values : List Doc} (h : scores records = some values) :
    ∃ rows summary, buildRows noLocalTime (fun _ => "") records = .ok (rows, summary) := by
  unfold scores at h
  cases hbuild : buildRows noLocalTime (fun _ => "") records with
  | ok built => exact ⟨built.1, built.2, rfl⟩
  | error exc =>
    rw [hbuild] at h
    nomatch h

/-- Rows depend on the order of the records. -/
theorem tie_broken_by_order : ¬∀ (mktime : Datetime → Except PyError ℚ) (repr : Doc → String) (records records' : List Doc)
    (rows rows' : List (Dict Doc)) (summary summary' : Summary), records.Perm records' →
    buildRows mktime repr records = .ok (rows, summary) → buildRows mktime repr records' = .ok (rows', summary') → rows' = rows := by
  intro h
  obtain ⟨rows, summary, hbuild⟩ := built_of_scores scores_tied.1
  obtain ⟨rows', summary', hbuild'⟩ := built_of_scores scores_tied.2
  have hsame := h _ _ _ _ _ _ _ _ (List.reverse_perm tied).symm hbuild hbuild'
  have hscores : scores tied.reverse = scores tied := by rw [scores_of_ok hbuild', scores_of_ok hbuild, hsame]
  rw [scores_tied.1, scores_tied.2] at hscores
  exact absurd hscores (by decide +kernel)

theorem rows_order_free_sample : (∃ rows summary, buildRows noLocalTime (fun _ => "") tied = .ok (rows, summary)) ∧
    ¬TiesAgree noLocalTime (fun _ => "") tied := by
  obtain ⟨rows, summary, hbuild⟩ := built_of_scores scores_tied.1
  obtain ⟨rows', summary', hbuild'⟩ := built_of_scores scores_tied.2
  refine ⟨⟨rows, summary, hbuild⟩, fun hties => ?_⟩
  have hsame := (rows_order_free_iff noLocalTime (fun _ => "") tied rows summary hbuild).2 hties _ _ _
    (List.reverse_perm tied).symm hbuild'
  have hscores : scores tied.reverse = scores tied := by rw [scores_of_ok hbuild', scores_of_ok hbuild, hsame]
  rw [scores_tied.1, scores_tied.2] at hscores
  exact absurd hscores (by decide +kernel)

end Keirin.TrainingRows

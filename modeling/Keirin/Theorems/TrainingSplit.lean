import Keirin.Theorems.TrainingOrder

/-!
# The division into training and validation races

The races of the CSV are ordered by their timestamps as texts. They are in the order of time, and every division of them is
chronological, exactly when the timestamps of the selected records stand in the same order as texts and as instants.
-/

namespace Keirin.TrainingRows

open Dataset

variable {mktime : Datetime → Except PyError ℚ} {repr : Doc → String} {records : List Doc}

/-! ## Instants -/

/-- The instant a timestamp with an offset names, in microseconds. -/
def instantOf (text : String) : Option ℤ := (Datetime.fromisoformat (zuluOffset text)).map Datetime.epochMicros

/-- The instant of the prediction of a race. -/
def Race.instant (race : Race) : Option ℤ := instantOf race.timestamp

/-- Whether a race was predicted at or before another. -/
def NotAfter (a b : Race) : Prop := ∀ x ∈ a.instant, ∀ y ∈ b.instant, x ≤ y

/-- Whether a record has a timestamp with an offset. -/
def Aware (record : Doc) : Prop :=
  ∃ text dt, record.field "prediction_timestamp" = .str text ∧ Datetime.fromisoformat (zuluOffset text) = some dt ∧
    dt.utcoffset.isSome

/-- The record kept of a race: the first of its latest eligible records. -/
def keptRecord (mktime : Datetime → Except PyError ℚ) (repr : Doc → String) (records : List Doc) (race : String) : Option Doc :=
  ((candidates repr records).filter fun r => raceIdOf repr r = race).argmax (timeOf mktime)

/-- Whether the timestamps of the kept records stand in the same order as texts and as instants. -/
def TextsInOrder (mktime : Datetime → Except PyError ℚ) (repr : Doc → String) (records : List Doc) : Prop :=
  ∀ k l a b s t, keptRecord mktime repr records k = some a → keptRecord mktime repr records l = some b →
    a.field "prediction_timestamp" = .str s → b.field "prediction_timestamp" = .str t → s < t →
      ∀ x ∈ instantOf s, ∀ y ∈ instantOf t, x ≤ y

theorem mem_kept_iff {a : Doc} : a ∈ (kept mktime repr records).map Prod.snd ↔ ∃ k, keptRecord mktime repr records k = some a := by
  constructor
  · intro ha
    exact ⟨raceIdOf repr a, (Latest.get?_latest _ _).symm.trans (Latest.get?_of_mem ha)⟩
  · rintro ⟨k, hk⟩
    exact List.mem_map_of_mem (f := Prod.snd) (Dict.mem_of_get? ((Latest.get?_latest k _).trans hk))

/-! ## The races of the CSV -/

/-- A row as it is read back. -/
def csvRow (repr : Doc → String) (row : Dict Doc) : Dict String :=
  rowNames.map fun name => (name, csvText repr (Dict.getD row name (.str "")))

theorem writeCsv_eq {rows : List (Dict Doc)} (h : ∀ row ∈ rows, row.map Prod.fst = rowNames) :
    writeCsv repr rows = .ok (rows.map (csvRow repr)) := by
  cases rows with
  | nil => rfl
  | cons first rows =>
    refine mapM_eq_map (csvRow repr) fun row hrow => ?_
    have hnames : ¬∃ key ∈ row.map Prod.fst, key ∉ rowNames := by
      rw [h row hrow]
      exact fun ⟨key, hkey, hnot⟩ => hnot hkey
    rw [h first List.mem_cons_self]
    exact raiseIf_bind_ok.2 ⟨hnames, rfl⟩

theorem getD_csvRow {row : Dict Doc} (hnames : row.map Prod.fst = rowNames) {name : String} (hname : name ∈ rowNames) :
    Dict.getD (csvRow repr row) name "" = csvText repr (Dict.getD row name .null) := by
  have hget : ∀ names : List String, name ∈ names →
      Dict.get? name (names.map fun n => (n, csvText repr (Dict.getD row n (.str "")))) =
        some (csvText repr (Dict.getD row name (.str ""))) := by
    intro names hmem
    induction names with
    | nil => nomatch hmem
    | cons n names ih =>
      by_cases hn : n = name
      · simp [Dict.get?, hn]
      · simp only [List.map_cons, Dict.get?, hn, if_false]
        exact ih ((List.mem_cons.1 hmem).resolve_left (Ne.symm hn))
  obtain ⟨v, hv⟩ := Option.isSome_iff_exists.1 (Dict.get?_isSome_iff.2 (hnames ▸ hname))
  rw [Dict.getD, csvRow, hget rowNames hname]
  simp [Dict.getD, hv]

/-- A record with a race has the race in its rows. -/
theorem rowRace_csvRow {a : Doc} {row : Dict Doc} (hrow : RowFor a row) (hrace : raceIdOf repr a ≠ "") :
    rowRace (csvRow repr row) = raceIdOf repr a := by
  have htruthy : (a.field "race_id").truthy = true := by
    by_contra hfalse
    refine hrace ?_
    rw [raceIdOf, raceText, Doc.orElse, if_neg hfalse]
    rfl
  have htext : csvText repr (a.field "race_id") = raceText repr a := by
    rw [raceText, Doc.orElse, if_pos htruthy]
    cases hfield : a.field "race_id" with
    | null => rw [hfield] at htruthy; cases htruthy
    | _ => rfl
  rw [rowRace, getD_csvRow hrow.names (by decide), hrow.race, htext]
  rfl

/-- The race of a kept record. -/
def raceFor (repr : Doc → String) (a : Doc) : Race := (raceIdOf repr a, (rowsIn a).map (csvRow repr))

theorem timestamp_raceFor {a : Doc} {text : String} (hrows : riderRows a = .ok (rowsIn a))
    (htext : a.field "prediction_timestamp" = .str text) : (raceFor repr a).timestamp = text := by
  obtain ⟨hne, hfor⟩ := rowsFor hrows
  obtain ⟨row, rest, hcons⟩ := List.exists_cons_of_ne_nil hne
  have hrow := hfor row (hcons ▸ List.mem_cons_self)
  simp only [raceFor, Race.timestamp, hcons, List.map_cons, List.head?_cons, Option.map_some, Option.getD_some]
  rw [getD_csvRow hrow.names (by decide), hrow.time, htext]
  rfl

/-- The races of the CSV are those of the kept records. -/
theorem mem_group_iff (hbuilt : Built mktime repr records) {race : Race} :
    race ∈ Grouped.group rowRace (((chosen mktime repr records).flatMap fun k => rowsIn k.record).map (csvRow repr)) ↔
      ∃ a ∈ (kept mktime repr records).map Prod.snd, race = raceFor repr a := by
  set rows := (chosen mktime repr records).flatMap fun k => rowsIn k.record with hrows
  have hrace : ∀ row ∈ rows, rowRace (csvRow repr row) = raceOfRow repr row ∧
      ∃ a ∈ (kept mktime repr records).map Prod.snd, raceOfRow repr row = raceIdOf repr a := by
    intro row hrow
    obtain ⟨k, hk, hrow⟩ := List.mem_flatMap.1 hrow
    have hmem := (record_of_chosen hk).1
    have hid : raceIdOf repr k.record ≠ "" :=
      (mem_candidates.1 (Latest.isLatest_of_get? (Latest.get?_of_mem hmem)).1.1).2.2
    have hok := hbuilt.rows k.record hmem
    exact ⟨(rowRace_csvRow ((rowsFor hok).2 row hrow) hid).trans (raceOfRow_eq hok hrow).symm, k.record, hmem, raceOfRow_eq hok hrow⟩
  have hfilter : ∀ a ∈ (kept mktime repr records).map Prod.snd,
      ((rows.map (csvRow repr)).filter fun row => rowRace row = raceIdOf repr a) = (rowsIn a).map (csvRow repr) := by
    intro a ha
    rw [List.filter_map, ← rows_of_race hbuilt ha]
    refine congrArg (List.map (csvRow repr)) (List.filter_congr fun row hrow => ?_)
    rw [Function.comp_apply, (hrace row hrow).1]
  have hentry : race ∈ Grouped.group rowRace (rows.map (csvRow repr)) ↔
      (∃ row ∈ rows, rowRace (csvRow repr row) = race.1) ∧
        race.2 = (rows.map (csvRow repr)).filter fun row => rowRace row = race.1 := by
    rw [← Grouped.getD_group]
    constructor
    · intro h
      have hget := Dict.get?_of_mem (Grouped.nodup_keys _) h
      refine ⟨?_, by rw [Dict.getD, hget]; rfl⟩
      obtain ⟨row, hrow, hk⟩ := Grouped.mem_keys.1 (List.mem_map_of_mem (f := Prod.fst) h)
      obtain ⟨r, hr, rfl⟩ := List.mem_map.1 hrow
      exact ⟨r, hr, hk⟩
    · rintro ⟨⟨row, hrow, hk⟩, hvalue⟩
      have hkey : race.1 ∈ (Grouped.group rowRace (rows.map (csvRow repr))).map Prod.fst :=
        Grouped.mem_keys.2 ⟨csvRow repr row, List.mem_map_of_mem hrow, hk⟩
      obtain ⟨g, hg⟩ := Option.isSome_iff_exists.1 (Dict.get?_isSome_iff.2 hkey)
      have hmem := Dict.mem_of_get? hg
      rw [Dict.getD, hg, Option.getD_some] at hvalue
      rw [← hvalue] at hmem
      exact hmem
  rw [hentry]
  constructor
  · rintro ⟨⟨row, hrow, hk⟩, hvalue⟩
    obtain ⟨hsame, a, ha, hid⟩ := hrace row hrow
    have hrid : race.1 = raceIdOf repr a := hk.symm.trans (hsame.trans hid)
    refine ⟨a, ha, Prod.ext hrid ?_⟩
    rw [hvalue, hrid]
    exact hfilter a ha
  · rintro ⟨a, ha, rfl⟩
    refine ⟨?_, (hfilter a ha).symm⟩
    obtain ⟨hne, hfor⟩ := rowsFor (hbuilt.rows a ha)
    obtain ⟨row, hrow⟩ := List.exists_mem_of_ne_nil _ hne
    have hmem : row ∈ rows := (List.mem_filter.1 (rows_of_race hbuilt ha ▸ hrow)).1
    exact ⟨row, hmem, (hrace row hmem).1.trans (raceOfRow_eq (hbuilt.rows a ha) hrow)⟩

/-! ## The division -/

/-- The races `groupedRaces` returns are those of the rows, in the order of their timestamps as texts. -/
theorem groupedRaces_ok {rows : List (Dict String)} {races : List Race} (h : groupedRaces rows = .ok races) :
    races = (Grouped.group rowRace rows).insertionSort writtenEarlier := by
  obtain ⟨-, h⟩ := raiseIf_bind_ok.1 h
  obtain ⟨-, -, h⟩ := bind_ok.1 h
  exact (Except.ok.inj h).symm

theorem groupedRaces_sorted {rows : List (Dict String)} {races : List Race} (h : groupedRaces rows = .ok races) :
    races.Pairwise writtenEarlier := by
  have htotal : Std.Total writtenEarlier := inferInstanceAs (Std.Total (Sorted.Lex Race.timestamp Prod.fst))
  have htrans : IsTrans Race writtenEarlier := inferInstanceAs (IsTrans Race (Sorted.Lex Race.timestamp Prod.fst))
  rw [groupedRaces_ok h]
  exact List.pairwise_insertionSort _ _

/-- A division is one of the races in their order. -/
theorem train_ok {rows : List (Dict String)} {races training validation : List Race} {minRaces : ℤ} {fraction : ℚ}
    (hraces : groupedRaces rows = .ok races) (h : train rows minRaces fraction = .ok (some (training, validation))) :
    training ++ validation = races := by
  obtain ⟨-, -, h⟩ := bind_ok.1 h
  obtain ⟨races', hraces', h⟩ := bind_ok.1 h
  cases hraces.symm.trans hraces'
  split_ifs at h
  · cases h
  · obtain ⟨-, h⟩ := raiseIf_bind_ok.1 h
    cases h
    exact List.take_append_drop _ _

/-- Whether the races are in the order of time, and every division of them with them. -/
structure Chronological (rows : List (Dict String)) (races : List Race) : Prop where
  dated : ∀ race ∈ races, race.instant.isSome
  ordered : races.Pairwise NotAfter
  divided : ∀ minRaces fraction training validation, train rows minRaces fraction = .ok (some (training, validation)) →
    ∀ a ∈ training, ∀ b ∈ validation, NotAfter a b

/-- Where the rows of records with timestamps with offsets are written, read back and gathered by race, the races and every
division of them are chronological exactly when the timestamps of the kept records stand in the same order as texts and as
instants. -/
theorem split_chronological_iff (mktime : Datetime → Except PyError ℚ) (repr : Doc → String) (records : List Doc)
    (haware : ∀ r ∈ candidates repr records, Aware r) (rows : List (Dict Doc)) (summary : Summary)
    (h : buildRows mktime repr records = .ok (rows, summary)) (csv : List (Dict String)) (hcsv : writeCsv repr rows = .ok csv)
    (races : List Race) (hraces : groupedRaces csv = .ok races) :
    Chronological csv races ↔ TextsInOrder mktime repr records := by
  obtain ⟨hbuilt, rfl⟩ := built_of_ok h
  have hnames : ∀ row ∈ (chosen mktime repr records).flatMap fun k => rowsIn k.record, row.map Prod.fst = rowNames := by
    intro row hrow
    obtain ⟨k, hk, hrow⟩ := List.mem_flatMap.1 hrow
    exact ((rowsFor (hbuilt.rows k.record (record_of_chosen hk).1)).2 row hrow).names
  cases (writeCsv_eq hnames).symm.trans hcsv
  have hmem : ∀ race, race ∈ races ↔ ∃ a ∈ (kept mktime repr records).map Prod.snd, race = raceFor repr a := by
    intro race
    rw [groupedRaces_ok hraces, List.mem_insertionSort]
    exact mem_group_iff hbuilt
  have hdated : ∀ a ∈ (kept mktime repr records).map Prod.snd, ∃ text dt, a.field "prediction_timestamp" = .str text ∧
      (raceFor repr a).timestamp = text ∧ instantOf text = some (Datetime.epochMicros dt) := by
    intro a ha
    obtain ⟨text, dt, htext, hread, -⟩ := haware a (Latest.isLatest_of_get? (Latest.get?_of_mem ha)).1.1
    exact ⟨text, dt, htext, timestamp_raceFor (hbuilt.rows a ha) htext, by rw [instantOf, hread]; rfl⟩
  constructor
  · intro hchrono k l a b s t hk hl hs ht hst
    have ha := mem_kept_iff.2 ⟨k, hk⟩
    have hb := mem_kept_iff.2 ⟨l, hl⟩
    have htimes : (raceFor repr a).timestamp = s ∧ (raceFor repr b).timestamp = t :=
      ⟨timestamp_raceFor (hbuilt.rows a ha) hs, timestamp_raceFor (hbuilt.rows b hb) ht⟩
    -- of two different races one stands before the other, and the first is the one with the smaller text
    have hpair : races.Pairwise fun x y => NotAfter x y ∧ writtenEarlier x y := hchrono.ordered.and (groupedRaces_sorted hraces)
    have hne : raceFor repr a ≠ raceFor repr b := by
      intro heq
      rw [← htimes.1, ← htimes.2, heq] at hst
      exact lt_irrefl _ hst
    rcases Sorted.either_before hpair ((hmem _).2 ⟨a, ha, rfl⟩) ((hmem _).2 ⟨b, hb, rfl⟩) hne with hab | hba
    · unfold NotAfter Race.instant at hab
      rw [htimes.1, htimes.2] at hab
      exact hab.1
    · rcases hba.2 with hlt | ⟨heq, -⟩
      · rw [htimes.1, htimes.2] at hlt
        exact absurd hlt (lt_asymm hst)
      · rw [htimes.1, htimes.2] at heq
        exact absurd heq hst.ne'
  · intro htexts
    have hordered : races.Pairwise NotAfter := by
      refine (groupedRaces_sorted hraces).imp_of_mem fun {x y} hx hy hxy => ?_
      obtain ⟨a, ha, rfl⟩ := (hmem x).1 hx
      obtain ⟨b, hb, rfl⟩ := (hmem y).1 hy
      obtain ⟨s, ds, hs, hsa, hsi⟩ := hdated a ha
      obtain ⟨t, dt, ht, htb, hti⟩ := hdated b hb
      unfold NotAfter Race.instant
      rw [hsa, htb]
      rcases hxy with hlt | ⟨heq, -⟩
      · obtain ⟨k, hk⟩ := mem_kept_iff.1 ha
        obtain ⟨l, hl⟩ := mem_kept_iff.1 hb
        exact htexts k l a b s t hk hl hs ht (hsa ▸ htb ▸ hlt)
      · have hst : s = t := hsa ▸ htb ▸ heq
        rw [hst]
        exact fun i hi j hj => (Option.mem_unique hi hj).le
    refine ⟨fun race hrace => ?_, hordered, fun minRaces fraction training validation htrain => ?_⟩
    · obtain ⟨a, ha, rfl⟩ := (hmem race).1 hrace
      obtain ⟨text, dt, -, htext, hinstant⟩ := hdated a ha
      rw [Race.instant, htext, hinstant]
      rfl
    · rw [← train_ok hraces htrain, List.pairwise_append] at hordered
      exact hordered.2.2

/-! ## Timestamps with different offsets -/

/-- Four races at one o'clock in universal time, and one an hour before, written with the offset of Japan. -/
def offsets : List Doc :=
  (["R1", "R2", "R3", "R4"].map fun race => sample race "2026-01-01T01:00:00+00:00" 80) ++
    [sample "R5" "2026-01-01T09:00:00+09:00" 80]

/-- The instants of the races `train` divides records into. -/
def divided (records : List Doc) (minRaces : ℤ) (fraction : ℚ) : Option (List (Option ℤ) × List (Option ℤ)) := do
  let (rows, _) ← (buildRows noLocalTime (fun _ => "") records).toOption
  let csv ← (writeCsv (fun _ => "") rows).toOption
  let (training, validation) ← (train csv minRaces fraction).toOption.join
  return (training.map Race.instant, validation.map Race.instant)

theorem divided_eq_some {minRaces : ℤ} {fraction : ℚ} {instants : List (Option ℤ) × List (Option ℤ)}
    (h : divided records minRaces fraction = some instants) : ∃ rows summary csv training validation,
      buildRows noLocalTime (fun _ => "") records = .ok (rows, summary) ∧ writeCsv (fun _ => "") rows = .ok csv ∧
        train csv minRaces fraction = .ok (some (training, validation)) ∧
          instants = (training.map Race.instant, validation.map Race.instant) := by
  unfold divided at h
  cases hbuild : buildRows noLocalTime (fun _ => "") records with
  | error exc => rw [hbuild] at h; cases h
  | ok built =>
    rw [hbuild] at h
    simp only [Except.toOption, bind, Option.bind] at h
    cases hcsv : writeCsv (fun _ => "") built.1 with
    | error exc => rw [hcsv] at h; cases h
    | ok csv =>
      rw [hcsv] at h
      simp only [] at h
      cases htrain : train csv minRaces fraction with
      | error exc => rw [htrain] at h; cases h
      | ok parts =>
        rw [htrain] at h
        cases parts with
        | none => cases h
        | some parts => exact ⟨built.1, built.2, csv, parts.1, parts.2, rfl, hcsv, htrain, (Option.some.inj h).symm⟩

/-- The race of the earlier instant is validated on, those an hour later are trained on. -/
theorem divided_offsets : divided offsets 5 (1 / 5) =
    some (List.replicate 4 (some 1767229200000000), [some 1767225600000000]) := by
  decide +kernel

theorem aware_offsets : ∀ r ∈ candidates (fun _ => "") offsets, Aware r := by
  intro r hr
  have hr := (mem_candidates.1 hr).1
  have hread : ∀ text ∈ ["2026-01-01T01:00:00+00:00", "2026-01-01T09:00:00+09:00"],
      ((Datetime.fromisoformat (zuluOffset text)).any fun dt => dt.utcoffset.isSome) = true := by decide +kernel
  have hfield : ∃ text ∈ ["2026-01-01T01:00:00+00:00", "2026-01-01T09:00:00+09:00"],
      r.field "prediction_timestamp" = .str text := by
    rcases List.mem_append.1 hr with hr | hr
    · obtain ⟨race, -, rfl⟩ := List.mem_map.1 hr
      exact ⟨_, List.mem_cons_self, rfl⟩
    · cases List.mem_singleton.1 hr
      exact ⟨_, List.mem_cons_of_mem _ List.mem_cons_self, rfl⟩
  obtain ⟨text, hmem, htext⟩ := hfield
  obtain ⟨dt, hdt, hsome⟩ := (Option.any_eq_true _ _).1 (hread text hmem)
  exact ⟨text, dt, htext, hdt, hsome⟩

/-- A race is trained on that comes after one validated on. -/
theorem offsets_divided : ∃ rows summary csv training validation,
    buildRows noLocalTime (fun _ => "") offsets = .ok (rows, summary) ∧ writeCsv (fun _ => "") rows = .ok csv ∧
      train csv 5 (1 / 5) = .ok (some (training, validation)) ∧ ∃ a ∈ training, ∃ b ∈ validation, ¬NotAfter a b := by
  obtain ⟨rows, summary, csv, training, validation, hbuild, hcsv, htrain, hinstants⟩ := divided_eq_some divided_offsets
  obtain ⟨htraining, hvalidation⟩ := Prod.mk.inj hinstants
  have hlate : some 1767229200000000 ∈ training.map Race.instant := htraining ▸ List.mem_cons_self
  have hearly : some 1767225600000000 ∈ validation.map Race.instant := hvalidation ▸ List.mem_cons_self
  obtain ⟨a, ha, hainstant⟩ := List.mem_map.1 hlate
  obtain ⟨b, hb, hbinstant⟩ := List.mem_map.1 hearly
  refine ⟨rows, summary, csv, training, validation, hbuild, hcsv, htrain, a, ha, b, hb, fun hafter => ?_⟩
  exact absurd (hafter _ hainstant _ hbinstant) (by decide)

/-- Races may be trained on that come after those validated on. -/
theorem division_not_chronological : ¬∀ (mktime : Datetime → Except PyError ℚ) (repr : Doc → String) (records : List Doc)
    (rows : List (Dict Doc)) (summary : Summary) (csv : List (Dict String)) (minRaces : ℤ) (fraction : ℚ)
    (training validation : List Race), (∀ r ∈ records, supervisedEligibility r = .ok none) →
    (∀ r ∈ candidates repr records, Aware r) → buildRows mktime repr records = .ok (rows, summary) →
    writeCsv repr rows = .ok csv → train csv minRaces fraction = .ok (some (training, validation)) →
    ∀ a ∈ training, ∀ b ∈ validation, NotAfter a b := by
  intro h
  obtain ⟨rows, summary, csv, training, validation, hbuild, hcsv, htrain, a, ha, b, hb, hlate⟩ := offsets_divided
  exact hlate (h _ _ offsets _ _ _ _ _ _ _ (by decide +kernel) aware_offsets hbuild hcsv htrain a ha b hb)

theorem split_chronological_sample : ¬TextsInOrder noLocalTime (fun _ => "") offsets := by
  intro htexts
  obtain ⟨rows, summary, csv, training, validation, hbuild, hcsv, htrain, a, ha, b, hb, hlate⟩ := offsets_divided
  obtain ⟨races, hraces⟩ : ∃ races, groupedRaces csv = .ok races := by
    obtain ⟨-, -, hrest⟩ := bind_ok.1 htrain
    obtain ⟨races, hraces, -⟩ := bind_ok.1 hrest
    exact ⟨races, hraces⟩
  have hchrono := (split_chronological_iff noLocalTime (fun _ => "") offsets aware_offsets rows summary hbuild csv hcsv races
    hraces).2 htexts
  exact hlate (hchrono.divided _ _ _ _ htrain a ha b hb)

end Keirin.TrainingRows

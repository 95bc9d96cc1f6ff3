import Keirin.Lemmas.HistoricalForm

/-!
# When recent form does not look ahead

The records are grouped by race before it is asked when a result became available. A record that came too late therefore has
no say of its own, but it puts a race in conflict of which other records are there; the features stay the same exactly when
that race did not count for any of the entrants.
-/

namespace Keirin.HistoricalForm

/-- The result of the record became available at or after the time of the target's features. -/
def Late (target record : Doc) : Prop :=
  ∃ available cutoff, timestamp (record.field "result_available_at") = .ok available ∧
    timestamp (target.field "feature_as_of") = .ok cutoff ∧ cutoff ≤ available

/-- The race of the record counts by the other records: they are equal, the first of them passes the checks, and an entrant of
the target started in it. -/
def Displaces (target windowDays : Doc) (history : List Doc) (record : Doc) : Prop :=
  ∃ w entrants days, readTarget target (.arr history) windowDays = .ok (w, entrants, history, days) ∧
    ∃ key own, raceOf record = some (key, own) ∧
      ∃ first rest, recordsOf key history = first :: rest ∧ (∀ r ∈ rest, Doc.pyEq (.obj r) (.obj first) = true) ∧
        ∃ u, examine w [] key first = .ok u ∧ ∃ e ∈ entrants, (observe e.identity u).isSome = true

/-- The rows of the entrants in two reports are the same. -/
def SameRiders (with_ without : Doc) : Prop := with_.get? "riders" = without.get? "riders"

/-- A report that could be made can be made with one more record, and its rows are those of the races without the record's own. -/
theorem rows_with_late {target windowDays : Doc} {before after : List Doc} {record : Doc} {w : Window} {entrants : List Rider}
    {days : ℤ} {sha : String} {key : String} {own : Dict Doc}
    (htarget : readTarget target (.arr (before ++ after)) windowDays = .ok (w, entrants, before ++ after, days))
    (hsha : digest target = .ok sha) (hrace : raceOf record = some (key, own)) (hlate : Late target record) :
    ∃ report, build target (.arr (before ++ record :: after)) windowDays = .ok report ∧ report.get? "riders" =
      some (.arr (entrants.map (formRow (((usables w (group (before ++ after)).conflicts
        (group (before ++ after)).seen).insertionSort earlier).filter fun u => u.key ≠ key)))) := by
  obtain ⟨report, hreport, hrows⟩ := build_of_target (readTarget_history (before ++ record :: after) htarget).2 hsha
  refine ⟨report, hreport, ?_⟩
  obtain ⟨available, cutoff, ht, hcutoff, hle⟩ := hlate
  obtain rfl : cutoff = w.cutoff := Except.ok.inj (hcutoff.symm.trans (readTarget_ok htarget).2)
  obtain ⟨hobj, -⟩ := raceOf_eq_some hrace
  have hnone := not_counts_of_late before after hrace (by rw [hobj] at ht; exact ht) hle
  have hown : ∀ r, raceOf record = some r → r.1 = key := by
    intro r hr
    cases hrace.symm.trans hr
    rfl
  have hagree := usables_agree (w := w) (agree_insert hown before after)
  rw [hrows, ← sort_filter _ (nodup_usables (group_nodup _)), hagree, List.filter_eq_self.2]
  intro u hu
  simpa using hnone u hu

/-- For any target, window and history of which a report can be made, and any record whose result became available at or after
the cutoff, at any place in the history: the report with the record has the same rows as the report without it if and only if the
record's race did not count by the other records. -/
theorem late_record_harmless_iff {target windowDays report : Doc} {before after : List Doc} {record : Doc}
    (hbuild : build target (.arr (before ++ after)) windowDays = .ok report) (hlate : Late target record) :
    (∃ report', build target (.arr (before ++ record :: after)) windowDays = .ok report' ∧ SameRiders report' report) ↔
      ¬Displaces target windowDays (before ++ after) record := by
  obtain ⟨w, entrants, records, days, sha, htarget, hsha⟩ := build_ok hbuild
  obtain rfl := (readTarget_history [] htarget).1
  obtain ⟨report₀, hreport₀, hrows₀⟩ := build_of_target htarget hsha
  obtain rfl : report₀ = report := Except.ok.inj (hreport₀.symm.trans hbuild)
  have hdisplaces : Displaces target windowDays (before ++ after) record ↔
      ∃ key own, raceOf record = some (key, own) ∧ ∃ u ∈ usables w (group (before ++ after)).conflicts (group (before ++ after)).seen,
        u.key = key ∧ ∃ e ∈ entrants, (observe e.identity u).isSome = true := by
    constructor
    · rintro ⟨w', entrants', days', htarget', key, own, hrace, hcounts⟩
      cases htarget'.symm.trans htarget
      exact ⟨key, own, hrace, counts_iff.2 hcounts⟩
    · rintro ⟨key, own, hrace, hcounts⟩
      exact ⟨w, entrants, days, htarget, key, own, hrace, counts_iff.1 hcounts⟩
  rw [hdisplaces]
  cases hrace : raceOf record with
  | none =>
    obtain ⟨report', hreport', hrows'⟩ := build_of_target (readTarget_history (before ++ record :: after) htarget).2 hsha
    have hgroup : (group (before ++ record :: after)).seen = (group (before ++ after)).seen ∧
        (group (before ++ record :: after)).conflicts = (group (before ++ after)).conflicts := by
      simp only [group, List.foldl_append, List.foldl_cons]
      exact foldl_excluded _ (by simp [groupRecord, hrace]) (by simp [groupRecord, hrace]) after
    simp only [reduceCtorEq, false_and, exists_const, not_false_iff, iff_true]
    exact ⟨report', hreport', by rw [SameRiders, hrows', hrows₀, hgroup.1, hgroup.2]⟩
  | some r =>
    obtain ⟨key, own⟩ := r
    obtain ⟨report', hreport', hrows'⟩ := rows_with_late htarget hsha hrace hlate
    have hiff : (∃ report', build target (.arr (before ++ record :: after)) windowDays = .ok report' ∧ SameRiders report' report₀) ↔
        SameRiders report' report₀ := by
      constructor
      · rintro ⟨r, hr, hsame⟩
        obtain rfl : r = report' := Except.ok.inj (hr.symm.trans hreport')
        exact hsame
      · exact fun hsame => ⟨report', hreport', hsame⟩
    rw [hiff, SameRiders, hrows', hrows₀, Option.some.injEq, Json.arr.injEq, rows_eq_iff]
    simp only [List.mem_insertionSort, Option.some.injEq, Prod.mk.injEq]
    constructor
    · rintro hnone ⟨k, o, ⟨rfl, -⟩, hcounts⟩
      exact hnone hcounts
    · intro hnone hcounts
      exact hnone ⟨key, own, ⟨rfl, rfl⟩, hcounts⟩

/-! ## A race published twice -/

def sampleRider (car : ℤ) (identity : String) (result : Dict Doc) : Doc :=
  .obj ([("car_number", .num (.int car)), ("rider_id", .str identity)] ++ result)

def sampleTarget : Doc :=
  .obj [("race_id", .str "target"), ("feature_as_of", .str "2020-02-01T10:00:00+09:00"),
    ("listed_scheduled_start_jst", .str "2020-02-01T10:10:00+09:00"), ("identity_evidence", .str "roster"),
    ("entry_time_evidence", .str "archive"),
    ("riders", .arr [sampleRider 1 "jka:a" [], sampleRider 2 "jka:b" [], sampleRider 3 "jka:c" []])]

/-- A race of the month before, with the time its result became available. -/
def samplePast (available : String) : Doc :=
  let finished (rank : ℤ) : Dict Doc := [("status", .str "FINISHED"), ("finish_rank", .num (.int rank))]
  .obj [("race_id", .str "past"), ("race_status", .str "completed"), ("race_start_at", .str "2020-01-01T10:00:00+09:00"),
    ("result_available_at", .str available), ("identity_evidence", .str "a"), ("result_time_evidence", .str "b"),
    ("source_use_evidence", .str "c"), ("participants", .arr [sampleRider 1 "jka:a" (finished 1), sampleRider 2 "jka:b" (finished 2),
      sampleRider 3 "jka:c" (finished 3)])]

def sampleDays : Doc := .num (.int 120)

theorem sample_late : Late sampleTarget (samplePast "2020-02-01T10:00:00+09:00") :=
  ⟨1580518800, 1580518800, by decide +kernel, by decide +kernel, le_refl _⟩

theorem late_record_harmless_sample :
    ∃ report, build sampleTarget (.arr ([samplePast "2020-01-01T11:00:00+09:00"] ++ [])) sampleDays = .ok report ∧
      ((∃ report', build sampleTarget (.arr ([samplePast "2020-01-01T11:00:00+09:00"] ++ [samplePast "2020-02-01T10:00:00+09:00"]))
          sampleDays = .ok report' ∧ SameRiders report' report) ↔
        ¬Displaces sampleTarget sampleDays ([samplePast "2020-01-01T11:00:00+09:00"] ++ [])
          (samplePast "2020-02-01T10:00:00+09:00")) := by
  have hok : (build sampleTarget (.arr ([samplePast "2020-01-01T11:00:00+09:00"] ++ [])) sampleDays).isOk = true := by
    decide +kernel
  cases h : build sampleTarget (.arr ([samplePast "2020-01-01T11:00:00+09:00"] ++ [])) sampleDays with
  | error e => rw [h] at hok; nomatch hok
  | ok report => exact ⟨report, rfl, late_record_harmless_iff h sample_late⟩

/-- The result of a past race was published, and corrected at the cutoff: with the second record the race no longer counts, and
every rider loses it. -/
theorem corrected_result_changes_features :
    (build sampleTarget (.arr [samplePast "2020-01-01T11:00:00+09:00"]) sampleDays).isOk = true ∧
      Late sampleTarget (samplePast "2020-02-01T10:00:00+09:00") ∧
      ((build sampleTarget (.arr [samplePast "2020-01-01T11:00:00+09:00", samplePast "2020-02-01T10:00:00+09:00"])
          sampleDays).toOption.bind (Json.get? · "riders") ≠
        (build sampleTarget (.arr [samplePast "2020-01-01T11:00:00+09:00"]) sampleDays).toOption.bind (Json.get? · "riders")) :=
  ⟨by decide +kernel, sample_late, by decide +kernel⟩

end Keirin.HistoricalForm

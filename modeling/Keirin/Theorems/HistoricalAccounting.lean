import Keirin.Lemmas.HistoricalTraining

/-!
# What the preparation of historical records accounts for

Every race is placed once or excluded once and every record without a race is counted once; what is placed keeps the order of
time between the partitions, was admitted by a review of the very record, and has no second record of other content. An input
the adapter accepts names each record by its own race, so that its records are all accounted for.
-/

namespace Keirin.HistoricalTraining

/-- The races of all partitions. -/
def Plan.placed (plan : Plan) : List Prepared := plan.train ++ plan.validation ++ plan.test

/-- The record a race was prepared from, with the time at which its result became available. -/
def PreparedFrom (records : List Doc) (p : Prepared) (record : Dict Doc) (result : ℚ) : Prop :=
  (recordsOf p.raceId records).head? = some record ∧ digest (.obj record) = .ok p.recordSha256 ∧
    timestamp (Dict.getD record "feature_as_of" .null) = .ok p.featureTime ∧
    timestamp (Dict.getD record "result_available_at" .null) = .ok result

/-- What holds of a plan. -/
structure Accounted (records reviews : List Doc) (validationStart testStart : ℚ) (plan : Plan) : Prop where
  once : (plan.placed.map Prepared.raceId ++ plan.excluded.filterMap Excluded.raceId).Perm (raceIds records)
  invalid : plan.excluded.countP (fun e => e.raceId.isNone) = records.countP (fun r => (raceOf r).isNone)
  total : plan.placed.length + plan.excluded.length = (raceIds records).length + records.countP (fun r => (raceOf r).isNone)
  train : ∀ p ∈ plan.train, ∃ record result, PreparedFrom records p record result ∧ result < validationStart
  validation : ∀ p ∈ plan.validation, validationStart ≤ p.featureTime ∧
    ∃ record result, PreparedFrom records p record result ∧ result < testStart
  test : ∀ p ∈ plan.test, testStart ≤ p.featureTime ∧ ∃ record result, PreparedFrom records p record result
  reviewed : ∀ p ∈ plan.placed, Json.obj p.review ∈ reviews ∧ Dict.getD p.review "race_id" .null = .str p.raceId ∧
    Dict.getD p.review "record_sha256" .null = .str p.recordSha256
  same : ∀ p ∈ plan.placed, ∀ first ∈ (recordsOf p.raceId records).head?, ∀ r ∈ (recordsOf p.raceId records).tail, SameContent first r

/-- The partition of a race by its times. -/
theorem place_spec {vb tb feature result : ℚ} (hvt : vb < tb) (h : ∀ b ∈ (place vb tb feature).2, result < b) :
    ((place vb tb feature).1 = .train → result < vb) ∧
      ((place vb tb feature).1 = .validation → vb ≤ feature ∧ result < tb) ∧
      ((place vb tb feature).1 = .test → tb ≤ feature) := by
  unfold place at h ⊢
  split
  · simp_all
  · split
    · simp_all
    · simp_all

/-- A plan accounts for its records. -/
theorem accounted {records reviews validationStart testStart : Doc} {plan : Plan}
    (h : prepare records reviews validationStart testStart = .ok plan) :
    ∃ rs vs vb tb, records = .arr rs ∧ reviews = .arr vs ∧ timestamp validationStart = .ok vb ∧ timestamp testStart = .ok tb ∧
      vb < tb ∧ Accounted rs vs vb tb plan := by
  unfold prepare at h
  obtain ⟨vb, hvb, h⟩ := bind_ok.1 h
  obtain ⟨tb, htb, h⟩ := bind_ok.1 h
  rw [raiseIf_bind_ok] at h
  obtain ⟨hvt, h⟩ := h
  obtain ⟨rs, hrs, h⟩ := bind_ok.1 h
  obtain ⟨vs, hvs, h⟩ := bind_ok.1 h
  obtain ⟨reviewed, hreviewed, h⟩ := bind_ok.1 h
  obtain ⟨⟨placed, excluded⟩, hdivide, h⟩ := bind_ok.1 h
  have hplan := Except.ok.inj h
  have hlist : ∀ {d : Doc} {xs : List Doc}, require d.elements? "records_and_reviews_must_be_arrays" = .ok xs → d = .arr xs := by
    intro d xs hd
    cases d with
    | arr ys => rw [Option.some.inj (require_ok.1 hd)]
    | _ => cases hd
  refine ⟨rs, vs, vb, tb, hlist hrs, hlist hvs, hvb, htb, not_le.1 hvt, ?_⟩
  obtain ⟨hperm, hsome, hlen, hplaced⟩ := divide_ok (fun key reasons p hp => by
    cases ho : Dict.get? key (originals rs) with
    | none => simp [ho] at hp
    | some record =>
      simp only [ho] at hp
      obtain ⟨name, q⟩ := p
      exact (prepareRace_ok hp).1) hdivide
  have hids : (audit rs).records.map Prod.fst = seenIds rs := by simp [audit, seenIds, Function.comp_def]
  have hall : plan.placed.Perm (placed.map Prod.snd) := by
    rw [← hplan]
    exact partitions_perm placed
  have hexcluded : plan.excluded = ((audit rs).invalidRecords.map fun reason => ⟨none, [reason]⟩) ++ excluded := by rw [← hplan]
  have hinvalid : (audit rs).invalidRecords.length = rs.countP fun r => (raceOf r).isNone := by
    rw [audit, group_invalid, List.length_map, List.countP_eq_length_filter]
  -- what is known of a race that was placed
  have hspec : ∀ name p, (name, p) ∈ placed → ∃ record result, PreparedFrom rs p record result ∧
      name = (place vb tb p.featureTime).1 ∧ (∀ b ∈ (place vb tb p.featureTime).2, result < b) ∧
      p.review = (Dict.get? p.raceId reviewed).getD [] ∧ Dict.getD p.review "record_sha256" .null = .str p.recordSha256 ∧
      p.raceId ∉ (group rs).conflicts ∧ p.raceId ∉ (group rs).variants := by
    intro name p hp
    obtain ⟨⟨key, reasons⟩, hitem, hok⟩ := hplaced (name, p) hp
    obtain ⟨⟨k, record⟩, hseen, he⟩ := List.mem_map.1 hitem
    cases he
    have hkey : k ∈ seenIds rs := List.mem_map.2 ⟨_, hseen, rfl⟩
    obtain ⟨own, hown, fs, hrace⟩ := mem_seenIds.1 hkey
    have hget : Dict.get? k (originals rs) = some record := by
      rw [originals_get k (raceOf_eq_some hrace).2.2, ← (group_spec k rs).1]
      exact Dict.get?_of_mem (nodup_seenIds rs) hseen
    simp only [hget] at hok
    obtain ⟨hid, haudit, hreview, hsha, hcarried, hfeature, result, hresult, hname, hbefore⟩ := prepareRace_ok hok
    subst hid
    obtain ⟨hconf, hvar⟩ := not_conflicting haudit
    refine ⟨record, result, ⟨?_, hsha, hfeature, hresult⟩, hname, hbefore, hreview, hcarried, hconf, hvar⟩
    rw [← (group_spec p.raceId rs).1]
    exact Dict.get?_of_mem (nodup_seenIds rs) hseen
  have hmem : ∀ p ∈ plan.placed, ∃ name, (name, p) ∈ placed := by
    intro p hp
    obtain ⟨⟨name, q⟩, hq, rfl⟩ := List.mem_map.1 (hall.mem_iff.1 hp)
    exact ⟨name, hq⟩
  have hnone : excluded.countP (fun e => e.raceId.isNone) = 0 := by
    rw [List.countP_eq_zero]
    intro e he
    cases hid : e.raceId with
    | none => have := hsome e he; rw [hid] at this; cases this
    | some _ => simp
  constructor
  · rw [hexcluded, List.filterMap_append]
    have hempty : ((audit rs).invalidRecords.map fun reason => (⟨none, [reason]⟩ : Excluded)).filterMap Excluded.raceId = [] := by
      simp [List.filterMap_map, Function.comp_def]
    rw [hempty, List.nil_append]
    have hmap := hall.map Prepared.raceId
    rw [List.map_map] at hmap
    exact ((hmap.append_right _).trans hperm).trans (hids ▸ seenIds_perm rs)
  · rw [hexcluded, List.countP_append, hnone, Nat.add_zero, ← hinvalid]
    simp [List.countP_map, Function.comp_def]
  · have hplacedLen := hall.length_eq
    have hidsLen := (congrArg List.length hids).trans (seenIds_perm rs).length_eq
    rw [List.length_map] at hplacedLen hidsLen
    rw [hexcluded, List.length_append, List.length_map, hplacedLen, ← hidsLen, hinvalid]
    omega
  · intro p hp
    rw [← hplan] at hp
    obtain ⟨record, result, hfrom, hname, hbefore, -⟩ := hspec _ p (mem_partitionOf.1 hp)
    exact ⟨record, result, hfrom, (place_spec (not_le.1 hvt) hbefore).1 hname.symm⟩
  · intro p hp
    rw [← hplan] at hp
    obtain ⟨record, result, hfrom, hname, hbefore, -⟩ := hspec _ p (mem_partitionOf.1 hp)
    obtain ⟨hle, hlt⟩ := (place_spec (not_le.1 hvt) hbefore).2.1 hname.symm
    exact ⟨hle, record, result, hfrom, hlt⟩
  · intro p hp
    rw [← hplan] at hp
    obtain ⟨record, result, hfrom, hname, hbefore, -⟩ := hspec _ p (mem_partitionOf.1 hp)
    exact ⟨(place_spec (not_le.1 hvt) hbefore).2.2 hname.symm, record, result, hfrom⟩
  · intro p hp
    obtain ⟨name, hp⟩ := hmem p hp
    obtain ⟨record, result, -, -, -, hreview, hcarried, -⟩ := hspec name p hp
    cases hget : Dict.get? p.raceId reviewed with
    | none =>
      rw [hreview, hget] at hcarried
      cases hcarried
    | some review =>
      rw [hget, Option.getD_some] at hreview
      rcases reviewMap_ok hreviewed hget with hnil | ⟨hin, htext⟩
      · cases hnil
      · refine ⟨by rw [hreview]; exact hin, ?_, hcarried⟩
        rw [hreview]
        cases hid : Dict.getD review "race_id" .null with
        | str s => rw [hid] at htext; exact congrArg Json.str (Option.some.inj htext)
        | _ => rw [hid] at htext; cases htext
  · intro p hp first hfirst r hr
    obtain ⟨name, hp⟩ := hmem p hp
    obtain ⟨record, result, -, -, -, -, -, hconf, hvar⟩ := hspec name p hp
    exact (group_spec p.raceId rs).2 hconf hvar first hfirst r hr

/-! ## The adapter -/

open HistoricalPreparation

/-- The races of rows whose digests were made are the keys of the digests. -/
theorem hashesOf_ok {rows : List Doc} {hashes : List (Doc × String)} (h : hashesOf rows = .ok hashes) :
    List.Forall₂ (fun r (e : Doc × String) => subscript r "race_id" = .ok e.1) rows hashes := by
  unfold hashesOf at h
  induction rows generalizing hashes with
  | nil =>
    cases h
    exact .nil
  | cons r rows ih =>
    rw [List.mapM_cons] at h
    obtain ⟨e, he, h⟩ := bind_ok.1 h
    obtain ⟨es, hes, h⟩ := bind_ok.1 h
    cases h
    obtain ⟨key, hkey, he⟩ := bind_ok.1 he
    rw [raiseIf_bind_ok] at he
    obtain ⟨sha, -, he⟩ := bind_ok.1 he.2
    cases he
    exact .cons hkey (ih hes)

/-- Rows that are named by distinct texts name no race twice. -/
theorem nodup_races {rows : List Doc} {hashes : List (Doc × String)}
    (h : List.Forall₂ (fun r (e : Doc × String) => subscript r "race_id" = .ok e.1) rows hashes)
    (hdistinct : hashes.Pairwise fun a b => Doc.pyEq a.1 b.1 = false) : ((rows.filterMap raceOf).map Prod.fst).Nodup := by
  have hkey : ∀ {r : Doc} {e : Doc × String} {k : String} {fs : Dict Doc}, subscript r "race_id" = .ok e.1 →
      raceOf r = some (k, fs) → e.1 = .str k := by
    intro r e k fs hsub hrace
    obtain ⟨rfl, htext, -⟩ := raceOf_eq_some hrace
    unfold Dict.getD at htext
    cases hg : Dict.get? "race_id" fs with
    | none => rw [hg] at htext; cases htext
    | some v =>
      rw [hg] at htext
      simp only [subscript, hg, Except.ok.injEq] at hsub
      subst hsub
      cases hv : e.1 with
      | str s => rw [hv] at htext; exact congrArg Json.str (Option.some.inj htext)
      | _ => rw [hv] at htext; cases htext
  induction h with
  | nil => simp
  | cons hsub htail ih =>
    rename_i r e rows hashes
    obtain ⟨hfirst, hrest⟩ := List.pairwise_cons.1 hdistinct
    cases hrace : raceOf r with
    | none => simpa [hrace] using ih hrest
    | some kr =>
      obtain ⟨k, fs⟩ := kr
      rw [List.filterMap_cons_some hrace, List.map_cons, List.nodup_cons]
      refine ⟨fun hmem => ?_, ih hrest⟩
      obtain ⟨⟨k', fs'⟩, hin, rfl⟩ := List.mem_map.1 hmem
      obtain ⟨r', hr', hrace'⟩ := List.mem_filterMap.1 hin
      obtain ⟨e', he', hsub'⟩ : ∃ e' ∈ hashes, subscript r' "race_id" = .ok e'.1 := by
        clear ih hrest hfirst hdistinct hmem hin
        induction htail with
        | nil => cases hr'
        | cons hs _ ih' =>
          rcases List.mem_cons.1 hr' with rfl | hr'
          · exact ⟨_, List.mem_cons_self .., hs⟩
          · obtain ⟨e', he', hs'⟩ := ih' hr'
            exact ⟨e', List.mem_cons_of_mem _ he', hs'⟩
      have hne := hfirst e' he'
      rw [hkey hsub hrace, hkey hsub' hrace'] at hne
      simp [Doc.pyEq] at hne

/-- Where no race is named twice, every row is a race or a record without one. -/
theorem length_of_nodup {rows : List Doc} (h : ((rows.filterMap raceOf).map Prod.fst).Nodup) :
    (raceIds rows).length + rows.countP (fun r => (raceOf r).isNone) = rows.length := by
  have hcount : ∀ rs : List Doc, (rs.filterMap raceOf).length + rs.countP (fun r => (raceOf r).isNone) = rs.length := by
    intro rs
    induction rs with
    | nil => rfl
    | cons r rs ih => cases hr : raceOf r <;> simp [hr] <;> omega
  rw [raceIds, List.dedup_eq_self.2 h, List.length_map]
  exact hcount rows

/-- For any records and reviews and any boundaries with which the preparation succeeds, its plan accounts for the records (`Accounted`);
and whatever files the adapter accepts, their records are all accounted for. -/
theorem historical_preparation_accounts :
    (∀ (records reviews validationStart testStart : Doc) (plan : Plan), prepare records reviews validationStart testStart = .ok plan →
      ∃ rs vs vb tb, records = .arr rs ∧ reviews = .arr vs ∧ timestamp validationStart = .ok vb ∧ timestamp testStart = .ok tb ∧
        vb < tb ∧ Accounted rs vs vb tb plan) ∧
      ∀ (data reviews validationStart testStart : Doc) (plan : Plan) (counts : IntakeCounts),
        reportOf data reviews validationStart testStart = .ok (plan, counts) → (accounting plan counts).accountedFor = true := by
  refine ⟨fun _ _ _ _ _ h => accounted h, ?_⟩
  intro data reviews validationStart testStart plan counts h
  unfold reportOf at h
  cases data with
  | obj fs =>
    simp only [raiseIf_bind_ok] at h
    obtain ⟨-, h⟩ := h
    cases hrows : Doc.field (.obj fs) "records" with
    | arr rows =>
      rw [hrows] at h
      obtain ⟨hashes, hhashes, h⟩ := bind_ok.1 h
      rw [raiseIf_bind_ok, not_not] at h
      obtain ⟨⟨hdistinct, -⟩, h⟩ := h
      obtain ⟨quarantined, -, h⟩ := bind_ok.1 h
      obtain ⟨detailQuarantined, -, h⟩ := bind_ok.1 h
      obtain ⟨orphans, -, h⟩ := bind_ok.1 h
      obtain ⟨plan', hplan, h⟩ := bind_ok.1 h
      cases h
      have hok : ∀ {α : Type} {x : Except PyError α} {a : α}, orOther x = .ok a → x = .ok a := by
        intro α x a hx
        cases x with
        | ok b => exact congrArg Except.ok (Except.ok.inj hx)
        | error e => nomatch hx
      obtain ⟨rs, vs, vb, tb, hrs, -, -, -, -, hacc⟩ := accounted (hok hplan)
      cases hrs
      have htotal := hacc.total
      rw [length_of_nodup (nodup_races (hashesOf_ok (hok hhashes)) hdistinct)] at htotal
      have hlen : plan.placed.length = plan.train.length + plan.validation.length + plan.test.length := by
        simp only [Plan.placed, List.length_append]
      simp only [accounting, decide_eq_true_eq]
      rw [← hlen]
      exact htotal
    | _ => rw [hrows] at h; cases h
  | _ => nomatch h

/-- A race of which the record and its review are complete. -/
def sampleRecord : Dict Doc :=
  let car (n : ℤ) : Doc := .num (.int n)
  [("race_id", .str "r1"), ("rider_count", car 3), ("sources", .arr [.str "a"]), ("training_use_status", .str "confirmed"),
    ("pre_race_state_verified", .bool true), ("prospective", .bool false), ("dead_heat", .bool false),
    ("riders", .arr ([1, 2, 3].map fun n => .obj [("car_number", car n)])), ("trifecta_outcomes", .arr [.arr [car 1, car 2, car 3]]),
    ("feature_as_of", .str "2020-01-01T09:00:00+09:00"), ("listed_scheduled_start_jst", .str "2020-01-01T10:00:00+09:00"),
    ("result_available_at", .str "2020-01-01T11:00:00+09:00"),
    ("pre_race_features", .arr ([1, 2, 3].map fun n => .obj [("car_number", car n), ("style", .str "逃")]))]

def sampleSha256 : String := (digest (.obj sampleRecord)).toOption.getD ""

def sampleReview : Doc :=
  .obj [("race_id", .str "r1"), ("record_sha256", .str sampleSha256), ("reviewer", .str "x"), ("source_use_evidence", .str "x"),
    ("feature_time_evidence", .str "x"), ("result_time_evidence", .str "x")]

def sampleData : Doc :=
  .obj [("schema_version", .str "historical-review-records-v1"), ("records", .arr [.obj sampleRecord]),
    ("record_hashes", .obj [("r1", .str sampleSha256)])]

def sampleValidationStart : Doc := .str "2020-02-01T00:00:00+09:00"

def sampleTestStart : Doc := .str "2020-03-01T00:00:00+09:00"

theorem historical_preparation_accounts_sample :
    (∃ plan rs vs vb tb, prepare (.arr [.obj sampleRecord, .null]) (.arr [sampleReview]) sampleValidationStart sampleTestStart =
      .ok plan ∧ plan.train.length = 1 ∧ Accounted rs vs vb tb plan) ∧
    ∃ plan counts, reportOf sampleData (.arr [sampleReview]) sampleValidationStart sampleTestStart = .ok (plan, counts) ∧
      (accounting plan counts).accountedFor = true := by
  have hone : (prepare (.arr [.obj sampleRecord, .null]) (.arr [sampleReview]) sampleValidationStart sampleTestStart).toOption.map
      (fun plan => plan.train.length) = some 1 := by decide +kernel
  have hok : (reportOf sampleData (.arr [sampleReview]) sampleValidationStart sampleTestStart).isOk = true := by decide +kernel
  constructor
  · cases h : prepare (.arr [.obj sampleRecord, .null]) (.arr [sampleReview]) sampleValidationStart sampleTestStart with
    | error e => rw [h] at hone; cases hone
    | ok plan =>
      obtain ⟨rs, vs, vb, tb, -, -, -, -, -, hacc⟩ := historical_preparation_accounts.1 _ _ _ _ _ h
      rw [h] at hone
      exact ⟨plan, rs, vs, vb, tb, rfl, Option.some.inj hone, hacc⟩
  · cases h : reportOf sampleData (.arr [sampleReview]) sampleValidationStart sampleTestStart with
    | error e => rw [h] at hok; cases hok
    | ok r => exact ⟨r.1, r.2, rfl, historical_preparation_accounts.2 _ _ _ _ _ _ h⟩

end Keirin.HistoricalTraining

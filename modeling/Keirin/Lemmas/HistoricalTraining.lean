import Keirin.HistoricalPreparation
import Mathlib.Data.String.Basic

/-!
# What becomes of a record

The audit keeps the first record of each race and counts the records without one; the preparation places each race once or
excludes it once. What is placed has passed every check, so that nothing speaks against it: no second record of the race has
other content or other sources, the review carries the digest of the record, and the result is known before the boundary.
-/

namespace Keirin.HistoricalTraining

/-! ## The audit -/

theorem group_concat (records : List Doc) (record : Doc) : group (records ++ [record]) = groupRecord (group records) record := by
  simp [group]

/-- Two records have the same content and the same sources. -/
def SameContent (r r' : Dict Doc) : Prop :=
  sameText (contentText r) (contentText r') = true ∧ sameText (sourcesText r) (sourcesText r') = true

/-- The first record of a race stands for it; a later one of other content or sources puts it among the conflicts or the variants. -/
theorem group_spec (key : String) (records : List Doc) :
    Dict.get? key (group records).seen = (recordsOf key records).head? ∧
      (key ∉ (group records).conflicts → key ∉ (group records).variants →
        ∀ first ∈ (recordsOf key records).head?, ∀ r ∈ (recordsOf key records).tail, SameContent first r) := by
  induction records using List.reverseRecOn with
  | nil => simp [group, recordsOf, Dict.get?]
  | append_singleton records record ih =>
    obtain ⟨hseen, hsame⟩ := ih
    rw [group_concat, recordsOf_append, recordsOf_singleton]
    cases hr : raceOf record with
    | none => simpa [groupRecord, hr] using ⟨hseen, hsame⟩
    | some kr =>
      obtain ⟨k, fs⟩ := kr
      by_cases hk : k = key
      · subst hk
        cases hall : recordsOf k records with
        | nil =>
          rw [hall, List.head?_nil] at hseen
          simp [groupRecord, hr, hseen, Option.filter]
        | cons first rest =>
          rw [hall] at hseen hsame
          simp only [List.head?_cons, Option.mem_def, Option.some.injEq, forall_eq', List.tail_cons] at hseen hsame
          cases hs : sameText (sourcesText first) (sourcesText fs) with
          | false => simp [groupRecord, hr, hseen, hs]; split <;> simp_all
          | true =>
            cases hc : sameText (contentText first) (contentText fs) with
            | false => simp [groupRecord, hr, hseen, hs, hc]
            | true =>
              simp only [groupRecord, hr, hseen, hs, hc, if_true, List.cons_append, List.head?_cons, Option.mem_def,
                Option.some.injEq, forall_eq', List.tail_cons, List.mem_append, true_and]
              intro hconf hvar r hrest
              rcases hrest with hrest | hrest
              · exact hsame hconf hvar r hrest
              · simp only [Option.filter, decide_true, if_true, Option.toList_some, List.map_cons, List.map_nil,
                  List.mem_singleton] at hrest
                subst hrest
                exact ⟨hc, hs⟩
      · have hother : Dict.get? key (groupRecord (group records) record).seen = Dict.get? key (group records).seen ∧
            (key ∈ (group records).conflicts → key ∈ (groupRecord (group records) record).conflicts) ∧
            (key ∈ (group records).variants → key ∈ (groupRecord (group records) record).variants) := by
          cases hget : Dict.get? k (group records).seen with
          | none => simp [groupRecord, hr, hget, Dict.get?_set_of_ne (Ne.symm hk)]
          | some first =>
            simp only [groupRecord, hr, hget]
            split <;> split <;> simp_all
        have hnone : ((some (k, fs)).filter fun r => r.1 = key).toList.map Prod.snd = ([] : List (Dict Doc)) := by
          simp [Option.filter, hk]
        rw [hother.1, hseen, hnone, List.append_nil]
        exact ⟨rfl, fun hconf hvar => hsame (fun h => hconf (hother.2.1 h)) fun h => hvar (hother.2.2 h)⟩

/-- The races of the records, each once, in the order of their first records. -/
def seenIds (records : List Doc) : List String := (group records).seen.map Prod.fst

/-- Every race stands once among the races, and a race stands there when some record has it. -/
theorem nodup_seenIds (records : List Doc) : (seenIds records).Nodup := by
  unfold seenIds
  induction records using List.reverseRecOn with
  | nil => simp [group]
  | append_singleton records record ih =>
    rw [group_concat]
    simp only [groupRecord]
    repeat' split
    all_goals first | exact ih | exact Dict.nodup_set ih

theorem mem_seenIds {records : List Doc} {key : String} :
    key ∈ seenIds records ↔ ∃ record ∈ records, ∃ fs, raceOf record = some (key, fs) := by
  have hget := (group_spec key records).1
  have hmem : key ∈ seenIds records ↔ recordsOf key records ≠ [] := by
    rw [← not_iff_not, seenIds, ← Dict.get?_eq_none_iff, hget, List.head?_eq_none_iff, not_not]
  rw [hmem, ← List.length_pos_iff, List.length_pos_iff_exists_mem]
  simp only [recordsOf, List.mem_map, List.mem_filter, List.mem_filterMap, decide_eq_true_eq]
  constructor
  · rintro ⟨fs, ⟨k, fs'⟩, ⟨⟨record, hrec, hrace⟩, hk⟩, rfl⟩
    obtain rfl : k = key := hk
    exact ⟨record, hrec, fs', hrace⟩
  · rintro ⟨record, hrec, fs, hrace⟩
    exact ⟨fs, (key, fs), ⟨⟨record, hrec, hrace⟩, rfl⟩, rfl⟩

/-- The distinct races of the records. -/
def raceIds (records : List Doc) : List String := ((records.filterMap raceOf).map Prod.fst).dedup

theorem seenIds_perm (records : List Doc) : (seenIds records).Perm (raceIds records) := by
  refine (List.perm_ext_iff_of_nodup (nodup_seenIds records) (List.nodup_dedup _)).2 fun key => ?_
  rw [mem_seenIds, List.mem_dedup]
  simp only [List.mem_map, List.mem_filterMap]
  constructor
  · rintro ⟨record, hrec, fs, hrace⟩
    exact ⟨(key, fs), ⟨record, hrec, hrace⟩, rfl⟩
  · rintro ⟨⟨k, fs⟩, ⟨record, hrec, hrace⟩, rfl⟩
    exact ⟨record, hrec, fs, hrace⟩

/-- Every record without a race is counted once. -/
theorem group_invalid (records : List Doc) :
    (group records).invalid = (records.filter fun r => (raceOf r).isNone).map invalidReason := by
  induction records using List.reverseRecOn with
  | nil => rfl
  | append_singleton records record ih =>
    rw [group_concat, List.filter_append, List.map_append, ← ih]
    cases hr : raceOf record with
    | none => simp [groupRecord, hr]
    | some kr =>
      obtain ⟨k, fs⟩ := kr
      simp only [groupRecord, hr]
      repeat' split
      all_goals simp_all

/-- The record the preparation uses for a race is the one the audit looked at. -/
theorem originals_get (key : String) (hkey : isBlank key = false) (records : List Doc) :
    Dict.get? key (originals records) = (recordsOf key records).head? := by
  induction records using List.reverseRecOn with
  | nil => simp [originals, recordsOf, Dict.get?]
  | append_singleton records record ih =>
    rw [recordsOf_append, recordsOf_singleton]
    unfold originals at ih ⊢
    rw [List.foldl_concat]
    set d := List.foldl _ ([] : Dict (Dict Doc)) records with hd
    have hhead : (recordsOf key records ++ ((raceOf record).filter fun r => r.1 = key).toList.map Prod.snd).head? =
        (Dict.get? key d).or (((raceOf record).filter fun r => r.1 = key).toList.map Prod.snd).head? := by
      rw [List.head?_append, ih]
    rw [hhead]
    cases record with
    | obj fs =>
      cases ht : Doc.text? (Dict.getD fs "race_id" .null) with
      | none => simp [raceOf, ht]
      | some k =>
        by_cases hk : k = key
        · subst hk
          cases hg : Dict.get? k d with
          | none => simp [raceOf, ht, hkey, hg, Option.filter]
          | some first => simp [raceOf, ht, hg]
        · have hnone : ((raceOf (.obj fs)).filter fun r => r.1 = key) = none := by
            simp only [raceOf, ht]
            by_cases hb : isBlank k = true <;> simp [Option.filter, hb, hk]
          rw [hnone]
          by_cases hs : (Dict.get? k d).isSome = true
          · simp [ht, hs]
          · simp [ht, hs, Dict.get?_set_of_ne (Ne.symm hk)]
    | _ => simp [raceOf]

/-! ## One race -/

theorem attempt_ok {α : Type} {reasons : List String} {x : Except PyError α} {a : α} (h : attempt reasons x = .ok a) : x = .ok a := by
  cases x with
  | ok b => simpa [attempt] using h
  | error e => simp [attempt] at h

theorem reasonIf_eq_nil {bad : Prop} [Decidable bad] {reason : String} : reasonIf bad reason = [] ↔ ¬bad := by
  unfold reasonIf
  split <;> simp [*]

/-- A race is placed when nothing speaks against it: by the audit, by its review and by its times. -/
theorem prepareRace_ok {vb tb : ℚ} {reviews : Dict (Dict Doc)} {key : String} {record : Dict Doc} {auditReasons : List String}
    {name : Partition} {p : Prepared} (h : prepareRace vb tb reviews key record auditReasons = .ok (name, p)) :
    p.raceId = key ∧ auditReasons.filter (fun r => r ≠ "dedicated_historical_review_required") = [] ∧
      p.review = (Dict.get? key reviews).getD [] ∧ digest (.obj record) = .ok p.recordSha256 ∧
      Dict.getD p.review "record_sha256" .null = .str p.recordSha256 ∧
      timestamp (Dict.getD record "feature_as_of" .null) = .ok p.featureTime ∧
      ∃ result, timestamp (Dict.getD record "result_available_at" .null) = .ok result ∧
        name = (place vb tb p.featureTime).1 ∧ ∀ b ∈ (place vb tb p.featureTime).2, result < b := by
  unfold prepareRace at h
  obtain ⟨sha256, hsha, h⟩ := bind_ok.1 h
  obtain ⟨featureTime, hfeature, h⟩ := bind_ok.1 h
  obtain ⟨start, -, h⟩ := bind_ok.1 h
  obtain ⟨resultTime, hresult, h⟩ := bind_ok.1 h
  obtain ⟨rows, -, h⟩ := bind_ok.1 h
  rw [raiseIf_bind_ok] at h
  obtain ⟨hreasons, h⟩ := h
  obtain ⟨outcome, -, h⟩ := bind_ok.1 h
  simp only [raiseIf_bind_ok] at h
  obtain ⟨hboundary, h⟩ := h
  cases h
  simp only [ne_eq, not_not, List.append_eq_nil_iff] at hreasons
  obtain ⟨⟨haudit, hreview⟩, -⟩ := hreasons
  refine ⟨rfl, haudit, rfl, attempt_ok hsha, ?_, attempt_ok hfeature, resultTime, attempt_ok hresult, rfl, ?_⟩
  · simp only [reviewReasons, List.append_eq_nil_iff, reasonIf_eq_nil] at hreview
    simpa using hreview.1.1.1.1.1.1
  · intro b hb
    by_contra hle
    exact hboundary ⟨b, hb, not_lt.1 hle⟩

/-- A race nothing but the standing reason speaks against is neither in conflict nor of varying sources. -/
theorem not_conflicting {g : Grouped} {key : String} {record : Dict Doc}
    (h : (auditReasons g key record).filter (fun r => r ≠ "dedicated_historical_review_required") = []) :
    key ∉ g.conflicts ∧ key ∉ g.variants := by
  have hmem : ∀ r ∈ auditReasons g key record, r = "dedicated_historical_review_required" := by
    intro r hr
    simpa using List.filter_eq_nil_iff.1 h r hr
  constructor
  · intro hc
    exact absurd (hmem "conflicting_duplicate_requires_review" (by simp [auditReasons, reasonIf, hc])) (by decide)
  · intro hv
    exact absurd (hmem "source_variants_require_review" (by simp [auditReasons, reasonIf, hv])) (by decide)

/-! ## All races -/

/-- Every race is placed once or excluded once. -/
theorem divide_ok {judge : String → List String → Except Stop (Partition × Prepared)}
    (hjudge : ∀ key reasons p, judge key reasons = .ok p → p.2.raceId = key) {items : List (String × List String)}
    {placed : List (Partition × Prepared)} {excluded : List Excluded} (h : divide judge items = .ok (placed, excluded)) :
    (placed.map (fun p => p.2.raceId) ++ excluded.filterMap Excluded.raceId).Perm (items.map Prod.fst) ∧
      (∀ e ∈ excluded, e.raceId.isSome = true) ∧ placed.length + excluded.length = items.length ∧
      ∀ p ∈ placed, ∃ item ∈ items, judge item.1 item.2 = .ok p := by
  induction items generalizing placed excluded with
  | nil =>
    cases h
    simp
  | cons item items ih =>
    obtain ⟨key, reasons⟩ := item
    unfold divide at h
    cases hj : judge key reasons with
    | ok p =>
      rw [hj] at h
      cases hrest : divide judge items with
      | error e => rw [hrest] at h; nomatch h
      | ok r =>
        obtain ⟨placed', excluded'⟩ := r
        rw [hrest] at h
        cases h
        obtain ⟨hperm, hsome, hlen, hplaced⟩ := ih hrest
        refine ⟨?_, hsome, ?_, ?_⟩
        · simpa [hjudge _ _ _ hj] using hperm.cons key
        · simp only [List.length_cons]
          omega
        · intro q hq
          rcases List.mem_cons.1 hq with rfl | hq
          · exact ⟨(key, reasons), List.mem_cons_self .., hj⟩
          · obtain ⟨item, hitem, hok⟩ := hplaced q hq
            exact ⟨item, List.mem_cons_of_mem _ hitem, hok⟩
    | error stop =>
      rw [hj] at h
      cases stop with
      | raised exc => nomatch h
      | excluded reasons' =>
        cases hrest : divide judge items with
        | error e => rw [hrest] at h; nomatch h
        | ok r =>
          obtain ⟨placed', excluded'⟩ := r
          rw [hrest] at h
          cases h
          obtain ⟨hperm, hsome, hlen, hplaced⟩ := ih hrest
          refine ⟨?_, ?_, ?_, ?_⟩
          · simpa using List.perm_middle.trans (hperm.cons key)
          · intro e he
            rcases List.mem_cons.1 he with rfl | he
            · rfl
            · exact hsome e he
          · simp only [List.length_cons]
            omega
          · intro q hq
            obtain ⟨item, hitem, hok⟩ := hplaced q hq
            exact ⟨item, List.mem_cons_of_mem _ hitem, hok⟩

/-- The races placed are those of the three partitions. -/
theorem partitions_perm (placed : List (Partition × Prepared)) :
    (partitionOf .train placed ++ partitionOf .validation placed ++ partitionOf .test placed).Perm (placed.map Prod.snd) := by
  have hsorted : ∀ name, (partitionOf name placed).Perm ((placed.filter fun p => p.1 = name).map Prod.snd) :=
    fun name => List.perm_insertionSort _ _
  refine (((hsorted .train).append (hsorted .validation)).append (hsorted .test)).trans ?_
  rw [← List.map_append, ← List.map_append]
  refine List.Perm.map _ ?_
  clear hsorted
  induction placed with
  | nil => rfl
  | cons p placed ih =>
    obtain ⟨name, q⟩ := p
    cases name with
    | train => simpa using ih
    | validation => simpa using List.perm_middle.trans (List.Perm.cons _ (by simpa using ih))
    | test =>
      simp only [List.filter_cons, reduceCtorEq, decide_false, Bool.false_eq_true, if_false, decide_true, if_true]
      exact List.perm_middle.trans (ih.cons _)

theorem mem_partitionOf {name : Partition} {placed : List (Partition × Prepared)} {p : Prepared} :
    p ∈ partitionOf name placed ↔ (name, p) ∈ placed := by
  unfold partitionOf
  rw [List.mem_insertionSort, List.mem_map]
  constructor
  · rintro ⟨⟨n, q⟩, hq, rfl⟩
    rw [List.mem_filter] at hq
    obtain rfl : n = name := by simpa using hq.2
    exact hq.1
  · intro hp
    exact ⟨(name, p), List.mem_filter.2 ⟨hp, by simp⟩, rfl⟩

/-- The reviews by race are reviews that were given. -/
theorem reviewMap_ok {reviews : List Doc} {known map : Dict (Dict Doc)} (h : reviewMap known reviews = .ok map) {key : String}
    {review : Dict Doc} (hget : Dict.get? key map = some review) :
    Dict.get? key known = some review ∨
      (.obj review ∈ reviews ∧ Doc.text? (Dict.getD review "race_id" .null) = some key) := by
  induction reviews generalizing known with
  | nil =>
    cases h
    exact .inl hget
  | cons r reviews ih =>
    cases r with
    | obj fs =>
      simp only [reviewMap] at h
      cases ht : Doc.text? (Dict.getD fs "race_id" .null) with
      | none => rw [ht] at h; nomatch h
      | some k =>
        rw [ht] at h
        simp only at h
        split at h
        · nomatch h
        · rcases ih h with hknown | ⟨hmem, htext⟩
          · by_cases hk : k = key
            · subst hk
              rw [Dict.get?_set_self, Option.some.injEq] at hknown
              subst hknown
              exact .inr ⟨List.mem_cons_self .., ht⟩
            · exact .inl (by rwa [Dict.get?_set_of_ne (Ne.symm hk)] at hknown)
          · exact .inr ⟨List.mem_cons_of_mem _ hmem, htext⟩
    | _ => nomatch h

end Keirin.HistoricalTraining

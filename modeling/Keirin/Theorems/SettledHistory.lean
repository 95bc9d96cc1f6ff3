import Keirin.Theorems.HistoryReview

/-!
# A settled snapshot is reviewed

Whatever record the settlement of a snapshot returns, the review takes: alone it is the one race evaluated, or the one case held, and
nothing else is excluded.
-/

namespace Keirin.ModelHistory

open HistoricalPayouts (demand_bind_ok)
open CategorySelection (combosOf)

variable {dateError : String → String} {arithmetic : Arithmetic} {record : Doc}

/-! ## One record -/

theorem reviewed_singleton (h : validateHistory dateError record = .ok ()) :
    reviewed dateError [record] = Review.add ⟨[], [], 0, []⟩ [record] := by
  have haccepts : accepts dateError record = true := by
    unfold accepts
    rw [h]
  have hrefusal : refusal? dateError record = none := by
    unfold refusal?
    rw [h]
  unfold reviewed
  rw [screen_eq, List.filter_cons_of_pos haccepts, List.filterMap_cons_none hrefusal]
  rfl

theorem judge_singleton_held (h : isHeld record = true) : judge [record] = .held
    { raceId := raceIdOf record
      riderCount := riderCountOf record
      reasons := sortedSet ([record].filterMap fun r => ((r.field "settlement").field "result_status").text?)
      withdrawnCarNumbers := sortedSet ([record].flatMap withdrawnOf)
      excludedRecords := 1 } := by
  rw [judge_held rfl ⟨record, List.mem_singleton_self _, h⟩, List.filter_cons_of_pos h]
  rfl

theorem judge_singleton_plain (h : isHeld record = false) : judge [record] = .selected record := by
  have hnone : ¬∃ r ∈ [record], isHeld r = true := by
    rintro ⟨r, hr, hheld⟩
    rw [List.mem_singleton.1 hr, h] at hheld
    cases hheld
  obtain ⟨r, hr, hlatest, hjudge⟩ := judge_plain (List.cons_ne_nil record []) hnone
  obtain rfl := List.mem_singleton.1 hr
  have htied : [r].filter (fun s => timeOf s = latestOf [r]) = [r] := by
    rw [List.filter_eq_self]
    intro s hs
    rw [List.mem_singleton.1 hs]
    exact decide_eq_true hlatest
  rw [hjudge, htied]
  rfl

/-! ## The place of an outcome -/

theorem mem_keys_update {α : Type} {key : String} {d e : Dict α} :
    key ∈ (Dict.update d e).map Prod.fst ↔ key ∈ d.map Prod.fst ∨ key ∈ e.map Prod.fst := by
  induction e generalizing d with
  | nil => simp [Dict.update]
  | cons f e ih =>
    have hcons : Dict.update d (f :: e) = Dict.update (Dict.set f.1 f.2 d) e := rfl
    rw [hcons, ih, Dict.keys_set, List.map_cons, List.mem_cons]
    split_ifs with hmem
    · constructor
      · rintro (h | h)
        · exact .inl h
        · exact .inr (.inr h)
      · rintro (h | h | h)
        · exact .inl h
        · exact .inl (h ▸ hmem)
        · exact .inr h
    · rw [List.mem_append, List.mem_singleton, or_assoc]

/-- The table has the combinations of the rows. -/
theorem keys_tableOf {scores : List Doc} {key : String} (h : key ∈ combosOf scores) : key ∈ (tableOf scores).map Prod.fst := by
  unfold tableOf
  refine mem_keys_update.2 (.inr ?_)
  unfold combosOf at h
  obtain ⟨row, hrow, hkey⟩ := List.mem_filterMap.1 h
  exact List.mem_map.2 ⟨(key, _), List.mem_filterMap.2 ⟨row, hrow, by rw [hkey]; rfl⟩, rfl⟩

/-- An outcome of the table has a place in it. -/
theorem rank_le (arithmetic : Arithmetic) {table : Dict ℚ} {outcome : String} (h : outcome ∈ table.map Prod.fst) :
    (score arithmetic table outcome).rank ≤ table.length := by
  have hperm : (ordered table).Perm table := List.perm_insertionSort _ _
  have hin : outcome ∈ (ordered table).map Prod.fst := (hperm.map _).mem_iff.2 h
  have hlt := List.idxOf_lt_length_iff.2 hin
  rw [List.length_map, hperm.length_eq] at hlt
  exact hlt

/-! ## The review of a settled snapshot -/

/-- Of every snapshot and settlement for which a record is made, the review of the record alone reports one race, evaluated with the
place of its outcome in the table where it was run, and else held with the status it was settled with. -/
theorem settled_history_reviewed (dateError : String → String) (arithmetic : Arithmetic) (snapshot settlement record : Doc)
    (hsnapshot : snapshot.keysOnce = true) (hsettlement : settlement.keysOnce = true)
    (h : settleSnapshot dateError snapshot settlement = .ok record) :
    ∃ report, evaluateHistories dateError arithmetic true [record] = .ok report ∧ report.inputRecords = 1 ∧
      report.duplicateSnapshotsRemoved = 0 ∧
      ((∃ race, report.perRace = [race] ∧ race.raceId = raceIdOf record ∧ 1 ≤ race.metrics.rank ∧
          race.metrics.rank ≤ (tableOf (((snapshot.field "prediction").field "trifecta_scores").elements?.getD [])).length) ∧
        report.heldCases = [] ∧ report.excluded = [] ∨
      (∃ status ∈ HELD_STATUSES, settlement.field "result_status" = .str status ∧ report.perRace = [] ∧
        report.excluded = [("nonstandard_race_requires_review", 1)] ∧
        ∃ case, report.heldCases = [case] ∧ case.raceId = raceIdOf record ∧ case.riderCount = riderCountOf record ∧
          case.reasons = [status] ∧ case.excludedRecords = 1)) := by
  have hvalid := validateHistory_of_settle hsnapshot hsettlement h
  obtain ⟨status, hsettled, rfl⟩ := settled_of_settle h
  obtain ⟨hs, hse, -, hschema⟩ := recordOf_fields status snapshot settlement
  refine ⟨_, rfl, rfl, ?_⟩
  rw [reviewed_singleton hvalid]
  by_cases hnormal : status = "normal"
  · have hplain : isHeld (recordOf status snapshot settlement) = false := by
      unfold isHeld
      rw [hschema, if_pos hnormal]
      decide
    have hadd : Review.add ⟨[], [], 0, []⟩ [recordOf status snapshot settlement] = ⟨[recordOf status snapshot settlement], [], 0, []⟩ := by
      unfold Review.add
      rw [judge_singleton_plain hplain]
      rfl
    rw [hadd]
    refine ⟨rfl, .inl ⟨⟨raceReview arithmetic (recordOf status snapshot settlement), rfl, rfl, ?_, ?_⟩, rfl, rfl⟩⟩
    · exact Nat.le_add_left 1 _
    · obtain ⟨outcome, houtcome, hmem⟩ := (Option.any_eq_true _ _).1 (hsettled.outcome hnormal).2.2
      have htext : (((recordOf status snapshot settlement).field "settlement").field "outcome_combo").text?.getD "" = outcome := by
        rw [hse, houtcome]
        rfl
      show (score arithmetic (tableOf _) ((((recordOf status snapshot settlement).field "settlement").field "outcome_combo").text?.getD "")).rank ≤ _
      rw [htext, hs]
      exact rank_le arithmetic (keys_tableOf (of_decide_eq_true hmem))
  · have hheld : isHeld (recordOf status snapshot settlement) = true := by
      unfold isHeld
      rw [hschema, if_neg hnormal]
      decide
    have hknown : status ∈ HELD_STATUSES := (List.mem_cons.1 hsettled.known).resolve_left hnormal
    have hstatus : settlement.field "result_status" = .str status := by
      have hsaid := hsettled.said
      unfold Doc.field
      cases hv : Json.get? settlement "result_status" with
      | none =>
        rw [hv] at hsaid
        exact absurd (Option.some.inj hsaid).symm hnormal
      | some v =>
        rw [hv] at hsaid
        cases v with
        | str s => exact congrArg Json.str (Option.some.inj hsaid)
        | _ => cases hsaid
    unfold Review.add
    rw [judge_singleton_held hheld]
    refine ⟨rfl, .inr ⟨status, hknown, hstatus, rfl, rfl, _, rfl, rfl, rfl, ?_, rfl⟩⟩
    have hreasons : [recordOf status snapshot settlement].filterMap (fun r => ((r.field "settlement").field "result_status").text?) = [status] := by
      rw [List.filterMap_cons_some (b := status) (by rw [hse, hstatus]; rfl)]
      rfl
    show sortedSet ([recordOf status snapshot settlement].filterMap fun r => ((r.field "settlement").field "result_status").text?) = _
    rw [hreasons]
    rfl

/-- A cancelled race. -/
theorem settled_history_reviewed_sample : ∃ report, evaluateHistories (fun _ => "") ⟨id, id, List.sum⟩ true [sampleDoc 7] = .ok report ∧
    report.inputRecords = 1 := by
  obtain ⟨report, hreport, hinputs, -⟩ := settled_history_reviewed (fun _ => "") ⟨id, id, List.sum⟩ (sampleSnapshot 7) sampleSettlement
    (sampleDoc 7) (keysOnce_sampleSnapshot (.inl rfl)) rfl (settle_sample _ (.inl rfl))
  exact ⟨report, hreport, hinputs⟩

end Keirin.ModelHistory

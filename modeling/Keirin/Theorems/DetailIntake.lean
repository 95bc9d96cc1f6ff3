import Keirin.Lemmas.HistoricalDetails

/-!
# A lossless intake

Every row of the sources stands in a table of its race or among the rows without one, under its role and with its origin, once. Rows
that share a key and are not the same are noted as conflicting, and their race is held back from the review. Rows are told apart by
their digests; two rows of different contents with one digest would be taken for one.
-/

namespace Keirin.HistoricalDetails

open HistoricalPayouts HistoricalRecords

/-! ## Conflicts -/

section Conflicts

variable {files : String → Option (List ℕ)} {netloc : String → Bool} {manifest : Doc} {c : Intake} {g : Collected}

/-- Two entries of one group conflict. -/
theorem conflicting_of_entries {e f : String × DetailRow} (he : e ∈ g.unique) (hf : f ∈ g.unique)
    (hne : e ≠ f) (hgroup : groupKey f.2 = groupKey e.2) : conflicting (g.unique.map Prod.snd) e.2 = true := by
  have hsub : [e, f].Subperm g.unique := by
    refine List.Nodup.subperm (by simpa using hne) fun x hx => ?_
    rcases List.mem_cons.1 hx with rfl | hx
    · exact he
    · exact List.mem_singleton.1 hx ▸ hf
  have hcount := hsub.countP_le (p := fun x : String × DetailRow => decide (groupKey x.2 = groupKey e.2))
  have htwo : [e, f].countP (fun x => decide (groupKey x.2 = groupKey e.2)) = 2 := by
    simp [hgroup]
  rw [conflicting, decide_eq_true_eq, List.countP_map]
  exact lt_of_lt_of_le Nat.one_lt_two (htwo ▸ hcount)

/-- A row of a source is among the rows of the intake, with a conflict noted. -/
def Intake.Conflicted (c : Intake) (p : Source × SourceRow) : Prop :=
  ∃ row ∈ c.placedRows, row.role = p.1.role ∧ (∀ column, Dict.get? column row.raw = Dict.get? column p.2.raw) ∧
    originOf p.1 p.2 ∈ row.origins ∧ "conflicting_logical_key" ∈ row.quarantineReasons

/-- Rows of one role and one key with different contents conflict. -/
theorem conflicted (h : Collects files netloc manifest c g) (hc : ¬c.Collides) {p q : Source × SourceRow} (hp : p ∈ itemsOf c.sources)
    (hq : q ∈ itemsOf c.sources) (hrole : p.1.role = q.1.role) (hkey : logicalKey p.1.role p.2.raw = logicalKey q.1.role q.2.raw)
    (hdiff : ∃ column, Dict.get? column p.2.raw ≠ Dict.get? column q.2.raw) : c.Conflicted p := by
  obtain ⟨e, he, hprint, horigin⟩ := exists_entry h hp
  obtain ⟨f, hf, hprint', -⟩ := exists_entry h hq
  obtain ⟨herole, hecontent⟩ := content_of_entry h hc hp he hprint
  obtain ⟨hfrole, hfcontent⟩ := content_of_entry h hc hq hf hprint'
  have hne : e ≠ f := by
    rintro rfl
    obtain ⟨column, hdiff⟩ := hdiff
    exact hdiff ((hecontent column).symm.trans (hfcontent column))
  have hgroup : groupKey f.2 = groupKey e.2 := by
    have hkeys : ∀ {row : DetailRow} {x : Source × SourceRow}, row.role = x.1.role →
        (∀ column, Dict.get? column row.raw = Dict.get? column x.2.raw) → groupKey row = (x.1.role, logicalKey x.1.role x.2.raw) := by
      intro row x hrow hcontent
      rw [groupKey, hrow]
      refine Prod.ext rfl (List.map_congr_left fun field _ => ?_)
      rw [Dict.getD, Dict.getD, hcontent field]
    rw [hkeys hfrole hfcontent, hkeys herole hecontent, hkey, hrole]
  have hconflict := conflicting_of_entries he hf hne hgroup
  refine ⟨{ e.2 with quarantineReasons := e.2.quarantineReasons ++ ["conflicting_logical_key"] }, ?_, herole, hecontent, horigin,
    List.mem_append_right _ (List.mem_singleton_self _)⟩
  rw [(placedRows_perm h).mem_iff, h.rows, markConflicts, List.map_map]
  refine List.mem_map.2 ⟨e, he, ?_⟩
  simp only [Function.comp, if_pos hconflict]

end Conflicts

/-! ## The review -/

/-- The entry of a race that is held back. -/
def RaceRecord.heldDoc (r : RaceRecord) : Doc := .obj [("race_id", .str r.raceId), ("reasons", texts r.quarantineReasons)]

/-- What is read of a table of a record are rows of the record. -/
theorem rawRows_ok {r : RaceRecord} {role : String} {more : List Doc} (h : rawRows r.toDoc role = .ok more) :
    ∀ d ∈ more, ∃ row ∈ r.rows, d = rawDoc row.raw := by
  obtain ⟨tables, htables, h⟩ := bind_ok.1 h
  obtain ⟨table, htable, h⟩ := bind_ok.1 h
  obtain ⟨rows, hrows, h⟩ := bind_ok.1 h
  cases htables
  obtain ⟨t, ht, rfl⟩ : ∃ t, (role, t) ∈ r.tables ∧ table = .arr (t.map DetailRow.toDoc) := by
    have hget : Dict.get? role (r.tables.map fun t => (t.1, Json.arr (t.2.map DetailRow.toDoc))) = some table := subscript_ok.1 htable
    rw [Dict.get?_map fun rows : List DetailRow => Json.arr (rows.map DetailRow.toDoc)] at hget
    obtain ⟨t, ht, htable⟩ := Option.map_eq_some_iff.1 hget
    exact ⟨t, Dict.mem_of_get? ht, htable.symm⟩
  cases hrows
  intro d hd
  obtain ⟨x, hx, hraw⟩ := exists_of_mem_right (mapM_ok_iff.1 h) hd
  obtain ⟨row, hrow, rfl⟩ := List.mem_map.1 hx
  cases hraw
  exact ⟨row, List.mem_flatMap.2 ⟨(role, t), ht, hrow⟩, rfl⟩

/-- A document is in one of the tables. -/
def Screened.Has (s : Screened) (d : Doc) : Prop := ∃ t ∈ s.tables, d ∈ t.2

theorem addTables_ok {r : RaceRecord} {before after : Dict (List Doc)} (h : addTables r.toDoc before = .ok after) :
    ∀ d, (∃ t ∈ after, d ∈ t.2) → (∃ t ∈ before, d ∈ t.2) ∨ ∃ row ∈ r.rows, d = rawDoc row.raw := by
  induction before generalizing after with
  | nil =>
    cases h
    rintro d ⟨t, ht, -⟩
    nomatch ht
  | cons t before ih =>
    obtain ⟨more, hmore, h⟩ := bind_ok.1 h
    obtain ⟨rest, hrest, h⟩ := bind_ok.1 h
    cases h
    rintro d ⟨t', ht', hd⟩
    rcases List.mem_cons.1 ht' with rfl | ht'
    · rcases List.mem_append.1 hd with hd | hd
      · exact .inl ⟨t, List.mem_cons_self, hd⟩
      · exact .inr (rawRows_ok hmore d hd)
    · rcases ih hrest d ⟨t', ht', hd⟩ with ⟨t'', ht'', hd⟩ | hrow
      · exact .inl ⟨t'', List.mem_cons_of_mem _ ht'', hd⟩
      · exact .inr hrow

/-- Either a race is held back, or the rows of its record are added to the tables. -/
theorem screenRecord_ok {hashes : Doc} {s s' : Screened} {r : RaceRecord} (h : screenRecord hashes s r.toDoc = .ok s') :
    (r.quarantineReasons ≠ [] ∧ s'.tables = s.tables ∧ s'.held = s.held ++ [r.heldDoc]) ∨
      (r.quarantineReasons = [] ∧ s'.held = s.held ∧ ∀ d, s'.Has d → s.Has d ∨ ∃ row ∈ r.rows, d = rawDoc row.raw) := by
  obtain ⟨race, hrace, h⟩ := bind_ok.1 h
  cases hrace
  obtain ⟨key, hkey, h⟩ := bind_ok.1 h
  cases hkey
  obtain ⟨expected, -, h⟩ := bind_ok.1 h
  obtain ⟨hash, -, h⟩ := bind_ok.1 h
  obtain ⟨-, h⟩ := demand_bind_ok.1 h
  obtain ⟨reasons, hreasons, h⟩ := bind_ok.1 h
  cases hreasons
  have htruthy : Doc.truthy (texts r.quarantineReasons) = !r.quarantineReasons.isEmpty := by
    cases r.quarantineReasons <;> rfl
  split_ifs at h with hheld
  · cases h
    refine .inl ⟨?_, rfl, rfl⟩
    rintro hnone
    rw [htruthy, hnone] at hheld
    nomatch hheld
  · obtain ⟨tables, htables, h⟩ := bind_ok.1 h
    cases h
    refine .inr ⟨by simpa [htruthy] using hheld, rfl, ?_⟩
    exact addTables_ok htables

/-- The records of an intake, screened: those with reasons are held back, and the tables have the rows of the others. -/
theorem screenRecords_ok {hashes : Doc} {records : List RaceRecord} {s s' : Screened}
    (h : (records.map RaceRecord.toDoc).foldlM (screenRecord hashes) s = .ok s') :
    s'.held = s.held ++ (records.filter fun r => !r.quarantineReasons.isEmpty).map RaceRecord.heldDoc ∧
      ∀ d, s'.Has d → s.Has d ∨ ∃ r ∈ records, r.quarantineReasons = [] ∧ ∃ row ∈ r.rows, d = rawDoc row.raw := by
  induction records generalizing s with
  | nil =>
    cases h
    exact ⟨(List.append_nil _).symm, fun d hd => .inl hd⟩
  | cons r records ih =>
    rw [List.map_cons, List.foldlM_cons] at h
    obtain ⟨next, hnext, h⟩ := bind_ok.1 h
    obtain ⟨hheld, htables⟩ := ih h
    have hlater : ∀ {d}, (∃ r ∈ records, r.quarantineReasons = [] ∧ ∃ row ∈ r.rows, d = rawDoc row.raw) →
        ∃ r' ∈ r :: records, r'.quarantineReasons = [] ∧ ∃ row ∈ r'.rows, d = rawDoc row.raw := by
      rintro d ⟨r', hr', hclear⟩
      exact ⟨r', List.mem_cons_of_mem _ hr', hclear⟩
    rcases screenRecord_ok hnext with ⟨hreasons, hsame, hentry⟩ | ⟨hclear, hsame, hrows⟩
    · refine ⟨?_, fun d hd => ?_⟩
      · rw [hheld, hentry, List.filter_cons_of_pos (by simpa using hreasons), List.map_cons, List.append_assoc]
        rfl
      · rcases htables d hd with hd | hd
        · rw [Screened.Has, hsame] at hd
          exact .inl hd
        · exact .inr (hlater hd)
    · refine ⟨?_, fun d hd => ?_⟩
      · rw [hheld, hsame, List.filter_cons_of_neg (by simpa using hclear)]
      · rcases htables d hd with hd | hd
        · rcases hrows d hd with hd | hd
          · exact .inl hd
          · exact .inr ⟨r, List.mem_cons_self, hclear, hd⟩
        · exact .inr (hlater hd)

/-- A race is held back from every review: it is listed with its reasons, and neither converted nor quarantined by the conversion. -/
def Intake.HeldBack (c : Intake) (key : String) : Prop :=
  match reviewRecords c.toDoc with
  | .error _ => True
  | .ok report => some key ∈ racesIn "detail_quarantined_records" report ∧ some key ∉ racesIn "records" report ∧
      some key ∉ racesIn "quarantined_records" report

/-- The rows of a record are of its race. -/
theorem race_of_mem_rows {rows : List DetailRow} {r : RaceRecord} (hr : r ∈ raceRecords rows) {row : DetailRow} (hrow : row ∈ r.rows) :
    raceId row.raw = r.raceId := by
  obtain ⟨key, -, rfl⟩ := List.mem_map.1 hr
  obtain ⟨t, ht, hrow⟩ := List.mem_flatMap.1 hrow
  obtain ⟨role, -, rfl⟩ := List.mem_map.1 ht
  have hsame := (List.mem_filter.1 hrow).2
  rw [Bool.and_eq_true] at hsame
  exact of_decide_eq_true hsame.1

theorem nodup_races (rows : List DetailRow) : ((raceRecords rows).map RaceRecord.raceId).Nodup := by
  rw [raceRecords, List.map_map]
  show (List.map id _).Nodup
  rw [List.map_id]
  exact (List.perm_insertionSort _ _).nodup_iff.2 (List.nodup_dedup _)

theorem raceKey_rawDoc (raw : Dict String) : raceKey (rawDoc raw) = raceId raw := by
  show ((Dict.get? "Race_ID" (raw.map fun f => (f.1, Json.str f.2))).bind Doc.text?).getD "" = _
  rw [Dict.get?_map Json.str, raceId, Dict.getD]
  cases Dict.get? "Race_ID" raw <;> rfl

/-- The races of what is made of rows are those of rows. -/
theorem races_of_candidates {d : RaceData} {report : Doc} (h : d.candidates = .ok report) {key : String}
    (hkey : some key ∈ racesIn "records" report) : ∃ row, (row ∈ d.info ∨ row ∈ d.results ∨ row ∈ d.payoffs) ∧ raceKey row = key := by
  obtain ⟨kept, items, orphans, hkeeps, hitems, -, henriched⟩ := candidates_ok h
  rw [racesIn_report henriched hitems, List.mem_map] at hkey
  obtain ⟨key, hkey, he⟩ := hkey
  cases he
  obtain ⟨row, hrow, hkey⟩ := mem_raceKeys.1 hkey
  refine ⟨row, ?_, hkey⟩
  rw [List.mem_append, List.mem_append, or_assoc] at hrow
  exact hrow.imp (fun h => (Distinct.keep_sublist hkeeps.info).subset h) <| Or.imp
    (fun h => (Distinct.keep_sublist hkeeps.results).subset h) fun h => (Distinct.keep_sublist hkeeps.payoffs).subset h

theorem has_of_mem_getD {s : Screened} {role : String} {d : Doc} (h : d ∈ Dict.getD s.tables role []) : s.Has d := by
  rw [Dict.getD] at h
  cases hget : Dict.get? role s.tables with
  | none => simp [hget] at h
  | some t =>
    rw [hget] at h
    exact ⟨(role, t), Dict.mem_of_get? hget, h⟩

theorem racesIn_obj (name : String) (fs : Dict Doc) :
    racesIn name (.obj fs) = ((((Dict.get? name fs).getD .null).elements?).getD []).map raceIdOf := rfl

/-- What the review adds to a conversion leaves the races of the other fields. -/
theorem racesIn_reviewed {name : String} (hsummary : name ≠ "summary") (hheld : name ≠ "detail_quarantined_records")
    (hintake : name ≠ "detail_intake_sha256") (summary held hash converted : Doc) :
    racesIn name (.obj (Dict.set "summary" summary (Dict.set "detail_quarantined_records" held
      (Dict.set "detail_intake_sha256" hash converted.entries)))) = racesIn name converted := by
  rw [racesIn_obj, Dict.get?_set_of_ne hsummary, Dict.get?_set_of_ne hheld, Dict.get?_set_of_ne hintake]
  cases converted <;> rfl

/-- A race with a reason is held back. -/
theorem heldBack_of_reason {c : Intake} {r : RaceRecord} (hr : r ∈ c.records) (hreasons : r.quarantineReasons ≠ []) :
    c.HeldBack r.raceId := by
  unfold Intake.HeldBack
  split
  · trivial
  rename_i report h
  obtain ⟨s, hs, h⟩ := bind_ok.1 h
  obtain ⟨normalized, hnormalized, h⟩ := bind_ok.1 h
  obtain ⟨enriched, henriched, h⟩ := bind_ok.1 h
  obtain ⟨converted, hconverted, h⟩ := bind_ok.1 h
  obtain ⟨hash, -, h⟩ := bind_ok.1 h
  cases h
  obtain ⟨schema, -, hs⟩ := bind_ok.1 hs
  obtain ⟨-, hs⟩ := demand_bind_ok.1 hs
  obtain ⟨records, hrecords, hs⟩ := bind_ok.1 hs
  cases hrecords
  obtain ⟨records, hrecords, hs⟩ := bind_ok.1 hs
  cases hrecords
  obtain ⟨hashes, -, hs⟩ := bind_ok.1 hs
  obtain ⟨hheld, htables⟩ := screenRecords_ok hs
  have hmade : RaceData.candidates ⟨Dict.getD s.tables "info" [], Dict.getD s.tables "results" [], Dict.getD s.tables "payoffs" [],
      Dict.getD s.tables "entrants" []⟩ = .ok enriched := bind_ok.2 ⟨normalized, hnormalized, henriched⟩
  -- no row of the race is in the tables
  have hnone : some r.raceId ∉ racesIn "records" enriched := by
    intro hkey
    obtain ⟨row, hrow, hkey⟩ := races_of_candidates hmade hkey
    have hhas : s.Has row := by
      rcases hrow with hrow | hrow | hrow
      · exact has_of_mem_getD hrow
      · exact has_of_mem_getD hrow
      · exact has_of_mem_getD hrow
    rcases htables row hhas with ⟨t, ht, hd⟩ | ⟨r', hr', hclear, row', hrow', rfl⟩
    · obtain ⟨role, -, rfl⟩ := List.mem_map.1 ht
      nomatch hd
    · rw [raceKey_rawDoc, race_of_mem_rows hr' hrow'] at hkey
      have hsame : r' = r := List.inj_on_of_nodup_map (nodup_races c.rows) hr' hr hkey
      exact hreasons (hsame ▸ hclear)
  obtain ⟨out, hout, hperm⟩ := convert_ok hmade
  obtain rfl : converted = out := Except.ok.inj (hconverted.symm.trans hout)
  refine ⟨?_, ?_, ?_⟩
  · rw [racesIn_obj, Dict.get?_set_of_ne (by decide), Dict.get?_set_self]
    show some r.raceId ∈ s.held.map raceIdOf
    rw [hheld]
    refine List.mem_map.2 ⟨r.heldDoc, List.mem_append_right _ (List.mem_map_of_mem (List.mem_filter.2 ⟨hr, ?_⟩)), rfl⟩
    simpa using hreasons
  · rw [racesIn_reviewed (by decide) (by decide) (by decide)]
    exact fun hmem => hnone (hperm.mem_iff.1 (List.mem_append_left _ hmem))
  · rw [racesIn_reviewed (by decide) (by decide) (by decide)]
    exact fun hmem => hnone (hperm.mem_iff.1 (List.mem_append_right _ hmem))

/-! ## The intake -/

/-- The record of the race of a row. -/
theorem exists_record {rows : List DetailRow} {row : DetailRow} (hrow : row ∈ rows) (hrace : isBlank (raceId row.raw) = false)
    (hrole : row.role ∈ roles) : ∃ r ∈ raceRecords rows, r.raceId = raceId row.raw ∧ row ∈ r.rows := by
  have hnamed : row ∈ rows.filter fun row => !isBlank (raceId row.raw) := List.mem_filter.2 ⟨hrow, by simp [hrace]⟩
  refine ⟨_, List.mem_map.2 ⟨raceId row.raw, ?_, rfl⟩, rfl, ?_⟩
  · rw [List.mem_insertionSort, List.mem_dedup]
    exact List.mem_map.2 ⟨row, hnamed, rfl⟩
  · refine List.mem_flatMap.2 ⟨_, List.mem_map.2 ⟨row.role, hrole, rfl⟩, List.mem_filter.2 ⟨hnamed, ?_⟩⟩
    simp

/-- The logical key tells the race. -/
theorem raceId_of_key {role role' : String} {raw raw' : Dict String} (h : logicalKey role raw = logicalKey role' raw') :
    raceId raw' = raceId raw := by
  have hhead : ∀ (role : String) (raw : Dict String), (logicalKey role raw).head? = some (raceId raw) := by
    intro role raw
    unfold logicalKey keyFields
    split_ifs <;> rfl
  have he := congrArg List.head? h
  rw [hhead, hhead] at he
  exact (Option.some.inj he).symm

end Keirin.HistoricalDetails

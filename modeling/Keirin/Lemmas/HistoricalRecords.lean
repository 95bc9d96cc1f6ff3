import Keirin.Lemmas.HistoricalEntrants

/-!
# What a candidate becomes

The rows a candidate carries are of its race and do not repeat one another, so keeping them again changes nothing and they make
this candidate again. A candidate therefore always becomes a record or a quarantined candidate.
-/

namespace Keirin.HistoricalRecords

open HistoricalPayouts HistoricalEntrants

/-- Rows of one race, none of which repeats another. -/
structure RaceRows (missing key : String) (rows : List Doc) : Prop where
  race : ∀ row ∈ rows, raceKey row = key
  distinct : Distinct.keep (fingerprint missing) [] rows = .ok rows

/-- The rows of a race that were kept are such rows. -/
theorem raceRows_of_keep {missing key : String} {rows kept : List Doc} (h : Distinct.keep (fingerprint missing) [] rows = .ok kept) :
    RaceRows missing key (rowsOf key kept) where
  race _ hrow := raceKey_of_mem_rowsOf hrow
  distinct := Distinct.keep_again h List.filter_sublist

theorem RaceRows.rowsOf {missing key : String} {rows : List Doc} (h : RaceRows missing key rows) :
    HistoricalPayouts.rowsOf key rows = rows :=
  List.filter_eq_self.2 fun row hrow => by simpa using h.race row hrow

/-- The candidate of a race, with the rows it was made of. -/
structure Replayable (key : String) (item : Dict Doc) : Prop where
  made : ∃ info results payoffs entrants, RaceRows "race_id_missing" key info ∧ RaceRows "race_id_missing" key results ∧
    RaceRows "race_id_missing" key payoffs ∧ RaceRows "entrant_race_id_missing" key entrants ∧ info ++ results ++ payoffs ≠ [] ∧
      raceCandidate key info results payoffs entrants = .ok item

section Replay

variable {key : String} {info results payoffs entrants : List Doc} {item : Dict Doc}

/-- The rows of a candidate make the candidate again. -/
theorem enrich_again (hi : RaceRows "race_id_missing" key info) (hr : RaceRows "race_id_missing" key results)
    (hp : RaceRows "race_id_missing" key payoffs) (he : RaceRows "entrant_race_id_missing" key entrants)
    (hne : info ++ results ++ payoffs ≠ []) (hkey : key ≠ "") (h : raceCandidate key info results payoffs entrants = .ok item) :
    ∃ normalized enriched, normalize info results payoffs = .ok normalized ∧ enrich normalized (.arr entrants) = .ok enriched ∧
      IsEnriched [item] [] enriched := by
  have hitem := (raceCandidate_ok h).1
  obtain ⟨source, hsource, hjoin⟩ := bind_ok.1 h
  obtain ⟨base, d, -, hset, -, hbase, -⟩ := candidate_ok hsource
  have hrace : Dict.get? "race_id" source = some (.str key) := by
    rw [hset, Dict.get?_set_of_ne (by decide)]
    exact hbase.race
  have hkeys : raceKeys (info ++ results ++ payoffs) = [key] := by
    refine raceKeys_eq_singleton (fun row hrow => ?_) hne
    rcases List.mem_append.1 hrow with hrow | hrow
    · rcases List.mem_append.1 hrow with hrow | hrow
      · exact hi.race row hrow
      · exact hr.race row hrow
    · exact hp.race row hrow
  have hrecords : List.Forall₂ (fun key item => candidate key (rowsOf key info) (rowsOf key results) (rowsOf key payoffs) = .ok item)
      (raceKeys (info ++ results ++ payoffs)) [source] := by
    rw [hkeys]
    refine .cons ?_ .nil
    rw [hi.rowsOf, hr.rowsOf, hp.rowsOf, hsource]
  obtain ⟨normalized, hnormalized, hreport⟩ := normalize_of hi.distinct hr.distinct hp.distinct hrecords
  obtain ⟨enriched, henriched, his⟩ := enrich_of hreport he.distinct hrace hkey he.race hjoin hitem.race
  exact ⟨normalized, enriched, hnormalized, henriched, his⟩

theorem getD_of_get? {fs : Dict Doc} {name : String} {v : Doc} (h : Dict.get? name fs = some v) (w : Doc) : Dict.getD fs name w = v := by
  rw [Dict.getD, h, Option.getD_some]

/-- The statuses of a candidate that is normalized and joined. -/
theorem matched_iff : matched item = true ↔
    Dict.getD item "normalization_status" .null = .str "internally_consistent_candidate" ∧
      Dict.getD item "entrant_join_status" .null = .str "matched_unverified_features" := by
  simp [matched]

/-- The fields a replay compares have keys that stand once. -/
theorem keysOnce_replayFields {raw : Doc} (h : Entered key raw entrants item) (hn : Normalized item) (hm : matched item = true) :
    ∀ name ∈ replayFields, (Dict.getD item name .null).keysOnce = true := by
  obtain ⟨hstatus, hjoin⟩ := matched_iff.1 hm
  obtain ⟨ps, hps⟩ := hn.participants
  obtain ⟨exacta, trifecta, hexacta, htrifecta, hsettlements⟩ := hn.settlements
  obtain ⟨fs, hfs, honce⟩ := h.features
  obtain ⟨date, hdate⟩ := hn.date
  obtain ⟨venue, hvenue⟩ := hn.venue
  obtain ⟨number, hnumber⟩ := hn.number
  obtain ⟨starters, hstarters⟩ := hn.starters
  obtain ⟨s, hs⟩ := h.rowsDigest
  obtain ⟨t, ht⟩ := h.entrantsDigest
  obtain ⟨parent, hparent⟩ := h.parent
  have hparticipants : (Json.arr (ps.map Participant.toDoc)).keysOnce = true := by
    simp [Json.keysOnce, Json.keysOnceList_eq, keysOnce_participant]
  have hboth : (Json.obj [("2車単", exacta.toDoc), ("3連単", trifecta.toDoc)]).keysOnce = true := by
    simp [Json.keysOnce, Json.keysOnceFields, hexacta, htrifecta]
  simp only [replayFields, List.forall_mem_cons, List.not_mem_nil, false_implies, implies_true, and_true, hstatus, hjoin,
    getD_of_get? hps, getD_of_get? hsettlements, getD_of_get? hfs, getD_of_get? hdate, getD_of_get? hvenue, getD_of_get? hnumber,
    getD_of_get? hstarters, getD_of_get? hs, getD_of_get? ht, getD_of_get? hparent]
  exact ⟨rfl, rfl, hparticipants, hboth, honce, rfl, rfl, rfl, rfl, rfl, rfl, rfl⟩

/-- The replay of a candidate agrees with it. -/
theorem replayOf_self (hi : RaceRows "race_id_missing" key info) (hr : RaceRows "race_id_missing" key results)
    (hp : RaceRows "race_id_missing" key payoffs) (he : RaceRows "entrant_race_id_missing" key entrants)
    (hne : info ++ results ++ payoffs ≠ []) (hkey : key ≠ "") (h : raceCandidate key info results payoffs entrants = .ok item)
    (hm : matched item = true) : replayOf key item = .ok item := by
  obtain ⟨hitem, hnormalized⟩ := raceCandidate_ok h
  obtain ⟨normalized, enriched, hfirst, hsecond, rest, rfl, -⟩ := enrich_again hi hr hp he hne hkey h
  have honce := keysOnce_replayFields hitem (hnormalized (matched_iff.1 hm).1) hm
  unfold replayOf
  rw [getD_of_get? hitem.raw, subscript_of_get? hitem.entrants]
  refine bind_ok.2 ⟨_, rfl, bind_ok.2 ⟨_, rfl, bind_ok.2 ⟨_, rfl, bind_ok.2 ⟨info, rfl, bind_ok.2 ⟨results, rfl,
    bind_ok.2 ⟨payoffs, rfl, bind_ok.2 ⟨normalized, hfirst, bind_ok.2 ⟨_, rfl, bind_ok.2 ⟨_, hsecond, bind_ok.2 ⟨_, rfl,
    bind_ok.2 ⟨_, rfl, require_bind_ok.2 ⟨item, ?_, demand_bind_ok.2 ⟨?_, rfl⟩⟩⟩⟩⟩⟩⟩⟩⟩⟩⟩⟩⟩
  · simp [getD_of_get? hitem.race]
  · exact List.all_eq_true.2 fun name hname => Doc.pyEq_self _ (honce name hname)

end Replay

/-! ## Records -/

/-- The race of a record or of a quarantined candidate. -/
def raceIdOf (v : Doc) : Option String := (v.field "race_id").text?

theorem combinations_ok (payouts : List Payout) : ∃ combinations, (payouts.map Payout.toDoc).mapM (subscript · "combination") =
    .ok combinations ∧ ∀ c ∈ combinations, c.finite = true := by
  refine ⟨payouts.map fun p => .arr (p.combination.map fun (c : ℕ) => .num (.int c)), ?_, ?_⟩
  · rw [mapM_ok_iff, List.forall₂_map_left_iff, List.forall₂_map_right_iff]
    exact List.forall₂_same.2 fun p _ => rfl
  · simp

theorem recordOf_ok {key : String} {raw : Doc} {rows : List Doc} {item : Dict Doc} (h : Entered key raw rows item)
    (hn : Normalized item) (hf : Doc.finite (.obj item) = true) (inputHash : String) :
    ∃ record, recordOf key inputHash item item = .ok record ∧ record.finite = true ∧ raceIdOf record = some key := by
  obtain ⟨ps, hps⟩ := hn.participants
  obtain ⟨exacta, trifecta, -, -, hsettlements⟩ := hn.settlements
  obtain ⟨fs, hfs, -⟩ := h.features
  obtain ⟨date, hdate⟩ := hn.date
  obtain ⟨venue, hvenue⟩ := hn.venue
  obtain ⟨number, hnumber⟩ := hn.number
  obtain ⟨starters, hstarters⟩ := hn.starters
  obtain ⟨s, hs⟩ := h.rowsDigest
  obtain ⟨t, ht⟩ := h.entrantsDigest
  obtain ⟨combinations, hcombinations, hcf⟩ := combinations_ok trifecta.outcomes
  have hparticipants := Doc.finite_get? hf hps
  have hfeatures := Doc.finite_get? hf hfs
  have hboth := Doc.finite_get? hf hsettlements
  rw [Doc.finite_obj] at hboth
  simp only [List.all_cons, List.all_nil, Bool.and_true, Bool.and_eq_true] at hboth
  refine ⟨_, bind_ok.2 ⟨_, subscript_of_get? hsettlements, bind_ok.2 ⟨trifecta.toDoc, rfl, bind_ok.2 ⟨_, rfl, bind_ok.2 ⟨_, rfl,
    bind_ok.2 ⟨_, rfl, bind_ok.2 ⟨combinations, hcombinations, bind_ok.2 ⟨_, subscript_of_get? hps, bind_ok.2 ⟨_, rfl,
    bind_ok.2 ⟨_, subscript_of_get? hdate, bind_ok.2 ⟨_, subscript_of_get? hvenue, bind_ok.2 ⟨_, subscript_of_get? hnumber,
    bind_ok.2 ⟨_, subscript_of_get? hstarters, bind_ok.2 ⟨_, subscript_of_get? hfs, bind_ok.2 ⟨_, subscript_of_get? hs,
    bind_ok.2 ⟨_, subscript_of_get? ht, rfl⟩⟩⟩⟩⟩⟩⟩⟩⟩⟩⟩⟩⟩⟩⟩, ?_, rfl⟩
  have hcomb : Doc.finite (.arr combinations) = true := by simpa using hcf
  simp [-Doc.finite_arr, hparticipants, hfeatures, hboth.2, hcomb, Doc.finite_getD hf]
  simp [Doc.finite_getD hf]

theorem quarantineOf_ok {key : String} {raw : Doc} {rows : List Doc} {item : Dict Doc} (h : Entered key raw rows item) :
    ∃ quarantined, quarantineOf key item = .ok quarantined ∧ raceIdOf quarantined = some key := by
  obtain ⟨rs, hrs⟩ := h.reasons
  obtain ⟨js, hjs⟩ := h.joinReasons
  refine ⟨_, bind_ok.2 ⟨.arr (rs ++ js), ?_, rfl⟩, rfl⟩
  rw [getD_of_get? hrs, getD_of_get? hjs]
  rfl

/-- A candidate that could be made is finite. -/
theorem finite_of_entered {key : String} {raw : Doc} {rows : List Doc} {item : Dict Doc} (h : Entered key raw rows item) :
    Doc.finite (.obj item) = true := by
  obtain ⟨d, hd, hdigest⟩ := h.own
  rw [hd]
  exact Doc.finite_set (finite_of_digest hdigest) _ rfl

/-- What a candidate becomes is of its race. -/
def Made (key : String) : Doc ⊕ Doc → Prop
  | .inl record => record.finite = true ∧ raceIdOf record = some key
  | .inr quarantined => raceIdOf quarantined = some key

theorem convertCandidate_ok {key : String} {item : Dict Doc} (h : Replayable key item) (hkey : key ≠ "") (inputHash : String) :
    ∃ made, convertCandidate key inputHash item = .ok made ∧ Made key made := by
  obtain ⟨info, results, payoffs, entrants, hi, hr, hp, he, hne, hmade⟩ := h.made
  obtain ⟨hitem, hnormalized⟩ := raceCandidate_ok hmade
  obtain ⟨d, hset, hdigest⟩ := hitem.own
  have hd : Dict.getD item "candidate_sha256" .null = .str d := by
    rw [hset]
    exact Dict.getD_set_self _ _ _ _
  unfold convertCandidate
  rw [hdigest]
  by_cases hm : matched item = true
  · obtain ⟨record, hrecord, hfinite, hrace⟩ :=
      recordOf_ok hitem (hnormalized (matched_iff.1 hm).1) (finite_of_entered hitem) inputHash
    refine ⟨.inl record, bind_ok.2 ⟨d, rfl, demand_bind_ok.2 ⟨by simp [hd], ?_⟩⟩, hfinite, hrace⟩
    rw [if_pos hm]
    exact bind_ok.2 ⟨item, replayOf_self hi hr hp he hne hkey hmade hm, bind_ok.2 ⟨record, hrecord, rfl⟩⟩
  · obtain ⟨quarantined, hquarantined, hrace⟩ := quarantineOf_ok hitem
    refine ⟨.inr quarantined, bind_ok.2 ⟨d, rfl, demand_bind_ok.2 ⟨by simp [hd], ?_⟩⟩, hrace⟩
    rw [if_neg hm]
    exact bind_ok.2 ⟨quarantined, hquarantined, rfl⟩

/-- All candidates become something, each of its race, when the races are distinct and not blank. -/
theorem convertAll_ok (inputHash : String) {keys : List String} (seen : List String) {items : List (Dict Doc)}
    (h : List.Forall₂ Replayable keys items) (hblank : ∀ key ∈ keys, isBlank key = false) (hnodup : keys.Nodup)
    (hseen : ∀ key ∈ keys, key ∉ seen) :
    ∃ made, convertAll inputHash seen (items.map .obj) = .ok made ∧ made.map Prod.fst = keys ∧ ∀ m ∈ made, Made m.1 m.2 := by
  induction h generalizing seen with
  | nil => exact ⟨[], rfl, rfl, by simp⟩
  | @cons key item keys items hitem _ ih =>
    rw [List.forall_mem_cons] at hblank hseen
    rw [List.nodup_cons] at hnodup
    obtain ⟨made, hmade, hof⟩ := convertCandidate_ok hitem (by
      rintro rfl
      exact absurd hblank.1 (by decide)) inputHash
    obtain ⟨rest, hrest, hkeys, hall⟩ := ih (key :: seen) hblank.2 hnodup.2 fun k hk => by
      rw [List.mem_cons, not_or]
      exact ⟨fun he => hnodup.1 (he ▸ hk), hseen.2 k hk⟩
    obtain ⟨_, _, _, _, -, -, -, -, -, hcandidate⟩ := hitem.made
    have hrace := (raceCandidate_ok hcandidate).1.race
    refine ⟨(key, made) :: rest, require_bind_ok.2 ⟨item, rfl, demand_bind_ok.2 ⟨?_, ?_⟩⟩, by rw [List.map_cons, hkeys],
      List.forall_mem_cons.2 ⟨hof, hall⟩⟩
    · simp [getD_of_get? hrace, Doc.text?, hblank.1, hseen.1]
    · rw [getD_of_get? hrace]
      exact bind_ok.2 ⟨made, hmade, bind_ok.2 ⟨rest, hrest, rfl⟩⟩

/-! ## Reports -/

/-- The rows of the four files. -/
structure RaceData where
  info : List Doc
  results : List Doc
  payoffs : List Doc
  entrants : List Doc

/-- `enrich(normalize(info, results, payoffs), entrants)` -/
def RaceData.candidates (d : RaceData) : Except PyError Doc := do
  let normalized ← normalize d.info d.results d.payoffs
  enrich normalized (.arr d.entrants)

/-- The rows of each file that are kept. -/
structure RaceData.Keeps (d kept : RaceData) : Prop where
  info : Distinct.keep (fingerprint "race_id_missing") [] d.info = .ok kept.info
  results : Distinct.keep (fingerprint "race_id_missing") [] d.results = .ok kept.results
  payoffs : Distinct.keep (fingerprint "race_id_missing") [] d.payoffs = .ok kept.payoffs
  entrants : Distinct.keep (fingerprint "entrant_race_id_missing") [] d.entrants = .ok kept.entrants

/-- The races of the rows that become candidates. -/
def RaceData.races (d : RaceData) : List String := raceKeys (d.info ++ d.results ++ d.payoffs)

/-- The candidate of a race from the rows of the race. -/
def RaceData.candidateOf (d : RaceData) (key : String) : Except PyError (Dict Doc) :=
  raceCandidate key (rowsOf key d.info) (rowsOf key d.results) (rowsOf key d.payoffs) (rowsOf key d.entrants)

/-- The candidates are those of the races of the rows that were kept, each from the rows of its race. -/
theorem candidates_ok {d : RaceData} {report : Doc} (h : d.candidates = .ok report) :
    ∃ kept items orphans, d.Keeps kept ∧ List.Forall₂ (fun key item => kept.candidateOf key = .ok item) kept.races items ∧
      (∀ o ∈ orphans, o.finite = true) ∧ IsEnriched items orphans report := by
  obtain ⟨normalized, hnormalized, h⟩ := bind_ok.1 h
  obtain ⟨i, r, p, sources, hi, hr, hp, hsources, hreport⟩ := normalize_ok hnormalized
  obtain ⟨e, items, orphans, he, hitems, horphans, henriched⟩ := enrich_ok hreport h
  refine ⟨⟨i, r, p, e⟩, items, orphans, ⟨hi, hr, hp, he⟩, ?_, horphans, henriched⟩
  clear hnormalized hi hr hp he horphans henriched hreport h
  show List.Forall₂ _ (raceKeys (i ++ r ++ p)) items
  generalize raceKeys (i ++ r ++ p) = keys at hsources
  induction hsources generalizing items with
  | nil =>
    cases hitems
    exact .nil
  | @cons key source keys sources hsource _ ih =>
    obtain ⟨item, rest, ⟨key', hkey', hjoin⟩, hrest, rfl⟩ := List.forall₂_cons_left_iff.1 hitems
    obtain ⟨base, s, -, hset, -, hbase, -⟩ := candidate_ok hsource
    have hrace : Dict.get? "race_id" source = some (.str key) := by
      rw [hset, Dict.get?_set_of_ne (by decide)]
      exact hbase.race
    obtain rfl : key = key' := by simpa [getD_of_get? hrace] using hkey'
    exact .cons (bind_ok.2 ⟨source, hsource, hjoin⟩) (ih rest hrest)

theorem Keeps.replayable {d kept : RaceData} (h : d.Keeps kept) {key : String} (hkey : key ∈ kept.races) {item : Dict Doc}
    (hitem : kept.candidateOf key = .ok item) : Replayable key item := by
  refine ⟨_, _, _, _, raceRows_of_keep h.info, raceRows_of_keep h.results, raceRows_of_keep h.payoffs, raceRows_of_keep h.entrants,
    ?_, hitem⟩
  obtain ⟨row, hrow, rfl⟩ := mem_raceKeys.1 hkey
  have hmem : row ∈ rowsOf (raceKey row) (kept.info ++ kept.results ++ kept.payoffs) := List.mem_filter.2 ⟨hrow, by simp⟩
  unfold HistoricalPayouts.rowsOf at hmem ⊢
  rw [List.filter_append, List.filter_append] at hmem
  exact List.ne_nil_of_mem hmem

/-- The races of rows that were kept are not blank. -/
theorem Keeps.not_blank {d kept : RaceData} (h : d.Keeps kept) : ∀ key ∈ kept.races, isBlank key = false := by
  intro key hkey
  obtain ⟨row, hrow, rfl⟩ := mem_raceKeys.1 hkey
  have hdefined : ∃ s, fingerprint "race_id_missing" row = .ok s := by
    rcases List.mem_append.1 hrow with hrow | hrow
    · rcases List.mem_append.1 hrow with hrow | hrow
      · exact Distinct.keep_defined h.info row ((Distinct.keep_sublist h.info).subset hrow)
      · exact Distinct.keep_defined h.results row ((Distinct.keep_sublist h.results).subset hrow)
    · exact Distinct.keep_defined h.payoffs row ((Distinct.keep_sublist h.payoffs).subset hrow)
  obtain ⟨s, hs⟩ := hdefined
  exact race_of_fingerprint hs

/-! ## Conversion -/

/-- The races of the elements of a field. -/
def racesIn (name : String) (report : Doc) : List (Option String) := ((report.field name).elements?.getD []).map raceIdOf

theorem finite_report {items : List (Dict Doc)} {orphans : List Doc} {report : Doc} (h : IsEnriched items orphans report)
    (hitems : ∀ item ∈ items, Doc.finite (.obj item) = true) (horphans : ∀ o ∈ orphans, o.finite = true) : report.finite = true := by
  obtain ⟨rest, rfl, hrest⟩ := h
  have hrecords : Doc.finite (.arr (items.map .obj)) = true := by
    rw [Doc.finite_arr, List.all_map, List.all_eq_true]
    exact hitems
  have horphaned : Doc.finite (.arr orphans) = true := by
    rw [Doc.finite_arr, List.all_eq_true]
    exact horphans
  rw [Doc.finite_obj, List.all_eq_true]
  intro f hf
  rcases List.mem_cons.1 hf with rfl | hf
  · rfl
  · rcases List.mem_cons.1 hf with rfl | hf
    · exact hrecords
    · rcases List.mem_cons.1 hf with rfl | hf
      · exact horphaned
      · exact hrest f hf

theorem recordHashes_ok {records : List (String × Doc)} (h : ∀ r ∈ records, r.2.finite = true) :
    ∃ hashes, recordHashes records = .ok hashes := by
  induction records with
  | nil => exact ⟨[], rfl⟩
  | cons r records ih =>
    rw [List.forall_mem_cons] at h
    obtain ⟨d, hd⟩ := digest_of_finite h.1
    obtain ⟨rest, hrest⟩ := ih h.2
    exact ⟨_, bind_ok.2 ⟨d, hd, bind_ok.2 ⟨rest, hrest, rfl⟩⟩⟩

/-- The records and the quarantined candidates together are of the races of the candidates. -/
theorem perm_races {made : List (String × (Doc ⊕ Doc))} (h : ∀ m ∈ made, Made m.1 m.2) :
    (((recordsOf made).map Prod.snd).map raceIdOf ++ ((quarantinedOf made).map Prod.snd).map raceIdOf).Perm
      ((made.map Prod.fst).map some) := by
  induction made with
  | nil => exact .nil
  | cons m made ih =>
    obtain ⟨key, v⟩ := m
    rw [List.forall_mem_cons] at h
    cases v with
    | inl record =>
      have hrace : raceIdOf record = some key := h.1.2
      simp only [recordsOf, quarantinedOf, List.filterMap_cons, Sum.getLeft?_inl, Sum.getRight?_inl, Option.map_some, Option.map_none,
        List.map_cons, List.cons_append, hrace]
      exact (ih h.2).cons (some key)
    | inr quarantined =>
      have hrace : raceIdOf quarantined = some key := h.1
      simp only [recordsOf, quarantinedOf, List.filterMap_cons, Sum.getLeft?_inr, Sum.getRight?_inr, Option.map_some, Option.map_none,
        List.map_cons, hrace]
      exact List.perm_middle.trans ((ih h.2).cons (some key))

/-- The races of the candidates of a report. -/
theorem racesIn_report {kept : RaceData} {keys : List String} {items : List (Dict Doc)} {orphans : List Doc} {report : Doc}
    (h : IsEnriched items orphans report) (hitems : List.Forall₂ (fun key item => kept.candidateOf key = .ok item) keys items) :
    racesIn "records" report = keys.map some := by
  obtain ⟨rest, rfl, -⟩ := h
  show (items.map Json.obj).map raceIdOf = keys.map some
  induction hitems with
  | nil => rfl
  | @cons key item keys items hitem _ ih =>
    have hrace := (raceCandidate_ok hitem).1.race
    rw [List.map_cons, List.map_cons, List.map_cons, ih]
    simp [raceIdOf, Doc.field, Json.get?, hrace, Doc.text?]

/-- A report of candidates that could be made is always converted. -/
theorem convert_ok {d : RaceData} {report : Doc} (h : d.candidates = .ok report) :
    ∃ out, convert report = .ok out ∧
      (racesIn "records" out ++ racesIn "quarantined_records" out).Perm (racesIn "records" report) := by
  obtain ⟨kept, items, orphans, hkeeps, hitems, horphans, henriched⟩ := candidates_ok h
  have hraces := racesIn_report henriched hitems
  have hmem : List.Forall₂ (fun key item => key ∈ kept.races ∧ kept.candidateOf key = .ok item) kept.races items :=
    (List.forall₂_and_left _ _).2 ⟨fun key hkey => hkey, hitems⟩
  have hreplay : List.Forall₂ Replayable kept.races items := hmem.imp fun key item hki => Keeps.replayable hkeeps hki.1 hki.2
  have hfinite : report.finite = true := by
    refine finite_report henriched (fun item hitem => ?_) horphans
    obtain ⟨key, -, hkey⟩ := exists_of_mem_right hitems hitem
    exact finite_of_entered (raceCandidate_ok hkey).1
  obtain ⟨inputHash, hhash⟩ := digest_of_finite hfinite
  obtain ⟨made, hmade, hkeys, hall⟩ := convertAll_ok inputHash [] hreplay (Keeps.not_blank hkeeps)
    (nodup_raceKeys _) (by simp)
  obtain ⟨hashes, hhashes⟩ : ∃ hashes, recordHashes (recordsOf made) = .ok hashes := by
    refine recordHashes_ok fun r hr => ?_
    obtain ⟨m, hm, hmr⟩ := List.mem_filterMap.1 hr
    obtain ⟨key, record | quarantined⟩ := m
    · obtain rfl : (key, record) = r := Option.some.inj hmr
      exact (hall _ hm).1
    · nomatch hmr
  obtain ⟨rest, rfl, -⟩ := henriched
  refine ⟨_, require_bind_ok.2 ⟨_, rfl, require_bind_ok.2 ⟨_, rfl, bind_ok.2 ⟨inputHash, hhash, bind_ok.2 ⟨made, hmade,
    bind_ok.2 ⟨hashes, hhashes, rfl⟩⟩⟩⟩⟩, ?_⟩
  rw [hraces, ← hkeys]
  exact perm_races hall

end Keirin.HistoricalRecords

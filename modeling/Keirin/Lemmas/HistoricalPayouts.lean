import Keirin.HistoricalPayouts
import Keirin.Lemmas.PythonData

/-!
# The payout candidate of a race

What a candidate holds whatever its checks said (`Carries`), and what it holds besides where they passed (`Normalized`). The
report is the candidates of the races, each made of the rows of its race that were kept.
-/

namespace Keirin.HistoricalPayouts

theorem demand_bind_ok {α : Type} {condition : Bool} {message : String} {f : Unit → Except PyError α} {a : α} :
    (demand condition message >>= f) = .ok a ↔ condition = true ∧ f () = .ok a := by
  rw [demand, raiseIf_bind_ok, Bool.not_eq_false]

theorem require_bind_ok {α β : Type} {x : Option α} {message : String} {f : α → Except PyError β} {b : β} :
    (require x message >>= f) = .ok b ↔ ∃ a, x = some a ∧ f a = .ok b := by
  simp only [bind_ok, require_ok]

/-! ## The parts of a candidate -/

theorem keysOnce_participant (p : Participant) : p.toDoc.keysOnce = true := by
  cases hr : p.finishRank <;> simp [Participant.toDoc, ofRank, hr, Json.keysOnce, Json.keysOnceFields]

theorem keysOnce_payout (p : Payout) : p.toDoc.keysOnce = true := by
  simp [Payout.toDoc, Json.keysOnce, Json.keysOnceFields, Json.keysOnceList_eq]

theorem keysOnce_settlement {s : Settlement} (h : Json.keysOnceList s.changes = true) : s.toDoc.keysOnce = true := by
  have hp : Json.keysOnceList (s.outcomes.map Payout.toDoc) = true := by
    simp [Json.keysOnceList_eq, keysOnce_payout]
  simp [Settlement.toDoc, Json.keysOnce, Json.keysOnceFields, h, hp]

/-- What was read as an outcome is a text. -/
theorem parseOrdered_ok {raw : Doc} {width : ℕ} {read : List ℕ × String} (h : parseOrdered raw width = .ok read) :
    ∃ s, raw = .str s := by
  obtain ⟨s, hs, -⟩ := bind_ok.1 h
  cases raw with
  | str t => exact ⟨t, rfl⟩
  | _ => nomatch hs

theorem keysOnce_changeOf {row raw : Doc} {cars : List ℕ} {rule : String} {changes : List Doc}
    (h : changeOf row raw cars rule = .ok changes) (hraw : ∃ s, raw = .str s) : Json.keysOnceList changes = true := by
  obtain ⟨s, rfl⟩ := hraw
  unfold changeOf at h
  split_ifs at h
  · cases h
    rfl
  · obtain ⟨source, -, h⟩ := bind_ok.1 h
    cases h
    simp [Json.keysOnceList, Json.keysOnce, Json.keysOnceFields]

theorem keysOnce_payoutsOf {expected : List (List ℕ)} {width : ℕ} {found : List (List ℕ)} {rows : List Doc}
    {paid : List Payout × List Doc} (h : payoutsOf expected width found rows = .ok paid) : Json.keysOnceList paid.2 = true := by
  induction rows generalizing found paid with
  | nil =>
    cases h
    rfl
  | cons row rows ih =>
    obtain ⟨raw, -, h⟩ := bind_ok.1 h
    obtain ⟨read, hread, h⟩ := bind_ok.1 h
    obtain ⟨-, h⟩ := demand_bind_ok.1 h
    obtain ⟨-, h⟩ := demand_bind_ok.1 h
    obtain ⟨_, -, h⟩ := bind_ok.1 h
    obtain ⟨amount, -, h⟩ := bind_ok.1 h
    obtain ⟨change, hchange, h⟩ := bind_ok.1 h
    obtain ⟨rest, hrest, h⟩ := bind_ok.1 h
    cases h
    have hfirst := keysOnce_changeOf hchange (parseOrdered_ok hread)
    have htail := ih hrest
    rw [Json.keysOnceList_eq] at hfirst htail ⊢
    rw [List.all_append, hfirst, htail]
    rfl

theorem settlement_ok {rows : List Doc} {groups : List (List ℕ)} {width : ℕ} {s : Settlement}
    (h : settlement rows groups width = .ok s) : s.toDoc.keysOnce = true := by
  obtain ⟨-, h⟩ := demand_bind_ok.1 h
  by_cases hempty : (outcomes groups width).isEmpty = true
  · rw [if_pos hempty] at h
    obtain ⟨refund, -, h⟩ := bind_ok.1 h
    obtain ⟨-, h⟩ := demand_bind_ok.1 h
    cases h
    exact keysOnce_settlement rfl
  · rw [if_neg hempty] at h
    obtain ⟨paid, hpaid, h⟩ := bind_ok.1 h
    obtain ⟨-, h⟩ := demand_bind_ok.1 h
    cases h
    exact keysOnce_settlement (keysOnce_payoutsOf hpaid)

/-! ## The candidate -/

/-- What a candidate holds whatever its checks said. -/
structure Carries (key : String) (raw : Doc) (item : Dict Doc) : Prop where
  race : Dict.get? "race_id" item = some (.str key)
  rows : Dict.get? "raw" item = some raw
  rowsDigest : ∃ s, Dict.get? "raw_sha256" item = some (.str s)
  features : Dict.get? "pre_race_features" item = some (.arr [])
  reasons : ∃ rs, Dict.get? "reasons" item = some (.arr rs)

/-- What a candidate holds where its checks passed. -/
structure Normalized (item : Dict Doc) : Prop where
  date : ∃ s, Dict.get? "race_date" item = some (.str s)
  venue : ∃ s, Dict.get? "venue" item = some (.str s)
  number : ∃ n, Dict.get? "race_number" item = some (.num (.int n))
  participants : ∃ ps : List Participant, Dict.get? "participants" item = some (.arr (ps.map Participant.toDoc))
  starters : ∃ n, Dict.get? "actual_starters" item = some (.num (.int n))
  settlements : ∃ exacta trifecta : Settlement, exacta.toDoc.keysOnce = true ∧ trifecta.toDoc.keysOnce = true ∧
    Dict.get? "settlements" item = some (.obj [("2車単", exacta.toDoc), ("3連単", trifecta.toDoc)])

/-- The names of the fields a race that is consistent adds. -/
def consistentNames : List String :=
  ["normalization_status", "race_date", "venue", "race_number", "participants", "finish_order_groups", "listed_result_roster_count",
    "actual_starters", "settlements", "result_status_changes"]

theorem concatText_ok {a s : String} {v : Doc} (h : concatText a v = .ok s) : ∃ t, v = .str t := by
  cases v with
  | str t => exact ⟨t, rfl⟩
  | _ => nomatch h

theorem consistentFields_ok {key : String} {info results payoffs : List Doc} {fields : Dict Doc}
    (h : consistentFields key info results payoffs = .ok fields) : fields.map Prod.fst = consistentNames ∧ Normalized fields := by
  obtain ⟨metadata, -, h⟩ := require_bind_ok.1 h
  obtain ⟨status, -, h⟩ := bind_ok.1 h
  obtain ⟨-, h⟩ := demand_bind_ok.1 h
  obtain ⟨_, -, h⟩ := bind_ok.1 h
  obtain ⟨date, -, h⟩ := bind_ok.1 h
  obtain ⟨-, h⟩ := demand_bind_ok.1 h
  obtain ⟨isoDate, -, h⟩ := bind_ok.1 h
  obtain ⟨_, -, h⟩ := bind_ok.1 h
  obtain ⟨number, -, h⟩ := bind_ok.1 h
  obtain ⟨n, -, h⟩ := require_bind_ok.1 h
  obtain ⟨venue, -, h⟩ := bind_ok.1 h
  obtain ⟨place, hplace, h⟩ := bind_ok.1 h
  obtain ⟨-, h⟩ := demand_bind_ok.1 h
  obtain ⟨unit, -, h⟩ := bind_ok.1 h
  obtain ⟨size, -, h⟩ := bind_ok.1 h
  obtain ⟨-, h⟩ := demand_bind_ok.1 h
  obtain ⟨found, -, h⟩ := bind_ok.1 h
  obtain ⟨exactaRows, -, h⟩ := bind_ok.1 h
  obtain ⟨exacta, hexacta, h⟩ := bind_ok.1 h
  obtain ⟨trifectaRows, -, h⟩ := bind_ok.1 h
  obtain ⟨trifecta, htrifecta, h⟩ := bind_ok.1 h
  obtain ⟨t, rfl⟩ := concatText_ok hplace
  cases h
  exact ⟨rfl, ⟨isoDate, rfl⟩, ⟨t, rfl⟩, ⟨n, rfl⟩, ⟨found.2.1, rfl⟩, ⟨_, rfl⟩,
    ⟨exacta, trifecta, settlement_ok hexacta, settlement_ok htrifecta, rfl⟩⟩

/-- The fields written over a mapping are in it, and the others are as they were. -/
theorem get?_update {α : Type} (fields : Dict α) (hnodup : (fields.map Prod.fst).Nodup) (item : Dict α) (key : String) :
    Dict.get? key (Dict.update item fields) = (Dict.get? key fields).or (Dict.get? key item) := by
  induction fields generalizing item with
  | nil => rfl
  | cons f fields ih =>
    obtain ⟨k, v⟩ := f
    rw [List.map_cons, List.nodup_cons] at hnodup
    rw [Dict.update, List.foldl_cons, ← Dict.update, ih hnodup.2]
    by_cases hk : k = key
    · subst hk
      have hnone : Dict.get? k fields = none := Dict.get?_eq_none_iff.2 hnodup.1
      simp [hnone, Dict.get?]
    · rw [Dict.get?_set_of_ne (Ne.symm hk), Dict.get?, if_neg hk]

theorem attempt_inl {α : Type} {caught : PyError → Bool} {x : Except PyError α} {a : α} (h : attempt caught x = .ok (.inl a)) :
    x = .ok a := by
  unfold attempt at h
  split at h
  · cases h
    rfl
  · split_ifs at h
    nomatch h

variable {key rawDigest : String} {info results payoffs : List Doc} {tried : Dict Doc ⊕ String}

/-- A field of a candidate that the checks do not write. -/
theorem get?_settleCandidate {raw : Doc} (h : attempt caught (consistentFields key info results payoffs) = .ok tried) {name : String}
    (hname : name ∉ consistentNames) (hreasons : name ≠ "reasons") :
    Dict.get? name (settleCandidate (blankCandidate key rawDigest raw) tried) = Dict.get? name (blankCandidate key rawDigest raw) := by
  cases tried with
  | inl fields =>
    have hnames := (consistentFields_ok (attempt_inl h)).1
    have hnone : Dict.get? name fields = none := Dict.get?_eq_none_iff.2 (by rw [hnames]; exact hname)
    rw [settleCandidate, get?_update _ (by rw [hnames]; decide), hnone, Option.none_or]
  | inr reason => rw [settleCandidate, Dict.get?_set_of_ne hreasons]

theorem carries_settleCandidate {raw : Doc} (h : attempt caught (consistentFields key info results payoffs) = .ok tried) :
    Carries key raw (settleCandidate (blankCandidate key rawDigest raw) tried) where
  race := get?_settleCandidate h (by decide) (by decide)
  rows := get?_settleCandidate h (by decide) (by decide)
  rowsDigest := ⟨rawDigest, get?_settleCandidate h (by decide) (by decide)⟩
  features := get?_settleCandidate h (by decide) (by decide)
  reasons := by
    cases tried with
    | inl fields =>
      have hnames := (consistentFields_ok (attempt_inl h)).1
      have hnone : Dict.get? "reasons" fields = none := Dict.get?_eq_none_iff.2 (by rw [hnames]; decide)
      refine ⟨[], ?_⟩
      rw [settleCandidate, get?_update _ (by rw [hnames]; decide), hnone]
      rfl
    | inr reason => exact ⟨_, Dict.get?_set_self _ _ _⟩

/-- A candidate with the status of the consistent ones is one whose checks passed. -/
theorem normalized_settleCandidate {raw : Doc} (h : attempt caught (consistentFields key info results payoffs) = .ok tried)
    (hstatus : Dict.getD (settleCandidate (blankCandidate key rawDigest raw) tried) "normalization_status" .null =
      .str "internally_consistent_candidate") : Normalized (settleCandidate (blankCandidate key rawDigest raw) tried) := by
  cases tried with
  | inr reason =>
    rw [settleCandidate, Dict.getD_set_of_ne (by decide)] at hstatus
    simp [blankCandidate, Dict.getD, Dict.get?] at hstatus
  | inl fields =>
    obtain ⟨hnames, hfields⟩ := consistentFields_ok (attempt_inl h)
    have hput : ∀ {name : String} {v : Doc}, Dict.get? name fields = some v →
        Dict.get? name (settleCandidate (blankCandidate key rawDigest raw) (.inl fields)) = some v := fun hv => by
      rw [settleCandidate, get?_update _ (by rw [hnames]; decide), hv, Option.some_or]
    obtain ⟨exacta, trifecta, he, ht, hsettlements⟩ := hfields.settlements
    exact ⟨hfields.date.imp fun _ => hput, hfields.venue.imp fun _ => hput, hfields.number.imp fun _ => hput,
      hfields.participants.imp fun _ => hput, hfields.starters.imp fun _ => hput, ⟨exacta, trifecta, he, ht, hput hsettlements⟩⟩

/-- What is said of a candidate that could be made: its digest is that of the rest of it. -/
theorem candidate_ok {item : Dict Doc} (h : candidate key info results payoffs = .ok item) :
    ∃ base d, digest (.obj base) = .ok d ∧ item = Dict.set "candidate_sha256" (.str d) base ∧
      Dict.get? "candidate_sha256" base = none ∧ Carries key (rawRows info results payoffs) base ∧
      (Dict.getD base "normalization_status" .null = .str "internally_consistent_candidate" → Normalized base) := by
  obtain ⟨rawDigest, -, h⟩ := bind_ok.1 h
  obtain ⟨tried, htried, h⟩ := bind_ok.1 h
  obtain ⟨d, hd, h⟩ := bind_ok.1 h
  exact ⟨_, d, hd, (Except.ok.inj h).symm, get?_settleCandidate htried (by decide) (by decide), carries_settleCandidate htried,
    normalized_settleCandidate htried⟩

/-! ## Races -/

theorem mem_raceKeys {rows : List Doc} {key : String} : key ∈ raceKeys rows ↔ ∃ row ∈ rows, raceKey row = key := by
  simp [raceKeys]

theorem nodup_raceKeys (rows : List Doc) : (raceKeys rows).Nodup :=
  (List.perm_insertionSort _ _).nodup_iff.2 (List.nodup_dedup _)

/-- Rows of one race have one race. -/
theorem raceKeys_eq_singleton {rows : List Doc} (h : ∀ row ∈ rows, raceKey row = key) (hne : rows ≠ []) : raceKeys rows = [key] := by
  have hmap : rows.map raceKey = List.replicate rows.length key :=
    List.eq_replicate_iff.2 ⟨by simp, by simpa using h⟩
  rw [raceKeys, hmap, List.replicate_dedup (by simpa using hne), List.insertionSort_cons, List.insertionSort_nil]
  rfl

theorem rowsOf_rowsOf (key : String) (rows : List Doc) : rowsOf key (rowsOf key rows) = rowsOf key rows := by
  simp [rowsOf]

theorem raceKey_of_mem_rowsOf {rows : List Doc} {row : Doc} (h : row ∈ rowsOf key rows) : raceKey row = key := by
  simpa using (List.mem_filter.1 h).2

/-- A race that rows have is a text that is not blank. -/
theorem race_of_fingerprint {missing d : String} {row : Doc} (h : fingerprint missing row = .ok d) : isBlank (raceKey row) = false := by
  obtain ⟨u, hcheck, -⟩ := bind_ok.1 h
  unfold checkRace at hcheck
  split at hcheck
  · have htext := raiseIf_ok.1 hcheck
    rw [Bool.not_eq_false, Option.any_eq_true] at htext
    obtain ⟨s, hs, hblank⟩ := htext
    simpa [raceKey, hs] using hblank
  · cases hcheck

theorem digest_of_fingerprint {missing d : String} {row : Doc} (h : fingerprint missing row = .ok d) : digest row = .ok d := by
  obtain ⟨u, -, h⟩ := bind_ok.1 h
  exact h

/-! ## The report -/

/-- A report of payout candidates. -/
def IsReport (records : List (Dict Doc)) (report : Doc) : Prop :=
  ∃ rest, report = .obj (("schema_version", .str "historical-payout-candidates-v1") :: ("records", .arr (records.map .obj)) :: rest)

theorem normalize_ok {report : Doc} (h : normalize info results payoffs = .ok report) :
    ∃ i r p records, Distinct.keep (fingerprint "race_id_missing") [] info = .ok i ∧
      Distinct.keep (fingerprint "race_id_missing") [] results = .ok r ∧
      Distinct.keep (fingerprint "race_id_missing") [] payoffs = .ok p ∧
      List.Forall₂ (fun key item => candidate key (rowsOf key i) (rowsOf key r) (rowsOf key p) = .ok item) (raceKeys (i ++ r ++ p))
        records ∧ IsReport records report := by
  obtain ⟨i, hi, h⟩ := bind_ok.1 h
  obtain ⟨r, hr, h⟩ := bind_ok.1 h
  obtain ⟨p, hp, h⟩ := bind_ok.1 h
  obtain ⟨records, hrecords, h⟩ := bind_ok.1 h
  exact ⟨i, r, p, records, hi, hr, hp, mapM_ok_iff.1 hrecords, _, (Except.ok.inj h).symm⟩

theorem normalize_of {i r p : List Doc} {records : List (Dict Doc)} (hi : Distinct.keep (fingerprint "race_id_missing") [] info = .ok i)
    (hr : Distinct.keep (fingerprint "race_id_missing") [] results = .ok r)
    (hp : Distinct.keep (fingerprint "race_id_missing") [] payoffs = .ok p)
    (hrecords : List.Forall₂ (fun key item => candidate key (rowsOf key i) (rowsOf key r) (rowsOf key p) = .ok item)
      (raceKeys (i ++ r ++ p)) records) : ∃ report, normalize info results payoffs = .ok report ∧ IsReport records report :=
  ⟨_, bind_ok.2 ⟨i, hi, bind_ok.2 ⟨r, hr, bind_ok.2 ⟨p, hp, bind_ok.2 ⟨records, mapM_ok_iff.2 hrecords, rfl⟩⟩⟩⟩, _, rfl⟩

end Keirin.HistoricalPayouts

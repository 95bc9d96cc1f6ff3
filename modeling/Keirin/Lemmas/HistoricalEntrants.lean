import Keirin.HistoricalEntrants
import Keirin.Lemmas.HistoricalPayouts

/-!
# The candidate of a race with its entrants

The join reads the payout candidate of a race and the rows of its entrants, and nothing else; so the candidate of a race is a
function of the rows of the race (`raceCandidate`).
-/

namespace Keirin.HistoricalEntrants

open HistoricalPayouts

/-! ## Features -/

theorem numeric_ok {raw name : String} {v : Doc} (h : numeric raw name = .ok v) : v.keysOnce = true := by
  unfold numeric at h
  split_ifs at h
  · cases h
    rfl
  · obtain ⟨-, h⟩ := demand_bind_ok.1 h
    obtain ⟨value, -, h⟩ := bind_ok.1 h
    obtain ⟨-, h⟩ := demand_bind_ok.1 h
    cases h
    rfl
  · obtain ⟨-, h⟩ := demand_bind_ok.1 h
    obtain ⟨n, -, h⟩ := bind_ok.1 h
    obtain ⟨_, -, h⟩ := bind_ok.1 h
    cases h
    rfl

theorem numbersOf_ok {row : Dict Doc} {mapping : List (String × String)} {values : Dict Doc} (h : numbersOf row mapping = .ok values) :
    values.map Prod.fst = mapping.map Prod.snd ∧ Json.keysOnceFields values = true := by
  induction mapping generalizing values with
  | nil =>
    cases h
    exact ⟨rfl, rfl⟩
  | cons m mapping ih =>
    obtain ⟨v, hv, h⟩ := bind_ok.1 h
    obtain ⟨rest, hrest, h⟩ := bind_ok.1 h
    cases h
    obtain ⟨hnames, honce⟩ := ih hrest
    exact ⟨by rw [List.map_cons, List.map_cons, hnames], by rw [Json.keysOnceFields, numeric_ok hv, honce]; rfl⟩

variable {participants : List Doc} {results : List (ℤ × Doc)} {g g' : Joined}

theorem keysOnce_joinRow {row : Doc} (h : joinRow participants results g row = .ok g')
    (hg : ∀ f ∈ g.features, f.2.keysOnce = true) : ∀ f ∈ g'.features, f.2.keysOnce = true := by
  obtain ⟨fs, -, h⟩ := bind_ok.1 h
  obtain ⟨carNumber, -, h⟩ := require_bind_ok.1 h
  obtain ⟨-, h⟩ := demand_bind_ok.1 h
  obtain ⟨-, h⟩ := demand_bind_ok.1 h
  obtain ⟨expected, -, h⟩ := require_bind_ok.1 h
  obtain ⟨rider, -, h⟩ := bind_ok.1 h
  obtain ⟨-, h⟩ := demand_bind_ok.1 h
  obtain ⟨result, -, h⟩ := bind_ok.1 h
  obtain ⟨same, -, h⟩ := bind_ok.1 h
  obtain ⟨-, h⟩ := demand_bind_ok.1 h
  obtain ⟨-, h⟩ := demand_bind_ok.1 h
  obtain ⟨status, -, h⟩ := bind_ok.1 h
  obtain ⟨-, h⟩ := demand_bind_ok.1 h
  obtain ⟨-, h⟩ := demand_bind_ok.1 h
  obtain ⟨numbers, hnumbers, h⟩ := bind_ok.1 h
  cases h
  obtain ⟨hnames, honce⟩ := numbersOf_ok hnumbers
  have hnodup : ("car_number" :: "style" :: numbers.map Prod.fst).Nodup := by
    rw [hnames]
    decide
  intro f hf
  rcases List.mem_append.1 hf with hf | hf
  · exact hg f hf
  · rw [List.mem_singleton.1 hf]
    simp only [Json.keysOnce, List.cons_append, List.nil_append, List.map_cons, Json.keysOnceFields, honce, Bool.and_true,
      decide_eq_true_eq]
    exact hnodup

theorem keysOnce_joinRows {rows : List Doc} (h : joinRows participants results g rows = .ok g')
    (hg : ∀ f ∈ g.features, f.2.keysOnce = true) : ∀ f ∈ g'.features, f.2.keysOnce = true := by
  induction rows generalizing g with
  | nil =>
    cases h
    exact hg
  | cons row rows ih =>
    obtain ⟨g₁, hrow, h⟩ := bind_ok.1 h
    exact ih h (keysOnce_joinRow hrow hg)

theorem features_ok {record : Dict Doc} {rows fs : List Doc} (h : features record rows = .ok fs) : Json.keysOnceList fs = true := by
  obtain ⟨-, h⟩ := demand_bind_ok.1 h
  obtain ⟨v, -, h⟩ := bind_ok.1 h
  obtain ⟨participants, -, h⟩ := bind_ok.1 h
  obtain ⟨-, h⟩ := demand_bind_ok.1 h
  obtain ⟨_, -, h⟩ := bind_ok.1 h
  obtain ⟨_, -, h⟩ := bind_ok.1 h
  obtain ⟨_, -, h⟩ := bind_ok.1 h
  obtain ⟨_, -, h⟩ := bind_ok.1 h
  obtain ⟨results, -, h⟩ := bind_ok.1 h
  obtain ⟨g, hrows, h⟩ := bind_ok.1 h
  obtain ⟨-, h⟩ := demand_bind_ok.1 h
  cases h
  have hall := keysOnce_joinRows hrows (by simp)
  simpa [Json.keysOnceList_eq] using hall

/-! ## The join -/

/-- What a joined candidate holds. -/
structure Entered (key : String) (raw : Doc) (rows : List Doc) (item : Dict Doc) : Prop where
  race : Dict.get? "race_id" item = some (.str key)
  raw : Dict.get? "raw" item = some raw
  rowsDigest : ∃ s, Dict.get? "raw_sha256" item = some (.str s)
  reasons : ∃ rs, Dict.get? "reasons" item = some (.arr rs)
  entrants : Dict.get? "raw_entrants" item = some (.arr rows)
  entrantsDigest : ∃ s, Dict.get? "raw_entrants_sha256" item = some (.str s)
  parent : ∃ s, Dict.get? "parent_candidate_sha256" item = some (.str s)
  features : ∃ fs, Dict.get? "pre_race_features" item = some (.arr fs) ∧ Json.keysOnceList fs = true
  joinReasons : ∃ rs, Dict.get? "entrant_join_reasons" item = some (.arr rs)
  own : ∃ d, item = Dict.set "candidate_sha256" (.str d) (Dict.pop "candidate_sha256" item) ∧
    digest (.obj (Dict.pop "candidate_sha256" item)) = .ok d

/-- The candidate of a race with its entrants, from the rows of the race. -/
def raceCandidate (key : String) (info results payoffs entrants : List Doc) : Except PyError (Dict Doc) := do
  let source ← candidate key info results payoffs
  joinCandidate source entrants

/-- The names of the fields a join writes last. -/
def joinNames : List String := ["candidate_sha256", "entrant_join_status", "pre_race_features", "entrant_join_reasons"]

/-- A field of a joined candidate that the join does not write last. -/
theorem get?_afterJoin {item : Dict Doc} {tried : List Doc ⊕ String} {d : Doc} {name : String} (h : name ∉ joinNames) :
    Dict.get? name (Dict.set "candidate_sha256" d (Dict.pop "candidate_sha256" (afterJoin item tried))) = Dict.get? name item := by
  simp only [joinNames, List.mem_cons, List.not_mem_nil, or_false, not_or] at h
  obtain ⟨hdigest, hstatus, hfeatures, hreasons⟩ := h
  rw [Dict.get?_set_of_ne hdigest, Dict.get?_pop_of_ne hdigest]
  cases tried with
  | inl fs => rw [afterJoin, Dict.get?_set_of_ne hstatus, Dict.get?_set_of_ne hfeatures]
  | inr reason => rw [afterJoin, Dict.get?_set_of_ne hreasons]

/-- The names of the fields that are written before the join. -/
def beforeNames : List String :=
  ["parent_candidate_sha256", "raw_entrants", "raw_entrants_sha256", "entrant_join_status", "entrant_join_reasons",
    "pre_race_features", "training_approved", "pre_race_state_verified"]

theorem get?_beforeJoin {source : Dict Doc} {parent : Doc} {rows : List Doc} {rowsDigest name : String} (h : name ∉ beforeNames) :
    Dict.get? name (beforeJoin source parent rows rowsDigest) = Dict.get? name source := by
  rw [beforeJoin, get?_update _ (by simp)]
  have hnone : Dict.get? name [("parent_candidate_sha256", parent), ("raw_entrants", Json.arr rows),
      ("raw_entrants_sha256", .str rowsDigest), ("entrant_join_status", .str "quarantined"), ("entrant_join_reasons", .arr []),
      ("pre_race_features", .arr []), ("training_approved", .bool false), ("pre_race_state_verified", .bool false)] = none :=
    Dict.get?_eq_none_iff.2 h
  rw [hnone, Option.none_or]

theorem joinedFeatures_ok {item : Dict Doc} {rows fs : List Doc} (h : joinedFeatures item rows = .ok fs) :
    Json.keysOnceList fs = true :=
  features_ok (demand_bind_ok.1 h).2

/-- The candidate before the join took its digest. -/
def joined (source : Dict Doc) (parent rowsDigest : String) (rows : List Doc) (tried : List Doc ⊕ String) : Dict Doc :=
  Dict.pop "candidate_sha256" (afterJoin (beforeJoin source (.str parent) rows rowsDigest) tried)

theorem joinCandidate_ok {source item : Dict Doc} {rows : List Doc} (h : joinCandidate source rows = .ok item) :
    ∃ parent rowsDigest tried d, attempt caughtJoin (joinedFeatures (beforeJoin source (.str parent) rows rowsDigest) rows) = .ok tried ∧
      digest (.obj (joined source parent rowsDigest rows tried)) = .ok d ∧
      item = Dict.set "candidate_sha256" (.str d) (joined source parent rowsDigest rows tried) := by
  obtain ⟨own, -, h⟩ := bind_ok.1 h
  obtain ⟨hparent, h⟩ := demand_bind_ok.1 h
  rw [decide_eq_true_eq] at hparent
  rw [hparent] at h
  obtain ⟨-, h⟩ := demand_bind_ok.1 h
  obtain ⟨rowsDigest, -, h⟩ := bind_ok.1 h
  obtain ⟨tried, htried, h⟩ := bind_ok.1 h
  obtain ⟨d, hd, h⟩ := bind_ok.1 h
  exact ⟨own, rowsDigest, tried, d, htried, hd, (Except.ok.inj h).symm⟩

/-- The candidate of a race holds its rows, and its digest is that of the rest of it. -/
theorem raceCandidate_ok {key : String} {info results payoffs entrants : List Doc} {item : Dict Doc}
    (h : raceCandidate key info results payoffs entrants = .ok item) :
    Entered key (rawRows info results payoffs) entrants item ∧
      (Dict.getD item "normalization_status" .null = .str "internally_consistent_candidate" → Normalized item) := by
  obtain ⟨source, hsource, h⟩ := bind_ok.1 h
  obtain ⟨base, s, -, rfl, -, hbase, hnormalized⟩ := candidate_ok hsource
  obtain ⟨parent, rowsDigest, tried, d, htried, hd, rfl⟩ := joinCandidate_ok h
  have hwritten : ∀ {name : String}, name ∉ joinNames → Dict.get? name (Dict.set "candidate_sha256" (.str d)
      (joined (Dict.set "candidate_sha256" (.str s) base) parent rowsDigest entrants tried)) =
        Dict.get? name (beforeJoin (Dict.set "candidate_sha256" (.str s) base) (.str parent) entrants rowsDigest) := get?_afterJoin
  have hkept : ∀ {name : String}, name ∉ joinNames → name ∉ beforeNames → Dict.get? name (Dict.set "candidate_sha256" (.str d)
      (joined (Dict.set "candidate_sha256" (.str s) base) parent rowsDigest entrants tried)) = Dict.get? name base := by
    intro name hjoin hbefore
    have hne : name ≠ "candidate_sha256" := fun he => hjoin (by rw [he]; exact List.mem_cons_self)
    rw [hwritten hjoin, get?_beforeJoin hbefore, Dict.get?_set_of_ne hne]
  have hentrants := get?_update [("parent_candidate_sha256", Json.str parent), ("raw_entrants", .arr entrants),
    ("raw_entrants_sha256", .str rowsDigest), ("entrant_join_status", .str "quarantined"), ("entrant_join_reasons", .arr []),
    ("pre_race_features", .arr []), ("training_approved", .bool false), ("pre_race_state_verified", .bool false)] (by simp)
    (Dict.set "candidate_sha256" (.str s) base)
  refine ⟨⟨(hkept (by decide) (by decide)).trans hbase.race, (hkept (by decide) (by decide)).trans hbase.rows,
    hbase.rowsDigest.imp fun _ => (hkept (by decide) (by decide)).trans,
    hbase.reasons.imp fun _ => (hkept (by decide) (by decide)).trans, (hwritten (by decide)).trans (hentrants _),
    ⟨rowsDigest, (hwritten (by decide)).trans (hentrants _)⟩, ⟨parent, (hwritten (by decide)).trans (hentrants _)⟩, ?_, ?_,
    ⟨d, ?_⟩⟩, fun hstatus => ?_⟩
  · rw [Dict.get?_set_of_ne (by decide), joined, Dict.get?_pop_of_ne (by decide)]
    cases tried with
    | inl fs =>
      refine ⟨fs, ?_, joinedFeatures_ok (attempt_inl htried)⟩
      rw [afterJoin, Dict.get?_set_of_ne (by decide), Dict.get?_set_self]
    | inr reason =>
      refine ⟨[], ?_, rfl⟩
      rw [afterJoin, Dict.get?_set_of_ne (by decide)]
      exact hentrants _
  · rw [Dict.get?_set_of_ne (by decide), joined, Dict.get?_pop_of_ne (by decide)]
    cases tried with
    | inl fs =>
      refine ⟨[], ?_⟩
      rw [afterJoin, Dict.get?_set_of_ne (by decide), Dict.get?_set_of_ne (by decide)]
      exact hentrants _
    | inr reason => exact ⟨_, Dict.get?_set_self _ _ _⟩
  · rw [Dict.pop_set_self, joined, Dict.pop_pop]
    exact ⟨rfl, hd⟩
  · rw [Dict.getD, hkept (by decide) (by decide)] at hstatus
    obtain ⟨hdate, hvenue, hnumber, hparticipants, hstarters, exacta, trifecta, he, ht, hsettlements⟩ := hnormalized hstatus
    exact ⟨hdate.imp fun _ => (hkept (by decide) (by decide)).trans, hvenue.imp fun _ => (hkept (by decide) (by decide)).trans,
      hnumber.imp fun _ => (hkept (by decide) (by decide)).trans, hparticipants.imp fun _ => (hkept (by decide) (by decide)).trans,
      hstarters.imp fun _ => (hkept (by decide) (by decide)).trans,
      ⟨exacta, trifecta, he, ht, (hkept (by decide) (by decide)).trans hsettlements⟩⟩

/-! ## The report -/

/-- A report of joined candidates. -/
def IsEnriched (items : List (Dict Doc)) (orphans : List Doc) (report : Doc) : Prop :=
  ∃ rest : Dict Doc, report = .obj (("schema_version", .str "historical-entrant-candidates-v1") ::
    ("records", .arr (items.map .obj)) :: ("orphan_entrant_races", .arr orphans) :: rest) ∧ ∀ f ∈ rest, f.2.finite = true

theorem finite_counter (xs : List String) : (counter xs).finite = true := by
  simp [counter]

theorem finite_orphan {rows : List Doc} {key : String} {o : Doc} (h : orphan rows key = .ok o) : o.finite = true := by
  obtain ⟨d, hd, h⟩ := bind_ok.1 h
  cases h
  simpa using finite_of_digest hd

/-- The candidates of a report are joined one by one. -/
theorem joinAll_ok {entrants : List Doc} {keys : List String} {sources items : List (Dict Doc)}
    (h : joinAll entrants keys (sources.map .obj) = .ok items) : List.Forall₂ (fun source item =>
      ∃ key, Dict.getD source "race_id" .null = .str key ∧ joinCandidate source (rowsOf key entrants) = .ok item) sources items := by
  induction sources generalizing keys items with
  | nil =>
    cases h
    exact .nil
  | cons source sources ih =>
    obtain ⟨v, hv, h⟩ := bind_ok.1 h
    obtain rfl : Dict.getD source "race_id" .null = v := Except.ok.inj hv
    obtain ⟨hkey, h⟩ := demand_bind_ok.1 h
    obtain ⟨fs, hfs, h⟩ := bind_ok.1 h
    obtain rfl : source = fs := Except.ok.inj hfs
    obtain ⟨item, hitem, h⟩ := bind_ok.1 h
    obtain ⟨rest, hrest, h⟩ := bind_ok.1 h
    obtain rfl : item :: rest = items := Except.ok.inj h
    simp only [Bool.and_eq_true, Option.isSome_iff_exists] at hkey
    obtain ⟨⟨⟨key, hkey⟩, -⟩, -⟩ := hkey
    refine .cons ⟨key, ?_, by rwa [hkey] at hitem⟩ (ih hrest)
    cases hval : Dict.getD source "race_id" .null <;> simp_all [Doc.text?]

theorem enrich_ok {candidates report : Doc} {sources : List (Dict Doc)} {entrants : List Doc} (hc : IsReport sources candidates)
    (h : enrich candidates (.arr entrants) = .ok report) :
    ∃ kept items orphans, Distinct.keep (fingerprint "entrant_race_id_missing") [] entrants = .ok kept ∧
      List.Forall₂ (fun source item => ∃ key, Dict.getD source "race_id" .null = .str key ∧
        joinCandidate source (rowsOf key kept) = .ok item) sources items ∧
      (∀ o ∈ orphans, o.finite = true) ∧ IsEnriched items orphans report := by
  obtain ⟨rest, rfl⟩ := hc
  obtain ⟨schema, -, h⟩ := bind_ok.1 h
  obtain ⟨-, h⟩ := demand_bind_ok.1 h
  obtain ⟨v, hv, h⟩ := bind_ok.1 h
  obtain rfl : Json.arr (sources.map .obj) = v := Except.ok.inj hv
  obtain ⟨found, hfound, h⟩ := require_bind_ok.1 h
  obtain rfl : sources.map Json.obj = found := Option.some.inj hfound
  obtain ⟨rows, hrows, h⟩ := require_bind_ok.1 h
  obtain rfl : entrants = rows := Option.some.inj hrows
  obtain ⟨kept, hkept, h⟩ := bind_ok.1 h
  obtain ⟨items, hitems, h⟩ := bind_ok.1 h
  obtain ⟨orphans, horphans, h⟩ := bind_ok.1 h
  refine ⟨kept, items, orphans, hkept, joinAll_ok hitems, ?_, _, (Except.ok.inj h).symm, ?_⟩
  · intro o ho
    obtain ⟨key, -, hkey⟩ := exists_of_mem_right (mapM_ok_iff.1 horphans) ho
    exact finite_orphan hkey
  · simp [finite_counter, MAPPING]

/-- One candidate with entrants of its race that are distinct is joined, and no entrant is left. -/
theorem enrich_of {candidates : Doc} {source item : Dict Doc} {key : String} {entrants : List Doc} (hc : IsReport [source] candidates)
    (hkept : Distinct.keep (fingerprint "entrant_race_id_missing") [] entrants = .ok entrants)
    (hsource : Dict.get? "race_id" source = some (.str key)) (hkey : key ≠ "") (hrows : ∀ row ∈ entrants, raceKey row = key)
    (hjoin : joinCandidate source entrants = .ok item) (hitem : Dict.get? "race_id" item = some (.str key)) :
    ∃ report, enrich candidates (.arr entrants) = .ok report ∧ IsEnriched [item] [] report := by
  obtain ⟨rest, rfl⟩ := hc
  have hall : rowsOf key entrants = entrants := List.filter_eq_self.2 fun row hrow => by simpa using hrows row hrow
  have hjoinAll : joinAll entrants [] [.obj source] = .ok [item] := by
    refine bind_ok.2 ⟨.str key, by simp [Doc.pyGet, Dict.getD, hsource], demand_bind_ok.2 ⟨by simp [Doc.text?, hkey], ?_⟩⟩
    refine bind_ok.2 ⟨source, rfl, bind_ok.2 ⟨item, ?_, bind_ok.2 ⟨[], rfl, rfl⟩⟩⟩
    show joinCandidate source (rowsOf key entrants) = _
    rw [hall, hjoin]
  have htexts : textsAt ["race_id"] [item] = [key] := by
    simp [textsAt, Json.get?, hitem, Doc.text?]
  have hnone : (raceKeys entrants).filter (fun k => decide (k ∉ textsAt ["race_id"] [item])) = [] := by
    rw [htexts, List.filter_eq_nil_iff]
    intro k hk
    obtain ⟨row, hrow, rfl⟩ := mem_raceKeys.1 hk
    simp [hrows row hrow]
  refine ⟨_, bind_ok.2 ⟨_, rfl, demand_bind_ok.2 ⟨rfl, bind_ok.2 ⟨_, rfl, require_bind_ok.2 ⟨_, rfl, require_bind_ok.2 ⟨_, rfl,
    bind_ok.2 ⟨entrants, hkept, bind_ok.2 ⟨[item], hjoinAll, bind_ok.2 ⟨[], ?_, rfl⟩⟩⟩⟩⟩⟩⟩⟩, _, rfl, ?_⟩
  · rw [hnone]
    rfl
  · simp [finite_counter, MAPPING]

end Keirin.HistoricalEntrants

import Keirin.Dataset
import Keirin.HistoricalPayouts

/-!
# Entrant candidates and review records

`historical_entrants.py` joins the rows of the entrants to the payout candidates; `historical_records.py` replays both from the
rows a candidate carries, and makes a record of each candidate whose replay agrees with it.
-/

namespace Keirin

namespace HistoricalEntrants

open HistoricalPayouts

/-! ## The features of a race -/

def REQUIRED : List String := ["Race_ID", "Car", "Player_ID", "Player_Name", "Status", "Style", "Points", "S", "H", "B"]

def MAPPING : List (String × String) := [("Points", "race_score"), ("S", "S"), ("H", "H"), ("B", "B")]

/-- `re.fullmatch(r"[0-9]+(?:\.[0-9]+)?", s)` -/
def isDecimalText (s : String) : Bool :=
  match s.toList.splitOn '.' with
  | [a] => isDigits (String.ofList a)
  | [a, b] => isDigits (String.ofList a) && isDigits (String.ofList b)
  | _ => false

/-- `_numeric` -/
def numeric (raw column : String) : Except PyError Doc :=
  if raw = "" then .ok .null
  else if column = "Points" then do
    demand (isDecimalText raw) ("invalid_entrant_numeric:" ++ column)
    let value ← floatOfText raw
    demand value.finite ("invalid_entrant_numeric:" ++ column)
    return .num value
  else do
    demand (isDigits raw) ("invalid_entrant_numeric:" ++ column)
    let n ← intOfDigits raw.toList
    let _ ← floatOfInt n
    return .num (.int n)

/-- `row[source]` for a row of texts. -/
def column (row : Dict Doc) (name : String) : String := (Doc.text? (Dict.getD row name .null)).getD ""

/-- The numbers of a row under their targets. -/
def numbersOf (row : Dict Doc) : List (String × String) → Except PyError (Dict Doc)
  | [] => .ok []
  | (source, target) :: rest => do
    let value ← numeric (column row source) source
    let values ← numbersOf row rest
    return (target, value) :: values

/-- The participants by their cars; the last one of a car counts. -/
def participantOf (participants : List Doc) (carNumber : ℕ) : Option Doc :=
  participants.reverse.find? fun p => Doc.pyEq (p.field "car_number") (.num (.int carNumber))

/-- `{p["car_number"]: p for p in participants}` can be made. -/
def checkParticipants : List Doc → Except PyError Unit
  | [] => .ok ()
  | p :: ps => do
    let key ← subscript p "car_number"
    raiseIf (key.hashable = false) (.typeError ("unhashable type: '" ++ typeName key ++ "'"))
    checkParticipants ps

/-- `{int(r["Car"]): r for r in results}` -/
def resultsByCar : List Doc → Except PyError (List (ℤ × Doc))
  | [] => .ok []
  | r :: rs => do
    let v ← subscript r "Car"
    let n ← v.toInt
    let rest ← resultsByCar rs
    return (n, r) :: rest

/-- `results[car]` -/
def resultOf (results : List (ℤ × Doc)) (carNumber : ℕ) : Except PyError Doc :=
  match results.reverse.find? fun r => r.1 = (carNumber : ℤ) with
  | some r => .ok r.2
  | none => .error (.keyError (toString carNumber))

/-- `v.strip()` and the like, which only a text has. -/
def strippable (v : Doc) : Except PyError String :=
  match v with
  | .str s => .ok s
  | v => .error (.attributeError ("'" ++ typeName v ++ "' object has no attribute 'strip'"))

/-- `"".join(s.split())` -/
def withoutBlanks (s : String) : String := String.ofList (s.toList.filter fun c => !isSpace c)

/-- The names of the entrant and of the result are one name. -/
def namesAgree (name : String) (result : Doc) : Except PyError Bool :=
  match result with
  | .obj fs =>
    if isBlank name then .ok false
    else do
      let resultName ← strippable (Dict.getD fs "Player_Name" (.str ""))
      return !isBlank resultName && withoutBlanks name = withoutBlanks resultName
  | v => .error (.attributeError ("'" ++ typeName v ++ "' object has no attribute 'get'"))

/-- The row of an entrant has every column, and each is a text. -/
def rowOfTexts (row : Doc) : Except PyError (Dict Doc) :=
  match row with
  | .obj fs =>
    if REQUIRED.all (fun name => (Dict.get? name fs).isSome) && fs.all (fun f => (Doc.text? f.2).isSome) then .ok fs
    else .error (.valueError "invalid_entrant_row")
  | v => .error (.typeError ("'" ++ typeName v ++ "' object is not iterable"))

/-- What `_features` has gathered: the cars, the identities, and the features of each car. -/
structure Joined where
  cars : List ℕ := []
  ids : List String := []
  features : List (ℕ × Doc) := []

/-- One row of the entrants. -/
def joinRow (participants : List Doc) (results : List (ℤ × Doc)) (g : Joined) (row : Doc) : Except PyError Joined := do
  let row ← rowOfTexts row
  let carNumber ← require (carText (column row "Car").toList) "entrant_car_missing_or_invalid"
  let identity := column row "Player_ID"
  demand (isDigits identity) "entrant_identity_missing_or_invalid"
  demand (decide (carNumber ∉ g.cars ∧ identity ∉ g.ids)) "duplicate_entrant_car_or_identity"
  let expected ← require (participantOf participants carNumber) "entrant_result_identity_mismatch"
  let rider ← subscript expected "rider_id"
  demand (Doc.pyEq rider (.str ("keirindb:" ++ identity))) "entrant_result_identity_mismatch"
  let result ← resultOf results carNumber
  let same ← namesAgree (column row "Player_Name") result
  demand same "entrant_result_name_mismatch"
  let status := column row "Status"
  demand (status = "" || status = "欠場") "entrant_result_withdrawal_mismatch"
  let expectedStatus ← subscript expected "status"
  demand (decide (status = "欠場" ↔ Doc.pyEq expectedStatus (.str "DNS") = true)) "entrant_result_withdrawal_mismatch"
  let style := column row "Style"
  demand (style = "逃" || style = "両" || style = "追") "entrant_style_missing_or_invalid"
  let numbers ← numbersOf row MAPPING
  let feature : Doc := .obj ([("car_number", .num (.int carNumber)), ("style", .str style)] ++ numbers)
  return { cars := g.cars ++ [carNumber], ids := g.ids ++ [identity], features := g.features ++ [(carNumber, feature)] }

def joinRows (participants : List Doc) (results : List (ℤ × Doc)) (g : Joined) : List Doc → Except PyError Joined
  | [] => .ok g
  | row :: rows => do
    let g ← joinRow participants results g row
    joinRows participants results g rows

/-- Every participant was met, and nobody else. -/
def rosterMet (participants : List Doc) (cars : List ℕ) : Bool :=
  participants.all fun p => cars.any fun (c : ℕ) => Doc.pyEq (p.field "car_number") (.num (.int c))

/-- `_features` -/
def features (record : Dict Doc) (rows : List Doc) : Except PyError (List Doc) := do
  demand (Dict.getD record "normalization_status" .null = .str "internally_consistent_candidate") "payout_candidate_not_normalized"
  let v ← subscript (.obj record) "participants"
  let participants ← v.toList
  demand (3 ≤ rows.length && rows.length ≤ 9 && rows.length = participants.length) "entrant_roster_incomplete"
  checkParticipants participants
  let raw ← subscript (.obj record) "raw"
  let raw ← subscript raw "results"
  let raw ← raw.toList
  let results ← resultsByCar raw
  let g ← joinRows participants results {} rows
  demand (rosterMet participants g.cars) "entrant_roster_mismatch"
  return (g.features.insertionSort fun a b => a.1 ≤ b.1).map Prod.snd

/-! ## The join -/

/-- `except (ValueError, KeyError, TypeError, OverflowError)` -/
def caughtJoin : PyError → Bool
  | .attributeError _ => false
  | .runtimeError _ => false
  | .osError _ => false
  | .csvError _ => false
  | _ => true

/-- The features of the rows, of which there must be some. -/
def joinedFeatures (item : Dict Doc) (rows : List Doc) : Except PyError (List Doc) := do
  demand (!rows.isEmpty) "entrant_rows_missing"
  features item rows

/-- The candidate before the join. -/
def beforeJoin (source : Dict Doc) (parent : Doc) (rows : List Doc) (rowsDigest : String) : Dict Doc :=
  Dict.update source [("parent_candidate_sha256", parent), ("raw_entrants", .arr rows), ("raw_entrants_sha256", .str rowsDigest),
    ("entrant_join_status", .str "quarantined"), ("entrant_join_reasons", .arr []), ("pre_race_features", .arr []),
    ("training_approved", .bool false), ("pre_race_state_verified", .bool false)]

/-- The candidate with what the join brought. -/
def afterJoin (item : Dict Doc) : List Doc ⊕ String → Dict Doc
  | .inl fs => Dict.set "entrant_join_status" (.str "matched_unverified_features") (Dict.set "pre_race_features" (.arr fs) item)
  | .inr reason => Dict.set "entrant_join_reasons" (.arr [.str reason]) item

/-- The candidate of a race with its entrants. -/
def joinCandidate (source : Dict Doc) (rows : List Doc) : Except PyError (Dict Doc) := do
  let parent := Dict.getD source "candidate_sha256" .null
  let own ← digest (.obj (Dict.pop "candidate_sha256" source))
  demand (parent = .str own) "payout_candidate_digest_mismatch"
  demand (!Doc.truthy (Dict.getD source "pre_race_features" .null)) "refusing_to_overwrite_existing_features"
  let rowsDigest ← digest (.arr rows)
  let item := beforeJoin source parent rows rowsDigest
  let tried ← attempt caughtJoin (joinedFeatures item rows)
  let item := Dict.pop "candidate_sha256" (afterJoin item tried)
  let d ← digest (.obj item)
  return Dict.set "candidate_sha256" (.str d) item

/-- The candidates one by one; `keys` are the races so far. -/
def joinAll (entrants : List Doc) : (keys : List String) → List Doc → Except PyError (List (Dict Doc))
  | _, [] => .ok []
  | keys, source :: sources => do
    let v ← source.pyGet "race_id"
    let key := (Doc.text? v).getD ""
    demand ((Doc.text? v).isSome && key ≠ "" && decide (key ∉ keys)) "missing_or_duplicate_candidate_race_id"
    let fs ← source.toDict
    let item ← joinCandidate fs (rowsOf key entrants)
    let rest ← joinAll entrants (key :: keys) sources
    return item :: rest

/-- The rows of a race without a candidate. -/
def orphan (entrants : List Doc) (key : String) : Except PyError Doc := do
  let d ← digest (.arr (rowsOf key entrants))
  return .obj [("race_id", .str key), ("raw_entrants", .arr (rowsOf key entrants)), ("raw_entrants_sha256", .str d)]

/-- The elements of a field that is a list. -/
def elementsAt (key : String) (r : Dict Doc) : List Doc := ((Dict.get? key r).bind Doc.elements?).getD []

/-- The reasons of the candidates that were not joined. -/
def joinReasons (records : List (Dict Doc)) : List String :=
  records.flatMap fun r => (elementsAt "entrant_join_reasons" r).filterMap Doc.text?

/-- `enrich` -/
def enrich (candidates entrants : Doc) : Except PyError Doc := do
  let schema ← candidates.pyGet "schema_version"
  demand (Doc.pyEq schema (.str "historical-payout-candidates-v1")) "payout_candidate_report_required"
  let v ← candidates.pyGet "records"
  let sources ← require v.elements? "records_and_entrants_must_be_arrays"
  let rows ← require entrants.elements? "records_and_entrants_must_be_arrays"
  let kept ← Distinct.keep (fingerprint "entrant_race_id_missing") [] rows
  let records ← joinAll kept [] sources
  let keys := textsAt ["race_id"] records
  let orphans ← ((raceKeys kept).filter fun key => decide (key ∉ keys)).mapM (orphan kept)
  let features := records.flatMap (elementsAt "pre_race_features")
  return .obj [("schema_version", .str "historical-entrant-candidates-v1"), ("records", .arr (records.map .obj)),
    ("orphan_entrant_races", .arr orphans),
    ("summary", .obj [("unique_races", .num (.int records.length)), ("input_entrant_rows", .num (.int rows.length)),
      ("identical_duplicate_rows_ignored", .num (.int ((rows.length - kept.length : ℕ) : ℤ))),
      ("join_status_counts", counter (textsAt ["entrant_join_status"] records)),
      ("exclusion_reason_counts", counter (joinReasons records)),
      ("matched_rider_rows", .num (.int features.length)), ("orphan_entrant_races", .num (.int orphans.length)),
      ("missing_numeric_values", .obj (MAPPING.map fun m =>
        (m.2, .num (.int (features.filter fun f => f.field m.2 = .null).length)))),
      ("training_eligible_races", .num (.int 0)), ("training_runs", .num (.int 0))]),
    ("feature_mapping", .obj (MAPPING.map fun m => (m.1, .str m.2))), ("feature_time_verified", .bool false),
    ("source_use_verified", .bool false), ("production_enabled", .bool false), ("automatic_collection_enabled", .bool false)]

end HistoricalEntrants

/-! ## Review records -/

namespace HistoricalRecords

open HistoricalPayouts HistoricalEntrants

/-- The fields a replay must give again. -/
def replayFields : List String :=
  ["normalization_status", "entrant_join_status", "participants", "settlements", "pre_race_features", "race_date", "venue",
    "race_number", "actual_starters", "raw_sha256", "raw_entrants_sha256", "parent_candidate_sha256"]

/-- `a + b` for lists. -/
def concatLists (a b : Doc) : Except PyError Doc :=
  match a, b with
  | .arr xs, .arr ys => .ok (.arr (xs ++ ys))
  | _, _ => .error (.typeError "can only concatenate list to list")

/-- A candidate that becomes no record. -/
def quarantineOf (key : String) (candidate : Dict Doc) : Except PyError Doc := do
  let reasons ← concatLists (Dict.getD candidate "reasons" (.arr [])) (Dict.getD candidate "entrant_join_reasons" (.arr []))
  return .obj [("race_id", .str key), ("candidate_sha256", Dict.getD candidate "candidate_sha256" .null),
    ("reasons", .arr [.str "normalized_matched_candidate_required"]), ("upstream_reasons", reasons)]

/-- The candidate the rows of a candidate give again. -/
def replayOf (key : String) (candidate : Dict Doc) : Except PyError (Dict Doc) := do
  let raw := Dict.getD candidate "raw" (.obj [])
  let info ← subscript raw "info"
  let results ← subscript raw "results"
  let payoffs ← subscript raw "payoffs"
  let i ← info.toList
  let r ← results.toList
  let p ← payoffs.toList
  let normalized ← normalize i r p
  let entrants ← subscript (.obj candidate) "raw_entrants"
  let enriched ← enrich normalized entrants
  let records ← subscript enriched "records"
  let records ← records.toList
  let expected ← require (match records with
    | [.obj fs] => if Dict.getD fs "race_id" .null = .str key then some fs else none
    | _ => none) "candidate_raw_replay_identity_mismatch"
  demand (replayFields.all fun k => Doc.pyEq (Dict.getD candidate k .null) (Dict.getD expected k .null))
    "candidate_raw_replay_mismatch"
  return expected

/-- The record of a candidate. -/
def recordOf (key inputHash : String) (candidate expected : Dict Doc) : Except PyError Doc := do
  let settlements ← subscript (.obj expected) "settlements"
  let settlement ← subscript settlements "3連単"
  let status ← subscript settlement "status"
  let outcomes ← subscript settlement "outcomes"
  let outcomes ← outcomes.toList
  let combinations ← outcomes.mapM fun x => subscript x "combination"
  let participants ← subscript (.obj expected) "participants"
  let riders ← participants.toList
  let date ← subscript (.obj expected) "race_date"
  let venue ← subscript (.obj expected) "venue"
  let number ← subscript (.obj expected) "race_number"
  let starters ← subscript (.obj expected) "actual_starters"
  let features ← subscript (.obj expected) "pre_race_features"
  let rawDigest ← subscript (.obj candidate) "raw_sha256"
  let entrantsDigest ← subscript (.obj candidate) "raw_entrants_sha256"
  return .obj [("race_id", .str key), ("race_date", date), ("venue", venue), ("race_number", number),
    ("rider_count", .num (.int riders.length)), ("riders", participants), ("actual_starters", starters),
    ("pre_race_features", features), ("trifecta_outcomes", .arr combinations), ("trifecta_settlement", settlement),
    ("dead_heat", .bool (Doc.pyEq status (.str "dead_heat"))), ("feature_as_of", Dict.getD candidate "feature_as_of" .null),
    ("listed_scheduled_start_jst", Dict.getD candidate "listed_scheduled_start_jst" .null),
    ("result_available_at", Dict.getD candidate "result_available_at" .null),
    ("sources", .arr [.obj [("kind", .str "unverified_keirindb_import_candidate"),
      ("candidate_sha256", Dict.getD candidate "candidate_sha256" .null), ("input_report_sha256", .str inputHash),
      ("raw_sha256", rawDigest), ("raw_entrants_sha256", entrantsDigest)]]),
    ("prospective", .bool false), ("pre_race_state_verified", .bool false), ("training_use_status", .str "unconfirmed"),
    ("training_approved", .bool false), ("conversion_status", .str "unapproved_historical_review_record")]

/-- A candidate that is normalized and joined. -/
def matched (candidate : Dict Doc) : Bool :=
  Dict.getD candidate "normalization_status" .null = .str "internally_consistent_candidate" &&
    Dict.getD candidate "entrant_join_status" .null = .str "matched_unverified_features"

/-- What a candidate becomes: a record, or a quarantined candidate. -/
def convertCandidate (key inputHash : String) (candidate : Dict Doc) : Except PyError (Doc ⊕ Doc) := do
  let parent := Dict.getD candidate "candidate_sha256" .null
  let own ← digest (.obj (Dict.pop "candidate_sha256" candidate))
  demand (parent = .str own) "candidate_digest_mismatch"
  if matched candidate then do
    let expected ← replayOf key candidate
    let record ← recordOf key inputHash candidate expected
    return .inl record
  else do
    let quarantined ← quarantineOf key candidate
    return .inr quarantined

/-- The candidates one by one; `seen` are the races so far. -/
def convertAll (inputHash : String) : (seen : List String) → List Doc → Except PyError (List (String × (Doc ⊕ Doc)))
  | _, [] => .ok []
  | seen, candidate :: candidates => do
    let fs ← require (match candidate with
      | .obj fs => some fs
      | _ => none) "invalid_candidate"
    let key := (Doc.text? (Dict.getD fs "race_id" .null)).getD ""
    demand ((Doc.text? (Dict.getD fs "race_id" .null)).isSome && !isBlank key && decide (key ∉ seen))
      "missing_or_duplicate_candidate_race_id"
    let made ← convertCandidate key inputHash fs
    let rest ← convertAll inputHash (key :: seen) candidates
    return (key, made) :: rest

/-- The records with their races. -/
def recordsOf (made : List (String × (Doc ⊕ Doc))) : List (String × Doc) := made.filterMap fun m => m.2.getLeft?.map fun r => (m.1, r)

/-- The quarantined candidates with their races. -/
def quarantinedOf (made : List (String × (Doc ⊕ Doc))) : List (String × Doc) :=
  made.filterMap fun m => m.2.getRight?.map fun q => (m.1, q)

/-- The digest of each record under its race. -/
def recordHashes : List (String × Doc) → Except PyError (Dict Doc)
  | [] => .ok []
  | (key, record) :: records => do
    let d ← digest record
    let rest ← recordHashes records
    return (key, .str d) :: rest

/-- `convert` -/
def convert (report : Doc) : Except PyError Doc := do
  let fields ← require (match report with
    | .obj fs => if Dict.getD fs "schema_version" .null = .str "historical-entrant-candidates-v1" then some fs else none
    | _ => none) "entrant_candidate_report_required"
  let candidates ← require (Doc.elements? (Dict.getD fields "records" .null)) "candidate_records_array_required"
  let inputHash ← digest report
  let made ← convertAll inputHash [] candidates
  let hashes ← recordHashes (recordsOf made)
  let records := (recordsOf made).map Prod.snd
  let quarantine := (quarantinedOf made).map Prod.snd
  return .obj [("schema_version", .str "historical-review-records-v1"), ("records", .arr records), ("record_hashes", .obj hashes),
    ("quarantined_records", .arr quarantine), ("input_report_sha256", .str inputHash),
    ("orphan_entrant_races", Dict.getD fields "orphan_entrant_races" (.arr [])),
    ("summary", .obj [("input_races", .num (.int candidates.length)), ("converted_records", .num (.int records.length)),
      ("quarantined_races", .num (.int quarantine.length)),
      ("settlement_counts", counter (records.filterMap fun r => Doc.text? ((r.field "trifecta_settlement").field "status"))),
      ("rider_count_distribution", counter (records.filterMap fun r => (Doc.int? (r.field "rider_count")).map toString)),
      ("training_eligible_races", .num (.int 0)), ("training_runs", .num (.int 0))]),
    ("production_enabled", .bool false), ("automatic_collection_enabled", .bool false)]

end HistoricalRecords

end Keirin

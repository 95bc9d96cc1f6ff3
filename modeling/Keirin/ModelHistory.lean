import Keirin.Lib.Grouped
import Keirin.Lib.Sorted
import Keirin.OfflinePreview

/-!
# Frozen predictions and their review

`model_history.py`: a prediction is captured in a snapshot, the snapshot is settled by the result of its race, and the settled records of
many races are reviewed. Whatever order the records come in, those of one race are judged together.
-/

namespace Keirin

namespace Datetime

/-- `date.fromordinal(ordinal)`: year, month and day. -/
def ymdOf (ordinal : ℕ) : ℕ × ℕ × ℕ :=
  let n := ordinal - 1
  let n400 := n / 146097
  let n100 := n % 146097 / 36524
  let n4 := n % 146097 % 36524 / 1461
  let n1 := n % 146097 % 36524 % 1461 / 365
  let day := n % 146097 % 36524 % 1461 % 365
  let year := n400 * 400 + 1 + n100 * 100 + n4 * 4 + n1
  if n1 = 4 ∨ n100 = 4 then (year - 1, 12, 31)
  else
    let month := (day + 50) / 32
    if day < daysBeforeMonth year month then (year, month - 1, day - daysBeforeMonth year (month - 1) + 1)
    else (year, month, day - daysBeforeMonth year month + 1)

/-- A number in at least `width` digits. -/
def digits (width n : ℕ) : List Char := (toString n).toList.leftpad width '0'

/-- `date.fromordinal(ordinal).isoformat()` -/
def isoDate (ordinal : ℕ) : String :=
  let (year, month, day) := ymdOf ordinal
  String.ofList (digits 4 year ++ '-' :: digits 2 month ++ '-' :: digits 2 day)

/-- `date.fromisoformat(s)`, as the number of days up to it. -/
def dateOf (s : String) : Option ℕ := if s.toList.length ∈ [7, 8, 10] then readDate s.toList else none

/-- `dt.astimezone(timezone(timedelta(hours=9))).date()` for a time with an offset; the calendar ends on both sides. -/
def jstDate (dt : Datetime) : Except PyError ℕ :=
  let utc := dt.epochMicros / 86400000000 + 719163
  let jst := (dt.epochMicros + 32400000000) / 86400000000 + 719163
  if 1 ≤ utc ∧ utc ≤ maxOrdinal ∧ 1 ≤ jst ∧ jst ≤ maxOrdinal then .ok jst.toNat
  else .error (.overflowError "date value out of range")

end Datetime

namespace ModelHistory

open HistoricalPayouts (demand)
open CategorySelection
open OfflinePreview

def SNAPSHOT_SCHEMA : String := "ml-prediction-snapshot-v1"
def HISTORY_SCHEMA : String := "ml-settled-history-v1"
def HELD_SCHEMA : String := "ml-held-history-v1"
def HELD_STATUSES : List String := ["dead_heat", "withdrawn", "cancelled"]

def SAFETY : Dict Doc :=
  [("evidence_scope", .str "synthetic_test_only"), ("production_prediction_enabled", .bool false), ("db_write_enabled", .bool false),
    ("external_fetch_enabled", .bool false), ("monetary_ev_enabled", .bool false), ("promotion_eligible", .bool false),
    ("supervised_training_enabled", .bool false), ("provenance_independently_verified", .bool false)]

/-- `_canonical` -/
def canonical (v : Doc) : Except PyError (List Char) := do
  Doc.checkFinite v
  return v.dumps Scalar.text

/-- `_synthetic` -/
def requireSynthetic (enabled : Bool) : Except PyError Unit := demand enabled "explicit_synthetic_mode_required"

/-- `_iso(value, field)` -/
def iso (value : Doc) (field : String) : Except PyError Datetime := do
  let text ← require (value.text?.filter fun s => s ≠ "") (field ++ "_missing")
  let parsed ← require (Datetime.fromisoformat (zuluOffset text)) (field ++ "_invalid")
  demand parsed.utcoffset.isSome (field ++ "_timezone_missing")
  return parsed

/-- `_safety` -/
def safety (value : Doc) : Except PyError Unit := do
  let given ← canonical (.obj (SAFETY.map fun f => (f.1, value.field f.1)))
  let expected ← canonical (.obj SAFETY)
  demand (given = expected) "synthetic_safety_flags_mismatch"

section Records

-- What `date.fromisoformat` says of a text that is no date.
variable (dateError : String → String)

/-- `race_key` -/
def raceKey (race : Doc) : Except PyError String := do
  demand (isMapping race) "race_identity_required"
  let day ← require (race.field "date").text? "race_date_invalid"
  let ordinal ← require (Datetime.dateOf day) (dateError day)
  demand (Datetime.isoDate ordinal = day) "race_date_invalid"
  let venue ← require (race.field "venue").text? "race_venue_required"
  demand (!isBlank venue && venue = strip venue) "race_venue_required"
  let number ← require ((race.field "race_number").int?.filter fun n => 1 ≤ n) "race_number_invalid"
  let key ← digest (.arr [.str day, .str venue, .num (.int number)])
  return "ml-race-" ++ key

/-- `re.fullmatch('[0-9a-f]{64}', s)` -/
def isDigest (s : String) : Bool := s.toList.length = 64 && s.toList.all fun c => c.isDigit || ('a' ≤ c && c ≤ 'f')

/-- The mapping without a key. -/
def without (name : String) (v : Doc) : Doc := .obj (v.entries.filter fun f => f.1 ≠ name)

/-- `validate_snapshot(snapshot, synthetic=True)` -/
def validateSnapshot (snapshot : Doc) : Except PyError Unit := do
  demand (isMapping snapshot && snapshot.field "schema_version" = .str SNAPSHOT_SCHEMA) "ml_snapshot_schema_mismatch"
  safety snapshot
  demand (snapshot.field "clock_source" = .str "local_unverified") "unverified_local_clock_required"
  let sha256 ← digest (without "snapshot_sha256" snapshot)
  demand (snapshot.field "snapshot_sha256" = .str sha256) "snapshot_digest_mismatch"
  let prediction := snapshot.field "prediction"
  validatePreview prediction
  demand (prediction.get? "selected_predictions").isSome "saved_category_selection_required"
  let artifact := (prediction.field "model_artifact").orEmpty
  let scope ← artifact.pyGet "evidence_scope"
  demand (scope = .str "synthetic_test_only") "synthetic_model_artifact_required"
  demand ((artifact.field "sha256").text?.any isDigest) "model_artifact_digest_required"
  let trained ← iso (artifact.field "trained_at") "model_trained_at"
  let generated ← iso (prediction.field "generated_at") "generated_at"
  let captured ← iso (snapshot.field "captured_at") "captured_at"
  let scheduled ← iso (snapshot.field "scheduled_start") "scheduled_start"
  demand (trained.epochMicros ≤ generated.epochMicros && generated.epochMicros ≤ captured.epochMicros &&
    captured.epochMicros < scheduled.epochMicros) "model_snapshot_time_order_invalid"
  let race := prediction.field "race"
  let key ← raceKey dateError race
  demand (snapshot.field "race_id" = .str key) "race_identity_mismatch"
  let raceScheduled ← iso (race.field "scheduled_start_jst") "race_scheduled_start"
  demand (raceScheduled.epochMicros = scheduled.epochMicros) "scheduled_start_mismatch"
  let date ← scheduled.jstDate
  demand (race.field "date" = .str (Datetime.isoDate date)) "race_date_schedule_mismatch"

/-! ## Settlement -/

/-- The fields a settlement must have. -/
def settlementFields (status : String) (settlement : Doc) : List String :=
  ["race_id", "result_timestamp"] ++
    if status = "normal" then
      ["outcome_combo", "settlement_odds"] ++ if (settlement.get? "result_status").isSome then ["result_status"] else []
    else "result_status" :: if status = "withdrawn" then ["withdrawn_car_numbers"] else []

/-- `set(v) == fields` -/
def hasFields (v : Doc) (fields : List String) : Bool :=
  v.entries.all (fun f => f.1 ∈ fields) && fields.all fun name => (v.get? name).isSome

/-- The numbers of withdrawn cars: distinct numbers of the race. -/
def isWithdrawal (count : ℤ) (cars : Doc) : Bool :=
  match cars.elements? with
  | some xs => !xs.isEmpty && xs.all (fun c => c.int?.any fun n => 1 ≤ n ∧ n ≤ count) && decide (xs.filterMap Doc.int?).Nodup
  | none => false

/-- The checks on an outcome of a race that went as usual. -/
def checkOutcome (prediction settlement : Doc) : Except PyError Unit := do
  let combos := combosOf ((prediction.field "trifecta_scores").elements?.getD [])
  demand ((settlement.field "outcome_combo").text?.any (· ∈ combos)) "outcome_not_in_riders"
  let positive ← isPositive (settlement.field "settlement_odds")
  demand positive "settlement_odds_invalid"

/-- The record of a settled snapshot. -/
def recordOf (status : String) (snapshot settlement : Doc) : Doc :=
  .obj ([("schema_version", .str (if status = "normal" then HISTORY_SCHEMA else HELD_SCHEMA))] ++ SAFETY ++
    [("race_id", snapshot.field "race_id"), ("prediction_timestamp", snapshot.field "captured_at"),
      ("model_artifact_sha256", ((snapshot.field "prediction").field "model_artifact").field "sha256"), ("snapshot", snapshot),
      ("settlement", settlement)])

/-- `settle_snapshot(snapshot, settlement, synthetic=True)` -/
def settleSnapshot (snapshot settlement : Doc) : Except PyError Doc := do
  validateSnapshot dateError snapshot
  demand (isMapping settlement && settlement.field "race_id" = snapshot.field "race_id") "settlement_race_mismatch"
  let status ← require ((Doc.text? ((settlement.get? "result_status").getD (.str "normal"))).filter (· ∈ "normal" :: HELD_STATUSES))
    "result_status_invalid"
  demand (hasFields settlement (settlementFields status settlement)) "settlement_fields_invalid"
  let resultTime ← iso (settlement.field "result_timestamp") "result_timestamp"
  let captured ← iso (snapshot.field "captured_at") "captured_at"
  demand (captured.epochMicros ≤ resultTime.epochMicros) "result_before_capture"
  let scheduled ← iso (snapshot.field "scheduled_start") "scheduled_start"
  demand (status ∉ ["normal", "dead_heat"] || scheduled.epochMicros ≤ resultTime.epochMicros) "result_before_scheduled_start"
  let prediction := snapshot.field "prediction"
  if status = "normal" then checkOutcome prediction settlement
  if status = "withdrawn" then
    demand (isWithdrawal (((prediction.field "input_quality").field "rider_count").int?.getD 0) (settlement.field "withdrawn_car_numbers"))
      "withdrawn_cars_invalid"
  return recordOf status snapshot settlement

/-- `_validate_history` -/
def validateHistory (record : Doc) : Except PyError Unit := do
  demand (isMapping record && (record.field "schema_version").text?.any (· ∈ [HISTORY_SCHEMA, HELD_SCHEMA])) "ml_history_schema_mismatch"
  let expected ← settleSnapshot dateError (record.field "snapshot") (record.field "settlement")
  let given ← canonical record
  let settled ← canonical expected
  demand (given = settled) "history_does_not_match_snapshot"

end Records

/-! ## Scores -/

/-- What is left to the machine's arithmetic of doubles: the logarithm, the square, and the sum. -/
structure Arithmetic where
  log : ℚ → ℚ
  square : ℚ → ℚ
  sum : List ℚ → ℚ

/-- The numbers `score` gives of a prediction: the place of the outcome, and the values that are pooled. -/
structure Metrics where
  rank : ℕ
  reciprocalRank : ℚ
  logLoss : ℚ
  brierSum : ℚ
deriving DecidableEq

/-- `int(rank <= k)` -/
def Metrics.top (m : Metrics) (k : ℕ) : ℚ := if m.rank ≤ k then 1 else 0

/-- The probabilities of the combinations of a table, in its order. -/
def tableOf (scores : List Doc) : Dict ℚ :=
  Dict.update [] (scores.filterMap fun row => (row.field "combo_key").text?.map fun key => (key, valueOf (row.field "estimated_probability")))

/-- `sorted(table, key=lambda key: (-table[key], key))` -/
def ordered (table : Dict ℚ) : List (String × ℚ) := table.insertionSort fun a b => b.2 < a.2 ∨ (b.2 = a.2 ∧ a.1 ≤ b.1)

/-- `1e-15` -/
def leastProbability : ℚ := roundRat (1 / 10 ^ 15)

/-- `score` -/
def score (arithmetic : Arithmetic) (table : Dict ℚ) (outcome : String) : Metrics where
  rank := ((ordered table).map Prod.fst).idxOf outcome + 1
  reciprocalRank := roundRat (1 / (((ordered table).map Prod.fst).idxOf outcome + 1 : ℕ))
  logLoss := -arithmetic.log (max (Dict.getD table outcome 0) leastProbability)
  brierSum := arithmetic.sum (table.map fun e => arithmetic.square (roundRat (e.2 - if e.1 = outcome then 1 else 0)))

/-! ## The review -/

/-- A race whose result was not an ordinary one: it waits for a review. -/
structure HeldCase where
  raceId : String
  riderCount : ℤ
  reasons : List String
  withdrawnCarNumbers : List ℤ
  excludedRecords : ℕ
deriving DecidableEq

/-- What the review says of a category of a prediction. -/
structure CategoryReview where
  selectedCount : ℕ
  hit : Bool
deriving DecidableEq

/-- What the review says of a race. -/
structure RaceReview where
  raceId : String
  modelArtifactSha256 : String
  riderCount : ℤ
  predictionTimestamp : String
  metrics : Metrics
  categories : Dict CategoryReview
deriving DecidableEq

/-- The parts of a record that has been validated. -/
def raceIdOf (record : Doc) : String := (record.field "race_id").text?.getD ""

def isHeld (record : Doc) : Bool := record.field "schema_version" = .str HELD_SCHEMA

def riderCountOf (record : Doc) : ℤ :=
  ((((record.field "snapshot").field "prediction").field "input_quality").field "rider_count").int?.getD 0

/-- `_iso(record['prediction_timestamp'], 'prediction_timestamp')` -/
def timeOf (record : Doc) : ℤ := ((iso (record.field "prediction_timestamp") "prediction_timestamp").toOption.map Datetime.epochMicros).getD 0

/-- `{**v, key: value}` -/
def withField (v : Doc) (key : String) (value : Doc) : Doc := .obj (Dict.set key value v.entries)

/-- The settlement, its status being said. -/
def plainSettlement (record : Doc) : Doc := withField (record.field "settlement") "result_status" (.str "normal")

/-- The record, the status of its settlement being said. -/
def plainRecord (record : Doc) : Doc := withField record "settlement" (plainSettlement record)

/-- The texts of records. -/
def textsOf (f : Doc → Doc) (records : List Doc) : List (List Char) := (records.map fun r => (f r).dumps Scalar.text).dedup

/-- `sorted(set(xs))` -/
def sortedSet {α : Type} [LinearOrder α] (xs : List α) : List α := xs.dedup.insertionSort (· ≤ ·)

/-- The cars withdrawn from a race. -/
def withdrawnOf (record : Doc) : List ℤ :=
  (((record.field "settlement").field "withdrawn_car_numbers").elements?.getD []).filterMap Doc.int?

/-- What becomes of the records of a race. -/
inductive Verdict
  | held (case : HeldCase)
  | excluded (reason : String)
  | selected (record : Doc)

/-- The latest time of records. -/
def latestOf (group : List Doc) : ℤ := (group.map timeOf).max?.getD 0

/-- The records of one race: an exception holds it, and what contradicts itself is left out. -/
def judge (group : List Doc) : Verdict :=
  let holds := group.filter isHeld
  match group with
  | [] => .excluded ""
  | first :: _ =>
    if holds ≠ [] then
      .held
        { raceId := raceIdOf first
          riderCount := riderCountOf first
          reasons := sortedSet (holds.filterMap fun r => ((r.field "settlement").field "result_status").text?)
          withdrawnCarNumbers := sortedSet (holds.flatMap withdrawnOf)
          excludedRecords := group.length }
    else if (textsOf plainSettlement group).length ≠ 1 then .excluded "conflicting_settlements"
    else
      let tied := group.filter fun r => timeOf r = latestOf group
      if (textsOf plainRecord tied).length ≠ 1 then .excluded "conflicting_latest_snapshots"
      else
        match tied with
        | [] => .excluded ""
        | record :: _ => .selected record

/-- What has been collected of the races so far. -/
structure Review where
  selected : List Doc
  held : List HeldCase
  duplicates : ℕ
  excluded : Dict ℕ

/-- The records of one more race. -/
def Review.add (review : Review) (group : List Doc) : Review :=
  match judge group with
  | .held case =>
    { review with
      held := review.held ++ [case]
      excluded := Tally.add review.excluded "nonstandard_race_requires_review" group.length }
  | .excluded reason => { review with excluded := Tally.add review.excluded reason group.length }
  | .selected record => { review with selected := review.selected ++ [record], duplicates := review.duplicates + (group.length - 1) }

/-- `str(exc) if isinstance(exc, ValueError) else 'malformed_record'` -/
def reasonOf : PyError → String
  | .valueError message => message
  | _ => "malformed_record"

/-- What is reported of a race. -/
def raceReview (arithmetic : Arithmetic) (record : Doc) : RaceReview :=
  let prediction := (record.field "snapshot").field "prediction"
  let outcome := ((record.field "settlement").field "outcome_combo").text?.getD ""
  { raceId := raceIdOf record
    modelArtifactSha256 := (record.field "model_artifact_sha256").text?.getD ""
    riderCount := riderCountOf record
    predictionTimestamp := (record.field "prediction_timestamp").text?.getD ""
    metrics := score arithmetic (tableOf ((prediction.field "trifecta_scores").elements?.getD [])) outcome
    categories := ((prediction.field "selected_predictions").field "categories").entries.map fun c =>
      let picks := (c.2.field "picks").elements?.getD []
      (c.1, { selectedCount := picks.length, hit := picks.any fun p => (p.field "combo_key").text? = some outcome }) }

/-- The sum of a field over the races: of doubles, or of whole numbers. -/
def pooledSums (arithmetic : Arithmetic) (metrics : List Metrics) : Dict ℚ :=
  [("reciprocal_rank", arithmetic.sum (metrics.map Metrics.reciprocalRank)), ("log_loss", arithmetic.sum (metrics.map Metrics.logLoss)),
    ("brier_sum", arithmetic.sum (metrics.map Metrics.brierSum)), ("top1", (metrics.map fun m => m.top 1).sum),
    ("top3", (metrics.map fun m => m.top 3).sum), ("top5", (metrics.map fun m => m.top 5).sum),
    ("top10", (metrics.map fun m => m.top 10).sum)]

structure Report where
  status : String
  inputRecords : ℕ
  evaluatedRaces : ℕ
  heldRaces : ℕ
  heldCases : List HeldCase
  modelArtifacts : List String
  excluded : Dict ℕ
  duplicateSnapshotsRemoved : ℕ
  metrics : Dict ℚ
  perRace : List RaceReview

section Evaluate

variable (dateError : String → String) (arithmetic : Arithmetic)

/-- The records that are valid, and how often which reason stood against one. -/
def screen (records : List Doc) : List Doc × Dict ℕ :=
  records.foldl (fun acc record =>
    match validateHistory dateError record with
    | .ok () => (acc.1 ++ [record], acc.2)
    | .error exc => (acc.1, Tally.add acc.2 (reasonOf exc) 1)) ([], [])

/-- The races with their records, judged one after the other. -/
def reviewed (records : List Doc) : Review :=
  ((Grouped.group raceIdOf (screen dateError records).1).map Prod.snd).foldl Review.add ⟨[], [], 0, (screen dateError records).2⟩

/-- The report on a review. -/
def report (inputs : ℕ) (review : Review) : Report :=
  let perRace := (review.selected.insertionSort (Sorted.Lex timeOf raceIdOf)).map (raceReview arithmetic)
  { status := if perRace = [] then "blocked_no_valid_histories" else "completed_synthetic_frozen_review"
    inputRecords := inputs
    evaluatedRaces := perRace.length
    heldRaces := review.held.length
    heldCases := review.held.insertionSort fun a b => a.raceId ≤ b.raceId
    modelArtifacts := sortedSet (perRace.map RaceReview.modelArtifactSha256)
    excluded := review.excluded
    duplicateSnapshotsRemoved := review.duplicates
    metrics :=
      if perRace = [] then []
      else (pooledSums arithmetic (perRace.map RaceReview.metrics)).map fun f => (f.1, roundRat (f.2 / perRace.length))
    perRace := perRace }

/-- `evaluate_histories(records, synthetic=synthetic)` -/
def evaluateHistories (synthetic : Bool) (records : List Doc) : Except PyError Report := do
  requireSynthetic synthetic
  return report arithmetic records.length (reviewed dateError records)

end Evaluate

end ModelHistory

end Keirin

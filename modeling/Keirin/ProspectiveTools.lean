import Keirin.EvaluationProtocol
import Keirin.Lib.JsValue

/-!
# The prospective tools of the browser

`prospective-tools-core.js`: the records that may be evaluated (`recordCandidate`), of each race the latest of them
(`prepareRecords`) and their chronological division (`splitRecords`). What the engine of the browser makes of a date text
(`Date.parse`) and of the order of two texts (`localeCompare`) is left open.
-/

namespace Keirin.ProspectiveTools

open JsVal
open EvaluationProtocol (comboKey intText baselineVersion mentionsSynthetic)

/-! ## Checks -/

/-- Whether a text ends with `Z` or an offset: `/(?:Z|[+-]\\d{2}:\\d{2})$/`. -/
def awareTime (s : String) : Bool :=
  match s.toList.reverse with
  | 'Z' :: _ => true
  | m :: m' :: ':' :: h :: h' :: sign :: _ => m.isDigit && m'.isDigit && h.isDigit && h'.isDigit && (sign = '+' || sign = '-')
  | _ => false

/-- `parseAwareTime` -/
def parseAwareTime (dateParse : String → Option ℤ) (value : JsVal) (field : String) : Except String ℤ :=
  match value with
  | some (.str s) =>
    if s = "" ∨ awareTime s = false then .error (field ++ "_timezone_missing")
    else match dateParse s with
      | some ms => .ok ms
      | none => .error (field ++ "_invalid")
  | _ => .error (field ++ "_timezone_missing")

/-- `permutations3`, for cars that are integers. -/
def permutations3 (cars : List ℤ) : List String :=
  cars.flatMap fun a => cars.flatMap fun b => cars.filterMap fun c =>
    if a ≠ b ∧ a ≠ c ∧ b ≠ c then some (comboKey a b c) else none

/-- The double next to a sum. -/
def addRounded (mass p : ℚ) : ℚ := roundRat (mass + p)

/-- The rows of the baseline: one probability for each key. The value is their sum. -/
def tableMass (expected : List String) (seen : List String) (mass : ℚ) : List JsDoc → Except String (Option ℚ)
  | [] => .ok (some mass)
  | row :: rows => do
    let key ← andProp (some row) "combo_key"
    let probability ← andProp (some row) "estimated_probability"
    match key, probability with
    | some (.str k), some (.num n) =>
      match n.value with
      | some p =>
        if k ∉ expected ∨ k ∈ seen ∨ p < 0 ∨ 1 < p then return none
        else tableMass expected (k :: seen) (addRounded mass p) rows
      | none => return none
    | _, _ => return none

/-- `fullProbabilityTableValid` -/
def fullProbabilityTableValid (scores : JsVal) (cars : List ℤ) : Except String Bool :=
  let expected := (permutations3 cars).dedup
  match scores.elements? with
  | some rows =>
    if rows.length ≠ expected.length then .ok false
    else (tableMass expected [] 0 rows).map fun mass =>
      match mass with
      | some m => |roundRat (m - 1)| ≤ roundRat (1 / 1000000)
      | none => false
  | none => .ok false

/-- `requireStandardConditions` -/
def requireStandardConditions (input : JsVal) : Except String Unit :=
  match input with
  | some (.obj fs) =>
    match Dict.get? "race_conditions" fs with
    | none => .ok ()
    | some (.obj c) => do
      raiseIf (",".intercalate ((c.map Prod.fst).insertionSort (· ≤ ·)) ≠ "race_status,withdrawn_car_numbers")
        "race_conditions_contract_invalid"
      raiseIf (isStr (Dict.get? "race_status" c) "scheduled" = false) "nonstandard_race_requires_review"
      match Dict.get? "withdrawn_car_numbers" c with
      | some (.arr cars) => raiseIf (cars ≠ []) "withdrawal_requires_review"
      | _ => .error "race_conditions_contract_invalid"
    | some _ => .error "race_conditions_contract_invalid"
  | _ => .ok ()

/-- The cars of seven or nine players, where they are distinct numbers from one on. -/
def carsOf (players : List JsDoc) : Except String (Option (List ℤ)) := do
  let cars ← players.mapM fun player => andProp (some player) "car_number"
  let numbers := cars.filterMap fun car =>
    match car with
    | some (.num n) => n.int?.filter fun c => 1 ≤ c ∧ c ≤ players.length
    | _ => none
  return if numbers.length = players.length ∧ numbers.Nodup then some numbers else none

/-! ## Candidates -/

/-- A record that may be evaluated. -/
structure Item where
  record : JsDoc
  raceId : String
  predictionTime : ℤ
  resultTime : ℤ

section

variable (dateParse : String → Option ℤ)

/-- The checks on the schedule of a record, where it has one. -/
def checkSchedule (metadata training : JsVal) (predictionTime resultTime : ℤ) : Except String Unit := do
  let snapshot ← prop metadata "source_snapshot"
  let eligibility ← prop (snapshot.or empty) "snapshot_eligibility"
  let scheduledRaw ← prop (eligibility.or empty) "scheduled_start"
  if isNullish scheduledRaw then return ()
  else do
    let scheduled ← parseAwareTime dateParse scheduledRaw "scheduled_start"
    raiseIf (scheduled ≤ predictionTime ∨ resultTime < scheduled) "invalid_schedule_order"
    let race ← prop training "race"
    let raceScheduledRaw ← prop (race.or empty) "scheduled_start_jst"
    if isNullish raceScheduledRaw then return ()
    else do
      let raceScheduled ← parseAwareTime dateParse raceScheduledRaw "race_scheduled_start"
      raiseIf (raceScheduled ≠ scheduled) "scheduled_start_mismatch"

/-- `recordCandidate` -/
def recordCandidate (record : JsDoc) : Except String Item := do
  let metadataRaw ← andProp (some record) "metadata"
  let metadata := metadataRaw.or empty
  let eligibility ← prop metadata "training_eligibility"
  let training ← andProp (some record) "training_input"
  let scope ← prop metadata "evaluation_scope"
  raiseIf (isStr scope "prospective" = false) "not_prospective"
  let order ← prop metadata "temporal_order"
  raiseIf (isStr order "prediction_before_result" = false) "not_pre_result"
  let supervised ← prop (eligibility.or empty) "supervised_training"
  raiseIf (isTrue supervised = false) "not_marked_training_eligible"
  raiseIf (isObject training = false) "training_input_missing"
  requireStandardConditions training
  let schema ← prop training "schema_version"
  raiseIf (isStr schema Dataset.trainingSchema = false) "training_schema_mismatch"
  let inputScope ← prop training "evaluation_scope"
  raiseIf (isStr inputScope "prospective" = false) "training_input_not_prospective"
  let context ← prop training "prediction_context"
  let sourceRaw ← prop (context.or empty) "source"
  let source ← (sourceRaw.or (some (.str ""))).text
  raiseIf (mentionsSynthetic source = true) "synthetic_excluded"
  let raceRaw ← prop (some record) "race_id"
  let raceText ← (raceRaw.or (some (.str ""))).text
  raiseIf (trim raceText = "") "race_id_missing"
  let predictionRaw ← prop (some record) "prediction_timestamp"
  let predictionTime ← parseAwareTime dateParse predictionRaw "timestamp"
  let resultRaw ← prop metadata "result_timestamp"
  let resultTime ← parseAwareTime dateParse resultRaw "timestamp"
  let capturedRaw ← prop training "captured_at"
  let captured ← parseAwareTime dateParse capturedRaw "timestamp"
  raiseIf (captured ≠ predictionTime ∨ resultTime ≤ predictionTime) "invalid_temporal_order"
  checkSchedule dateParse metadata training predictionTime resultTime
  let playersRaw ← prop training "players"
  match playersRaw.elements? with
  | none => .error "seven_or_nine_unique_riders_required"
  | some players => do
    raiseIf (¬(players.length = 7 ∨ players.length = 9)) "seven_or_nine_unique_riders_required"
    match ← carsOf players with
    | none => .error "invalid_car_number"
    | some cars => do
      let styles ← players.mapM fun player => andProp (some player) "style"
      raiseIf (styles.all (fun style => isStr style "逃" || isStr style "両" || isStr style "追") = false) "invalid_style"
      let version ← prop metadata "engine_version"
      raiseIf (isStr version baselineVersion = false) "baseline_version_mismatch"
      let scores ← prop (some record) "trifecta_scores"
      let full ← fullProbabilityTableValid scores cars
      raiseIf (full = false) "baseline_incomplete"
      let outcome ← prop (some record) "outcome_combo"
      raiseIf ((permutations3 cars).all (fun key => isStr outcome key = false) = true) "outcome_not_in_riders"
      return ⟨record, trim raceText, predictionTime, resultTime⟩

end

/-! ## Preparation -/

/-- The candidates by race, and the records that are none by reason. -/
def collect (check : JsDoc → Except String Item) (excluded : Dict ℕ) (groups : Dict (List Item)) :
    List JsDoc → Dict ℕ × Dict (List Item)
  | [] => (excluded, groups)
  | record :: records =>
    match check record with
    | .ok item => collect check excluded (Dict.set item.raceId (Dict.getD groups item.raceId [] ++ [item]) groups) records
    | .error code => collect check (EvaluationProtocol.exclude excluded code 1) groups records

/-- `JSON.stringify(record)` -/
def recordText (record : JsDoc) : List Char := (JsDoc.stringify record).render NumLit.render

/-- The latest candidates of a race. -/
def latestOf (group : List Item) : List Item :=
  group.filter fun item => ∀ other ∈ group, other.predictionTime ≤ item.predictionTime

/-- The candidate that stands for a race, or the reason why none does. -/
def choose (group : List Item) : Item ⊕ String :=
  if ((group.map fun item => (item.record.get? "outcome_combo")).dedup).length ≠ 1 then .inr "conflicting_outcomes"
  else match latestOf group with
    | item :: rest =>
      if (((item :: rest).map fun i => recordText i.record).dedup).length = 1 then .inl item else .inr "conflicting_latest_snapshots"
    | [] => .inr "conflicting_latest_snapshots"

/-- The races one by one: those selected, the excluded records and the number of snapshots dropped. -/
def selectAll (excluded : Dict ℕ) : List (List Item) → List Item × Dict ℕ × ℕ
  | [] => ([], excluded, 0)
  | group :: groups =>
    match choose group with
    | .inl item =>
      let (selected, excluded, duplicates) := selectAll excluded groups
      (item :: selected, excluded, duplicates + (group.length - 1))
    | .inr reason => selectAll (EvaluationProtocol.exclude excluded reason group.length) groups

/-- `(a, b) => a.prediction_time - b.prediction_time || a.race_id.localeCompare(b.race_id)`, not positive. -/
def notLater (localeCompare : String → String → ℤ) (a b : Item) : Prop :=
  a.predictionTime < b.predictionTime ∨ (a.predictionTime = b.predictionTime ∧ localeCompare a.raceId b.raceId ≤ 0)

instance (localeCompare : String → String → ℤ) : DecidableRel (notLater localeCompare) := fun a b =>
  inferInstanceAs (Decidable (a.predictionTime < b.predictionTime ∨
    (a.predictionTime = b.predictionTime ∧ localeCompare a.raceId b.raceId ≤ 0)))

/-- The records selected, the excluded records by reason and the number of snapshots dropped. -/
structure Prepared where
  selected : List Item
  excluded : Dict ℕ
  duplicateSnapshotsRemoved : ℕ

/-- `prepareRecords` -/
def prepareRecords (dateParse : String → Option ℤ) (localeCompare : String → String → ℤ) (records : List JsDoc) : Prepared :=
  let (excluded, groups) := collect (recordCandidate dateParse) [] [] records
  let (chosen, excluded, duplicates) := selectAll excluded (groups.map Prod.snd)
  ⟨chosen.insertionSort (notLater localeCompare), excluded, duplicates⟩

/-! ## The division -/

/-- The parts of a division, with its boundaries. -/
structure Split where
  train : List Item
  validation : List Item
  test : List Item
  purged : ℕ
  validationStart : ℤ
  testStart : ℤ

/-- `splitRecords`; `Math.floor(n * 0.6)` and `Math.floor(n * 0.8)` are exact. -/
def splitRecords (selected : List Item) : Except String Split := do
  let times := Holdout.times Item.predictionTime selected
  raiseIf (times.length < 5) "need_at_least_five_distinct_prediction_times"
  match times[max 2 (times.length * 3 / 5)]?, times[max 3 (times.length * 4 / 5)]? with
  | some validStart, some testStart => do
    let train := selected.filter fun i => i.predictionTime < validStart ∧ i.resultTime < validStart
    let valid := selected.filter fun i => validStart ≤ i.predictionTime ∧ i.predictionTime < testStart ∧ i.resultTime < testStart
    let test := selected.filter fun i => testStart ≤ i.predictionTime
    raiseIf (train.length < 2 ∨ valid = [] ∨ test = []) "insufficient_non_overlapping_partitions"
    return ⟨train, valid, test, selected.length - train.length - valid.length - test.length, validStart, testStart⟩
  | _, _ => .error "Invalid time value"

end Keirin.ProspectiveTools

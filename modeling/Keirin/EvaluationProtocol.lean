import Keirin.Dataset
import Keirin.Ledger
import Keirin.Lib.Holdout

/-!
# The evaluation protocol

`ml.evaluation_protocol`: the records that may be evaluated (`candidate`), of each race the latest of them (`prepare`), and their
chronological division into training, validation and test (`splitRecords`).
-/

namespace Keirin.EvaluationProtocol

open Dataset

/-- `BASELINE` -/
def baselineVersion : String := "phase32-hit-priority-all210-v1"

/-! ## The baseline -/

/-- A decimal numeral. -/
def intText (n : ℤ) : String := String.ofList (NumLit.ofInt n).render

/-- `"-".join(map(str, p))` -/
def comboKey (a b c : ℤ) : String := intText a ++ "-" ++ intText b ++ "-" ++ intText c

/-- The keys of the permutations of three cars, `{"-".join(map(str, p)) for p in permutations(cars, 3)}`. -/
def comboKeys (cars : List ℤ) : List String :=
  let places := cars.zipIdx
  (places.flatMap fun a => places.flatMap fun b => places.filterMap fun c =>
    if a.2 ≠ b.2 ∧ a.2 ≠ c.2 ∧ b.2 ≠ c.2 then some (comboKey a.1 b.1 c.1) else none).dedup

/-- The rows of the baseline, one probability for each key. -/
def readTable (expected : List String) (values : Dict ℚ) : List Doc → Except PyError (Dict ℚ)
  | [] => .ok values
  | row :: rows => do
    let key ← subscript row "combo_key"
    let raw ← subscript row "estimated_probability"
    raiseIf (Doc.hashable key = false) (.typeError "unhashable type")
    let key ← require ((Doc.text? key).filter fun k => k ∉ values.map Prod.fst ∧ k ∈ expected ∧ raw ≠ .bool true ∧ raw ≠ .bool false)
      "baseline_invalid"
    let x ← raw.toFloat
    let p ← require (x.value.filter fun p => 0 ≤ p ∧ p ≤ 1) "baseline_invalid_probability"
    readTable expected (Dict.set key p values) rows

/-- Whether probabilities add up to one. -/
def massOk (values : List ℚ) : Bool := |roundRat (pySum values - 1)| ≤ roundRat (1 / 1000000)

/-- `probability_table` -/
def probabilityTable (rows : Doc) (cars : List ℤ) : Except PyError (Dict ℚ) := do
  let expected := comboKeys cars
  let rows ← require (rows.elements?.filter fun rs => rs.length = expected.length) "baseline_incomplete"
  let values ← readTable expected [] rows
  raiseIf (massOk (values.map Prod.snd) = false) (.valueError "baseline_invalid_mass")
  return values

/-! ## Candidates -/

/-- A record that may be evaluated. -/
structure Item where
  record : Doc
  rows : List (Dict Doc)
  predictionTime : ℚ
  resultTime : ℚ
  baseline : Dict ℚ
  raceId : String

section

variable (repr : Doc → String)

/-- The source of the context of a prediction: `.get("prediction_context", {}).get("source", "")`. -/
def sourceOf (trainingInput : Doc) : Except PyError Doc :=
  match (trainingInput.get? "prediction_context").getD (.obj []) with
  | .obj context => .ok ((Dict.get? "source" context).getD (.str ""))
  | _ => .error (.attributeError "get")

/-- `"synthetic" in text.lower()` -/
def mentionsSynthetic (text : String) : Bool :=
  (text.toList.map Char.toLower).tails.any fun rest => "synthetic".toList.isPrefixOf rest

/-- The checks on a record, in the order of the source. -/
def candidate (synthetic : Bool) (record : Doc) : Except PyError Item := do
  match ← supervisedEligibility record with
  | some reason => .error (.valueError reason)
  | none => do
    let training := record.field "training_input"
    let metadata := record.field "metadata"
    let source ← sourceOf training
    raiseIf (mentionsSynthetic (source.toStr repr) = true ∧ synthetic = false) (.valueError "synthetic_excluded")
    let raceId := strip ((Doc.orElse (record.field "race_id") (.str "")).toStr repr)
    raiseIf (raceId = "") (.valueError "race_id_missing")
    let predictionTime ← timestamp (record.field "prediction_timestamp")
    let resultTime ← timestamp (metadata.field "result_timestamp")
    let captured ← timestamp (training.field "captured_at")
    raiseIf (captured ≠ predictionTime ∨ ¬predictionTime < resultTime) (.valueError "invalid_temporal_order")
    let players ← require ((training.field "players").elements?.filter fun ps => ps.length = 7 ∨ ps.length = 9)
      "seven_or_nine_unique_riders_required"
    let rawCars ← players.mapM fun player => subscript player "car_number"
    let numerals := (List.range players.length).map fun i => intText (i + 1)
    raiseIf (∃ car ∈ rawCars, car = .bool true ∨ car = .bool false ∨ car.toStr repr ∉ numerals) (.valueError "invalid_car_number")
    let rows ← riderRows record
    let cars := rows.filterMap fun row => Doc.int? (Dict.getD row "car_number" .null)
    raiseIf (rows.length ≠ rawCars.length ∨ ¬cars.Nodup) (.valueError "seven_or_nine_unique_riders_required")
    let styles := rows.map fun row => Dict.getD row "style" .null
    checkStyles styles
    raiseIf (metadata.field "engine_version" ≠ .str baselineVersion) (.valueError "baseline_version_mismatch")
    let baseline ← probabilityTable (record.field "trifecta_scores") cars
    raiseIf (¬∃ combo ∈ Doc.text? (record.field "outcome_combo"), combo ∈ baseline.map Prod.fst) (.valueError "outcome_not_in_riders")
    return ⟨record, rows, predictionTime, resultTime, baseline, raceId⟩
where
  /-- `any(style not in {"逃", "両", "追"} for style in styles)`: a list or a mapping cannot be looked up in a set. -/
  checkStyles : List Doc → Except PyError Unit
    | [] => .ok ()
    | style :: styles => do
      raiseIf (style.hashable = false) (.typeError "unhashable type")
      raiseIf (style ∉ ([.str "逃", .str "両", .str "追"] : List Doc)) (.valueError "invalid_style")
      checkStyles styles

/-! ## Preparation -/

/-- `str(exc) if isinstance(exc, ValueError) else "malformed_record"`; other exceptions are not handled. -/
def excludedReason : PyError → Option String
  | .valueError m => some m
  | .typeError _ => some "malformed_record"
  | .keyError _ => some "malformed_record"
  | .attributeError _ => some "malformed_record"
  | .overflowError _ => some "malformed_record"
  | _ => none

/-- `excluded[reason] += n` -/
def exclude (excluded : Dict ℕ) (reason : String) (n : ℕ) : Dict ℕ := Dict.set reason (Dict.getD excluded reason 0 + n) excluded

/-- The candidates by race, and the records that are none by reason. -/
def collect (check : Doc → Except PyError Item) (excluded : Dict ℕ) (groups : Dict (List Item)) :
    List Doc → Except PyError (Dict ℕ × Dict (List Item))
  | [] => .ok (excluded, groups)
  | record :: records =>
    match check record with
    | .ok item => collect check excluded (Dict.set item.raceId (Dict.getD groups item.raceId [] ++ [item]) groups) records
    | .error exc =>
      match excludedReason exc with
      | some reason => collect check (exclude excluded reason 1) groups records
      | none => .error exc

/-- `json.dumps(record, sort_keys=True)` -/
def recordText (record : Doc) : Except PyError (List Char) :=
  if record.encodable then .ok (Doc.ascii (record.sortKeys.spaced [' '] Scalar.dumpText))
  else .error (.typeError "Object is not JSON serializable")

/-- The latest candidates of a race. -/
def latestOf (group : List Item) : List Item :=
  group.filter fun item => ∀ other ∈ group, other.predictionTime ≤ item.predictionTime

/-- The candidate that stands for a race, or the reason why none does. -/
def choose (group : List Item) : Except PyError (Item ⊕ String) :=
  if ((group.map fun item => item.record.field "outcome_combo").dedup).length ≠ 1 then .ok (.inr "conflicting_outcomes")
  else do
    let texts ← (latestOf group).mapM fun item => recordText item.record
    match latestOf group with
    | item :: _ => return if texts.dedup.length = 1 then .inl item else .inr "conflicting_latest_snapshots"
    | [] => .error (.valueError "max() arg is an empty sequence")

/-- The races one by one: those selected, the excluded records and the number of snapshots dropped. -/
def selectAll (excluded : Dict ℕ) : List (List Item) → Except PyError (List Item × Dict ℕ × ℕ)
  | [] => .ok ([], excluded, 0)
  | group :: groups => do
    match ← choose group with
    | .inl item => do
      let (selected, excluded, duplicates) ← selectAll excluded groups
      return (item :: selected, excluded, duplicates + (group.length - 1))
    | .inr reason => selectAll (exclude excluded reason group.length) groups

/-- The order of the selected records: by prediction time, then by race. -/
def earlier (a b : Item) : Prop := a.predictionTime < b.predictionTime ∨ (a.predictionTime = b.predictionTime ∧ a.raceId ≤ b.raceId)

instance : DecidableRel earlier := fun a b =>
  inferInstanceAs (Decidable (a.predictionTime < b.predictionTime ∨ (a.predictionTime = b.predictionTime ∧ a.raceId ≤ b.raceId)))

/-- What the preparation reports of the quality of the data. -/
structure Quality where
  inputRecords : ℕ
  eligibleUniqueRaces : ℕ
  excluded : Dict ℕ
  duplicateSnapshotsRemoved : ℕ
  riderRows : ℕ
  missingFeatureCounts : Dict ℕ

/-- `prepare` -/
def prepare (synthetic : Bool) (records : List Doc) : Except PyError (List Item × Quality) := do
  let (excluded, groups) ← collect (candidate repr synthetic) [] [] records
  let (chosen, excluded, duplicates) ← selectAll excluded (groups.map Prod.snd)
  let selected := chosen.insertionSort earlier
  let rows := selected.flatMap Item.rows
  return (selected, {
    inputRecords := records.length
    eligibleUniqueRaces := selected.length
    excluded := excluded
    duplicateSnapshotsRemoved := duplicates
    riderRows := rows.length
    missingFeatureCounts := (numericFeatures.map fun name => (name, rows.countP fun row => isMissing row name)) ++
      styleFeatures.map fun name => (name, 0) })

end

/-! ## The division -/

/-- The parts of a division, with its boundaries. -/
structure Split where
  train : List Item
  validation : List Item
  test : List Item
  purged : ℕ
  validationStart : ℚ
  testStart : ℚ

/-- The check `datetime.fromtimestamp(t, timezone.utc)` makes: the year is between 1 and 9999. -/
def checkUtc (t : ℚ) : Except PyError Unit :=
  let micros := Binary64.roundHalfEven (t * 1000000)
  raiseIf (micros < -62135596800000000 ∨ 253402300800000000 ≤ micros) (.valueError "year is out of range")

/-- `split_records`; the boundaries are instants, which the source writes in ISO format. `int(n * 0.6)` and `int(n * 0.8)` are exact. -/
def splitRecords (records : List Item) : Except PyError Split := do
  let times := Holdout.times Item.predictionTime records
  raiseIf (times.length < 5) (.valueError "need_at_least_five_distinct_prediction_times")
  match times[max 2 (times.length * 3 / 5)]?, times[max 3 (times.length * 4 / 5)]? with
  | some validStart, some testStart => do
    let train := records.filter fun i => i.predictionTime < validStart ∧ i.resultTime < validStart
    let valid := records.filter fun i => validStart ≤ i.predictionTime ∧ i.predictionTime < testStart ∧ i.resultTime < testStart
    let test := records.filter fun i => testStart ≤ i.predictionTime
    raiseIf (train.length < 2 ∨ valid = [] ∨ test = []) (.valueError "insufficient_non_overlapping_partitions")
    checkUtc validStart
    checkUtc testStart
    return ⟨train, valid, test, records.length - train.length - valid.length - test.length, validStart, testStart⟩
  | _, _ => .error (.valueError "list index out of range")

end Keirin.EvaluationProtocol

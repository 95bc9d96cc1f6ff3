import Keirin.Dataset
import Keirin.Lib.Latest
import Mathlib.Data.String.Basic

/-!
# The training set

`ml.dataset` selects of each race the latest eligible record (`selectLatestEligiblePerRace`) and puts the rows of their riders one
after the other (`buildRows`). `ml.build_training_dataset` writes the rows as CSV, and `ml.train_position_models` reads them back,
gathers them by race (`groupedRaces`) and divides the races into those it trains on and those it validates on (`train`).
-/

namespace Keirin.TrainingRows

open Dataset

section

-- `mktime` is the time of a date without an offset on this machine, `repr` the text of containers.
variable (mktime : Datetime → Except PyError ℚ) (repr : Doc → String)

/-! ## Selection -/

/-- `_time_key`: what is no time comes before all times. -/
def timeKey (value : Doc) : Except PyError (WithBot ℚ) :=
  match value with
  | .str s =>
    if s = "" then .ok ⊥
    else match Datetime.fromisoformat (zuluOffset s) with
      | none => .ok ⊥
      | some dt =>
        if dt.utcoffset.isSome then .ok dt.timestamp
        else match mktime dt with
          | .ok t => .ok t
          | .error (.valueError _) => .ok ⊥
          | .error exc => .error exc
  | _ => .ok ⊥

/-- `str(record.get("race_id") or "")` -/
def raceText (record : Doc) : String := (Doc.orElse (record.field "race_id") (.str "")).toStr repr

/-- The race of a record, without blanks around it. -/
def raceIdOf (record : Doc) : String := strip (raceText repr record)

/-- One record: it is excluded, or kept for its race if it is later than the one kept so far. -/
def selectStep (acc : Dict Doc × Dict ℕ) (record : Doc) : Except PyError (Dict Doc × Dict ℕ) := do
  match ← supervisedEligibility record with
  | some reason => return (acc.1, Tally.add acc.2 reason 1)
  | none =>
    if raceIdOf repr record = "" then return (acc.1, Tally.add acc.2 "race_id_missing" 1)
    else match Dict.get? (raceIdOf repr record) acc.1 with
      | none => return (Dict.set (raceIdOf repr record) record acc.1, acc.2)
      | some current => do
        let time ← timeKey mktime (record.field "prediction_timestamp")
        let currentTime ← timeKey mktime (current.field "prediction_timestamp")
        return (if currentTime < time then Dict.set (raceIdOf repr record) record acc.1 else acc.1, acc.2)

/-- `select_latest_eligible_per_race` -/
def selectLatestEligiblePerRace (records : List Doc) : Except PyError (Dict Doc × Dict ℕ) :=
  records.foldlM (selectStep mktime repr) ([], [])

/-! ## Rows -/

/-- A selected record with what it is sorted by. -/
structure Keyed where
  time : WithBot ℚ
  text : String
  record : Doc

/-- The key of a record in `build_rows`. -/
def sortKey (record : Doc) : Except PyError Keyed := do
  let time ← timeKey mktime (record.field "prediction_timestamp")
  return ⟨time, raceText repr record, record⟩

/-- The order of `build_rows`: by time, then by the text of the race. -/
def earlier (a b : Keyed) : Prop := a.time < b.time ∨ (a.time = b.time ∧ a.text ≤ b.text)

instance : DecidableRel earlier := fun a b => inferInstanceAs (Decidable (a.time < b.time ∨ (a.time = b.time ∧ a.text ≤ b.text)))

/-- What `build_rows` reports beside the rows. -/
structure Summary where
  inputRecords : ℕ
  eligibleUniqueRaces : ℕ
  riderRows : ℕ
  excluded : Dict ℕ
  selectionPolicy : String := "latest_eligible_pre_result_snapshot_per_race"
  trainingSchema : String := Dataset.trainingSchema

/-- `build_rows` -/
def buildRows (records : List Doc) : Except PyError (List (Dict Doc) × Summary) := do
  let (selected, excluded) ← selectLatestEligiblePerRace mktime repr records
  let keyed ← (selected.map Prod.snd).mapM (sortKey mktime repr)
  let parts ← (keyed.insertionSort earlier).mapM fun k => riderRows k.record
  let rows := parts.flatten
  return (rows, { inputRecords := records.length, eligibleUniqueRaces := selected.length, riderRows := rows.length, excluded := excluded })

/-! ## The rows as CSV -/

/-- The text `csv` writes for a value. -/
def csvText (value : Doc) : String :=
  match value with
  | .null => ""
  | v => v.toStr repr

/-- `write_csv`, as `csv.DictReader` reads it back: the texts of the values by the names of the first row. -/
def writeCsv (rows : List (Dict Doc)) : Except PyError (List (Dict String)) :=
  match rows with
  | [] => .ok []
  | first :: _ =>
    let fieldnames := first.map Prod.fst
    rows.mapM fun row => do
      raiseIf (∃ key ∈ row.map Prod.fst, key ∉ fieldnames) (.valueError "dict contains fields not in fieldnames")
      return fieldnames.map fun name => (name, csvText repr (Dict.getD row name (.str "")))

end

/-! ## Races of the CSV -/

/-- `TARGET_COLUMNS` -/
def targetColumns : List String := ["target_first", "target_second", "target_third"]

/-- The checks of `load_rows` on the rows it has read. -/
def checkRows (rows : List (Dict String)) : Except PyError Unit :=
  match rows with
  | [] => .error (.valueError "training CSV is empty")
  | first :: _ =>
    let required := ["race_id", "prediction_timestamp", "car_number", "style"] ++ targetColumns
    let missing := (required.filter fun name => name ∉ first.map Prod.fst).insertionSort (· ≤ ·)
    raiseIf (missing ≠ []) (.valueError ("training CSV missing columns: " ++ ", ".intercalate missing))

/-- A race of the CSV with its rows. -/
abbrev Race := String × List (Dict String)

/-- The race of a row. -/
def rowRace (row : Dict String) : String := strip (Dict.getD row "race_id" "")

/-- The time of the first row of a race, as it is written. -/
def Race.timestamp (race : Race) : String := (race.2.head?.map fun row => Dict.getD row "prediction_timestamp" "").getD ""

/-- `int(float(row[name]))` -/
def intField (name : String) (row : Dict String) : Except PyError ℤ := do
  let text ← match Dict.get? name row with
    | some text => .ok text
    | none => .error (.keyError name)
  let x ← floatOfText text
  Doc.toInt (.num x)

/-- One rider of the race for a place. -/
def checkTarget (race : Race) (target : String) : Except PyError Unit := do
  let labels ← race.2.mapM (intField target)
  raiseIf (labels.sum ≠ 1) (.valueError ("race " ++ race.1 ++ " must have exactly one positive for " ++ target))

/-- The checks on the riders of a race: at least four, each once, and one for every place. -/
def checkRace (race : Race) : Except PyError Unit := do
  let cars ← race.2.mapM (intField "car_number")
  raiseIf (cars.length < 4 ∨ ¬cars.Nodup) (.valueError ("race " ++ race.1 ++ " has invalid or duplicate riders"))
  targetColumns.forM (checkTarget race)

/-- The order of `grouped_races`: by the time as it is written, then by the race. -/
def writtenEarlier (a b : Race) : Prop := a.timestamp < b.timestamp ∨ (a.timestamp = b.timestamp ∧ a.1 ≤ b.1)

instance : DecidableRel writtenEarlier := fun a b =>
  inferInstanceAs (Decidable (a.timestamp < b.timestamp ∨ (a.timestamp = b.timestamp ∧ a.1 ≤ b.1)))

/-- `grouped_races` -/
def groupedRaces (rows : List (Dict String)) : Except PyError (List Race) := do
  raiseIf (∃ row ∈ rows, rowRace row = "") (.valueError "race_id is required for every rider row")
  let races := (Grouped.group rowRace rows).insertionSort writtenEarlier
  races.forM checkRace
  return races

/-! ## Training and validation -/

/-- `max(2, min(int(round(n * (1.0 - validation_fraction))), n - 1))` -/
def splitAt (n : ℕ) (validationFraction : ℚ) : ℕ :=
  (max 2 (min (Binary64.roundHalfEven (roundRat (roundRat n * roundRat (1 - validationFraction)))) (n - 1))).toNat

/-- The races `train` trains on and those it validates on; nothing where there are too few. -/
def train (rows : List (Dict String)) (minRaces : ℤ) (validationFraction : ℚ) : Except PyError (Option (List Race × List Race)) := do
  checkRows rows
  let races ← groupedRaces rows
  if races.length < minRaces then return none
  else do
    raiseIf (¬(0 < validationFraction ∧ validationFraction < 1 / 2)) (.valueError "validation_fraction must be between 0 and 0.5")
    return some (races.take (splitAt races.length validationFraction), races.drop (splitAt races.length validationFraction))

end Keirin.TrainingRows

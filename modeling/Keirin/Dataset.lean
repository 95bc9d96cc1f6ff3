import Keirin.PythonData

/-!
# Training rows

`ml.dataset`: which records may train a supervised model (`supervisedEligibility`), and the rows of the riders of such a record
(`riderRows`), with the fields `ml.feature_extraction` reads of a rider.
-/

namespace Keirin

/-! ## Numbers of texts -/

/-- Digits with single underscores between them, as ASCII digits, and what follows them; `prev` whether a digit came before. -/
def digitPart (prev : Bool) : List Char → List Char × List Char
  | [] => ([], [])
  | c :: cs =>
    match decimalDigit c with
    | some d => (Nat.digitChar d :: (digitPart true cs).1, (digitPart true cs).2)
    | none =>
      if c = '_' ∧ prev = true ∧ (cs.head?.bind decimalDigit).isSome then digitPart false cs else ([], c :: cs)

/-- A sign, if there is one. -/
def signPart : List Char → Bool × List Char
  | '-' :: cs => (true, cs)
  | '+' :: cs => (false, cs)
  | cs => (false, cs)

/-- The exponent of a number, and what follows it. -/
def exponentPart (s : List Char) : Option (Bool × List Char) × List Char :=
  match s with
  | c :: rest =>
    if c = 'e' ∨ c = 'E' then
      let (neg, rest) := signPart rest
      let (ds, rest) := digitPart false rest
      if ds = [] then (none, s) else (some (neg, ds), rest)
    else (none, s)
  | [] => (none, [])

/-- The decimal number of a text. -/
def decimalOf (neg : Bool) (s : List Char) : Option Scalar :=
  let (int, rest) := digitPart false s
  let (frac, rest) := match rest with
    | '.' :: rest => digitPart false rest
    | rest => ([], rest)
  let (exp, rest) := exponentPart rest
  if (int = [] ∧ frac = []) ∨ rest ≠ [] then none
  else
    match Binary64.read ⟨neg, if int = [] then ['0'] else int, if frac = [] then none else some frac, exp⟩ with
    | some x => some (.float x)
    | none => some (.inf neg)

/-- `float(s)` for a text. -/
def floatOfText (s : String) : Except PyError Scalar :=
  let (neg, cs) := signPart (strip s).toList
  let word := cs.map Char.toLower
  let number :=
    if word = "inf".toList ∨ word = "infinity".toList then some (.inf neg)
    else if word = "nan".toList then some .nan
    else decimalOf neg cs
  require number "could not convert string to float"

namespace Doc

/-- `float(v)` -/
def toFloat : Doc → Except PyError Scalar
  | .bool b => .ok (.ofRat (if b then 1 else 0))
  | .num (.int n) => (floatOfInt n).map fun q => .ofRat q
  | .num (.object _) => .error (.typeError "float() argument must be a string or a real number")
  | .num x => .ok x
  | .str s => floatOfText s
  | _ => .error (.typeError "float() argument must be a string or a real number")

end Doc

/-- `sum(values)` of doubles: the rounding errors are added up beside the sum and added to it at the end. -/
def pySum (values : List ℚ) : ℚ :=
  let (sum, err) := values.foldl (fun (acc : ℚ × ℚ) x =>
    let t := roundRat (acc.1 + x)
    let lost := if |x| ≤ |acc.1| then roundRat (roundRat (acc.1 - t) + x) else roundRat (roundRat (x - t) + acc.1)
    (t, roundRat (acc.2 + lost))) (0, 0)
  roundRat (sum + err)

namespace Dataset

open Doc (pyGet orEmpty)

def trainingSchema : String := "keirin-training-input-v1"

/-! ## The fields of a rider -/

/-- `num`: a text or a value that is no number gives nothing; an integer beyond the doubles is not handled. -/
def num (value : Doc) : Except PyError Doc :=
  if value = .null ∨ value = .str "" then .ok .null
  else match value.toFloat with
    | .ok x => .ok (.num x)
    | .error (.typeError _) => .ok .null
    | .error (.valueError _) => .ok .null
    | .error exc => .error exc

/-- Whether a number is greater than zero. -/
def positive : Doc → Bool
  | .num (.float x) => !x.neg && x.mag ≠ 0
  | .num (.inf neg) => !neg
  | _ => false

/-- The mean of positive doubles. -/
def mean (values : List Doc) : Doc :=
  if values.isEmpty then .null
  else if values.any fun v => v = .num (.inf false) then .num (.inf false)
  else
    let sum := pySum (values.filterMap fun v => (Doc.number v).bind Scalar.value)
    if 2 ^ 1024 ≤ sum then .num (.inf false) else .num (.ofRat (sum / values.length))

/-- `current_meet_avg` -/
def currentMeetAvg (player : Doc) : Except PyError Doc := do
  let meet ← player.pyGet "current_meet"
  let results ← meet.orEmpty.pyGet "results"
  let items ← (Doc.orElse results (.arr [])).toList
  let finishes ← items.mapM fun item => num (match item with
    | .obj fs => Dict.getD fs "finish" .null
    | item => item)
  return mean (finishes.filter positive)

/-- A number of a nested mapping: `num((player.get(outer) or {}).get(inner))`. -/
def nestedNum (player : Doc) (outer inner : String) : Except PyError Doc := do
  let part ← player.pyGet outer
  let value ← part.orEmpty.pyGet inner
  num value

/-- `extract_player_model_fields`; the car is an integer, the other fields are in the order of the source. -/
def extractPlayerModelFields (player : Doc) : Except PyError (ℤ × Dict Doc) := do
  let raw ← subscript player "car_number"
  let car ← raw.toInt
  let form ← player.pyGet "recent_form"
  let recent := form.orEmpty
  let comments ← player.pyGet "comments"
  let parsed ← comments.orEmpty.pyGet "parsed_factors"
  let factors := parsed.orEmpty
  let field (v : Doc) (name : String) : Except PyError Doc := do
    let value ← v.pyGet name
    num value
  let linePosition ← field player "line_position"
  let style ← player.pyGet "style"
  let raceScore ← field player "race_score"
  let s ← field player "S"
  let h ← field player "H"
  let b ← field player "B"
  let lineId ← player.pyGet "line_id"
  let lineLength ← field player "line_length"
  let winRate ← field recent "win_rate"
  let top2Rate ← field recent "top2_rate"
  let top3Rate ← field recent "top3_rate"
  let avgFinish ← field recent "avg_finish"
  let meetAvg ← currentMeetAvg player
  let condition ← nestedNum player "condition" "score"
  let bankFit ← nestedNum player "bank_fit" "score"
  let commentCondition ← field factors "condition"
  let training ← field factors "training"
  let equipment ← field factors "equipment"
  let confidence ← field factors "confidence"
  let motivation ← field factors "motivation"
  let fatigue ← field factors "fatigue"
  let leader : ℤ := if Doc.pyEq linePosition (.num (.int 1)) then 1 else 0
  return (car, [("car_number", .num (.int car)), ("style", style), ("race_score", raceScore), ("S", s), ("H", h), ("B", b),
    ("line_id", lineId), ("line_position", linePosition), ("line_length", lineLength), ("is_line_leader", .num (.int leader)),
    ("recent_win_rate", winRate), ("recent_top2_rate", top2Rate), ("recent_top3_rate", top3Rate),
    ("recent_avg_finish", avgFinish), ("current_meet_avg_finish", meetAvg), ("condition_score", condition),
    ("bank_fit_score", bankFit), ("comment_condition", commentCondition), ("comment_training", training),
    ("comment_equipment", equipment), ("comment_confidence", confidence), ("comment_motivation", motivation),
    ("comment_fatigue", fatigue)])

/-! ## Eligibility -/

/-- `require_standard_conditions` -/
def requireStandardConditions (conditions : Doc) : Except PyError Unit :=
  match conditions with
  | .obj fs => do
    raiseIf (¬((∀ k ∈ fs.map Prod.fst, k ∈ ["race_status", "withdrawn_car_numbers"]) ∧
      "race_status" ∈ fs.map Prod.fst ∧ "withdrawn_car_numbers" ∈ fs.map Prod.fst)) (.valueError "race_conditions_contract_invalid")
    raiseIf (Dict.getD fs "race_status" .null ≠ .str "scheduled") (.valueError "nonstandard_race_requires_review")
    match Dict.getD fs "withdrawn_car_numbers" .null with
    | .arr cars => raiseIf (cars ≠ []) (.valueError "withdrawal_requires_review")
    | _ => .error (.valueError "race_conditions_contract_invalid")
  | _ => .error (.valueError "race_conditions_contract_invalid")

/-- `_aware_time`: the time of a text in ISO format with an offset, where there is one. -/
def awareTime (value : Doc) : Option ℚ := (timestamp value).toOption

/-- A verdict on a record: nothing speaks against it, or the reason why not. -/
abbrev Verdict := Option String

/-- `_schedule_order`: a record without a scheduled start is taken as it is. -/
def scheduleOrder (record trainingInput : Doc) : Except PyError Verdict := do
  let metadata ← record.pyGet "metadata"
  let snapshot ← metadata.orEmpty.pyGet "source_snapshot"
  let eligibility ← snapshot.orEmpty.pyGet "snapshot_eligibility"
  let scheduledRaw ← eligibility.orEmpty.pyGet "scheduled_start"
  if scheduledRaw = .null then return none
  else do
    let predictionRaw ← record.pyGet "prediction_timestamp"
    let capturedRaw ← trainingInput.pyGet "captured_at"
    let resultRaw ← metadata.orEmpty.pyGet "result_timestamp"
    match awareTime predictionRaw, awareTime capturedRaw, awareTime resultRaw, awareTime scheduledRaw with
    | some prediction, some captured, some result, some scheduled =>
      if captured ≠ prediction ∨ ¬(prediction < scheduled ∧ scheduled ≤ result) then return some "invalid_schedule_order"
      else do
        let race ← trainingInput.pyGet "race"
        let raceScheduledRaw ← race.orEmpty.pyGet "scheduled_start_jst"
        if raceScheduledRaw ≠ .null ∧ awareTime raceScheduledRaw ≠ some scheduled then return some "scheduled_start_mismatch"
        else return none
    | _, _, _, _ => return some "invalid_schedule_time"

/-- `s.split("-")` -/
def splitHyphens (s : String) : List String := ((s.toList.splitOn '-').map String.ofList)

/-- The checks on the conditions of the race, where they are declared; what they raise is the verdict. -/
def conditionsVerdict (trainingInput : Dict Doc) : Verdict :=
  match Dict.get? "race_conditions" trainingInput with
  | none => none
  | some conditions =>
    match requireStandardConditions conditions with
    | .ok () => none
    | .error exc => some exc.text

/-- The checks on a training input that is a mapping. -/
def inputVerdict (record : Doc) (input : Dict Doc) : Except PyError Verdict :=
  match conditionsVerdict input with
  | some reason => .ok (some reason)
  | none =>
    if Dict.getD input "schema_version" .null ≠ .str trainingSchema then .ok (some "training_schema_mismatch")
    else if Dict.getD input "evaluation_scope" .null ≠ .str "prospective" then .ok (some "training_input_not_prospective")
    else do
      match ← scheduleOrder record (.obj input) with
      | some reason => return some reason
      | none =>
        match Dict.getD input "players" .null with
        | .arr players =>
          if players.length < 4 then return some "players_missing"
          else match record.field "outcome_combo" with
            | .str combo => return if (splitHyphens combo).length = 3 then none else some "outcome_missing"
            | _ => return some "outcome_missing"
        | _ => return some "players_missing"

/-- `supervised_eligibility` -/
def supervisedEligibility (record : Doc) : Except PyError Verdict := do
  let metadataRaw ← record.pyGet "metadata"
  let metadata := metadataRaw.orEmpty
  let eligibility ← metadata.pyGet "training_eligibility"
  if metadata.field "evaluation_scope" ≠ .str "prospective" then return some "not_prospective"
  else if metadata.field "temporal_order" ≠ .str "prediction_before_result" then return some "not_pre_result"
  else do
    let supervised ← eligibility.orEmpty.pyGet "supervised_training"
    if supervised ≠ .bool true then return some "not_marked_training_eligible"
    else match record.field "training_input" with
      | .obj input => inputVerdict record input
      | _ => return some "training_input_missing"

/-! ## Rows -/

/-- The row of a rider; what is not a mapping is passed over. -/
def rowOf (record race : Doc) (odds : ℕ) (outcome : List ℤ) (player : Doc) : Except PyError (Option (Dict Doc)) :=
  match player with
  | .obj _ => do
    let (car, features) ← extractPlayerModelFields player
    let date ← race.pyGet "date"
    let label (b : Bool) : Doc := .num (.int (if b then 1 else 0))
    return some ([("race_id", record.field "race_id"), ("date", date), ("venue", race.field "venue"),
      ("race_number", race.field "race_number"), ("prediction_timestamp", record.field "prediction_timestamp")] ++ features ++
      [("known_trifecta_odds_count", .num (.int odds)), ("target_first", label (outcome[0]? = some car)),
        ("target_second", label (outcome[1]? = some car)), ("target_third", label (outcome[2]? = some car)),
        ("target_top3", label (outcome.contains car))])
  | _ => .ok none

/-- `any(num(v) == 9999.9 for v in values)` -/
def hasMarker : List Doc → Except PyError Bool
  | [] => .ok false
  | v :: values => do
    let x ← num v
    if Doc.pyEq x (.num (.ofRat (99999 / 10))) then return true else hasMarker values

/-- The number of rows with a label. -/
def labelled (rows : List (Dict Doc)) (target : String) : ℕ := rows.countP fun row => Dict.getD row target .null = .num (.int 1)

/-- The checks on the labels: one rider of each place, three of the first three places. -/
def checkLabels (rows : List (Dict Doc)) : Except PyError Unit := do
  raiseIf (labelled rows "target_first" ≠ 1) (.valueError "exactly one first-place rider must exist in training rows")
  raiseIf (labelled rows "target_second" ≠ 1) (.valueError "exactly one second-place rider must exist in training rows")
  raiseIf (labelled rows "target_third" ≠ 1) (.valueError "exactly one third-place rider must exist in training rows")
  raiseIf (labelled rows "target_top3" ≠ 3) (.valueError "exactly three top-3 riders must exist in training rows")

/-- `d.values()` -/
def valuesOf (v : Doc) : Except PyError (List Doc) :=
  match v with
  | .obj fs => .ok (fs.map Prod.snd)
  | _ => .error (.attributeError "values")

/-- The rows of an eligible record. -/
def rowsOf (record : Doc) : Except PyError (List (Dict Doc)) := do
  let training := record.field "training_input"
  let race ← training.pyGet "race"
  let outcome ← (splitHyphens ((Doc.text? (record.field "outcome_combo")).getD "")).mapM intOfText
  raiseIf (outcome.dedup.length ≠ 3) (.valueError "outcome_combo must contain three distinct riders")
  let odds ← training.pyGet "odds"
  let trifecta ← odds.orEmpty.pyGet "trifecta"
  let values ← valuesOf trifecta.orEmpty
  let marker ← hasMarker values
  raiseIf (marker = true) (.valueError "training input contains K-Dreams 9999.9 no-ticket marker")
  let players ← (training.field "players").toList
  let rows ← players.mapM (rowOf record race.orEmpty values.length outcome)
  let rows := rows.filterMap id
  checkLabels rows
  return rows

/-- `rider_rows` -/
def riderRows (record : Doc) : Except PyError (List (Dict Doc)) := do
  match ← supervisedEligibility record with
  | some reason => .error (.valueError ("record is not eligible for supervised training: " ++ reason))
  | none => rowsOf record

/-! ## Features of the position models -/

/-- `NUMERIC_FEATURES` -/
def numericFeatures : List String :=
  ["race_score", "S", "H", "B", "line_position", "line_length", "is_line_leader", "recent_win_rate", "recent_top2_rate",
    "recent_top3_rate", "recent_avg_finish", "current_meet_avg_finish", "condition_score", "bank_fit_score",
    "comment_condition", "comment_training", "comment_equipment", "comment_confidence", "comment_motivation", "comment_fatigue"]

/-- `STYLE_FEATURES` -/
def styleFeatures : List String := ["style_nige", "style_ryo", "style_oi"]

/-- Whether a numeric feature of a row is missing: `_float_or_nan` is not a number. -/
def isMissing (row : Dict Doc) (name : String) : Bool :=
  match (Dict.getD row name .null).toFloat with
  | .ok x => !x.finite
  | .error _ => true

end Dataset

end Keirin

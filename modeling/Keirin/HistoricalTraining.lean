import Keirin.PythonData
import Mathlib.Data.List.Sort

/-!
# Historical training preparation

`historical_audit.audit` groups the records by race and notes what speaks against each; `historical_training.prepare` divides
the races nothing speaks against among training, validation and test by the time of their features, and excludes the others
with their reasons. The preparation adapter accepts an input whose hashes it was bound to, and accounts for its records.
-/

namespace Keirin.HistoricalTraining

open Doc (int?)

/-! ## The audit -/

/-- The reason a record without a usable race is invalid. -/
def invalidReason : Doc → String
  | .obj _ => "race_id_missing"
  | _ => "invalid_record"

/-- The records grouped by race: the first record of each race, the races with a second record of other content or of other
sources, the number of second records of the same content, and the reasons of the invalid records. -/
structure Grouped where
  seen : Dict (Dict Doc) := []
  conflicts : List String := []
  variants : List String := []
  duplicates : ℕ := 0
  invalid : List String := []

/-- The sources of a record, as a text. -/
def sourcesText (record : Dict Doc) : Except PyError (List Char) := Doc.sortedText (Dict.getD record "sources" .null)

/-- The content of a record without its sources, as a text. -/
def contentText (record : Dict Doc) : Except PyError (List Char) := Doc.sortedText (.obj (Dict.pop "sources" record))

/-- Whether two texts could be made and are equal. -/
def sameText (a b : Except PyError (List Char)) : Bool :=
  match a, b with
  | .ok s, .ok t => s = t
  | _, _ => false

/-- One record of the list. -/
def groupRecord (g : Grouped) (record : Doc) : Grouped :=
  match raceOf record with
  | none => { g with invalid := g.invalid ++ [invalidReason record] }
  | some (key, fs) =>
    match Dict.get? key g.seen with
    | none => { g with seen := Dict.set key fs g.seen }
    | some first =>
      let g := if sameText (sourcesText first) (sourcesText fs) then g else { g with variants := g.variants ++ [key] }
      if sameText (contentText first) (contentText fs) then { g with duplicates := g.duplicates + 1 }
      else { g with conflicts := g.conflicts ++ [key] }

/-- The records one by one. -/
def group (records : List Doc) : Grouped := records.foldl groupRecord {}

/-- A number `type(c) is int and 1 <= c <= 9`. -/
def isCar (v : Doc) : Bool :=
  match int? v with
  | some c => 1 ≤ c && c ≤ 9
  | none => false

/-- The rows of a roster that are mappings, by their cars. -/
def carsOf (riders : Doc) : List Doc :=
  match riders with
  | .arr rs => rs.filterMap fun
    | .obj fs => some (Dict.getD fs "car_number" .null)
    | _ => none
  | _ => []

/-- Whether a roster is what the number of riders says, with a car for each. -/
def rosterComplete (riders count : Doc) : Bool :=
  match riders with
  | .arr rs =>
    let cars := carsOf riders
    cars.length = rs.length && Doc.pyEq (.num (.int cars.length)) count && cars.all isCar && decide (cars.filterMap int?).Nodup
  | _ => false

/-- What is wrong with the outcomes of a race. -/
def outcomeReasons (record : Dict Doc) : List String :=
  let cars := carsOf (Dict.getD record "riders" .null)
  match Dict.getD record "trifecta_outcomes" .null with
  | .arr [] => ["outcome_missing"]
  | .arr (combo :: more) =>
    if more ≠ [] ∨ Dict.getD record "dead_heat" .null = .bool true then ["dead_heat_requires_multilabel_contract"]
    else match combo with
      | .arr cs =>
        if cs.length ≠ 3 ∨ cs.all isCar = false ∨ ¬(cs.filterMap int?).Nodup then ["invalid_outcome"]
        else if cars ≠ [] ∧ ¬(∀ c ∈ cs.filterMap int?, c ∈ cars.filterMap int?) then ["outcome_not_in_roster"]
        else []
      | _ => ["invalid_outcome"]
  | _ => ["outcome_missing"]

/-- A reason where something is wrong. -/
def reasonIf (bad : Prop) [Decidable bad] (reason : String) : List String := if bad then [reason] else []

/-- Whether a value is a list that is not empty. -/
def isFullList : Doc → Bool
  | .arr xs => !xs.isEmpty
  | _ => false

/-- What speaks against a race. -/
def auditReasons (g : Grouped) (key : String) (record : Dict Doc) : List String :=
  let field (name : String) : Doc := Dict.getD record name .null
  ["dedicated_historical_review_required"] ++ reasonIf (key ∈ g.conflicts) "conflicting_duplicate_requires_review" ++
    reasonIf (key ∈ g.variants) "source_variants_require_review" ++
    reasonIf (¬∃ c ∈ int? (field "rider_count"), 3 ≤ c ∧ c ≤ 9) "invalid_rider_count" ++
    reasonIf (isFullList (field "sources") = false) "source_missing" ++
    reasonIf (field "training_use_status" ≠ .str "confirmed") "training_use_unconfirmed" ++
    reasonIf (field "pre_race_state_verified" ≠ .bool true) "historical_feature_time_unverified" ++
    reasonIf (rosterComplete (field "riders") (field "rider_count") = false) "roster_incomplete_or_invalid" ++
    outcomeReasons record

/-- The report of the audit, as far as the preparation reads it. -/
structure Intake where
  invalidRecords : List String
  records : List (String × List String)

/-- `audit` -/
def audit (records : List Doc) : Intake :=
  let g := group records
  { invalidRecords := g.invalid
    records := g.seen.map fun e => (e.1, auditReasons g e.1 e.2) }

/-! ## The preparation of a race -/

/-- `FEATURES` -/
def features : List String :=
  ["race_score", "S", "H", "B", "recent_win_rate", "recent_top2_rate", "recent_top3_rate", "recent_avg_finish"]

/-- The columns a row of features may have. -/
def columns : List String := "car_number" :: "style" :: features

inductive Partition
  | train
  | validation
  | test
deriving DecidableEq

/-- A race in a partition: its rows, the time of its features, and the review it was admitted by. -/
structure Prepared where
  raceId : String
  rows : List (Dict Doc)
  featureTime : ℚ
  recordSha256 : String
  review : Dict Doc

/-- Why a race is not in a partition: excluded with its reasons, or an exception that is not handled. -/
inductive Stop
  | excluded (reasons : List String)
  | raised (exc : PyError)

/-- `except (ValueError, TypeError, KeyError, AttributeError, OverflowError)` -/
def caught : PyError → Bool
  | .valueError _ => true
  | .typeError _ => true
  | .keyError _ => true
  | .attributeError _ => true
  | .overflowError _ => true
  | _ => false

/-- A part that may raise; the exception is a reason more. -/
def attempt {α : Type} (reasons : List String) (x : Except PyError α) : Except Stop α :=
  match x with
  | .ok a => .ok a
  | .error exc => .error (if caught exc then .excluded (reasons ++ [exc.text]) else .raised exc)

/-- The check on one number of a row of features. -/
def checkFeature (name : String) (value : Doc) : Except PyError Unit :=
  if value = .null then .ok ()
  else match value with
    | .num n => do
      let q ← match n with
        | .int k => (floatOfInt k).map fun _ => (k : ℚ)
        | n => require n.value "invalid_numeric_feature"
      raiseIf (name ∈ ["recent_win_rate", "recent_top2_rate", "recent_top3_rate"] ∧ ¬(0 ≤ q ∧ q ≤ 100))
        (.valueError "recent_rate_out_of_range")
      raiseIf (name = "recent_avg_finish" ∧ ¬(1 ≤ q ∧ q ≤ 9)) (.valueError "recent_finish_out_of_range")
    | _ => .error (.valueError "invalid_numeric_feature")

/-- The row of a rider. -/
def featureRow (feature : Dict Doc) : Except PyError (Dict Doc) := do
  let field (name : String) : Doc := Dict.getD feature name .null
  raiseIf (¬∀ k ∈ feature.map Prod.fst, k ∈ columns) (.valueError "unreviewed_feature_columns")
  raiseIf (field "style" ∉ ([.str "逃", .str "両", .str "追"] : List Doc)) (.valueError "invalid_style")
  features.forM fun name => checkFeature name (field name)
  return [("car_number", field "car_number"), ("style", field "style")] ++ features.map fun name => (name, field name)

/-- A feature row that is a mapping. -/
def asRow : Doc → Option (Dict Doc)
  | .obj fs => some fs
  | _ => none

/-- The rows of a race: one for each rider of the roster. -/
def featureRows (record : Dict Doc) : Except PyError (List (Dict Doc)) := do
  let riders ← Doc.toList ((Dict.get? "riders" record).getD (.arr []))
  let cars ← riders.mapM fun r => subscript r "car_number"
  match Dict.getD record "pre_race_features" .null with
  | .arr fs => do
    raiseIf (fs.length ≠ cars.length) (.valueError "reviewed_features_missing")
    let rows := fs.filterMap asRow
    let featureCars := rows.filterMap fun f => int? (Dict.getD f "car_number" .null)
    raiseIf (rows.length ≠ fs.length ∨ featureCars.length ≠ rows.length ∨ ¬featureCars.Nodup) (.valueError "feature_roster_mismatch")
    raiseIf (cars.all Doc.hashable = false) (.typeError "unhashable type")
    raiseIf (¬((∀ c ∈ cars, ∃ f ∈ featureCars, Doc.pyEq (.num (.int f)) c = true) ∧
      ∀ f ∈ featureCars, ∃ c ∈ cars, Doc.pyEq (.num (.int f)) c = true)) (.valueError "feature_roster_mismatch")
    rows.mapM featureRow
  | _ => .error (.valueError "reviewed_features_missing")

/-- The cars of the outcome, first to third. An index error is not among the exceptions that are handled. -/
def outcomeOf (record : Dict Doc) : Except PyError (List Doc) :=
  match Dict.get? "trifecta_outcomes" record with
  | some (.arr (combo :: _)) => Doc.toList combo
  | some (.arr []) => .error (.runtimeError "list index out of range")
  | some _ => .error (.typeError "object is not subscriptable")
  | none => .error (.keyError "trifecta_outcomes")

/-- A row with its race and its labels. -/
def labelRow (key : String) (outcome : List Doc) (row : Dict Doc) : Dict Doc :=
  Dict.update row (("race_id", .str key) :: ((["target_first", "target_second", "target_third"].zip outcome).map fun t =>
    (t.1, .num (.int (if Doc.pyEq (Dict.getD row "car_number" .null) t.2 then 1 else 0)))))

/-- The reasons that come from the review and the declarations of the record. -/
def reviewReasons (review record : Dict Doc) (sha256 : String) : List String :=
  let missing (field : String) := reasonIf (Doc.isText (Dict.getD review field .null) = false) (field ++ "_missing")
  reasonIf (Dict.getD review "record_sha256" .null ≠ .str sha256) "review_missing_or_record_changed" ++ missing "reviewer" ++
    missing "source_use_evidence" ++ missing "feature_time_evidence" ++ missing "result_time_evidence" ++
    reasonIf (Dict.getD record "prospective" .null ≠ .bool false) "historical_record_must_not_claim_prospective" ++
    reasonIf (Dict.getD record "dead_heat" .null ≠ .bool false) "explicit_non_dead_heat_required"

/-- The partition of a race, by the time of its features, and the boundary its result must come before. -/
def place (validationStart testStart featureTime : ℚ) : Partition × Option ℚ :=
  if featureTime < validationStart then (.train, some validationStart)
  else if featureTime < testStart then (.validation, some testStart)
  else (.test, none)

/-- One race of the audit: its partition, or why it has none. -/
def prepareRace (validationStart testStart : ℚ) (reviews : Dict (Dict Doc)) (key : String) (record : Dict Doc)
    (auditReasons : List String) : Except Stop (Partition × Prepared) := do
  let reasons := auditReasons.filter fun r => r ≠ "dedicated_historical_review_required"
  let review := (Dict.get? key reviews).getD []
  let sha256 ← attempt reasons (digest (.obj record))
  let reasons := reasons ++ reviewReasons review record sha256
  let featureTime ← attempt reasons (timestamp (Dict.getD record "feature_as_of" .null))
  let start ← attempt reasons (timestamp (Dict.getD record "listed_scheduled_start_jst" .null))
  let resultTime ← attempt reasons (timestamp (Dict.getD record "result_available_at" .null))
  let reasons := reasons ++ reasonIf (¬(featureTime < start ∧ start ≤ resultTime)) "invalid_historical_chronology"
  let rows ← attempt reasons (featureRows record)
  raiseIf (reasons ≠ []) (Stop.excluded reasons)
  let outcome ← attempt reasons (outcomeOf record)
  let (partition, boundary) := place validationStart testStart featureTime
  raiseIf (∃ b ∈ boundary, b ≤ resultTime) (Stop.excluded ["label_unavailable_before_next_partition"])
  return (partition, ⟨key, rows.map (labelRow key outcome), featureTime, sha256, review⟩)

/-! ## The plan -/

/-- A race, or an invalid record, that is not in a partition. -/
structure Excluded where
  raceId : Option String
  reasons : List String

structure Plan where
  train : List Prepared
  validation : List Prepared
  test : List Prepared
  excluded : List Excluded

/-- The races one by one, each with its partition or its exclusion. -/
def divide (judge : String → List String → Except Stop (Partition × Prepared)) :
    List (String × List String) → Except PyError (List (Partition × Prepared) × List Excluded)
  | [] => .ok ([], [])
  | (key, reasons) :: items =>
    match judge key reasons with
    | .ok p => (divide judge items).map fun r => (p :: r.1, r.2)
    | .error (.excluded reasons) => (divide judge items).map fun r => (r.1, ⟨some key, reasons⟩ :: r.2)
    | .error (.raised exc) => .error exc

/-- The reviews by race. -/
def reviewMap (reviewMap : Dict (Dict Doc)) : List Doc → Except PyError (Dict (Dict Doc))
  | [] => .ok reviewMap
  | review :: reviews =>
    match review with
    | .obj fs =>
      match Doc.text? (Dict.getD fs "race_id" .null) with
      | some key =>
        if (Dict.get? key reviewMap).isSome then .error (.valueError "duplicate_review")
        else HistoricalTraining.reviewMap (Dict.set key fs reviewMap) reviews
      | none => .error (.valueError "invalid_review")
    | _ => .error (.valueError "invalid_review")

/-- The first record of each race. -/
def originals (records : List Doc) : Dict (Dict Doc) :=
  records.foldl (fun d record =>
    match record with
    | .obj fs =>
      match Doc.text? (Dict.getD fs "race_id" .null) with
      | some key => if (Dict.get? key d).isSome then d else Dict.set key fs d
      | none => d
    | _ => d) []

/-- The order of the races of a partition: by the time of their features, then by race. -/
def earlier (a b : Prepared) : Prop := a.featureTime < b.featureTime ∨ (a.featureTime = b.featureTime ∧ a.raceId ≤ b.raceId)

instance : DecidableRel earlier := fun a b =>
  inferInstanceAs (Decidable (a.featureTime < b.featureTime ∨ (a.featureTime = b.featureTime ∧ a.raceId ≤ b.raceId)))

/-- The races of a partition, in order. -/
def partitionOf (name : Partition) (placed : List (Partition × Prepared)) : List Prepared :=
  ((placed.filter fun p => p.1 = name).map Prod.snd).insertionSort earlier

/-- `prepare` -/
def prepare (records reviews validationStart testStart : Doc) : Except PyError Plan := do
  let validBoundary ← timestamp validationStart
  let testBoundary ← timestamp testStart
  raiseIf (testBoundary ≤ validBoundary) (.valueError "validation_must_precede_test")
  let records ← require records.elements? "records_and_reviews_must_be_arrays"
  let reviews ← require reviews.elements? "records_and_reviews_must_be_arrays"
  let intake := audit records
  let reviews ← reviewMap [] reviews
  let (placed, excluded) ← divide (fun key reasons =>
    match Dict.get? key (originals records) with
    | some record => prepareRace validBoundary testBoundary reviews key record reasons
    | none => .error (.raised (.keyError key))) intake.records
  return { train := partitionOf .train placed, validation := partitionOf .validation placed, test := partitionOf .test placed
           excluded := (intake.invalidRecords.map fun reason => ⟨none, [reason]⟩) ++ excluded }

/-! ## The report -/

def Prepared.toDoc (p : Prepared) : Doc :=
  .obj [("race_id", .str p.raceId), ("rows", .arr (p.rows.map .obj)), ("feature_time", .num (.ofRat p.featureTime)),
    ("record_sha256", .str p.recordSha256), ("review", .obj p.review)]

def Excluded.toDoc (e : Excluded) : Doc :=
  .obj [("race_id", Doc.ofOption e.raceId), ("reasons", .arr (e.reasons.map .str))]

def Plan.counts (plan : Plan) : Doc :=
  .obj [("train", .num (.int plan.train.length)), ("validation", .num (.int plan.validation.length)),
    ("test", .num (.int plan.test.length))]

/-- The fields of the report. -/
def Plan.report (plan : Plan) (validationStart testStart : Doc) : Dict Doc :=
  [("schema_version", .str "historical-training-plan-v1"),
    ("partitions", .obj [("train", .arr (plan.train.map Prepared.toDoc)), ("validation", .arr (plan.validation.map Prepared.toDoc)),
      ("test", .arr (plan.test.map Prepared.toDoc))]),
    ("partition_counts", plan.counts), ("excluded", .arr (plan.excluded.map Excluded.toDoc)),
    ("validation_start", validationStart), ("test_start", testStart), ("training_runs", .num (.int 0)),
    ("prospective", .bool false), ("production_enabled", .bool false), ("promotion_eligible", .bool false),
    ("review_verification", .str "operator_attestation_only"), ("statistical_sufficiency", .str "not_established")]

end Keirin.HistoricalTraining

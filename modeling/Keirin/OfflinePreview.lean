import Keirin.CategorySelection

/-!
# Predictions that may be shown

`offline_preview.py`: what a prediction of the offline model must be.
-/

namespace Keirin

namespace OfflinePreview

open HistoricalPayouts (demand)
open CategorySelection

def POSITIONS : List String := ["first", "second", "third"]

/-- The fields of a prediction that have one value. -/
def expectedFields : Dict String :=
  [("mode", "offline_inference_only"), ("model_version", "lightgbm-position-rankers-v1"),
    ("inference_version", "lightgbm-offline-inference-v1"), ("adapter_version", "position-probability-to-trifecta-v1"),
    ("probability_calibration_status", "uncalibrated")]

def flags : List String :=
  ["production_prediction_enabled", "db_write_enabled", "external_fetch_enabled", "monetary_ev_enabled", "odds_used_as_model_feature"]

/-- The flags, which are all off. -/
def checkFlags (result : Doc) : List String → Except PyError Unit
  | [] => .ok ()
  | key :: keys => do
    demand (result.field key = .bool false) (key ++ " must be false")
    checkFlags result keys

/-- A row of a ranking, `rank` being its place: its car. -/
def checkRank (count : ℕ) (seen : List ℤ) (rank : ℕ) (row : Doc) : Except PyError ℤ := do
  let car ← require ((row.field "car_number").int?.filter fun car => 1 ≤ car ∧ car ≤ (count : ℤ) ∧ car ∉ seen) "invalid position row"
  demand (row.field "rank" = .num (.int rank)) "invalid position row"
  let probability ← isProbability (row.field "estimated_probability")
  demand probability "invalid position row"
  return car

/-- The rows of a ranking one by one: the sum of the probabilities. -/
def checkRanks (count : ℕ) : (seen : List ℤ) → (mass : ℚ) → (rank : ℕ) → List Doc → Except PyError ℚ
  | _, mass, _, [] => .ok mass
  | seen, mass, rank, row :: rows => do
    let car ← checkRank count seen rank row
    checkRanks count (car :: seen) (roundRat (mass + valueOf (row.field "estimated_probability"))) (rank + 1) rows

/-- The rankings of the positions. -/
def checkRankings (rankings : Doc) (count : ℕ) : List String → Except PyError Unit
  | [] => .ok ()
  | position :: positions => do
    let rows ← require ((rankings.field position).elements?.filter fun rows => rows.length = count) "complete position rankings required"
    let mass ← checkRanks count [] 0 1 rows
    demand (decide (|roundRat (mass - 1)| ≤ tolerance)) "position probability mass must equal one"
    checkRankings rankings count positions

/-- Whether a value is a mapping. -/
def isMapping : Doc → Bool
  | .obj _ => true
  | _ => false

/-- The picks, which must be those of the table. -/
def checkSelection (scores riderCount selected : Doc) : Except PyError Unit := do
  let expected ← selectModelCategories scores riderCount
  let given ← Doc.sortedText selected
  let made ← Doc.sortedText expected
  demand (given = made) "category selection does not match model table"

/-- `validate_preview` -/
def validatePreview (result : Doc) : Except PyError Unit := do
  demand (isMapping result && result.field "success" = .bool true) "successful offline inference result required"
  checkGiven (result.get? "race_conditions") Dataset.requireStandardConditions
  demand (expectedFields.all fun e => result.field e.1 = .str e.2) "offline result version or calibration mismatch"
  checkFlags result flags
  let quality := result.field "input_quality"
  demand (isMapping quality) "input quality required"
  let riderCount := quality.field "rider_count"
  let count ← require (riderCount.int?.filter fun n => n = 7 ∨ n = 9) "standard seven or nine riders required"
  let scores := result.field "trifecta_scores"
  let known ← validateModelScores scores riderCount
  demand (quality.field "possible_trifecta_count" = .num (.int (scores.elements?.getD []).length) &&
    quality.field "known_trifecta_odds_count" = .num (.int known)) "coverage metadata does not match probability table"
  checkGiven (result.get? "selected_predictions") (checkSelection scores riderCount)
  let rankings := result.field "position_rankings"
  demand (isMapping rankings) "position rankings required"
  checkRankings rankings count.toNat POSITIONS

end OfflinePreview

end Keirin

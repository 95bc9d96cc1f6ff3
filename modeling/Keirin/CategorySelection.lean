import Keirin.Dataset
import Keirin.HistoricalPayouts

/-!
# The five categories

`category_selection.py`: the table of a model, which gives every ordered combination of three riders a probability, is checked, and
up to three combinations are picked for each category.
-/

namespace Keirin

namespace CategorySelection

open HistoricalPayouts (demand combinationText selections)

structure CategoryRule where
  key : String
  name : String
  minimum : Option ℕ
  maximum : Option ℕ

def CATEGORY_RULES : List CategoryRule :=
  [⟨"hit_priority", "的中率優先", none, none⟩, ⟨"balance", "穴＋バランス", some 20, some 60⟩, ⟨"middle", "中穴", some 60, some 100⟩,
    ⟨"longshot", "大穴", some 100, some 500⟩, ⟨"super_longshot", "超大穴", some 500, none⟩]

def SELECTION_POLICY : String := "hit_priority_all_combos_odds_bands_probability_uncalibrated_v2"

/-! ## The table -/

/-- The value of a number; an integer beyond the doubles is not handled. -/
def finiteValue : Doc → Except PyError (Option ℚ)
  | .num (.int n) => (floatOfInt n).map fun _ => some n
  | .num x => .ok x.value
  | _ => .ok none

/-- `_number(value)` -/
def isPositive (v : Doc) : Except PyError Bool := (finiteValue v).map fun q => q.any (0 < ·)

/-- `_number(value, probability=True)` -/
def isProbability (v : Doc) : Except PyError Bool := (finiteValue v).map fun q => q.any fun q => 0 ≤ q ∧ q ≤ 1

/-- The value of a number that has been checked. -/
def valueOf (v : Doc) : ℚ := ((Doc.number v).bind Scalar.value).getD 0

/-- `permutations(range(1, rider_count + 1), 3)`, as the texts of the combinations. -/
def combinations (riderCount : ℕ) : List String := (selections 3 (List.range' 1 riderCount)).map combinationText

/-- `1e-6` -/
def tolerance : ℚ := roundRat (1 / 10 ^ 6)

/-- What is raised where a check of a part that may be missing fails. -/
def checkGiven (v : Option Doc) (check : Doc → Except PyError Unit) : Except PyError Unit :=
  match v with
  | none => .ok ()
  | some v => check v

/-- `row["combo"]` -/
def checkCombo (key : String) (combo : Doc) : Except PyError Unit := do
  let cars ← (Dataset.splitHyphens key).mapM intOfText
  demand (combo = .arr (cars.map fun n => .num (.int n))) "combo does not match combo_key"

def checkOdds (odds : Doc) : Except PyError Unit :=
  if odds = .null then .ok ()
  else do
    let positive ← isPositive odds
    demand positive "invalid confirmed odds"

def phase32Fields : List String := ["score", "contributions", "reason", "expected_value_index", "uncalibrated_odds_probability_product"]

/-- One row of the table, after those of the combinations `seen`: its combination. -/
def checkScore (expected seen : List String) (row : Doc) : Except PyError String := do
  let key ← require ((row.field "combo_key").text?.filter fun key => key ∈ expected ∧ key ∉ seen) "invalid probability row"
  let probability ← isProbability (row.field "estimated_probability")
  demand probability "invalid probability row"
  checkGiven (row.get? "combo") (checkCombo key)
  checkOdds (row.field "odds")
  demand (row.field "monetary_expected_value" = .null) "monetary EV must remain unavailable"
  demand (phase32Fields.all fun name => (row.get? name).isNone) "Phase32 scores, explanations and EV fields are not ML output"
  return key

/-- The rows of the table one by one: the sum of the probabilities, and how many odds are known. -/
def checkScores (expected : List String) : (seen : List String) → (mass : ℚ) → (known : ℕ) → List Doc → Except PyError (ℚ × ℕ)
  | _, mass, known, [] => .ok (mass, known)
  | seen, mass, known, row :: rows => do
    let key ← checkScore expected seen row
    checkScores expected (key :: seen) (roundRat (mass + valueOf (row.field "estimated_probability")))
      (if row.field "odds" = .null then known else known + 1) rows

/-- `validate_model_scores` -/
def validateModelScores (rows riderCount : Doc) : Except PyError ℕ := do
  let count ← require ((Doc.int? riderCount).filter fun n => n = 7 ∨ n = 9) "standard seven or nine riders required"
  let expected := combinations count.toNat
  let scores ← require (rows.elements?.filter fun scores => scores.length = expected.length) "complete probability table required"
  let checked ← checkScores expected [] 0 0 scores
  demand (decide (|roundRat (checked.1 - 1)| ≤ tolerance)) "probability mass must equal one"
  return checked.2

/-! ## The picks -/

/-- `sorted(rows, key=lambda row: -row["estimated_probability"])` -/
def ranked (rows : List Doc) : List Doc :=
  rows.insertionSort fun a b => valueOf (b.field "estimated_probability") ≤ valueOf (a.field "estimated_probability")

/-- Whether the odds of a row are known and in the band of a category. -/
def inBand (rule : CategoryRule) (row : Doc) : Bool :=
  row.field "odds" ≠ .null && rule.minimum.all (fun n : ℕ => (n : ℚ) ≤ valueOf (row.field "odds")) &&
    rule.maximum.all fun n : ℕ => valueOf (row.field "odds") < (n : ℚ)

/-- The candidates of a category, `used` being the combinations already picked. -/
def eligible (rule : CategoryRule) (used : List String) (ranked : List Doc) : List Doc :=
  if rule.key = "hit_priority" then ranked
  else ranked.filter fun row => (row.field "combo_key").text?.all (· ∉ used) && inBand rule row

/-- The combinations of rows. -/
def combosOf (rows : List Doc) : List String := rows.filterMap fun row => (row.field "combo_key").text?

/-- `{**row, "rank": ..., "category": ..., ...}` -/
def pick (rule : CategoryRule) (rank : ℕ) (row : Doc) : Doc :=
  .obj (Dict.update row.entries [("rank", .num (.int rank)), ("category", .str rule.key), ("category_name", .str rule.name),
    ("fallback", .bool false), ("category_note", .null)])

/-- A category with its candidates. -/
structure Category where
  rule : CategoryRule
  candidates : List Doc

namespace Category

variable (c : Category)

/-- The rows that are picked. -/
def chosen : List Doc := c.candidates.take 3

def picks : List Doc := c.chosen.zipIdx.map fun row => pick c.rule (row.2 + 1) row.1

def note (known : ℕ) : Doc :=
  if c.chosen.length < 3 then
    if known = 0 then .str "3連単オッズ未取得のため見送り"
    else .str ("確認済みデータ内の候補が不足しているため" ++ toString c.chosen.length ++ "点。未確認オッズでは補完しません。")
  else .null

def toDoc (known : ℕ) : Doc :=
  .obj [("category_name", .str c.rule.name),
    ("candidate_scope", .str (if c.rule.key = "hit_priority" then "all_combinations" else "confirmed_odds_only")),
    ("status", .str (if c.chosen.length = 3 then "ready" else if c.chosen = [] then "skipped" else "partial")),
    ("available_candidates", .num (.int c.candidates.length)), ("picks", .arr c.picks), ("category_note", c.note known)]

end Category

/-- The categories, rule after rule; `used` are the combinations picked so far. -/
def categoriesFrom (ranked : List Doc) : (used : List String) → List CategoryRule → List Category
  | _, [] => []
  | used, rule :: rules =>
    let category : Category := ⟨rule, eligible rule used ranked⟩
    category :: categoriesFrom ranked (used ++ combosOf category.chosen) rules

/-- The combinations of the picks, each once. -/
def usedBy (categories : List Category) : List String := (categories.flatMap fun c => combosOf c.chosen).dedup

/-- The categories of a table. -/
def selectCategories (rows : List Doc) : List Category := categoriesFrom (ranked rows) [] CATEGORY_RULES

def count (n : ℕ) : Doc := .num (.int n)

/-- What is reported of the categories. -/
def selectionDoc (known : ℕ) (categories : List Category) : Doc :=
  .obj [("selection_policy", .str SELECTION_POLICY), ("probability_calibration_status", .str "uncalibrated"),
    ("monetary_ev_enabled", .bool false), ("odds_band_ranking", .str "estimated_probability_only"), ("odds_available", .bool (0 < known)),
    ("known_odds_count", count known), ("categories", .obj (categories.map fun c => (c.rule.key, c.toDoc known))),
    ("total_picks", count (usedBy categories).length), ("unique_picks", count (usedBy categories).length),
    ("complete_category_count", count (categories.filter fun c => c.chosen.length = 3).length),
    ("insufficient_categories", .arr ((categories.filter fun c => c.chosen.length < 3).map fun c => .str c.rule.key))]

/-- `select_model_categories` -/
def selectModelCategories (rows riderCount : Doc) : Except PyError Doc := do
  let known ← validateModelScores rows riderCount
  return selectionDoc known (selectCategories (rows.elements?.getD []))

end CategorySelection

end Keirin

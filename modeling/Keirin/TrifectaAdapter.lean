import Mathlib.Data.String.Basic
import Keirin.Python
import Keirin.Lib.Sorted
import Keirin.Lib.Triples

/-!
# The table of a model of positions

`trifecta_adapter.py`: the probabilities that a rider takes the first, the second and the third position are combined to a table of the
ordered triples. Numbers are exact here.
-/

namespace Keirin

namespace TrifectaAdapter

open Triples (triples)

def ADAPTER_VERSION : String := "position-probability-to-trifecta-v1"

/-- What can be raised: a refusal, a rider a mapping does not have, a division by zero. -/
inductive AdapterError
  | valueError (message : String)
  | keyError (rider : ℤ)
  | zeroDivisionError
deriving DecidableEq

/-- A mapping of riders to numbers: every rider has one. -/
structure Positions where
  entries : List (ℤ × ℚ)
  nodup : (entries.map Prod.fst).Nodup

namespace Positions

variable (p : Positions)

/-- `set(values)` -/
def riders : Finset ℤ := (p.entries.map Prod.fst).toFinset

/-- `values[rider]` -/
def item (rider : ℤ) : Except AdapterError ℚ :=
  match p.entries.find? (·.1 = rider) with
  | some e => .ok e.2
  | none => .error (.keyError rider)

end Positions

/-- What is raised for a value that is no probability. -/
def checkProbability (label : String) (e : ℤ × ℚ) : Except AdapterError Unit :=
  raiseIf (e.2 < 0 ∨ 1 < e.2) (.valueError (label ++ "[" ++ toString e.1 ++ "] must be a finite probability in [0, 1]"))

/-- `_clean_probabilities` -/
def cleanProbabilities (values : Positions) (riders : Finset ℤ) (label : String) : Except AdapterError Positions := do
  raiseIf (values.riders ≠ riders) (.valueError (label ++ " rider set does not match"))
  values.entries.forM (checkProbability label)
  return values

/-- `x / y` -/
def divide (x y : ℚ) : Except AdapterError ℚ := if y = 0 then .error .zeroDivisionError else .ok (x / y)

/-- A row of the table. -/
structure TableRow where
  combo : ℤ × ℤ × ℤ
  comboKey : String
  modelScore : ℚ
  estimatedProbability : ℚ
  probabilityCalibrationStatus : String
  adapterVersion : String

/-- `"-".join(str(x) for x in combo)` -/
def comboKey (combo : ℤ × ℤ × ℤ) : String := toString combo.1 ++ "-" ++ toString combo.2.1 ++ "-" ++ toString combo.2.2

/-- A triple with its score. -/
def rawRow (p1 p2 p3 : Positions) (combo : ℤ × ℤ × ℤ) : Except AdapterError ((ℤ × ℤ × ℤ) × ℚ) := do
  let x ← p1.item combo.1
  let y ← p2.item combo.2.1
  let z ← p3.item combo.2.2
  return (combo, x * y * z)

/-- The row of a triple, `total` being the sum of the scores. -/
def tableRow (total : ℚ) (raw : (ℤ × ℤ × ℤ) × ℚ) : Except AdapterError TableRow := do
  let probability ← divide raw.2 total
  return { combo := raw.1, comboKey := comboKey raw.1, modelScore := raw.2, estimatedProbability := probability,
           probabilityCalibrationStatus := "uncalibrated", adapterVersion := ADAPTER_VERSION }

/-- The order of the rows: by their probabilities, from the greatest down, and then by their keys. -/
abbrev Before : TableRow → TableRow → Prop := Sorted.Lex (fun row => -row.estimatedProbability) TableRow.comboKey

/-- `combine_position_probabilities` -/
def combinePositionProbabilities (first second third : Positions) : Except AdapterError (List TableRow) := do
  let riders := first.riders
  raiseIf (riders.card < 3) (.valueError "at least three riders are required")
  let p1 ← cleanProbabilities first riders "first"
  let p2 ← cleanProbabilities second riders "second"
  let p3 ← cleanProbabilities third riders "third"
  let rawRows ← (triples (riders.sort (· ≤ ·))).mapM (rawRow p1 p2 p3)
  let total := (rawRows.map Prod.snd).sum
  raiseIf (total ≤ 0) (.valueError "position probabilities produce zero or invalid trifecta mass")
  let rows ← rawRows.mapM (tableRow total)
  return rows.insertionSort Before

/-- What is reported of a table. -/
structure TableReport where
  expectedCombinations : ℤ
  actualCombinations : ℕ
  uniqueCombinations : ℕ
  probabilityMass : ℚ
  combinationCountOk : Bool
  uniqueOk : Bool
  probabilityMassOk : Bool
  calibrationStatus : String
  adapterVersion : String

/-- `validate_trifecta_table` -/
def validateTrifectaTable (rows : List TableRow) (riderCount : ℤ) : TableReport :=
  let expected := riderCount * (riderCount - 1) * (riderCount - 2)
  let keys := rows.map TableRow.comboKey
  let mass := (rows.map TableRow.estimatedProbability).sum
  { expectedCombinations := expected
    actualCombinations := rows.length
    uniqueCombinations := keys.dedup.length
    probabilityMass := mass
    combinationCountOk := (rows.length : ℤ) = expected
    uniqueOk := (keys.dedup.length : ℤ) = expected
    probabilityMassOk := |mass - 1| ≤ 1 / 10 ^ 12
    calibrationStatus := "uncalibrated"
    adapterVersion := ADAPTER_VERSION }

end TrifectaAdapter

end Keirin

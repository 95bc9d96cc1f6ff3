import Keirin.HistoricalTraining
import Keirin.Model

/-!
# The preparation adapter

The adapter makes the report of the preparation from the two input files it is bound to. It accepts the review records only
with the digests of all of them, each race once, and counts what the stages before it left out.
-/

namespace Keirin.HistoricalPreparation

open HistoricalTraining

/-- An exception that is not a `BlockedAction`. -/
def orOther {α : Type} (x : Except PyError α) : Except ActionExc α :=
  match x with
  | .ok a => .ok a
  | .error _ => .error .other

/-- The digest of each row, by its race. -/
def hashesOf (rows : List Doc) : Except PyError (List (Doc × String)) :=
  rows.mapM fun r => do
    let key ← subscript r "race_id"
    raiseIf (Doc.hashable key = false) (.typeError "unhashable type")
    let sha256 ← digest r
    return (key, sha256)

/-- Whether the digests that came with the rows are those of the rows; the keys of a mapping read from JSON are texts. -/
def hashesMatch (hashes : List (Doc × String)) (recordHashes : Doc) : Prop :=
  hashes.Pairwise (fun a b => Doc.pyEq a.1 b.1 = false) ∧
    ∃ hs ∈ asRow recordHashes, hs.length = hashes.length ∧
      ∀ h ∈ hashes, ∃ s ∈ Doc.text? h.1, Dict.get? s hs = some (.str h.2)

instance (hashes : List (Doc × String)) (recordHashes : Doc) : Decidable (hashesMatch hashes recordHashes) :=
  inferInstanceAs (Decidable (_ ∧ ∃ hs ∈ asRow recordHashes, hs.length = hashes.length ∧
    ∀ h ∈ hashes, ∃ s ∈ Doc.text? h.1, Dict.get? s hs = some (.str h.2)))

/-- The counts of the stages: the records converted, and what each earlier stage left out, where it says so. -/
structure IntakeCounts where
  converted : ℕ
  quarantined : Option ℕ
  detailQuarantined : Option ℕ
  orphanEntrantRaces : Option ℕ

/-- The number of entries of a stage, where the data name the stage. -/
def stageCount (data : Doc) (field : String) : Except ActionExc (Option ℕ) :=
  match data.get? field with
  | none => .ok none
  | some (.arr xs) => .ok (some xs.length)
  | some _ => .error (.blocked "historical_intake_stage_array_required")

/-- `expected_report`, from the data of the two files. -/
def reportOf (data reviews validationStart testStart : Doc) : Except ActionExc (Plan × IntakeCounts) := do
  match data with
  | .obj _ =>
    raiseIf (data.field "schema_version" ≠ .str "historical-review-records-v1") (.blocked "historical_review_records_required")
    match data.field "records" with
    | .arr rows => do
      let hashes ← orOther (hashesOf rows)
      raiseIf (¬hashesMatch hashes (data.field "record_hashes")) (.blocked "historical_record_hashes_mismatch")
      let quarantined ← stageCount data "quarantined_records"
      let detailQuarantined ← stageCount data "detail_quarantined_records"
      let orphanEntrantRaces ← stageCount data "orphan_entrant_races"
      let plan ← orOther (prepare (.arr rows) reviews validationStart testStart)
      return (plan, ⟨rows.length, quarantined, detailQuarantined, orphanEntrantRaces⟩)
    | _ => .error (.blocked "historical_review_records_required")
  | _ => .error (.blocked "historical_review_records_required")

/-- What the receipt says of the records. -/
structure Accounting where
  partitioned : ℕ
  excluded : ℕ
  accountedFor : Bool

/-- `accounting` -/
def accounting (plan : Plan) (counts : IntakeCounts) : Accounting :=
  let prepared := plan.train.length + plan.validation.length + plan.test.length
  { partitioned := prepared
    excluded := plan.excluded.length
    accountedFor := prepared + plan.excluded.length = counts.converted }

end Keirin.HistoricalPreparation

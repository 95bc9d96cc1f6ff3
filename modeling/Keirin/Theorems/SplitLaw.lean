import Keirin.ProspectiveTools

/-!
# The evaluation split does not leak the future

The boundaries of both implementations are two of the distinct prediction times, the second after the first; with that the law of
a chronological division holds of the parts, whatever the records.
-/

namespace Keirin

open Holdout (Law law_of_boundaries times_lt)

/-- The second boundary is a later one of the distinct times than the first. -/
theorem boundary_lt {n : ℕ} (h : ¬n < 5) : max 2 (n * 3 / 5) < max 3 (n * 4 / 5) := by omega

/-- Five distinct times or more have both boundaries. -/
theorem boundary_exists {n : ℕ} (h : ¬n < 5) : max 3 (n * 4 / 5) < n := by omega

namespace EvaluationProtocol

/-- A division that succeeds obeys the law. -/
theorem splitRecords_law {selected : List Item} {split : Split} (h : splitRecords selected = .ok split) :
    Law Item.predictionTime Item.resultTime selected split.train split.validation split.test split.validationStart
      split.testStart split.purged := by
  unfold splitRecords at h
  rw [raiseIf_bind_ok] at h
  obtain ⟨hfive, h⟩ := h
  split at h
  · rename_i validStart testStart hvalid htest
    rw [raiseIf_bind_ok] at h
    obtain ⟨-, h⟩ := h
    obtain ⟨-, -, h⟩ := bind_ok.1 h
    obtain ⟨-, -, h⟩ := bind_ok.1 h
    cases h
    exact law_of_boundaries (times_lt (boundary_lt hfive) hvalid htest)
  · nomatch h

end EvaluationProtocol

namespace ProspectiveTools

/-- A division that succeeds obeys the law. -/
theorem splitRecords_law {selected : List Item} {split : Split} (h : splitRecords selected = .ok split) :
    Law Item.predictionTime Item.resultTime selected split.train split.validation split.test split.validationStart
      split.testStart split.purged := by
  unfold splitRecords at h
  rw [raiseIf_bind_ok] at h
  obtain ⟨hfive, h⟩ := h
  split at h
  · rename_i validStart testStart hvalid htest
    rw [raiseIf_bind_ok] at h
    obtain ⟨-, h⟩ := h
    cases h
    exact law_of_boundaries (times_lt (boundary_lt hfive) hvalid htest)
  · nomatch h

end ProspectiveTools

namespace EvaluationProtocol

/-- A division that succeeds obeys the law. -/
def Lawful (selected : List Item) : Except PyError Split → Prop
  | .ok split => Law Item.predictionTime Item.resultTime selected split.train split.validation split.test split.validationStart
      split.testStart split.purged
  | .error _ => True

theorem lawful (selected : List Item) : Lawful selected (splitRecords selected) := by
  cases h : splitRecords selected with
  | error e => trivial
  | ok split => exact splitRecords_law h

/-- Five races, the result of each known before the next is predicted. -/
def sampleItems : List Item :=
  [0, 10, 20, 30, 40].map fun t => ⟨.null, [], t, t + 5, [], ""⟩

example : (splitRecords sampleItems).toOption.map (fun s => (s.train.length, s.validation.length, s.test.length, s.purged)) =
    some (3, 1, 1, 0) := by decide +kernel

end EvaluationProtocol

namespace ProspectiveTools

/-- A division that succeeds obeys the law. -/
def Lawful (selected : List Item) : Except String Split → Prop
  | .ok split => Law Item.predictionTime Item.resultTime selected split.train split.validation split.test split.validationStart
      split.testStart split.purged
  | .error _ => True

theorem lawful (selected : List Item) : Lawful selected (splitRecords selected) := by
  cases h : splitRecords selected with
  | error e => trivial
  | ok split => exact splitRecords_law h

end ProspectiveTools

/-- For any records: a division of what `prepare` selects obeys the law of a chronological division wherever it succeeds; and so does
the division the browser makes of what it selects, whatever its engine makes of date texts and of the order of texts. -/
theorem split_never_leaks :
    (∀ (repr : Doc → String) (synthetic : Bool) (records : List Doc),
      match EvaluationProtocol.prepare repr synthetic records with
      | .ok (selected, _) => EvaluationProtocol.Lawful selected (EvaluationProtocol.splitRecords selected)
      | .error _ => True) ∧
    ∀ (dateParse : String → Option ℤ) (localeCompare : String → String → ℤ) (records : List JsDoc),
      ProspectiveTools.Lawful (ProspectiveTools.prepareRecords dateParse localeCompare records).selected
        (ProspectiveTools.splitRecords (ProspectiveTools.prepareRecords dateParse localeCompare records).selected) := by
  constructor
  · intro repr synthetic records
    cases EvaluationProtocol.prepare repr synthetic records with
    | error e => trivial
    | ok r => exact EvaluationProtocol.lawful r.1
  · exact fun dateParse localeCompare records => ProspectiveTools.lawful _

end Keirin

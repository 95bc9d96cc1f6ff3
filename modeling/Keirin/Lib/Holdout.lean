import Mathlib.Data.List.Sort
import Mathlib.Data.List.Dedup
import Mathlib.Tactic

/-!
# Chronological holdout

Items that carry two times, the time of a prediction and the later time of its result, are divided by two boundaries, which are
two of the distinct prediction times. A part before a boundary holds only items whose result is known before it; what is in no
part is purged.
-/

namespace Holdout

section

variable {α T : Type} [LinearOrder T] (pred res : α → T)

/-- The distinct prediction times, in order. -/
def times (items : List α) : List T := ((items.map pred).dedup).insertionSort (· ≤ ·)

/-- Predicted and known before the first boundary. -/
def beforeFirst (first : T) (items : List α) : List α := items.filter fun i => pred i < first ∧ res i < first

/-- Predicted between the boundaries and known before the second. -/
def between (first second : T) (items : List α) : List α :=
  items.filter fun i => first ≤ pred i ∧ pred i < second ∧ res i < second

/-- Predicted from the second boundary on. -/
def fromSecond (second : T) (items : List α) : List α := items.filter fun i => second ≤ pred i

/-- In none of the parts. -/
def purged (first second : T) (items : List α) : List α :=
  items.filter fun i => ¬(pred i < first ∧ res i < first) ∧ ¬(first ≤ pred i ∧ pred i < second ∧ res i < second) ∧ ¬second ≤ pred i

end

variable {α T : Type} [LinearOrder T] {pred res : α → T}

/-- The distinct times strictly increase. -/
theorem times_pairwise (items : List α) : (times pred items).Pairwise (· < ·) := by
  have hle : (times pred items).Pairwise (· ≤ ·) := List.pairwise_insertionSort (· ≤ ·) _
  have hne : (times pred items).Pairwise (· ≠ ·) := ((List.perm_insertionSort _ _).nodup_iff).2 (List.nodup_dedup _)
  exact hle.imp₂ (fun _ _ h h' => lt_of_le_of_ne h h') hne

/-- A later one of the distinct times is greater. -/
theorem times_lt {items : List α} {i j : ℕ} {a b : T} (hij : i < j) (ha : (times pred items)[i]? = some a)
    (hb : (times pred items)[j]? = some b) : a < b := by
  obtain ⟨hi, rfl⟩ := List.getElem?_eq_some_iff.1 ha
  obtain ⟨hj, rfl⟩ := List.getElem?_eq_some_iff.1 hb
  exact List.pairwise_iff_getElem.1 (times_pairwise items) i j hi hj hij

/-- The law of a division at two boundaries: nothing in a part was known too late, the parts are in order, and every item is in
exactly one of the parts or purged. -/
structure Law (pred res : α → T) (items train validation test : List α) (first second : T) (purgedCount : ℕ) : Prop where
  sublists : train.Sublist items ∧ validation.Sublist items ∧ test.Sublist items
  disjoint : ∀ i, (i ∈ train → i ∉ validation ∧ i ∉ test) ∧ (i ∈ validation → i ∉ test)
  trainKnown : ∀ i ∈ train, res i < first
  validationFrom : ∀ i ∈ validation, first ≤ pred i
  validationKnown : ∀ i ∈ validation, res i < second
  testFrom : ∀ i ∈ test, second ≤ pred i
  ordered : first < second
  accounted : items.length = train.length + validation.length + test.length + purgedCount
  purged : ∃ rest : List α, rest.Sublist items ∧ rest.length = purgedCount ∧
    ∀ i ∈ items, i ∈ rest ↔ i ∉ train ∧ i ∉ validation ∧ i ∉ test

/-- Where the first boundary is before the second, the parts and the purged items are all the items. -/
theorem length_parts {first second : T} (h : first < second) (items : List α) :
    items.length = (beforeFirst pred res first items).length + (between pred res first second items).length +
      (fromSecond pred second items).length + (purged pred res first second items).length := by
  induction items with
  | nil => rfl
  | cons i items ih =>
    unfold beforeFirst between fromSecond purged at *
    simp only [List.filter_cons, decide_eq_true_eq]
    by_cases h1 : pred i < first
    · have h2 : ¬first ≤ pred i := not_le.2 h1
      have h3 : ¬second ≤ pred i := not_le.2 (h1.trans h)
      by_cases hr : res i < first
      · simp only [h1, hr, h2, h3, and_self, not_true, false_and, if_true, if_false, List.length_cons]
        omega
      · simp only [h1, hr, h2, h3, and_false, false_and, not_false_iff, and_self, if_true, if_false, List.length_cons]
        omega
    · have h2 : first ≤ pred i := not_lt.1 h1
      by_cases h3 : second ≤ pred i
      · have h4 : ¬pred i < second := not_lt.2 h3
        simp only [h1, h2, h3, h4, false_and, and_false, not_true, if_true, if_false, List.length_cons]
        omega
      · have h4 : pred i < second := not_le.1 h3
        by_cases hr : res i < second
        · simp only [h1, h2, h3, h4, hr, false_and, and_self, not_true, and_false, if_true, if_false, List.length_cons]
          omega
        · simp only [h1, h2, h3, h4, hr, false_and, and_false, not_false_iff, and_self, if_true, if_false, List.length_cons]
          omega

/-- A division at two of the distinct prediction times obeys the law. -/
theorem law_of_boundaries {items : List α} {first second : T} (h : first < second) :
    Law pred res items (beforeFirst pred res first items) (between pred res first second items) (fromSecond pred second items)
      first second (items.length - (beforeFirst pred res first items).length - (between pred res first second items).length -
        (fromSecond pred second items).length) := by
  have hlen : items.length = (beforeFirst pred res first items).length + (between pred res first second items).length +
      (fromSecond pred second items).length + (purged pred res first second items).length := length_parts h items
  have htrain : ∀ i, i ∈ beforeFirst pred res first items ↔ i ∈ items ∧ pred i < first ∧ res i < first := by
    simp [beforeFirst]
  have hvalid : ∀ i, i ∈ between pred res first second items ↔ i ∈ items ∧ first ≤ pred i ∧ pred i < second ∧ res i < second := by
    simp [between]
  have htest : ∀ i, i ∈ fromSecond pred second items ↔ i ∈ items ∧ second ≤ pred i := by
    simp [fromSecond]
  constructor
  · exact ⟨List.filter_sublist, List.filter_sublist, List.filter_sublist⟩
  · intro i
    constructor
    · intro hi
      have hlt := ((htrain i).1 hi).2.1
      exact ⟨fun hv => absurd ((hvalid i).1 hv).2.1 (not_le.2 hlt), fun ht => absurd ((htest i).1 ht).2 (not_le.2 (hlt.trans h))⟩
    · intro hi ht
      exact absurd ((htest i).1 ht).2 (not_le.2 ((hvalid i).1 hi).2.2.1)
  · exact fun i hi => ((htrain i).1 hi).2.2
  · exact fun i hi => ((hvalid i).1 hi).2.1
  · exact fun i hi => ((hvalid i).1 hi).2.2.2
  · exact fun i hi => ((htest i).1 hi).2
  · exact h
  · omega
  · refine ⟨purged pred res first second items, List.filter_sublist, by omega, fun i hi => ?_⟩
    rw [htrain, hvalid, htest]
    simp only [purged, List.mem_filter, decide_eq_true_eq, hi, true_and]

end Holdout

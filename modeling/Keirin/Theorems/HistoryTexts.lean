import Keirin.Lemmas.SnapshotSame
import Keirin.Theorems.HistoryReview

/-!
# The review of histories and the order of keys

The same is reported of the same records, in whatever order the keys of their mappings stand: which of them are valid and why others are
not, how the records of a race are judged, and what is said of each race. So a review repeated on records that were stored and read back
repeats its report.
-/

namespace Dict

variable {α β : Type} {R : α → β → Prop}

/-- Mappings of the same keys, with related values. -/
abbrev Related (R : α → β → Prop) (d : Dict α) (e : Dict β) : Prop := List.Forall₂ (fun f g => f.1 = g.1 ∧ R f.2 g.2) d e

theorem Related.set {d : Dict α} {e : Dict β} (h : Related R d e) (key : String) {v : α} {w : β} (hvw : R v w) :
    Related R (set key v d) (set key w e) := by
  induction h with
  | nil => exact .cons ⟨rfl, hvw⟩ .nil
  | @cons f g d e hfg hde ih =>
    obtain ⟨k, x⟩ := f
    obtain ⟨k', y⟩ := g
    obtain ⟨rfl, hxy⟩ := hfg
    rw [Dict.set, Dict.set]
    split_ifs
    · exact .cons ⟨rfl, hvw⟩ hde
    · exact .cons ⟨rfl, hxy⟩ ih

theorem Related.getD {d : Dict α} {e : Dict β} (h : Related R d e) (key : String) {v : α} {w : β} (hvw : R v w) :
    R (getD d key v) (getD e key w) := by
  induction h with
  | nil => exact hvw
  | @cons f g d e hfg hde ih =>
    obtain ⟨k, x⟩ := f
    obtain ⟨k', y⟩ := g
    obtain ⟨rfl, hxy⟩ := hfg
    by_cases hk : k = key
    · simpa [Dict.getD, Dict.get?, hk] using hxy
    · simpa [Dict.getD, Dict.get?, hk] using ih

end Dict

namespace Grouped

/-- Related items of the same keys have related groups. -/
theorem related_group {α β : Type} {R : α → β → Prop} {key : α → String} {key' : β → String} {xs : List α} {ys : List β}
    (h : List.Forall₂ R xs ys) (hkey : ∀ x ∈ xs, ∀ y, R x y → key x = key' y) :
    Dict.Related (List.Forall₂ R) (group key xs) (group key' ys) := by
  have hfold : ∀ {d : Dict (List α)} {e : Dict (List β)}, Dict.Related (List.Forall₂ R) d e →
      Dict.Related (List.Forall₂ R) (xs.foldl (add key) d) (ys.foldl (add key') e) := by
    induction h with
    | nil => exact fun hde => hde
    | @cons x y xs ys hxy _ ih =>
      intro d e hde
      rw [List.forall_mem_cons] at hkey
      refine ih hkey.2 ?_
      unfold add
      rw [← hkey.1 y hxy]
      exact hde.set _ (List.rel_append (hde.getD _ .nil) (.cons hxy .nil))
  exact hfold .nil

end Grouped

namespace Keirin.ModelHistory

open Json (Same)

variable {r s : Doc}

/-! ## Two records -/

theorem alike_of_same (h : Same r s) (hr : r.keysOnce = true) : Alike r s where
  field key _ := Doc.same_field h hr key
  settlement key _ := Doc.same_field (Doc.same_field h hr "settlement") (Doc.keysOnce_field hr "settlement") key

theorem raceIdOf_same (h : Same r s) (hr : r.keysOnce = true) : raceIdOf r = raceIdOf s := by
  unfold raceIdOf
  rw [Doc.text?_same (Doc.same_field h hr "race_id")]

theorem isHeld_same (h : Same r s) (hr : r.keysOnce = true) : isHeld r = isHeld s := by
  unfold isHeld
  simp only [Doc.eq_str_iff (Doc.same_field h hr "schema_version")]

theorem timeOf_same (h : Same r s) (hr : r.keysOnce = true) : timeOf r = timeOf s := by
  unfold timeOf
  rw [iso_same (Doc.same_field h hr "prediction_timestamp")]

theorem withField_same {x y : Doc} (h : Same r s) (hr : r.keysOnce = true) (key : String) (hxy : Same x y) :
    Same (withField r key x) (withField s key y) := by
  have hs : s.keysOnce = true := h.keysOnce ▸ hr
  unfold withField
  refine Doc.same_of_get? (Dict.nodup_set (Doc.nodup_entries hr)) (Dict.nodup_set (Doc.nodup_entries hs)) fun k => ?_
  by_cases hk : k = key
  · rw [hk, Dict.get?_set_self, Dict.get?_set_self]
    exact congrArg some hxy
  · rw [Dict.get?_set_of_ne hk, Dict.get?_set_of_ne hk]
    exact Doc.entries_same h k hr

theorem plainSettlement_same (h : Same r s) (hr : r.keysOnce = true) : Same (plainSettlement r) (plainSettlement s) :=
  withField_same (Doc.same_field h hr "settlement") (Doc.keysOnce_field hr "settlement") _ (Same.refl _)

theorem plainRecord_same (h : Same r s) (hr : r.keysOnce = true) : Same (plainRecord r) (plainRecord s) :=
  withField_same h hr _ (plainSettlement_same h hr)

theorem keyOf_same (arithmetic : Arithmetic) (h : Same r s) (hr : Valid r) : keyOf arithmetic r = keyOf arithmetic s := by
  unfold keyOf
  rw [timeOf_same h hr.once, raceIdOf_same h hr.once, raceReview_alike arithmetic (alike_of_same h hr.once) hr]

theorem withdrawnOf_same (h : Same r s) (hr : r.keysOnce = true) : withdrawnOf r = withdrawnOf s := by
  have hsettlement := Doc.same_field h hr "settlement"
  have honce := Doc.keysOnce_field hr "settlement"
  unfold withdrawnOf
  exact filterMap_same (fun _ _ hxy _ => Doc.int?_same hxy) (Doc.elements_same (Doc.same_field hsettlement honce _))
    (keysOnce_elements (Doc.keysOnce_field honce _))

/-! ## The records of a race -/

variable {g g' : List Doc}

theorem map_same {α : Type} {f : Doc → α} (hf : ∀ x y, Same x y → x.keysOnce = true → f x = f y) (h : List.Forall₂ Same g g')
    (hkeys : ∀ x ∈ g, x.keysOnce = true) : g.map f = g'.map f := by
  induction h with
  | nil => rfl
  | cons hxy _ ih =>
    rw [List.forall_mem_cons] at hkeys
    rw [List.map_cons, List.map_cons, hf _ _ hxy hkeys.1, ih hkeys.2]

theorem textsOf_same {f : Doc → Doc} (hf : ∀ x y, Same x y → x.keysOnce = true → Same (f x) (f y)) (h : List.Forall₂ Same g g')
    (hkeys : ∀ x ∈ g, x.keysOnce = true) : textsOf f g = textsOf f g' := by
  unfold textsOf
  rw [map_same (fun x y hxy hx => Doc.dumps_same (hf x y hxy hx) Scalar.text) h hkeys]

theorem latestOf_same (h : List.Forall₂ Same g g') (hkeys : ∀ x ∈ g, x.keysOnce = true) : latestOf g = latestOf g' := by
  unfold latestOf
  rw [map_same (fun _ _ hxy hx => timeOf_same hxy hx) h hkeys]

/-- The same records of a race are judged the same. -/
theorem judge_same (arithmetic : Arithmetic) (h : List.Forall₂ Same g g') (hvalid : ∀ x ∈ g, Valid x) :
    (judge g).view arithmetic = (judge g').view arithmetic := by
  have hkeys : ∀ x ∈ g, x.keysOnce = true := fun x hx => (hvalid x hx).once
  have hholds := CategorySelection.filter_same (p := isHeld) (q := isHeld) h hkeys fun _ _ hxy hx => isHeld_same hxy hx
  have honce : ∀ x ∈ g.filter isHeld, x.keysOnce = true := fun x hx => hkeys x (List.mem_of_mem_filter hx)
  have htime : ∀ x y, Same x y → x.keysOnce = true → decide (timeOf x = latestOf g) = decide (timeOf y = latestOf g') := by
    intro x y hxy hx
    rw [timeOf_same hxy hx, latestOf_same h hkeys]
  have htied := CategorySelection.filter_same h hkeys htime
  have htiedOnce : ∀ x ∈ g.filter fun r => timeOf r = latestOf g, Valid x := fun x hx => hvalid x (List.mem_of_mem_filter hx)
  have hne : g.filter isHeld ≠ [] ↔ g'.filter isHeld ≠ [] := by
    rw [← List.length_pos_iff, ← List.length_pos_iff, hholds.length_eq]
  have hlength := h.length_eq
  have hplain := textsOf_same (fun _ _ hxy hx => plainSettlement_same hxy hx) h hkeys
  have hrecords := textsOf_same (fun _ _ hxy hx => plainRecord_same hxy hx) htied fun x hx => (htiedOnce x hx).once
  have hreasons : (g.filter isHeld).filterMap (fun r => ((r.field "settlement").field "result_status").text?) =
      (g'.filter isHeld).filterMap fun r => ((r.field "settlement").field "result_status").text? :=
    filterMap_same (fun _ _ hxy hx => Doc.text?_same (Doc.same_field (Doc.same_field hxy hx _) (Doc.keysOnce_field hx _) _)) hholds honce
  have hwithdrawn : (g.filter isHeld).flatMap withdrawnOf = (g'.filter isHeld).flatMap withdrawnOf := by
    rw [List.flatMap_def, List.flatMap_def, map_same (fun _ _ hxy hx => withdrawnOf_same hxy hx) hholds honce]
  cases h with
  | nil => rfl
  | @cons x y xs ys hxy hrest =>
    have hx := hvalid x List.mem_cons_self
    by_cases hheld : (x :: xs).filter isHeld ≠ []
    · have hexists : ∀ {zs : List Doc}, zs.filter isHeld ≠ [] → ∃ r ∈ zs, isHeld r = true := by
        intro zs hzs
        obtain ⟨r, rest, hr⟩ := List.exists_cons_of_ne_nil hzs
        exact ⟨r, List.mem_filter.1 (hr ▸ List.mem_cons_self)⟩
      rw [judge_held rfl (hexists hheld), judge_held rfl (hexists (hne.1 hheld)), hreasons, hwithdrawn, hlength, raceIdOf_same hxy hx.once,
        riderCountOf_same (alike_of_same hxy hx.once) hx]
    · have hheld' := fun h' => hheld (hne.2 h')
      unfold judge
      simp only [if_neg hheld, if_neg hheld', hplain, hrecords]
      generalize (x :: xs).filter (fun r => decide (timeOf r = latestOf (x :: xs))) = tied at htied htiedOnce
      generalize (y :: ys).filter (fun r => decide (timeOf r = latestOf (y :: ys))) = tied' at htied
      split_ifs with hone htwo
      · rfl
      · rfl
      · cases htied with
        | nil => rfl
        | cons hab _ => exact congrArg (fun k => Sum.inr (Sum.inr k)) (keyOf_same arithmetic hab (htiedOnce _ List.mem_cons_self))

/-! ## All records -/

section Evaluate

variable {dateError : String → String} {arithmetic : Arithmetic} {records records' : List Doc}

theorem accepts_same (h : Same r s) (hr : r.keysOnce = true) : accepts dateError r = accepts dateError s := by
  unfold accepts
  rw [validateHistory_same dateError h hr]

theorem refusal?_same (h : Same r s) (hr : r.keysOnce = true) : refusal? dateError r = refusal? dateError s := by
  unfold refusal?
  rw [validateHistory_same dateError h hr]

theorem tales_same (h : List.Forall₂ Same records records') (hkeys : ∀ r ∈ records, r.keysOnce = true) :
    tales dateError arithmetic records = tales dateError arithmetic records' := by
  have hvalid : List.Forall₂ Same (records.filter (accepts dateError)) (records'.filter (accepts dateError)) :=
    CategorySelection.filter_same h hkeys fun _ _ hxy hx => accepts_same hxy hx
  have hgroups : List.Forall₂ (List.Forall₂ Same) (groupsOf dateError records) (groupsOf dateError records') := by
    have hrelated : Dict.Related (List.Forall₂ Same) (Grouped.group raceIdOf (records.filter (accepts dateError)))
        (Grouped.group raceIdOf (records'.filter (accepts dateError))) :=
      Grouped.related_group hvalid fun x hx y hxy => raceIdOf_same hxy (hkeys x (List.mem_of_mem_filter hx))
    unfold groupsOf
    rw [List.forall₂_map_left_iff, List.forall₂_map_right_iff]
    exact hrelated.imp fun f g hfg => hfg.2
  have hmem : ∀ g ∈ groupsOf dateError records, ∀ x ∈ g, Valid x := by
    intro g hg x hx
    rw [groupsOf_eq] at hg
    obtain ⟨race, -, rfl⟩ := List.mem_map.1 hg
    obtain ⟨hin, haccepts, -⟩ := mem_groupOf.1 hx
    exact valid_of_accepts (hkeys x hin) haccepts
  unfold tales
  generalize groupsOf dateError records = groups at hgroups hmem
  generalize groupsOf dateError records' = groups' at hgroups
  induction hgroups with
  | nil => rfl
  | @cons g g' groups groups' hg _ ih =>
    rw [List.forall_mem_cons] at hmem
    rw [List.map_cons, List.map_cons, ih hmem.2]
    unfold told
    rw [judge_same arithmetic hg hmem.1, hg.length_eq]

theorem refusals_same (h : List.Forall₂ Same records records') (hkeys : ∀ r ∈ records, r.keysOnce = true) :
    records.filterMap (refusal? dateError) = records'.filterMap (refusal? dateError) :=
  filterMap_same (fun _ _ hxy hx => refusal?_same hxy hx) h hkeys

/-- Of records of which the same is told, and that are refused for the same reasons, the same is reported. -/
theorem sameReport_of_tales (htales : tales dateError arithmetic records = tales dateError arithmetic records')
    (hrefusals : records.filterMap (refusal? dateError) = records'.filterMap (refusal? dateError)) (inputs : ℕ) :
    SameReport (report arithmetic inputs (reviewed dateError records)) (report arithmetic inputs (reviewed dateError records')) := by
  have hperRace : (report arithmetic inputs (reviewed dateError records)).perRace.map RaceReview.sorted =
      (report arithmetic inputs (reviewed dateError records')).perRace.map RaceReview.sorted := by
    rw [perRace_sorted, perRace_sorted, htales]
  obtain ⟨hstatus, hevaluated, hartifacts, hmetrics⟩ := perRace_fields hperRace
  have hcases : (report arithmetic inputs (reviewed dateError records)).heldCases =
      (report arithmetic inputs (reviewed dateError records')).heldCases := by
    rw [heldCases_eq, heldCases_eq, htales]
  have hheld : (reviewed dateError records).held = (reviewed dateError records').held := by
    rw [reviewed_eq arithmetic, reviewed_eq arithmetic, htales]
  have hexcluded : (reviewed dateError records).excluded = (reviewed dateError records').excluded := by
    rw [reviewed_eq arithmetic, reviewed_eq arithmetic, htales, hrefusals]
  have hduplicates : (reviewed dateError records).duplicates = (reviewed dateError records').duplicates := by
    rw [reviewed_eq arithmetic, reviewed_eq arithmetic, htales]
  exact ⟨hstatus, rfl, hevaluated, congrArg List.length hheld, hcases, hartifacts,
    fun reason => congrArg (fun d => Dict.getD d reason 0) hexcluded, hduplicates, hmetrics, hperRace⟩

end Evaluate

/-- The same records, their keys in whatever order, are reviewed with the same report: what is evaluated, held, dropped and excluded, and
for which reasons. -/
theorem review_of_same_records (dateError : String → String) (arithmetic : Arithmetic) (records records' : List HistoryRecord)
    (h : List.Forall₂ (fun r s => Same r.doc s.doc) records records') : ∃ report report',
    evaluateHistories dateError arithmetic true (records.map HistoryRecord.doc) = .ok report ∧
      evaluateHistories dateError arithmetic true (records'.map HistoryRecord.doc) = .ok report' ∧ SameReport report report' := by
  have hsame : List.Forall₂ Same (records.map HistoryRecord.doc) (records'.map HistoryRecord.doc) := by
    rw [List.forall₂_map_left_iff, List.forall₂_map_right_iff]
    exact h
  have hkeys : ∀ r ∈ records.map HistoryRecord.doc, r.keysOnce = true := by
    intro r hr
    obtain ⟨r, -, rfl⟩ := List.mem_map.1 hr
    exact r.once
  refine ⟨_, _, rfl, rfl, ?_⟩
  rw [← hsame.length_eq]
  exact sameReport_of_tales (tales_same hsame hkeys) (refusals_same hsame hkeys) _

/-- A record and the same record with its keys sorted. -/
theorem review_of_sorted_record : ∃ report report',
    evaluateHistories (fun _ => "") ⟨id, id, List.sum⟩ true [sampleDoc 7] = .ok report ∧
      evaluateHistories (fun _ => "") ⟨id, id, List.sum⟩ true [(sampleDoc 7).sortKeys] = .ok report' ∧ SameReport report report' :=
  review_of_same_records (fun _ => "") ⟨id, id, List.sum⟩ [⟨sampleDoc 7, keysOnce_sampleDoc (.inl rfl)⟩]
    [⟨(sampleDoc 7).sortKeys, (Json.keysOnce_sortKeys _).trans (keysOnce_sampleDoc (.inl rfl))⟩]
    (.cons (Json.same_sortKeys (sampleDoc 7)).symm .nil)

end Keirin.ModelHistory

import Keirin.Lemmas.CategorySelection
import Keirin.Lemmas.DocSame
import Keirin.Lemmas.HistoricalPayouts
import Keirin.Lemmas.PythonEq
import Keirin.Lemmas.TaskIdentity
import Keirin.ModelHistory

/-!
# What the review of histories tells

The review groups the valid records by race and judges each race. What it tells of a race depends on the records of the race and not
on their order, but for the number of riders of a race that is held, which is that of the first record.
-/

namespace Keirin

/-! ## Documents -/

namespace Doc

/-- The text of a finite document tells it up to the order of its keys. -/
theorem same_of_dumps {v w : Doc} (hv : v.finite = true) (hw : w.finite = true) (hkv : v.keysOnce = true) (hkw : w.keysOnce = true)
    (h : v.dumps Scalar.text = w.dumps Scalar.text) : Json.Same v w := by
  have htext : ∀ {u : Doc}, u.finite = true → u.dumps Scalar.text = u.dumps Scalar.dumpText := by
    intro u hu
    unfold Json.dumps
    rw [Json.render_eq_spaced, Json.render_eq_spaced]
    exact spaced_text (by rw [Doc.finite, Json.allNum_sortKeys]; exact hu) []
  rw [htext hv, htext hw] at h
  exact Json.same_of_dumps (fun _ => Scalar.numOk) hv hw hkv hkw h

theorem finite_of_checkFinite {v : Doc} (h : checkFinite v = .ok ()) : v.finite = true := by
  unfold checkFinite at h
  split_ifs at h with _ hf
  simpa using hf

theorem checkFinite_of_finite {v : Doc} (h : v.finite = true) : checkFinite v = .ok () := by
  simp [checkFinite, h, encodable_of_finite h]

theorem finite_field {v : Doc} (h : v.finite = true) (key : String) : (v.field key).finite = true := by
  cases v with
  | obj fs => exact finite_getD h key
  | _ => rfl

theorem get?_eq_entries (v : Doc) (key : String) : v.get? key = Dict.get? key v.entries := by cases v <;> rfl

theorem finite_entries {v : Doc} (h : v.finite = true) : Doc.finite (.obj v.entries) = true := by
  cases v with
  | obj fs => exact h
  | _ => rfl

theorem keysOnce_entries {v : Doc} (h : v.keysOnce = true) : (Json.obj v.entries : Doc).keysOnce = true := by
  cases v with
  | obj fs => exact h
  | _ => rfl

theorem keysOnce_set {fs : Dict Doc} (h : (Json.obj fs : Doc).keysOnce = true) (key : String) {v : Doc} (hv : v.keysOnce = true) :
    (Json.obj (Dict.set key v fs) : Doc).keysOnce = true := by
  rw [keysOnce_obj] at h ⊢
  refine ⟨Dict.nodup_set h.1, fun f hf => ?_⟩
  rcases Dict.mem_set hf with hf | hf
  · exact h.2 f hf
  · rw [hf]
    exact hv

/-- The entries of the same objects, in the order of their keys, by what tells the same parts alike. -/
theorem sorted_entries {α : Type} {v w : Doc} (h : Json.Same v w) (hv : v.keysOnce = true) (f : Doc → α)
    (hf : ∀ x y : Doc, Json.Same x y → x.keysOnce = true → f x = f y) :
    (v.entries.map fun e => (e.1, f e.2)).insertionSort (fun a b => a.1 ≤ b.1) =
      (w.entries.map fun e => (e.1, f e.2)).insertionSort (fun a b => a.1 ≤ b.1) := by
  have hsort : ∀ fs : Dict Doc, (Json.obj fs : Doc).keysOnce = true →
      (fs.map fun e => (e.1, f e.2)).insertionSort (fun a b => a.1 ≤ b.1) =
        ((fs.map fun e => (e.1, e.2.sortKeys)).insertionSort (fun a b => a.1 ≤ b.1)).map fun e => (e.1, f e.2) := by
    intro fs hfs
    rw [List.map_insertionSort (s := fun a b : String × α => a.1 ≤ b.1) (r := fun a b : String × Doc => a.1 ≤ b.1) _ _
      fun a _ b _ => Iff.rfl, List.map_map]
    refine congrArg _ (List.map_congr_left fun e he => ?_)
    exact Prod.ext rfl (hf e.2 e.2.sortKeys (Json.same_sortKeys e.2).symm ((keysOnce_obj.1 hfs).2 e he))
  rcases same_cases h with rfl | ⟨xs, ys, rfl, rfl, -⟩ | ⟨fs, gs, rfl, rfl⟩
  · rfl
  · rfl
  · have hkeys : (fs.map fun e => (e.1, e.2.sortKeys)).insertionSort (fun a b => a.1 ≤ b.1) =
        (gs.map fun e => (e.1, e.2.sortKeys)).insertionSort (fun a b => a.1 ≤ b.1) := by
      have h' : (Json.obj fs : Doc).sortKeys = (Json.obj gs : Doc).sortKeys := h
      rw [Json.sortKeys, Json.sortKeys, Json.sortKeysFields_eq, Json.sortKeysFields_eq] at h'
      exact Json.obj.inj h'
    show (fs.map _).insertionSort _ = (gs.map _).insertionSort _
    rw [hsort fs hv, hsort gs (h.keysOnce ▸ hv), hkeys]

end Doc

namespace ModelHistory

open Json (Same)
open HistoricalPayouts (demand demand_bind_ok require_bind_ok)

/-! ## A valid record -/

/-- What a valid record is: JSON. -/
structure Valid (record : Doc) : Prop where
  finite : record.finite = true
  once : record.keysOnce = true

theorem valid_of_validateHistory {dateError : String → String} {record : Doc} (hkeys : record.keysOnce = true)
    (h : validateHistory dateError record = .ok ()) : Valid record := by
  unfold validateHistory at h
  obtain ⟨-, h⟩ := demand_bind_ok.1 h
  obtain ⟨expected, -, h⟩ := bind_ok.1 h
  obtain ⟨given, hgiven, -⟩ := bind_ok.1 h
  obtain ⟨_, hcheck, -⟩ := bind_ok.1 hgiven
  exact ⟨Doc.finite_of_checkFinite hcheck, hkeys⟩

@[simp] theorem field_withField_self (v : Doc) (key : String) (x : Doc) : (withField v key x).field key = x := by
  simp [withField, Doc.field, Json.get?]

theorem field_withField_of_ne {key key' : String} (h : key' ≠ key) (v x : Doc) : (withField v key x).field key' = v.field key' := by
  unfold Doc.field
  rw [Doc.get?_eq_entries, Doc.get?_eq_entries]
  exact congrArg (fun o => o.getD Json.null) (Dict.get?_set_of_ne h x v.entries)

theorem Valid.withField {v x : Doc} (hv : Valid v) (hx : Valid x) (key : String) : Valid (withField v key x) :=
  ⟨Doc.finite_set (Doc.finite_entries hv.finite) key hx.finite, Doc.keysOnce_set (Doc.keysOnce_entries hv.once) key hx.once⟩

theorem Valid.field {v : Doc} (hv : Valid v) (key : String) : Valid (v.field key) :=
  ⟨Doc.finite_field hv.finite key, Doc.keysOnce_field hv.once key⟩

theorem Valid.plainSettlement {record : Doc} (h : Valid record) : Valid (plainSettlement record) :=
  (h.field "settlement").withField ⟨rfl, rfl⟩ "result_status"

theorem Valid.plainRecord {record : Doc} (h : Valid record) : Valid (plainRecord record) := h.withField h.plainSettlement "settlement"

/-- Records of which one text is written, the status of the settlement being said, are the same but for that status. -/
structure Alike (r s : Doc) : Prop where
  field : ∀ key, key ≠ "settlement" → Same (r.field key) (s.field key)
  settlement : ∀ key, key ≠ "result_status" → Same ((r.field "settlement").field key) ((s.field "settlement").field key)

theorem alike_of_texts {r s : Doc} (hr : Valid r) (hs : Valid s)
    (h : (plainRecord r).dumps Scalar.text = (plainRecord s).dumps Scalar.text) : Alike r s := by
  have hsame : Same (plainRecord r) (plainRecord s) :=
    Doc.same_of_dumps hr.plainRecord.finite hs.plainRecord.finite hr.plainRecord.once hs.plainRecord.once h
  have hfield : ∀ key, Same ((plainRecord r).field key) ((plainRecord s).field key) := Doc.same_field hsame hr.plainRecord.once
  constructor
  · intro key hkey
    have := hfield key
    unfold plainRecord at this
    rwa [field_withField_of_ne hkey, field_withField_of_ne hkey] at this
  · intro key hkey
    have hsettlement := hfield "settlement"
    unfold plainRecord at hsettlement
    rw [field_withField_self, field_withField_self] at hsettlement
    have := Doc.same_field hsettlement hr.plainSettlement.once key
    unfold plainSettlement at this
    rwa [field_withField_of_ne hkey, field_withField_of_ne hkey] at this

/-! ## What is told of a race -/

/-- The review of a race, its categories in the order of their keys. -/
def RaceReview.sorted (r : RaceReview) : RaceReview := { r with categories := r.categories.insertionSort fun a b => a.1 ≤ b.1 }

theorem filterMap_same {α : Type} {f : Doc → Option α} (hf : ∀ x y, Same x y → x.keysOnce = true → f x = f y) {xs ys : List Doc}
    (h : List.Forall₂ Same xs ys) (hkeys : ∀ x ∈ xs, x.keysOnce = true) : xs.filterMap f = ys.filterMap f := by
  induction h with
  | nil => rfl
  | cons hxy _ ih =>
    rw [List.forall_mem_cons] at hkeys
    rw [List.filterMap_cons, List.filterMap_cons, hf _ _ hxy hkeys.1, ih hkeys.2]

theorem any_same {p : Doc → Bool} (hp : ∀ x y, Same x y → x.keysOnce = true → p x = p y) {xs ys : List Doc}
    (h : List.Forall₂ Same xs ys) (hkeys : ∀ x ∈ xs, x.keysOnce = true) : xs.any p = ys.any p := by
  induction h with
  | nil => rfl
  | cons hxy _ ih =>
    rw [List.forall_mem_cons] at hkeys
    rw [List.any_cons, List.any_cons, hp _ _ hxy hkeys.1, ih hkeys.2]

theorem keysOnce_elements {v : Doc} (h : v.keysOnce = true) : ∀ x ∈ v.elements?.getD [], x.keysOnce = true := by
  cases v with
  | arr xs => exact Doc.keysOnce_arr.1 h
  | _ => exact fun x hx => absurd hx List.not_mem_nil

theorem tableOf_same {v w : Doc} (h : Same v w) (hv : v.keysOnce = true) :
    tableOf (v.elements?.getD []) = tableOf (w.elements?.getD []) := by
  unfold tableOf
  congr 1
  refine filterMap_same (fun x y hxy hx => ?_) (Doc.elements_same h) (keysOnce_elements hv)
  rw [Doc.text?_same (Doc.same_field hxy hx "combo_key")]
  unfold CategorySelection.valueOf
  rw [Doc.number_same (Doc.same_field hxy hx "estimated_probability")]

theorem riderCountOf_same {r s : Doc} (h : Alike r s) (hr : Valid r) : riderCountOf r = riderCountOf s := by
  have hsnapshot := h.field "snapshot" (by decide)
  have hprediction := Doc.same_field hsnapshot (hr.field "snapshot").once "prediction"
  have hquality := Doc.same_field hprediction ((hr.field "snapshot").field "prediction").once "input_quality"
  have hcount := Doc.same_field hquality (((hr.field "snapshot").field "prediction").field "input_quality").once "rider_count"
  unfold riderCountOf
  rw [Doc.int?_same hcount]

/-- Of records that are alike one review is made, up to the order of its categories. -/
theorem raceReview_alike (arithmetic : Arithmetic) {r s : Doc} (h : Alike r s) (hr : Valid r) :
    (raceReview arithmetic r).sorted = (raceReview arithmetic s).sorted := by
  have hprediction := Doc.same_field (h.field "snapshot" (by decide)) (hr.field "snapshot").once "prediction"
  have hvalid := (hr.field "snapshot").field "prediction"
  have hscores := Doc.same_field hprediction hvalid.once "trifecta_scores"
  have hselected := Doc.same_field hprediction hvalid.once "selected_predictions"
  have hcategories := Doc.same_field hselected (hvalid.field "selected_predictions").once "categories"
  have houtcome : ((r.field "settlement").field "outcome_combo").text? = ((s.field "settlement").field "outcome_combo").text? :=
    Doc.text?_same (h.settlement "outcome_combo" (by decide))
  have hpicks : ∀ x y : Doc, Same x y → x.keysOnce = true → ∀ outcome : String,
      (⟨((x.field "picks").elements?.getD []).length,
        ((x.field "picks").elements?.getD []).any fun p => (p.field "combo_key").text? = some outcome⟩ : CategoryReview) =
      ⟨((y.field "picks").elements?.getD []).length,
        ((y.field "picks").elements?.getD []).any fun p => (p.field "combo_key").text? = some outcome⟩ := by
    intro x y hxy hx outcome
    have hlist := Doc.elements_same (Doc.same_field hxy hx "picks")
    have hany := any_same (p := fun p => decide ((p.field "combo_key").text? = some outcome))
      (fun p q hpq hp => by rw [Doc.text?_same (Doc.same_field hpq hp "combo_key")]) hlist
      (keysOnce_elements (Doc.keysOnce_field hx "picks"))
    rw [CategoryReview.mk.injEq]
    exact ⟨hlist.length_eq, hany⟩
  unfold RaceReview.sorted raceReview raceIdOf
  rw [RaceReview.mk.injEq]
  refine ⟨?_, ?_, riderCountOf_same h hr, ?_, ?_, ?_⟩
  · rw [Doc.text?_same (h.field "race_id" (by decide))]
  · rw [Doc.text?_same (h.field "model_artifact_sha256" (by decide))]
  · rw [Doc.text?_same (h.field "prediction_timestamp" (by decide))]
  · exact congrArg₂ (score arithmetic) (tableOf_same hscores (hvalid.field "trifecta_scores").once) (congrArg (fun t => t.getD "") houtcome)
  · rw [houtcome]
    exact Doc.sorted_entries hcategories ((hvalid.field "selected_predictions").field "categories").once _
      fun x y hxy hx => hpicks x y hxy hx _

/-! ## The judgement of a race -/

theorem sortedSet_perm {α : Type} [LinearOrder α] {xs ys : List α} (h : xs.Perm ys) : sortedSet xs = sortedSet ys :=
  Sorted.sort_perm h.dedup fun _ _ _ _ hab hba => le_antisymm hab hba

theorem latestOf_perm {g g' : List Doc} (h : g.Perm g') : latestOf g = latestOf g' := by
  unfold latestOf
  congr 1
  have hmem : ∀ t, t ∈ g.map timeOf ↔ t ∈ g'.map timeOf := fun t => (h.map timeOf).mem_iff
  have hiff : ∀ t, (g.map timeOf).max? = some t ↔ (g'.map timeOf).max? = some t := by
    intro t
    rw [List.max?_eq_some_iff, List.max?_eq_some_iff, hmem]
    exact and_congr_right fun _ => forall_congr' fun u => by rw [hmem]
  cases hg : (g.map timeOf).max? with
  | some t => exact ((hiff t).1 hg).symm
  | none =>
    cases hg' : (g'.map timeOf).max? with
    | some t => exact hg.symm.trans ((hiff t).2 hg')
    | none => rfl

/-- The latest time is that of a record. -/
theorem exists_latest {g : List Doc} (h : g ≠ []) : ∃ r ∈ g, timeOf r = latestOf g := by
  have hne : g.map timeOf ≠ [] := by simpa using h
  obtain ⟨t, ht⟩ : ∃ t, (g.map timeOf).max? = some t := by
    cases hmax : (g.map timeOf).max? with
    | some t => exact ⟨t, rfl⟩
    | none => exact absurd (List.max?_eq_none_iff.1 hmax) hne
  obtain ⟨r, hr, hrt⟩ := List.mem_map.1 (List.max?_eq_some_iff.1 ht).1
  refine ⟨r, hr, ?_⟩
  unfold latestOf
  rw [ht, hrt]
  rfl

theorem textsOf_perm (f : Doc → Doc) {g g' : List Doc} (h : g.Perm g') : (textsOf f g).length = (textsOf f g').length :=
  ((h.map _).dedup).length_eq

/-- Where one text is written of some records, each of them is written so. -/
theorem text_of_one {f : Doc → Doc} {g : List Doc} (h : (textsOf f g).length = 1) {r s : Doc} (hr : r ∈ g) (hs : s ∈ g) :
    (f r).dumps Scalar.text = (f s).dumps Scalar.text := by
  obtain ⟨t, ht⟩ := List.length_eq_one_iff.1 h
  have hall : ∀ x ∈ g, (f x).dumps Scalar.text = t := by
    intro x hx
    have hmem : (f x).dumps Scalar.text ∈ textsOf f g := List.mem_dedup.2 (List.mem_map_of_mem hx)
    rwa [ht, List.mem_singleton] at hmem
  rw [hall r hr, hall s hs]

/-- What is told of a selected record. -/
abbrev Key := ℤ × String × RaceReview

def keyOf (arithmetic : Arithmetic) (record : Doc) : Key := (timeOf record, raceIdOf record, (raceReview arithmetic record).sorted)

namespace Verdict

/-- What is told of a verdict. -/
def view (arithmetic : Arithmetic) : Verdict → HeldCase ⊕ String ⊕ Key
  | held case => .inl case
  | excluded reason => .inr (.inl reason)
  | selected record => .inr (.inr (keyOf arithmetic record))

end Verdict

/-- The valid records of a race. -/
structure Race (race : String) (group : List Doc) : Prop where
  ne : group ≠ []
  valid : ∀ r ∈ group, Valid r
  race : ∀ r ∈ group, raceIdOf r = race
  /-- The records of a race that is held agree on the number of riders. -/
  agree : (∃ r ∈ group, isHeld r = true) → ∀ r ∈ group, ∀ s ∈ group, riderCountOf r = riderCountOf s

theorem judge_held {g : List Doc} {first : Doc} (hfirst : g.head? = some first) (h : ∃ r ∈ g, isHeld r = true) :
    judge g = .held
      { raceId := raceIdOf first
        riderCount := riderCountOf first
        reasons := sortedSet ((g.filter isHeld).filterMap fun r => ((r.field "settlement").field "result_status").text?)
        withdrawnCarNumbers := sortedSet ((g.filter isHeld).flatMap withdrawnOf)
        excludedRecords := g.length } := by
  obtain ⟨r, hr, hheld⟩ := h
  have hne : g.filter isHeld ≠ [] := List.ne_nil_of_mem (List.mem_filter.2 ⟨hr, hheld⟩)
  cases g with
  | nil => cases hfirst
  | cons x xs =>
    cases hfirst
    exact if_pos hne

theorem judge_plain {g : List Doc} (hne : g ≠ []) (h : ¬∃ r ∈ g, isHeld r = true) : ∃ record ∈ g, timeOf record = latestOf g ∧
    judge g =
      if (textsOf plainSettlement g).length ≠ 1 then .excluded "conflicting_settlements"
      else if (textsOf plainRecord (g.filter fun r => timeOf r = latestOf g)).length ≠ 1 then .excluded "conflicting_latest_snapshots"
      else .selected record := by
  have hnone : g.filter isHeld = [] := by
    rw [List.filter_eq_nil_iff]
    exact fun r hr hheld => h ⟨r, hr, hheld⟩
  obtain ⟨r, hr, hlatest⟩ := exists_latest hne
  obtain ⟨record, rest, htied⟩ := List.exists_cons_of_ne_nil
    (List.ne_nil_of_mem (List.mem_filter.2 ⟨hr, decide_eq_true hlatest⟩) : (g.filter fun r => timeOf r = latestOf g) ≠ [])
  have hmem := List.mem_filter.1 (htied ▸ List.mem_cons_self : record ∈ g.filter fun r => timeOf r = latestOf g)
  refine ⟨record, hmem.1, of_decide_eq_true hmem.2, ?_⟩
  cases g with
  | nil => exact absurd rfl hne
  | cons x xs =>
    refine (if_neg (not_not.2 hnone)).trans ?_
    split_ifs with h1 h2
    · rfl
    · exact if_pos h2
    · refine (if_neg h2).trans ?_
      rw [htied]

/-- The judgement of a race does not depend on the order of its records. -/
theorem judge_perm (arithmetic : Arithmetic) {race : String} {g g' : List Doc} (h : Race race g) (hperm : g.Perm g') :
    (judge g).view arithmetic = (judge g').view arithmetic := by
  have hmem : ∀ r, r ∈ g ↔ r ∈ g' := fun r => hperm.mem_iff
  have hne' : g' ≠ [] := fun hnil => h.ne (hnil ▸ hperm).eq_nil
  have hexists : (∃ r ∈ g, isHeld r = true) ↔ ∃ r ∈ g', isHeld r = true := exists_congr fun r => and_congr_left fun _ => hmem r
  by_cases hheld : ∃ r ∈ g, isHeld r = true
  · obtain ⟨x, xs, rfl⟩ := List.exists_cons_of_ne_nil h.ne
    obtain ⟨y, ys, rfl⟩ := List.exists_cons_of_ne_nil hne'
    have hy : y ∈ x :: xs := (hmem y).2 List.mem_cons_self
    have hfilter := hperm.filter isHeld
    rw [judge_held rfl hheld, judge_held rfl (hexists.1 hheld)]
    simp only [Verdict.view, Sum.inl.injEq, HeldCase.mk.injEq]
    refine ⟨?_, h.agree hheld x List.mem_cons_self y hy, sortedSet_perm (hfilter.filterMap _), sortedSet_perm (hfilter.flatMap_right _),
      hperm.length_eq⟩
    rw [h.race x List.mem_cons_self, h.race y hy]
  · obtain ⟨record, hrecord, htime, hjudge⟩ := judge_plain h.ne hheld
    obtain ⟨record', hrecord', htime', hjudge'⟩ := judge_plain hne' fun he => hheld (hexists.2 he)
    have hlatest := latestOf_perm hperm
    have htied : (g.filter fun r => timeOf r = latestOf g).Perm (g'.filter fun r => timeOf r = latestOf g') := by
      rw [hlatest]
      exact hperm.filter _
    rw [hjudge, hjudge', textsOf_perm plainSettlement hperm, textsOf_perm plainRecord htied]
    split_ifs with h1 h2
    · rfl
    · rfl
    · rw [not_not, ← textsOf_perm plainRecord htied] at h2
      have hin : record ∈ g.filter fun r => timeOf r = latestOf g := List.mem_filter.2 ⟨hrecord, decide_eq_true htime⟩
      have hin' : record' ∈ g.filter fun r => timeOf r = latestOf g :=
        List.mem_filter.2 ⟨(hmem record').2 hrecord', decide_eq_true (htime'.trans hlatest.symm)⟩
      have halike := alike_of_texts (h.valid record hrecord) (h.valid record' ((hmem record').2 hrecord')) (text_of_one h2 hin hin')
      simp only [Verdict.view, keyOf, Sum.inr.injEq, Prod.mk.injEq]
      refine ⟨?_, ?_, raceReview_alike arithmetic halike (h.valid record hrecord)⟩
      · rw [htime, htime', hlatest]
      · rw [h.race record hrecord, h.race record' ((hmem record').2 hrecord')]

/-! ## The races one by one -/

namespace Verdict

def case? : HeldCase ⊕ String ⊕ Key → Option HeldCase
  | .inl case => some case
  | _ => none

def key? : HeldCase ⊕ String ⊕ Key → Option Key
  | .inr (.inr key) => some key
  | _ => none

/-- The record that stands for a race. -/
def record? : Verdict → Option Doc
  | selected record => some record
  | _ => none

/-- The records dropped for the one selected. -/
def dropped (n : ℕ) : HeldCase ⊕ String ⊕ Key → ℕ
  | .inr (.inr _) => n - 1
  | _ => 0

/-- The reason why the records of a race are excluded. -/
def reason? : HeldCase ⊕ String ⊕ Key → Option String
  | .inl _ => some "nonstandard_race_requires_review"
  | .inr (.inl reason) => some reason
  | .inr (.inr _) => none

end Verdict

/-- What is told of a race: its verdict, and how many records it has. -/
def told (arithmetic : Arithmetic) (group : List Doc) : (HeldCase ⊕ String ⊕ Key) × ℕ := ((judge group).view arithmetic, group.length)

/-- What is excluded of races of which this is told. -/
def excluding (counts : Dict ℕ) (race : (HeldCase ⊕ String ⊕ Key) × ℕ) : Dict ℕ :=
  match Verdict.reason? race.1 with
  | some reason => Tally.add counts reason race.2
  | none => counts

/-- How many records of races are excluded for a reason. -/
def excludedFor (reason : String) (race : (HeldCase ⊕ String ⊕ Key) × ℕ) : ℕ := if Verdict.reason? race.1 = some reason then race.2 else 0

theorem add_eq (arithmetic : Arithmetic) (review : Review) (group : List Doc) :
    review.add group =
      { selected := review.selected ++ ((judge group).record?).toList
        held := review.held ++ (Verdict.case? (told arithmetic group).1).toList
        duplicates := review.duplicates + Verdict.dropped group.length (told arithmetic group).1
        excluded := excluding review.excluded (told arithmetic group) } := by
  unfold Review.add told excluding
  cases judge group with
  | held case => simp [Verdict.view, Verdict.record?, Verdict.case?, Verdict.dropped, Verdict.reason?]
  | excluded reason => simp [Verdict.view, Verdict.record?, Verdict.case?, Verdict.dropped, Verdict.reason?]
  | selected record => simp [Verdict.view, Verdict.record?, Verdict.case?, Verdict.dropped, Verdict.reason?]

theorem foldl_add (arithmetic : Arithmetic) (groups : List (List Doc)) (review : Review) :
    groups.foldl Review.add review =
      { selected := review.selected ++ groups.filterMap fun g => (judge g).record?
        held := review.held ++ (groups.map (told arithmetic)).filterMap fun t => Verdict.case? t.1
        duplicates := review.duplicates + ((groups.map (told arithmetic)).map fun t => Verdict.dropped t.2 t.1).sum
        excluded := (groups.map (told arithmetic)).foldl excluding review.excluded } := by
  induction groups generalizing review with
  | nil => simp
  | cons g groups ih =>
    rw [List.foldl_cons, ih, add_eq arithmetic]
    simp only [List.map_cons, List.filterMap_cons, List.sum_cons, List.foldl_cons, Review.mk.injEq]
    refine ⟨?_, ?_, Nat.add_assoc _ _ _, trivial⟩
    · cases (judge g).record? <;> simp
    · cases Verdict.case? (told arithmetic g).1 <;> simp

theorem keys_selected (arithmetic : Arithmetic) (groups : List (List Doc)) :
    (groups.filterMap fun g => (judge g).record?).map (keyOf arithmetic) =
      (groups.map (told arithmetic)).filterMap fun t => Verdict.key? t.1 := by
  rw [List.map_filterMap, List.filterMap_map]
  refine List.filterMap_congr fun g _ => ?_
  unfold told
  cases h : judge g <;> simp [h, Verdict.view, Verdict.record?, Verdict.key?]

theorem getD_excluding (reason : String) (races : List ((HeldCase ⊕ String ⊕ Key) × ℕ)) (counts : Dict ℕ) :
    Dict.getD (races.foldl excluding counts) reason 0 = Dict.getD counts reason 0 + (races.map (excludedFor reason)).sum := by
  induction races generalizing counts with
  | nil => rfl
  | cons t races ih =>
    rw [List.foldl_cons, ih, List.map_cons, List.sum_cons]
    unfold excluding excludedFor
    cases ht : Verdict.reason? t.1 with
    | none => simp
    | some r =>
      simp only [Tally.getD_add, Option.some.injEq]
      omega

/-- Every record of a race is that selected, dropped or excluded. -/
theorem total_excluding {races : List ((HeldCase ⊕ String ⊕ Key) × ℕ)} (h : ∀ t ∈ races, 0 < t.2) (counts : Dict ℕ) :
    Tally.total (races.foldl excluding counts) + (races.filterMap fun t => Verdict.key? t.1).length +
        (races.map fun t => Verdict.dropped t.2 t.1).sum = Tally.total counts + (races.map Prod.snd).sum := by
  induction races generalizing counts with
  | nil => rfl
  | cons t races ih =>
    rw [List.forall_mem_cons] at h
    have htail := ih h.2 (excluding counts t)
    rw [List.foldl_cons, List.map_cons, List.map_cons, List.sum_cons, List.sum_cons]
    obtain ⟨verdict, n⟩ := t
    have hn : 0 < n := h.1
    rcases verdict with case | reason | key
    · have hexcluding : excluding counts (.inl case, n) = Tally.add counts "nonstandard_race_requires_review" n := rfl
      have hdropped : Verdict.dropped n (.inl case) = 0 := rfl
      rw [hexcluding, Tally.total_add] at htail
      rw [List.filterMap_cons_none rfl, hexcluding, hdropped]
      omega
    · have hexcluding : excluding counts (.inr (.inl reason), n) = Tally.add counts reason n := rfl
      have hdropped : Verdict.dropped n (.inr (.inl reason)) = 0 := rfl
      rw [hexcluding, Tally.total_add] at htail
      rw [List.filterMap_cons_none rfl, hexcluding, hdropped]
      omega
    · have hexcluding : excluding counts (.inr (.inr key), n) = counts := rfl
      have hdropped : Verdict.dropped n (.inr (.inr key)) = n - 1 := rfl
      have hkeys : (((.inr (.inr key), n) :: races).filterMap fun t : (HeldCase ⊕ String ⊕ Key) × ℕ => Verdict.key? t.1) =
          key :: races.filterMap fun t => Verdict.key? t.1 := List.filterMap_cons_some rfl
      rw [hexcluding] at htail
      rw [hkeys, List.length_cons, hexcluding, hdropped]
      omega

/-! ## A settled snapshot -/

section Settled

variable {dateError : String → String} {snapshot settlement record : Doc} {status : String}

theorem demand_ok {condition : Bool} {message : String} {u : Unit} : demand condition message = .ok u ↔ condition = true := by
  unfold demand
  rw [raiseIf_ok, Bool.not_eq_false]

/-- The mapping without a key is finite, and so is the value of the key: the mapping is. -/
theorem finite_of_without {v : Doc} (hv : v.keysOnce = true) (hmapping : OfflinePreview.isMapping v = true) {name : String}
    (h : (without name v).finite = true) (hname : (v.field name).finite = true) : v.finite = true := by
  cases v with
  | obj fs =>
    have hkeys := (Doc.keysOnce_obj.1 hv).1
    unfold without at h
    rw [Doc.finite_obj, List.all_eq_true] at h ⊢
    intro f hf
    by_cases hk : f.1 = name
    · have hget : Dict.get? name fs = some f.2 := Dict.get?_of_mem hkeys (hk ▸ hf)
      have hfield : Doc.field (.obj fs) name = f.2 := by simp [Doc.field, Json.get?, hget]
      rw [← hfield]
      exact hname
    · exact h f (List.mem_filter.2 ⟨hf, decide_eq_true hk⟩)
  | _ => cases hmapping

theorem finite_of_validateSnapshot (hkeys : snapshot.keysOnce = true) (h : validateSnapshot dateError snapshot = .ok ()) :
    snapshot.finite = true ∧ ∃ key, snapshot.field "race_id" = .str key := by
  unfold validateSnapshot at h
  obtain ⟨hmapping, h⟩ := demand_bind_ok.1 h
  rw [Bool.and_eq_true] at hmapping
  obtain ⟨_, -, h⟩ := bind_ok.1 h
  obtain ⟨-, h⟩ := demand_bind_ok.1 h
  obtain ⟨sha, hsha, h⟩ := bind_ok.1 h
  obtain ⟨hdigest, h⟩ := demand_bind_ok.1 h
  obtain ⟨_, -, h⟩ := bind_ok.1 h
  obtain ⟨-, h⟩ := demand_bind_ok.1 h
  obtain ⟨scope, -, h⟩ := bind_ok.1 h
  obtain ⟨-, h⟩ := demand_bind_ok.1 h
  obtain ⟨-, h⟩ := demand_bind_ok.1 h
  obtain ⟨trained, -, h⟩ := bind_ok.1 h
  obtain ⟨generated, -, h⟩ := bind_ok.1 h
  obtain ⟨captured, -, h⟩ := bind_ok.1 h
  obtain ⟨scheduled, -, h⟩ := bind_ok.1 h
  obtain ⟨-, h⟩ := demand_bind_ok.1 h
  obtain ⟨key, -, h⟩ := bind_ok.1 h
  obtain ⟨hkey, -⟩ := demand_bind_ok.1 h
  have hfield := of_decide_eq_true hdigest
  refine ⟨finite_of_without hkeys hmapping.1 (finite_of_digest hsha) ?_, key, of_decide_eq_true hkey⟩
  rw [hfield]
  rfl

theorem finite_of_iso {v : Doc} {name : String} {dt : Datetime} (h : iso v name = .ok dt) : v.finite = true := by
  unfold iso at h
  obtain ⟨text, htext, -⟩ := require_bind_ok.1 h
  obtain ⟨htext, -⟩ := Option.filter_eq_some_iff.1 htext
  cases v with
  | str s => rfl
  | _ => cases htext

theorem finite_of_isPositive {v : Doc} (h : CategorySelection.isPositive v = .ok true) : v.finite = true := by
  obtain ⟨q, hq, -⟩ := CategorySelection.isPositive_ok h
  cases v with
  | num n => cases n <;> first | rfl | cases hq
  | _ => cases hq

theorem finite_of_isWithdrawal {count : ℤ} {v : Doc} (h : isWithdrawal count v = true) : v.finite = true := by
  unfold isWithdrawal at h
  cases v with
  | arr xs =>
    simp only [Doc.elements?, Bool.and_eq_true, List.all_eq_true] at h
    rw [Doc.finite_arr, List.all_eq_true]
    intro x hx
    obtain ⟨n, hn, -⟩ := (Option.any_eq_true _ _).1 (h.1.2 x hx)
    cases x with
    | num m => cases m <;> first | rfl | cases hn
    | _ => cases hn
  | _ => cases h

/-- What a settled snapshot is. -/
structure Settled (dateError : String → String) (status : String) (snapshot settlement : Doc) : Prop where
  valid : validateSnapshot dateError snapshot = .ok ()
  race : settlement.field "race_id" = snapshot.field "race_id"
  said : Doc.text? ((settlement.get? "result_status").getD (.str "normal")) = some status
  known : status ∈ "normal" :: HELD_STATUSES
  fields : hasFields settlement (settlementFields status settlement) = true
  time : (settlement.field "result_timestamp").finite = true
  outcome : status = "normal" → (settlement.field "outcome_combo").finite = true ∧ (settlement.field "settlement_odds").finite = true ∧
    ((settlement.field "outcome_combo").text?.any (· ∈ CategorySelection.combosOf
      (((snapshot.field "prediction").field "trifecta_scores").elements?.getD []))) = true
  withdrawn : status = "withdrawn" → (settlement.field "withdrawn_car_numbers").finite = true

theorem settled_of_settle (h : settleSnapshot dateError snapshot settlement = .ok record) :
    ∃ status, Settled dateError status snapshot settlement ∧ record = recordOf status snapshot settlement := by
  unfold settleSnapshot at h
  obtain ⟨u, hvalid, h⟩ := bind_ok.1 h
  obtain ⟨hrace, h⟩ := demand_bind_ok.1 h
  obtain ⟨status, hstatus, h⟩ := require_bind_ok.1 h
  obtain ⟨hfields, h⟩ := demand_bind_ok.1 h
  obtain ⟨resultTime, hresult, h⟩ := bind_ok.1 h
  obtain ⟨captured, -, h⟩ := bind_ok.1 h
  obtain ⟨-, h⟩ := demand_bind_ok.1 h
  obtain ⟨scheduled, -, h⟩ := bind_ok.1 h
  obtain ⟨-, h⟩ := demand_bind_ok.1 h
  obtain ⟨hstatus, hknown⟩ := Option.filter_eq_some_iff.1 hstatus
  rw [Bool.and_eq_true, decide_eq_true_eq] at hrace
  have hsettled : (status = "normal" → checkOutcome (snapshot.field "prediction") settlement = .ok ()) →
      (status = "withdrawn" → isWithdrawal ((((snapshot.field "prediction").field "input_quality").field "rider_count").int?.getD 0)
        (settlement.field "withdrawn_car_numbers") = true) → Settled dateError status snapshot settlement := by
    intro houtcome hwithdrawn
    refine ⟨hvalid, hrace.2, hstatus, of_decide_eq_true hknown, hfields, finite_of_iso hresult, fun hnormal => ?_, fun hw =>
      finite_of_isWithdrawal (hwithdrawn hw)⟩
    have hcheck := houtcome hnormal
    unfold checkOutcome at hcheck
    obtain ⟨hcombo, hcheck⟩ := demand_bind_ok.1 hcheck
    obtain ⟨positive, hpositive, hcheck⟩ := bind_ok.1 hcheck
    obtain ⟨combo, hs, -⟩ := (Option.any_eq_true _ _).1 hcombo
    refine ⟨?_, finite_of_isPositive (demand_ok.1 hcheck ▸ hpositive), hcombo⟩
    cases hv : settlement.field "outcome_combo" with
    | str s => rfl
    | _ =>
      rw [hv] at hs
      cases hs
  refine ⟨status, ?_⟩
  by_cases hnormal : status = "normal"
  · have hw : status ≠ "withdrawn" := by
      rw [hnormal]
      decide
    rw [if_pos hnormal] at h
    obtain ⟨_, hcheck, h⟩ := bind_ok.1 h
    rw [if_neg hw] at h
    exact ⟨hsettled (fun _ => hcheck) fun hno => absurd hno hw, (Except.ok.inj h).symm⟩
  · rw [if_neg hnormal] at h
    by_cases hw : status = "withdrawn"
    · rw [if_pos hw] at h
      obtain ⟨hcheck, h⟩ := demand_bind_ok.1 h
      exact ⟨hsettled (fun hno => absurd hno hnormal) fun _ => hcheck, (Except.ok.inj h).symm⟩
    · rw [if_neg hw] at h
      exact ⟨hsettled (fun hno => absurd hno hnormal) fun hno => absurd hno hw, (Except.ok.inj h).symm⟩

theorem Settled.finite (h : Settled dateError status snapshot settlement) (hsnapshot : snapshot.keysOnce = true)
    (hkeys : settlement.keysOnce = true) (hmapping : OfflinePreview.isMapping settlement = true) : settlement.finite = true := by
  cases settlement with
  | obj fs =>
    have hfinite := finite_of_validateSnapshot hsnapshot h.valid
    have hfields := h.fields
    unfold hasFields at hfields
    rw [Bool.and_eq_true, List.all_eq_true] at hfields
    have hfield : ∀ f ∈ fs, Doc.field (.obj fs) f.1 = f.2 := by
      intro f hf
      have hget : Dict.get? f.1 fs = some f.2 := Dict.get?_of_mem (Doc.keysOnce_obj.1 hkeys).1 hf
      simp [Doc.field, Json.get?, hget]
    have hstatus : (Doc.field (.obj fs) "result_status").finite = true := by
      have hsaid := h.said
      unfold Doc.field
      cases hv : Json.get? (.obj fs) "result_status" with
      | none => rfl
      | some v =>
        rw [hv] at hsaid
        cases v with
        | str s => rfl
        | _ => cases hsaid
    rw [Doc.finite_obj, List.all_eq_true]
    intro f hf
    rw [← hfield f hf]
    have hname := of_decide_eq_true (hfields.1 f hf)
    unfold settlementFields at hname
    rw [List.mem_append] at hname
    rcases hname with hname | hname
    · simp only [List.mem_cons, List.not_mem_nil, or_false] at hname
      rcases hname with hname | hname
      · rw [hname, h.race]
        exact Doc.finite_field hfinite.1 "race_id"
      · rw [hname]
        exact h.time
    · split_ifs at hname with hnormal hsaid hw
      · simp only [List.cons_append, List.nil_append, List.mem_cons, List.not_mem_nil, or_false] at hname
        rcases hname with hname | hname | hname
        · rw [hname]
          exact (h.outcome hnormal).1
        · rw [hname]
          exact (h.outcome hnormal).2.1
        · rw [hname]
          exact hstatus
      · simp only [List.append_nil, List.mem_cons, List.not_mem_nil, or_false] at hname
        rcases hname with hname | hname
        · rw [hname]
          exact (h.outcome hnormal).1
        · rw [hname]
          exact (h.outcome hnormal).2.1
      · simp only [List.mem_cons, List.not_mem_nil, or_false] at hname
        rcases hname with hname | hname
        · rw [hname]
          exact hstatus
        · rw [hname]
          exact h.withdrawn hw
      · simp only [List.mem_cons, List.not_mem_nil, or_false] at hname
        rw [hname]
        exact hstatus
  | _ => cases hmapping

/-- The fields of the record of a settled snapshot. -/
theorem recordOf_fields (status : String) (snapshot settlement : Doc) :
    (recordOf status snapshot settlement).field "snapshot" = snapshot ∧
      (recordOf status snapshot settlement).field "settlement" = settlement ∧
      (recordOf status snapshot settlement).field "race_id" = snapshot.field "race_id" ∧
      (recordOf status snapshot settlement).field "schema_version" = .str (if status = "normal" then HISTORY_SCHEMA else HELD_SCHEMA) :=
  ⟨rfl, rfl, rfl, rfl⟩

/-- The record of a settled snapshot is valid. -/
theorem validateHistory_of_settle (hsnapshot : snapshot.keysOnce = true) (hkeys : settlement.keysOnce = true)
    (h : settleSnapshot dateError snapshot settlement = .ok record) : validateHistory dateError record = .ok () := by
  have hmapping : OfflinePreview.isMapping settlement = true := by
    have hsettle := h
    unfold settleSnapshot at hsettle
    obtain ⟨_, -, hsettle⟩ := bind_ok.1 hsettle
    exact (Bool.and_eq_true _ _ ▸ (demand_bind_ok.1 hsettle).1).1
  obtain ⟨status, hsettled, rfl⟩ := settled_of_settle h
  obtain ⟨hs, hse, -, hschema⟩ := recordOf_fields status snapshot settlement
  have hfinite : (recordOf status snapshot settlement).finite = true := by
    have hsfinite := (finite_of_validateSnapshot hsnapshot hsettled.valid).1
    have hsettlement := hsettled.finite hsnapshot hkeys hmapping
    have hcaptured := Doc.finite_field hsfinite "captured_at"
    have hrace := Doc.finite_field hsfinite "race_id"
    have hsha := Doc.finite_field (Doc.finite_field (Doc.finite_field hsfinite "prediction") "model_artifact") "sha256"
    unfold recordOf
    rw [Doc.finite_obj]
    simp [SAFETY, hsfinite, hsettlement, hcaptured, hrace, hsha]
  have hcanonical : canonical (recordOf status snapshot settlement) = .ok ((recordOf status snapshot settlement).dumps Scalar.text) :=
    bind_ok.2 ⟨(), Doc.checkFinite_of_finite hfinite, rfl⟩
  unfold validateHistory
  refine demand_bind_ok.2 ⟨?_, bind_ok.2 ⟨_, ?_, bind_ok.2 ⟨_, hcanonical, bind_ok.2 ⟨_, hcanonical, demand_ok.2 (decide_eq_true rfl)⟩⟩⟩⟩
  · rw [Bool.and_eq_true]
    refine ⟨rfl, ?_⟩
    rw [hschema]
    split_ifs <;> rfl
  · rw [hs, hse]
    exact h

end Settled

end ModelHistory

end Keirin

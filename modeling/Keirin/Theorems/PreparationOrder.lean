import Keirin.EvaluationProtocol
import Keirin.Lemmas.PythonData
import Keirin.Lib.Grouped
import Keirin.Lib.Sorted
import Mathlib.Data.String.Basic

/-!
# The preparation does not depend on the order of the records

`evaluation_protocol.prepare` groups the records that may be evaluated by race and keeps the latest of each race, if all the latest
are one JSON document. What it selects, counts and drops is the same for every arrangement of the records, and every record is
selected, dropped as a duplicate or excluded.
-/

namespace Keirin.EvaluationProtocol

/-! ## Records one by one -/

section Collect

variable {check : Doc → Except PyError Item}

/-- The candidate a record gives. -/
def itemOf (check : Doc → Except PyError Item) (record : Doc) : Option Item := (check record).toOption

/-- The reason why a record gives none. -/
def reasonOf (check : Doc → Except PyError Item) (record : Doc) : Option String :=
  match check record with
  | .ok _ => none
  | .error exc => excludedReason exc

/-- A record that gives a candidate or is excluded; any other raises an exception that is not handled. -/
def Handled (check : Doc → Except PyError Item) (record : Doc) : Prop := (itemOf check record).isSome ∨ (reasonOf check record).isSome

/-- The candidates are grouped by race and the reasons are counted. -/
theorem collect_eq (excluded : Dict ℕ) (groups : Dict (List Item)) {records : List Doc} (h : ∀ r ∈ records, Handled check r) :
    collect check excluded groups records =
      .ok ((records.filterMap (reasonOf check)).foldl (fun d r => Tally.add d r 1) excluded,
        (records.filterMap (itemOf check)).foldl (Grouped.add Item.raceId) groups) := by
  induction records generalizing excluded groups with
  | nil => rfl
  | cons record records ih =>
    have htail := fun r hr => h r (List.mem_cons_of_mem _ hr)
    have hhead := h record List.mem_cons_self
    unfold collect
    cases hcheck : check record with
    | ok item =>
      have hitem : itemOf check record = some item := by simp [itemOf, hcheck, Except.toOption]
      have hreason : reasonOf check record = none := by simp [reasonOf, hcheck]
      rw [List.filterMap_cons_none hreason, List.filterMap_cons_some hitem, List.foldl_cons]
      exact ih _ _ htail
    | error exc =>
      have hitem : itemOf check record = none := by simp [itemOf, hcheck, Except.toOption]
      have hreason : reasonOf check record = excludedReason exc := by simp [reasonOf, hcheck]
      rw [Handled, hitem, hreason] at hhead
      obtain ⟨reason, hr⟩ := Option.isSome_iff_exists.1 (hhead.resolve_left (by simp))
      rw [List.filterMap_cons_none hitem, List.filterMap_cons_some (hreason.trans hr), List.foldl_cons]
      simp only [hr]
      exact ih _ _ htail

/-- Where the records are collected, each of them is handled. -/
theorem handled_of_collect {excluded : Dict ℕ} {groups : Dict (List Item)} {records : List Doc} {r : Dict ℕ × Dict (List Item)}
    (h : collect check excluded groups records = .ok r) : ∀ record ∈ records, Handled check record := by
  induction records generalizing excluded groups with
  | nil => exact nofun
  | cons record records ih =>
    unfold collect at h
    intro record' hr
    cases hcheck : check record with
    | ok item =>
      rw [hcheck] at h
      rcases List.mem_cons.1 hr with rfl | hr
      · exact .inl (by simp [itemOf, hcheck, Except.toOption])
      · exact ih h record' hr
    | error exc =>
      simp only [hcheck] at h
      split at h
      · rename_i reason hreason
        rcases List.mem_cons.1 hr with rfl | hr
        · exact .inr (by simp [reasonOf, hcheck, hreason])
        · exact ih h record' hr
      · nomatch h

/-- A handled record gives a candidate or a reason, not both. -/
theorem length_handled {records : List Doc} (h : ∀ r ∈ records, Handled check r) :
    records.length = (records.filterMap (itemOf check)).length + (records.filterMap (reasonOf check)).length := by
  induction records with
  | nil => rfl
  | cons record records ih =>
    have htail := ih fun r hr => h r (List.mem_cons_of_mem _ hr)
    have hhead := h record List.mem_cons_self
    cases hcheck : check record with
    | ok item =>
      have hitem : itemOf check record = some item := by simp [itemOf, hcheck, Except.toOption]
      have hreason : reasonOf check record = none := by simp [reasonOf, hcheck]
      rw [List.filterMap_cons_none hreason, List.filterMap_cons_some hitem, List.length_cons, List.length_cons]
      omega
    | error exc =>
      have hitem : itemOf check record = none := by simp [itemOf, hcheck, Except.toOption]
      rw [Handled, hitem] at hhead
      obtain ⟨reason, hr⟩ := Option.isSome_iff_exists.1 (hhead.resolve_left (by simp))
      rw [List.filterMap_cons_none hitem, List.filterMap_cons_some hr, List.length_cons, List.length_cons]
      omega

end Collect

/-! ## The races -/

/-- The text that stands for a record. -/
def textOf (record : Doc) : List Char := Doc.ascii (record.sortKeys.spaced [' '] Scalar.dumpText)

/-- The candidate that stands for a race, or the reason why none does. -/
def verdict (group : List Item) : Item ⊕ String :=
  match choose group with
  | .ok v => v
  | .error _ => .inr ""

/-- The candidates of a race whose records have a text. -/
structure Race (group : List Item) : Prop where
  nonempty : group ≠ []
  encodable : ∀ item ∈ group, item.record.encodable = true

theorem mem_latestOf {group : List Item} {item : Item} :
    item ∈ latestOf group ↔ item ∈ group ∧ ∀ other ∈ group, other.predictionTime ≤ item.predictionTime := by
  unfold latestOf
  rw [List.mem_filter, decide_eq_true_eq]

theorem latestOf_ne_nil {group : List Item} (h : group ≠ []) : latestOf group ≠ [] := by
  obtain ⟨m, hm⟩ : ∃ m, group.argmax Item.predictionTime = some m := by
    rw [← Option.isSome_iff_exists, Option.isSome_iff_ne_none]
    exact fun hnone => h (List.argmax_eq_none.1 hnone)
  exact List.ne_nil_of_mem (mem_latestOf.2 ⟨List.argmax_mem hm, fun other hother => List.le_of_mem_argmax hother hm⟩)

theorem mapM_recordText {items : List Item} (h : ∀ item ∈ items, item.record.encodable = true) :
    (items.mapM fun item => recordText item.record) = .ok (items.map fun item => textOf item.record) := by
  rw [mapM_ok_iff, List.forall₂_map_right_iff, List.forall₂_same]
  intro item hitem
  unfold recordText
  rw [if_pos (h item hitem)]
  rfl

/-- What is chosen for a race: nothing where the outcomes differ or the latest records do. -/
theorem choose_eq {group : List Item} (h : Race group) : ∃ item rest, latestOf group = item :: rest ∧
    choose group = .ok (
      if ((group.map fun item => item.record.field "outcome_combo").dedup).length ≠ 1 then .inr "conflicting_outcomes"
      else if (((latestOf group).map fun item => textOf item.record).dedup).length = 1 then .inl item
      else .inr "conflicting_latest_snapshots") := by
  obtain ⟨item, rest, hlatest⟩ := List.exists_cons_of_ne_nil (latestOf_ne_nil h.nonempty)
  refine ⟨item, rest, hlatest, ?_⟩
  have htexts := mapM_recordText fun i hi => h.encodable i (mem_latestOf.1 hi).1
  unfold choose
  split_ifs with houtcomes htext
  · rfl
  · rw [htexts]
    simp only [bind, Except.bind, pure, Except.pure]
    rw [hlatest] at htext ⊢
    simp only [htext, if_true]
  · rw [htexts]
    simp only [bind, Except.bind, pure, Except.pure]
    rw [hlatest] at htext ⊢
    simp only [htext, if_false]

theorem choose_verdict {group : List Item} (h : Race group) : choose group = .ok (verdict group) := by
  obtain ⟨item, rest, -, hchoose⟩ := choose_eq h
  unfold verdict
  rw [hchoose]

/-- What is told of a selected candidate: its time, its race and the text of its record. -/
abbrev Key := ℚ × String × List Char

def Item.key (item : Item) : Key := (item.predictionTime, item.raceId, textOf item.record)

/-- A rearranged race has the same verdict. -/
theorem verdict_perm {g g' : List Item} (h : Race g) (hperm : g.Perm g') {race : String} (hrace : ∀ item ∈ g, item.raceId = race) :
    (verdict g).map Item.key id = (verdict g').map Item.key id := by
  have h' : Race g' := ⟨fun hnil => h.nonempty (hnil ▸ hperm).eq_nil, fun item hi => h.encodable item (hperm.mem_iff.2 hi)⟩
  have hlatest : (latestOf g).Perm (latestOf g') := by
    have hpred : (fun item : Item => decide (∀ other ∈ g, other.predictionTime ≤ item.predictionTime)) =
        fun item => decide (∀ other ∈ g', other.predictionTime ≤ item.predictionTime) := by
      funext item
      exact decide_eq_decide.2 (forall_congr' fun other => by rw [hperm.mem_iff])
    unfold latestOf
    rw [hpred]
    exact hperm.filter _
  have houtcomes : ((g.map fun item => item.record.field "outcome_combo").dedup).length =
      ((g'.map fun item => item.record.field "outcome_combo").dedup).length := ((hperm.map _).dedup).length_eq
  have htexts : (((latestOf g).map fun item => textOf item.record).dedup).length =
      (((latestOf g').map fun item => textOf item.record).dedup).length := ((hlatest.map _).dedup).length_eq
  obtain ⟨item, rest, heq, hchoose⟩ := choose_eq h
  obtain ⟨item', rest', heq', hchoose'⟩ := choose_eq h'
  unfold verdict
  rw [hchoose, hchoose', houtcomes, htexts]
  simp only []
  split_ifs with ho ht
  · rfl
  · have hitem : item ∈ latestOf g := heq ▸ List.mem_cons_self
    have hitem' : item' ∈ latestOf g := hlatest.mem_iff.2 (heq' ▸ List.mem_cons_self)
    have htime : item.predictionTime = item'.predictionTime :=
      le_antisymm ((mem_latestOf.1 hitem').2 item (mem_latestOf.1 hitem).1) ((mem_latestOf.1 hitem).2 item' (mem_latestOf.1 hitem').1)
    have hid : item.raceId = item'.raceId := by
      rw [hrace item (mem_latestOf.1 hitem).1, hrace item' (mem_latestOf.1 hitem').1]
    have htext : textOf item.record = textOf item'.record := by
      rw [← htexts, List.length_eq_one_iff] at ht
      obtain ⟨t, ht⟩ := ht
      have hmem : ∀ i ∈ latestOf g, textOf i.record = t := by
        intro i hi
        have : textOf i.record ∈ ((latestOf g).map fun item => textOf item.record).dedup :=
          List.mem_dedup.2 (List.mem_map_of_mem hi)
        rw [ht, List.mem_singleton] at this
        exact this
      rw [hmem item hitem, hmem item' hitem']
    simp only [Sum.map_inl, Item.key, htime, hid, htext]
  · rfl

/-- The candidates dropped for the one selected. -/
def dropped (group : List Item) : ℕ :=
  match verdict group with
  | .inl _ => group.length - 1
  | .inr _ => 0

/-- The candidates of a race excluded for a reason. -/
def refused (reason : String) (group : List Item) : ℕ :=
  match verdict group with
  | .inl _ => 0
  | .inr r => if r = reason then group.length else 0

/-- Count the candidates of a race where it is refused. -/
def refuse (excluded : Dict ℕ) (group : List Item) : Dict ℕ :=
  match verdict group with
  | .inl _ => excluded
  | .inr reason => Tally.add excluded reason group.length

theorem selectAll_eq (excluded : Dict ℕ) {groups : List (List Item)} (h : ∀ g ∈ groups, Race g) :
    selectAll excluded groups = .ok (groups.filterMap (fun g => (verdict g).getLeft?), groups.foldl refuse excluded,
      (groups.map dropped).sum) := by
  induction groups generalizing excluded with
  | nil => rfl
  | cons g groups ih =>
    have htail := fun excluded => ih excluded fun g hg => h g (List.mem_cons_of_mem _ hg)
    unfold selectAll
    rw [choose_verdict (h g List.mem_cons_self), List.foldl_cons, List.map_cons, List.sum_cons, List.filterMap_cons]
    cases hv : verdict g with
    | inl item =>
      have hrefuse : refuse excluded g = excluded := by simp [refuse, hv]
      have hdropped : dropped g = g.length - 1 := by simp [dropped, hv]
      simp only [bind, Except.bind, pure, Except.pure]
      rw [htail, hrefuse, hdropped, Nat.add_comm]
      rfl
    | inr reason =>
      have hrefuse : refuse excluded g = exclude excluded reason g.length := by
        simp only [refuse, hv]
        rfl
      have hdropped : dropped g = 0 := by simp [dropped, hv]
      simp only [bind, Except.bind]
      rw [htail, hrefuse, hdropped, Nat.zero_add]
      rfl

theorem getD_refuse (reason : String) (groups : List (List Item)) (excluded : Dict ℕ) :
    Dict.getD (groups.foldl refuse excluded) reason 0 = Dict.getD excluded reason 0 + (groups.map (refused reason)).sum := by
  induction groups generalizing excluded with
  | nil => rfl
  | cons g groups ih =>
    rw [List.foldl_cons, ih, List.map_cons, List.sum_cons]
    cases hv : verdict g with
    | inl item =>
      simp only [refuse, refused, hv]
      omega
    | inr r =>
      simp only [refuse, refused, hv]
      rw [Tally.getD_add]
      omega

/-- Every candidate of a race is selected, dropped or excluded. -/
theorem total_refuse {groups : List (List Item)} (h : ∀ g ∈ groups, g ≠ []) (excluded : Dict ℕ) :
    Tally.total (groups.foldl refuse excluded) + (groups.filterMap (fun g => (verdict g).getLeft?)).length +
      (groups.map dropped).sum = Tally.total excluded + (groups.map List.length).sum := by
  induction groups generalizing excluded with
  | nil => rfl
  | cons g groups ih =>
    have htail := ih fun g hg => h g (List.mem_cons_of_mem _ hg)
    have hlen : 0 < g.length := List.length_pos_iff.2 (h g List.mem_cons_self)
    rw [List.foldl_cons, List.filterMap_cons, List.map_cons, List.map_cons, List.sum_cons, List.sum_cons]
    cases hv : verdict g with
    | inl item =>
      have hrefuse : refuse excluded g = excluded := by simp [refuse, hv]
      have hdropped : dropped g = g.length - 1 := by simp [dropped, hv]
      rw [hrefuse, hdropped]
      simp only [Sum.getLeft?_inl, List.length_cons]
      have := htail excluded
      omega
    | inr reason =>
      have hrefuse : refuse excluded g = Tally.add excluded reason g.length := by simp [refuse, hv]
      have hdropped : dropped g = 0 := by simp [dropped, hv]
      rw [hrefuse, hdropped]
      simp only [Sum.getLeft?_inr]
      have := htail (Tally.add excluded reason g.length)
      rw [Tally.total_add] at this
      omega

/-! ## The whole -/

section Prepare

variable {repr : Doc → String} {synthetic : Bool} {records : List Doc}

/-- The candidate of a record holds it. -/
theorem candidate_record {record : Doc} {item : Item} (h : candidate repr synthetic record = .ok item) : item.record = record := by
  unfold candidate at h
  obtain ⟨reason, -, h⟩ := bind_ok.1 h
  cases reason with
  | some reason => nomatch h
  | none =>
    obtain ⟨source, -, h⟩ := bind_ok.1 h
    obtain ⟨-, h⟩ := raiseIf_bind_ok.1 h
    obtain ⟨-, h⟩ := raiseIf_bind_ok.1 h
    obtain ⟨predictionTime, -, h⟩ := bind_ok.1 h
    obtain ⟨resultTime, -, h⟩ := bind_ok.1 h
    obtain ⟨captured, -, h⟩ := bind_ok.1 h
    obtain ⟨-, h⟩ := raiseIf_bind_ok.1 h
    obtain ⟨players, -, h⟩ := bind_ok.1 h
    obtain ⟨rawCars, -, h⟩ := bind_ok.1 h
    obtain ⟨-, h⟩ := raiseIf_bind_ok.1 h
    obtain ⟨rows, -, h⟩ := bind_ok.1 h
    obtain ⟨-, h⟩ := raiseIf_bind_ok.1 h
    obtain ⟨_, -, h⟩ := bind_ok.1 h
    obtain ⟨-, h⟩ := raiseIf_bind_ok.1 h
    obtain ⟨baseline, -, h⟩ := bind_ok.1 h
    obtain ⟨-, h⟩ := raiseIf_bind_ok.1 h
    exact congrArg Item.record (Except.ok.inj h).symm

/-- The candidates of the records. -/
def itemsOf (repr : Doc → String) (synthetic : Bool) (records : List Doc) : List Item :=
  records.filterMap (itemOf (candidate repr synthetic))

/-- The candidates by race. -/
def races (repr : Doc → String) (synthetic : Bool) (records : List Doc) : List (List Item) :=
  (Grouped.group Item.raceId (itemsOf repr synthetic records)).map Prod.snd

theorem encodable_itemsOf (hjson : ∀ r ∈ records, r.encodable = true) :
    ∀ item ∈ itemsOf repr synthetic records, item.record.encodable = true := by
  intro item hitem
  obtain ⟨record, hrecord, h⟩ := List.mem_filterMap.1 hitem
  unfold itemOf at h
  cases hc : candidate repr synthetic record with
  | error e =>
    rw [hc] at h
    nomatch h
  | ok i =>
    rw [hc] at h
    cases h
    rw [candidate_record hc]
    exact hjson record hrecord

theorem race_of_mem (hjson : ∀ r ∈ records, r.encodable = true) {g : List Item} (hg : g ∈ races repr synthetic records) : Race g := by
  refine ⟨Grouped.ne_nil_of_mem hg, fun item hitem => ?_⟩
  obtain ⟨k, rfl⟩ := Grouped.mem_of_mem_group hg
  exact encodable_itemsOf hjson item (List.mem_of_mem_filter hitem)

/-- The chosen candidates, before they are sorted. -/
def chosen (repr : Doc → String) (synthetic : Bool) (records : List Doc) : List Item :=
  (races repr synthetic records).filterMap fun g => (verdict g).getLeft?

/-- The counters of the reasons. -/
def reasons (repr : Doc → String) (synthetic : Bool) (records : List Doc) : Dict ℕ :=
  (races repr synthetic records).foldl refuse
    ((records.filterMap (reasonOf (candidate repr synthetic))).foldl (fun d r => Tally.add d r 1) [])

/-- What the preparation gives where it returns. -/
structure Prepared (repr : Doc → String) (synthetic : Bool) (records : List Doc) (selected : List Item) (quality : Quality) : Prop where
  sorted : selected = (chosen repr synthetic records).insertionSort earlier
  input : quality.inputRecords = records.length
  eligible : quality.eligibleUniqueRaces = selected.length
  excluded : quality.excluded = reasons repr synthetic records
  duplicates : quality.duplicateSnapshotsRemoved = ((races repr synthetic records).map dropped).sum

theorem prepare_eq (hjson : ∀ r ∈ records, r.encodable = true) (h : ∀ r ∈ records, Handled (candidate repr synthetic) r) :
    ∃ selected quality, prepare repr synthetic records = .ok (selected, quality) ∧
      Prepared repr synthetic records selected quality := by
  have hselect : selectAll ((records.filterMap (reasonOf (candidate repr synthetic))).foldl (fun d r => Tally.add d r 1) [])
      (((records.filterMap (itemOf (candidate repr synthetic))).foldl (Grouped.add Item.raceId) []).map Prod.snd) =
      .ok (chosen repr synthetic records, reasons repr synthetic records, ((races repr synthetic records).map dropped).sum) :=
    selectAll_eq _ fun g hg => race_of_mem hjson hg
  unfold prepare
  rw [collect_eq [] [] h]
  simp only [bind, Except.bind]
  rw [hselect]
  exact ⟨_, _, rfl, rfl, rfl, rfl, rfl, rfl⟩

theorem prepared_of_ok (hjson : ∀ r ∈ records, r.encodable = true) {selected : List Item} {quality : Quality}
    (h : prepare repr synthetic records = .ok (selected, quality)) :
    (∀ r ∈ records, Handled (candidate repr synthetic) r) ∧ Prepared repr synthetic records selected quality := by
  have hcollect := h
  unfold prepare at hcollect
  obtain ⟨r, hr, -⟩ := bind_ok.1 hcollect
  have hhandled := handled_of_collect hr
  obtain ⟨selected', quality', hok, hprepared⟩ := prepare_eq hjson hhandled
  cases Except.ok.inj (h.symm.trans hok)
  exact ⟨hhandled, hprepared⟩

/-- The order of the selected candidates, by what is told of them. -/
def keyEarlier (a b : Key) : Prop := a.1 < b.1 ∨ (a.1 = b.1 ∧ a.2.1 ≤ b.2.1)

instance : DecidableRel keyEarlier := fun a b => inferInstanceAs (Decidable (a.1 < b.1 ∨ (a.1 = b.1 ∧ a.2.1 ≤ b.2.1)))

instance : Std.Total keyEarlier := inferInstanceAs (Std.Total (Sorted.Lex (fun k : Key => k.1) fun k => k.2.1))

instance : IsTrans Key keyEarlier := inferInstanceAs (IsTrans Key (Sorted.Lex (fun k : Key => k.1) fun k => k.2.1))

/-- What is told of the chosen candidates, race by race. -/
theorem chosen_keys : (chosen repr synthetic records).map Item.key =
    ((races repr synthetic records).map fun g => (verdict g).map Item.key id).filterMap Sum.getLeft? := by
  unfold chosen
  rw [List.map_filterMap, List.filterMap_map]
  refine congrArg (fun f => List.filterMap f (races repr synthetic records)) (funext fun g => ?_)
  cases hv : verdict g <;> simp [hv]

/-- A candidate that is chosen is one of the candidates of its race. -/
theorem mem_of_verdict {g : List Item} (h : Race g) {item : Item} (hv : verdict g = .inl item) : item ∈ g := by
  obtain ⟨first, rest, hlatest, hchoose⟩ := choose_eq h
  unfold verdict at hv
  rw [hchoose] at hv
  simp only [] at hv
  split_ifs at hv
  cases hv
  exact (mem_latestOf.1 (hlatest ▸ List.mem_cons_self)).1

/-- The chosen candidates are of different races. -/
theorem nodup_chosen (hjson : ∀ r ∈ records, r.encodable = true) :
    ((chosen repr synthetic records).map Item.raceId).Nodup := by
  have hid : ∀ k ∈ (Grouped.group Item.raceId (itemsOf repr synthetic records)).map Prod.fst,
      ((verdict ((itemsOf repr synthetic records).filter fun i => i.raceId = k)).getLeft?).map Item.raceId =
        Option.guard (fun k => (verdict ((itemsOf repr synthetic records).filter fun i => i.raceId = k)).isLeft) k := by
    intro k hk
    have hrace : Race ((itemsOf repr synthetic records).filter fun i => i.raceId = k) := by
      have hmem : ((itemsOf repr synthetic records).filter fun i => i.raceId = k) ∈ races repr synthetic records := by
        unfold races
        rw [Grouped.values_group]
        exact List.mem_map_of_mem hk
      exact race_of_mem hjson hmem
    cases hv : verdict ((itemsOf repr synthetic records).filter fun i => i.raceId = k) with
    | inl item =>
      have hitem := List.mem_filter.1 (mem_of_verdict hrace hv)
      simp only [Sum.getLeft?_inl, Option.map_some, Option.guard, hv, Sum.isLeft_inl, if_true, Option.some.injEq]
      exact of_decide_eq_true hitem.2
    | inr reason => simp [Option.guard, hv]
  unfold chosen races
  rw [Grouped.values_group, List.filterMap_map, List.map_filterMap]
  have hfilter : (((Grouped.group Item.raceId (itemsOf repr synthetic records)).map Prod.fst).filterMap fun k =>
      ((verdict ((itemsOf repr synthetic records).filter fun i => i.raceId = k)).getLeft?).map Item.raceId) =
      ((Grouped.group Item.raceId (itemsOf repr synthetic records)).map Prod.fst).filter fun k =>
        (verdict ((itemsOf repr synthetic records).filter fun i => i.raceId = k)).isLeft := by
    rw [List.filterMap_congr hid, List.filterMap_eq_filter]
  exact hfilter ▸ (Grouped.nodup_keys _).filter _

/-! ## Rearranged records -/

section Rearranged

variable {records' : List Doc}

theorem itemsOf_perm (hperm : records.Perm records') : (itemsOf repr synthetic records).Perm (itemsOf repr synthetic records') :=
  hperm.filterMap _

/-- The verdicts on the races are those on the rearranged races. -/
theorem verdict_group (hjson : ∀ r ∈ records, r.encodable = true) (hperm : records.Perm records') (k : String) :
    (verdict ((itemsOf repr synthetic records).filter fun i => i.raceId = k)).map Item.key id =
      (verdict ((itemsOf repr synthetic records').filter fun i => i.raceId = k)).map Item.key id := by
  have hfilter : ((itemsOf repr synthetic records).filter fun i => i.raceId = k).Perm
      ((itemsOf repr synthetic records').filter fun i => i.raceId = k) := (itemsOf_perm hperm).filter _
  by_cases hnil : ((itemsOf repr synthetic records).filter fun i => i.raceId = k) = []
  · rw [hnil] at hfilter ⊢
    rw [hfilter.nil_eq]
  · have hrace : ∀ item ∈ (itemsOf repr synthetic records).filter fun i => i.raceId = k, item.raceId = k := fun item hitem =>
      of_decide_eq_true (List.mem_filter.1 hitem).2
    exact verdict_perm ⟨hnil, fun item hitem => encodable_itemsOf hjson item (List.mem_of_mem_filter hitem)⟩ hfilter hrace

/-- What depends on a race by its verdict and its size only is the same of the rearranged races. -/
theorem races_perm (hjson : ∀ r ∈ records, r.encodable = true) (hperm : records.Perm records') {β : Type}
    {f : List Item → β} (v : Key ⊕ String → ℕ → β) (hf : ∀ g, f g = v ((verdict g).map Item.key id) g.length) :
    ((races repr synthetic records).map f).Perm ((races repr synthetic records').map f) := by
  refine Grouped.map_values_perm (itemsOf_perm hperm) fun k => ?_
  rw [hf, hf, verdict_group hjson hperm k, ((itemsOf_perm hperm).filter _).length_eq]

theorem dropped_perm (hjson : ∀ r ∈ records, r.encodable = true) (hperm : records.Perm records') :
    ((races repr synthetic records').map dropped).sum = ((races repr synthetic records).map dropped).sum := by
  refine ((races_perm hjson hperm (fun v n => match v with
    | .inl _ => n - 1
    | .inr _ => 0) fun g => ?_).sum_eq).symm
  unfold dropped
  cases verdict g <;> rfl

/-- The counts of rearranged records. -/
theorem reasons_perm (hjson : ∀ r ∈ records, r.encodable = true) (hperm : records.Perm records') (reason : String) :
    Dict.getD (reasons repr synthetic records') reason 0 = Dict.getD (reasons repr synthetic records) reason 0 := by
  have hrefused : ((races repr synthetic records').map (refused reason)).sum = ((races repr synthetic records).map (refused reason)).sum := by
    refine ((races_perm hjson hperm (fun v n => match v with
      | .inl _ => 0
      | .inr r => if r = reason then n else 0) fun g => ?_).sum_eq).symm
    unfold refused
    cases verdict g <;> rfl
  unfold reasons
  rw [getD_refuse, getD_refuse, Tally.getD_count, Tally.getD_count, hrefused, (hperm.filterMap _).count_eq]

/-- The selection of rearranged records. -/
theorem sorted_perm (hjson : ∀ r ∈ records, r.encodable = true) (hperm : records.Perm records') :
    ((chosen repr synthetic records').insertionSort earlier).map Item.key =
      ((chosen repr synthetic records).insertionSort earlier).map Item.key := by
  have hkeys : ((chosen repr synthetic records).map Item.key).Perm ((chosen repr synthetic records').map Item.key) := by
    rw [chosen_keys, chosen_keys]
    exact (races_perm hjson hperm (fun v _ => v) fun g => rfl).filterMap _
  have hnodup : (((chosen repr synthetic records).map Item.key).map fun k => k.2.1).Nodup := by
    rw [List.map_map]
    exact nodup_chosen hjson
  rw [List.map_insertionSort (s := keyEarlier) (r := earlier) Item.key _ fun a _ b _ => Iff.rfl,
    List.map_insertionSort (s := keyEarlier) (r := earlier) Item.key _ fun a _ b _ => Iff.rfl]
  exact (Sorted.sort_perm hkeys (Sorted.lex_antisymm hnodup)).symm

end Rearranged

end Prepare

end Keirin.EvaluationProtocol

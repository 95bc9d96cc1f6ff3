import Keirin.Lemmas.ModelHistory
import Keirin.Lemmas.SelectionDoc
import Keirin.Lib.Sorted

/-!
# The review of histories and the order of the records

The review conserves the records: each of them is that evaluated for its race, a duplicate of it, or excluded. What it reports does not
depend on the order of the records exactly where the records of each race that is held agree on the number of riders, because a held
case is reported with the number of riders of the first record of its race.
-/

namespace Keirin.ModelHistory

/-- A record, the keys of a mapping standing once. -/
structure HistoryRecord where
  doc : Doc
  once : doc.keysOnce = true

/-- Reports that are equal as mappings. -/
structure SameReport (a b : Report) : Prop where
  status : a.status = b.status
  inputs : a.inputRecords = b.inputRecords
  evaluated : a.evaluatedRaces = b.evaluatedRaces
  heldRaces : a.heldRaces = b.heldRaces
  heldCases : a.heldCases = b.heldCases
  artifacts : a.modelArtifacts = b.modelArtifacts
  excluded : ∀ reason, Dict.getD a.excluded reason 0 = Dict.getD b.excluded reason 0
  duplicates : a.duplicateSnapshotsRemoved = b.duplicateSnapshotsRemoved
  metrics : a.metrics = b.metrics
  perRace : a.perRace.map RaceReview.sorted = b.perRace.map RaceReview.sorted

/-- Every record is evaluated, dropped as a duplicate, or excluded. -/
def Report.Conserves (r : Report) : Prop := r.inputRecords = r.evaluatedRaces + r.duplicateSnapshotsRemoved + Tally.total r.excluded

section Evaluate

variable (dateError : String → String) (arithmetic : Arithmetic)

/-- Whether a record is valid. -/
def accepts (record : Doc) : Bool :=
  match validateHistory dateError record with
  | .ok () => true
  | .error _ => false

/-- The valid records of a race that has a record to be reviewed agree on the number of riders. -/
def RidersAgree (records : List Doc) : Prop :=
  ∀ held ∈ records, ∀ r ∈ records, accepts dateError held = true → isHeld held = true → accepts dateError r = true →
    raceIdOf r = raceIdOf held → riderCountOf r = riderCountOf held

/-- The reason why a record is not valid. -/
def refusal? (record : Doc) : Option String :=
  match validateHistory dateError record with
  | .ok () => none
  | .error exc => some (reasonOf exc)

variable {dateError arithmetic}

variable (dateError) in
theorem valid_cases (record : Doc) : (validateHistory dateError record = .ok () ∧ accepts dateError record = true ∧
      refusal? dateError record = none) ∨
    ∃ exc, validateHistory dateError record = .error exc ∧ accepts dateError record = false ∧
      refusal? dateError record = some (reasonOf exc) := by
  unfold accepts refusal?
  cases h : validateHistory dateError record with
  | ok u => exact .inl ⟨rfl, rfl, rfl⟩
  | error exc => exact .inr ⟨exc, rfl, rfl, rfl⟩

theorem screen_foldl (records kept : List Doc) (counts : Dict ℕ) :
    records.foldl (fun acc record =>
      match validateHistory dateError record with
      | .ok () => (acc.1 ++ [record], acc.2)
      | .error exc => (acc.1, Tally.add acc.2 (reasonOf exc) 1)) (kept, counts) =
    (kept ++ records.filter (accepts dateError),
      (records.filterMap (refusal? dateError)).foldl (fun d reason => Tally.add d reason 1) counts) := by
  induction records generalizing kept counts with
  | nil => simp
  | cons r records ih =>
    rw [List.foldl_cons]
    rcases valid_cases dateError r with ⟨h, haccepts, hrefusal⟩ | ⟨exc, h, haccepts, hrefusal⟩
    · rw [List.filter_cons_of_pos haccepts, List.filterMap_cons_none hrefusal]
      simp only [h]
      rw [ih, List.append_assoc, List.singleton_append]
    · rw [List.filter_cons_of_neg (by rw [haccepts]; exact Bool.false_ne_true), List.filterMap_cons_some hrefusal, List.foldl_cons]
      simp only [h]
      rw [ih]

theorem screen_eq (records : List Doc) : screen dateError records =
    (records.filter (accepts dateError),
      (records.filterMap (refusal? dateError)).foldl (fun d reason => Tally.add d reason 1) []) :=
  screen_foldl records [] []

variable (dateError) in
/-- A record is valid, or there is a reason against it. -/
theorem length_screen (records : List Doc) :
    (records.filter (accepts dateError)).length + (records.filterMap (refusal? dateError)).length = records.length := by
  induction records with
  | nil => rfl
  | cons r records ih =>
    rcases valid_cases dateError r with ⟨-, haccepts, hrefusal⟩ | ⟨exc, -, haccepts, hrefusal⟩
    · rw [List.filter_cons_of_pos haccepts, List.filterMap_cons_none hrefusal, List.length_cons, List.length_cons]
      omega
    · rw [List.filter_cons_of_neg (by rw [haccepts]; exact Bool.false_ne_true), List.filterMap_cons_some hrefusal, List.length_cons,
        List.length_cons]
      omega

/-! ## The review of all races -/

/-- The valid records by race. -/
def groupsOf (dateError : String → String) (records : List Doc) : List (List Doc) :=
  (Grouped.group raceIdOf (records.filter (accepts dateError))).map Prod.snd

/-- What is told of the races. -/
def tales (dateError : String → String) (arithmetic : Arithmetic) (records : List Doc) : List ((HeldCase ⊕ String ⊕ Key) × ℕ) :=
  (groupsOf dateError records).map (told arithmetic)

variable (arithmetic) in
theorem reviewed_eq (records : List Doc) : reviewed dateError records =
    { selected := (groupsOf dateError records).filterMap fun g => (judge g).record?
      held := (tales dateError arithmetic records).filterMap fun t => Verdict.case? t.1
      duplicates := ((tales dateError arithmetic records).map fun t => Verdict.dropped t.2 t.1).sum
      excluded := (tales dateError arithmetic records).foldl excluding
        ((records.filterMap (refusal? dateError)).foldl (fun d reason => Tally.add d reason 1) []) } := by
  unfold reviewed
  rw [screen_eq, foldl_add arithmetic]
  simp only [List.nil_append, Nat.zero_add]
  rfl

theorem length_report (records : List Doc) (inputs : ℕ) :
    (report arithmetic inputs (reviewed dateError records)).evaluatedRaces =
      ((tales dateError arithmetic records).filterMap fun t => Verdict.key? t.1).length := by
  unfold tales
  rw [← keys_selected, reviewed_eq arithmetic]
  unfold report
  simp only [List.length_map, List.length_insertionSort]

/-- Every record is evaluated, dropped or excluded. -/
theorem report_conserves (records : List Doc) : (report arithmetic records.length (reviewed dateError records)).Conserves := by
  have hraces : ∀ t ∈ tales dateError arithmetic records, 0 < t.2 := by
    intro t ht
    obtain ⟨g, hg, rfl⟩ := List.mem_map.1 ht
    exact List.length_pos_iff.2 (Grouped.ne_nil_of_mem hg)
  have hsum : ((tales dateError arithmetic records).map Prod.snd).sum = (records.filter (accepts dateError)).length := by
    unfold tales
    rw [List.map_map]
    exact Grouped.sum_length _
  have htotal := total_excluding hraces ((records.filterMap (refusal? dateError)).foldl (fun d reason => Tally.add d reason 1) [])
  have hlength := length_screen dateError records
  unfold Report.Conserves
  rw [length_report]
  rw [Tally.total_count, hsum] at htotal
  have hzero : Tally.total [] = 0 := rfl
  have hexcluded : (report arithmetic records.length (reviewed dateError records)).excluded =
      (tales dateError arithmetic records).foldl excluding
        ((records.filterMap (refusal? dateError)).foldl (fun d reason => Tally.add d reason 1) []) := by
    rw [reviewed_eq arithmetic]
    rfl
  have hduplicates : (report arithmetic records.length (reviewed dateError records)).duplicateSnapshotsRemoved =
      ((tales dateError arithmetic records).map fun t => Verdict.dropped t.2 t.1).sum := by
    rw [reviewed_eq arithmetic]
    rfl
  rw [hexcluded, hduplicates]
  show records.length = _
  omega

/-! ## Rearranged records -/

/-- The valid records of a race. -/
def groupOf (dateError : String → String) (records : List Doc) (race : String) : List Doc :=
  (records.filter (accepts dateError)).filter fun r => raceIdOf r = race

theorem mem_groupOf {records : List Doc} {race : String} {r : Doc} :
    r ∈ groupOf dateError records race ↔ r ∈ records ∧ accepts dateError r = true ∧ raceIdOf r = race := by
  unfold groupOf
  rw [List.mem_filter, List.mem_filter, decide_eq_true_eq, and_assoc]

/-- The races with a valid record. -/
def racesOf (dateError : String → String) (records : List Doc) : List String :=
  (Grouped.group raceIdOf (records.filter (accepts dateError))).map Prod.fst

theorem groupsOf_eq (records : List Doc) : groupsOf dateError records = (racesOf dateError records).map (groupOf dateError records) :=
  Grouped.values_group _

theorem groupOf_ne_nil {records : List Doc} {race : String} (h : race ∈ racesOf dateError records) : groupOf dateError records race ≠ [] := by
  obtain ⟨r, hr, hrace⟩ := Grouped.mem_keys.1 h
  exact List.ne_nil_of_mem (List.mem_filter.2 ⟨hr, decide_eq_true hrace⟩)

/-- The record of a held race is told of its race. -/
theorem raceId_of_case {records : List Doc} {race : String} {c : HeldCase} (h : groupOf dateError records race ≠ [])
    (hc : Verdict.case? (told arithmetic (groupOf dateError records race)).1 = some c) : c.raceId = race := by
  unfold told at hc
  cases hj : judge (groupOf dateError records race) with
  | held case =>
    have hcase : case = c := by
      rw [hj] at hc
      exact Option.some.inj hc
    by_cases hheld : ∃ r ∈ groupOf dateError records race, isHeld r = true
    · obtain ⟨x, xs, hx⟩ := List.exists_cons_of_ne_nil h
      rw [judge_held (by rw [hx]; rfl : (groupOf dateError records race).head? = some x) hheld] at hj
      rw [← hcase, ← Verdict.held.inj hj]
      exact (mem_groupOf.1 (hx ▸ List.mem_cons_self)).2.2
    · obtain ⟨record, -, -, hplain⟩ := judge_plain h hheld
      rw [hplain] at hj
      split_ifs at hj
  | excluded reason =>
    rw [hj] at hc
    cases hc
  | selected record =>
    rw [hj] at hc
    cases hc

/-- The record that stands for a race is one of it. -/
theorem raceId_of_key {records : List Doc} {race : String} {key : Key} (h : groupOf dateError records race ≠ [])
    (hk : Verdict.key? (told arithmetic (groupOf dateError records race)).1 = some key) : key.2.1 = race := by
  unfold told at hk
  cases hj : judge (groupOf dateError records race) with
  | held case =>
    rw [hj] at hk
    cases hk
  | excluded reason =>
    rw [hj] at hk
    cases hk
  | selected record =>
    rw [hj] at hk
    have hkey : keyOf arithmetic record = key := Option.some.inj hk
    by_cases hheld : ∃ r ∈ groupOf dateError records race, isHeld r = true
    · obtain ⟨x, xs, hx⟩ := List.exists_cons_of_ne_nil h
      rw [judge_held (by rw [hx]; rfl : (groupOf dateError records race).head? = some x) hheld] at hj
      cases hj
    · obtain ⟨r, hr, -, hplain⟩ := judge_plain h hheld
      rw [hplain] at hj
      split_ifs at hj
      rw [← hkey, ← Verdict.selected.inj hj]
      exact (mem_groupOf.1 hr).2.2

/-- What is found for some of distinct keys, and tells its key, has distinct keys. -/
theorem nodup_filterMap {α : Type} {keys : List String} (h : keys.Nodup) {find : String → Option α} {key : α → String}
    (hkey : ∀ k ∈ keys, ∀ a, find k = some a → key a = k) : ((keys.filterMap find).map key).Nodup := by
  induction keys with
  | nil => exact List.nodup_nil
  | cons k keys ih =>
    rw [List.nodup_cons] at h
    rw [List.forall_mem_cons] at hkey
    cases hk : find k with
    | none =>
      rw [List.filterMap_cons_none hk]
      exact ih h.2 hkey.2
    | some a =>
      rw [List.filterMap_cons_some hk, List.map_cons, List.nodup_cons, hkey.1 a hk]
      refine ⟨fun hmem => ?_, ih h.2 hkey.2⟩
      obtain ⟨b, hb, hbk⟩ := List.mem_map.1 hmem
      obtain ⟨l, hl, hlb⟩ := List.mem_filterMap.1 hb
      rw [hkey.2 l hl b hlb] at hbk
      exact h.1 (hbk ▸ hl)

theorem tales_eq (records : List Doc) : tales dateError arithmetic records =
    (racesOf dateError records).map fun race => told arithmetic (groupOf dateError records race) := by
  unfold tales
  rw [groupsOf_eq, List.map_map]
  rfl

theorem nodup_cases (records : List Doc) :
    (((tales dateError arithmetic records).filterMap fun t => Verdict.case? t.1).map HeldCase.raceId).Nodup := by
  rw [tales_eq, List.filterMap_map]
  exact nodup_filterMap (Grouped.nodup_keys _) fun race hrace c hc => raceId_of_case (groupOf_ne_nil hrace) hc

theorem nodup_keys (records : List Doc) :
    (((tales dateError arithmetic records).filterMap fun t => Verdict.key? t.1).map fun k => k.2.1).Nodup := by
  rw [tales_eq, List.filterMap_map]
  exact nodup_filterMap (Grouped.nodup_keys _) fun race hrace key hk => raceId_of_key (groupOf_ne_nil hrace) hk

theorem valid_of_accepts {record : Doc} (hkeys : record.keysOnce = true) (h : accepts dateError record = true) : Valid record := by
  rcases valid_cases dateError record with ⟨hok, -, -⟩ | ⟨exc, -, hno, -⟩
  · exact valid_of_validateHistory hkeys hok
  · rw [h] at hno
    cases hno

theorem race_of_agree {records : List Doc} (hkeys : ∀ r ∈ records, r.keysOnce = true) (hagree : RidersAgree dateError records)
    {race : String} (hne : groupOf dateError records race ≠ []) : Race race (groupOf dateError records race) where
  ne := hne
  valid r hr := valid_of_accepts (hkeys r (mem_groupOf.1 hr).1) (mem_groupOf.1 hr).2.1
  race r hr := (mem_groupOf.1 hr).2.2
  agree := by
    rintro ⟨held, hheld, hisHeld⟩ r hr s hs
    obtain ⟨hin, haccepts, hrace⟩ := mem_groupOf.1 hheld
    have hcount : ∀ t ∈ groupOf dateError records race, riderCountOf t = riderCountOf held := by
      intro t ht
      obtain ⟨htin, htaccepts, htrace⟩ := mem_groupOf.1 ht
      exact hagree held hin t htin haccepts hisHeld htaccepts (htrace.trans hrace.symm)
    rw [hcount r hr, hcount s hs]

variable (arithmetic) in
/-- Of rearranged records the same is told, race by race. -/
theorem tales_perm {records records' : List Doc} (hkeys : ∀ r ∈ records, r.keysOnce = true) (hagree : RidersAgree dateError records)
    (hperm : records.Perm records') : (tales dateError arithmetic records).Perm (tales dateError arithmetic records') := by
  refine Grouped.map_values_perm (hperm.filter _) fun race => ?_
  have hgroup : (groupOf dateError records race).Perm (groupOf dateError records' race) := (hperm.filter _).filter _
  show told arithmetic (groupOf dateError records race) = told arithmetic (groupOf dateError records' race)
  by_cases hne : groupOf dateError records race = []
  · rw [hne] at hgroup ⊢
    rw [hgroup.nil_eq]
  · unfold told
    rw [judge_perm arithmetic (race_of_agree hkeys hagree hne) hgroup, hgroup.length_eq]

/-- The order of the selected records, by what is told of them. -/
theorem map_sorted (selected : List Doc) :
    ((selected.insertionSort (Sorted.Lex timeOf raceIdOf)).map (raceReview arithmetic)).map RaceReview.sorted =
      ((selected.map (keyOf arithmetic)).insertionSort (Sorted.Lex (fun k : Key => k.1) fun k => k.2.1)).map fun k => k.2.2 := by
  rw [← List.map_insertionSort (s := Sorted.Lex (fun k : Key => k.1) fun k => k.2.1) (r := Sorted.Lex timeOf raceIdOf) (keyOf arithmetic) _
    fun a _ b _ => Iff.rfl, List.map_map, List.map_map]
  rfl

/-- What is reported of the races, from what is told of them. -/
theorem perRace_sorted (records : List Doc) (inputs : ℕ) :
    (report arithmetic inputs (reviewed dateError records)).perRace.map RaceReview.sorted =
      (((tales dateError arithmetic records).filterMap fun t => Verdict.key? t.1).insertionSort
        (Sorted.Lex (fun k : Key => k.1) fun k => k.2.1)).map fun k => k.2.2 := by
  unfold tales
  rw [← keys_selected, reviewed_eq arithmetic, ← map_sorted]
  rfl

theorem heldCases_eq (records : List Doc) (inputs : ℕ) :
    (report arithmetic inputs (reviewed dateError records)).heldCases =
      ((tales dateError arithmetic records).filterMap fun t => Verdict.case? t.1).insertionSort fun a b => a.raceId ≤ b.raceId := by
  rw [reviewed_eq arithmetic]
  rfl

/-- The metrics of some races. -/
def pooled (arithmetic : Arithmetic) (perRace : List RaceReview) : Dict ℚ :=
  if perRace = [] then []
  else (pooledSums arithmetic (perRace.map RaceReview.metrics)).map fun f => (f.1, roundRat (f.2 / perRace.length))

theorem metrics_eq (inputs : ℕ) (review : Review) :
    (report arithmetic inputs review).metrics = pooled arithmetic (report arithmetic inputs review).perRace := rfl

/-- Reports on the same races are the same in the fields that are made of the races. -/
theorem perRace_fields {inputs : ℕ} {a b : Review}
    (h : (report arithmetic inputs a).perRace.map RaceReview.sorted = (report arithmetic inputs b).perRace.map RaceReview.sorted) :
    (report arithmetic inputs a).status = (report arithmetic inputs b).status ∧
      (report arithmetic inputs a).evaluatedRaces = (report arithmetic inputs b).evaluatedRaces ∧
      (report arithmetic inputs a).modelArtifacts = (report arithmetic inputs b).modelArtifacts ∧
      (report arithmetic inputs a).metrics = (report arithmetic inputs b).metrics := by
  have hlength : (report arithmetic inputs a).perRace.length = (report arithmetic inputs b).perRace.length := by
    simpa using congrArg List.length h
  have hnil : (report arithmetic inputs a).perRace = [] ↔ (report arithmetic inputs b).perRace = [] := by
    rw [← List.length_eq_zero_iff, ← List.length_eq_zero_iff, hlength]
  have hfield : ∀ {α : Type} (f : RaceReview → α), (∀ r, f r.sorted = f r) →
      (report arithmetic inputs a).perRace.map f = (report arithmetic inputs b).perRace.map f := by
    intro α f hf
    have hcomp : f ∘ RaceReview.sorted = f := funext hf
    have hmap := congrArg (List.map f) h
    rwa [List.map_map, List.map_map, hcomp] at hmap
  have hmetrics := hfield RaceReview.metrics fun _ => rfl
  have hartifacts := hfield RaceReview.modelArtifactSha256 fun _ => rfl
  refine ⟨?_, hlength, congrArg sortedSet hartifacts, ?_⟩
  · show (if (report arithmetic inputs a).perRace = [] then _ else _) = if (report arithmetic inputs b).perRace = [] then _ else _
    simp only [hnil]
  · rw [metrics_eq, metrics_eq]
    unfold pooled
    simp only [hnil, hmetrics, hlength]

theorem sameReport {records records' : List Doc} (hkeys : ∀ r ∈ records, r.keysOnce = true) (hagree : RidersAgree dateError records)
    (hperm : records.Perm records') :
    SameReport (report arithmetic records.length (reviewed dateError records))
      (report arithmetic records'.length (reviewed dateError records')) := by
  have htales := tales_perm arithmetic hkeys hagree hperm
  have hcases := htales.filterMap fun t => Verdict.case? t.1
  have hkeysPerm := htales.filterMap fun t => Verdict.key? t.1
  have htotal : Std.Total fun a b : HeldCase => a.raceId ≤ b.raceId := ⟨fun a b => le_total _ _⟩
  have htrans : IsTrans HeldCase fun a b => a.raceId ≤ b.raceId := ⟨fun _ _ _ => le_trans⟩
  have hheld : (report arithmetic records.length (reviewed dateError records)).heldCases =
      (report arithmetic records.length (reviewed dateError records')).heldCases := by
    rw [heldCases_eq, heldCases_eq]
    exact Sorted.sort_perm hcases fun a ha b hb hab hba =>
      List.inj_on_of_nodup_map (nodup_cases records) ha hb (le_antisymm hab hba)
  have hperRace : (report arithmetic records.length (reviewed dateError records)).perRace.map RaceReview.sorted =
      (report arithmetic records.length (reviewed dateError records')).perRace.map RaceReview.sorted := by
    rw [perRace_sorted, perRace_sorted, Sorted.sort_perm hkeysPerm (Sorted.lex_antisymm (nodup_keys records))]
  obtain ⟨hstatus, hevaluated, hartifacts, hmetrics⟩ := perRace_fields hperRace
  rw [← hperm.length_eq]
  refine ⟨hstatus, rfl, hevaluated, ?_, hheld, hartifacts, fun reason => ?_, ?_, hmetrics, hperRace⟩
  · have := congrArg List.length hheld
    rw [heldCases_eq, heldCases_eq, List.length_insertionSort, List.length_insertionSort] at this
    rw [reviewed_eq arithmetic, reviewed_eq arithmetic]
    exact this
  · rw [reviewed_eq arithmetic, reviewed_eq arithmetic]
    show Dict.getD (List.foldl excluding _ _) reason 0 = Dict.getD (List.foldl excluding _ _) reason 0
    rw [getD_excluding, getD_excluding, Tally.getD_count, Tally.getD_count, (htales.map _).sum_eq, (hperm.filterMap _).count_eq]
  · rw [reviewed_eq arithmetic, reviewed_eq arithmetic]
    exact (htales.map _).sum_eq

/-! ## The number of riders of a held race -/

variable (arithmetic) in
/-- A held race is reported with the number of riders of its first valid record. -/
theorem exists_case {first held : Doc} {rest : List Doc} (hfirst : accepts dateError first = true) (hheld : held ∈ first :: rest)
    (haccepts : accepts dateError held = true) (hisHeld : isHeld held = true) (hrace : raceIdOf first = raceIdOf held) (inputs : ℕ) :
    ∃ c ∈ (report arithmetic inputs (reviewed dateError (first :: rest))).heldCases,
      c.raceId = raceIdOf held ∧ c.riderCount = riderCountOf first := by
  have hgroup : groupOf dateError (first :: rest) (raceIdOf held) =
      first :: groupOf dateError rest (raceIdOf held) := by
    unfold groupOf
    rw [List.filter_cons_of_pos hfirst, List.filter_cons_of_pos (p := fun r => decide (raceIdOf r = raceIdOf held)) (decide_eq_true hrace)]
  have hexists : ∃ r ∈ groupOf dateError (first :: rest) (raceIdOf held), isHeld r = true :=
    ⟨held, mem_groupOf.2 ⟨hheld, haccepts, rfl⟩, hisHeld⟩
  have hhead : (groupOf dateError (first :: rest) (raceIdOf held)).head? = some first := by
    rw [hgroup]
    rfl
  obtain ⟨c, hjudge, hid, hcount⟩ : ∃ c, judge (groupOf dateError (first :: rest) (raceIdOf held)) = .held c ∧
      c.raceId = raceIdOf held ∧ c.riderCount = riderCountOf first := ⟨_, judge_held hhead hexists, hrace, rfl⟩
  refine ⟨c, ?_, hid, hcount⟩
  rw [heldCases_eq, List.mem_insertionSort, List.mem_filterMap]
  refine ⟨told arithmetic (groupOf dateError (first :: rest) (raceIdOf held)), ?_, ?_⟩
  · rw [tales_eq]
    exact List.mem_map_of_mem (Grouped.mem_keys.2 ⟨held, List.mem_filter.2 ⟨hheld, haccepts⟩, rfl⟩)
  · unfold told
    rw [hjudge]
    rfl

variable (arithmetic) in
/-- Where the reports are the same for every order of the records, the records of a held race agree. -/
theorem agree_of_sameReport {records : List HistoryRecord}
    (h : ∀ records', records.Perm records' → SameReport
      (report arithmetic (records.map HistoryRecord.doc).length (reviewed dateError (records.map HistoryRecord.doc)))
      (report arithmetic (records'.map HistoryRecord.doc).length (reviewed dateError (records'.map HistoryRecord.doc)))) :
    RidersAgree dateError (records.map HistoryRecord.doc) := by
  intro held hheld r hr haccepts hisHeld hraccepts hrace
  -- with any valid record of the race in front, the case is that of this record
  have hfront : ∀ s ∈ records.map HistoryRecord.doc, accepts dateError s = true → raceIdOf s = raceIdOf held →
      ∃ c ∈ (report arithmetic (records.map HistoryRecord.doc).length (reviewed dateError (records.map HistoryRecord.doc))).heldCases,
        c.raceId = raceIdOf held ∧ c.riderCount = riderCountOf s := by
    intro s hs hsaccepts hsrace
    obtain ⟨s, hsmem, rfl⟩ := List.mem_map.1 hs
    obtain ⟨before, after, hsplit⟩ := List.append_of_mem hsmem
    have hperm : records.Perm (s :: (before ++ after)) := hsplit ▸ List.perm_middle
    have hin : held ∈ s.doc :: (before ++ after).map HistoryRecord.doc := (hperm.map HistoryRecord.doc).mem_iff.1 hheld
    obtain ⟨c, hc, hid, hcount⟩ := exists_case arithmetic hsaccepts hin haccepts hisHeld hsrace
      ((s :: (before ++ after)).map HistoryRecord.doc).length
    refine ⟨c, ?_, hid, hcount⟩
    rw [(h _ hperm).heldCases]
    exact hc
  obtain ⟨c, hc, hid, hcount⟩ := hfront r hr hraccepts hrace
  obtain ⟨c', hc', hid', hcount'⟩ := hfront held hheld haccepts rfl
  rw [heldCases_eq, List.mem_insertionSort] at hc hc'
  rw [← hcount, ← hcount', List.inj_on_of_nodup_map (nodup_cases _) hc hc' (hid.trans hid'.symm)]

/-- The review of histories conserves the records, and reports the same for every order of them exactly where the valid records of each
race with a record to be reviewed agree on the number of riders. -/
theorem history_review_iff (dateError : String → String) (arithmetic : Arithmetic) (records : List HistoryRecord) :
    (∃ report, evaluateHistories dateError arithmetic true (records.map HistoryRecord.doc) = .ok report ∧ report.Conserves ∧
      ∀ records', records.Perm records' → ∃ report', evaluateHistories dateError arithmetic true (records'.map HistoryRecord.doc) = .ok report' ∧
        SameReport report report') ↔
    RidersAgree dateError (records.map HistoryRecord.doc) := by
  have hkeys : ∀ r ∈ records.map HistoryRecord.doc, r.keysOnce = true := by
    intro r hr
    obtain ⟨r, -, rfl⟩ := List.mem_map.1 hr
    exact r.once
  constructor
  · rintro ⟨report, hreport, -, hsame⟩
    cases Except.ok.inj hreport
    refine agree_of_sameReport arithmetic fun records' hperm => ?_
    obtain ⟨report', hreport', hsame'⟩ := hsame records' hperm
    cases Except.ok.inj hreport'
    exact hsame'
  · intro hagree
    exact ⟨_, rfl, report_conserves _, fun records' hperm => ⟨_, rfl, sameReport hkeys hagree (hperm.map _)⟩⟩

end Evaluate

open HistoricalPayouts (demand_bind_ok require_bind_ok)
open CategorySelection OfflinePreview

/-! ## A race with two rider counts -/

def sampleScores (n : ℕ) : Doc := .arr (sureTable (combinations n))

def sampleRanking (n : ℕ) : Doc :=
  .arr ((List.range n).map fun i => .obj [("car_number", whole (i + 1)), ("rank", whole (i + 1)),
    ("estimated_probability", whole (if i = 0 then 1 else 0))])

def sampleRankings (n : ℕ) : Doc := .obj [("first", sampleRanking n), ("second", sampleRanking n), ("third", sampleRanking n)]

def sampleRace : Doc :=
  .obj [("date", .str "2026-01-02"), ("venue", .str "v"), ("race_number", whole 1), ("scheduled_start_jst", .str "2026-01-02T12:00:00+09:00")]

def sampleArtifact : Doc :=
  .obj [("evidence_scope", .str "synthetic_test_only"), ("sha256", .str (String.ofList (List.replicate 64 '0'))),
    ("trained_at", .str "2026-01-01T00:00:00+00:00")]

def samplePrediction (n : ℕ) : Doc :=
  .obj [("success", .bool true), ("mode", .str "offline_inference_only"), ("model_version", .str "lightgbm-position-rankers-v1"),
    ("inference_version", .str "lightgbm-offline-inference-v1"), ("adapter_version", .str "position-probability-to-trifecta-v1"),
    ("probability_calibration_status", .str "uncalibrated"), ("production_prediction_enabled", .bool false),
    ("db_write_enabled", .bool false), ("external_fetch_enabled", .bool false), ("monetary_ev_enabled", .bool false),
    ("odds_used_as_model_feature", .bool false),
    ("input_quality", .obj [("rider_count", whole n), ("possible_trifecta_count", whole (sureTable (combinations n)).length),
      ("known_trifecta_odds_count", whole 0)]),
    ("trifecta_scores", sampleScores n),
    ("selected_predictions", selectionDoc 0 (selectCategories (sureTable (combinations n)))),
    ("position_rankings", sampleRankings n), ("model_artifact", sampleArtifact), ("generated_at", .str "2026-01-01T00:00:00+00:00"),
    ("race", sampleRace)]

theorem finite_samplePrediction (n : ℕ) : (samplePrediction n).finite = true := by
  have hscores : (sampleScores n).finite = true := by
    unfold sampleScores
    rw [Doc.finite_arr, List.all_eq_true]
    exact finite_sureTable _
  have hranking : (sampleRanking n).finite = true := by
    unfold sampleRanking whole
    rw [Doc.finite_arr, List.all_map, List.all_eq_true]
    intro i _
    simp
  have hselected := finite_selectionDoc 0 (finite_sureTable (combinations n))
  unfold samplePrediction sampleRankings sampleRace sampleArtifact whole
  simp [hscores, hranking, hselected]

theorem validatePreview_sample {n : ℕ} (hn : n = 7 ∨ n = 9) : validatePreview (samplePrediction n) = .ok () := by
  have hcount : (Doc.int? (whole n)).filter (fun m => m = 7 ∨ m = 9) = some (n : ℤ) := by
    rcases hn with rfl | rfl <;> rfl
  have hselected : checkSelection (sampleScores n) (whole n) (selectionDoc 0 (selectCategories (sureTable (combinations n)))) = .ok () := by
    have hmade : selectModelCategories (sampleScores n) (whole n) = .ok (selectionDoc 0 (selectCategories (sureTable (combinations n)))) :=
      bind_ok.2 ⟨0, validate_sureTable hn, rfl⟩
    have htext : ∃ text, Doc.sortedText (selectionDoc 0 (selectCategories (sureTable (combinations n)))) = .ok text :=
      ⟨_, bind_ok.2 ⟨(), Doc.checkFinite_of_finite (finite_selectionDoc 0 (finite_sureTable _)), rfl⟩⟩
    obtain ⟨text, htext⟩ := htext
    unfold checkSelection
    exact bind_ok.2 ⟨_, hmade, bind_ok.2 ⟨_, htext, bind_ok.2 ⟨_, htext, demand_ok.2 (decide_eq_true rfl)⟩⟩⟩
  have hrankings : checkRankings (sampleRankings n) n POSITIONS = .ok () := by
    rcases hn with rfl | rfl <;> decide +kernel
  unfold validatePreview
  refine demand_bind_ok.2 ⟨rfl, bind_ok.2 ⟨(), rfl, demand_bind_ok.2 ⟨rfl, bind_ok.2 ⟨(), rfl, demand_bind_ok.2 ⟨rfl,
    require_bind_ok.2 ⟨n, hcount, bind_ok.2 ⟨0, validate_sureTable hn, demand_bind_ok.2 ⟨?_, bind_ok.2 ⟨(), hselected,
    demand_bind_ok.2 ⟨rfl, ?_⟩⟩⟩⟩⟩⟩⟩⟩⟩⟩
  · rw [Bool.and_eq_true]
    exact ⟨decide_eq_true rfl, decide_eq_true rfl⟩
  · exact hrankings

/-- The key of the race of the sample. -/
def sampleKey : String := "ml-race-" ++ (digest (.arr [.str "2026-01-02", .str "v", whole 1])).toOption.getD ""

/-- The snapshot without its digest. -/
def samplePayload (n : ℕ) : Dict Doc :=
  ("schema_version", .str SNAPSHOT_SCHEMA) :: SAFETY ++
    [("race_id", .str sampleKey), ("captured_at", .str "2026-01-01T12:00:00+00:00"), ("scheduled_start", .str "2026-01-02T12:00:00+09:00"),
      ("clock_source", .str "local_unverified"), ("prediction", samplePrediction n)]

def sampleSnapshot (n : ℕ) : Doc :=
  .obj (samplePayload n ++ [("snapshot_sha256", .str ((digest (.obj (samplePayload n))).toOption.getD ""))])

theorem finite_samplePayload (n : ℕ) : Doc.finite (.obj (samplePayload n)) = true := by
  unfold samplePayload SAFETY
  simp [finite_samplePrediction]

theorem toOption_ok {ε α : Type} {x : Except ε α} {a default : α} (h : x = .ok a) : x = .ok (x.toOption.getD default) := by
  subst h
  rfl

theorem raceKey_sample (dateError : String → String) : raceKey dateError sampleRace = .ok sampleKey := by
  obtain ⟨d, hd⟩ := digest_of_finite (v := .arr [.str "2026-01-02", .str "v", whole 1]) (by unfold whole; simp)
  have hday : Datetime.dateOf "2026-01-02" = some 739618 := by decide +kernel
  unfold raceKey
  refine demand_bind_ok.2 ⟨rfl, require_bind_ok.2 ⟨"2026-01-02", rfl, require_bind_ok.2 ⟨739618, hday, demand_bind_ok.2 ⟨?_,
    require_bind_ok.2 ⟨"v", rfl, demand_bind_ok.2 ⟨?_, require_bind_ok.2 ⟨1, ?_, bind_ok.2 ⟨_, toOption_ok hd, rfl⟩⟩⟩⟩⟩⟩⟩⟩
  · decide +kernel
  · decide +kernel
  · decide +kernel

/-- A text that is a time with an offset. -/
theorem exists_iso (text : String) (h : ((Datetime.fromisoformat (zuluOffset text)).any fun dt => dt.utcoffset.isSome) = true)
    (hne : text ≠ "") : ∃ dt, Datetime.fromisoformat (zuluOffset text) = some dt ∧ ∀ name, iso (.str text) name = .ok dt := by
  obtain ⟨dt, hdt, hoffset⟩ := (Option.any_eq_true _ _).1 h
  refine ⟨dt, hdt, fun name => require_bind_ok.2 ⟨text, ?_, require_bind_ok.2 ⟨dt, hdt, demand_bind_ok.2 ⟨hoffset, rfl⟩⟩⟩⟩
  simp [Doc.text?, hne]

theorem validateSnapshot_sample (dateError : String → String) {n : ℕ} (hn : n = 7 ∨ n = 9) :
    validateSnapshot dateError (sampleSnapshot n) = .ok () := by
  have hpayload : without "snapshot_sha256" (sampleSnapshot n) = .obj (samplePayload n) := rfl
  obtain ⟨d, hd⟩ := digest_of_finite (finite_samplePayload n)
  have hdigest : digest (without "snapshot_sha256" (sampleSnapshot n)) = .ok ((digest (.obj (samplePayload n))).toOption.getD "") := by
    rw [hpayload]
    exact toOption_ok hd
  have hflags : safety (sampleSnapshot n) = .ok () := by
    have hgiven : (SAFETY.map fun f => (f.1, (sampleSnapshot n).field f.1)) = SAFETY := rfl
    unfold safety
    rw [hgiven]
    have htext : canonical (.obj SAFETY) = .ok ((Json.obj SAFETY : Doc).dumps Scalar.text) := rfl
    exact bind_ok.2 ⟨_, htext, bind_ok.2 ⟨_, htext, demand_ok.2 (decide_eq_true rfl)⟩⟩
  obtain ⟨trained, htrained, hiso⟩ := exists_iso "2026-01-01T00:00:00+00:00" (by decide +kernel) (by decide)
  obtain ⟨captured, hcaptured, hiso'⟩ := exists_iso "2026-01-01T12:00:00+00:00" (by decide +kernel) (by decide)
  obtain ⟨scheduled, hscheduled, hiso''⟩ := exists_iso "2026-01-02T12:00:00+09:00" (by decide +kernel) (by decide)
  have horder : trained.epochMicros ≤ captured.epochMicros ∧ captured.epochMicros < scheduled.epochMicros := by
    have hall : ((Datetime.fromisoformat (zuluOffset "2026-01-01T00:00:00+00:00")).all fun a =>
        (Datetime.fromisoformat (zuluOffset "2026-01-01T12:00:00+00:00")).all fun b =>
          (Datetime.fromisoformat (zuluOffset "2026-01-02T12:00:00+09:00")).all fun c =>
            decide (a.epochMicros ≤ b.epochMicros ∧ b.epochMicros < c.epochMicros)) = true := by decide +kernel
    rw [htrained, hcaptured, hscheduled] at hall
    exact of_decide_eq_true hall
  have hdate : ∃ date, scheduled.jstDate = .ok date ∧ Datetime.isoDate date = "2026-01-02" := by
    have hany : ((Datetime.fromisoformat (zuluOffset "2026-01-02T12:00:00+09:00")).all fun c =>
        c.jstDate.toOption.any fun date => decide (Datetime.isoDate date = "2026-01-02")) = true := by decide +kernel
    rw [hscheduled] at hany
    obtain ⟨date, hdate, hiso⟩ := (Option.any_eq_true _ _).1 hany
    refine ⟨date, ?_, of_decide_eq_true hiso⟩
    cases hjst : scheduled.jstDate with
    | ok x =>
      rw [hjst] at hdate
      exact congrArg Except.ok (Option.some.inj hdate)
    | error e =>
      rw [hjst] at hdate
      cases hdate
  obtain ⟨date, hdate, hday⟩ := hdate
  unfold validateSnapshot
  refine demand_bind_ok.2 ⟨rfl, bind_ok.2 ⟨(), hflags, demand_bind_ok.2 ⟨rfl, bind_ok.2 ⟨_, hdigest, demand_bind_ok.2 ⟨decide_eq_true rfl,
    bind_ok.2 ⟨(), validatePreview_sample hn, demand_bind_ok.2 ⟨rfl, bind_ok.2 ⟨_, rfl, demand_bind_ok.2 ⟨rfl, demand_bind_ok.2 ⟨?_,
    bind_ok.2 ⟨trained, hiso _, bind_ok.2 ⟨trained, hiso _, bind_ok.2 ⟨captured, hiso' _, bind_ok.2 ⟨scheduled, hiso'' _,
    demand_bind_ok.2 ⟨?_, bind_ok.2 ⟨sampleKey, raceKey_sample dateError, demand_bind_ok.2 ⟨decide_eq_true rfl,
    bind_ok.2 ⟨scheduled, hiso'' _, demand_bind_ok.2 ⟨decide_eq_true rfl, bind_ok.2 ⟨date, hdate, demand_ok.2 ?_⟩⟩⟩⟩⟩⟩⟩⟩⟩⟩⟩⟩⟩⟩⟩⟩⟩⟩⟩⟩
  · show (sampleArtifact.orEmpty.field "sha256").text?.any isDigest = true
    decide +kernel
  · simp only [le_refl, decide_true, Bool.true_and, Bool.and_eq_true, decide_eq_true_eq]
    exact horder
  · rw [decide_eq_true_eq, hday]
    rfl

/-- A cancelled race. -/
def sampleSettlement : Doc :=
  .obj [("race_id", .str sampleKey), ("result_timestamp", .str "2026-01-01T12:00:00+00:00"), ("result_status", .str "cancelled")]

def sampleDoc (n : ℕ) : Doc := recordOf "cancelled" (sampleSnapshot n) sampleSettlement

theorem settle_sample (dateError : String → String) {n : ℕ} (hn : n = 7 ∨ n = 9) :
    settleSnapshot dateError (sampleSnapshot n) sampleSettlement = .ok (sampleDoc n) := by
  obtain ⟨captured, -, hcaptured⟩ := exists_iso "2026-01-01T12:00:00+00:00" (by decide +kernel) (by decide)
  obtain ⟨scheduled, -, hscheduled⟩ := exists_iso "2026-01-02T12:00:00+09:00" (by decide +kernel) (by decide)
  have hfields : hasFields sampleSettlement (settlementFields "cancelled" sampleSettlement) = true := rfl
  unfold settleSnapshot
  refine bind_ok.2 ⟨(), validateSnapshot_sample dateError hn, demand_bind_ok.2 ⟨?_, require_bind_ok.2 ⟨"cancelled", ?_,
    demand_bind_ok.2 ⟨hfields, bind_ok.2 ⟨captured, hcaptured _, bind_ok.2 ⟨captured, hcaptured _, demand_bind_ok.2 ⟨decide_eq_true le_rfl,
    bind_ok.2 ⟨scheduled, hscheduled _, demand_bind_ok.2 ⟨?_, ?_⟩⟩⟩⟩⟩⟩⟩⟩⟩
  · rw [Bool.and_eq_true]
    exact ⟨rfl, decide_eq_true rfl⟩
  · decide +kernel
  · rfl
  · rfl

theorem keysOnce_sampleSnapshot {n : ℕ} (hn : n = 7 ∨ n = 9) : (sampleSnapshot n).keysOnce = true := by
  have hrow : ∀ row ∈ sureTable (combinations n), row.keysOnce = true := by
    intro row hrow
    have hsure : ∀ p key, (sureRow p key).keysOnce = true := fun p key => rfl
    cases hkeys : combinations n with
    | nil =>
      rw [hkeys] at hrow
      exact absurd hrow List.not_mem_nil
    | cons key keys =>
      rw [hkeys] at hrow
      rcases List.mem_cons.1 hrow with rfl | hrow
      · exact hsure 1 key
      · obtain ⟨key', -, rfl⟩ := List.mem_map.1 hrow
        exact hsure 0 key'
  have hselected := keysOnce_selectionDoc 0 hrow
  have hscores : (sampleScores n).keysOnce = true := Doc.keysOnce_arr.2 hrow
  have hranking : (sampleRankings n).keysOnce = true := by
    rcases hn with rfl | rfl <;> decide +kernel
  have hprediction : (samplePrediction n).keysOnce = true := by
    unfold samplePrediction
    rw [Doc.keysOnce_obj]
    refine ⟨by simp, fun f hf => ?_⟩
    simp only [List.mem_cons, List.not_mem_nil, or_false] at hf
    rcases hf with rfl | rfl | rfl | rfl | rfl | rfl | rfl | rfl | rfl | rfl | rfl | rfl | rfl | rfl | rfl | rfl | rfl | rfl <;>
      first | rfl | assumption
  unfold sampleSnapshot samplePayload SAFETY
  rw [Doc.keysOnce_obj]
  refine ⟨by simp, fun f hf => ?_⟩
  simp only [List.cons_append, List.nil_append, List.mem_cons, List.not_mem_nil, or_false] at hf
  rcases hf with rfl | rfl | rfl | rfl | rfl | rfl | rfl | rfl | rfl | rfl | rfl | rfl | rfl | rfl | rfl <;> first | rfl | assumption

theorem keysOnce_sampleDoc {n : ℕ} (hn : n = 7 ∨ n = 9) : (sampleDoc n).keysOnce = true := by
  have hsnapshot := keysOnce_sampleSnapshot hn
  unfold sampleDoc recordOf SAFETY
  rw [Doc.keysOnce_obj]
  refine ⟨by simp, fun f hf => ?_⟩
  simp only [List.cons_append, List.nil_append, List.mem_cons, List.not_mem_nil, or_false] at hf
  rcases hf with rfl | rfl | rfl | rfl | rfl | rfl | rfl | rfl | rfl | rfl | rfl | rfl | rfl | rfl <;> first | rfl | assumption

theorem accepts_sample (dateError : String → String) {n : ℕ} (hn : n = 7 ∨ n = 9) : accepts dateError (sampleDoc n) = true := by
  have hvalid := validateHistory_of_settle (keysOnce_sampleSnapshot hn) (rfl : sampleSettlement.keysOnce = true) (settle_sample dateError hn)
  unfold accepts
  rw [hvalid]

theorem raceId_sample (n : ℕ) : raceIdOf (sampleDoc n) = sampleKey := rfl

theorem riderCount_sample (n : ℕ) : riderCountOf (sampleDoc n) = n := rfl

/-- A cancelled race of which one record has seven riders and one nine is reported with those of the record that comes first. -/
theorem history_review_order_matters : (sampleDoc 7).keysOnce = true ∧ (sampleDoc 9).keysOnce = true ∧ ∃ report report',
    evaluateHistories (fun _ => "") ⟨id, id, List.sum⟩ true [sampleDoc 7, sampleDoc 9] = .ok report ∧
    evaluateHistories (fun _ => "") ⟨id, id, List.sum⟩ true [sampleDoc 9, sampleDoc 7] = .ok report' ∧
    (∃ c ∈ report.heldCases, ∃ c' ∈ report'.heldCases, c.raceId = c'.raceId ∧ c.riderCount = 7 ∧ c'.riderCount = 9) ∧
    ¬SameReport report report' := by
  have h7 := accepts_sample (fun _ => "") (n := 7) (.inl rfl)
  have h9 := accepts_sample (fun _ => "") (n := 9) (.inr rfl)
  have hheld : ∀ n, isHeld (sampleDoc n) = true := fun n => decide_eq_true rfl
  obtain ⟨c, hc, hid, hcount⟩ := exists_case ⟨id, id, List.sum⟩ h7
    (List.mem_cons_self : sampleDoc 7 ∈ [sampleDoc 7, sampleDoc 9]) h7 (hheld 7) rfl 2
  obtain ⟨c', hc', hid', hcount'⟩ := exists_case ⟨id, id, List.sum⟩ h9
    (List.mem_cons_self : sampleDoc 9 ∈ [sampleDoc 9, sampleDoc 7]) h9 (hheld 9) rfl 2
  rw [raceId_sample] at hid hid'
  rw [riderCount_sample] at hcount hcount'
  refine ⟨keysOnce_sampleDoc (.inl rfl), keysOnce_sampleDoc (.inr rfl), _, _, rfl, rfl,
    ⟨c, hc, c', hc', hid.trans hid'.symm, hcount, hcount'⟩, fun hsame => ?_⟩
  have hin := hc'
  rw [show (report ⟨id, id, List.sum⟩ 2 (reviewed (fun _ => "") [sampleDoc 9, sampleDoc 7])).heldCases = _ from hsame.heldCases.symm] at hin
  rw [heldCases_eq, List.mem_insertionSort] at hc
  have hin' := (List.mem_insertionSort _).1 (@heldCases_eq (fun _ => "") ⟨id, id, List.sum⟩ _ _ ▸ hin)
  have heq := List.inj_on_of_nodup_map (nodup_cases _) hc hin' (hid.trans hid'.symm)
  rw [heq, hcount'] at hcount
  exact absurd hcount (by decide)

end Keirin.ModelHistory

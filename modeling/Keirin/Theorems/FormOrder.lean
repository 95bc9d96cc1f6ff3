import Keirin.Theorems.NoLookAhead
import Keirin.Lemmas.PythonEq

/-!
# Recent form and the order of the records

Of the records of a race the first stands for it, and the others are compared with it by `==`. Equal records differ at most in the
types of their numbers, so they pass the same checks except those for integers; the rows of the entrants depend on the order of the
records only where one of several equal records fails these.
-/

namespace Keirin.HistoricalForm

open Doc (int? pyEq)

/-! ## Equal records -/

/-- Fields of equal mappings are equal. -/
theorem pyEq_getD {fs gs : Dict Doc} (hfs : Json.keysOnce (.obj fs) = true) (h : pyEq (.obj fs) (.obj gs) = true) (name : String) :
    pyEq (Dict.getD fs name .null) (Dict.getD gs name .null) = true := by
  simp only [pyEq, Bool.and_eq_true, decide_eq_true_eq] at h
  have hfields := Doc.pyEqFields_iff.1 h.2
  cases hget : Dict.get? name fs with
  | some x =>
    obtain ⟨y, hy, heq⟩ := hfields (name, x) (Dict.mem_of_get? hget)
    rw [Dict.getD, Dict.getD, hget, hy]
    exact heq
  | none =>
    have hnone : Dict.get? name gs = none := by
      rw [Dict.get?_eq_none_iff] at hget ⊢
      intro hmem
      obtain ⟨g, hg, rfl⟩ := List.mem_map.1 hmem
      exact hget (Doc.keys_subset (Doc.keysOnce_obj.1 hfs).1 h.1 hfields g hg)
    rw [Dict.getD, Dict.getD, hget, hnone]
    rfl

/-- A text is equal to itself only. -/
theorem pyEq_text {v w : Doc} (h : pyEq v w = true) (s : String) : v = .str s ↔ w = .str s := by
  constructor
  · rintro rfl
    exact of_decide_eq_true h
  · rintro rfl
    cases v with
    | str t => exact (of_decide_eq_true h : Json.str s = .str t).symm
    | _ => nomatch h

theorem pyEq_isText {v w : Doc} (h : pyEq v w = true) : v.isText = w.isText := by
  rw [Bool.eq_iff_iff]
  have htext : ∀ v : Doc, v.isText = true ↔ ∃ s, v = .str s ∧ isBlank s = false := by
    intro v
    cases v <;> simp [Doc.isText]
  rw [htext, htext]
  exact exists_congr fun s => and_congr_left fun _ => pyEq_text h s

theorem pyEq_text? {v w : Doc} (h : pyEq v w = true) : Doc.text? v = Doc.text? w := by
  have htext : ∀ (v : Doc) (s : String), Doc.text? v = some s ↔ v = .str s := by
    intro v s
    cases v <;> simp [Doc.text?]
  refine Option.ext fun s => ?_
  rw [htext, htext]
  exact pyEq_text h s

theorem pyEq_timestamp {v w : Doc} (h : pyEq v w = true) : timestamp v = timestamp w := by
  by_cases hv : ∃ s, v = .str s
  · obtain ⟨s, rfl⟩ := hv
    rw [(pyEq_text h s).1 rfl]
  · have hw : ¬∃ s, w = .str s := fun ⟨s, hs⟩ => hv ⟨s, (pyEq_text h s).2 hs⟩
    have hmissing : ∀ v : Doc, (¬∃ s, v = .str s) → timestamp v = .error (.valueError "timestamp_missing") := by
      intro v hv
      cases v with
      | str s => exact absurd ⟨s, rfl⟩ hv
      | _ => rfl
    rw [hmissing v hv, hmissing w hw]

/-- Equal integers are the same. -/
theorem pyEq_int {v w : Doc} {n m : ℤ} (h : pyEq v w = true) (hv : int? v = some n) (hw : int? w = some m) : n = m := by
  rw [eq_of_int? hv, eq_of_int? hw] at h
  have hvalue : ((n : ℤ) : ℚ) = m := by simpa [pyEq, Doc.eqNumber, Doc.number, Scalar.value] using h
  exact_mod_cast hvalue

/-! ## Equal participants -/

/-- Participants that count alike. -/
structure Alike (p q : Rider) : Prop where
  car : p.car = q.car
  identity : p.identity = q.identity
  status : Dict.getD p.row "status" .null = Dict.getD q.row "status" .null
  rank : Dict.getD p.row "finish_rank" .null = Dict.getD q.row "finish_rank" .null

/-- Whether the numbers of a participant are integers: the car, and the rank of one who finished. -/
def IntRow (row : Dict Doc) : Prop :=
  (int? (Dict.getD row "car_number" .null)).isSome ∧
    (Dict.getD row "status" .null = .str "FINISHED" → (int? (Dict.getD row "finish_rank" .null)).isSome)

/-- Whether the car numbers and ranks in a record are integers. -/
def IntTyped (record : Dict Doc) : Prop :=
  ∀ rows, Dict.getD record "participants" .null = .arr rows → ∀ row, .obj row ∈ rows → IntRow row

/-- A participant that passes the checks has integers. -/
theorem intRow_of_ok {n : ℕ} {x : Doc} {p : Rider} {o : Option ℤ} (h : rider x = .ok p) (ho : finishRank n p = .ok o) : IntRow p.row := by
  obtain ⟨-, hcar, -⟩ := rider_ok h
  refine ⟨by rw [hcar]; rfl, fun hstatus => ?_⟩
  unfold finishRank at ho
  rw [if_pos hstatus] at ho
  cases hrank : int? (Dict.getD p.row "finish_rank" .null) with
  | none => rw [hrank] at ho; cases ho
  | some r => rfl

/-- A participant equal to one that passes the checks passes them if its numbers are integers, and counts alike. -/
theorem rider_alike {n : ℕ} {x y : Doc} {p : Rider} {o : Option ℤ} (hx : x.keysOnce = true) (heq : pyEq x y = true)
    (h : rider x = .ok p) (ho : finishRank n p = .ok o) (hint : ∀ row, y = .obj row → IntRow row) :
    ∃ q, rider y = .ok q ∧ Alike p q ∧ finishRank n q = .ok o := by
  obtain ⟨rfl, hcar, hid, hlow, hhigh, hblank, hnamespaced⟩ := rider_ok h
  cases y with
  | obj row =>
    have hfield := pyEq_getD hx heq
    obtain ⟨hcarint, hrankint⟩ := hint row rfl
    obtain ⟨car, hcar'⟩ := Option.isSome_iff_exists.1 hcarint
    cases pyEq_int (hfield "car_number") hcar hcar'
    have hid' : Doc.text? (Dict.getD row "rider_id" .null) = some p.identity := (pyEq_text? (hfield "rider_id")).symm.trans hid
    have hstatus : ∀ s, Dict.getD p.row "status" .null = .str s ↔ Dict.getD row "status" .null = .str s :=
      pyEq_text (hfield "status")
    refine ⟨⟨p.car, p.identity, row⟩, rider_of hcar' hid' ⟨hlow, hhigh⟩ hblank hnamespaced, ?_⟩
    unfold finishRank at ho ⊢
    by_cases hfinished : Dict.getD p.row "status" .null = .str "FINISHED"
    · have hfinished' := (hstatus "FINISHED").1 hfinished
      obtain ⟨r, hr⟩ := Option.isSome_iff_exists.1 (hrankint hfinished')
      rw [if_pos hfinished] at ho
      cases hrank : int? (Dict.getD p.row "finish_rank" .null) with
      | none => rw [hrank] at ho; cases ho
      | some r' =>
        cases pyEq_int (hfield "finish_rank") hrank hr
        have hsame : Dict.getD p.row "finish_rank" .null = Dict.getD row "finish_rank" .null := by rw [eq_of_int? hrank, eq_of_int? hr]
        refine ⟨⟨rfl, rfl, hfinished.trans hfinished'.symm, hsame⟩, ?_⟩
        rw [if_pos hfinished', hr]
        rw [hrank] at ho
        exact ho
    · have hfinished' : Dict.getD row "status" .null ≠ .str "FINISHED" := fun h => hfinished ((hstatus _).2 h)
      rw [if_neg hfinished] at ho
      split_ifs at ho with hbad
      rw [not_or, not_not, not_not] at hbad
      obtain ⟨hmem, hnull⟩ := hbad
      have hnull' : Dict.getD row "finish_rank" .null = .null := by
        have hrank := hfield "finish_rank"
        rw [hnull] at hrank
        exact of_decide_eq_true hrank
      have hsame : Dict.getD p.row "status" .null = Dict.getD row "status" .null := by
        obtain ⟨s, hs⟩ : ∃ s, Dict.getD p.row "status" .null = .str s := by
          simp only [List.mem_cons, List.not_mem_nil, or_false] at hmem
          rcases hmem with h | h | h <;> exact ⟨_, h⟩
        exact hs.trans ((hstatus s).1 hs).symm
      refine ⟨⟨rfl, rfl, hsame, hnull.trans hnull'.symm⟩, ?_⟩
      have hgood : ¬(Dict.getD row "status" .null ∉ ([.str "DNF", .str "DSQ", .str "DNS"] : List Doc) ∨
          Dict.getD row "finish_rank" .null ≠ .null) := by
        rw [not_or, not_not, not_not]
        exact ⟨hsame ▸ hmem, hnull'⟩
      rw [if_neg hfinished']
      simp only [if_neg hgood]
      exact ho
  | _ => cases heq

theorem riders_alike {n : ℕ} {xs ys : List Doc} (hxs : ∀ x ∈ xs, x.keysOnce = true)
    (heq : List.Forall₂ (fun x y => pyEq x y = true) xs ys) {ps : List Rider} {ranks : List (Option ℤ)}
    (h : xs.mapM rider = .ok ps) (hranks : ps.mapM (finishRank n) = .ok ranks) (hint : ∀ row, .obj row ∈ ys → IntRow row) :
    ∃ qs, ys.mapM rider = .ok qs ∧ List.Forall₂ Alike ps qs ∧ qs.mapM (finishRank n) = .ok ranks := by
  rw [mapM_ok_iff] at h hranks
  induction heq generalizing ps ranks with
  | nil =>
    cases h
    cases hranks
    exact ⟨[], rfl, .nil, rfl⟩
  | @cons x y xs ys hxy _ ih =>
    cases h with
    | cons hp hps =>
      cases hranks with
      | cons ho hos =>
        rw [List.forall_mem_cons] at hxs
        obtain ⟨q, hq, halike, hoq⟩ := rider_alike hxs.1 hxy hp ho fun row hrow => hint row (hrow ▸ List.mem_cons_self)
        obtain ⟨qs, hqs, halikes, hosq⟩ := ih hxs.2 hps hos fun row hrow => hint row (List.mem_cons_of_mem _ hrow)
        exact ⟨q :: qs, mapM_ok_iff.2 (.cons hq (mapM_ok_iff.1 hqs)), .cons halike halikes,
          mapM_ok_iff.2 (.cons hoq (mapM_ok_iff.1 hosq))⟩

/-! ## Equal records that count -/

/-- A race that passes the checks has integers. -/
theorem intTyped_of_examine {w : Window} {conflicts : List String} {key : String} {record : Dict Doc} {u : Usable}
    (h : examine w conflicts key record = .ok u) : IntTyped record := by
  simp only [examine, raiseIf_bind_ok] at h
  obtain ⟨-, -, -, -, -, -, h⟩ := h
  obtain ⟨start, -, h⟩ := bind_ok.1 h
  obtain ⟨available, -, h⟩ := bind_ok.1 h
  simp only [raiseIf_bind_ok] at h
  obtain ⟨-, -, -, h⟩ := h
  obtain ⟨participants, hroster, h⟩ := bind_ok.1 h
  obtain ⟨ranks, hranks, -⟩ := bind_ok.1 h
  intro rows hrows row hrow
  obtain ⟨xs, hxs, -, hriders, -⟩ := roster_ok hroster
  cases hrows.symm.trans hxs
  obtain ⟨p, hp, hrider⟩ := exists_of_mem_left (mapM_ok_iff.1 hriders) hrow
  obtain ⟨o, -, hrank⟩ := exists_of_mem_left (mapM_ok_iff.1 hranks) hp
  cases (rider_ok hrider).1
  exact intRow_of_ok hrider hrank

/-- A record equal to one that passes the checks passes them if its numbers are integers, and counts alike. -/
theorem examine_alike {w : Window} {conflicts : List String} {key : String} {record record' : Dict Doc} {u : Usable}
    (honce : Json.keysOnce (.obj record) = true) (honce' : Json.keysOnce (.obj record') = true)
    (heq : pyEq (.obj record) (.obj record') = true) (h : examine w conflicts key record = .ok u) (hint : IntTyped record') :
    ∃ u', examine w conflicts key record' = .ok u' ∧ u'.start = u.start ∧ u'.key = u.key ∧
      List.Forall₂ Alike u.participants u'.participants := by
  have hfield := pyEq_getD honce heq
  simp only [examine, raiseIf_bind_ok] at h
  obtain ⟨htarget, hconf, hstatus, hresult, hidentity, hsource, h⟩ := h
  obtain ⟨start, hstart, h⟩ := bind_ok.1 h
  obtain ⟨available, havailable, h⟩ := bind_ok.1 h
  simp only [raiseIf_bind_ok] at h
  obtain ⟨hprecedes, hwindow, hlate, h⟩ := h
  obtain ⟨participants, hroster, h⟩ := bind_ok.1 h
  obtain ⟨ranks, hranks, h⟩ := bind_ok.1 h
  obtain ⟨⟨⟩, horder, h⟩ := bind_ok.1 h
  obtain ⟨sha, hsha, h⟩ := bind_ok.1 h
  cases h
  obtain ⟨xs, hxs, hsize, hriders, hcars, hids⟩ := roster_ok hroster
  have hxsonce : ∀ x ∈ xs, x.keysOnce = true := by
    have hget : Json.keysOnce (.arr xs) = true := by
      rw [← hxs]
      cases hget : Dict.get? "participants" record with
      | none => rw [Dict.getD, hget]; rfl
      | some v =>
        rw [Dict.getD, hget]
        exact (Doc.keysOnce_obj.1 honce).2 _ (Dict.mem_of_get? hget)
    exact Doc.keysOnce_arr.1 hget
  obtain ⟨ys, hys, hequal⟩ : ∃ ys, Dict.getD record' "participants" .null = .arr ys ∧
      List.Forall₂ (fun x y => pyEq x y = true) xs ys := by
    have hrows := hfield "participants"
    rw [hxs] at hrows
    cases hys : Dict.getD record' "participants" .null with
    | arr ys =>
      rw [hys] at hrows
      exact ⟨ys, rfl, Doc.pyEqList_iff.1 hrows⟩
    | _ => rw [hys] at hrows; cases hrows
  obtain ⟨qs, hqs, halike, hqranks⟩ := riders_alike hxsonce hequal hriders hranks (hint ys hys)
  have hlength : participants.length = qs.length := halike.length_eq
  have hmap : ∀ {β : Type} (f : Rider → β), (∀ p q, Alike p q → f p = f q) → participants.map f = qs.map f := by
    intro β f hf
    exact List.forall₂_eq_eq_eq ▸ (List.forall₂_map_left_iff.2 (List.forall₂_map_right_iff.2 (halike.imp hf)))
  have hroster' : roster (.arr ys) = .ok qs :=
    roster_of (hequal.length_eq ▸ hsize) hqs (hmap Rider.car (fun _ _ h => h.car) ▸ hcars)
      (hmap Rider.identity (fun _ _ h => h.identity) ▸ hids)
  have hfinite : Doc.finite (.obj record') = true :=
    Doc.finite_of_pyEq _ _ (Doc.pyEq_symm _ _ honce honce' heq) (finite_of_digest hsha)
  obtain ⟨sha', hsha'⟩ := digest_of_finite hfinite
  refine ⟨⟨start, key, record', qs, sha'⟩, ?_, rfl, rfl, halike⟩
  simp only [examine, raiseIf_bind_ok]
  refine ⟨htarget, hconf, ?_, ?_, ?_, ?_, ?_⟩
  · rw [not_not] at hstatus ⊢
    exact (pyEq_text (hfield "race_status") _).1 hstatus
  · rwa [← pyEq_isText (hfield "result_time_evidence")]
  · rwa [← pyEq_isText (hfield "identity_evidence")]
  · rwa [← pyEq_isText (hfield "source_use_evidence")]
  · refine bind_ok.2 ⟨start, (pyEq_timestamp (hfield "race_start_at")).symm.trans hstart, bind_ok.2 ⟨available,
      (pyEq_timestamp (hfield "result_available_at")).symm.trans havailable, ?_⟩⟩
    simp only [raiseIf_bind_ok]
    refine ⟨hprecedes, hwindow, hlate, bind_ok.2 ⟨qs, hys ▸ hroster', bind_ok.2 ⟨ranks, hlength ▸ hqranks, ?_⟩⟩⟩
    exact bind_ok.2 ⟨(), horder, bind_ok.2 ⟨sha', hsha', rfl⟩⟩

/-! ## What the rows are made of -/

/-- What a race shows of a rider: his status and rank, if he started. -/
def shown (identity : String) (u : Usable) : Option (Doc × Doc) :=
  (observe identity u).map fun p => (Dict.getD p.row "status" .null, Dict.getD p.row "finish_rank" .null)

/-- A race as far as the rows look at it. -/
abbrev View := ℚ × String × (String → Option (Doc × Doc))

def view (u : Usable) : View := (u.start, u.key, fun identity => shown identity u)

/-- The row of an entrant, from the races he was seen in with what they show of him. -/
def rowOf (entrant : Rider) (seen : List (String × Doc × Doc)) : Doc :=
  let n := seen.length
  let ranked := seen.filterMap fun o => if o.2.1 = .str "FINISHED" then int? o.2.2 else none
  let values := [("recent_win_rate", rate (ranked.countP (· = 1)) n), ("recent_top2_rate", rate (ranked.countP (· ≤ 2)) n),
    ("recent_top3_rate", rate (ranked.countP (· ≤ 3)) n),
    ("recent_avg_finish", if ranked.isEmpty then .null else .num (.ofRat ((ranked.sum : ℚ) / ranked.length)))]
  .obj [("car_number", .num (.int entrant.car)), ("rider_id", .str entrant.identity), ("features", .obj values),
    ("starts", .num (.int n)), ("classified_finishes", .num (.int ranked.length)),
    ("status_counts", .obj ((tally (seen.filterMap fun o => Doc.text? o.2.1)).map fun c => (c.1, .num (.int c.2)))),
    ("history_race_ids", .arr (seen.map fun o => .str o.1))]

/-- The races an entrant was seen in. -/
def seenIn (entrant : Rider) (views : List View) : List (String × Doc × Doc) :=
  views.filterMap fun v => (v.2.2 entrant.identity).map fun o => (v.2.1, o)

theorem formRow_eq (usable : List Usable) (entrant : Rider) : formRow usable entrant = rowOf entrant (seenIn entrant (usable.map view)) := by
  have hseen : seenIn entrant (usable.map view) = (usable.filterMap fun u => (observe entrant.identity u).map fun p => (u.key, p)).map
      fun o => (o.1, Dict.getD o.2.row "status" .null, Dict.getD o.2.row "finish_rank" .null) := by
    rw [seenIn, List.filterMap_map, List.map_filterMap]
    refine List.filterMap_congr fun u _ => ?_
    simp only [Function.comp_apply, view, shown]
    cases observe entrant.identity u <;> rfl
  rw [hseen]
  simp only [formRow, rowOf, List.length_map, List.filterMap_map, List.map_map]
  rfl

/-- Whether one of the entrants started in a race. -/
def seenBy (entrants : List Rider) (u : Usable) : Bool := entrants.any fun e => (observe e.identity u).isSome

theorem seenBy_iff {entrants : List Rider} {u : Usable} : seenBy entrants u = true ↔ ∃ e ∈ entrants, (observe e.identity u).isSome = true :=
  List.any_eq_true

/-- The order of the races, as far as the rows look at them. -/
abbrev viewEarlier : View → View → Prop := Sorted.Lex (fun v => v.1) fun v => v.2.1

/-- The races of a history that an entrant started in. -/
def views (w : Window) (entrants : List Rider) (history : List Doc) : List View :=
  ((usables w (group history).conflicts (group history).seen).filter (seenBy entrants)).map view

/-- The rows of the entrants are made of the sorted views. -/
theorem rows_of_views (w : Window) (entrants : List Rider) (history : List Doc) :
    entrants.map (formRow ((usables w (group history).conflicts (group history).seen).insertionSort earlier)) =
      entrants.map fun e => rowOf e (seenIn e ((views w entrants history).insertionSort viewEarlier)) := by
  refine List.map_congr_left fun e he => ?_
  have hfilter : formRow (((usables w (group history).conflicts (group history).seen).insertionSort earlier).filter (seenBy entrants)) e =
      formRow ((usables w (group history).conflicts (group history).seen).insertionSort earlier) e := by
    refine formRow_filter fun u _ hu => ?_
    cases hobs : observe e.identity u with
    | none => rfl
    | some p => exact absurd (seenBy_iff.2 ⟨e, he, by rw [hobs]; rfl⟩) (by simp [hu])
  rw [← hfilter, formRow_eq, ← sort_filter _ (nodup_usables (group_nodup history)),
    List.map_insertionSort (s := viewEarlier) (r := earlier) view _ fun a _ b _ => Iff.rfl]
  rfl

/-- Races that count alike look the same. -/
theorem view_alike {u u' : Usable} (hstart : u'.start = u.start) (hkey : u'.key = u.key)
    (halike : List.Forall₂ Alike u.participants u'.participants) : view u' = view u := by
  have hshown : ∀ identity, shown identity u' = shown identity u := by
    intro identity
    have hfind : ∀ {ps qs : List Rider}, List.Forall₂ Alike ps qs →
        Option.Rel Alike (ps.find? fun p => p.identity = identity) (qs.find? fun p => p.identity = identity) := by
      intro ps qs h
      induction h with
      | nil => exact .none
      | @cons p q ps qs hpq _ ih =>
        by_cases hid : p.identity = identity
        · have hid' : q.identity = identity := hpq.identity ▸ hid
          simp only [List.find?_cons, hid, hid', decide_true]
          exact .some hpq
        · have hid' : q.identity ≠ identity := fun h => hid (hpq.identity.trans h)
          simp only [List.find?_cons, hid, hid', decide_false]
          exact ih
    have hrel := hfind halike
    unfold shown observe
    cases hp : u.participants.find? fun p => p.identity = identity with
    | none =>
      rw [hp] at hrel
      cases hq : u'.participants.find? fun p => p.identity = identity with
      | none => rfl
      | some q => rw [hq] at hrel; cases hrel
    | some p =>
      rw [hp] at hrel
      cases hq : u'.participants.find? fun p => p.identity = identity with
      | none => rw [hq] at hrel; cases hrel
      | some q =>
        rw [hq] at hrel
        cases hrel with
        | some hpq =>
          by_cases hdns : Dict.getD p.row "status" .null = .str "DNS"
          · simp [Option.filter, hdns, ← hpq.status]
          · simp [Option.filter, hdns, ← hpq.status, hpq.rank]
  rw [view, view, hstart, hkey, funext hshown]

theorem seenBy_view {entrants : List Rider} {u u' : Usable} (h : view u' = view u) : seenBy entrants u' = seenBy entrants u := by
  have hshown : ∀ identity, (observe identity u').isSome = (observe identity u).isSome := by
    intro identity
    have hsame : shown identity u' = shown identity u := congrFun (Prod.mk.inj (Prod.mk.inj h).2).2 identity
    have hsome : ∀ v : Usable, (shown identity v).isSome = (observe identity v).isSome := fun v => by simp [shown]
    rw [← hsome, ← hsome, hsame]
  unfold seenBy
  exact congrArg (List.any entrants) (funext fun e => hshown e.identity)

/-! ## Rearranged records -/

/-- Where all records of a race are equal and one of them counts with an entrant among its starters, the car numbers and ranks of
the others are integers. -/
def TypesAgree (target windowDays : Doc) (history : List Doc) : Prop :=
  ∀ w entrants days, readTarget target (.arr history) windowDays = .ok (w, entrants, history, days) →
    ∀ key, ∀ r ∈ recordsOf key history, ∀ r' ∈ recordsOf key history,
      (∀ s ∈ recordsOf key history, pyEq (.obj s) (.obj r) = true) →
        (∃ u, examine w [] key r = .ok u ∧ ∃ e ∈ entrants, (observe e.identity u).isSome = true) → IntTyped r'

theorem mem_recordsOf {key : String} {history : List Doc} {r : Dict Doc} (h : r ∈ recordsOf key history) :
    .obj r ∈ history ∧ raceOf (.obj r) = some (key, r) := by
  obtain ⟨⟨k, fs⟩, hmem, rfl⟩ := List.mem_map.1 h
  obtain ⟨hrace, hk⟩ := List.mem_filter.1 hmem
  obtain rfl : k = key := of_decide_eq_true hk
  obtain ⟨record, hrecord, hof⟩ := List.mem_filterMap.1 hrace
  obtain rfl : record = .obj fs := (raceOf_eq_some hof).1
  exact ⟨hrecord, hof⟩

theorem recordsOf_perm (key : String) {history history' : List Doc} (h : history.Perm history') :
    (recordsOf key history).Perm (recordsOf key history') := ((h.filterMap _).filter _).map _

/-- With a record first in the history, it is the first record of its race. -/
theorem recordsOf_front {key : String} {history : List Doc} {r : Dict Doc} (h : r ∈ recordsOf key history) :
    recordsOf key (.obj r :: history.erase (.obj r)) = r :: recordsOf key (history.erase (.obj r)) := by
  rw [← List.singleton_append, recordsOf_append, recordsOf_singleton, (mem_recordsOf h).2]
  simp [Option.filter]

section Rearranged

variable {target windowDays : Doc} {history history' : List Doc} {w : Window} {entrants : List Rider} {days : ℤ}

/-- A race an entrant was seen in is seen alike in a rearranged history. -/
theorem mem_views_perm (honce : ∀ r ∈ history, r.keysOnce = true) (htypes : TypesAgree target windowDays history)
    (htarget : readTarget target (.arr history) windowDays = .ok (w, entrants, history, days)) (hperm : history.Perm history')
    {v : View} (hv : v ∈ views w entrants history) : v ∈ views w entrants history' := by
  obtain ⟨u, hu, rfl⟩ := List.mem_map.1 hv
  obtain ⟨hmem, hseen⟩ := List.mem_filter.1 hu
  obtain ⟨first, rest, hall, hequal, u₁, hex, hview⟩ :=
    (counts_iff (P := fun x => view x = view u)).1 ⟨u, hmem, rfl, rfl⟩
  have hrecords : (recordsOf u.key history).Perm (recordsOf u.key history') := recordsOf_perm u.key hperm
  have hfirst : first ∈ recordsOf u.key history := by simp [hall]
  have hkeys : ∀ r ∈ recordsOf u.key history, Json.keysOnce (.obj r) = true := fun r hr => honce _ (mem_recordsOf hr).1
  have hself : ∀ s ∈ recordsOf u.key history, pyEq (.obj s) (.obj first) = true := by
    intro s hs
    rw [hall] at hs
    rcases List.mem_cons.1 hs with rfl | hs
    · exact Doc.pyEq_self _ (hkeys _ hfirst)
    · exact hequal s hs
  cases hall' : recordsOf u.key history' with
  | nil =>
    rw [hall', hall] at hrecords
    exact absurd hrecords.eq_nil (List.cons_ne_nil _ _)
  | cons first' rest' =>
    have hmem' : ∀ r ∈ recordsOf u.key history', r ∈ recordsOf u.key history := fun r hr => hrecords.mem_iff.2 hr
    have hfirst' : first' ∈ recordsOf u.key history := hmem' first' (by simp [hall'])
    have hint : IntTyped first' := by
      refine htypes w entrants days htarget u.key first hfirst first' hfirst' hself ⟨u₁, hex, ?_⟩
      exact seenBy_iff.1 ((seenBy_view hview).trans hseen)
    have hsymm : pyEq (.obj first) (.obj first') = true := Doc.pyEq_symm _ _ (hkeys _ hfirst') (hkeys _ hfirst) (hself _ hfirst')
    obtain ⟨u', hex', hstart, hkey, halike⟩ := examine_alike (hkeys _ hfirst) (hkeys _ hfirst') hsymm hex hint
    have hview' : view u' = view u := (view_alike hstart hkey halike).trans hview
    have hequal' : ∀ r ∈ rest', pyEq (.obj r) (.obj first') = true := by
      intro r hr
      have hr' := hmem' r (by simp [hall', hr])
      exact Doc.pyEq_trans _ _ _ (hself r hr') hsymm
    obtain ⟨u₂, hu₂, -, hview₂⟩ :=
      (counts_iff (P := fun x => view x = view u)).2 ⟨first', rest', hall', hequal', u', hex', hview'⟩
    exact List.mem_map.2 ⟨u₂, List.mem_filter.2 ⟨hu₂, (seenBy_view hview₂).trans hseen⟩, hview₂⟩

theorem typesAgree_perm (htypes : TypesAgree target windowDays history)
    (htarget : readTarget target (.arr history) windowDays = .ok (w, entrants, history, days)) (hperm : history.Perm history') :
    TypesAgree target windowDays history' := by
  intro w' entrants' days' htarget' key r hr r' hr' hequal hcounts
  have hmem := fun s => (recordsOf_perm key hperm).mem_iff (a := s)
  cases (readTarget_history history' htarget).2.symm.trans htarget'
  exact htypes w entrants days htarget key r ((hmem r).2 hr) r' ((hmem r').2 hr') (fun s hs => hequal s ((hmem s).1 hs)) hcounts

theorem nodup_views (w : Window) (entrants : List Rider) (history : List Doc) : ((views w entrants history).map fun v => v.2.1).Nodup := by
  have hkeys : ((views w entrants history).map fun v => v.2.1) =
      (((usables w (group history).conflicts (group history).seen).filter (seenBy entrants)).map Usable.key) := by
    rw [views, List.map_map]
    rfl
  rw [hkeys]
  exact (nodup_usables (group_nodup history)).sublist (List.filter_sublist.map _)

/-- The races the entrants were seen in, and how, are those of a rearranged history. -/
theorem views_perm (honce : ∀ r ∈ history, r.keysOnce = true) (htypes : TypesAgree target windowDays history)
    (htarget : readTarget target (.arr history) windowDays = .ok (w, entrants, history, days)) (hperm : history.Perm history') :
    (views w entrants history).Perm (views w entrants history') := by
  have htarget' := (readTarget_history history' htarget).2
  refine (List.perm_ext_iff_of_nodup (nodup_views w entrants history).of_map (nodup_views w entrants history').of_map).2 fun v => ?_
  constructor
  · exact mem_views_perm honce htypes htarget hperm
  · exact mem_views_perm (fun r hr => honce r (hperm.mem_iff.2 hr)) (typesAgree_perm htypes htarget hperm) htarget' hperm.symm

end Rearranged

/-- Equal rows of an entrant come from the same races. -/
theorem seen_of_rows {usable usable' : List Usable} {entrants : List Rider}
    (h : entrants.map (formRow usable) = entrants.map (formRow usable')) {e : Rider} (he : e ∈ entrants) {u : Usable} (hu : u ∈ usable)
    (hobs : (observe e.identity u).isSome = true) : ∃ u' ∈ usable', u'.key = u.key ∧ (observe e.identity u').isSome = true := by
  have hids := congrArg (Json.get? · "history_race_ids") (List.map_inj_left.1 h e he)
  simp only [ids_of_formRow, Option.some.injEq, Json.arr.injEq] at hids
  have hmem : Json.str u.key ∈ (usable.filter fun u => (observe e.identity u).isSome).map fun u => Json.str (ν := Scalar) u.key :=
    List.mem_map_of_mem (List.mem_filter.2 ⟨hu, hobs⟩)
  rw [hids] at hmem
  obtain ⟨u', hu', hkey⟩ := List.mem_map.1 hmem
  obtain ⟨hmem', hobs'⟩ := List.mem_filter.1 hu'
  exact ⟨u', hmem', Json.str.inj hkey, hobs'⟩

/-- For a target, window and history of JSON records of which a report can be made: every order of the records gives a report with
the same rows exactly when, in every race of equal records that counts for an entrant, all records have integers for car numbers and
ranks. -/
theorem riders_order_free_iff {target windowDays report : Doc} {history : List Doc} (honce : ∀ r ∈ history, r.keysOnce = true)
    (hbuild : build target (.arr history) windowDays = .ok report) :
    (∀ history', history.Perm history' →
      ∃ report', build target (.arr history') windowDays = .ok report' ∧ report'.get? "riders" = report.get? "riders") ↔
      TypesAgree target windowDays history := by
  obtain ⟨w, entrants, records, days, sha, htarget, hsha⟩ := build_ok hbuild
  obtain rfl := (readTarget_history [] htarget).1
  obtain ⟨report₀, hreport₀, hrows⟩ := build_of_target htarget hsha
  obtain rfl : report₀ = report := Except.ok.inj (hreport₀.symm.trans hbuild)
  constructor
  · intro hsame w' entrants' days' htarget' key r hr r' hr' hequal hcounts
    cases htarget.symm.trans htarget'
    have hrowsOf : ∀ history', records.Perm history' →
        entrants.map (formRow ((usables w (group history').conflicts (group history').seen).insertionSort earlier)) =
          entrants.map (formRow ((usables w (group records).conflicts (group records).seen).insertionSort earlier)) := by
      intro history' hperm
      obtain ⟨report', hreport', hriders⟩ := hsame history' hperm
      obtain ⟨report'', hreport'', hrows'⟩ := build_of_target (readTarget_history history' htarget).2 hsha
      cases hreport'.symm.trans hreport''
      rw [hrows, hrows', Option.some.injEq, Json.arr.injEq] at hriders
      exact hriders
    have hfront : ∀ s ∈ recordsOf key records, records.Perm (.obj s :: records.erase (.obj s)) :=
      fun s hs => List.perm_cons_erase (mem_recordsOf hs).1
    -- with `r` first the race counts, so with `r'` first it counts too
    obtain ⟨u, hex, e, he, hobs⟩ := hcounts
    have hequal₁ : ∀ s ∈ recordsOf key (records.erase (.obj r)), pyEq (.obj s) (.obj r) = true := fun s hs =>
      hequal s ((recordsOf_perm key (hfront r hr)).mem_iff.2 (recordsOf_front hr ▸ List.mem_cons_of_mem _ hs))
    obtain ⟨u₁, hu₁, hkey₁, hobs₁⟩ := (counts_iff (P := fun u => (observe e.identity u).isSome = true)).2
      ⟨r, _, recordsOf_front hr, hequal₁, u, hex, hobs⟩
    have hrows₂ := (hrowsOf _ (hfront r hr)).trans (hrowsOf _ (hfront r' hr')).symm
    obtain ⟨u₂, hu₂, hkey₂, hobs₂⟩ := seen_of_rows hrows₂ he ((List.mem_insertionSort _).2 hu₁) hobs₁
    rw [List.mem_insertionSort] at hu₂
    obtain ⟨first, rest, hall, -, u₃, hex₃, -⟩ := (counts_iff (P := fun _ => True)).1 ⟨u₂, hu₂, hkey₂.trans hkey₁, trivial⟩
    rw [recordsOf_front hr'] at hall
    cases hall
    exact intTyped_of_examine hex₃
  · intro htypes history' hperm
    obtain ⟨report', hreport', hrows'⟩ := build_of_target (readTarget_history history' htarget).2 hsha
    refine ⟨report', hreport', ?_⟩
    rw [hrows, hrows', rows_of_views, rows_of_views,
      Sorted.sort_perm (views_perm honce htypes htarget hperm) (Sorted.lex_antisymm (nodup_views w entrants records))]

/-! ## A rank as an integer and as a double -/

/-- A past race whose winner has a rank that is written one way or another. -/
def pastWith (rank : Doc) : Doc :=
  let finished (rank : Doc) : Dict Doc := [("status", .str "FINISHED"), ("finish_rank", rank)]
  .obj [("race_id", .str "past"), ("race_status", .str "completed"), ("race_start_at", .str "2020-01-01T10:00:00+09:00"),
    ("result_available_at", .str "2020-01-01T11:00:00+09:00"), ("identity_evidence", .str "a"), ("result_time_evidence", .str "b"),
    ("source_use_evidence", .str "c"), ("participants", .arr [sampleRider 1 "jka:a" (finished rank),
      sampleRider 2 "jka:b" (finished (.num (.int 2))), sampleRider 3 "jka:c" (finished (.num (.int 3)))])]

/-- One result twice, the rank of the winner written as `1` and as `1.0`. -/
def writtenTwice : List Doc := [pastWith (.num (.int 1)), pastWith (.num (.ofRat 1))]

theorem writtenTwice_once : ∀ r ∈ writtenTwice, r.keysOnce = true := by decide +kernel

theorem reports_writtenTwice : ∃ report report', build sampleTarget (.arr writtenTwice) sampleDays = .ok report ∧
    build sampleTarget (.arr writtenTwice.reverse) sampleDays = .ok report' ∧ report'.get? "riders" ≠ report.get? "riders" := by
  have hdiffer : (build sampleTarget (.arr writtenTwice) sampleDays).toOption.bind (Json.get? · "riders") ≠
      (build sampleTarget (.arr writtenTwice.reverse) sampleDays).toOption.bind (Json.get? · "riders") := by decide +kernel
  have hok : (build sampleTarget (.arr writtenTwice) sampleDays).isOk = true := by decide +kernel
  have hok' : (build sampleTarget (.arr writtenTwice.reverse) sampleDays).isOk = true := by decide +kernel
  cases hbuild : build sampleTarget (.arr writtenTwice) sampleDays with
  | error exc => rw [hbuild] at hok; cases hok
  | ok report =>
    cases hbuild' : build sampleTarget (.arr writtenTwice.reverse) sampleDays with
    | error exc => rw [hbuild'] at hok'; nomatch hok'
    | ok report' =>
      rw [hbuild, hbuild'] at hdiffer
      exact ⟨report, report', rfl, rfl, fun h => hdiffer h.symm⟩

/-- The rows depend on which of two equal records comes first. -/
theorem riders_depend_on_order : ¬∀ (target windowDays report report' : Doc) (history history' : List Doc),
    (∀ r ∈ history, r.keysOnce = true) → history.Perm history' → build target (.arr history) windowDays = .ok report →
    build target (.arr history') windowDays = .ok report' → report'.get? "riders" = report.get? "riders" := by
  intro h
  obtain ⟨report, report', hbuild, hbuild', hdiffer⟩ := reports_writtenTwice
  exact hdiffer (h _ _ _ _ _ _ writtenTwice_once (List.reverse_perm writtenTwice).symm hbuild hbuild')

theorem riders_order_free_sample : ¬TypesAgree sampleTarget sampleDays writtenTwice := by
  intro htypes
  obtain ⟨report, report', hbuild, hbuild', hdiffer⟩ := reports_writtenTwice
  obtain ⟨report'', hbuild'', hsame⟩ :=
    (riders_order_free_iff writtenTwice_once hbuild).2 htypes _ (List.reverse_perm writtenTwice).symm
  cases hbuild'.symm.trans hbuild''
  exact hdiffer hsame

end Keirin.HistoricalForm

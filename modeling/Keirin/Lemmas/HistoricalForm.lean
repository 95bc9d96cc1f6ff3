import Keirin.HistoricalForm
import Keirin.Lemmas.PythonData
import Keirin.Lib.Sorted
import Mathlib.Data.String.Basic

/-!
# What a record adds to the history

A record is grouped with the others of its race and leaves every other race alone (`Agree`). Its own race is used only where
all its records are equal and the first of them passes the checks; the races used, sorted, are those of the other records with
this one race taken out, and the rows of the entrants tell whether it was among those they started in.
-/

namespace Keirin.HistoricalForm

open Doc (int?)

/-! ## Sorting -/

instance : Std.Total earlier where
  total a b := by
    unfold earlier
    rcases lt_trichotomy a.start b.start with h | h | h
    · exact .inl (.inl h)
    · rcases le_total a.key b.key with hk | hk
      · exact .inl (.inr ⟨h, hk⟩)
      · exact .inr (.inr ⟨h.symm, hk⟩)
    · exact .inr (.inl h)

instance : IsTrans Usable earlier where
  trans a b c hab hbc := by
    unfold earlier at *
    rcases hab with hab | ⟨hab, hk⟩ <;> rcases hbc with hbc | ⟨hbc, hk'⟩
    · exact .inl (hab.trans hbc)
    · exact .inl (hab.trans_eq hbc)
    · exact .inl (hab.trans_lt hbc)
    · exact .inr ⟨hab.trans hbc, hk.trans hk'⟩

theorem key_of_earlier {a b : Usable} (hab : earlier a b) (hba : earlier b a) : a.key = b.key := by
  unfold earlier at *
  rcases hab with hab | ⟨hab, hk⟩ <;> rcases hba with hba | ⟨hba, hk'⟩
  · exact absurd (hab.trans hba) (lt_irrefl _)
  · exact absurd hab (hba ▸ lt_irrefl _)
  · exact absurd hba (hab ▸ lt_irrefl _)
  · exact le_antisymm hk hk'

/-- Where every race stands once, leaving races out and sorting can be exchanged. -/
theorem sort_filter (p : Usable → Bool) {races : List Usable} (h : (races.map Usable.key).Nodup) :
    (races.filter p).insertionSort earlier = (races.insertionSort earlier).filter p := by
  have hinj := List.inj_on_of_nodup_map h
  exact Sorted.sort_filter p fun a ha b hb hab hba => hinj ha hb (key_of_earlier hab hba)

/-! ## Grouping -/

theorem group_concat (history : List Doc) (record : Doc) : group (history ++ [record]) = groupRecord (group history) record := by
  simp [group]

/-- The first record of a race stands for it; the race is in conflict when a later record is not equal to the first. -/
theorem group_spec (key : String) (history : List Doc) :
    Dict.get? key (group history).seen = (recordsOf key history).head? ∧
      (key ∈ (group history).conflicts ↔
        ∃ first ∈ (recordsOf key history).head?, ∃ r ∈ (recordsOf key history).tail, Doc.pyEq (.obj r) (.obj first) = false) := by
  induction history using List.reverseRecOn with
  | nil => simp [group, recordsOf, Dict.get?]
  | append_singleton history record ih =>
    obtain ⟨hseen, hconf⟩ := ih
    rw [group_concat, recordsOf_append, recordsOf_singleton]
    cases hr : raceOf record with
    | none => simpa [groupRecord, hr] using ⟨hseen, hconf⟩
    | some kr =>
      obtain ⟨k, fs⟩ := kr
      by_cases hk : k = key
      · subst hk
        cases hall : recordsOf k history with
        | nil =>
          rw [hall] at hseen hconf
          simp only [List.head?_nil, Option.mem_def, reduceCtorEq, false_and, exists_const, iff_false] at hseen hconf
          simp [groupRecord, hr, hseen, hconf, Option.filter]
        | cons first rest =>
          rw [hall] at hseen hconf
          simp only [List.head?_cons, Option.mem_def, Option.some.injEq, exists_eq_left', List.tail_cons] at hseen hconf
          cases heq : Doc.pyEq (.obj fs) (.obj first) with
          | true => simp [groupRecord, hr, hseen, hconf, heq, Option.filter]
          | false => simp [groupRecord, hr, hseen, heq, Option.filter]
      · have hother : Dict.get? key (groupRecord (group history) record).seen = Dict.get? key (group history).seen ∧
            (key ∈ (groupRecord (group history) record).conflicts ↔ key ∈ (group history).conflicts) := by
          cases hget : Dict.get? k (group history).seen with
          | none => simp [groupRecord, hr, hget, Dict.get?_set_of_ne (Ne.symm hk)]
          | some first =>
            cases heq : Doc.pyEq (.obj fs) (.obj first) with
            | true => simp [groupRecord, hr, hget, heq]
            | false => simp [groupRecord, hr, hget, heq, Ne.symm hk]
        rw [hother.1, hother.2, hseen, hconf]
        simp [hk, Option.filter]

/-- Every race stands once. -/
theorem group_nodup (history : List Doc) : ((group history).seen.map Prod.fst).Nodup := by
  induction history using List.reverseRecOn with
  | nil => simp [group]
  | append_singleton history record ih =>
    rw [group_concat]
    unfold groupRecord
    split
    · exact ih
    · split
      · split <;> exact ih
      · exact Dict.nodup_set ih

/-- What is grouped does not depend on what was excluded. -/
theorem foldl_excluded {g : Grouped} (g' : Grouped) (hseen : g'.seen = g.seen) (hconf : g'.conflicts = g.conflicts)
    (history : List Doc) : (history.foldl groupRecord g').seen = (history.foldl groupRecord g).seen ∧
      (history.foldl groupRecord g').conflicts = (history.foldl groupRecord g).conflicts := by
  induction history generalizing g g' with
  | nil => exact ⟨hseen, hconf⟩
  | cons record history ih =>
    refine ih _ ?_ ?_ <;> simp only [groupRecord, hseen] <;> repeat' split
    all_goals simp_all

/-- Two groupings that are the same for every race but one. -/
def Agree (key : String) (g g' : Grouped) : Prop :=
  Dict.pop key g.seen = Dict.pop key g'.seen ∧ ∀ k, k ≠ key → (k ∈ g.conflicts ↔ k ∈ g'.conflicts)

/-- A record leaves the other races as they were. -/
theorem agree_record {key : String} (g : Grouped) {record : Doc} (h : ∀ r, raceOf record = some r → r.1 = key) :
    Agree key g (groupRecord g record) := by
  cases hr : raceOf record with
  | none => exact ⟨by simp [groupRecord, hr], fun k _ => by simp [groupRecord, hr]⟩
  | some r =>
    obtain ⟨k, fs⟩ := r
    obtain rfl : k = key := h _ hr
    cases hget : Dict.get? k g.seen with
    | none => exact ⟨by simp [groupRecord, hr, hget], fun l _ => by simp [groupRecord, hr, hget]⟩
    | some first =>
      cases heq : Doc.pyEq (.obj fs) (.obj first) with
      | true => exact ⟨by simp [groupRecord, hr, hget, heq], fun l _ => by simp [groupRecord, hr, hget, heq]⟩
      | false => exact ⟨by simp [groupRecord, hr, hget, heq], fun l hl => by simp [groupRecord, hr, hget, heq, hl]⟩

theorem Agree.trans {key : String} {g g' g'' : Grouped} (h : Agree key g g') (h' : Agree key g' g'') : Agree key g g'' :=
  ⟨h.1.trans h'.1, fun k hk => (h.2 k hk).trans (h'.2 k hk)⟩

theorem Agree.symm {key : String} {g g' : Grouped} (h : Agree key g g') : Agree key g' g :=
  ⟨h.1.symm, fun k hk => (h.2 k hk).symm⟩

/-- The same record keeps two groupings the same for the other races. -/
theorem Agree.step {key : String} {g g' : Grouped} (h : Agree key g g') (record : Doc) :
    Agree key (groupRecord g record) (groupRecord g' record) := by
  by_cases hown : ∀ r, raceOf record = some r → r.1 = key
  · exact (agree_record g hown).symm.trans (h.trans (agree_record g' hown))
  · push Not at hown
    obtain ⟨⟨k, fs⟩, hr, hk⟩ := hown
    have hget : Dict.get? k g.seen = Dict.get? k g'.seen := by
      rw [← Dict.get?_pop_of_ne hk g.seen, h.1, Dict.get?_pop_of_ne hk]
    cases hfirst : Dict.get? k g'.seen with
    | none =>
      rw [hfirst] at hget
      refine ⟨?_, fun l hl => ?_⟩
      · simp [groupRecord, hr, hget, hfirst, Dict.pop_set_of_ne hk, h.1]
      · simpa [groupRecord, hr, hget, hfirst] using h.2 l hl
    | some first =>
      rw [hfirst] at hget
      cases heq : Doc.pyEq (.obj fs) (.obj first) with
      | true => exact ⟨by simp [groupRecord, hr, hget, hfirst, heq, h.1], fun l hl => by
          simpa [groupRecord, hr, hget, hfirst, heq] using h.2 l hl⟩
      | false => exact ⟨by simp [groupRecord, hr, hget, hfirst, heq, h.1], fun l hl => by
          simp [groupRecord, hr, hget, hfirst, heq, h.2 l hl]⟩

theorem Agree.foldl {key : String} {g g' : Grouped} (h : Agree key g g') (history : List Doc) :
    Agree key (history.foldl groupRecord g) (history.foldl groupRecord g') := by
  induction history generalizing g g' with
  | nil => exact h
  | cons record history ih => exact ih (h.step record)

/-- A record more, wherever it stands, leaves the other races as they were. -/
theorem agree_insert {key : String} {record : Doc} (h : ∀ r, raceOf record = some r → r.1 = key) (before after : List Doc) :
    Agree key (group (before ++ after)) (group (before ++ record :: after)) := by
  simp only [group, List.foldl_append, List.foldl_cons]
  exact (agree_record _ h).foldl after

/-! ## Examining -/

theorem timestamp_str {v : Doc} {t : ℚ} (h : timestamp v = .ok t) : ∃ s, v = .str s := by
  unfold timestamp at h
  split at h
  · exact ⟨_, rfl⟩
  · nomatch h

/-- Whatever is raised is caught. -/
def Caught {α : Type} (x : Except PyError α) : Prop := ∀ exc, x = .error exc → caught exc = true

namespace Caught

variable {α β : Type}

theorem ok (a : α) : Caught (.ok a) := fun _ h => nomatch h

theorem valueError (m : String) : Caught (α := α) (.error (.valueError m)) := by
  rintro exc ⟨⟩
  rfl

theorem bind {x : Except PyError α} {f : α → Except PyError β} (hx : Caught x) (hf : ∀ a, Caught (f a)) : Caught (x >>= f) := by
  intro exc h
  cases x with
  | error e => exact hx exc (by simpa [Bind.bind, Except.bind] using h)
  | ok a => exact hf a exc h

theorem raiseIf {bad : Prop} [Decidable bad] {m : String} : Caught (raiseIf bad (PyError.valueError m)) := by
  unfold Keirin.raiseIf
  split
  · exact valueError m
  · exact ok ()

theorem mapM {f : α → Except PyError β} (hf : ∀ a, Caught (f a)) (xs : List α) : Caught (xs.mapM f) := by
  induction xs with
  | nil => exact ok []
  | cons x xs ih =>
    rw [List.mapM_cons]
    exact bind (hf x) fun y => bind ih fun ys => ok (y :: ys)

theorem timestamp (v : Doc) : Caught (timestamp v) := by
  unfold Keirin.timestamp
  split
  · split
    · exact valueError _
    · split
      · exact valueError _
      · exact ok _
  · exact valueError _

theorem rider (row : Doc) : Caught (rider row) := by
  unfold HistoricalForm.rider
  repeat' split
  all_goals first | exact ok _ | exact valueError _

theorem finishRank (n : ℕ) (p : Rider) : Caught (finishRank n p) := by
  simp only [HistoricalForm.finishRank]
  repeat' split
  all_goals first | exact ok _ | exact valueError _

theorem digest (v : Doc) : Caught (digest v) := by
  refine bind ?_ fun _ => ok _
  unfold Doc.checkFinite
  split
  · rintro exc ⟨⟩
    rfl
  · split
    · exact valueError _
    · exact ok ()

theorem roster (rows : Doc) : Caught (roster rows) := by
  unfold HistoricalForm.roster
  split
  · exact bind raiseIf fun _ => bind (mapM rider _) fun _ => bind raiseIf fun _ => ok _
  · exact valueError _

theorem finishOrder (next : ℤ) (ranks : List (ℤ × ℕ)) : Caught (finishOrder next ranks) := by
  induction ranks generalizing next with
  | nil => exact ok ()
  | cons r ranks ih => exact bind raiseIf fun _ => ih _

/-- Whatever is wrong with a record, the race is excluded and the rest of the history is looked at. -/
theorem examine (w : Window) (conflicts : List String) (key : String) (record : Dict Doc) :
    Caught (examine w conflicts key record) := by
  unfold HistoricalForm.examine
  refine bind raiseIf fun _ => bind raiseIf fun _ => bind raiseIf fun _ => ?_
  refine bind raiseIf fun _ => bind raiseIf fun _ => bind raiseIf fun _ => ?_
  refine bind (timestamp _) fun _ => bind (timestamp _) fun _ => bind raiseIf fun _ => bind raiseIf fun _ => bind raiseIf fun _ => ?_
  exact bind (roster _) fun _ => bind (mapM (finishRank _) _) fun _ => bind (finishOrder _ _) fun _ => bind (digest _) fun _ => ok _

end Caught

/-! ## Rosters -/

theorem eq_of_int? {v : Doc} {n : ℤ} (h : int? v = some n) : v = .num (.int n) := by
  unfold int? at h
  split at h
  · exact congrArg (fun n => Json.num (Scalar.int n)) (Option.some.inj h)
  · nomatch h

/-- What a row of a roster that passes the checks says. -/
theorem rider_ok {x : Doc} {p : Rider} (h : rider x = .ok p) : x = .obj p.row ∧ int? (Dict.getD p.row "car_number" .null) = some p.car ∧
    Doc.text? (Dict.getD p.row "rider_id" .null) = some p.identity ∧ 1 ≤ p.car ∧ p.car ≤ 9 ∧
      isBlank p.identity = false ∧ namespaced p.identity = true := by
  unfold rider at h
  cases x with
  | obj fs =>
    simp only [] at h
    cases hcar : int? (Dict.getD fs "car_number" .null) with
    | none => rw [hcar] at h; nomatch h
    | some car =>
      rw [hcar] at h
      simp only [] at h
      split_ifs at h with hrange
      cases hid : Doc.text? (Dict.getD fs "rider_id" .null) with
      | none => rw [hid] at h; nomatch h
      | some identity =>
        rw [hid] at h
        simp only [] at h
        split_ifs at h with hblank
        cases h
        rw [not_or] at hblank
        exact ⟨rfl, hcar, hid, hrange.1, hrange.2, by simpa using hblank.1, by simpa using hblank.2⟩
  | _ => nomatch h

theorem rider_of {row : Dict Doc} {car : ℤ} {identity : String} (hcar : int? (Dict.getD row "car_number" .null) = some car)
    (hid : Doc.text? (Dict.getD row "rider_id" .null) = some identity) (hrange : 1 ≤ car ∧ car ≤ 9)
    (hblank : isBlank identity = false) (hnamespaced : namespaced identity = true) :
    rider (.obj row) = .ok ⟨car, identity, row⟩ := by
  unfold rider
  simp only [hcar, hid]
  rw [if_neg (not_not.2 hrange), if_neg (by simp [hblank, hnamespaced])]

/-- A roster that passes the checks: its rows, each passing its own, and no car and no identity twice. -/
theorem roster_ok {rows : Doc} {riders : List Rider} (h : roster rows = .ok riders) :
    ∃ xs, rows = .arr xs ∧ (3 ≤ xs.length ∧ xs.length ≤ 9) ∧ xs.mapM rider = .ok riders ∧ (riders.map Rider.car).Nodup ∧
      (riders.map Rider.identity).Nodup := by
  cases rows with
  | arr xs =>
    unfold roster at h
    obtain ⟨hsize, h⟩ := raiseIf_bind_ok.1 h
    obtain ⟨ps, hps, h⟩ := bind_ok.1 h
    obtain ⟨hnodup, h⟩ := raiseIf_bind_ok.1 h
    cases h
    rw [not_or, not_not, not_not] at hnodup
    exact ⟨xs, rfl, not_not.1 hsize, hps, hnodup.1, hnodup.2⟩
  | _ => nomatch h

theorem roster_of {xs : List Doc} {riders : List Rider} (hsize : 3 ≤ xs.length ∧ xs.length ≤ 9) (h : xs.mapM rider = .ok riders)
    (hcars : (riders.map Rider.car).Nodup) (hids : (riders.map Rider.identity).Nodup) : roster (.arr xs) = .ok riders := by
  unfold roster
  refine raiseIf_bind_ok.2 ⟨not_not.2 hsize, bind_ok.2 ⟨riders, h, raiseIf_bind_ok.2 ⟨?_, rfl⟩⟩⟩
  rw [not_or, not_not, not_not]
  exact ⟨hcars, hids⟩

/-! ## Races that count -/

/-- What is known of a race that passes the checks: it is not in conflict, and its result was available before the cutoff. -/
theorem examine_ok {w : Window} {conflicts : List String} {key : String} {record : Dict Doc} {u : Usable}
    (h : examine w conflicts key record = .ok u) :
    u.key = key ∧ key ∉ conflicts ∧ (∃ t, timestamp (Dict.getD record "result_available_at" .null) = .ok t ∧ t < w.cutoff) := by
  simp only [examine, raiseIf_bind_ok] at h
  obtain ⟨-, hconf, -, -, -, -, h⟩ := h
  obtain ⟨start, -, h⟩ := bind_ok.1 h
  obtain ⟨available, havail, h⟩ := bind_ok.1 h
  simp only [raiseIf_bind_ok] at h
  obtain ⟨-, -, hlate, h⟩ := h
  obtain ⟨participants, -, h⟩ := bind_ok.1 h
  obtain ⟨ranks, -, h⟩ := bind_ok.1 h
  obtain ⟨-, -, h⟩ := bind_ok.1 h
  obtain ⟨sha, -, h⟩ := bind_ok.1 h
  cases h
  exact ⟨rfl, hconf, available, havail, not_le.1 hlate⟩

/-- The checks look at the conflicts only for the race's own key. -/
theorem examine_congr {w : Window} {c c' : List String} {key : String} {record : Dict Doc} (h : key ∈ c ↔ key ∈ c') :
    examine w c key record = examine w c' key record := by
  simp only [examine, h]

/-- The races that pass the checks. -/
def usables (w : Window) (conflicts : List String) (seen : Dict (Dict Doc)) : List Usable :=
  seen.filterMap fun e => (examine w conflicts e.1 e.2).toOption

theorem sift_eq (w : Window) (conflicts : List String) (seen : Dict (Dict Doc)) :
    ∃ rejected, sift w conflicts seen = .ok (usables w conflicts seen, rejected) := by
  induction seen with
  | nil => exact ⟨[], rfl⟩
  | cons e seen ih =>
    obtain ⟨key, record⟩ := e
    obtain ⟨rejected, hrest⟩ := ih
    cases hex : examine w conflicts key record with
    | ok u => exact ⟨rejected, by simp [sift, hex, hrest, usables, Except.map, Except.toOption]⟩
    | error exc =>
      exact ⟨exclusion (.str key) exc.text :: rejected, by
        simp [sift, hex, Caught.examine w conflicts key record exc hex, hrest, usables, Except.map, Except.toOption]⟩

theorem mem_usables {w : Window} {conflicts : List String} {seen : Dict (Dict Doc)} {u : Usable} :
    u ∈ usables w conflicts seen ↔ ∃ key record, (key, record) ∈ seen ∧ examine w conflicts key record = .ok u := by
  unfold usables
  rw [List.mem_filterMap]
  constructor
  · rintro ⟨⟨key, record⟩, hmem, hex⟩
    refine ⟨key, record, hmem, ?_⟩
    cases h : examine w conflicts key record with
    | ok v => simp [h, Except.toOption] at hex; rw [hex]
    | error e => simp [h, Except.toOption] at hex
  · rintro ⟨key, record, hmem, hex⟩
    exact ⟨(key, record), hmem, by simp [hex, Except.toOption]⟩

/-- Every race counts once. -/
theorem nodup_usables {w : Window} {conflicts : List String} {seen : Dict (Dict Doc)} (h : (seen.map Prod.fst).Nodup) :
    ((usables w conflicts seen).map Usable.key).Nodup := by
  have hsub : ((usables w conflicts seen).map Usable.key).Sublist (seen.map Prod.fst) := by
    induction seen with
    | nil => exact List.Sublist.slnil
    | cons e seen ih =>
      obtain ⟨key, record⟩ := e
      rw [List.map_cons, List.nodup_cons] at h
      cases hex : examine w conflicts key record with
      | ok u =>
        simp only [usables, List.filterMap_cons, hex, Except.toOption, List.map_cons, (examine_ok hex).1]
        exact (ih h.2).cons_cons key
      | error exc =>
        simp only [usables, List.filterMap_cons, hex, Except.toOption, List.map_cons]
        exact (ih h.2).cons key
  exact h.sublist hsub

/-- The races but one that pass the checks, after a record of that one race was added. -/
theorem usables_agree {w : Window} {key : String} {g g' : Grouped} (h : Agree key g g') :
    (usables w g.conflicts g.seen).filter (fun u => u.key ≠ key) = (usables w g'.conflicts g'.seen).filter (fun u => u.key ≠ key) := by
  have hpop : ∀ (c : List String) (seen : Dict (Dict Doc)),
      (usables w c seen).filter (fun u => u.key ≠ key) = usables w c (Dict.pop key seen) := by
    intro c seen
    induction seen with
    | nil => rfl
    | cons e seen ih =>
      obtain ⟨k, record⟩ := e
      have hcons : usables w c ((k, record) :: seen) = (examine w c k record).toOption.toList ++ usables w c seen := by
        cases hex : examine w c k record <;> simp [usables, hex, Except.toOption]
      cases hex : examine w c k record with
      | ok u =>
        rw [hcons, hex, List.filter_append, ih]
        have hu := (examine_ok hex).1
        by_cases hk : k = key
        · simp [Dict.pop, Except.toOption, hu, hk]
        · simp [usables, Dict.pop, Except.toOption, hex, hu, hk]
      | error exc =>
        rw [hcons, hex, List.filter_append, ih]
        by_cases hk : k = key
        · simp [Dict.pop, Except.toOption, hk]
        · simp [usables, Dict.pop, Except.toOption, hex, hk]
  rw [hpop, hpop, h.1]
  refine List.filterMap_congr fun e he => ?_
  have hne : e.1 ≠ key := by
    simp only [Dict.pop, List.mem_filter] at he
    simpa using he.2
  rw [examine_congr (h.2 e.1 hne)]

/-- When a race counts: all its records are equal, and the first passes the checks. -/
theorem counts_iff {w : Window} {key : String} {history : List Doc} {P : Usable → Prop} :
    (∃ u ∈ usables w (group history).conflicts (group history).seen, u.key = key ∧ P u) ↔
      ∃ first rest, recordsOf key history = first :: rest ∧ (∀ r ∈ rest, Doc.pyEq (.obj r) (.obj first) = true) ∧
        ∃ u, examine w [] key first = .ok u ∧ P u := by
  obtain ⟨hseen, hconf⟩ := group_spec key history
  constructor
  · rintro ⟨u, hu, hkey, hP⟩
    obtain ⟨k, first, hmem, hex⟩ := mem_usables.1 hu
    obtain ⟨hk, hfree, -⟩ := examine_ok hex
    obtain rfl : k = key := hk.symm.trans hkey
    have hget := Dict.get?_of_mem (group_nodup history) hmem
    rw [hseen] at hget
    cases hall : recordsOf k history with
    | nil => rw [hall] at hget; nomatch hget
    | cons f rest =>
      rw [hall, List.head?_cons, Option.some.injEq] at hget
      subst hget
      refine ⟨f, rest, rfl, fun r hr => ?_, u, ?_, hP⟩
      · by_contra hne
        exact hfree (hconf.2 ⟨f, by simp [hall], r, by simpa [hall] using hr, by simpa using hne⟩)
      · rw [← hex]
        exact examine_congr (by simpa using hfree)
  · rintro ⟨first, rest, hall, heq, u, hex, hP⟩
    have hfree : key ∉ (group history).conflicts := by
      rw [hconf, hall]
      rintro ⟨f, hf, r, hr, hne⟩
      obtain rfl : first = f := by simpa using hf
      rw [heq r (by simpa using hr)] at hne
      nomatch hne
    have hget : Dict.get? key (group history).seen = some first := by rw [hseen, hall]; rfl
    refine ⟨u, mem_usables.2 ⟨key, first, Dict.mem_of_get? hget, ?_⟩, (examine_ok hex).1, hP⟩
    rw [← hex]
    exact examine_congr (by simpa using hfree)

/-- A race does not count where one of its records came after the cutoff: either it is the record that is looked at, or it is equal
to that one, or the race is in conflict. -/
theorem not_counts_of_late {w : Window} (before after : List Doc) {record : Doc} {key : String} {own : Dict Doc} {t : ℚ}
    (hrace : raceOf record = some (key, own)) (ht : timestamp (Dict.getD own "result_available_at" .null) = .ok t)
    (hlate : w.cutoff ≤ t) :
    ∀ u ∈ usables w (group (before ++ record :: after)).conflicts (group (before ++ record :: after)).seen, u.key ≠ key := by
  intro u hu hkey
  obtain ⟨first, rest, hall, heq, v, hex, -⟩ := (counts_iff (P := fun _ => True)).1 ⟨u, hu, hkey, trivial⟩
  have hown : own = first ∨ own ∈ rest := by
    have hmem : own ∈ recordsOf key (before ++ record :: after) := by
      rw [List.append_cons, recordsOf_append, recordsOf_append, recordsOf_singleton, hrace]
      simp [Option.filter]
    simpa [hall] using hmem
  obtain ⟨-, -, t', ht', hearly⟩ := examine_ok hex
  have hsame : Dict.getD first "result_available_at" .null = Dict.getD own "result_available_at" .null := by
    rcases hown with rfl | hown
    · rfl
    · obtain ⟨s, hs⟩ := timestamp_str ht
      have hget : Dict.get? "result_available_at" own = some (.str s) := by
        unfold Dict.getD at hs
        cases h : Dict.get? "result_available_at" own with
        | none => rw [h] at hs; nomatch hs
        | some v => rw [h] at hs; exact congrArg some hs
      rw [Dict.getD, Dict.getD, hget, Doc.get?_str_of_pyEq (heq own hown) hget]
  rw [hsame, ht, Except.ok.injEq] at ht'
  subst ht'
  exact absurd hearly (not_lt.2 hlate)

/-! ## The rows of the entrants -/

/-- The races in the row of an entrant. -/
theorem ids_of_formRow (usable : List Usable) (entrant : Rider) :
    (formRow usable entrant).get? "history_race_ids" =
      some (.arr ((usable.filter fun u => (observe entrant.identity u).isSome).map fun u => .str u.key)) := by
  have hids : ((usable.filterMap fun u => (observe entrant.identity u).map fun p => (u.key, p)).map fun o => Json.str (ν := Scalar) o.1) =
      (usable.filter fun u => (observe entrant.identity u).isSome).map fun u => .str u.key := by
    induction usable with
    | nil => rfl
    | cons u usable ih => cases h : observe entrant.identity u <;> simp_all
  rw [← hids]
  rfl

/-- The row of an entrant does not depend on a race in which he did not start. -/
theorem formRow_filter {usable : List Usable} {entrant : Rider} {p : Usable → Bool}
    (h : ∀ u ∈ usable, p u = false → observe entrant.identity u = none) :
    formRow (usable.filter p) entrant = formRow usable entrant := by
  have hobs : ((usable.filter p).filterMap fun u => (observe entrant.identity u).map fun p => (u.key, p)) =
      usable.filterMap fun u => (observe entrant.identity u).map fun p => (u.key, p) := by
    induction usable with
    | nil => rfl
    | cons u usable ih =>
      have hrest := ih fun v hv => h v (List.mem_cons_of_mem _ hv)
      cases hp : p u with
      | true => rw [List.filter_cons_of_pos hp, List.filterMap_cons, List.filterMap_cons, hrest]
      | false => simpa [hp, h u (List.mem_cons_self ..) hp] using hrest
  unfold formRow
  rw [hobs]

/-- The rows stay the same without one race exactly when no entrant started in it. -/
theorem rows_eq_iff {usable : List Usable} {entrants : List Rider} {key : String} :
    entrants.map (formRow (usable.filter fun u => u.key ≠ key)) = entrants.map (formRow usable) ↔
      ¬∃ u ∈ usable, u.key = key ∧ ∃ e ∈ entrants, (observe e.identity u).isSome = true := by
  constructor
  · rintro heq ⟨u, hu, hkey, e, he, hobs⟩
    have hrow := List.map_inj_left.1 heq e he
    have hids := congrArg (Json.get? · "history_race_ids") hrow
    simp only [ids_of_formRow, Option.some.injEq, Json.arr.injEq] at hids
    have hmem : Json.str key ∈ (usable.filter fun u => (observe e.identity u).isSome).map fun u => Json.str (ν := Scalar) u.key :=
      List.mem_map.2 ⟨u, List.mem_filter.2 ⟨hu, hobs⟩, by rw [hkey]⟩
    rw [← hids] at hmem
    obtain ⟨v, hv, hvk⟩ := List.mem_map.1 hmem
    rw [List.mem_filter, List.mem_filter] at hv
    have hne : v.key ≠ key := by simpa using hv.1.2
    exact hne (by simpa using hvk)
  · intro hnone
    refine List.map_congr_left fun e he => formRow_filter fun u hu hkey => ?_
    cases hobs : observe e.identity u with
    | none => rfl
    | some p => exact absurd ⟨u, hu, by simpa using hkey, e, he, by simp [hobs]⟩ hnone

/-! ## The report -/

/-- The checks on the target do not look into the history. -/
theorem readTarget_history {target windowDays : Doc} {history : List Doc} (history' : List Doc) {w : Window}
    {entrants : List Rider} {records : List Doc} {days : ℤ} (h : readTarget target (.arr history) windowDays = .ok (w, entrants, records, days)) :
    records = history ∧ readTarget target (.arr history') windowDays = .ok (w, entrants, history', days) := by
  unfold readTarget at h ⊢
  obtain ⟨d, hd, h⟩ := bind_ok.1 h
  obtain ⟨raceId, hrace, h⟩ := bind_ok.1 h
  obtain ⟨rs, hrs, h⟩ := bind_ok.1 h
  simp only [raiseIf_bind_ok] at h
  obtain ⟨hid, hentry, h⟩ := h
  obtain ⟨cutoff, hcutoff, h⟩ := bind_ok.1 h
  obtain ⟨scheduled, hscheduled, h⟩ := bind_ok.1 h
  simp only [raiseIf_bind_ok] at h
  obtain ⟨hstart, h⟩ := h
  obtain ⟨riders, hriders, h⟩ := bind_ok.1 h
  obtain ⟨span, hspan, h⟩ := bind_ok.1 h
  cases h
  cases hrs
  refine ⟨rfl, bind_ok.2 ⟨_, hd, bind_ok.2 ⟨raceId, hrace, bind_ok.2 ⟨history', rfl, ?_⟩⟩⟩⟩
  refine raiseIf_bind_ok.2 ⟨hid, raiseIf_bind_ok.2 ⟨hentry, bind_ok.2 ⟨cutoff, hcutoff, bind_ok.2 ⟨scheduled, hscheduled, ?_⟩⟩⟩⟩
  exact raiseIf_bind_ok.2 ⟨hstart, bind_ok.2 ⟨_, hriders, bind_ok.2 ⟨_, hspan, rfl⟩⟩⟩

/-- What the checks on the target found. -/
theorem readTarget_ok {target history windowDays : Doc} {w : Window} {entrants : List Rider} {records : List Doc} {days : ℤ}
    (h : readTarget target history windowDays = .ok (w, entrants, records, days)) :
    history = .arr records ∧ timestamp (target.field "feature_as_of") = .ok w.cutoff := by
  unfold readTarget at h
  obtain ⟨d, -, h⟩ := bind_ok.1 h
  obtain ⟨raceId, -, h⟩ := bind_ok.1 h
  obtain ⟨rs, hrs, h⟩ := bind_ok.1 h
  simp only [raiseIf_bind_ok] at h
  obtain ⟨-, -, h⟩ := h
  obtain ⟨cutoff, hcutoff, h⟩ := bind_ok.1 h
  obtain ⟨scheduled, -, h⟩ := bind_ok.1 h
  simp only [raiseIf_bind_ok] at h
  obtain ⟨-, h⟩ := h
  obtain ⟨riders, -, h⟩ := bind_ok.1 h
  obtain ⟨span, -, h⟩ := bind_ok.1 h
  cases h
  refine ⟨?_, hcutoff⟩
  cases history with
  | arr xs => rw [Option.some.inj (require_ok.1 hrs)]
  | _ => nomatch hrs

/-- The rows of the entrants, where the report is made. -/
theorem build_of_target {target windowDays : Doc} {history : List Doc} {w : Window} {entrants : List Rider} {days : ℤ}
    {sha : String} (htarget : readTarget target (.arr history) windowDays = .ok (w, entrants, history, days))
    (hsha : digest target = .ok sha) :
    ∃ report, build target (.arr history) windowDays = .ok report ∧ report.get? "riders" =
      some (.arr (entrants.map (formRow ((usables w (group history).conflicts (group history).seen).insertionSort earlier)))) := by
  obtain ⟨rejected, hsift⟩ := sift_eq w (group history).conflicts (group history).seen
  unfold build
  simp only [htarget, hsift, hsha, bind, Except.bind]
  exact ⟨_, rfl, rfl⟩

theorem build_ok {target history windowDays report : Doc} (h : build target history windowDays = .ok report) :
    ∃ w entrants records days sha, readTarget target history windowDays = .ok (w, entrants, records, days) ∧
      digest target = .ok sha := by
  unfold build at h
  obtain ⟨⟨w, entrants, records, days⟩, htarget, h⟩ := bind_ok.1 h
  obtain ⟨sifted, -, h⟩ := bind_ok.1 h
  obtain ⟨sha, hsha, -⟩ := bind_ok.1 h
  exact ⟨w, entrants, records, days, sha, htarget, hsha⟩

end Keirin.HistoricalForm

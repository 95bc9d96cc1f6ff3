import Keirin.Lemmas.PythonData
import Keirin.Lib.Returns
import Keirin.RaceDataContract

/-!
# What accepted race data has

Data of a race that is accepted has riders with distinct cars, and every value the check read has a text. A value has a number
exactly when it has a text.
-/

namespace Keirin

namespace RaceDataContract

open JsVal JsFloat

/-! ## Values that have a text -/

theorem returns_number {v : JsVal} : Returns (number v) ↔ Textual v := number_ok v

theorem textual_of_nullish {v : JsVal} (h : isNullish v = true) : Textual v := by
  cases v with
  | none => exact ⟨"undefined", rfl⟩
  | some v =>
    cases v with
    | null => exact ⟨"null", by rw [JsVal.text, docText]⟩
    | _ => nomatch h

theorem textual_str (s : String) : Textual (some (.str s)) := ⟨s, by rw [JsVal.text, docText]⟩

theorem returns_isFiniteNumber {v : JsVal} : Returns (isFiniteNumber v) ↔ Textual v := by
  unfold isFiniteNumber
  split
  · exact ⟨fun _ => textual_of_nullish rfl, fun _ => returns_ok _⟩
  · refine ⟨fun _ => textual_str _, fun _ => ?_⟩
    split
    · exact returns_ok _
    · exact returns_map.2 (returns_number.2 (textual_str _))
  · rw [if_neg Bool.false_ne_true, returns_map, returns_number]

theorem textual_of_numericErrors {i : ℕ} {key : String} {v : JsVal} (h : Returns (numericErrors i key v)) : Textual v := by
  unfold numericErrors at h
  split at h
  · exact textual_of_nullish ‹_›
  · rwa [returns_map, returns_isFiniteNumber] at h

theorem textual_of_positiveErrors {message : String} {v : JsVal} (h : Returns (positiveErrors v message)) : Textual v := by
  unfold positiveErrors integer? at h
  split at h
  · exact textual_of_nullish ‹_›
  · rwa [returns_map, returns_map, returns_number] at h

/-! ## Accepted riders -/

/-- What the check of a rider leaves true of one it accepts. -/
structure RiderOk (p : JsDoc) : Prop where
  name : ∃ s, field p "name" = some (.str s)
  style : ∃ s ∈ validStyles, field p "style" = some (.str s)
  number : ∀ key ∈ ["car_number", "race_score", "S", "H", "B", "line_position", "line_length"], Textual (field p key)

/-- The car of a rider, a positive integer. -/
def CarOf (p : JsDoc) (car : JsFloat) : Prop := number (field p "car_number") = .ok car ∧ car.int?.any (1 ≤ ·) = true

/-- A rider without errors is accepted, and its car joins those before it. -/
theorem playerErrors_nil {i : ℕ} {cars cars' : List JsFloat} {p : Dict JsDoc} (h : playerErrors i cars p = .ok (cars', [])) :
    RiderOk (.obj p) ∧ ∃ car, CarOf (.obj p) car ∧ car ∉ cars ∧ cars' = cars ++ [car] := by
  obtain ⟨car, hcar, h⟩ := bind_ok.1 h
  obtain ⟨numeric, hnumeric, h⟩ := bind_ok.1 h
  obtain ⟨negative, _, h⟩ := bind_ok.1 h
  obtain ⟨position, hposition, h⟩ := bind_ok.1 h
  obtain ⟨length, hlength, h⟩ := bind_ok.1 h
  obtain ⟨hcars, herrors⟩ := Prod.mk.inj (Except.ok.inj h)
  simp only [List.append_eq_nil_iff] at herrors
  obtain ⟨⟨⟨⟨⟨⟨hcarErrors, hname⟩, hstyle⟩, -⟩, -⟩, -⟩, -⟩ := herrors
  have hread : ∀ key ∈ ["race_score", "S", "H", "B"], Textual (Dict.get? key p) := fun key hkey =>
    textual_of_numericErrors (returns_mapM.1 ⟨numeric, hnumeric⟩ key hkey)
  refine ⟨⟨?_, ?_, ?_⟩, ?_⟩
  · cases hn : Dict.get? "name" p with
    | none => simp [hn] at hname
    | some v =>
      cases v with
      | str s => exact ⟨s, hn⟩
      | _ => simp [hn] at hname
  · cases hs : Dict.get? "style" p with
    | none => simp [hs] at hstyle
    | some v =>
      cases v with
      | str s =>
        by_cases hv : s ∈ validStyles
        · exact ⟨s, hv, hs⟩
        · simp [hs, hv] at hstyle
      | _ => simp [hs] at hstyle
  · intro key hkey
    simp only [List.mem_cons, List.not_mem_nil, or_false] at hkey
    rcases hkey with rfl | rfl | rfl | rfl | rfl | rfl | rfl
    · exact returns_number.1 ⟨car, hcar⟩
    · exact hread _ (by simp)
    · exact hread _ (by simp)
    · exact hread _ (by simp)
    · exact hread _ (by simp)
    · exact textual_of_positiveErrors ⟨position, hposition⟩
    · exact textual_of_positiveErrors ⟨length, hlength⟩
  · cases hint : car.int?.any (1 ≤ ·) with
    | false =>
      rw [hint] at hcarErrors
      cases hcarErrors
    | true =>
      rw [hint] at hcarErrors hcars
      change (if car ∈ cars then _ else _ : List JsFloat × List String).2 = [] at hcarErrors
      change (if car ∈ cars then _ else _ : List JsFloat × List String).1 = cars' at hcars
      by_cases hmem : car ∈ cars
      · rw [if_pos hmem] at hcarErrors
        cases hcarErrors
      · rw [if_neg hmem] at hcars
        exact ⟨car, ⟨hcar, hint⟩, hmem, hcars.symm⟩

/-- Riders without errors are accepted, and their cars are distinct. -/
theorem playersErrors_nil {ps : List JsDoc} {i : ℕ} {cars cars' : List JsFloat} (h : playersErrors i cars ps = .ok (cars', []))
    (hcars : cars.Nodup) :
    (∀ p ∈ ps, RiderOk p) ∧ ∃ added, cars' = cars ++ added ∧ List.Forall₂ CarOf ps added ∧ (cars ++ added).Nodup := by
  induction ps generalizing i cars with
  | nil =>
    obtain ⟨rfl, -⟩ := Prod.mk.inj (Except.ok.inj h)
    exact ⟨nofun, [], by simp, .nil, by simpa using hcars⟩
  | cons p ps ih =>
    cases p with
    | obj fs =>
      obtain ⟨⟨cars₁, errors⟩, h₁, h⟩ := bind_ok.1 h
      obtain ⟨⟨cars₂, rest⟩, h₂, h⟩ := bind_ok.1 h
      obtain ⟨rfl, hnil⟩ := Prod.mk.inj (Except.ok.inj h)
      obtain ⟨rfl, rfl⟩ := List.append_eq_nil_iff.1 hnil
      obtain ⟨hok, car, hcar, hnew, rfl⟩ := playerErrors_nil h₁
      have hnodup : (cars ++ [car]).Nodup := List.nodup_append.2 ⟨hcars, List.nodup_singleton _, by
        intro a ha b hb hab
        rw [List.mem_singleton] at hb
        exact hnew (hb ▸ hab ▸ ha)⟩
      obtain ⟨hall, added, rfl, hadded, hdistinct⟩ := ih h₂ hnodup
      refine ⟨List.forall_mem_cons.2 ⟨hok, hall⟩, car :: added, by simp, .cons hcar hadded, ?_⟩
      simpa using hdistinct
    | _ =>
      obtain ⟨⟨cars₂, rest⟩, h₂, h⟩ := bind_ok.1 h
      exact absurd (Prod.mk.inj (Except.ok.inj h)).2 (List.cons_ne_nil _ _)

/-! ## Accepted odds -/

/-- What the check of an entry of the odds leaves true of one it accepts. -/
structure EntryOk (cars : List JsFloat) (entry : String × JsDoc) : Prop where
  named : ∃ a b c, keyCars entry.1 = some (a, b, c) ∧ [a, b, c].Nodup ∧ (cars ≠ [] → a ∈ cars ∧ b ∈ cars ∧ c ∈ cars)
  positive : ∃ x, number (some entry.2) = .ok x ∧ x.isFinite = true ∧ JsFloat.le x zero = false
  present : isNullish (some entry.2) = false

/-- A finite number is one of a value that is there. -/
theorem isFiniteNumber_true {v : JsVal} (h : isFiniteNumber v = .ok true) :
    isNullish v = false ∧ ∃ x, number v = .ok x ∧ x.isFinite = true := by
  have hread : (number v).map JsFloat.isFinite = .ok true ∧ v ≠ some .null := by
    unfold isFiniteNumber at h
    split at h
    · nomatch Except.ok.inj h
    · split at h
      · nomatch Except.ok.inj h
      · exact ⟨h, nofun⟩
    · rename_i hnull _
      exact ⟨h, hnull⟩
  obtain ⟨hmap, hnull⟩ := hread
  cases hn : number v with
  | error e =>
    rw [hn] at hmap
    nomatch hmap
  | ok x =>
    rw [hn] at hmap
    have hfin : x.isFinite = true := Except.ok.inj hmap
    refine ⟨?_, x, rfl, hfin⟩
    cases v with
    | none =>
      cases Except.ok.inj hn
      nomatch hfin
    | some v =>
      cases v with
      | null => exact absurd rfl hnull
      | _ => rfl

theorem entryErrors_nil {cars : List JsFloat} {key : String} {value : JsDoc} (h : entryErrors cars key value = .ok []) :
    EntryOk cars (key, value) := by
  unfold entryErrors at h
  split at h
  · nomatch Except.ok.inj h
  rename_i a b c hkey
  obtain ⟨finite, hfinite, h⟩ := bind_ok.1 h
  cases finite with
  | false =>
    have h := Except.ok.inj h
    simp at h
  | true =>
    obtain ⟨hpresent, x, hx, hxfin⟩ := isFiniteNumber_true hfinite
    obtain ⟨positive, hpositive, h⟩ := bind_ok.1 h
    have h := Except.ok.inj h
    simp only [List.append_eq_nil_iff] at h
    obtain ⟨⟨hdistinct, hknown⟩, hpos⟩ := h
    rw [hx] at hpositive
    cases Except.ok.inj hpositive
    refine ⟨⟨a, b, c, hkey, ?_, ?_⟩, ⟨x, hx, hxfin, ?_⟩, hpresent⟩
    · by_contra hdup
      have hlength : [a, b, c].dedup.length ≠ 3 := by
        intro hlen
        have hsame : [a, b, c].dedup = [a, b, c] := (List.dedup_sublist _).eq_of_length hlen
        exact hdup (List.dedup_eq_self.1 hsame)
      rw [if_pos hlength] at hdistinct
      nomatch hdistinct
    · intro hne
      by_cases hout : ∃ car ∈ [a, b, c], car ∉ cars
      · rw [if_pos ⟨hne, hout⟩] at hknown
        nomatch hknown
      · push Not at hout
        exact ⟨hout a (by simp), hout b (by simp), hout c (by simp)⟩
    · cases hle : JsFloat.le x zero with
      | false => rfl
      | true => simp [hle] at hpos

/-- Odds without errors have accepted entries. -/
theorem oddsErrors_nil {cars : List JsFloat} {d : Dict JsDoc} (h : oddsErrors cars (Dict.get? "odds" d) = .ok []) :
    ∀ entry ∈ trifectaOf d, EntryOk cars entry := by
  intro entry hentry
  unfold trifectaOf at hentry
  cases hodds : Dict.get? "odds" d with
  | none =>
    rw [hodds] at hentry
    nomatch hentry
  | some odds =>
    rw [hodds] at hentry h
    cases odds with
    | obj os =>
      cases htrifecta : Dict.get? "trifecta" os with
      | none =>
        simp only [htrifecta] at hentry
        nomatch hentry
      | some v =>
        cases v with
        | obj entries =>
          simp only [htrifecta] at hentry
          simp only [oddsErrors, htrifecta] at h
          cases hall : entries.mapM fun e => entryErrors cars e.1 e.2 with
          | error e =>
            rw [hall] at h
            nomatch h
          | ok errors =>
            rw [hall] at h
            have hnil : errors.flatten = [] := Except.ok.inj h
            obtain ⟨es, hes, hmem⟩ := exists_of_mem_left (mapM_ok_iff.1 hall) hentry
            rw [List.flatten_eq_nil_iff.1 hnil es hes] at hmem
            exact entryErrors_nil hmem
        | _ =>
          simp only [htrifecta] at hentry
          nomatch hentry
    | _ => nomatch hentry

/-! ## Accepted data -/

/-- Errors without repetition are none when there are none. -/
theorem eraseDups_eq_nil {xs : List String} : xs.eraseDups = [] ↔ xs = [] := by
  cases xs with
  | nil => simp
  | cons x xs => simp [List.eraseDups_cons]

/-- What the check leaves true of race data it accepts. -/
structure Accepted (d : Dict JsDoc) (ps : List JsDoc) (cars : List JsFloat) : Prop where
  players : Dict.get? "players" d = some (.arr ps)
  enough : 4 ≤ ps.length
  riders : ∀ p ∈ ps, RiderOk p
  carsOf : List.Forall₂ CarOf ps cars
  distinct : cars.Nodup
  odds : ∀ entry ∈ trifectaOf d, EntryOk cars entry
  context : contextErrors (Dict.get? "prediction_context" d) = []

theorem ridersErrors_nil {v : JsVal} {cars : List JsFloat} (h : ridersErrors v = .ok (cars, [])) :
    ∃ ps, v = some (.arr ps) ∧ 4 ≤ ps.length ∧ (∀ p ∈ ps, RiderOk p) ∧ List.Forall₂ CarOf ps cars ∧ cars.Nodup := by
  unfold ridersErrors at h
  split at h
  · rename_i ps
    split at h
    · nomatch (Prod.mk.inj (Except.ok.inj h)).2
    · rename_i hlen
      obtain ⟨hok, added, rfl, hadded, hdistinct⟩ := playersErrors_nil h List.nodup_nil
      exact ⟨ps, rfl, not_lt.1 hlen, hok, hadded, hdistinct⟩
  · nomatch (Prod.mk.inj (Except.ok.inj h)).2

theorem Accepted.playersOf_eq {d : Dict JsDoc} {ps : List JsDoc} {cars : List JsFloat} (h : Accepted d ps cars) : playersOf d = ps := by
  unfold playersOf
  rw [h.players]

/-- Race data without errors is an object with accepted riders and odds. -/
theorem validateRaceData_nil {input : JsDoc} (h : validateRaceData input = .ok []) :
    ∃ d ps cars, input = .obj d ∧ Accepted d ps cars := by
  cases input with
  | obj d =>
    obtain ⟨⟨cars, players⟩, hplayers, h⟩ := bind_ok.1 h
    obtain ⟨odds, hodds, h⟩ := bind_ok.1 h
    have hnil := eraseDups_eq_nil.1 (Except.ok.inj h)
    simp only [List.append_eq_nil_iff] at hnil
    obtain ⟨⟨⟨⟨-, -⟩, rfl⟩, rfl⟩, hcontext⟩ := hnil
    obtain ⟨ps, hps, hlen, hok, hcars, hdistinct⟩ := ridersErrors_nil hplayers
    exact ⟨d, ps, cars, rfl, ⟨hps, hlen, hok, hcars, hdistinct, oddsErrors_nil hodds, hcontext⟩⟩
  | _ => nomatch Except.ok.inj h

/-! ## The odds filter -/

theorem returns_sourceText {context : JsVal} : Returns (sourceText context) ↔ Textual (orProp context "source") := by
  have hnone : Returns (.ok "" : JsResult String) ↔ Textual none := ⟨fun _ => textual_of_nullish rfl, fun _ => returns_ok _⟩
  cases context with
  | none => exact hnone
  | some v =>
    cases v with
    | obj c =>
      unfold sourceText orProp
      dsimp only
      split
      · exact ⟨fun _ => textual_of_nullish ‹_›, fun _ => returns_ok _⟩
      · rfl
    | _ => exact hnone

theorem returns_isUnbet {value : JsDoc} : Returns (isUnbet value) ↔ Textual (some value) := by
  rw [isUnbet, returns_map, returns_number]

/-- Leaving out entries of the odds leaves accepted data accepted. -/
theorem Accepted.keepOdds {d odds entries kept : Dict JsDoc} {ps : List JsDoc} {cars : List JsFloat} (h : Accepted d ps cars)
    (hodds : Dict.get? "odds" d = some (.obj odds)) (hentries : Dict.get? "trifecta" odds = some (.obj entries))
    (hkept : kept.Sublist entries) :
    Accepted (Dict.set "odds" (.obj (Dict.set "trifecta" (.obj kept) odds)) d) ps cars ∧
      (trifectaOf (Dict.set "odds" (.obj (Dict.set "trifecta" (.obj kept) odds)) d)).Sublist (trifectaOf d) := by
  have hbefore : trifectaOf d = entries := by simp only [trifectaOf, hodds, hentries]
  have hafter : trifectaOf (Dict.set "odds" (.obj (Dict.set "trifecta" (.obj kept) odds)) d) = kept := by
    simp only [trifectaOf, Dict.get?_set_self]
  refine ⟨⟨?_, h.enough, h.riders, h.carsOf, h.distinct, ?_, ?_⟩, ?_⟩
  · rw [Dict.get?_set_of_ne (by decide)]
    exact h.players
  · intro entry hentry
    rw [hafter] at hentry
    exact h.odds entry (hbefore ▸ hkept.subset hentry)
  · rw [Dict.get?_set_of_ne (by decide)]
    exact h.context
  · rw [hbefore, hafter]
    exact hkept

/-- The filter leaves accepted data accepted, and only leaves entries of the odds out. -/
theorem Accepted.sanitize {d : Dict JsDoc} {ps : List JsDoc} {cars : List JsFloat} {out : JsDoc} {report : OddsReport}
    (h : Accepted d ps cars) (hout : sanitizeKnownOdds (.obj d) = .ok (out, report)) :
    ∃ d', out = .obj d' ∧ Accepted d' ps cars ∧ (trifectaOf d').Sublist (trifectaOf d) := by
  unfold sanitizeKnownOdds at hout
  obtain ⟨source, -, hout⟩ := bind_ok.1 hout
  dsimp only at hout
  have same : ∀ {r : OddsReport}, (Except.ok (.obj d, r) : JsResult (JsDoc × OddsReport)) = .ok (out, report) →
      ∃ d', out = .obj d' ∧ Accepted d' ps cars ∧ (trifectaOf d').Sublist (trifectaOf d) := by
    intro r hr
    exact ⟨d, (Prod.mk.inj (Except.ok.inj hr)).1.symm, h, List.Sublist.refl _⟩
  split at hout
  · split at hout
    · rename_i odds hodds
      split at hout
      · rename_i entries hentries
        obtain ⟨marked, hmarked, hout⟩ := bind_ok.1 hout
        obtain ⟨rfl, -⟩ := Prod.mk.inj (Except.ok.inj hout)
        refine ⟨_, rfl, h.keepOdds hodds hentries ?_⟩
        have hfst : marked.map Prod.fst = entries := by
          have hall : List.Forall₂ (fun m e => m = e) (marked.map Prod.fst) entries := ?_
          · rwa [List.forall₂_eq_eq_eq] at hall
          rw [List.forall₂_map_left_iff]
          refine (mapM_ok_iff.1 hmarked).flip.imp fun m e hem => ?_
          cases hu : isUnbet e.2 with
          | error err =>
            rw [hu] at hem
            nomatch hem
          | ok unbet =>
            rw [hu] at hem
            cases Except.ok.inj hem
            rfl
        exact hfst ▸ List.filter_sublist.map _
      · exact same hout
    · exact same hout
  · exact same hout

/-- The filter returns where the source of the data has a text. -/
theorem Accepted.returns_sanitize {d : Dict JsDoc} {ps : List JsDoc} {cars : List JsFloat} (h : Accepted d ps cars) :
    Returns (sanitizeKnownOdds (.obj d)) ↔ Textual (orProp (Dict.get? "prediction_context" d) "source") := by
  unfold sanitizeKnownOdds
  rw [← returns_sourceText, returns_bind_const (P := True), and_true]
  intro source _
  dsimp only
  rw [iff_true]
  split
  · split
    · rename_i odds hodds
      split
      · rename_i entries hentries
        refine (returns_bind_const (P := True) fun _ _ => by simp).2 ⟨returns_mapM.2 ?_, trivial⟩
        intro entry hentry
        rw [returns_map, returns_isUnbet]
        have hmem : entry ∈ trifectaOf d := by simpa only [trifectaOf, hodds, hentries] using hentry
        obtain ⟨x, hx, -⟩ := (h.odds entry hmem).positive
        exact returns_number.1 ⟨x, hx⟩
      · exact returns_pure _
    · exact returns_pure _
  · exact returns_pure _

end RaceDataContract

end Keirin

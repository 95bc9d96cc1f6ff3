import Keirin.Lemmas.PredictEngine

/-!
# The reported coverage of the odds

The report counts the keys of the odds; the engine looks a triple up by the key it writes itself. The two agree exactly where every
key is written as the engine writes it.
-/

namespace Keirin

namespace PredictEngine

open JsVal JsFloat RaceDataContract

/-! ## Keys -/

/-- A key is written as the engine writes that of its triple. -/
def Canonical (key : String) : Prop := ∃ a b c, keyCars key = some (a, b, c) ∧ Combo.key ⟨a, b, c⟩ = key

instance (key : String) : Decidable (Canonical key) :=
  match h : keyCars key with
  | some (a, b, c) => decidable_of_iff (Combo.key ⟨a, b, c⟩ = key) ⟨fun hk => ⟨a, b, c, h, hk⟩, by
      rintro ⟨a', b', c', h', hk⟩
      cases h.symm.trans h'
      exact hk⟩
  | none => isFalse (by
      rintro ⟨a', b', c', h', -⟩
      nomatch h.symm.trans h')

theorem toList_key (t : Combo) :
    t.key.toList = ['-'].intercalate [t.a.text.toList, t.b.text.toList, t.c.text.toList] := by
  simp [Combo.key, List.intercalate]

/-- The parts of a key that has the form of keys are the texts of its triple. -/
theorem keyParts_key {t : Combo} {p : List Char × List Char × List Char} (h : keyParts t.key = some p) :
    p = (t.a.text.toList, t.b.text.toList, t.c.text.toList) ∧
      ∀ ds ∈ [p.1, p.2.1, p.2.2], ds ≠ [] ∧ ds.all Char.isDigit = true := by
  unfold keyParts at h
  dsimp only at h
  split at h
  · rename_i a b c hsplit
    split at h
    · rename_i hdigits
      cases Option.some.inj h
      obtain ⟨ha, hb, hc⟩ := hdigits
      have hno : ∀ ds : List Char, ds.all Char.isDigit = true → ds.count '-' = 0 := by
        intro ds hds
        refine List.count_eq_zero.2 fun hmem => ?_
        exact absurd (List.all_eq_true.1 hds _ hmem) (by decide)
      -- the key has two separators, so the texts in it have none
      have hjoin : ['-'].intercalate [a, b, c] = ['-'].intercalate [t.a.text.toList, t.b.text.toList, t.c.text.toList] := by
        rw [← hsplit, List.intercalate_splitOn, toList_key]
      have hcount := congrArg (List.count '-') hjoin
      simp only [List.intercalate_cons_cons, List.intercalate_singleton, List.count_append, List.count_singleton_self, hno a ha.2,
        hno b hb.2, hno c hc.2] at hcount
      have hfree : ∀ ds ∈ [t.a.text.toList, t.b.text.toList, t.c.text.toList], '-' ∉ ds := by
        intro ds hds
        rw [← List.count_eq_zero]
        simp only [List.mem_cons, List.not_mem_nil, or_false] at hds
        rcases hds with rfl | rfl | rfl <;> omega
      have hparts : [a, b, c] = [t.a.text.toList, t.b.text.toList, t.c.text.toList] := by
        rw [← hsplit, toList_key, List.splitOn_intercalate _ hfree (List.cons_ne_nil _ _)]
      simp only [List.cons.injEq, and_true] at hparts
      obtain ⟨rfl, rfl, rfl⟩ := hparts
      refine ⟨rfl, fun ds hds => ?_⟩
      simp only [List.mem_cons, List.not_mem_nil, or_false] at hds
      rcases hds with rfl | rfl | rfl
      · exact ha
      · exact hb
      · exact hc
    · cases h
  · cases h

/-- The cars of the key of a triple are those of the triple, where none of them is zero. -/
theorem keyCars_key {t : Combo} {cs : JsFloat × JsFloat × JsFloat} (h : keyCars t.key = some cs)
    (ht : ∀ x ∈ [t.a, t.b, t.c], eq x zero = false) : cs = (t.a, t.b, t.c) := by
  unfold keyCars at h
  obtain ⟨p, hp, rfl⟩ := Option.map_eq_some_iff.1 h
  obtain ⟨rfl, hdigits⟩ := keyParts_key hp
  have hcar : ∀ x ∈ [t.a, t.b, t.c], x.text.toList ≠ [] ∧ x.text.toList.all Char.isDigit = true → carOf x.text.toList = x := by
    rintro x hx ⟨hne, hd⟩
    unfold carOf
    rw [String.ofList_toList]
    exact ofString_text (ht x hx) hne hd
  rw [hcar t.a (by simp) (hdigits _ (by simp)), hcar t.b (by simp) (hdigits _ (by simp)), hcar t.c (by simp) (hdigits _ (by simp))]

/-! ## Counting triples -/

theorem length_filter_ne {ns : List JsFloat} (h : ns.Nodup) {a : JsFloat} (ha : a ∈ ns) :
    (ns.filter (· ≠ a)).length = ns.length - 1 := by
  have hfilter : ns.filter (· ≠ a) = ns.erase a := by
    rw [h.erase_eq_filter]
    exact List.filter_congr fun x _ => Bool.eq_iff_iff.2 (by simp)
  rw [hfilter, List.length_erase_of_mem ha]

/-- There are `n (n - 1) (n - 2)` triples of `n` cars. -/
theorem length_perms {ns : List JsFloat} (h : ns.Nodup) :
    (perms ns).length = ns.length * (ns.length - 1) * (ns.length - 2) := by
  have hpair : ∀ a ∈ ns, ((ns.filter (· ≠ a)).flatMap fun b =>
      (ns.filter fun c => c ≠ a ∧ c ≠ b).map fun c => (⟨a, b, c⟩ : Combo)).length = (ns.length - 1) * (ns.length - 2) := by
    intro a ha
    have hthird : ∀ b ∈ ns.filter (· ≠ a), ((ns.filter fun c => c ≠ a ∧ c ≠ b).map fun c => (⟨a, b, c⟩ : Combo)).length =
        ns.length - 2 := by
      intro b hb
      have hfilter : (ns.filter fun c => c ≠ a ∧ c ≠ b) = (ns.filter (· ≠ a)).filter (· ≠ b) := by
        rw [List.filter_filter]
        exact List.filter_congr fun c _ => Bool.eq_iff_iff.2 (by simp [and_comm])
      rw [List.length_map, hfilter, length_filter_ne (h.filter _) hb, length_filter_ne h ha, Nat.sub_sub]
    rw [List.length_flatMap, List.sum_eq_card_nsmul _ (ns.length - 2), List.length_map, length_filter_ne h ha, smul_eq_mul]
    intro x hx
    obtain ⟨b, hb, rfl⟩ := List.mem_map.1 hx
    exact hthird b hb
  unfold perms
  rw [List.length_flatMap, List.sum_eq_card_nsmul _ ((ns.length - 1) * (ns.length - 2)), List.length_map, smul_eq_mul, mul_assoc]
  intro x hx
  obtain ⟨a, ha, rfl⟩ := List.mem_map.1 hx
  exact hpair a ha

/-! ## What the report says -/

/-- The coverage the report computes, before it is rounded. -/
def coverage (q : InputQuality) : ℚ := q.trifectaOddsCount / q.possibleTrifectaCount

theorem returns_carsWhere {players : List JsDoc} (missing : JsDoc → JsResult Bool) (hmissing : ∀ p ∈ players, Returns (missing p))
    (hcar : ∀ p ∈ players, Textual (field p "car_number")) : Returns (carsWhere players missing) := by
  refine Returns.bind (returns_mapM.2 fun p hp => returns_map.2 (hmissing p hp)) fun marked hmarked => returns_mapM.2 fun m hm => ?_
  obtain ⟨p, hp, hpm⟩ := exists_of_mem_right (mapM_ok_iff.1 hmarked) (List.mem_filter.1 hm).1
  have hfst : m.1 = p := by
    obtain ⟨b, -, hb⟩ := bind_ok.1 hpm
    cases Except.ok.inj hb
    rfl
  rw [hfst]
  exact returns_number.2 (hcar p hp)

section Quality

variable {d : Dict JsDoc} {ps : List JsDoc} {cars : List JsFloat}

/-- The quality of accepted data is reported with the number of keys of the odds. -/
theorem assessInputQuality_counts (h : Accepted d ps cars) :
    ∃ q, assessInputQuality d = .ok q ∧ q.trifectaOddsCount = (trifectaOf d).length ∧
      q.possibleTrifectaCount = trifectaCount ps.length := by
  have hcar : ∀ p ∈ ps, Textual (field p "car_number") := fun p hp => (h.riders p hp).number _ (by simp)
  obtain ⟨score, hscore⟩ := returns_carsWhere (fun p => (isFiniteNumber (field p "race_score")).map not)
    (fun p hp => returns_map.2 (returns_isFiniteNumber.2 ((h.riders p hp).number _ (by simp)))) hcar
  obtain ⟨shb, hshb⟩ := returns_carsWhere (fun p => do
      let finite ← ["S", "H", "B"].mapM fun key => isFiniteNumber (field p key)
      return finite.any not) (fun p hp => by
    refine Returns.bind (returns_mapM.2 fun key hkey => returns_isFiniteNumber.2 ((h.riders p hp).number key ?_))
      fun _ _ => returns_pure _
    exact List.mem_cons_of_mem _ (List.mem_cons_of_mem _ (List.mem_append_left _ hkey))) hcar
  obtain ⟨line, hline⟩ := returns_carsWhere (fun p =>
    .ok (isNullish (field p "line_id") || isNullish (field p "line_position") || isNullish (field p "line_length")))
    (fun p _ => returns_ok _) hcar
  unfold assessInputQuality
  rw [h.playersOf_eq]
  exact ⟨_, bind_ok.2 ⟨score, hscore, bind_ok.2 ⟨shb, hshb, bind_ok.2 ⟨line, hline, rfl⟩⟩⟩, rfl, rfl⟩

/-! ## What the engine uses -/

/-- Whether a triple is given odds. -/
def hasOdds (odds : JsVal) (t : Combo) : Bool :=
  match oddsOf odds t with
  | .ok (some _) => true
  | _ => false

/-- The part of the triples of the riders that are given odds. -/
def usedCoverage (d : Dict JsDoc) (pm : List (JsFloat × JsDoc)) : ℚ :=
  (perms (carNumbers pm)).countP (hasOdds (trifectaOdds d)) / (perms (carNumbers pm)).length

/-- A triple of accepted data is given odds where its key is there. -/
theorem hasOdds_iff (h : Accepted d ps cars) (t : Combo) :
    hasOdds (trifectaOdds d) t = true ↔ t.key ∈ (trifectaOf d).map Prod.fst := by
  unfold hasOdds oddsOf
  rw [orProp_trifectaOdds]
  dsimp only
  cases hv : Dict.get? t.key (trifectaOf d) with
  | none => simp [Dict.get?_eq_none_iff.1 hv, isNullish]
  | some v =>
    have hok := h.odds _ (Dict.mem_of_get? hv)
    obtain ⟨x, hx, hfin, -⟩ := hok.positive
    have hmem : t.key ∈ (trifectaOf d).map Prod.fst := List.mem_map_of_mem (f := Prod.fst) (Dict.mem_of_get? hv)
    rw [if_neg (by rw [hok.present]; decide), hx]
    simp [Except.map, hfin, hmem]

/-- The triples that are generated with odds are those that are given odds. -/
theorem generate_coverage {exp : JsFloat → JsFloat} {w : Weights} {g : Generated} (h : Accepted d ps cars)
    (hg : generate exp w d = .ok g) :
    (g.trifectaScores.countP (fun r => r.odds.isSome) : ℚ) / g.trifectaScores.length = usedCoverage d (cars.zip ps) := by
  obtain ⟨hperm, hodds⟩ := generate_rows h hg
  unfold usedCoverage
  have hcount : g.trifectaScores.countP (fun r => r.odds.isSome) =
      (perms (carNumbers (cars.zip ps))).countP (hasOdds (trifectaOdds d)) := by
    rw [← hperm.countP_eq, List.countP_map]
    refine List.countP_congr fun r hr => ?_
    simp only [Function.comp_apply, hasOdds, hodds r hr]
    cases r.odds <;> simp
  rw [hcount, ← hperm.length_eq, List.length_map]

/-- A car is not zero. -/
theorem ne_zero_of_carOf {p : JsDoc} {car : JsFloat} (h : CarOf p car) : eq car zero = false := by
  obtain ⟨-, hint⟩ := h
  cases car with
  | nan => rfl
  | num n =>
    cases n with
    | infinite neg => rfl
    | finite x =>
      rw [Bool.eq_false_iff]
      intro heq
      have hx : x.toRat = 0 := by simpa [eq, zero, Binary64.toRat] using heq
      have hvalue : (JsNumber.finite x).value = some 0 := congrArg some hx
      simp [int?, JsNumber.int?, hvalue] at hint

theorem eq_zero_of_mem (h : Accepted d ps cars) {car : JsFloat} (hcar : car ∈ cars) : eq car zero = false := by
  obtain ⟨p, -, hp⟩ := exists_of_mem_right h.carsOf hcar
  exact ne_zero_of_carOf hp

/-- The triples that are given odds are as many as the keys that are written as the engine writes them. -/
theorem countP_hasOdds (h : Accepted d ps cars) (hkeys : ((trifectaOf d).map Prod.fst).Nodup) :
    (perms (carNumbers (cars.zip ps))).countP (hasOdds (trifectaOdds d)) =
      (((trifectaOf d).map Prod.fst).filter fun key => decide (Canonical key)).length := by
  have hcars := perm_carNumbers h.carsOf h.distinct
  have htriple : ∀ t ∈ perms (carNumbers (cars.zip ps)), t.key ∈ (trifectaOf d).map Prod.fst →
      keyCars t.key = some (t.a, t.b, t.c) := by
    intro t ht hkey
    obtain ⟨ha, hb, hc, -⟩ := mem_perms.1 ht
    obtain ⟨entry, hentry, hname⟩ := List.mem_map.1 hkey
    obtain ⟨a, b, c, hnamed, -⟩ := (h.odds entry hentry).named
    rw [hname] at hnamed
    rw [hnamed]
    refine congrArg some (keyCars_key hnamed fun x hx => ?_)
    simp only [List.mem_cons, List.not_mem_nil, or_false] at hx
    rcases hx with rfl | rfl | rfl
    · exact eq_zero_of_mem h (hcars.mem_iff.1 ha)
    · exact eq_zero_of_mem h (hcars.mem_iff.1 hb)
    · exact eq_zero_of_mem h (hcars.mem_iff.1 hc)
  have hperm : (((perms (carNumbers (cars.zip ps))).filter fun t => hasOdds (trifectaOdds d) t).map Combo.key).Perm
      (((trifectaOf d).map Prod.fst).filter fun key => decide (Canonical key)) := by
    refine (List.perm_ext_iff_of_nodup ?_ (hkeys.filter _)).2 fun key => ?_
    · refine List.Nodup.map_on ?_ ((nodup_perms (hcars.nodup_iff.2 h.distinct)).filter _)
      intro t ht u hu hkey
      obtain ⟨ht, htodds⟩ := List.mem_filter.1 ht
      obtain ⟨hu, huodds⟩ := List.mem_filter.1 hu
      have htcars := htriple t ht ((hasOdds_iff h t).1 htodds)
      have hucars := htriple u hu ((hasOdds_iff h u).1 huodds)
      rw [hkey, hucars] at htcars
      simp only [Option.some.injEq, Prod.mk.injEq] at htcars
      obtain ⟨ha, hb, hc⟩ := htcars
      cases t
      cases u
      simp only at ha hb hc
      rw [ha, hb, hc]
    · rw [List.mem_map, List.mem_filter, decide_eq_true_eq]
      constructor
      · rintro ⟨t, ht, rfl⟩
        obtain ⟨ht, hodds⟩ := List.mem_filter.1 ht
        have hkey := (hasOdds_iff h t).1 hodds
        exact ⟨hkey, t.a, t.b, t.c, htriple t ht hkey, rfl⟩
      · rintro ⟨hkey, a, b, c, hkeyCars, hname⟩
        obtain ⟨entry, hentry, rfl⟩ := List.mem_map.1 hkey
        obtain ⟨a', b', c', hnamed, hdistinct, hknown⟩ := (h.odds entry hentry).named
        cases hnamed.symm.trans hkeyCars
        have hne : cars ≠ [] := by
          intro hnil
          have henough := h.enough
          rw [h.carsOf.length_eq, hnil] at henough
          cases henough
        obtain ⟨ha, hb, hc⟩ := hknown hne
        simp only [List.nodup_cons, List.mem_cons, List.not_mem_nil, or_false, not_or] at hdistinct
        refine ⟨⟨a, b, c⟩, List.mem_filter.2 ⟨mem_perms.2 ⟨hcars.mem_iff.2 ha, hcars.mem_iff.2 hb, hcars.mem_iff.2 hc,
          hdistinct.1.1, hdistinct.1.2, hdistinct.2.1⟩, ?_⟩, hname⟩
        exact (hasOdds_iff h _).2 (hname ▸ hkey)
  rw [List.countP_eq_length_filter, ← hperm.length_eq, List.length_map]

/-- The keys of the odds of data that was parsed stand once. -/
theorem nodup_trifectaOf (h : Json.keysOnce (.obj d) = true) : ((trifectaOf d).map Prod.fst).Nodup := by
  unfold trifectaOf
  cases hodds : Dict.get? "odds" d with
  | none => exact List.nodup_nil
  | some odds =>
    cases odds with
    | obj os =>
      have hos := JsDoc.keysOnce_of_get? h hodds
      cases hentries : Dict.get? "trifecta" os with
      | none => simp [hentries]
      | some v =>
        cases v with
        | obj entries =>
          have hkeys := JsDoc.keysOnce_of_get? hos hentries
          rw [Json.keysOnce, Bool.and_eq_true, decide_eq_true_eq] at hkeys
          simpa [hentries] using hkeys.1
        | _ => simp [hentries]
    | _ => exact List.nodup_nil

/-- Accepted data with its keys once has the coverage that is used exactly where its keys are written as the engine writes them. -/
theorem coverage_iff (h : Accepted d ps cars) (hkeys : ((trifectaOf d).map Prod.fst).Nodup) {q : InputQuality}
    (hq : assessInputQuality d = .ok q) :
    (0 ≤ coverage q ∧ coverage q ≤ 1 ∧ coverage q = usedCoverage d (cars.zip ps)) ↔
      ∀ key ∈ (trifectaOf d).map Prod.fst, Canonical key := by
  obtain ⟨q', hq', hcount, hpossible⟩ := assessInputQuality_counts h
  rw [hq] at hq'
  cases Except.ok.inj hq'
  have hcars := perm_carNumbers h.carsOf h.distinct
  have hlength : (perms (carNumbers (cars.zip ps))).length = trifectaCount ps.length := by
    rw [length_perms (hcars.nodup_iff.2 h.distinct), hcars.length_eq, ← h.carsOf.length_eq, trifectaCount,
      if_pos (by have := h.enough; omega)]
  have hpos : (0 : ℚ) < trifectaCount ps.length := by
    have henough := h.enough
    have : 0 < trifectaCount ps.length := by
      rw [trifectaCount, if_pos (by omega)]
      exact Nat.mul_pos (Nat.mul_pos (by omega) (by omega)) (by omega)
    exact_mod_cast this
  have hused := countP_hasOdds h hkeys
  have hequal : coverage q = usedCoverage d (cars.zip ps) ↔ ∀ key ∈ (trifectaOf d).map Prod.fst, Canonical key := by
    unfold coverage usedCoverage
    rw [hcount, hpossible, hlength, div_left_inj' hpos.ne', Nat.cast_inj, hused, ← @List.length_map _ _ (trifectaOf d) Prod.fst,
      eq_comm, List.length_filter_eq_length_iff]
    simp only [decide_eq_true_eq]
  rw [hequal]
  constructor
  · rintro ⟨-, -, hall⟩
    exact hall
  · intro hall
    refine ⟨?_, ?_, hall⟩
    · exact div_nonneg (Nat.cast_nonneg _) (Nat.cast_nonneg _)
    · rw [hequal.2 hall]
      unfold usedCoverage
      refine div_le_one_of_le₀ ?_ (Nat.cast_nonneg _)
      exact_mod_cast List.countP_le_length

end Quality

/-- After the odds filter the report gives the coverage that is used, between 0 and 1, exactly where every key that is left is
written as the engine writes it. -/
theorem odds_coverage_iff (source : JsonLits) (d : Dict JsDoc) (report : OddsReport)
    (hvalid : validateRaceData (JsDoc.parse source) = .ok []) (hsanitize : sanitizeKnownOdds (JsDoc.parse source) = .ok (.obj d, report)) :
    ∃ q pm, assessInputQuality d = .ok q ∧ playerMap (playersOf d) = .ok pm ∧
      (∀ exp w g, generate exp w d = .ok g →
        (g.trifectaScores.countP (fun r => r.odds.isSome) : ℚ) / g.trifectaScores.length = usedCoverage d pm) ∧
      ((0 ≤ coverage q ∧ coverage q ≤ 1 ∧ coverage q = usedCoverage d pm) ↔
        ∀ key ∈ (trifectaOf d).map Prod.fst, Canonical key) := by
  obtain ⟨d₀, ps, cars, hd₀, h₀⟩ := validateRaceData_nil hvalid
  have honce := JsDoc.keysOnce_parse source
  rw [hd₀] at hsanitize honce
  obtain ⟨d', hd', h, hsub⟩ := h₀.sanitize hsanitize
  cases hd'
  have hkeys : ((trifectaOf d).map Prod.fst).Nodup := (nodup_trifectaOf honce).sublist (hsub.map Prod.fst)
  obtain ⟨q, hq, -⟩ := assessInputQuality_counts h
  refine ⟨q, cars.zip ps, hq, ?_, fun _ _ _ hg => generate_coverage h hg, coverage_iff h hkeys hq⟩
  rw [h.playersOf_eq]
  exact playerMap_eq h.carsOf

/-- The text of a race with four riders and one key in its odds. -/
def oddsRace (key : String) : JsonLits :=
  let rider := fun n : ℤ => .obj [("car_number", .num (.ofInt n)), ("name", .str "A"), ("style", .str "逃")]
  .obj [("race", .obj [("date", .str "2026-09-01"), ("venue", .str "V"), ("race_number", .num (.ofInt 1))]),
    ("players", .arr [rider 1, rider 2, rider 3, rider 4]),
    ("odds", .obj [("trifecta", .obj [(key, .num (.ofInt 10))])])]

/-- The fields of that race. -/
def oddsRaceFields (key : String) : Dict JsDoc :=
  match JsDoc.parse (oddsRace key) with
  | .obj d => d
  | _ => []

theorem exists_report (input out : JsDoc) (h : (sanitizeKnownOdds input).map Prod.fst = .ok out) :
    ∃ report, sanitizeKnownOdds input = .ok (out, report) := by
  cases hs : sanitizeKnownOdds input with
  | error e =>
    rw [hs] at h
    nomatch h
  | ok r =>
    rw [hs] at h
    exact ⟨r.2, congrArg Except.ok (Prod.ext (Except.ok.inj h) rfl)⟩

theorem odds_coverage_sample : ∃ report q pm, sanitizeKnownOdds (JsDoc.parse (oddsRace "1-2-3")) = .ok (.obj (oddsRaceFields "1-2-3"), report) ∧
    assessInputQuality (oddsRaceFields "1-2-3") = .ok q ∧ playerMap (playersOf (oddsRaceFields "1-2-3")) = .ok pm ∧
    coverage q = usedCoverage (oddsRaceFields "1-2-3") pm := by
  obtain ⟨report, hsanitize⟩ := exists_report (JsDoc.parse (oddsRace "1-2-3")) (.obj (oddsRaceFields "1-2-3"))
    (by decide +kernel)
  obtain ⟨q, pm, hq, hpm, -, hiff⟩ := odds_coverage_iff (oddsRace "1-2-3") _ report (by decide +kernel) hsanitize
  exact ⟨report, q, pm, hsanitize, hq, hpm, (hiff.2 (by decide +kernel)).2.2⟩

/-- A key with a leading zero is accepted and counted, and the engine never looks it up. -/
theorem leading_zero_counted : ¬∀ (source : JsonLits) (d : Dict JsDoc) (report : OddsReport) (q : InputQuality)
    (pm : List (JsFloat × JsDoc)), validateRaceData (JsDoc.parse source) = .ok [] →
      sanitizeKnownOdds (JsDoc.parse source) = .ok (.obj d, report) → assessInputQuality d = .ok q →
      playerMap (playersOf d) = .ok pm → 0 ≤ coverage q ∧ coverage q ≤ 1 ∧ coverage q = usedCoverage d pm := by
  intro hall
  have hvalid : validateRaceData (JsDoc.parse (oddsRace "01-2-3")) = .ok [] := by decide +kernel
  obtain ⟨report, hsanitize⟩ := exists_report (JsDoc.parse (oddsRace "01-2-3")) (.obj (oddsRaceFields "01-2-3"))
    (by decide +kernel)
  obtain ⟨d₀, ps, cars, hd₀, h₀⟩ := validateRaceData_nil hvalid
  obtain ⟨d', hd', h, -⟩ := h₀.sanitize (hd₀ ▸ hsanitize)
  cases hd'
  obtain ⟨q, hq, -⟩ := assessInputQuality_counts h
  have hpm : playerMap (playersOf (oddsRaceFields "01-2-3")) = .ok (cars.zip ps) := h.playersOf_eq.symm ▸ playerMap_eq h.carsOf
  have hequal := hall _ _ report q _ hvalid hsanitize hq hpm
  have hcanonical := (coverage_iff h (by decide +kernel) hq).1 hequal "01-2-3" (by decide +kernel)
  exact absurd hcanonical (by decide +kernel)

end PredictEngine

end Keirin

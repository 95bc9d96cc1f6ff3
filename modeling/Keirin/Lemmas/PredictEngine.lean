import Keirin.Lemmas.RaceDataContract
import Keirin.PredictEngine

/-!
# What the engine needs of a rider, and what it picks

Scoring a rider returns exactly when the parts of the rider that nothing checked before can be read (`Scorable`). The triples are
those of distinct cars, each once; sorting only reorders them, and a key is taken once.
-/

namespace Keirin

namespace PredictEngine

open JsVal JsFloat RaceDataContract

/-! ## Reading a rider -/

theorem returns_n {v : JsVal} {default : JsFloat} : Returns (n v default) ↔ Textual v := by
  unfold n
  split
  · rename_i h
    refine ⟨fun _ => ?_, fun _ => returns_ok _⟩
    rcases Bool.or_eq_true_iff.1 h with hnull | hstr
    · exact textual_of_nullish hnull
    · unfold isStr at hstr
      split at hstr
      · exact textual_str _
      · nomatch hstr
  · rw [returns_map, returns_number]

theorem returns_avg {v : JsVal} : Returns (avg v) ↔ Textual v := by
  rw [avg, returns_map, n0, returns_n]

/-- A value that is an array of things with a finish, or nothing. -/
def Listable (v : JsVal) : Prop := truthy v = true → ∃ xs, v = some (.arr xs) ∧ ∀ x ∈ xs, Textual (finishOf x)

theorem returns_finishes {v : JsVal} : Returns (finishes v) ↔ Listable v := by
  unfold finishes listOf Listable
  by_cases ht : truthy v = true
  · rw [if_pos ht]
    simp only [ht, true_imp_iff]
    split
    · rename_i xs
      have hxs : Returns (xs.mapM fun x => n0 (finishOf x)) ↔ ∀ x ∈ xs, Textual (finishOf x) := by
        rw [returns_mapM]
        exact forall₂_congr fun x _ => returns_n
      rw [returns_bind]
      constructor
      · rintro ⟨ys, hys, h⟩
        cases Except.ok.inj hys
        exact ⟨xs, rfl, hxs.1 ((returns_bind_const (P := True) fun _ _ => by simp).1 h).1⟩
      · rintro ⟨ys, hys, h⟩
        cases hys
        exact ⟨xs, rfl, (returns_bind_const (P := True) fun _ _ => by simp).2 ⟨hxs.2 h, trivial⟩⟩
    · rename_i hne
      constructor
      · rintro ⟨a, ha⟩
        nomatch ha
      · rintro ⟨xs, hxs, -⟩
        exact absurd hxs (hne xs)
  · rw [if_neg ht]
    exact ⟨fun _ h => absurd h ht, fun _ => ⟨[], rfl⟩⟩

/-- What the engine reads of a rider and nothing checked before. -/
structure Scorable (p : JsDoc) : Prop where
  rates : ∀ key ∈ ["win_rate", "top2_rate", "top3_rate", "avg_finish"], Textual (orProp (field p "recent_form") key)
  races : Listable (orProp (field p "recent_form") "last_3_races")
  results : Listable (orProp (field p "current_meet") "results")
  factors : ∀ key ∈ ["condition", "training", "equipment", "confidence", "motivation", "fatigue"], Textual (orProp (factors p) key)
  condition : Textual (orProp (field p "condition") "score")
  bankFit : Textual (orProp (field p "bank_fit") "score")

theorem returns_n0 {v : JsVal} : Returns (n0 v) ↔ Textual v := returns_n

theorem returns_recent {p : JsDoc} : Returns (recent p) ↔
    (∀ key ∈ ["win_rate", "top2_rate", "top3_rate", "avg_finish"], Textual (orProp (field p "recent_form") key)) ∧
      Listable (orProp (field p "recent_form") "last_3_races") := by
  have h : Returns (recent p) ↔ Textual (orProp (field p "recent_form") "win_rate") ∧
      Textual (orProp (field p "recent_form") "top2_rate") ∧ Textual (orProp (field p "recent_form") "top3_rate") ∧
      Textual (orProp (field p "recent_form") "avg_finish") ∧ Listable (orProp (field p "recent_form") "last_3_races") ∧ True := by
    rw [← returns_n0, ← returns_n0 (v := orProp _ "top2_rate"), ← returns_n0 (v := orProp _ "top3_rate"), ← returns_avg,
      ← returns_finishes]
    exact returns_bind_const fun _ _ => returns_bind_const fun _ _ => returns_bind_const fun _ _ => returns_bind_const fun _ _ =>
      returns_bind_const fun _ _ => iff_true_intro (returns_pure _)
  rw [h]
  simp only [List.forall_mem_cons, List.not_mem_nil, false_imp_iff, implies_true, and_true, and_assoc]

theorem returns_meet {p : JsDoc} : Returns (meet p) ↔ Listable (orProp (field p "current_meet") "results") := by
  have h : Returns (meet p) ↔ Listable (orProp (field p "current_meet") "results") ∧ True := by
    rw [← returns_finishes]
    exact returns_bind_const fun _ _ => iff_true_intro (returns_pure _)
  rw [h, and_true]

theorem returns_comment {p : JsDoc} : Returns (comment p) ↔
    ∀ key ∈ ["condition", "training", "equipment", "confidence", "motivation", "fatigue"], Textual (orProp (factors p) key) := by
  have h : Returns (comment p) ↔ Returns (n0 (orProp (factors p) "condition")) ∧ Returns (n0 (orProp (factors p) "training")) ∧
      Returns (n0 (orProp (factors p) "equipment")) ∧ Returns (n0 (orProp (factors p) "confidence")) ∧
      Returns (n0 (orProp (factors p) "motivation")) ∧ Returns (n0 (orProp (factors p) "fatigue")) ∧ True :=
    returns_bind_const fun _ _ => returns_bind_const fun _ _ => returns_bind_const fun _ _ => returns_bind_const fun _ _ =>
      returns_bind_const fun _ _ => returns_bind_const fun _ _ => iff_true_intro (returns_pure _)
  rw [h]
  simp only [returns_n0, List.forall_mem_cons, List.not_mem_nil, false_imp_iff, implies_true, and_true]

theorem returns_lp {p : JsDoc} {pos : Position} : Returns (lp p pos) ↔ Textual (field p "line_position") := by
  have h : Returns (lp p pos) ↔ Returns (n0 (field p "line_position")) ∧ True :=
    returns_bind_const fun _ _ => iff_true_intro (returns_pure _)
  rw [h, and_true, returns_n0]

theorem returns_ll {p : JsDoc} {pos : Position} : Returns (ll p pos) ↔ Textual (field p "line_length") := by
  have h : Returns (ll p pos) ↔ Returns (n0 (field p "line_length")) ∧ True :=
    returns_bind_const fun _ _ => iff_true_intro (returns_pure _)
  rw [h, and_true, returns_n0]

/-! ## Scoring a rider -/

/-- An accepted style has its base. -/
theorem styleBase_isSome {p : JsDoc} (h : RiderOk p) : ∃ base, styleBase (field p "style") = some base := by
  obtain ⟨s, hs, hp⟩ := h.style
  rw [hp]
  simp only [validStyles, List.mem_cons, List.not_mem_nil, or_false] at hs
  rcases hs with rfl | rfl | rfl
  · exact ⟨_, rfl⟩
  · exact ⟨_, rfl⟩
  · exact ⟨_, rfl⟩

/-- An accepted rider is scored exactly when the rest of what is read of it can be read. -/
theorem returns_scorePlayer {w : Weights} {pos : Position} {p : JsDoc} (hp : RiderOk p) :
    Returns (scorePlayer w pos p) ↔ Scorable p := by
  obtain ⟨base, hbase⟩ := styleBase_isSome hp
  have h : Returns (scorePlayer w pos p) ↔ Returns (n (field p "race_score") (ofRat 80)) ∧ Returns (n0 (field p "S")) ∧
      Returns (n0 (field p "H")) ∧ Returns (n0 (field p "B")) ∧ Returns (recent p) ∧ Returns (meet p) ∧
      Returns (n0 (orProp (field p "condition") "score")) ∧ Returns (comment p) ∧
      Returns (n0 (orProp (field p "bank_fit") "score")) ∧ Returns (lp p pos) ∧ Returns (ll p pos) ∧ True := by
    unfold scorePlayer
    rw [hbase]
    exact returns_bind_const fun _ _ => returns_bind_const fun _ _ => returns_bind_const fun _ _ => returns_bind_const fun _ _ =>
      returns_bind_const fun _ _ => returns_bind_const fun _ _ => returns_bind_const fun _ _ => returns_bind_const fun _ _ =>
      returns_bind_const fun _ _ => returns_bind_const fun _ _ => returns_bind_const fun _ _ => iff_true_intro (returns_pure _)
  rw [h]
  simp only [returns_n, returns_n0, returns_recent, returns_meet, returns_comment, returns_lp, returns_ll, and_true]
  constructor
  · rintro ⟨-, -, -, -, ⟨hrates, hraces⟩, hresults, hcondition, hfactors, hbank, -, -⟩
    exact ⟨hrates, hraces, hresults, hfactors, hcondition, hbank⟩
  · intro hs
    exact ⟨hp.number _ (by simp), hp.number _ (by simp), hp.number _ (by simp), hp.number _ (by simp), ⟨hs.rates, hs.races⟩,
      hs.results, hs.condition, hs.factors, hs.bankFit, hp.number _ (by simp), hp.number _ (by simp)⟩

/-- A score keeps the number of the car. -/
theorem scorePlayer_carNumber {w : Weights} {pos : Position} {p : JsDoc} {row : PlayerScore} (h : scorePlayer w pos p = .ok row) :
    row.carNumber = field p "car_number" := by
  unfold scorePlayer at h
  split at h
  · obtain ⟨_, -, h⟩ := bind_ok.1 h
    obtain ⟨_, -, h⟩ := bind_ok.1 h
    obtain ⟨_, -, h⟩ := bind_ok.1 h
    obtain ⟨_, -, h⟩ := bind_ok.1 h
    obtain ⟨_, -, h⟩ := bind_ok.1 h
    obtain ⟨_, -, h⟩ := bind_ok.1 h
    obtain ⟨_, -, h⟩ := bind_ok.1 h
    obtain ⟨_, -, h⟩ := bind_ok.1 h
    obtain ⟨_, -, h⟩ := bind_ok.1 h
    obtain ⟨_, -, h⟩ := bind_ok.1 h
    obtain ⟨_, -, h⟩ := bind_ok.1 h
    cases Except.ok.inj h
    rfl
  · nomatch h

/-! ## Rankings -/

/-- Sorting reorders. -/
theorem perm_sortBy {α : Type} {compare : α → α → JsFloat} {xs : List α} : (sortBy compare xs).Perm xs := List.perm_insertionSort _ xs

/-- Accepted riders are ranked exactly when each of them can be scored. -/
theorem returns_rank {w : Weights} {pos : Position} {ps : List JsDoc} (hps : ∀ p ∈ ps, RiderOk p) :
    Returns (rank w pos ps) ↔ ∀ p ∈ ps, Scorable p := by
  unfold rank
  rw [returns_bind_const (P := True) fun _ _ => iff_true_intro (returns_pure _), and_true, returns_mapM]
  refine forall₂_congr fun p hp => ?_
  rw [← @returns_scorePlayer w pos _ (hps p hp), returns_bind_const (P := True), and_true]
  intro row hrow
  rw [iff_true, returns_bind_const (P := True) fun _ _ => iff_true_intro (returns_pure _), and_true, scorePlayer_carNumber hrow]
  exact returns_number.2 ((hps p hp).number _ (by simp))

/-- The scores of riders stand beside their cars. -/
theorem scored_cars {w : Weights} {pos : Position} {ps : List JsDoc} {cars : List JsFloat} {scored : List (JsFloat × PlayerScore)}
    (h : (ps.mapM fun p => do
      let row ← scorePlayer w pos p
      let car ← number row.carNumber
      return (car, row) : JsResult (List (JsFloat × PlayerScore))) = .ok scored)
    (hcars : List.Forall₂ CarOf ps cars) : scored.map Prod.fst = cars := by
  induction hcars generalizing scored with
  | nil =>
    cases Except.ok.inj h
    rfl
  | @cons p car ps cars hp _ ih =>
    obtain ⟨e, es, he, hes, rfl⟩ := List.forall₂_cons_left_iff.1 (mapM_ok_iff.1 h)
    obtain ⟨row, hrow, he⟩ := bind_ok.1 he
    obtain ⟨x, hx, he⟩ := bind_ok.1 he
    cases Except.ok.inj he
    rw [scorePlayer_carNumber hrow, hp.1] at hx
    rw [List.map_cons, ih (mapM_ok_iff.2 hes), Except.ok.inj hx]

/-- A ranking has an entry for each car. -/
theorem rank_cars {w : Weights} {pos : Position} {ps : List JsDoc} {cars : List JsFloat} {rows : List (JsFloat × PlayerScore)}
    (h : rank w pos ps = .ok rows) (hcars : List.Forall₂ CarOf ps cars) : (rows.map Prod.fst).Perm cars := by
  obtain ⟨scored, hscored, h⟩ := bind_ok.1 h
  cases Except.ok.inj h
  have hmap : ((sortBy (fun a b => firstTruthy [sub b.2.score a.2.score, sub a.1 b.1]) scored).zipIdx.map
      fun r => (r.1.1, { r.1.2 with rank := r.2 + 1 })).map Prod.fst =
      (sortBy (fun a b => firstTruthy [sub b.2.score a.2.score, sub a.1 b.1]) scored).map Prod.fst := by
    conv_rhs => rw [← List.zipIdx_map_fst 0 (sortBy _ scored)]
    rw [List.map_map, List.map_map]
    rfl
  rw [hmap, ← scored_cars hscored hcars]
  exact perm_sortBy.map _

/-- The riders are ranked for all positions exactly when each of them can be scored. -/
theorem returns_rankings {w : Weights} {ps : List JsDoc} (hps : ∀ p ∈ ps, RiderOk p) :
    Returns (rankings w ps) ↔ ∀ p ∈ ps, Scorable p := by
  have h : Returns (rankings w ps) ↔ Returns (rank w .first ps) ∧ Returns (rank w .second ps) ∧ Returns (rank w .third ps) ∧ True :=
    returns_bind_const fun _ _ => returns_bind_const fun _ _ => returns_bind_const fun _ _ => iff_true_intro (returns_pure _)
  rw [h]
  simp only [returns_rank hps, and_true, and_self]

/-! ## Maps -/

/-- A key has a value where an entry has it. -/
theorem returns_mapGet {α : Type} {entries : List (JsFloat × α)} {key : JsFloat} :
    Returns (mapGet entries key) ↔ key ∈ entries.map Prod.fst := by
  unfold mapGet
  cases h : entries.reverse.find? fun e => e.1 = key with
  | none =>
    refine iff_of_false (not_returns_error _) fun hkey => ?_
    obtain ⟨e, he, rfl⟩ := List.mem_map.1 hkey
    have := List.find?_eq_none.1 h e (List.mem_reverse.2 he)
    simp at this
  | some e =>
    refine iff_of_true (returns_ok _) ?_
    have hkey := List.find?_some h
    rw [decide_eq_true_eq] at hkey
    exact List.mem_map.2 ⟨e, List.mem_reverse.1 (List.mem_of_find?_eq_some h), hkey⟩

/-- The value of a key stands in an entry with it. -/
theorem mem_of_mapGet {α : Type} {entries : List (JsFloat × α)} {key : JsFloat} {a : α} (h : mapGet entries key = .ok a) :
    (key, a) ∈ entries := by
  unfold mapGet at h
  split at h
  · rename_i e he
    cases Except.ok.inj h
    have hkey := List.find?_some he
    rw [decide_eq_true_eq] at hkey
    rw [← hkey]
    exact List.mem_reverse.1 (List.mem_of_find?_eq_some he)
  · nomatch h

/-- The map of accepted riders: each with its car. -/
theorem playerMap_eq {ps : List JsDoc} {cars : List JsFloat} (h : List.Forall₂ CarOf ps cars) :
    playerMap ps = .ok (cars.zip ps) := by
  unfold playerMap
  rw [mapM_ok_iff]
  induction h with
  | nil => exact .nil
  | cons hp _ ih => exact .cons (by rw [hp.1]; rfl) ih

theorem map_fst_zip {ps : List JsDoc} {cars : List JsFloat} (h : List.Forall₂ CarOf ps cars) : (cars.zip ps).map Prod.fst = cars :=
  List.map_fst_zip h.length_eq.ge

/-- The cars in their order are the cars. -/
theorem perm_carNumbers {ps : List JsDoc} {cars : List JsFloat} (h : List.Forall₂ CarOf ps cars) (hd : cars.Nodup) :
    (carNumbers (cars.zip ps)).Perm cars := by
  unfold carNumbers
  rw [map_fst_zip h, List.dedup_eq_self.2 hd]
  exact perm_sortBy

/-! ## Triples -/

/-- Three cars of which no two are the same. -/
def Combo.Of (ns : List JsFloat) (t : Combo) : Prop :=
  t.a ∈ ns ∧ t.b ∈ ns ∧ t.c ∈ ns ∧ t.a ≠ t.b ∧ t.a ≠ t.c ∧ t.b ≠ t.c

theorem mem_perms {ns : List JsFloat} {t : Combo} : t ∈ perms ns ↔ t.Of ns := by
  unfold perms Combo.Of
  simp only [List.mem_flatMap, List.mem_map, List.mem_filter, decide_eq_true_eq]
  constructor
  · rintro ⟨a, ha, b, ⟨hb, hba⟩, c, ⟨hc, hca, hcb⟩, rfl⟩
    exact ⟨ha, hb, hc, Ne.symm hba, Ne.symm hca, Ne.symm hcb⟩
  · rintro ⟨ha, hb, hc, hab, hac, hbc⟩
    exact ⟨t.a, ha, t.b, ⟨hb, hab.symm⟩, t.c, ⟨hc, hac.symm, hbc.symm⟩, rfl⟩

/-- Each triple stands once. -/
theorem nodup_perms {ns : List JsFloat} (h : ns.Nodup) : (perms ns).Nodup := by
  unfold perms
  rw [List.nodup_flatMap]
  constructor
  · intro a _
    rw [List.nodup_flatMap]
    constructor
    · intro b _
      exact (h.filter _).map fun c c' hc => (Combo.mk.inj hc).2.2
    · refine (h.filter _).pairwise_of_forall_ne fun b _ b' _ hb => ?_
      rw [Function.onFun, List.disjoint_left]
      rintro t ht ht'
      obtain ⟨c, -, rfl⟩ := List.mem_map.1 ht
      obtain ⟨c', -, hc'⟩ := List.mem_map.1 ht'
      exact hb (Combo.mk.inj hc').2.1.symm
  · refine h.pairwise_of_forall_ne fun a _ a' _ ha => ?_
    rw [Function.onFun, List.disjoint_left]
    rintro t ht ht'
    obtain ⟨b, -, ht⟩ := List.mem_flatMap.1 ht
    obtain ⟨c, -, rfl⟩ := List.mem_map.1 ht
    obtain ⟨b', -, ht'⟩ := List.mem_flatMap.1 ht'
    obtain ⟨c', -, hc'⟩ := List.mem_map.1 ht'
    exact ha (Combo.mk.inj hc').1.symm

/-! ## Scoring the triples -/

/-- The odds are looked up among the entries of the odds. -/
theorem orProp_trifectaOdds (d : Dict JsDoc) (key : String) : orProp (trifectaOdds d) key = Dict.get? key (trifectaOf d) := by
  unfold trifectaOdds trifectaOf
  cases Dict.get? "odds" d with
  | none => rfl
  | some odds =>
    cases odds with
    | obj os =>
      simp only [orProp]
      cases Dict.get? "trifecta" os with
      | none => rfl
      | some v => cases v <;> rfl
    | _ => rfl

/-- The odds of accepted data can be looked up. -/
theorem returns_oddsOf {d : Dict JsDoc} {ps : List JsDoc} {cars : List JsFloat} (h : Accepted d ps cars) (t : Combo) :
    Returns (oddsOf (trifectaOdds d) t) := by
  unfold oddsOf
  rw [orProp_trifectaOdds]
  dsimp only
  split
  · exact returns_ok _
  · rw [returns_map]
    cases hv : Dict.get? t.key (trifectaOf d) with
    | none => exact returns_ok _
    | some v =>
      obtain ⟨x, hx, -⟩ := (h.odds _ (Dict.mem_of_get? hv)).positive
      exact ⟨x, hx⟩

/-- A scored triple is the one it was made of. -/
theorem scoreCombo_combo {rs : Rankings} {pm : List (JsFloat × JsDoc)} {odds : JsVal} {t : Combo} {r : Row}
    (h : scoreCombo rs pm odds t = .ok r) : r.combo = t ∧ oddsOf odds t = .ok r.odds := by
  unfold scoreCombo at h
  obtain ⟨_, -, h⟩ := bind_ok.1 h
  obtain ⟨_, -, h⟩ := bind_ok.1 h
  obtain ⟨_, -, h⟩ := bind_ok.1 h
  obtain ⟨_, -, h⟩ := bind_ok.1 h
  obtain ⟨_, -, h⟩ := bind_ok.1 h
  obtain ⟨_, -, h⟩ := bind_ok.1 h
  obtain ⟨o, ho, h⟩ := bind_ok.1 h
  cases Except.ok.inj h
  exact ⟨rfl, ho⟩

/-- The triples of the cars of ranked riders can be scored. -/
theorem returns_scoreCombo {w : Weights} {d : Dict JsDoc} {ps : List JsDoc} {cars : List JsFloat} {rs : Rankings} {t : Combo}
    (h : Accepted d ps cars) (hrs : rankings w ps = .ok rs) (ht : t.Of cars) :
    Returns (scoreCombo rs (cars.zip ps) (trifectaOdds d) t) := by
  obtain ⟨first, hfirst, hrs⟩ := bind_ok.1 hrs
  obtain ⟨second, hsecond, hrs⟩ := bind_ok.1 hrs
  obtain ⟨third, hthird, hrs⟩ := bind_ok.1 hrs
  cases Except.ok.inj hrs
  obtain ⟨ha, hb, hc, -⟩ := ht
  have hall : Returns (scoreCombo { first := first, second := second, third := third } (cars.zip ps) (trifectaOdds d) t) ↔
      Returns (mapGet (cars.zip ps) t.a) ∧ Returns (mapGet (cars.zip ps) t.b) ∧ Returns (mapGet (cars.zip ps) t.c) ∧
      Returns (mapGet first t.a) ∧ Returns (mapGet second t.b) ∧ Returns (mapGet third t.c) ∧
      Returns (oddsOf (trifectaOdds d) t) ∧ True :=
    returns_bind_const fun _ _ => returns_bind_const fun _ _ => returns_bind_const fun _ _ => returns_bind_const fun _ _ =>
      returns_bind_const fun _ _ => returns_bind_const fun _ _ => returns_bind_const fun _ _ => iff_true_intro (returns_pure _)
  rw [hall]
  simp only [returns_mapGet, map_fst_zip h.carsOf, (rank_cars hfirst h.carsOf).mem_iff, (rank_cars hsecond h.carsOf).mem_iff,
    (rank_cars hthird h.carsOf).mem_iff]
  exact ⟨ha, hb, hc, ha, hb, hc, returns_oddsOf h t, trivial⟩

/-- Rows with the same triples and odds have the same triples. -/
theorem combos_of_pairs {rows rows' : List Row} (h : rows.map (fun r => (r.combo, r.odds)) = rows'.map fun r => (r.combo, r.odds)) :
    rows.map Row.combo = rows'.map Row.combo := by
  have hfst := congrArg (List.map Prod.fst) h
  rw [List.map_map, List.map_map] at hfst
  exact hfst

/-- Normalising the scores keeps the triples and their odds. -/
theorem norm_rows (exp : JsFloat → JsFloat) (rows : List Row) :
    (norm exp rows).map (fun r => (r.combo, r.odds)) = rows.map fun r => (r.combo, r.odds) := by
  unfold norm
  rw [List.map_map]
  rfl

section Generate

variable {exp : JsFloat → JsFloat} {w : Weights} {d : Dict JsDoc} {ps : List JsDoc} {cars : List JsFloat}

theorem listOf_players (h : Accepted d ps cars) : listOf (Dict.get? "players" d) = .ok ps := by
  rw [h.players]
  rfl

/-- The triples are generated exactly when each rider can be scored. -/
theorem returns_generate (h : Accepted d ps cars) : Returns (generate exp w d) ↔ ∀ p ∈ ps, Scorable p := by
  unfold generate
  rw [listOf_players h, ← returns_rankings (w := w) h.riders]
  refine (returns_bind_const fun ps' hps' => ?_).trans (and_iff_right (returns_ok ps))
  cases Except.ok.inj hps'
  rw [playerMap_eq h.carsOf, returns_bind_const (P := True), and_true]
  intro rs hrs
  refine iff_true_intro ((returns_bind_const fun pm hpm => ?_).2 ⟨returns_ok _, trivial⟩)
  cases Except.ok.inj hpm
  refine iff_true_intro ((returns_bind_const fun _ _ => iff_true_intro (returns_pure _)).2 ⟨returns_mapM.2 fun t ht => ?_, trivial⟩)
  rw [mem_perms] at ht
  have hcars := perm_carNumbers h.carsOf h.distinct
  obtain ⟨ha, hb, hc, hne⟩ := ht
  exact returns_scoreCombo h hrs ⟨hcars.mem_iff.1 ha, hcars.mem_iff.1 hb, hcars.mem_iff.1 hc, hne⟩

/-- The triples that are generated are those of the cars, each with its odds. -/
theorem generate_rows {g : Generated} (h : Accepted d ps cars) (hg : generate exp w d = .ok g) :
    (g.trifectaScores.map Row.combo).Perm (perms (carNumbers (cars.zip ps))) ∧
      ∀ r ∈ g.trifectaScores, oddsOf (trifectaOdds d) r.combo = .ok r.odds := by
  obtain ⟨ps', hps', hg⟩ := bind_ok.1 hg
  rw [listOf_players h] at hps'
  cases Except.ok.inj hps'
  obtain ⟨rs, -, hg⟩ := bind_ok.1 hg
  obtain ⟨pm, hpm, hg⟩ := bind_ok.1 hg
  rw [playerMap_eq h.carsOf] at hpm
  cases Except.ok.inj hpm
  obtain ⟨rows, hrows, hg⟩ := bind_ok.1 hg
  cases Except.ok.inj hg
  have hscored := mapM_ok_iff.1 hrows
  have hpairs : ∀ sorted, ((norm exp sorted).map
      fun r => { r with oddsProbabilityProduct := r.odds.map (mul r.estimatedProbability) }).map (fun r => (r.combo, r.odds)) =
      sorted.map fun r => (r.combo, r.odds) := by
    intro sorted
    refine Eq.trans ?_ (norm_rows exp sorted)
    rw [List.map_map]
    rfl
  constructor
  · have hcombos : rows.map Row.combo = perms (carNumbers (cars.zip ps)) := by
      have hall : List.Forall₂ (fun c t => c = t) (rows.map Row.combo) (perms (carNumbers (cars.zip ps))) := by
        rw [List.forall₂_map_left_iff]
        exact hscored.flip.imp fun r t hr => (scoreCombo_combo hr).1
      rwa [List.forall₂_eq_eq_eq] at hall
    rw [← hcombos]
    exact (List.Perm.of_eq (combos_of_pairs (hpairs _))).trans (perm_sortBy.map Row.combo)
  · intro r hr
    have hmem := List.mem_map_of_mem (f := fun r : Row => (r.combo, r.odds)) hr
    rw [hpairs] at hmem
    obtain ⟨r', hr', heq⟩ := List.mem_map.1 hmem
    obtain ⟨t, -, ht⟩ := exists_of_mem_right hscored (perm_sortBy.mem_iff.1 hr')
    obtain ⟨hcombo, hodds⟩ := scoreCombo_combo ht
    obtain ⟨h₁, h₂⟩ := Prod.mk.inj heq
    rw [← h₁, ← h₂, hcombo, hodds]

end Generate

/-! ## Picks -/

/-- What is taken was not used before, is taken once, and is at most the limit. -/
theorem take_spec {limit : ℕ} {used : List String} {rows : List Row} (hu : used.Nodup) :
    (take limit used rows).2 = used ++ (take limit used rows).1.map Row.key ∧ (take limit used rows).2.Nodup ∧
      (take limit used rows).1.length ≤ limit ∧ ∀ r ∈ (take limit used rows).1, r ∈ rows := by
  induction rows generalizing limit used with
  | nil => cases limit <;> simpa [take] using hu
  | cons r rows ih =>
    cases limit with
    | zero => simpa [take] using hu
    | succ limit =>
      rw [take]
      split
      · obtain ⟨h₁, h₂, h₃, h₄⟩ := @ih (limit + 1) used hu
        exact ⟨h₁, h₂, h₃, fun x hx => List.mem_cons_of_mem _ (h₄ x hx)⟩
      · rename_i hr
        have hu' : (used ++ [r.key]).Nodup := List.nodup_append.2 ⟨hu, List.nodup_singleton _, by
          intro a ha b hb hab
          rw [List.mem_singleton] at hb
          exact hr (hb ▸ hab ▸ ha)⟩
        obtain ⟨h₁, h₂, h₃, h₄⟩ := @ih limit _ hu'
        refine ⟨?_, h₂, Nat.succ_le_succ h₃, ?_⟩
        · rw [h₁, List.map_cons, List.append_assoc]
          rfl
        · intro x hx
          rcases List.mem_cons.1 hx with rfl | hx
          · exact List.mem_cons_self
          · exact List.mem_cons_of_mem _ (h₄ x hx)

/-- The picks of a category are the rows that were picked. -/
theorem category_picks {key name scope : String} {available : ℕ} {picked : List Row} {hasOdds : Bool} :
    (category key name scope available picked hasOdds).picks.map Pick.toRow = picked := by
  unfold category
  rw [List.map_map]
  exact List.zipIdx_map_fst 0 picked

/-- The picked rows of categories. -/
def pickedRows (cats : List Category) : List Row := cats.flatMap fun c => c.picks.map Pick.toRow

/-- Categories that go by the odds pick what was not used before, each row once and at most three in a category. -/
theorem oddsCategories_spec {known : List Row} {hasOdds : Bool} {rules : List CategoryRule} {used : List String} (hu : used.Nodup) :
    (oddsCategories known hasOdds rules used).2 =
        used ++ (pickedRows (oddsCategories known hasOdds rules used).1).map Row.key ∧
      (oddsCategories known hasOdds rules used).2.Nodup ∧
      (oddsCategories known hasOdds rules used).1.length = rules.length ∧
      (∀ c ∈ (oddsCategories known hasOdds rules used).1, c.picks.length ≤ 3) ∧
      ∀ r ∈ pickedRows (oddsCategories known hasOdds rules used).1, r ∈ known := by
  induction rules generalizing used with
  | nil =>
    refine ⟨by simp [oddsCategories, pickedRows], hu, rfl, fun c hc => ?_, fun r hr => ?_⟩
    · exact absurd hc List.not_mem_nil
    · exact absurd hr List.not_mem_nil
  | cons rule rules ih =>
    obtain ⟨eligible, picked, used', hrun, h₁, h₂, h₃, h₄⟩ : ∃ eligible picked used',
        oddsCategories known hasOdds (rule :: rules) used =
          (category rule.key rule.name "confirmed_odds_only" eligible picked hasOdds ::
            (oddsCategories known hasOdds rules used').1, (oddsCategories known hasOdds rules used').2) ∧
        used' = used ++ picked.map Row.key ∧ used'.Nodup ∧ picked.length ≤ 3 ∧ ∀ r ∈ picked, r ∈ known := by
      cases hasOdds with
      | false => exact ⟨_, [], used, rfl, by simp, hu, by simp, fun r hr => absurd hr List.not_mem_nil⟩
      | true =>
        refine ⟨_, _, _, rfl, (take_spec hu).1, (take_spec hu).2.1, (take_spec hu).2.2.1, fun r hr => ?_⟩
        exact (List.mem_filter.1 (perm_sortBy.mem_iff.1 ((take_spec hu).2.2.2 r hr))).1
    obtain ⟨i₁, i₂, i₃, i₄, i₅⟩ := ih h₂
    have hrows : pickedRows (category rule.key rule.name "confirmed_odds_only" eligible picked hasOdds ::
        (oddsCategories known hasOdds rules used').1) = picked ++ pickedRows (oddsCategories known hasOdds rules used').1 := by
      rw [pickedRows, List.flatMap_cons, category_picks]
      rfl
    rw [hrun, hrows]
    refine ⟨?_, i₂, ?_, ?_, ?_⟩
    · rw [i₁, h₁, List.map_append, List.append_assoc]
    · rw [List.length_cons, i₃, List.length_cons]
    · refine List.forall_mem_cons.2 ⟨?_, i₄⟩
      rw [← List.length_map Pick.toRow, category_picks]
      exact h₃
    · intro r hr
      rcases List.mem_append.1 hr with hr | hr
      · exact h₄ r hr
      · exact i₅ r hr

/-- A selection has five categories with at most three picks each, and picks no key twice. -/
theorem select_spec (rows : List Row) : (select rows).categories.length = 5 ∧ (∀ c ∈ (select rows).categories, c.picks.length ≤ 3) ∧
    ((pickedRows (select rows).categories).map Row.key).Nodup ∧ ∀ r ∈ pickedRows (select rows).categories, r ∈ rows := by
  obtain ⟨h₁, h₂, h₃, h₄⟩ := @take_spec 3 [] (prob rows) List.nodup_nil
  obtain ⟨i₁, i₂, i₃, i₄, i₅⟩ := @oddsCategories_spec (rows.filter fun r => r.odds.isSome)
    (decide (0 < (rows.filter fun r => r.odds.isSome).length)) oddsRules _ h₂
  have hcats : (select rows).categories = category "hit_priority" "的中率優先" "all_combinations" rows.length
      (take 3 [] (prob rows)).1 (decide (0 < (rows.filter fun r => r.odds.isSome).length)) ::
      (oddsCategories (rows.filter fun r => r.odds.isSome) (decide (0 < (rows.filter fun r => r.odds.isSome).length)) oddsRules
        (take 3 [] (prob rows)).2).1 := rfl
  have hrows : pickedRows (select rows).categories = (take 3 [] (prob rows)).1 ++
      pickedRows (oddsCategories (rows.filter fun r => r.odds.isSome)
        (decide (0 < (rows.filter fun r => r.odds.isSome).length)) oddsRules (take 3 [] (prob rows)).2).1 := by
    rw [hcats, pickedRows, List.flatMap_cons, category_picks]
    rfl
  refine ⟨?_, ?_, ?_, ?_⟩
  · rw [hcats, List.length_cons, i₃]
    rfl
  · rw [hcats]
    refine List.forall_mem_cons.2 ⟨?_, i₄⟩
    rw [← List.length_map Pick.toRow, category_picks]
    exact h₃
  · rw [i₁] at i₂
    rw [List.nil_append] at h₁
    rw [hrows, List.map_append, ← h₁]
    exact i₂
  · intro r hr
    rw [hrows] at hr
    rcases List.mem_append.1 hr with hr | hr
    · exact perm_sortBy.mem_iff.1 (h₄ r hr)
    · exact (List.mem_filter.1 (i₅ r hr)).1

/-! ## Reasons -/

theorem returns_evaluation {label : String} {v : JsVal} : Returns (evaluation label v) ↔ Textual v := by
  unfold evaluation
  split
  · exact ⟨fun _ => textual_of_nullish ‹_›, fun _ => returns_ok _⟩
  · constructor
    · intro h
      obtain ⟨x, hx, -⟩ := returns_bind.1 h
      exact returns_number.1 ⟨x, hx⟩
    · intro h
      refine (returns_number.2 h).bind fun x _ => ?_
      split
      · exact returns_pure _
      · exact Returns.bind h fun t _ => returns_pure _

theorem returns_atLeastFive {v : JsVal} : Returns (atLeastFive v) ↔ Textual v := by
  unfold atLeastFive
  split
  · exact ⟨fun _ => textual_of_nullish ‹_›, fun _ => returns_ok _⟩
  · rw [returns_map, returns_number]

theorem returns_optionalText {tell : String → String} {v : JsVal} : Returns (optionalText tell v) ↔ Textual v := by
  unfold optionalText
  split
  · exact ⟨fun _ => textual_of_nullish ‹_›, fun _ => returns_ok _⟩
  · exact returns_map

theorem returns_leading {tell : String → String} {v : JsVal} (h : Textual v) : Returns (leading tell v) := by
  refine (returns_atLeastFive.2 h).bind fun enough _ => ?_
  split
  · exact returns_map.2 h
  · exact returns_pure _

theorem returns_styleFeature {p : JsDoc} {pos : Position} (hp : RiderOk p) : Returns (styleFeature p pos) := by
  cases pos with
  | first =>
    refine (returns_leading (hp.number "B" (by simp))).bind fun b _ => ?_
    exact (returns_leading (hp.number "H" (by simp))).bind fun h _ => returns_pure _
  | second => exact returns_ok _
  | third => exact returns_ok _

/-- The line of an accepted rider has a text where its identifier has one. -/
theorem returns_lineText {p : JsDoc} (hp : RiderOk p) : Returns (lineText p) ↔ Textual (field p "line_id") := by
  unfold lineText
  split
  · exact ⟨fun _ => textual_of_nullish ‹_›, fun _ => returns_ok _⟩
  · rw [returns_bind_const (P := True), and_true]
    · rfl
    · intro id _
      refine iff_true_intro ((returns_optionalText.2 (hp.number "line_position" (by simp))).bind fun position _ => ?_)
      exact (returns_optionalText.2 (hp.number "line_length" (by simp))).bind fun length _ => returns_pure _

/-- What speaks for an accepted rider that was scored can be told where the identifier of its line has a text. -/
theorem returns_riderReason {label : String} {car : JsFloat} {p : JsDoc} {pos : Position} (hp : RiderOk p) (hs : Scorable p) :
    Returns (riderReason label car p pos) ↔ Textual (field p "line_id") := by
  have hfeature : Returns (feature p pos) ↔ Textual (field p "race_score") ∧ Returns (styleFeature p pos) ∧
      Textual (orProp (field p "condition") "score") ∧ Textual (orProp (field p "bank_fit") "score") ∧
      Returns (lineText p) ∧ True := by
    rw [← @returns_optionalText (fun t => "競走得点" ++ t), ← @returns_evaluation "状態評価",
      ← @returns_evaluation "バンク適性" (orProp (field p "bank_fit") "score")]
    exact returns_bind_const fun _ _ => returns_bind_const fun _ _ => returns_bind_const fun _ _ => returns_bind_const fun _ _ =>
      returns_bind_const fun _ _ => iff_true_intro (returns_pure _)
  have h : Returns (riderReason label car p pos) ↔ Textual (field p "name") ∧ Returns (feature p pos) ∧ True :=
    returns_bind_const fun _ _ => returns_bind_const fun _ _ => iff_true_intro (returns_pure _)
  obtain ⟨name, hname⟩ := hp.name
  rw [h, hfeature, returns_lineText hp, hname]
  constructor
  · rintro ⟨-, ⟨-, -, -, -, hline, -⟩, -⟩
    exact hline
  · intro hline
    exact ⟨textual_str name, ⟨hp.number _ (by simp), returns_styleFeature hp, hs.condition, hs.bankFit, hline, trivial⟩, trivial⟩

/-- The riders of the cars of a triple have lines that can be read. -/
def LinesReadable (ps : List JsDoc) (t : Combo) : Prop :=
  ∀ p ∈ ps, ∀ car, number (field p "car_number") = .ok car → car ∈ [t.a, t.b, t.c] → Textual (field p "line_id")

/-- A car and its rider stand together. -/
theorem mem_zip_cars {ps : List JsDoc} {cars : List JsFloat} (h : List.Forall₂ CarOf ps cars) {car : JsFloat} {p : JsDoc} :
    (car, p) ∈ cars.zip ps ↔ p ∈ ps ∧ number (field p "car_number") = .ok car := by
  induction h with
  | nil => simp
  | @cons q x ps cars hq _ ih =>
    rw [List.zip_cons_cons, List.mem_cons, ih, List.mem_cons]
    constructor
    · rintro (heq | ⟨hp, hcar⟩)
      · obtain ⟨rfl, rfl⟩ := Prod.mk.inj heq
        exact ⟨.inl rfl, hq.1⟩
      · exact ⟨.inr hp, hcar⟩
    · rintro ⟨rfl | hp, hcar⟩
      · rw [hq.1] at hcar
        rw [Except.ok.inj hcar]
        exact .inl rfl
      · exact .inr ⟨hp, hcar⟩

section Reasons

variable {d : Dict JsDoc} {ps : List JsDoc} {cars : List JsFloat}

/-- The rider of a car. -/
theorem exists_rider (h : Accepted d ps cars) {car : JsFloat} (hcar : car ∈ cars) :
    ∃ p ∈ ps, mapGet (cars.zip ps) car = .ok p ∧ number (field p "car_number") = .ok car ∧
      ∀ q ∈ ps, number (field q "car_number") = .ok car → q = p := by
  obtain ⟨p, hp⟩ := returns_mapGet.2 ((map_fst_zip h.carsOf).symm ▸ hcar : car ∈ (cars.zip ps).map Prod.fst)
  obtain ⟨hmem, hnumber⟩ := (mem_zip_cars h.carsOf).1 (mem_of_mapGet hp)
  refine ⟨p, hmem, hp, hnumber, fun q hq hqcar => ?_⟩
  have hd : ((cars.zip ps).map Prod.fst).Nodup := (map_fst_zip h.carsOf).symm ▸ h.distinct
  have heq := List.inj_on_of_nodup_map hd ((mem_zip_cars h.carsOf).2 ⟨hq, hqcar⟩) (mem_of_mapGet hp) rfl
  exact (Prod.mk.inj heq).2

/-- A reason can be given exactly where the lines of the three riders can be read. -/
theorem returns_reason (h : Accepted d ps cars) (hs : ∀ p ∈ ps, Scorable p) {row : Row} (ht : row.combo.Of cars) :
    Returns (reason (cars.zip ps) row) ↔ LinesReadable ps row.combo := by
  obtain ⟨pa, ha, hmapa, hcara, huniqa⟩ := exists_rider h ht.1
  obtain ⟨pb, hb, hmapb, hcarb, huniqb⟩ := exists_rider h ht.2.1
  obtain ⟨pc, hc, hmapc, hcarc, huniqc⟩ := exists_rider h ht.2.2.1
  have hall : Returns (reason (cars.zip ps) row) ↔ Returns (riderReason "1着" row.combo.a pa .first) ∧
      Returns (riderReason "2着" row.combo.b pb .second) ∧ Returns (riderReason "3着" row.combo.c pc .third) ∧ True := by
    unfold reason
    rw [hmapa, hmapb, hmapc]
    exact returns_bind_const fun _ _ => returns_bind_const fun _ _ => returns_bind_const fun _ _ => iff_true_intro (returns_pure _)
  rw [hall, returns_riderReason (h.riders _ ha) (hs _ ha), returns_riderReason (h.riders _ hb) (hs _ hb),
    returns_riderReason (h.riders _ hc) (hs _ hc), and_true]
  constructor
  · rintro ⟨hla, hlb, hlc⟩ p hp car hcar hmem
    simp only [List.mem_cons, List.not_mem_nil, or_false] at hmem
    rcases hmem with rfl | rfl | rfl
    · rwa [huniqa p hp hcar]
    · rwa [huniqb p hp hcar]
    · rwa [huniqc p hp hcar]
  · intro hl
    exact ⟨hl pa ha _ hcara (by simp), hl pb hb _ hcarb (by simp), hl pc hc _ hcarc (by simp)⟩

end Reasons

/-- Reasons can be attached exactly where each pick can be given one. -/
theorem returns_attach {pm : List (JsFloat × JsDoc)} {s : Selection} :
    Returns (attach pm s) ↔ ∀ r ∈ pickedRows s.categories, Returns (reason pm r) := by
  unfold attach
  rw [returns_bind_const (P := True) fun _ _ => iff_true_intro (returns_pure _), and_true, returns_mapM]
  unfold pickedRows
  simp only [List.mem_flatMap, List.mem_map]
  constructor
  · rintro h r ⟨c, hc, pick, hpick, rfl⟩
    obtain ⟨picks, hpicks, -⟩ := returns_bind.1 (h c hc)
    exact returns_map.1 (returns_mapM.1 ⟨picks, hpicks⟩ pick hpick)
  · intro h c hc
    refine Returns.bind (returns_mapM.2 fun pick hpick => returns_map.2 ?_) fun _ _ => returns_pure _
    exact h _ ⟨c, hc, pick, hpick, rfl⟩

/-- Attaching reasons keeps the picks. -/
theorem attach_categories {pm : List (JsFloat × JsDoc)} {s s' : Selection} (h : attach pm s = .ok s') :
    List.Forall₂ (fun c c' : Category => c'.picks.map Pick.toRow = c.picks.map Pick.toRow) s.categories s'.categories := by
  obtain ⟨cats, hcats, h⟩ := bind_ok.1 h
  cases Except.ok.inj h
  refine (mapM_ok_iff.1 hcats).imp fun c c' hc => ?_
  obtain ⟨picks, hpicks, hc⟩ := bind_ok.1 hc
  cases Except.ok.inj hc
  have hall : List.Forall₂ (fun r r' => r = r') (picks.map Pick.toRow) (c.picks.map Pick.toRow) := by
    rw [List.forall₂_map_left_iff, List.forall₂_map_right_iff]
    refine (mapM_ok_iff.1 hpicks).flip.imp fun pick' pick hpick => ?_
    obtain ⟨t, -, ht⟩ := bind_ok.1 hpick
    cases Except.ok.inj ht
    rfl
  rwa [List.forall₂_eq_eq_eq] at hall

/-- A selection as `select` leaves it, also after reasons were attached. -/
structure SelectionOk (s : Selection) : Prop where
  five : s.categories.length = 5
  atMostThree : ∀ c ∈ s.categories, c.picks.length ≤ 3
  once : ((s.categories.flatMap Category.picks).map fun p => p.key).Nodup

/-- Attaching reasons keeps the rows that were picked, category by category. -/
theorem attach_selection {pm : List (JsFloat × JsDoc)} {s s' : Selection} (h : attach pm s = .ok s') :
    s'.categories.length = s.categories.length ∧ pickedRows s'.categories = pickedRows s.categories ∧
      ∀ c' ∈ s'.categories, ∃ c ∈ s.categories, c'.picks.length = c.picks.length := by
  have hall := attach_categories h
  refine ⟨hall.length_eq.symm, ?_, ?_⟩
  · have hmap : (s'.categories.map fun c => c.picks.map Pick.toRow) = s.categories.map fun c => c.picks.map Pick.toRow := by
      have heq : List.Forall₂ (fun r r' => r = r') (s'.categories.map fun c => c.picks.map Pick.toRow)
          (s.categories.map fun c => c.picks.map Pick.toRow) := by
        rw [List.forall₂_map_left_iff, List.forall₂_map_right_iff]
        exact hall.flip
      rwa [List.forall₂_eq_eq_eq] at heq
    unfold pickedRows
    rw [List.flatMap_def, List.flatMap_def, hmap]
  · intro c' hc'
    obtain ⟨c, hc, hpicks⟩ := exists_of_mem_right hall hc'
    refine ⟨c, hc, ?_⟩
    have hlength := congrArg List.length hpicks
    rwa [List.length_map, List.length_map] at hlength

/-- The selection of scored triples satisfies what the prediction checks of it. -/
theorem selectionOk {pm : List (JsFloat × JsDoc)} {rows : List Row} {s : Selection} (h : attach pm (select rows) = .ok s) :
    SelectionOk s := by
  obtain ⟨hlength, hrows, hpicks⟩ := attach_selection h
  obtain ⟨h₁, h₂, h₃, -⟩ := select_spec rows
  refine ⟨hlength.trans h₁, ?_, ?_⟩
  · intro c' hc'
    obtain ⟨c, hc, heq⟩ := hpicks c' hc'
    exact heq ▸ h₂ c hc
  · rw [← hrows] at h₃
    unfold pickedRows at h₃
    simp only [List.map_flatMap, List.map_map] at h₃
    rw [List.map_flatMap]
    exact h₃

section Build

variable {exp : JsFloat → JsFloat} {w : Weights} {d : Dict JsDoc} {ps : List JsDoc} {cars : List JsFloat}

/-- A prediction is made of what was generated and of a selection of it. -/
theorem buildFull_parts {g : Generated} (h : Accepted d ps cars) (hg : generate exp w d = .ok g) {out : Prediction}
    (hout : buildFullPredictionWithWeights exp w d = .ok out) :
    out.trifectaScores = g.trifectaScores ∧ attach (cars.zip ps) (select g.trifectaScores) = .ok out.selectedPredictions := by
  obtain ⟨g', hg', hout⟩ := bind_ok.1 hout
  rw [hg] at hg'
  cases Except.ok.inj hg'
  obtain ⟨ps', hps', hout⟩ := bind_ok.1 hout
  rw [listOf_players h] at hps'
  cases Except.ok.inj hps'
  obtain ⟨pm, hpm, hout⟩ := bind_ok.1 hout
  rw [playerMap_eq h.carsOf] at hpm
  cases Except.ok.inj hpm
  obtain ⟨s, hs, hout⟩ := bind_ok.1 hout
  dsimp only at hout
  split at hout
  · nomatch hout
  · split at hout
    · nomatch hout
    · split at hout
      · nomatch hout
      · cases Except.ok.inj hout
        exact ⟨rfl, hs⟩

/-- A prediction is made exactly where a reason can be given for each pick. -/
theorem returns_buildFull {g : Generated} (h : Accepted d ps cars) (hg : generate exp w d = .ok g) :
    Returns (buildFullPredictionWithWeights exp w d) ↔ Returns (attach (cars.zip ps) (select g.trifectaScores)) := by
  constructor
  · rintro ⟨out, hout⟩
    exact ⟨_, (buildFull_parts h hg hout).2⟩
  · rintro ⟨s, hs⟩
    have hok := selectionOk hs
    unfold buildFullPredictionWithWeights
    rw [hg, listOf_players h]
    refine Returns.bind (returns_ok g) fun g' hg' => Returns.bind (returns_ok ps) fun ps' hps' => ?_
    cases Except.ok.inj hg'
    cases Except.ok.inj hps'
    rw [playerMap_eq h.carsOf]
    refine Returns.bind (returns_ok _) fun pm hpm => ?_
    cases Except.ok.inj hpm
    rw [hs]
    refine Returns.bind (returns_ok s) fun s' hs' => ?_
    cases Except.ok.inj hs'
    have hmax : (s.categories.all fun c => c.picks.length ≤ 3) = true := by
      rw [List.all_eq_true]
      exact fun c hc => decide_eq_true (hok.atMostThree c hc)
    dsimp only
    rw [if_neg, if_neg, if_neg]
    · exact returns_pure _
    · rw [hok.five]
      decide
    · rw [hmax]
      decide
    · rw [List.dedup_eq_self.2 hok.once, List.length_map]
      exact fun hne => hne rfl

end Build

end PredictEngine

end Keirin

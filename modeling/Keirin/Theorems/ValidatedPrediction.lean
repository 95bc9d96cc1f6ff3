import Keirin.Lemmas.PredictEngine

/-!
# Predictions of accepted race data

Accepted race data is predicted exactly where the engine can read what nothing checked before: the form, the meet, the comments and
the evaluations of every rider, the name of the source, and the line of every rider that is picked.
-/

namespace Keirin

namespace PredictEngine

open JsVal JsFloat RaceDataContract

/-- A prediction with the triples of all riders, each once, and five categories that pick at most three triples each and none
twice. -/
def WellFormed (d : Dict JsDoc) (out : Prediction) : Prop :=
  ∃ cars, List.Forall₂ CarOf (playersOf d) cars ∧ cars.Nodup ∧
    (∀ t : Combo, t.Of cars → (out.trifectaScores.map Row.combo).count t = 1) ∧ (∀ r ∈ out.trifectaScores, r.combo.Of cars) ∧
    out.selectedPredictions.categories.length = 5 ∧ (∀ c ∈ out.selectedPredictions.categories, c.picks.length ≤ 3) ∧
    ((out.selectedPredictions.categories.flatMap Category.picks).map fun p => p.combo).Nodup

/-- The odds are filtered and a prediction is made of what is left. -/
def Predicts (exp : JsFloat → JsFloat) (w : Weights) (input : JsDoc) : Prop :=
  ∃ d report out, sanitizeKnownOdds input = .ok (.obj d, report) ∧ buildFullPredictionWithWeights exp w d = .ok out ∧ WellFormed d out

/-- What is read of the data without a check before can be read, but for the lines of the riders. -/
structure Readable (d : Dict JsDoc) : Prop where
  source : Textual (orProp (Dict.get? "prediction_context" d) "source")
  riders : ∀ p ∈ playersOf d, Scorable p

/-- The riders of the triples that are picked have lines that can be read. -/
def PickedLinesReadable (exp : JsFloat → JsFloat) (w : Weights) (input : JsDoc) : Prop :=
  ∀ d report g, sanitizeKnownOdds input = .ok (.obj d, report) → generate exp w d = .ok g →
    ∀ r ∈ pickedRows (select g.trifectaScores).categories, LinesReadable (playersOf d) r.combo

section

variable {exp : JsFloat → JsFloat} {w : Weights} {d : Dict JsDoc} {ps : List JsDoc} {cars : List JsFloat}

/-- The picked triples are triples of the cars. -/
theorem picked_of {g : Generated} (h : Accepted d ps cars) (hg : generate exp w d = .ok g) {r : Row}
    (hr : r ∈ pickedRows (select g.trifectaScores).categories) : r.combo.Of cars := by
  have hmem := List.mem_map_of_mem (f := Row.combo) ((select_spec g.trifectaScores).2.2.2 r hr)
  obtain ⟨ha, hb, hc, hne⟩ := mem_perms.1 ((generate_rows h hg).1.mem_iff.1 hmem)
  have hcars := perm_carNumbers h.carsOf h.distinct
  exact ⟨hcars.mem_iff.1 ha, hcars.mem_iff.1 hb, hcars.mem_iff.1 hc, hne⟩

/-- A prediction of accepted data is well formed. -/
theorem wellFormed_of_build {out : Prediction} (h : Accepted d ps cars) (hout : buildFullPredictionWithWeights exp w d = .ok out) :
    WellFormed d out := by
  obtain ⟨g, hg, -⟩ := bind_ok.1 hout
  obtain ⟨hrows, hattach⟩ := buildFull_parts h hg hout
  obtain ⟨hperm, -⟩ := generate_rows h hg
  have hcars := perm_carNumbers h.carsOf h.distinct
  have hok := selectionOk hattach
  refine ⟨cars, h.playersOf_eq.symm ▸ h.carsOf, h.distinct, ?_, ?_, hok.five, hok.atMostThree, ?_⟩
  · intro t ht
    obtain ⟨ha, hb, hc, hne⟩ := ht
    rw [hrows, hperm.count_eq]
    refine List.count_eq_one_of_mem (nodup_perms (hcars.nodup_iff.2 h.distinct)) (mem_perms.2 ⟨?_, ?_, ?_, hne⟩)
    · exact hcars.mem_iff.2 ha
    · exact hcars.mem_iff.2 hb
    · exact hcars.mem_iff.2 hc
  · intro r hr
    rw [hrows] at hr
    obtain ⟨ha, hb, hc, hne⟩ := mem_perms.1 (hperm.mem_iff.1 (List.mem_map_of_mem (f := Row.combo) hr))
    exact ⟨hcars.mem_iff.1 ha, hcars.mem_iff.1 hb, hcars.mem_iff.1 hc, hne⟩
  · have hkeys : (((out.selectedPredictions.categories.flatMap Category.picks).map fun p => p.combo).map Combo.key).Nodup := by
      rw [List.map_map]
      exact hok.once
    exact hkeys.of_map

/-- Accepted data whose riders can be scored is predicted where the lines of the riders that are picked can be read. -/
theorem returns_build_iff {g : Generated} (h : Accepted d ps cars) (hs : ∀ p ∈ ps, Scorable p) (hg : generate exp w d = .ok g) :
    Returns (buildFullPredictionWithWeights exp w d) ↔
      ∀ r ∈ pickedRows (select g.trifectaScores).categories, LinesReadable (playersOf d) r.combo := by
  rw [returns_buildFull h hg, returns_attach, h.playersOf_eq]
  exact forall₂_congr fun r hr => returns_reason h hs (picked_of h hg hr)

end

/-- Accepted data is predicted exactly where what is read of it can be read. -/
theorem predicts_iff (exp : JsFloat → JsFloat) (w : Weights) {input : JsDoc} {d : Dict JsDoc} {ps : List JsDoc} {cars : List JsFloat}
    (hinput : input = .obj d) (h : Accepted d ps cars) :
    Predicts exp w input ↔ Readable d ∧ PickedLinesReadable exp w input := by
  subst hinput
  constructor
  · rintro ⟨d', report, out, hsanitize, hout, -⟩
    obtain ⟨_, hd', h', -⟩ := h.sanitize hsanitize
    cases hd'
    obtain ⟨g, hg, -⟩ := bind_ok.1 hout
    have hs : ∀ p ∈ ps, Scorable p := (returns_generate h').1 ⟨g, hg⟩
    refine ⟨⟨h.returns_sanitize.1 ⟨_, hsanitize⟩, by rwa [h.playersOf_eq]⟩, ?_⟩
    intro d'' report'' g'' hsanitize'' hg''
    rw [hsanitize] at hsanitize''
    cases Except.ok.inj hsanitize''
    exact (returns_build_iff h' hs hg'').1 ⟨out, hout⟩
  · rintro ⟨hreadable, hlines⟩
    obtain ⟨⟨out', report⟩, hsanitize⟩ := h.returns_sanitize.2 hreadable.source
    obtain ⟨d', rfl, h', -⟩ := h.sanitize hsanitize
    have hs : ∀ p ∈ ps, Scorable p := h.playersOf_eq ▸ hreadable.riders
    obtain ⟨g, hg⟩ := (@returns_generate exp w _ _ _ h').2 hs
    obtain ⟨out, hout⟩ := (returns_build_iff h' hs hg).2 (hlines d' report g hsanitize hg)
    exact ⟨d', report, out, hsanitize, hout, wellFormed_of_build h' hout⟩

/-- A rider of a sample. -/
def sampleRider (car : String) (fields : Dict JsDoc) : JsDoc :=
  .obj ([("car_number", .str car), ("name", .str "A"), ("style", .str "逃")] ++ fields)

/-- The data of a race whose first rider has these fields. -/
def sampleRace (fields : Dict JsDoc) : Dict JsDoc :=
  [("race", .obj [("date", .str "2026-09-01"), ("venue", .str "V"), ("race_number", .num (.ofInt 1))]),
    ("players", .arr [sampleRider "1" fields, sampleRider "2" [], sampleRider "3" [], sampleRider "4" []])]

/-- A rider with nothing but what must be there has nothing else. -/
theorem field_sampleRider (car : String) {key : String}
    (h : key ∈ ["recent_form", "current_meet", "comments", "condition", "bank_fit", "line_id"]) :
    field (sampleRider car []) key = none := by
  simp only [List.mem_cons, List.not_mem_nil, or_false] at h
  rcases h with rfl | rfl | rfl | rfl | rfl | rfl <;> rfl

theorem scorable_sampleRider (car : String) : Scorable (sampleRider car []) := by
  refine ⟨?_, ?_, ?_, ?_, ?_, ?_⟩
  · intro key _
    rw [field_sampleRider car (by simp)]
    exact textual_of_nullish rfl
  · rw [field_sampleRider car (by simp)]
    exact fun h => nomatch h
  · rw [field_sampleRider car (by simp)]
    exact fun h => nomatch h
  · intro key _
    rw [factors, field_sampleRider car (by simp)]
    exact textual_of_nullish rfl
  · rw [field_sampleRider car (by simp)]
    exact textual_of_nullish rfl
  · rw [field_sampleRider car (by simp)]
    exact textual_of_nullish rfl

end PredictEngine

end Keirin

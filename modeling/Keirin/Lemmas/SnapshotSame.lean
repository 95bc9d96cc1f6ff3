import Keirin.Lemmas.SelectionSame

/-!
# Snapshots and the order of keys

A snapshot, or a history, is accepted whatever the order of the keys of its mappings: the checks read fields, and what they compare as
texts is written with sorted keys. So what was accepted is accepted again when it is read back from its text.
-/

namespace Keirin

open Json (Same)
open CategorySelection

variable {v w : Doc}

namespace Doc

theorem isMapping_same (h : Same v w) : OfflinePreview.isMapping v = OfflinePreview.isMapping w := by
  rcases same_cases h with rfl | ⟨xs, ys, rfl, rfl, -⟩ | ⟨fs, gs, rfl, rfl⟩ <;> rfl

/-- The keys of the same objects. -/
theorem mem_keys_same (h : Same v w) (hv : v.keysOnce = true) (key : String) :
    key ∈ v.entries.map Prod.fst ↔ key ∈ w.entries.map Prod.fst := by
  have hsome := isSome_get?_same h hv key
  rw [get?_eq_entries, get?_eq_entries] at hsome
  rw [← Dict.get?_isSome_iff, ← Dict.get?_isSome_iff, hsome]

theorem all_keys_same (h : Same v w) (hv : v.keysOnce = true) (p : String → Bool) :
    v.entries.all (fun f => p f.1) = w.entries.all fun f => p f.1 := by
  have hall : ∀ x : Doc, x.entries.all (fun f => p f.1) = true ↔ ∀ key ∈ x.entries.map Prod.fst, p key = true := by
    intro x
    rw [List.all_eq_true, List.forall_mem_map]
  rw [Bool.eq_iff_iff, hall, hall]
  simp only [mem_keys_same h hv]

theorem pyGet_same (h : Same v w) (hv : v.keysOnce = true) (key : String) :
    (v.pyGet key).map Json.sortKeys = (w.pyGet key).map Json.sortKeys := by
  have hfield := same_field h hv key
  rcases same_cases h with rfl | ⟨xs, ys, rfl, rfl, -⟩ | ⟨fs, gs, rfl, rfl⟩
  · rfl
  · rfl
  · exact congrArg Except.ok hfield

end Doc

theorem Dataset.requireStandardConditions_same (h : Same v w) (hv : v.keysOnce = true) :
    Dataset.requireStandardConditions v = Dataset.requireStandardConditions w := by
  have hkeys := Doc.mem_keys_same h hv
  have hstatus := Doc.same_field h hv "race_status"
  have hcars := Doc.same_field h hv "withdrawn_car_numbers"
  rcases Doc.same_cases h with rfl | ⟨xs, ys, rfl, rfl, -⟩ | ⟨fs, gs, rfl, rfl⟩
  · rfl
  · rfl
  · have hnames : ((∀ k ∈ fs.map Prod.fst, k ∈ ["race_status", "withdrawn_car_numbers"]) ∧ "race_status" ∈ fs.map Prod.fst ∧
        "withdrawn_car_numbers" ∈ fs.map Prod.fst) ↔ ((∀ k ∈ gs.map Prod.fst, k ∈ ["race_status", "withdrawn_car_numbers"]) ∧
        "race_status" ∈ gs.map Prod.fst ∧ "withdrawn_car_numbers" ∈ gs.map Prod.fst) := by
      have hmem : ∀ key, key ∈ fs.map Prod.fst ↔ key ∈ gs.map Prod.fst := hkeys
      simp only [hmem]
    have hscheduled : Dict.getD fs "race_status" .null ≠ .str "scheduled" ↔ Dict.getD gs "race_status" .null ≠ .str "scheduled" :=
      not_congr (Doc.eq_str_iff hstatus "scheduled")
    have hlist : Same (Dict.getD fs "withdrawn_car_numbers" .null) (Dict.getD gs "withdrawn_car_numbers" .null) := hcars
    unfold Dataset.requireStandardConditions
    simp only [hnames, hscheduled]
    rcases Doc.same_cases hlist with heq | ⟨xs, ys, hx, hy, hxs⟩ | ⟨xs, ys, hx, hy⟩
    · rw [heq]
    · have hnil : xs ≠ [] ↔ ys ≠ [] := by rw [← List.length_pos_iff, ← List.length_pos_iff, hxs.length_eq]
      rw [hx, hy]
      simp only [hnil]
    · rw [hx, hy]

namespace OfflinePreview

theorem checkFlags_same (h : Same v w) (hv : v.keysOnce = true) (names : List String) : checkFlags v names = checkFlags w names := by
  induction names with
  | nil => rfl
  | cons name names ih =>
    rw [checkFlags, checkFlags, ih]
    simp only [Doc.eq_bool_iff (Doc.same_field h hv name)]

theorem checkRank_same (h : Same v w) (hv : v.keysOnce = true) (count : ℕ) (seen : List ℤ) (rank : ℕ) :
    checkRank count seen rank v = checkRank count seen rank w := by
  have hfield := Doc.same_field h hv
  unfold checkRank
  rw [Doc.int?_same (hfield "car_number"), isProbability_same (hfield "estimated_probability")]
  simp only [Doc.eq_num_iff (hfield "rank")]

theorem checkRanks_same {xs ys : List Doc} (h : List.Forall₂ Same xs ys) (hkeys : ∀ x ∈ xs, x.keysOnce = true) (count : ℕ) (seen : List ℤ)
    (mass : ℚ) (rank : ℕ) : checkRanks count seen mass rank xs = checkRanks count seen mass rank ys := by
  induction h generalizing seen mass rank with
  | nil => rfl
  | cons hxy _ ih =>
    rw [List.forall_mem_cons] at hkeys
    rw [checkRanks, checkRanks, checkRank_same hxy hkeys.1, valueOf_same (Doc.same_field hxy hkeys.1 "estimated_probability")]
    exact congrArg _ (funext fun car => ih hkeys.2 _ _ _)

/-- A list of a given length. -/
theorem filter_elements_same {n : ℕ} (h : Same v w) (hv : v.keysOnce = true) {α : Type} {message : String}
    {f g : List Doc → Except PyError α} (hfg : ∀ xs ys, List.Forall₂ Same xs ys → (∀ x ∈ xs, x.keysOnce = true) → f xs = g ys) :
    (require (v.elements?.filter fun rows => rows.length = n) message >>= f) =
      (require (w.elements?.filter fun rows => rows.length = n) message >>= g) := by
  rcases Doc.same_cases h with rfl | ⟨xs, ys, rfl, rfl, hxs⟩ | ⟨fs, gs, rfl, rfl⟩
  · cases hrows : v.elements? with
    | none => rfl
    | some rows =>
      have hkeys := ModelHistory.keysOnce_elements hv
      rw [hrows] at hkeys
      rw [Option.filter_some]
      split_ifs
      · exact hfg rows rows (List.forall₂_same.2 fun x _ => Same.refl x) hkeys
      · rfl
  · show (require (Option.filter _ (some xs)) message >>= f) = (require (Option.filter _ (some ys)) message >>= g)
    rw [Option.filter_some, Option.filter_some, hxs.length_eq]
    split_ifs
    · exact hfg xs ys hxs (Doc.keysOnce_arr.1 hv)
    · rfl
  · rfl

theorem checkRankings_same (h : Same v w) (hv : v.keysOnce = true) (count : ℕ) (positions : List String) :
    checkRankings v count positions = checkRankings w count positions := by
  induction positions with
  | nil => rfl
  | cons position positions ih =>
    rw [checkRankings, checkRankings, ih]
    refine filter_elements_same (Doc.same_field h hv position) (Doc.keysOnce_field hv position) fun xs ys hxs hkeys => ?_
    rw [checkRanks_same hxs hkeys]

theorem checkSelection_same {scores scores' count count' : Doc} (hscores : Same scores scores') (hkeys : scores.keysOnce = true)
    (hcount : Same count count') (h : Same v w) : checkSelection scores count v = checkSelection scores' count' w := by
  have hmade := selectModelCategories_same hscores hkeys hcount
  unfold checkSelection
  rw [Doc.sortedText_same h]
  cases hx : selectModelCategories scores count with
  | error e =>
    cases hy : selectModelCategories scores' count' with
    | error e' =>
      rw [hx, hy] at hmade
      exact congrArg Except.error (Except.error.inj hmade)
    | ok d =>
      rw [hx, hy] at hmade
      cases hmade
  | ok c =>
    cases hy : selectModelCategories scores' count' with
    | error e' =>
      rw [hx, hy] at hmade
      cases hmade
    | ok d =>
      rw [hx, hy] at hmade
      have hsame : Same c d := Except.ok.inj hmade
      show (Doc.sortedText w >>= fun given => Doc.sortedText c >>= _) = (Doc.sortedText w >>= fun given => Doc.sortedText d >>= _)
      rw [Doc.sortedText_same hsame]

/-- A prediction may be shown, or may not, in whatever order its keys stand. -/
theorem validatePreview_same (h : Same v w) (hv : v.keysOnce = true) : validatePreview v = validatePreview w := by
  have hfield := Doc.same_field h hv
  have honce := Doc.keysOnce_field hv
  have hquality := Doc.same_field (hfield "input_quality") (honce "input_quality")
  have hstr : ∀ key s, v.field key = .str s ↔ w.field key = .str s := fun key s => Doc.eq_str_iff (hfield key) s
  have hconditions : checkGiven (v.get? "race_conditions") Dataset.requireStandardConditions =
      checkGiven (w.get? "race_conditions") Dataset.requireStandardConditions :=
    checkGiven_same (fun x y hxy hx => Dataset.requireStandardConditions_same hxy hx) h hv _
  have hpossible := fun n => Doc.eq_num_iff (hquality "possible_trifecta_count") n
  have hknown := fun n => Doc.eq_num_iff (hquality "known_trifecta_odds_count") n
  have hselected : checkGiven (v.get? "selected_predictions")
        (checkSelection (v.field "trifecta_scores") ((v.field "input_quality").field "rider_count")) =
      checkGiven (w.get? "selected_predictions")
        (checkSelection (w.field "trifecta_scores") ((w.field "input_quality").field "rider_count")) := by
    rcases Doc.get?_same_cases h hv "selected_predictions" with ⟨hx, hy⟩ | ⟨x, y, hx, hy, hxy, -⟩
    · rw [hx, hy]
      rfl
    · rw [hx, hy]
      exact checkSelection_same (hfield _) (honce _) (hquality _) hxy
  unfold validatePreview
  simp only [hconditions, hselected, checkFlags_same h hv, hstr, Doc.isMapping_same h, Doc.eq_bool_iff (hfield "success"),
    Doc.isMapping_same (hfield "input_quality"), Doc.int?_same (hquality "rider_count"), hpossible, hknown,
    validateModelScores_same (hfield "trifecta_scores") (honce _) (hquality "rider_count"),
    (Doc.elements_same (hfield "trifecta_scores")).length_eq, Doc.isMapping_same (hfield "position_rankings"),
    checkRankings_same (hfield "position_rankings") (honce _)]

end OfflinePreview

namespace ModelHistory

theorem canonical_same (h : Same v w) : canonical v = canonical w := by
  unfold canonical
  rw [Doc.checkFinite_same h, Doc.dumps_same h]

theorem iso_same (h : Same v w) (name : String) : iso v name = iso w name := by
  unfold iso
  rw [Doc.text?_same h]

theorem safety_same (h : Same v w) (hv : v.keysOnce = true) : safety v = safety w := by
  have hgiven : Same (.obj (SAFETY.map fun f => (f.1, v.field f.1))) (.obj (SAFETY.map fun f => (f.1, w.field f.1))) := by
    refine same_fields ?_ ?_
    · rw [List.map_map]
      exact (by decide : (SAFETY.map Prod.fst).Nodup)
    · rw [List.forall₂_map_left_iff, List.forall₂_map_right_iff, List.forall₂_same]
      exact fun f _ => ⟨rfl, Doc.same_field h hv f.1⟩
  unfold safety
  rw [canonical_same hgiven]

theorem raceKey_same (dateError : String → String) (h : Same v w) (hv : v.keysOnce = true) : raceKey dateError v = raceKey dateError w := by
  have hfield := Doc.same_field h hv
  unfold raceKey
  rw [Doc.isMapping_same h, Doc.text?_same (hfield "date"), Doc.text?_same (hfield "venue"), Doc.int?_same (hfield "race_number")]

theorem without_same (h : Same v w) (hv : v.keysOnce = true) (name : String) : Same (without name v) (without name w) := by
  have hw : w.keysOnce = true := h.keysOnce ▸ hv
  have hnodup : ∀ {x : Doc}, x.keysOnce = true → ((x.entries.filter fun f => decide (f.1 ≠ name)).map Prod.fst).Nodup := fun hx =>
    (Doc.nodup_entries hx).sublist (List.filter_sublist.map _)
  unfold without
  refine Doc.same_of_get? (hnodup hv) (hnodup hw) fun key => ?_
  rw [Doc.get?_filter_keys (fun k => decide (k ≠ name)), Doc.get?_filter_keys (fun k => decide (k ≠ name))]
  split_ifs
  · exact Doc.entries_same h key hv
  · rfl

/-- A value that is read of a mapping goes on to the same checks. -/
theorem pyGet_bind_same {α : Type} {f g : Doc → Except PyError α} (h : Same v w) (hv : v.keysOnce = true) (key : String)
    (hfg : ∀ x y, Same x y → f x = g y) : (v.pyGet key >>= f) = (w.pyGet key >>= g) := by
  have hget := Doc.pyGet_same h hv key
  cases hx : v.pyGet key with
  | error e =>
    cases hy : w.pyGet key with
    | error e' =>
      rw [hx, hy] at hget
      exact congrArg Except.error (Except.error.inj hget)
    | ok y =>
      rw [hx, hy] at hget
      cases hget
  | ok x =>
    cases hy : w.pyGet key with
    | error e' =>
      rw [hx, hy] at hget
      cases hget
    | ok y =>
      rw [hx, hy] at hget
      exact hfg x y (Except.ok.inj hget)

/-- A snapshot is accepted, or is not, in whatever order its keys stand. -/
theorem validateSnapshot_same (dateError : String → String) (h : Same v w) (hv : v.keysOnce = true) :
    validateSnapshot dateError v = validateSnapshot dateError w := by
  have hfield := Doc.same_field h hv
  have honce := Doc.keysOnce_field hv
  have hprediction := Doc.same_field (hfield "prediction") (honce "prediction")
  have hkept := Doc.keysOnce_field (honce "prediction")
  have hartifact := Doc.orEmpty_same (hprediction "model_artifact")
  have hkeys := Doc.keysOnce_orEmpty (hkept "model_artifact")
  have hrace := hprediction "race"
  have hstr : ∀ key s, v.field key = .str s ↔ w.field key = .str s := fun key s => Doc.eq_str_iff (hfield key) s
  have hday := fun s => Doc.eq_str_iff (Doc.same_field hrace (hkept "race") "date") s
  unfold validateSnapshot
  simp only [Doc.isMapping_same h, hstr, safety_same h hv, Doc.digest_same (without_same h hv _),
    OfflinePreview.validatePreview_same (hfield "prediction") (honce _), Doc.isSome_get?_same (hfield "prediction") (honce _),
    Doc.text?_same (Doc.same_field hartifact hkeys "sha256"), iso_same (Doc.same_field hartifact hkeys "trained_at"),
    iso_same (hprediction "generated_at"), iso_same (hfield "captured_at"), iso_same (hfield "scheduled_start"),
    raceKey_same dateError hrace (hkept "race"), iso_same (Doc.same_field hrace (hkept "race") "scheduled_start_jst"), hday]
  refine congrArg _ (funext fun _ => congrArg _ (funext fun _ => congrArg _ (funext fun _ => congrArg _ (funext fun _ =>
    congrArg _ (funext fun _ => congrArg _ (funext fun _ => congrArg _ (funext fun _ => ?_)))))))
  refine pyGet_bind_same hartifact hkeys _ fun x y hxy => ?_
  simp only [Doc.eq_str_iff hxy]

/-! ## Settlements -/

variable {snapshot snapshot' settlement settlement' : Doc}

theorem settlementFields_same (h : Same settlement settlement') (hkeys : settlement.keysOnce = true) (status : String) :
    settlementFields status settlement = settlementFields status settlement' := by
  unfold settlementFields
  rw [Doc.isSome_get?_same h hkeys]

theorem hasFields_same (h : Same v w) (hv : v.keysOnce = true) (fields : List String) : hasFields v fields = hasFields w fields := by
  unfold hasFields
  rw [Doc.all_keys_same h hv fun key => decide (key ∈ fields)]
  simp only [Doc.isSome_get?_same h hv]

theorem isWithdrawal_same (h : Same v w) (count : ℤ) : isWithdrawal count v = isWithdrawal count w := by
  unfold isWithdrawal
  rcases Doc.same_cases h with rfl | ⟨xs, ys, rfl, rfl, hxs⟩ | ⟨fs, gs, rfl, rfl⟩
  · rfl
  · have hempty : xs.isEmpty = ys.isEmpty := by
      cases hxs <;> rfl
    have hints : xs.map Doc.int? = ys.map Doc.int? := by
      clear hempty h
      induction hxs with
      | nil => rfl
      | cons hxy _ ih => rw [List.map_cons, List.map_cons, ih, Doc.int?_same hxy]
    have hall : ∀ zs : List Doc, (zs.all fun c => c.int?.any fun n => decide (1 ≤ n ∧ n ≤ count)) =
        (zs.map Doc.int?).all fun n => n.any fun n => decide (1 ≤ n ∧ n ≤ count) := by
      intro zs
      rw [List.all_map]
      rfl
    have hvalues : ∀ zs : List Doc, zs.filterMap Doc.int? = (zs.map Doc.int?).filterMap id := by
      intro zs
      rw [List.filterMap_map]
      rfl
    simp only [Doc.elements?, hempty, hall, hvalues, hints]
  · rfl

theorem checkOutcome_same {prediction prediction' : Doc} (hp : Same prediction prediction') (hkeys : prediction.keysOnce = true)
    (h : Same settlement settlement') (hs : settlement.keysOnce = true) :
    checkOutcome prediction settlement = checkOutcome prediction' settlement' := by
  have hscores := Doc.same_field hp hkeys "trifecta_scores"
  have hcombos := combosOf_same (Doc.elements_same hscores) (keysOnce_elements (Doc.keysOnce_field hkeys "trifecta_scores"))
  unfold checkOutcome
  rw [hcombos, Doc.text?_same (Doc.same_field h hs "outcome_combo"), isPositive_same (Doc.same_field h hs "settlement_odds")]

theorem recordOf_same (status : String) (h : Same snapshot snapshot') (hkeys : snapshot.keysOnce = true) (hs : Same settlement settlement') :
    Same (recordOf status snapshot settlement) (recordOf status snapshot' settlement') := by
  have hfield := Doc.same_field h hkeys
  have hartifact := Doc.same_field (hfield "prediction") (Doc.keysOnce_field hkeys "prediction") "model_artifact"
  have hsha := Doc.same_field hartifact (Doc.keysOnce_field (Doc.keysOnce_field hkeys "prediction") "model_artifact") "sha256"
  have hsafety : List.Forall₂ (fun f g : String × Doc => f.1 = g.1 ∧ Same f.2 g.2) SAFETY SAFETY :=
    List.forall₂_same.2 fun f _ => ⟨rfl, Same.refl f.2⟩
  unfold recordOf
  refine same_fields ?_ ?_
  · unfold SAFETY
    simp
  · rw [List.append_assoc]
    exact List.rel_append (.cons ⟨rfl, Same.refl _⟩ .nil) (List.rel_append hsafety
      (.cons ⟨rfl, hfield "race_id"⟩ (.cons ⟨rfl, hfield "captured_at"⟩ (.cons ⟨rfl, hsha⟩ (.cons ⟨rfl, h⟩ (.cons ⟨rfl, hs⟩ .nil))))))

theorem map_bind_congr {ε α β γ : Type} {x : Except ε α} {f g : α → Except ε β} {k : β → γ} (h : ∀ a, (f a).map k = (g a).map k) :
    (x >>= f).map k = (x >>= g).map k := by
  cases x with
  | error e => rfl
  | ok a => exact h a

/-- The record of the same settlement of the same snapshot. -/
theorem settleSnapshot_same (dateError : String → String) (h : Same snapshot snapshot') (hkeys : snapshot.keysOnce = true)
    (hs : Same settlement settlement') (hskeys : settlement.keysOnce = true) :
    (settleSnapshot dateError snapshot settlement).map Json.sortKeys = (settleSnapshot dateError snapshot' settlement').map Json.sortKeys := by
  have hfield := Doc.same_field h hkeys
  have honce := Doc.keysOnce_field hkeys
  have hsfield := Doc.same_field hs hskeys
  have hquality := Doc.same_field (hfield "prediction") (honce "prediction") "input_quality"
  have hcount := Doc.same_field hquality (Doc.keysOnce_field (honce "prediction") "input_quality") "rider_count"
  have hvalid := validateSnapshot_same dateError h hkeys
  cases hok : validateSnapshot dateError snapshot with
  | error e =>
    unfold settleSnapshot
    rw [← hvalid, hok]
    rfl
  | ok u =>
    obtain ⟨-, key, hkey⟩ := finite_of_validateSnapshot hkeys hok
    have hkey' : snapshot'.field "race_id" = .str key := (Doc.eq_str_iff (hfield "race_id") key).1 hkey
    have hstatus : Doc.text? ((settlement.get? "result_status").getD (.str "normal")) =
        Doc.text? ((settlement'.get? "result_status").getD (.str "normal")) := by
      rcases Doc.get?_same_cases hs hskeys "result_status" with ⟨hx, hy⟩ | ⟨x, y, hx, hy, hxy, -⟩
      · rw [hx, hy]
      · rw [hx, hy]
        exact Doc.text?_same hxy
    unfold settleSnapshot
    simp only [← hvalid, hok, hkey, hkey', Doc.isMapping_same hs, Doc.eq_str_iff (hsfield "race_id"), hstatus,
      settlementFields_same hs hskeys, hasFields_same hs hskeys, iso_same (hsfield "result_timestamp"), iso_same (hfield "captured_at"),
      iso_same (hfield "scheduled_start"), checkOutcome_same (hfield "prediction") (honce _) hs hskeys, Doc.int?_same hcount,
      isWithdrawal_same (hsfield "withdrawn_car_numbers")]
    refine map_bind_congr fun _ => map_bind_congr fun _ => map_bind_congr fun status => map_bind_congr fun _ => map_bind_congr fun _ =>
      map_bind_congr fun _ => map_bind_congr fun _ => map_bind_congr fun _ => map_bind_congr fun _ => ?_
    have hrecord : (Except.ok (recordOf status snapshot settlement) : Except PyError Doc).map Json.sortKeys =
        (Except.ok (recordOf status snapshot' settlement')).map Json.sortKeys := congrArg Except.ok (recordOf_same status h hkeys hs)
    split_ifs
    · exact map_bind_congr fun _ => map_bind_congr fun _ => hrecord
    · exact map_bind_congr fun _ => hrecord
    · exact map_bind_congr fun _ => hrecord
    · exact hrecord

/-- A history is accepted, or is not, in whatever order its keys stand. -/
theorem validateHistory_same (dateError : String → String) (h : Same v w) (hv : v.keysOnce = true) :
    validateHistory dateError v = validateHistory dateError w := by
  have hfield := Doc.same_field h hv
  have honce := Doc.keysOnce_field hv
  have hsettled := settleSnapshot_same dateError (hfield "snapshot") (honce _) (hfield "settlement") (honce _)
  unfold validateHistory
  simp only [Doc.isMapping_same h, Doc.text?_same (hfield "schema_version"), canonical_same h]
  refine congrArg _ (funext fun _ => ?_)
  cases hx : settleSnapshot dateError (v.field "snapshot") (v.field "settlement") with
  | error e =>
    cases hy : settleSnapshot dateError (w.field "snapshot") (w.field "settlement") with
    | error e' =>
      rw [hx, hy] at hsettled
      exact congrArg Except.error (Except.error.inj hsettled)
    | ok y =>
      rw [hx, hy] at hsettled
      cases hsettled
  | ok x =>
    cases hy : settleSnapshot dateError (w.field "snapshot") (w.field "settlement") with
    | error e' =>
      rw [hx, hy] at hsettled
      cases hsettled
    | ok y =>
      rw [hx, hy] at hsettled
      have hxy : Same x y := Except.ok.inj hsettled
      show (canonical w >>= fun given => canonical x >>= _) = (canonical w >>= fun given => canonical y >>= _)
      rw [canonical_same hxy]

end ModelHistory

end Keirin

import Keirin.Lemmas.CategorySelection
import Keirin.Lemmas.ModelHistory

/-!
# Selections and the order of keys

A table is accepted whatever the order of the keys of its rows, and the same is selected of it.
-/

namespace Keirin

namespace Doc

open Json (Same)

variable {v w : Doc}

theorem get?_same_cases (h : Same v w) (hv : v.keysOnce = true) (key : String) : (v.get? key = none ∧ w.get? key = none) ∨
    ∃ x y, v.get? key = some x ∧ w.get? key = some y ∧ Same x y ∧ x.keysOnce = true := by
  have hget := h.get? hv key
  cases hx : v.get? key with
  | none =>
    rw [hx] at hget
    exact .inl ⟨rfl, Option.map_eq_none_iff.1 hget.symm⟩
  | some x =>
    rw [hx] at hget
    obtain ⟨y, hy, hxy⟩ := Option.map_eq_some_iff.1 hget.symm
    exact .inr ⟨x, y, rfl, hy, hxy.symm, keysOnce_get? hv hx⟩

/-- Mappings with the same fields are the same. -/
theorem same_of_get? {fs gs : Dict Doc} (hfs : (fs.map Prod.fst).Nodup) (hgs : (gs.map Prod.fst).Nodup)
    (h : ∀ key, (Dict.get? key fs).map Json.sortKeys = (Dict.get? key gs).map Json.sortKeys) : Same (.obj fs) (.obj gs) := by
  have hmem : ∀ {ds : Dict Doc}, (ds.map Prod.fst).Nodup → ∀ e, e ∈ ds.map (fun f => (f.1, f.2.sortKeys)) ↔
      (Dict.get? e.1 ds).map Json.sortKeys = some e.2 := by
    intro ds hds e
    constructor
    · intro he
      obtain ⟨f, hf, rfl⟩ := List.mem_map.1 he
      rw [Dict.get?_of_mem hds (show (f.1, f.2) ∈ ds from hf)]
      rfl
    · intro he
      obtain ⟨x, hx, hxe⟩ := Option.map_eq_some_iff.1 he
      exact List.mem_map.2 ⟨(e.1, x), Dict.mem_of_get? hx, Prod.ext rfl hxe⟩
  have hkeys : ∀ ds : Dict Doc, (ds.map (fun f => (f.1, f.2.sortKeys))).map Prod.fst = ds.map Prod.fst := by
    intro ds
    rw [List.map_map]
    rfl
  have hnodup : ∀ {ds : Dict Doc}, (ds.map Prod.fst).Nodup → (ds.map (fun f => (f.1, f.2.sortKeys))).Nodup := by
    intro ds hds
    refine List.Nodup.of_map Prod.fst ?_
    rw [hkeys]
    exact hds
  have hperm : (fs.map (fun f => (f.1, f.2.sortKeys))).Perm (gs.map (fun f => (f.1, f.2.sortKeys))) := by
    refine (List.perm_ext_iff_of_nodup (hnodup hfs) (hnodup hgs)).2 fun e => ?_
    rw [hmem hfs, hmem hgs, h]
  unfold Same
  rw [Json.sortKeys, Json.sortKeys, Json.sortKeysFields_eq, Json.sortKeysFields_eq]
  refine congrArg Json.obj (Json.sorted_eq hperm ?_)
  rw [hkeys]
  exact hfs

theorem entries_same (h : Same v w) (key : String) (hv : v.keysOnce = true) :
    (Dict.get? key v.entries).map Json.sortKeys = (Dict.get? key w.entries).map Json.sortKeys := by
  rw [← get?_eq_entries, ← get?_eq_entries]
  exact h.get? hv key

theorem nodup_entries (hv : v.keysOnce = true) : (v.entries.map Prod.fst).Nodup := (keysOnce_obj.1 (keysOnce_entries hv)).1

/-- The same fields set in the same mappings. -/
theorem update_same {fs gs : Dict Doc} (h : ∀ key, (Dict.get? key fs).map Json.sortKeys = (Dict.get? key gs).map Json.sortKeys)
    (es : Dict Doc) (key : String) :
    (Dict.get? key (Dict.update fs es)).map Json.sortKeys = (Dict.get? key (Dict.update gs es)).map Json.sortKeys := by
  induction es generalizing fs gs with
  | nil => exact h key
  | cons e es ih =>
    refine ih fun k => ?_
    by_cases hk : k = e.1
    · rw [hk, Dict.get?_set_self, Dict.get?_set_self]
    · rw [Dict.get?_set_of_ne hk, Dict.get?_set_of_ne hk]
      exact h k

theorem get?_filter_keys (p : String → Bool) (fs : Dict Doc) (key : String) :
    Dict.get? key (fs.filter fun f => p f.1) = if p key then Dict.get? key fs else none := by
  induction fs with
  | nil => simp [Dict.get?]
  | cons f fs ih =>
    obtain ⟨k, x⟩ := f
    by_cases hp : p k = true
    · rw [List.filter_cons_of_pos (p := fun f : String × Doc => p f.1) hp, Dict.get?, Dict.get?]
      by_cases hk : k = key
      · rw [if_pos hk, if_pos hk, if_pos (hk ▸ hp)]
      · rw [if_neg hk, if_neg hk, ih]
    · rw [List.filter_cons_of_neg (p := fun f : String × Doc => p f.1) hp, ih, Dict.get?]
      by_cases hk : k = key
      · rw [if_neg (hk ▸ hp), if_neg (hk ▸ hp)]
      · rw [if_neg hk]

theorem truthy_same (h : Same v w) : v.truthy = w.truthy := by
  rcases same_cases h with rfl | ⟨xs, ys, rfl, rfl, hxs⟩ | ⟨fs, gs, rfl, rfl⟩
  · rfl
  · cases hxs <;> rfl
  · have hlength : fs.length = gs.length := by
      have h' : (Json.obj fs : Doc).sortKeys = (Json.obj gs : Doc).sortKeys := h
      obtain ⟨fs', hfs', hfperm⟩ := Json.sortKeys_obj fs
      obtain ⟨gs', hgs', hgperm⟩ := Json.sortKeys_obj gs
      rw [hfs', hgs'] at h'
      have := hfperm.length_eq
      rw [Json.obj.inj h', hgperm.length_eq, List.length_map, List.length_map] at this
      exact this.symm
    show (!fs.isEmpty) = !gs.isEmpty
    cases fs <;> cases gs <;> simp_all

theorem orEmpty_same (h : Same v w) : Same v.orEmpty w.orEmpty := by
  unfold orEmpty orElse
  rw [truthy_same h]
  split_ifs
  · exact h
  · rfl

theorem keysOnce_orEmpty (h : v.keysOnce = true) : v.orEmpty.keysOnce = true := by
  unfold orEmpty orElse
  split_ifs
  · exact h
  · rfl

theorem sortedText_same (h : Same v w) : sortedText v = sortedText w := by
  unfold sortedText
  rw [checkFinite_same h, show v.sortKeys = w.sortKeys from h]

/-- A list of numbers is the same as itself only. -/
theorem eq_numbers_iff (h : Same v w) (cars : List ℤ) :
    v = .arr (cars.map fun n => .num (.int n)) ↔ w = .arr (cars.map fun n => .num (.int n)) := by
  have hleaf : ∀ {x : Doc}, Same (.arr (cars.map fun n => .num (.int n))) x → x = .arr (cars.map fun n => .num (.int n)) := by
    intro x hx
    obtain ⟨ys, rfl, hys⟩ := hx.arr
    refine congrArg Json.arr ?_
    rw [List.forall₂_map_left_iff] at hys
    induction hys with
    | nil => rfl
    | cons hxy _ ih =>
      rw [List.map_cons]
      congr 1
      · exact (hxy.eq_of_leaf nofun nofun).symm
      · refine ih (Json.same_arr ?_)
        rw [List.forall₂_map_left_iff]
        assumption
  constructor
  · rintro rfl
    exact hleaf h
  · rintro rfl
    exact hleaf h.symm

end Doc

open Json (Same)

/-! ## The table -/

namespace CategorySelection

variable {v w : Doc}

theorem finiteValue_same (h : Same v w) : finiteValue v = finiteValue w := by
  rcases Doc.same_cases h with rfl | ⟨xs, ys, rfl, rfl, -⟩ | ⟨fs, gs, rfl, rfl⟩ <;> rfl

theorem isPositive_same (h : Same v w) : isPositive v = isPositive w := by
  unfold isPositive
  rw [finiteValue_same h]

theorem isProbability_same (h : Same v w) : isProbability v = isProbability w := by
  unfold isProbability
  rw [finiteValue_same h]

theorem valueOf_same (h : Same v w) : valueOf v = valueOf w := by
  unfold valueOf
  rw [Doc.number_same h]

theorem checkGiven_same {check : Doc → Except PyError Unit} (hcheck : ∀ x y, Same x y → x.keysOnce = true → check x = check y)
    (h : Same v w) (hv : v.keysOnce = true) (key : String) : checkGiven (v.get? key) check = checkGiven (w.get? key) check := by
  rcases Doc.get?_same_cases h hv key with ⟨hx, hy⟩ | ⟨x, y, hx, hy, hxy, hkeys⟩
  · rw [hx, hy]
  · rw [hx, hy]
    exact hcheck x y hxy hkeys

theorem checkCombo_same (key : String) (h : Same v w) : checkCombo key v = checkCombo key w := by
  unfold checkCombo
  refine congrArg _ (funext fun cars => ?_)
  have hiff : decide (v = .arr (cars.map fun n => .num (.int n))) = decide (w = .arr (cars.map fun n => .num (.int n))) :=
    decide_eq_decide.2 (Doc.eq_numbers_iff h cars)
  rw [hiff]

theorem checkOdds_same (h : Same v w) : checkOdds v = checkOdds w := by
  unfold checkOdds
  rw [isPositive_same h]
  simp only [Doc.eq_null_iff h]

theorem checkScore_same (h : Same v w) (hv : v.keysOnce = true) (expected seen : List String) :
    checkScore expected seen v = checkScore expected seen w := by
  have hfield := Doc.same_field h hv
  have hnone : (phase32Fields.all fun name => (v.get? name).isNone) = phase32Fields.all fun name => (w.get? name).isNone := by
    refine congrArg phase32Fields.all (funext fun name => ?_)
    have := Doc.isSome_get?_same h hv name
    rw [← Option.not_isSome, ← Option.not_isSome, this]
  unfold checkScore
  rw [Doc.text?_same (hfield "combo_key"), isProbability_same (hfield "estimated_probability"), checkOdds_same (hfield "odds"), hnone]
  have hcombo : ∀ key, checkGiven (v.get? "combo") (checkCombo key) = checkGiven (w.get? "combo") (checkCombo key) := fun key =>
    checkGiven_same (fun x y hxy _ => checkCombo_same key hxy) h hv "combo"
  have hev : decide (v.field "monetary_expected_value" = .null) = decide (w.field "monetary_expected_value" = .null) :=
    decide_eq_decide.2 (Doc.eq_null_iff (hfield "monetary_expected_value"))
  simp only [hcombo, hev]

theorem checkScores_same {xs ys : List Doc} (h : List.Forall₂ Same xs ys) (hkeys : ∀ x ∈ xs, x.keysOnce = true) (expected seen : List String)
    (mass : ℚ) (known : ℕ) : checkScores expected seen mass known xs = checkScores expected seen mass known ys := by
  induction h generalizing seen mass known with
  | nil => rfl
  | @cons x y xs ys hxy _ ih =>
    rw [List.forall_mem_cons] at hkeys
    have hfield := Doc.same_field hxy hkeys.1
    rw [checkScores, checkScores, checkScore_same hxy hkeys.1, valueOf_same (hfield "estimated_probability")]
    have hodds : (if x.field "odds" = .null then known else known + 1) = if y.field "odds" = .null then known else known + 1 := by
      simp only [Doc.eq_null_iff (hfield "odds")]
    rw [hodds]
    exact congrArg _ (funext fun key => ih hkeys.2 _ _ _)

theorem validateModelScores_same (h : Same v w) (hv : v.keysOnce = true) {n m : Doc} (hn : Same n m) :
    validateModelScores v n = validateModelScores w m := by
  unfold validateModelScores
  rw [Doc.int?_same hn]
  refine congrArg _ (funext fun count => ?_)
  rcases Doc.same_cases h with rfl | ⟨xs, ys, rfl, rfl, hxs⟩ | ⟨fs, gs, rfl, rfl⟩
  · rfl
  · have hkeys := Doc.keysOnce_arr.1 hv
    have hchecked := fun expected => checkScores_same hxs hkeys expected [] 0 0
    simp only [Doc.elements?]
    by_cases hlength : xs.length = (combinations count.toNat).length
    · have hlength' : ys.length = (combinations count.toNat).length := hxs.length_eq ▸ hlength
      have hx : (some xs).filter (fun scores => scores.length = (combinations count.toNat).length) = some xs := by simp [hlength]
      have hy : (some ys).filter (fun scores => scores.length = (combinations count.toNat).length) = some ys := by simp [hlength']
      rw [hx, hy]
      simp only [require, bind, Except.bind, hchecked]
    · have hlength' : ¬ys.length = (combinations count.toNat).length := hxs.length_eq ▸ hlength
      have hx : (some xs).filter (fun scores => scores.length = (combinations count.toNat).length) = none := by simp [hlength]
      have hy : (some ys).filter (fun scores => scores.length = (combinations count.toNat).length) = none := by simp [hlength']
      rw [hx, hy]
  · rfl

/-! ## The picks -/

theorem forall₂_same_iff {xs ys : List Doc} : List.Forall₂ Same xs ys ↔ xs.map Json.sortKeys = ys.map Json.sortKeys := by
  rw [← List.forall₂_eq_eq_eq, List.forall₂_map_left_iff, List.forall₂_map_right_iff]
  rfl

theorem keysOnce_of_forall₂ {xs ys : List Doc} (h : List.Forall₂ Same xs ys) (hkeys : ∀ x ∈ xs, x.keysOnce = true) :
    ∀ y ∈ ys, y.keysOnce = true := by
  induction h with
  | nil => exact fun y hy => absurd hy List.not_mem_nil
  | cons hxy _ ih =>
    rw [List.forall_mem_cons] at hkeys ⊢
    exact ⟨hxy.keysOnce ▸ hkeys.1, ih hkeys.2⟩

theorem field_sortKeys {row : Doc} (h : row.keysOnce = true) (key : String) : Same (row.field key) (Doc.field row.sortKeys key) :=
  Doc.same_field (Json.same_sortKeys row).symm h key

theorem ranked_sortKeys {rows : List Doc} (hkeys : ∀ row ∈ rows, row.keysOnce = true) :
    (ranked rows).map Json.sortKeys = ranked (rows.map Json.sortKeys) := by
  have horder : ∀ a ∈ rows, ∀ b ∈ rows, probabilityOf b ≤ probabilityOf a ↔ probabilityOf b.sortKeys ≤ probabilityOf a.sortKeys := by
    intro a ha b hb
    unfold probabilityOf
    rw [valueOf_same (field_sortKeys (hkeys a ha) _), valueOf_same (field_sortKeys (hkeys b hb) _)]
  exact List.map_insertionSort (r := fun a b : Doc => probabilityOf b ≤ probabilityOf a)
    (s := fun a b : Doc => probabilityOf b ≤ probabilityOf a) Json.sortKeys rows horder

/-- The same rows are ranked in the same order. -/
theorem ranked_same {xs ys : List Doc} (h : List.Forall₂ Same xs ys) (hkeys : ∀ x ∈ xs, x.keysOnce = true) :
    List.Forall₂ Same (ranked xs) (ranked ys) := by
  rw [forall₂_same_iff] at h ⊢
  rw [ranked_sortKeys hkeys, h, ← ranked_sortKeys (keysOnce_of_forall₂ (forall₂_same_iff.2 h) hkeys)]

theorem combosOf_same {xs ys : List Doc} (h : List.Forall₂ Same xs ys) (hkeys : ∀ x ∈ xs, x.keysOnce = true) : combosOf xs = combosOf ys :=
  ModelHistory.filterMap_same (fun _ _ hxy hx => Doc.text?_same (Doc.same_field hxy hx _)) h hkeys

theorem inBand_same {v w : Doc} (h : Same v w) (hv : v.keysOnce = true) (rule : CategoryRule) : inBand rule v = inBand rule w := by
  have hodds := Doc.same_field h hv "odds"
  unfold inBand
  rw [valueOf_same hodds]
  simp only [ne_eq, Doc.eq_null_iff hodds]

theorem filter_same {p q : Doc → Bool} {xs ys : List Doc} (h : List.Forall₂ Same xs ys) (hkeys : ∀ x ∈ xs, x.keysOnce = true)
    (hpq : ∀ x y, Same x y → x.keysOnce = true → p x = q y) : List.Forall₂ Same (xs.filter p) (ys.filter q) := by
  induction h with
  | nil => exact .nil
  | @cons x y xs ys hxy _ ih =>
    rw [List.forall_mem_cons] at hkeys
    have heq := hpq x y hxy hkeys.1
    by_cases hp : p x = true
    · rw [List.filter_cons_of_pos hp, List.filter_cons_of_pos (heq ▸ hp)]
      exact .cons hxy (ih hkeys.2)
    · rw [List.filter_cons_of_neg hp, List.filter_cons_of_neg (heq ▸ hp)]
      exact ih hkeys.2

theorem eligible_same (rule : CategoryRule) (used : List String) {xs ys : List Doc} (h : List.Forall₂ Same xs ys)
    (hkeys : ∀ x ∈ xs, x.keysOnce = true) : List.Forall₂ Same (eligible rule used xs) (eligible rule used ys) := by
  unfold eligible
  split_ifs
  · exact h
  · refine filter_same h hkeys fun x y hxy hx => ?_
    rw [Doc.text?_same (Doc.same_field hxy hx _), inBand_same hxy hx]

/-- A category with the same candidates. -/
structure AlikeCategory (c d : Category) : Prop where
  rule : c.rule = d.rule
  candidates : List.Forall₂ Same c.candidates d.candidates
  once : ∀ x ∈ c.candidates, x.keysOnce = true

theorem AlikeCategory.chosen {c d : Category} (h : AlikeCategory c d) : List.Forall₂ Same c.chosen d.chosen := List.forall₂_take 3 h.candidates

theorem AlikeCategory.once_chosen {c d : Category} (h : AlikeCategory c d) : ∀ x ∈ c.chosen, x.keysOnce = true := fun x hx =>
  h.once x (List.mem_of_mem_take hx)

theorem categoriesFrom_same {xs ys : List Doc} (h : List.Forall₂ Same xs ys) (hkeys : ∀ x ∈ xs, x.keysOnce = true) (used : List String)
    (rules : List CategoryRule) : List.Forall₂ AlikeCategory (categoriesFrom xs used rules) (categoriesFrom ys used rules) := by
  induction rules generalizing used with
  | nil => exact .nil
  | cons rule rules ih =>
    have hcategory : AlikeCategory ⟨rule, eligible rule used xs⟩ ⟨rule, eligible rule used ys⟩ := by
      refine ⟨rfl, eligible_same rule used h hkeys, fun x hx => ?_⟩
      unfold eligible at hx
      split_ifs at hx
      · exact hkeys x hx
      · exact hkeys x (List.mem_of_mem_filter hx)
    rw [categoriesFrom, categoriesFrom]
    refine .cons hcategory ?_
    rw [combosOf_same hcategory.chosen hcategory.once_chosen]
    exact ih _

theorem pick_same (rule : CategoryRule) (rank : ℕ) {v w : Doc} (h : Same v w) (hv : v.keysOnce = true) :
    Same (pick rule rank v) (pick rule rank w) := by
  have hw : w.keysOnce = true := h.keysOnce ▸ hv
  unfold pick
  exact Doc.same_of_get? (Dict.nodup_update (Doc.nodup_entries hv)) (Dict.nodup_update (Doc.nodup_entries hw))
    (Doc.update_same (fun key => Doc.entries_same h key hv) _)

theorem picks_same {c d : Category} (h : AlikeCategory c d) : List.Forall₂ Same c.picks d.picks := by
  have hpicks : ∀ {xs ys : List Doc} (n : ℕ), List.Forall₂ Same xs ys → (∀ x ∈ xs, x.keysOnce = true) →
      List.Forall₂ Same ((xs.zipIdx n).map fun row => pick c.rule (row.2 + 1) row.1)
        ((ys.zipIdx n).map fun row => pick d.rule (row.2 + 1) row.1) := by
    intro xs ys n hxs hkeys
    induction hxs generalizing n with
    | nil => exact .nil
    | cons hxy _ ih =>
      rw [List.forall_mem_cons] at hkeys
      rw [List.zipIdx_cons, List.zipIdx_cons, List.map_cons, List.map_cons]
      exact .cons (h.rule ▸ pick_same c.rule (n + 1) hxy hkeys.1) (ih (n + 1) hkeys.2)
  exact hpicks 0 h.chosen h.once_chosen

/-- Objects of the same keys, field by field the same. -/
theorem same_fields {fs gs : Dict Doc} (hk : (fs.map Prod.fst).Nodup) (h : List.Forall₂ (fun f g => f.1 = g.1 ∧ Same f.2 g.2) fs gs) :
    Same (.obj fs) (.obj gs) := Json.same_obj hk (List.Perm.refl fs) h

theorem toDoc_same (known : ℕ) {c d : Category} (h : AlikeCategory c d) : Same (c.toDoc known) (d.toDoc known) := by
  have hchosen : c.chosen.length = d.chosen.length := h.chosen.length_eq
  have hnil : c.chosen = [] ↔ d.chosen = [] := by rw [← List.length_eq_zero_iff, ← List.length_eq_zero_iff, hchosen]
  unfold Category.toDoc
  refine same_fields (by simp) (.cons ⟨rfl, ?_⟩ (.cons ⟨rfl, ?_⟩ (.cons ⟨rfl, ?_⟩ (.cons ⟨rfl, ?_⟩ (.cons ⟨rfl, ?_⟩ (.cons ⟨rfl, ?_⟩ .nil))))))
  · rw [h.rule]
    rfl
  · rw [h.rule]
    rfl
  · simp only [hchosen, hnil]
    rfl
  · rw [h.candidates.length_eq]
    rfl
  · exact Json.same_arr (picks_same h)
  · unfold Category.note
    rw [hchosen]
    rfl

theorem selectionDoc_same (known : ℕ) {cs ds : List Category} (h : List.Forall₂ AlikeCategory cs ds)
    (hrules : ((cs.map Category.rule).map CategoryRule.key).Nodup) : Same (selectionDoc known cs) (selectionDoc known ds) := by
  have hused : usedBy cs = usedBy ds := by
    have hflat : (cs.flatMap fun c => combosOf c.chosen) = ds.flatMap fun c => combosOf c.chosen := by
      clear hrules
      induction h with
      | nil => rfl
      | cons hcd _ ih => rw [List.flatMap_cons, List.flatMap_cons, ih, combosOf_same hcd.chosen hcd.once_chosen]
    unfold usedBy
    rw [hflat]
  have hlengths : cs.map (fun c => (c.rule, c.chosen.length)) = ds.map fun c => (c.rule, c.chosen.length) := by
    clear hrules hused
    induction h with
    | nil => rfl
    | cons hcd _ ih => rw [List.map_cons, List.map_cons, ih, hcd.rule, hcd.chosen.length_eq]
  have hcount : ∀ (p : ℕ → Bool), (cs.filter fun c => p c.chosen.length).map Category.rule = (ds.filter fun c => p c.chosen.length).map Category.rule := by
    intro p
    have hmap : ∀ es : List Category, (es.filter fun c => p c.chosen.length).map Category.rule =
        ((es.map fun c => (c.rule, c.chosen.length)).filter fun e => p e.2).map Prod.fst := by
      intro es
      rw [List.filter_map, List.map_map]
      rfl
    rw [hmap, hmap, hlengths]
  have hcategories : Same (.obj (cs.map fun c => (c.rule.key, c.toDoc known))) (.obj (ds.map fun c => (c.rule.key, c.toDoc known))) := by
    refine same_fields ?_ ?_
    · rw [List.map_map] at hrules ⊢
      exact hrules
    · rw [List.forall₂_map_left_iff, List.forall₂_map_right_iff]
      exact h.imp fun c d hcd => ⟨by rw [hcd.rule], toDoc_same known hcd⟩
  unfold selectionDoc
  rw [hused]
  refine same_fields (by simp) (.cons ⟨rfl, rfl⟩ (.cons ⟨rfl, rfl⟩ (.cons ⟨rfl, rfl⟩ (.cons ⟨rfl, rfl⟩ (.cons ⟨rfl, rfl⟩ (.cons ⟨rfl, rfl⟩
    (.cons ⟨rfl, hcategories⟩ (.cons ⟨rfl, rfl⟩ (.cons ⟨rfl, rfl⟩ (.cons ⟨rfl, ?_⟩ (.cons ⟨rfl, ?_⟩ .nil)))))))))))
  · have := congrArg List.length (hcount fun n => decide (n = 3))
    rw [List.length_map, List.length_map] at this
    rw [this]
    rfl
  · have hkeys := congrArg (List.map fun r : CategoryRule => (Json.str r.key : Doc)) (hcount fun n => decide (n < 3))
    rw [List.map_map, List.map_map] at hkeys
    show Same (.arr _) (.arr _)
    have hsame : ∀ {xs ys : List Doc}, xs = ys → Same (Json.arr xs) (.arr ys) := by
      rintro xs ys rfl
      rfl
    exact hsame hkeys

/-- Of the same table the same is selected. -/
theorem selectModelCategories_same {v w n m : Doc} (h : Same v w) (hv : v.keysOnce = true) (hn : Same n m) :
    (selectModelCategories v n).map Json.sortKeys = (selectModelCategories w m).map Json.sortKeys := by
  unfold selectModelCategories
  rw [validateModelScores_same h hv hn]
  cases hvalid : validateModelScores w m with
  | error e => rfl
  | ok known =>
    have hrows := Doc.elements_same h
    have hkeys := ModelHistory.keysOnce_elements hv
    have hranked : ∀ x ∈ ranked (v.elements?.getD []), x.keysOnce = true := fun x hx => hkeys x ((List.mem_insertionSort _).1 hx)
    refine congrArg Except.ok (selectionDoc_same known (categoriesFrom_same (ranked_same hrows hkeys) hranked [] CATEGORY_RULES) ?_)
    have hrules := rules_categoriesFrom (ranked (v.elements?.getD [])) [] CATEGORY_RULES
    unfold selectCategories
    rw [hrules]
    decide

end CategorySelection

end Keirin

import Keirin.Lemmas.ModelHistory
import Keirin.Lemmas.PayoutOutcomes

/-!
# Tables and their selections as documents

The combinations of a race are told apart by their texts, and the table that is sure of one of them is accepted. What is selected from
a table of finite rows is finite, and its keys stand once.
-/

namespace Keirin.ModelHistory

open HistoricalPayouts (selections combinationText mem_selections demand_bind_ok require_bind_ok)
open CategorySelection

/-! ## Combinations -/

theorem nodup_selections (n : ℕ) {group : List ℕ} (h : group.Nodup) : (selections n group).Nodup := by
  induction n generalizing group with
  | zero => exact List.nodup_singleton _
  | succ n ih =>
    rw [selections, List.nodup_flatMap]
    refine ⟨fun c _ => (ih (h.erase c)).map (List.cons_injective), h.imp_of_mem fun hc hd hne => ?_⟩
    intro l hl hl'
    obtain ⟨r, -, rfl⟩ := List.mem_map.1 hl
    obtain ⟨r', -, hr⟩ := List.mem_map.1 hl'
    exact hne (List.cons.inj hr).1.symm

theorem text_of_digit : ∀ n < 10, (toString n).toList = [Nat.digitChar n] := by decide

theorem digitChar_inj : ∀ m < 10, ∀ n < 10, Nat.digitChar m = Nat.digitChar n → m = n := by decide

theorem toList_combinationText {a b c : ℕ} (ha : a < 10) (hb : b < 10) (hc : c < 10) :
    (combinationText [a, b, c]).toList = [Nat.digitChar a, '-', Nat.digitChar b, '-', Nat.digitChar c] := by
  unfold combinationText
  simp only [List.map_cons, List.map_nil, String.intercalate_cons_cons, String.intercalate_singleton, String.toList_append, text_of_digit a ha, text_of_digit b hb, text_of_digit c hc]
  rfl

theorem nodup_combinations {n : ℕ} (hn : n < 10) : (combinations n).Nodup := by
  refine List.Nodup.map_on ?_ (nodup_selections 3 (List.nodup_range' ))
  intro l hl l' hl' h
  have hsmall : ∀ l ∈ selections 3 (List.range' 1 n), ∃ a b c, l = [a, b, c] ∧ a < 10 ∧ b < 10 ∧ c < 10 := by
    intro l hl
    obtain ⟨hlength, rest, hperm⟩ := mem_selections.1 hl
    have hlt : ∀ x ∈ l, x < 10 := by
      intro x hx
      have := List.mem_range'_1.1 (hperm.mem_iff.1 (List.mem_append_left rest hx))
      omega
    obtain ⟨a, b, c, rfl⟩ := List.length_eq_three.1 hlength
    exact ⟨a, b, c, rfl, hlt a (by simp), hlt b (by simp), hlt c (by simp)⟩
  obtain ⟨a, b, c, rfl, ha, hb, hc⟩ := hsmall l hl
  obtain ⟨a', b', c', rfl, ha', hb', hc'⟩ := hsmall l' hl'
  have htext := congrArg String.toList h
  rw [toList_combinationText ha hb hc, toList_combinationText ha' hb' hc'] at htext
  simp only [List.cons.injEq, and_true, true_and] at htext
  rw [digitChar_inj a ha a' ha' htext.1, digitChar_inj b hb b' hb' htext.2.1, digitChar_inj c hc c' hc' htext.2.2]

/-! ## The table that is sure of a combination -/

def whole (n : ℕ) : Doc := .num (.int n)

/-- A row of a table without odds. -/
def sureRow (probability : ℕ) (key : String) : Doc :=
  .obj [("combo_key", .str key), ("estimated_probability", whole probability), ("odds", .null)]

/-- The table that gives one to the first combination and nothing to the others. -/
def sureTable : List String → List Doc
  | [] => []
  | key :: keys => sureRow 1 key :: keys.map (sureRow 0)

theorem checkScore_sure {expected seen : List String} {key : String} (hmem : key ∈ expected) (hfresh : key ∉ seen) {p : ℕ} (hp : p = 0 ∨ p = 1) :
    checkScore expected seen (sureRow p key) = .ok key := by
  have hkey : ((sureRow p key).field "combo_key").text?.filter (fun key => key ∈ expected ∧ key ∉ seen) = some key := by
    rw [show ((sureRow p key).field "combo_key").text? = some key from rfl]
    simp [hmem, hfresh]
  have hprobability : isProbability ((sureRow p key).field "estimated_probability") = .ok true := by
    have hwhole : ∀ q < 2, isProbability (whole q) = .ok true := by decide +kernel
    exact hwhole p (by omega)
  unfold checkScore
  refine require_bind_ok.2 ⟨key, hkey, bind_ok.2 ⟨true, hprobability, demand_bind_ok.2 ⟨rfl, ?_⟩⟩⟩
  rfl

theorem checkScores_sure {expected seen keys : List String} (hmem : ∀ k ∈ keys, k ∈ expected) (hfresh : ∀ k ∈ keys, k ∉ seen)
    (hnodup : keys.Nodup) : checkScores expected seen 1 0 (keys.map (sureRow 0)) = .ok (1, 0) := by
  induction keys generalizing seen with
  | nil => rfl
  | cons key keys ih =>
    rw [List.forall_mem_cons] at hmem hfresh
    rw [List.nodup_cons] at hnodup
    have hmass : roundRat (1 + valueOf ((sureRow 0 key).field "estimated_probability")) = 1 := by
      show roundRat (1 + valueOf (whole 0)) = 1
      decide +kernel
    rw [List.map_cons, checkScores]
    refine bind_ok.2 ⟨key, checkScore_sure hmem.1 hfresh.1 (.inl rfl), ?_⟩
    rw [hmass]
    refine ih hmem.2 (fun k hk => ?_) hnodup.2
    rw [List.mem_cons, not_or]
    refine ⟨fun he => hnodup.1 (he ▸ hk), hfresh.2 k hk⟩

theorem finite_sureTable (keys : List String) : ∀ row ∈ sureTable keys, row.finite = true := by
  have hrow : ∀ p key, (sureRow p key).finite = true := by
    intro p key
    unfold sureRow whole
    simp
  cases keys with
  | nil => exact fun row hrow => absurd hrow List.not_mem_nil
  | cons key keys =>
    intro row hmem
    rcases List.mem_cons.1 hmem with rfl | hmem
    · exact hrow 1 key
    · obtain ⟨key', -, rfl⟩ := List.mem_map.1 hmem
      exact hrow 0 key'

theorem length_sureTable (keys : List String) : (sureTable keys).length = keys.length := by cases keys <;> simp [sureTable]

/-- The table of all combinations is accepted. -/
theorem validate_sureTable {n : ℕ} (hn : n = 7 ∨ n = 9) : validateModelScores (.arr (sureTable (combinations n))) (whole n) = .ok 0 := by
  have hcount : (Doc.int? (whole n)).filter (fun m => m = 7 ∨ m = 9) = some (n : ℤ) := by
    rcases hn with rfl | rfl <;> rfl
  have hnodup : (combinations n).Nodup := nodup_combinations (by omega)
  have hlength : (Doc.elements? (.arr (sureTable (combinations n)))).filter (fun scores => scores.length = (combinations n).length) =
      some (sureTable (combinations n)) := by
    simp [Doc.elements?, length_sureTable]
  have hchecked : checkScores (combinations n) [] 0 0 (sureTable (combinations n)) = .ok (1, 0) := by
    obtain ⟨key, keys, hkeys⟩ : ∃ key keys, combinations n = key :: keys := by
      rcases hn with rfl | rfl <;> exact ⟨_, _, rfl⟩
    have hmass : roundRat (0 + valueOf ((sureRow 1 key).field "estimated_probability")) = 1 := by
      show roundRat (0 + valueOf (whole 1)) = 1
      decide +kernel
    rw [hkeys] at hnodup
    rw [hkeys, sureTable, checkScores]
    refine bind_ok.2 ⟨key, checkScore_sure List.mem_cons_self List.not_mem_nil (.inr rfl), ?_⟩
    rw [hmass]
    refine checkScores_sure (fun k hk => List.mem_cons_of_mem key hk) (fun k hk => ?_) (List.nodup_cons.1 hnodup).2
    rw [List.mem_singleton]
    rintro rfl
    exact (List.nodup_cons.1 hnodup).1 hk
  have hmass : decide (|roundRat (1 - 1)| ≤ tolerance) = true := by decide +kernel
  unfold validateModelScores
  exact require_bind_ok.2 ⟨_, hcount, require_bind_ok.2 ⟨_, hlength, bind_ok.2 ⟨_, hchecked, demand_bind_ok.2 ⟨hmass, rfl⟩⟩⟩⟩

/-! ## The picks of a finite table -/

theorem finite_update {fs gs : Dict Doc} (hfs : Doc.finite (.obj fs) = true) (hgs : Doc.finite (.obj gs) = true) :
    Doc.finite (.obj (Dict.update fs gs)) = true := by
  rw [Doc.finite_obj, List.all_eq_true] at *
  intro f hf
  rcases Dict.mem_update hf with hf | ⟨g, hg, he⟩
  · exact hfs f hf
  · rw [he]
    exact hgs g hg

theorem finite_toDoc (known : ℕ) {c : Category} (h : ∀ row ∈ c.candidates, row.finite = true) : (c.toDoc known).finite = true := by
  have hpicks : ∀ p ∈ c.picks, p.finite = true := by
    intro p hp
    obtain ⟨row, hrow, rfl⟩ := List.mem_map.1 hp
    have hmem : row.1 ∈ c.candidates := List.mem_of_mem_take (List.fst_mem_of_mem_zipIdx hrow)
    unfold pick
    exact finite_update (Doc.finite_entries (h row.1 hmem)) (by simp)
  have hnote : (c.note known).finite = true := by
    unfold Category.note
    split_ifs <;> rfl
  unfold Category.toDoc
  simp only [Doc.finite_obj, List.all_cons, List.all_nil, Doc.finite_str, Doc.finite_int, Doc.finite_arr, hnote, Bool.true_and,
    Bool.and_true, List.all_eq_true]
  exact hpicks

theorem finite_categoriesFrom (ranked : List Doc) (h : ∀ row ∈ ranked, row.finite = true) (used : List String) (rules : List CategoryRule) :
    ∀ c ∈ categoriesFrom ranked used rules, ∀ row ∈ c.candidates, row.finite = true := by
  induction rules generalizing used with
  | nil => exact fun c hc => absurd hc List.not_mem_nil
  | cons rule rules ih =>
    rw [categoriesFrom]
    intro c hc row hrow
    rcases List.mem_cons.1 hc with rfl | hc
    · unfold eligible at hrow
      split_ifs at hrow
      · exact h row hrow
      · exact h row (List.mem_of_mem_filter hrow)
    · exact ih _ c hc row hrow

theorem finite_selectionDoc (known : ℕ) {table : List Doc} (h : ∀ row ∈ table, row.finite = true) :
    (selectionDoc known (selectCategories table)).finite = true := by
  have hranked : ∀ row ∈ ranked table, row.finite = true := by
    intro row hrow
    exact h row ((List.mem_insertionSort _).1 hrow)
  have hcategories : ∀ c ∈ selectCategories table, (c.toDoc known).finite = true := fun c hc =>
    finite_toDoc known (finite_categoriesFrom _ hranked _ _ c hc)
  unfold selectionDoc
  simp only [Doc.finite_obj, Doc.finite_arr, List.all_cons, List.all_nil, List.all_map, Doc.finite_str, Doc.finite_bool, count,
    Doc.finite_int, Bool.true_and, Bool.and_true, Bool.and_eq_true, List.all_eq_true]
  refine ⟨fun c hc => hcategories c hc, fun c hc => rfl⟩

/-! ## The keys of the picks -/

theorem keysOnce_update {fs gs : Dict Doc} (hfs : (Json.obj fs : Doc).keysOnce = true) (hgs : ∀ g ∈ gs, g.2.keysOnce = true) :
    (Json.obj (Dict.update fs gs) : Doc).keysOnce = true := by
  rw [Doc.keysOnce_obj] at hfs ⊢
  refine ⟨Dict.nodup_update hfs.1, fun f hf => ?_⟩
  rcases Dict.mem_update hf with hf | ⟨g, hg, he⟩
  · exact hfs.2 f hf
  · rw [he]
    exact hgs g hg

theorem keysOnce_toDoc (known : ℕ) {c : Category} (h : ∀ row ∈ c.candidates, row.keysOnce = true) :
    (c.toDoc known).keysOnce = true := by
  have hpicks : ∀ p ∈ c.picks, p.keysOnce = true := by
    intro p hp
    obtain ⟨row, hrow, rfl⟩ := List.mem_map.1 hp
    have hmem : row.1 ∈ c.candidates := List.mem_of_mem_take (List.fst_mem_of_mem_zipIdx hrow)
    unfold pick
    refine keysOnce_update (Doc.keysOnce_entries (h row.1 hmem)) fun g hg => ?_
    simp only [List.mem_cons, List.not_mem_nil, or_false] at hg
    rcases hg with rfl | rfl | rfl | rfl | rfl <;> rfl
  have hnote : (c.note known).keysOnce = true := by
    unfold Category.note
    split_ifs <;> rfl
  unfold Category.toDoc
  rw [Doc.keysOnce_obj]
  refine ⟨by simp, fun f hf => ?_⟩
  simp only [List.mem_cons, List.not_mem_nil, or_false] at hf
  rcases hf with rfl | rfl | rfl | rfl | rfl | rfl
  · rfl
  · rfl
  · rfl
  · rfl
  · exact Doc.keysOnce_arr.2 hpicks
  · exact hnote

theorem keysOnce_categoriesFrom (ranked : List Doc) (h : ∀ row ∈ ranked, row.keysOnce = true) (used : List String)
    (rules : List CategoryRule) : ∀ c ∈ categoriesFrom ranked used rules, (∀ row ∈ c.candidates, row.keysOnce = true) ∧ c.rule ∈ rules := by
  induction rules generalizing used with
  | nil => exact fun c hc => absurd hc List.not_mem_nil
  | cons rule rules ih =>
    rw [categoriesFrom]
    intro c hc
    rcases List.mem_cons.1 hc with rfl | hc
    · refine ⟨fun row hrow => ?_, List.mem_cons_self⟩
      unfold eligible at hrow
      split_ifs at hrow
      · exact h row hrow
      · exact h row (List.mem_of_mem_filter hrow)
    · exact ⟨(ih _ c hc).1, List.mem_cons_of_mem _ (ih _ c hc).2⟩

theorem keysOnce_selectionDoc (known : ℕ) {table : List Doc} (h : ∀ row ∈ table, row.keysOnce = true) :
    (selectionDoc known (selectCategories table)).keysOnce = true := by
  have hranked : ∀ row ∈ ranked table, row.keysOnce = true := fun row hrow => h row ((List.mem_insertionSort _).1 hrow)
  have hcategories : (Json.obj ((selectCategories table).map fun c => (c.rule.key, c.toDoc known)) : Doc).keysOnce = true := by
    rw [Doc.keysOnce_obj, List.map_map]
    constructor
    · have hkeys : (selectCategories table).map (Prod.fst ∘ fun c => (c.rule.key, c.toDoc known)) =
          ((selectCategories table).map Category.rule).map CategoryRule.key := by
        rw [List.map_map]
        rfl
      rw [hkeys, selectCategories, rules_categoriesFrom]
      decide
    · intro f hf
      obtain ⟨c, hc, rfl⟩ := List.mem_map.1 hf
      exact keysOnce_toDoc known (keysOnce_categoriesFrom _ hranked _ _ c hc).1
  unfold selectionDoc
  rw [Doc.keysOnce_obj]
  refine ⟨by simp, fun f hf => ?_⟩
  simp only [List.mem_cons, List.not_mem_nil, or_false] at hf
  rcases hf with rfl | rfl | rfl | rfl | rfl | rfl | rfl | rfl | rfl | rfl | rfl
  · rfl
  · rfl
  · rfl
  · rfl
  · rfl
  · rfl
  · exact hcategories
  · rfl
  · rfl
  · rfl
  · rw [Doc.keysOnce_arr]
    intro x hx
    obtain ⟨c, -, rfl⟩ := List.mem_map.1 hx
    rfl

end Keirin.ModelHistory

import Keirin.TrifectaAdapter
import Keirin.Lemmas.PythonData
import Keirin.Lib.NumLit

/-!
# Tables of probabilities

What is combined of three mappings is a probability distribution over the ordered triples of the riders, and it is refused only where
there is none.
-/

namespace Keirin.TrifectaAdapter

open Triples

/-! ## Mappings -/

namespace Positions

variable {p : Positions} {rider : ℤ}

/-- The number of a rider. -/
def value (p : Positions) (rider : ℤ) : ℚ := ((p.entries.find? (·.1 = rider)).map Prod.snd).getD 0

theorem item_of_mem (h : rider ∈ p.riders) : p.item rider = .ok (p.value rider) := by
  rw [riders, List.mem_toFinset, List.mem_map] at h
  obtain ⟨e, he, rfl⟩ := h
  have hfind : (p.entries.find? (·.1 = e.1)).isSome = true := List.find?_isSome.2 ⟨e, he, by simp⟩
  obtain ⟨found, hfound⟩ := Option.isSome_iff_exists.1 hfind
  rw [item, value, hfound]
  rfl

/-- Whether all numbers are probabilities. -/
def Probabilities (p : Positions) : Prop := ∀ e ∈ p.entries, 0 ≤ e.2 ∧ e.2 ≤ 1

theorem Probabilities.value_nonneg (h : p.Probabilities) (rider : ℤ) : 0 ≤ p.value rider := by
  unfold value
  cases hfind : p.entries.find? (·.1 = rider) with
  | none => exact le_rfl
  | some e => exact (h e (List.mem_of_find?_eq_some hfind)).1

end Positions

/-- The checks of the numbers pass where all are probabilities, and otherwise one of them raises. -/
theorem forM_checkProbability (label : String) (entries : List (ℤ × ℚ)) :
    match entries.forM (checkProbability label) with
    | .error e => (∃ m, e = .valueError m) ∧ ¬ ∀ e ∈ entries, 0 ≤ e.2 ∧ e.2 ≤ 1
    | .ok _ => ∀ e ∈ entries, 0 ≤ e.2 ∧ e.2 ≤ 1 := by
  induction entries with
  | nil => exact fun _ he => (nomatch he)
  | cons e entries ih =>
    by_cases hbad : e.2 < 0 ∨ 1 < e.2
    · have hcheck : (e :: entries).forM (checkProbability label) = checkProbability label e := by
        rw [List.forM_eq_forM, List.forM_cons, checkProbability, raiseIf_pos hbad]
        rfl
      rw [hcheck, checkProbability, raiseIf_pos hbad]
      refine ⟨⟨_, rfl⟩, fun hall => ?_⟩
      obtain ⟨hlow, hhigh⟩ := hall e List.mem_cons_self
      rcases hbad with hbad | hbad
      · exact absurd hbad (not_lt.2 hlow)
      · exact absurd hbad (not_lt.2 hhigh)
    · have hcheck : (e :: entries).forM (checkProbability label) = entries.forM (checkProbability label) := by
        rw [List.forM_eq_forM, List.forM_cons, checkProbability, raiseIf_neg hbad]
        rfl
      rw [hcheck]
      rw [not_or, not_lt, not_lt] at hbad
      split at ih
      · exact ⟨ih.1, fun hall => ih.2 fun e he => hall e (List.mem_cons_of_mem _ he)⟩
      · exact List.forall_mem_cons.2 ⟨hbad, ih⟩

/-- A mapping is refused where its riders are others or a number is no probability, and otherwise it is kept. -/
theorem cleanProbabilities_spec (values : Positions) (riders : Finset ℤ) (label : String) :
    match cleanProbabilities values riders label with
    | .error e => (∃ m, e = .valueError m) ∧ ¬ (values.riders = riders ∧ values.Probabilities)
    | .ok p => p = values ∧ values.riders = riders ∧ values.Probabilities := by
  unfold cleanProbabilities
  by_cases hriders : values.riders = riders
  · rw [raiseIf_neg (not_not.2 hriders)]
    have hcheck := forM_checkProbability label values.entries
    show match (values.entries.forM (checkProbability label) >>= fun _ => pure values) with
      | .error e => _
      | .ok p => _
    split at hcheck
    · rename_i he
      rw [he]
      exact ⟨hcheck.1, fun h => hcheck.2 h.2⟩
    · rename_i he
      rw [he]
      exact ⟨rfl, hriders, hcheck⟩
  · rw [raiseIf_pos hriders]
    exact ⟨⟨_, rfl⟩, fun h => hriders h.1⟩

/-! ## Rows -/

section Rows

variable {p1 p2 p3 : Positions}

/-- The weight of a triple. -/
def weight (p1 p2 p3 : Positions) (t : ℤ × ℤ × ℤ) : ℚ := p1.value t.1 * p2.value t.2.1 * p3.value t.2.2

/-- The weight of all triples of riders. -/
def totalWeight (p1 p2 p3 : Positions) : ℚ := ∑ t ∈ ordered p1.riders, weight p1 p2 p3 t

theorem weight_nonneg (h1 : p1.Probabilities) (h2 : p2.Probabilities) (h3 : p3.Probabilities) (t : ℤ × ℤ × ℤ) :
    0 ≤ weight p1 p2 p3 t :=
  mul_nonneg (mul_nonneg (h1.value_nonneg _) (h2.value_nonneg _)) (h3.value_nonneg _)

/-- Of riders whom all mappings have every triple has a score. -/
theorem rawRow_of_mem (h2 : p2.riders = p1.riders) (h3 : p3.riders = p1.riders) {t : ℤ × ℤ × ℤ} (ht : t ∈ ordered p1.riders) :
    rawRow p1 p2 p3 t = .ok (t, weight p1 p2 p3 t) := by
  obtain ⟨⟨hfirst, hsecond, hthird⟩, -⟩ := mem_ordered.1 ht
  rw [rawRow, Positions.item_of_mem hfirst, Positions.item_of_mem (h2 ▸ hsecond), Positions.item_of_mem (h3 ▸ hthird)]
  rfl

/-- The row of a triple, with its share of the whole. -/
def rowOf (p1 p2 p3 : Positions) (t : ℤ × ℤ × ℤ) : TableRow :=
  { combo := t, comboKey := comboKey t, modelScore := weight p1 p2 p3 t,
    estimatedProbability := weight p1 p2 p3 t / totalWeight p1 p2 p3, probabilityCalibrationStatus := "uncalibrated",
    adapterVersion := ADAPTER_VERSION }

theorem tableRow_of_ne (h : totalWeight p1 p2 p3 ≠ 0) (t : ℤ × ℤ × ℤ) :
    tableRow (totalWeight p1 p2 p3) (t, weight p1 p2 p3 t) = .ok (rowOf p1 p2 p3 t) := by
  rw [tableRow, divide, if_neg h]
  rfl

end Rows

/-! ## Keys -/

/-- The text of a number: a sign and its digits. -/
theorem toList_int (n : ℤ) : (toString n).toList = (if n < 0 then ['-'] else []) ++ Nat.toDigits 10 n.natAbs := by
  cases n with
  | ofNat n =>
    have hnonneg : ¬ (Int.ofNat n) < 0 := not_lt.2 (Int.natCast_nonneg n)
    rw [if_neg hnonneg]
    exact String.toList_ofList
  | negSucc n =>
    rw [if_pos (Int.negSucc_lt_zero n)]
    show ("-" ++ Nat.repr (n + 1)).toList = _
    rw [String.toList_append]
    exact congrArg ('-' :: ·) String.toList_ofList

/-- A number can be read off the text it begins, where no digit follows. -/
theorem int_text_inj {m n : ℤ} {r s : List Char} (hr : Text.Stops Char.isDigit r) (hs : Text.Stops Char.isDigit s)
    (h : (toString m).toList ++ r = (toString n).toList ++ s) : m = n ∧ r = s := by
  have hdigits : ∀ {a b : ℕ}, Nat.toDigits 10 a ++ r = Nat.toDigits 10 b ++ s → a = b ∧ r = s := by
    intro a b hab
    obtain ⟨hsame, hrest⟩ := Text.run_inj (NumLit.toDigits_digit a) (NumLit.toDigits_digit b) hr hs hab
    have hvalue := congrArg NumLit.digits hsame
    rw [NumLit.digits_toDigits, NumLit.digits_toDigits] at hvalue
    exact ⟨hvalue, hrest⟩
  -- a text that begins with a digit does not begin with a sign
  have hsign : ∀ (a : ℕ) (r s : List Char), Nat.toDigits 10 a ++ r ≠ '-' :: s := by
    intro a r s heq
    obtain ⟨c, ds, hc⟩ := List.exists_cons_of_ne_nil (Nat.toDigits_ne_nil (n := a) (b := 10))
    have hdigit := NumLit.toDigits_digit a c (by simp [hc])
    rw [hc, List.cons_append] at heq
    obtain ⟨rfl, -⟩ := List.cons.inj heq
    revert hdigit
    decide
  rw [toList_int, toList_int] at h
  split_ifs at h with hm hn hn
  · obtain ⟨hvalue, hrest⟩ := hdigits (List.cons.inj h).2
    exact ⟨by omega, hrest⟩
  · exact absurd h.symm (hsign _ _ _)
  · exact absurd h (hsign _ _ _)
  · obtain ⟨hvalue, hrest⟩ := hdigits h
    exact ⟨by omega, hrest⟩

/-- Different triples have different keys. -/
theorem comboKey_injective : Function.Injective comboKey := by
  rintro ⟨a, b, c⟩ ⟨a', b', c'⟩ h
  have hlist := congrArg String.toList h
  simp only [comboKey, String.toList_append, List.append_assoc] at hlist
  have hstop : ∀ r : List Char, Text.Stops Char.isDigit ("-".toList ++ r) := fun r => (Text.stops_cons _ _ _).2 (by decide)
  obtain ⟨rfl, hrest⟩ := int_text_inj (hstop _) (hstop _) hlist
  obtain ⟨rfl, hthird⟩ := int_text_inj (hstop _) (hstop _) (List.append_cancel_left hrest)
  have hlast := List.append_cancel_left hthird
  rw [← List.append_nil (toString c).toList, ← List.append_nil (toString c').toList] at hlast
  obtain ⟨rfl, -⟩ := int_text_inj (Text.stops_nil _) (Text.stops_nil _) hlast
  rfl

/-! ## Tables -/

/-- What is refused: fewer than three riders, mappings of different riders, a number that is no probability, and mappings under which no
triple has any weight. -/
def Refused (first second third : Positions) : Prop :=
  first.riders.card < 3 ∨ second.riders ≠ first.riders ∨ third.riders ≠ first.riders ∨
    ¬ (first.Probabilities ∧ second.Probabilities ∧ third.Probabilities) ∨ totalWeight first second third = 0

/-- The table of three mappings. -/
structure Table (first second third : Positions) (rows : List TableRow) : Prop where
  combos : (rows.map TableRow.combo).Nodup ∧ ∀ t, t ∈ rows.map TableRow.combo ↔ t ∈ ordered first.riders
  keys : ∀ row ∈ rows, row.comboKey = comboKey row.combo
  shares : ∀ row ∈ rows, row.estimatedProbability = weight first second third row.combo / totalWeight first second third
  mass : (rows.map TableRow.estimatedProbability).sum = 1
  sorted : rows.Pairwise fun a b => b.estimatedProbability < a.estimatedProbability ∨
    (a.estimatedProbability = b.estimatedProbability ∧ a.comboKey < b.comboKey)

/-- The rows of all triples, sorted, are the table. -/
theorem table_rowOf {first second third : Positions} (h : totalWeight first second third ≠ 0) :
    Table first second third (((triples (first.riders.sort (· ≤ ·))).map (rowOf first second third)).insertionSort Before) := by
  set list := (triples (first.riders.sort (· ≤ ·))).map (rowOf first second third) with hlist
  have hsort : (first.riders.sort (· ≤ ·)).Nodup := Finset.sort_nodup _ _
  have hset : (first.riders.sort (· ≤ ·)).toFinset = first.riders := Finset.sort_toFinset _ _
  have hperm : (list.insertionSort Before).Perm list := List.perm_insertionSort _ _
  have hcombos : list.map TableRow.combo = triples (first.riders.sort (· ≤ ·)) := by
    rw [hlist, List.map_map]
    exact List.map_id _
  have hrow : ∀ row ∈ list.insertionSort Before, row = rowOf first second third row.combo := by
    intro row hmem
    obtain ⟨t, -, rfl⟩ := List.mem_map.1 (hperm.mem_iff.1 hmem)
    rfl
  have hnodup : ((list.insertionSort Before).map TableRow.combo).Nodup := by
    rw [(hperm.map _).nodup_iff, hcombos]
    exact nodup_triples hsort
  have hkeys : ∀ row ∈ list.insertionSort Before, row.comboKey = comboKey row.combo := by
    intro row hmem
    rw [hrow row hmem]
    rfl
  refine ⟨⟨hnodup, fun t => ?_⟩, hkeys, fun row hmem => ?_, ?_, ?_⟩
  · rw [(hperm.map _).mem_iff, hcombos, mem_triples hsort, hset]
  · rw [hrow row hmem]
    rfl
  · rw [(hperm.map _).sum_eq, hlist, List.map_map]
    have hsum := sum_triples hsort (TableRow.estimatedProbability ∘ rowOf first second third)
    rw [hset] at hsum
    calc ((triples (first.riders.sort (· ≤ ·))).map (TableRow.estimatedProbability ∘ rowOf first second third)).sum
        = ∑ t ∈ ordered first.riders, weight first second third t / totalWeight first second third := hsum
      _ = (∑ t ∈ ordered first.riders, weight first second third t) / totalWeight first second third := (Finset.sum_div _ _ _).symm
      _ = 1 := div_self h
  · have hdistinct : (list.insertionSort Before).Pairwise fun a b => a.comboKey ≠ b.comboKey := by
      refine List.Pairwise.imp_of_mem ?_ (List.pairwise_map.1 hnodup)
      intro a b ha hb hne heq
      rw [hkeys a ha, hkeys b hb] at heq
      exact hne (comboKey_injective heq)
    refine ((List.pairwise_insertionSort Before list).and hdistinct).imp ?_
    rintro a b ⟨hlt | ⟨heq, hle⟩, hne⟩
    · exact .inl (neg_lt_neg_iff.1 hlt)
    · exact .inr ⟨neg_injective heq, lt_of_le_of_ne hle hne⟩

section Combine

variable {first second third : Positions}

/-- The three mappings are checked one after the other. -/
def cleanAll (first second third : Positions) : Except AdapterError (Positions × Positions × Positions) := do
  let p1 ← cleanProbabilities first first.riders "first"
  let p2 ← cleanProbabilities second first.riders "second"
  let p3 ← cleanProbabilities third first.riders "third"
  return (p1, p2, p3)

theorem cleaned (first second third : Positions) : match cleanAll first second third with
    | .error e => (∃ m, e = .valueError m) ∧ ¬ (second.riders = first.riders ∧ third.riders = first.riders ∧ first.Probabilities ∧
        second.Probabilities ∧ third.Probabilities)
    | .ok p => p = (first, second, third) ∧ second.riders = first.riders ∧ third.riders = first.riders ∧ first.Probabilities ∧
        second.Probabilities ∧ third.Probabilities := by
  have h1 := cleanProbabilities_spec first first.riders "first"
  have h2 := cleanProbabilities_spec second first.riders "second"
  have h3 := cleanProbabilities_spec third first.riders "third"
  unfold cleanAll
  cases hp1 : cleanProbabilities first first.riders "first" with
  | error e =>
    rw [hp1] at h1
    exact ⟨h1.1, fun h => h1.2 ⟨rfl, h.2.2.1⟩⟩
  | ok p1 =>
    rw [hp1] at h1
    cases hp2 : cleanProbabilities second first.riders "second" with
    | error e =>
      rw [hp2] at h2
      exact ⟨h2.1, fun h => h2.2 ⟨h.1, h.2.2.2.1⟩⟩
    | ok p2 =>
      rw [hp2] at h2
      cases hp3 : cleanProbabilities third first.riders "third" with
      | error e =>
        rw [hp3] at h3
        exact ⟨h3.1, fun h => h3.2 ⟨h.2.1, h.2.2.2.2⟩⟩
      | ok p3 =>
        rw [hp3] at h3
        obtain ⟨rfl, -, hfirst⟩ := h1
        obtain ⟨rfl, hsecond, hsecond'⟩ := h2
        obtain ⟨rfl, hthird, hthird'⟩ := h3
        exact ⟨rfl, hsecond, hthird, hfirst, hsecond', hthird'⟩

/-- What is combined of mappings that were checked. -/
theorem combine_eq (hsize : ¬ first.riders.card < 3) : combinePositionProbabilities first second third =
    cleanAll first second third >>= fun p => (triples (first.riders.sort (· ≤ ·))).mapM (rawRow p.1 p.2.1 p.2.2) >>= fun rawRows =>
      raiseIf ((rawRows.map Prod.snd).sum ≤ 0) (.valueError "position probabilities produce zero or invalid trifecta mass") >>= fun _ =>
        rawRows.mapM (tableRow (rawRows.map Prod.snd).sum) >>= fun rows => .ok (rows.insertionSort Before) := by
  simp only [combinePositionProbabilities, cleanAll, raiseIf_neg hsize, bind_assoc, pure_bind]
  rfl

/-- Mappings that pass the checks are combined to the rows of all triples, where these have any weight. -/
theorem combine_of_cleaned (hsize : ¬ first.riders.card < 3) (hclean : cleanAll first second third = .ok (first, second, third))
    (h2 : second.riders = first.riders) (h3 : third.riders = first.riders) : combinePositionProbabilities first second third =
      if totalWeight first second third ≤ 0 then .error (.valueError "position probabilities produce zero or invalid trifecta mass")
      else .ok (((triples (first.riders.sort (· ≤ ·))).map (rowOf first second third)).insertionSort Before) := by
  have hsort : (first.riders.sort (· ≤ ·)).Nodup := Finset.sort_nodup _ _
  have hset : (first.riders.sort (· ≤ ·)).toFinset = first.riders := Finset.sort_toFinset _ _
  have hraw : (triples (first.riders.sort (· ≤ ·))).mapM (rawRow first second third) =
      .ok ((triples (first.riders.sort (· ≤ ·))).map fun t => (t, weight first second third t)) := by
    refine mapM_eq_ok fun t ht => rawRow_of_mem h2 h3 ?_
    rw [mem_triples hsort, hset] at ht
    exact ht
  have htotal : (((triples (first.riders.sort (· ≤ ·))).map fun t => (t, weight first second third t)).map Prod.snd).sum =
      totalWeight first second third := by
    rw [List.map_map]
    have hsum := sum_triples hsort (weight first second third)
    rw [hset] at hsum
    exact hsum
  rw [combine_eq hsize, hclean]
  show ((triples _).mapM (rawRow first second third) >>= _) = _
  rw [hraw]
  show (raiseIf _ _ >>= fun _ => List.mapM _ _ >>= _) = _
  rw [htotal]
  split_ifs with hzero
  · rw [raiseIf_pos hzero]
    rfl
  · have hne : totalWeight first second third ≠ 0 := fun heq => hzero heq.le
    have hrows : (((triples (first.riders.sort (· ≤ ·))).map fun t => (t, weight first second third t)).mapM
        (tableRow (totalWeight first second third))) = .ok ((triples (first.riders.sort (· ≤ ·))).map (rowOf first second third)) := by
      rw [List.mapM_map]
      exact mapM_eq_ok fun t _ => tableRow_of_ne hne t
    rw [raiseIf_neg hzero, hrows]
    rfl

end Combine

/-- Mappings are combined to a distribution over the ordered triples of their riders: every triple has one row, with its share of the
whole weight, the shares sum to one, and the rows are sorted by them and then by their keys. They are refused just where there are
fewer than three riders, the riders differ, a number is no probability or the whole weight is zero, and nothing but a refusal is raised:
no number is missing and there is no division by zero. -/
theorem combine_distribution (first second third : Positions) : match combinePositionProbabilities first second third with
    | .error e => Refused first second third ∧ ∃ message, e = .valueError message
    | .ok rows => ¬ Refused first second third ∧ Table first second third rows := by
  by_cases hsize : first.riders.card < 3
  · have hcombine : combinePositionProbabilities first second third = .error (.valueError "at least three riders are required") := by
      simp only [combinePositionProbabilities, raiseIf_pos hsize]
      rfl
    rw [hcombine]
    exact ⟨.inl hsize, _, rfl⟩
  have hclean := cleaned first second third
  split at hclean
  · rename_i e he
    obtain ⟨hvalue, hbad⟩ := hclean
    rw [combine_eq hsize, he]
    refine ⟨?_, hvalue⟩
    by_contra hgood
    simp only [Refused, not_or, not_not] at hgood
    exact hbad ⟨hgood.2.1, hgood.2.2.1, hgood.2.2.2.1⟩
  · rename_i p hp
    obtain ⟨rfl, h2, h3, hprobabilities⟩ := hclean
    rw [combine_of_cleaned hsize hp h2 h3]
    have hnonneg : 0 ≤ totalWeight first second third := Finset.sum_nonneg fun t _ =>
      weight_nonneg hprobabilities.1 hprobabilities.2.1 hprobabilities.2.2 t
    by_cases hzero : totalWeight first second third ≤ 0
    · rw [if_pos hzero]
      exact ⟨.inr (.inr (.inr (.inr (le_antisymm hzero hnonneg)))), _, rfl⟩
    · have hne : totalWeight first second third ≠ 0 := fun heq => hzero heq.le
      rw [if_neg hzero]
      refine ⟨?_, table_rowOf hne⟩
      rintro (hbad | hbad | hbad | hbad | hbad)
      · exact hsize hbad
      · exact hbad h2
      · exact hbad h3
      · exact hbad hprobabilities
      · exact hne hbad

section Validate

variable {first second third : Positions} {rows : List TableRow}

/-- What is combined is a table of at least three riders. -/
theorem table_of_combine (h : combinePositionProbabilities first second third = .ok rows) :
    3 ≤ first.riders.card ∧ Table first second third rows := by
  have hsize : ¬ first.riders.card < 3 := by
    intro hsmall
    rw [combinePositionProbabilities, raiseIf_pos hsmall] at h
    cases h
  refine ⟨not_lt.1 hsize, ?_⟩
  have hclean := cleaned first second third
  cases hall : cleanAll first second third with
  | error e =>
    rw [combine_eq hsize, hall] at h
    cases h
  | ok p =>
    rw [hall] at hclean
    obtain ⟨rfl, h2, h3, -⟩ := hclean
    rw [combine_of_cleaned hsize hall h2 h3] at h
    split_ifs at h with hzero
    rw [← Except.ok.inj h]
    exact table_rowOf fun heq => hzero heq.le

end Validate

/-- A table that was combined passes its validation. -/
theorem validate_combined (first second third : Positions) (rows : List TableRow)
    (h : combinePositionProbabilities first second third = .ok rows) :
    (validateTrifectaTable rows first.riders.card).combinationCountOk = true ∧
      (validateTrifectaTable rows first.riders.card).uniqueOk = true ∧
      (validateTrifectaTable rows first.riders.card).probabilityMassOk = true := by
  obtain ⟨hsize, htable⟩ := table_of_combine h
  have hsort : (first.riders.sort (· ≤ ·)).Nodup := Finset.sort_nodup _ _
  have hset : (first.riders.sort (· ≤ ·)).toFinset = first.riders := Finset.sort_toFinset _ _
  have hperm : (rows.map TableRow.combo).Perm (triples (first.riders.sort (· ≤ ·))) := by
    refine (List.perm_ext_iff_of_nodup htable.combos.1 (nodup_triples hsort)).2 fun t => ?_
    rw [htable.combos.2, mem_triples hsort, hset]
  have hkeys : rows.map TableRow.comboKey = (rows.map TableRow.combo).map comboKey := by
    rw [List.map_map]
    exact List.map_congr_left htable.keys
  have hlength : rows.length = first.riders.card * ((first.riders.card - 1) * (first.riders.card - 2)) := by
    have hcount := hperm.length_eq
    rwa [List.length_map, length_triples, Finset.length_sort] at hcount
  have hexpected : (rows.length : ℤ) = first.riders.card * (first.riders.card - 1) * (first.riders.card - 2) := by
    obtain ⟨n, hn⟩ := Nat.exists_eq_add_of_le hsize
    rw [hlength, hn]
    push_cast [show 3 + n - 1 = n + 2 by omega, show 3 + n - 2 = n + 1 by omega]
    ring
  have hdedup : (rows.map TableRow.comboKey).dedup = rows.map TableRow.comboKey := by
    rw [hkeys]
    exact (htable.combos.1.map comboKey_injective).dedup
  refine ⟨decide_eq_true hexpected, decide_eq_true ?_, decide_eq_true ?_⟩
  · show ((rows.map TableRow.comboKey).dedup.length : ℤ) = _
    rw [hdedup, List.length_map]
    exact hexpected
  · show |(rows.map TableRow.estimatedProbability).sum - 1| ≤ 1 / 10 ^ 12
    rw [htable.mass]
    norm_num

/-- Three riders of equal chances. -/
def evenly : Positions := ⟨[(1, 1 / 3), (2, 1 / 3), (3, 1 / 3)], by decide⟩

theorem combine_evenly : ∃ rows, combinePositionProbabilities evenly evenly evenly = .ok rows := by
  have hsize : ¬ evenly.riders.card < 3 := by decide
  have hprobabilities : evenly.Probabilities := by
    intro e he
    fin_cases he <;> norm_num
  have hspec := cleaned evenly evenly evenly
  have hclean : cleanAll evenly evenly evenly = .ok (evenly, evenly, evenly) := by
    cases h : cleanAll evenly evenly evenly with
    | error e =>
      rw [h] at hspec
      exact absurd ⟨rfl, rfl, hprobabilities, hprobabilities, hprobabilities⟩ hspec.2
    | ok p =>
      rw [h] at hspec
      rw [hspec.1]
  have htotal : ¬ totalWeight evenly evenly evenly ≤ 0 := by decide +kernel
  rw [combine_of_cleaned hsize hclean rfl rfl, if_neg htotal]
  exact ⟨_, rfl⟩

theorem validate_combined_evenly : ∃ rows, combinePositionProbabilities evenly evenly evenly = .ok rows ∧
    (validateTrifectaTable rows 3).probabilityMassOk = true := by
  obtain ⟨rows, hrows⟩ := combine_evenly
  have hcard : evenly.riders.card = 3 := by decide
  obtain ⟨-, -, hmass⟩ := validate_combined evenly evenly evenly rows hrows
  rw [hcard] at hmass
  exact ⟨rows, hrows, hmass⟩

end Keirin.TrifectaAdapter

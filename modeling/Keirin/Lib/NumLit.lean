import Keirin.Lib.Text

/-!
# Number literals

The text of a number, split into its sign, digits, fraction and exponent; the number it denotes; the forms in which a
decimal is laid out. Different literals have different texts.
-/

/-- The text of a number: a sign, digits, and possibly a fraction and an exponent (its sign and its digits). -/
structure NumLit where
  neg : Bool
  int : List Char
  frac : Option (List Char)
  exp : Option (Bool × List Char)
deriving DecidableEq

namespace NumLit

/-- The number a list of digits denotes. -/
def digits (ds : List Char) : ℕ := Nat.ofDigitChars 10 ds 0

/-- A literal without fraction and exponent. -/
def isInt (l : NumLit) : Bool := l.frac.isNone && l.exp.isNone

/-- The exponent of a literal. -/
def expValue (l : NumLit) : ℤ :=
  match l.exp with
  | none => 0
  | some (n, ds) => if n then -(digits ds : ℤ) else digits ds

/-- The magnitude a literal denotes. -/
def mag (l : NumLit) : ℚ :=
  digits (l.int ++ l.frac.getD []) * (10 : ℚ) ^ (l.expValue - (l.frac.getD []).length)

/-- The number a literal denotes. -/
def value (l : NumLit) : ℚ := if l.neg then -l.mag else l.mag

/-- The characters of the fraction. -/
def renderFrac (l : NumLit) : List Char :=
  match l.frac with
  | none => []
  | some ds => '.' :: ds

/-- The characters of the exponent. -/
def renderExp (l : NumLit) : List Char :=
  match l.exp with
  | none => []
  | some (n, ds) => 'e' :: (if n then '-' else '+') :: ds

/-- The characters of a literal. -/
def render (l : NumLit) : List Char :=
  (if l.neg then ['-'] else []) ++ (l.int ++ (l.renderFrac ++ l.renderExp))

/-- The literal of an integer. -/
def ofInt (n : ℤ) : NumLit := { neg := decide (n < 0), int := Nat.toDigits 10 n.natAbs, frac := none, exp := none }

/-- The integer of a literal without fraction and exponent. -/
def toInt (l : NumLit) : ℤ := if l.neg then -(digits l.int : ℤ) else digits l.int

/-- `ds` and `n` zeros, without a decimal point. -/
def whole (neg : Bool) (ds : List Char) (n : ℕ) (frac : Option (List Char)) : NumLit :=
  { neg := neg, int := ds ++ List.replicate n '0', frac := frac, exp := none }

/-- `ds` with the decimal point after `n` digits, `n` between 1 and the number of digits. -/
def pointInside (neg : Bool) (ds : List Char) (n : ℕ) : NumLit :=
  { neg := neg, int := ds.take n, frac := some (ds.drop n), exp := none }

/-- `0.` followed by `n` zeros and `ds`. -/
def pointBefore (neg : Bool) (ds : List Char) (n : ℕ) : NumLit :=
  { neg := neg, int := ['0'], frac := some (List.replicate n '0' ++ ds), exp := none }

/-- The first digit, the others behind the point, and an exponent of at least `width` digits. -/
def scientific (neg : Bool) (ds : List Char) (e : ℤ) (width : ℕ) : NumLit :=
  let es := Nat.toDigits 10 e.natAbs
  { neg := neg
    int := ds.take 1
    frac := if ds.length ≤ 1 then none else some (ds.drop 1)
    exp := some (decide (e < 0), List.replicate (width - es.length) '0' ++ es) }

/-! ### Values -/

@[simp] theorem digits_toDigits (n : ℕ) : digits (Nat.toDigits 10 n) = n := Nat.ofDigitChars_ten_toDigits

theorem digits_append_zeros (ds : List Char) (n : ℕ) : digits (ds ++ List.replicate n '0') = 10 ^ n * digits ds := by
  rw [digits, Nat.ofDigitChars_append, Nat.ofDigitChars_replicate_zero]
  rfl

@[simp] theorem digits_zeros_append (ds : List Char) (n : ℕ) : digits (List.replicate n '0' ++ ds) = digits ds := by
  rw [digits, Nat.ofDigitChars_append, Nat.ofDigitChars_replicate_zero]
  simp [digits]

theorem mag_whole (neg : Bool) (ds : List Char) (n : ℕ) : (whole neg ds n none).mag = digits ds * (10 : ℚ) ^ (n : ℤ) := by
  simp only [whole, mag, expValue, Option.getD_none, List.append_nil, digits_append_zeros, List.length_nil]
  push_cast
  rw [mul_one, zpow_natCast, mul_comm]

theorem mag_whole_point (neg : Bool) (ds : List Char) (n : ℕ) :
    (whole neg ds n (some ['0'])).mag = digits ds * (10 : ℚ) ^ (n : ℤ) := by
  have h : ds ++ List.replicate n '0' ++ ['0'] = ds ++ List.replicate (n + 1) '0' := by
    rw [List.append_assoc, ← List.replicate_succ']
  simp only [whole, mag, expValue, Option.getD_some, h, digits_append_zeros, List.length_singleton]
  push_cast
  rw [pow_succ, zpow_natCast, zpow_neg_one]
  field_simp

theorem mag_pointInside (neg : Bool) (ds : List Char) {n : ℕ} (hn : n ≤ ds.length) :
    (pointInside neg ds n).mag = digits ds * (10 : ℚ) ^ ((n : ℤ) - ds.length) := by
  simp only [pointInside, mag, expValue, Option.getD_some, List.take_append_drop, List.length_drop]
  congr 2
  omega

theorem mag_pointBefore (neg : Bool) (ds : List Char) (n : ℕ) :
    (pointBefore neg ds n).mag = digits ds * (10 : ℚ) ^ (-(n : ℤ) - ds.length) := by
  have h : ['0'] ++ (List.replicate n '0' ++ ds) = List.replicate (n + 1) '0' ++ ds := by
    rw [List.replicate_succ]; rfl
  simp only [pointBefore, mag, expValue, Option.getD_some, h, digits_zeros_append, List.length_append, List.length_replicate]
  congr 2
  push_cast
  ring

theorem mag_scientific (neg : Bool) {ds : List Char} (hds : ds ≠ []) (e : ℤ) (width : ℕ) :
    (scientific neg ds e width).mag = digits ds * (10 : ℚ) ^ (e - (ds.length - 1)) := by
  have hlen : 0 < ds.length := List.length_pos_iff.2 hds
  have he : (scientific neg ds e width).expValue = e := by
    simp only [scientific, expValue, digits_zeros_append, digits_toDigits]
    by_cases h : e < 0 <;> simp only [h, decide_true, decide_false, if_true, if_false, Bool.false_eq_true] <;> omega
  have hds' : (scientific neg ds e width).int ++ (scientific neg ds e width).frac.getD [] = ds ∧
      (((scientific neg ds e width).frac.getD []).length : ℤ) = ds.length - 1 := by
    simp only [scientific]
    split_ifs with h
    · exact ⟨by simp [List.take_of_length_le h], by simp; omega⟩
    · refine ⟨by simp only [Option.getD_some, List.take_append_drop], ?_⟩
      simp only [Option.getD_some, List.length_drop]
      omega
  rw [mag, he, hds'.1, hds'.2]

@[simp] theorem toInt_ofInt (n : ℤ) : (ofInt n).toInt = n := by
  simp only [ofInt, toInt, digits_toDigits]
  by_cases h : n < 0 <;> simp only [h, decide_true, decide_false, if_true, if_false, Bool.false_eq_true] <;> omega

theorem mag_nonneg (l : NumLit) : 0 ≤ l.mag := by
  rw [mag]; positivity

/-- The value of a literal without fraction and exponent is its integer. -/
theorem value_of_isInt {l : NumLit} (h : l.isInt = true) : l.value = l.toInt := by
  obtain ⟨neg, int, frac, exp⟩ := l
  simp only [isInt, Bool.and_eq_true, Option.isNone_iff_eq_none] at h
  obtain ⟨rfl, rfl⟩ := h
  cases neg <;> simp [value, mag, toInt, expValue]

/-! ### Characters -/

/-- The characters a literal is made of. -/
def isNumChar (c : Char) : Bool := c.isDigit || c = '-' || c = '+' || c = '.' || c = 'e'

/-- A literal of digits, at least one before the point. -/
structure WF (l : NumLit) : Prop where
  int_digit : ∀ c ∈ l.int, c.isDigit = true
  int_ne : l.int ≠ []
  frac_digit : ∀ ds ∈ l.frac, ∀ c ∈ ds, c.isDigit = true
  exp_digit : ∀ e ∈ l.exp, ∀ c ∈ e.2, c.isDigit = true

theorem toDigits_digit (n : ℕ) : ∀ c ∈ Nat.toDigits 10 n, c.isDigit = true := fun _ =>
  Nat.isDigit_of_mem_toDigits (by norm_num) (by norm_num)

theorem zeros_digit (n : ℕ) : ∀ c ∈ List.replicate n '0', c.isDigit = true := by
  intro c hc
  rw [(List.mem_replicate.1 hc).2]
  decide

theorem digits_append_digit {a b : List Char} (ha : ∀ c ∈ a, c.isDigit = true) (hb : ∀ c ∈ b, c.isDigit = true) :
    ∀ c ∈ a ++ b, c.isDigit = true := by
  intro c hc
  rcases List.mem_append.1 hc with h | h
  · exact ha c h
  · exact hb c h

theorem wf_ofInt (n : ℤ) : (ofInt n).WF :=
  ⟨toDigits_digit _, Nat.toDigits_ne_nil, by simp [ofInt], by simp [ofInt]⟩

section WFForms

variable {ds : List Char} (hds : ∀ c ∈ ds, c.isDigit = true) (hne : ds ≠ []) (neg : Bool)

include hds hne

theorem wf_whole (n : ℕ) {frac : Option (List Char)} (hf : ∀ ds ∈ frac, ∀ c ∈ ds, c.isDigit = true) :
    (whole neg ds n frac).WF :=
  ⟨digits_append_digit hds (zeros_digit n), by simp [whole, hne], hf, by simp [whole]⟩

theorem wf_pointInside {n : ℕ} (hn : 0 < n) : (pointInside neg ds n).WF := by
  refine ⟨fun c hc => hds c (List.mem_of_mem_take hc), ?_, ?_, by simp [pointInside]⟩
  · simp only [pointInside, ne_eq, List.take_eq_nil_iff, hne, or_false]
    omega
  · simp only [pointInside, Option.mem_some_iff]
    rintro _ rfl c hc
    exact hds c (List.mem_of_mem_drop hc)

theorem wf_scientific (e : ℤ) (width : ℕ) : (scientific neg ds e width).WF := by
  refine ⟨fun c hc => hds c (List.mem_of_mem_take hc), by simp [scientific, hne], ?_, ?_⟩
  · simp only [scientific]
    split_ifs
    · simp
    · simp only [Option.mem_some_iff]
      rintro _ rfl c hc
      exact hds c (List.mem_of_mem_drop hc)
  · simp only [scientific, Option.mem_some_iff]
    rintro _ rfl
    exact digits_append_digit (zeros_digit _) (toDigits_digit _)

omit hne

theorem wf_pointBefore (n : ℕ) : (pointBefore neg ds n).WF := by
  refine ⟨by simp [pointBefore], by simp [pointBefore], ?_, by simp [pointBefore]⟩
  simp only [pointBefore, Option.mem_some_iff]
  rintro _ rfl
  exact digits_append_digit (zeros_digit n) hds

end WFForms

/-- The literal is made of number characters. -/
theorem isNumChar_of_mem_render {l : NumLit} (h : l.WF) : ∀ c ∈ l.render, isNumChar c = true := by
  intro c hc
  simp only [render, renderFrac, renderExp, List.mem_append] at hc
  rcases hc with hc | hc | hc | hc
  · split at hc <;> simp_all [isNumChar]
  · simp [isNumChar, h.int_digit c hc]
  · split at hc
    · simp at hc
    · rename_i ds he
      rcases List.mem_cons.1 hc with rfl | hc
      · decide
      · simp [isNumChar, h.frac_digit ds he c hc]
  · split at hc
    · simp at hc
    · rename_i n ds he
      rcases List.mem_cons.1 hc with rfl | hc
      · decide
      rcases List.mem_cons.1 hc with rfl | hc
      · cases n <;> decide
      · simp [isNumChar, h.exp_digit (n, ds) he c hc]

theorem render_ne_nil {l : NumLit} (h : l.WF) : l.render ≠ [] := by
  simp [render, h.int_ne]

/-- The sign of a literal can be read off its first character. -/
theorem head_render {l : NumLit} (h : l.WF) : ∃ c r, l.render = c :: r ∧ (l.neg = true ↔ c = '-') := by
  obtain ⟨c, r, hr⟩ := List.exists_cons_of_ne_nil h.int_ne
  have hc : c.isDigit = true := h.int_digit c (by simp [hr])
  cases hn : l.neg with
  | true => exact ⟨'-', l.int ++ (l.renderFrac ++ l.renderExp), by simp [render, hn], by simp⟩
  | false =>
    refine ⟨c, r ++ (l.renderFrac ++ l.renderExp), by simp [render, hn, hr], ?_⟩
    simp only [Bool.false_eq_true, false_iff]
    rintro rfl
    exact absurd hc (by decide)

/-- A literal begins with a minus sign or a digit. -/
theorem head_render_digit {l : NumLit} (h : l.WF) : ∃ c r, l.render = c :: r ∧ (c = '-' ∨ c.isDigit = true) := by
  obtain ⟨c, r, hr⟩ := List.exists_cons_of_ne_nil h.int_ne
  cases hn : l.neg with
  | true => exact ⟨'-', l.int ++ (l.renderFrac ++ l.renderExp), by simp [render, hn], .inl rfl⟩
  | false =>
    exact ⟨c, r ++ (l.renderFrac ++ l.renderExp), by simp [render, hn, hr], .inr (h.int_digit c (by simp [hr]))⟩

theorem not_isAlpha_of_isDigit {c : Char} (h : c.isDigit = true) : c.isAlpha = false := by
  simp only [Char.isDigit, Bool.and_eq_true, decide_eq_true_eq, ge_iff_le, UInt32.le_iff_toNat_le] at h
  rw [Bool.eq_false_iff]
  intro ha
  replace ha : (decide (c.val ≥ 65 ∧ c.val ≤ 90) || (decide (c.val ≥ 97) && decide (c.val ≤ 122))) = true := ha
  simp only [Bool.or_eq_true, Bool.and_eq_true, decide_eq_true_eq, ge_iff_le, UInt32.le_iff_toNat_le] at ha
  change 48 ≤ c.toNat ∧ c.toNat ≤ 57 at h
  change (65 ≤ c.toNat ∧ c.toNat ≤ 90) ∨ (97 ≤ c.toNat ∧ c.toNat ≤ 122) at ha
  omega

theorem stops_renderExp (l : NumLit) : Text.Stops Char.isDigit l.renderExp := by
  unfold renderExp
  split <;> simp

theorem stops_renderFrac (l : NumLit) : Text.Stops Char.isDigit (l.renderFrac ++ l.renderExp) := by
  unfold renderFrac
  split
  · exact stops_renderExp l
  · simp

theorem renderExp_inj {l l' : NumLit} (h : l.renderExp = l'.renderExp) : l.exp = l'.exp := by
  unfold renderExp at h
  rcases he : l.exp with _ | ⟨n, ds⟩ <;> rcases he' : l'.exp with _ | ⟨n', ds'⟩ <;> simp only [he, he'] at h
  · rfl
  · exact absurd h.symm (List.cons_ne_nil _ _)
  · exact absurd h (List.cons_ne_nil _ _)
  · cases n <;> cases n' <;> simp_all

theorem renderFrac_inj {l l' : NumLit} (h : l.WF) (h' : l'.WF)
    (he : l.renderFrac ++ l.renderExp = l'.renderFrac ++ l'.renderExp) : l.frac = l'.frac ∧ l.renderExp = l'.renderExp := by
  have hdot (m : NumLit) (ds : List Char) : '.' :: ds ≠ m.renderExp := by
    unfold renderExp
    split <;> simp
  cases hf : l.frac with
  | none =>
    cases hf' : l'.frac with
    | none => exact ⟨rfl, by simpa [renderFrac, hf, hf'] using he⟩
    | some ds => exact absurd (by simpa [renderFrac, hf, hf'] using he.symm) (hdot l _)
  | some ds =>
    cases hf' : l'.frac with
    | none => exact absurd (by simpa [renderFrac, hf, hf'] using he) (hdot l' _)
    | some ds' =>
      simp only [renderFrac, hf, hf', List.cons_append, List.cons.injEq, true_and] at he
      obtain ⟨hds, hexp⟩ := Text.run_inj (h.frac_digit ds hf) (h'.frac_digit ds' hf') (stops_renderExp l)
        (stops_renderExp l') he
      exact ⟨by rw [hds], hexp⟩

/-- Different literals have different texts. -/
theorem render_inj {l l' : NumLit} (h : l.WF) (h' : l'.WF) (he : l.render = l'.render) : l = l' := by
  have hneg : l.neg = l'.neg := by
    obtain ⟨c, r, hc, hiff⟩ := head_render h
    obtain ⟨c', r', hc', hiff'⟩ := head_render h'
    rw [hc, hc', List.cons.injEq] at he
    rw [Bool.eq_iff_iff, hiff, hiff', he.1]
  simp only [render, hneg, List.append_cancel_left_eq] at he
  obtain ⟨hint, hrest⟩ := Text.run_inj h.int_digit h'.int_digit (stops_renderFrac l) (stops_renderFrac l') he
  obtain ⟨hfrac, hexp⟩ := renderFrac_inj h h' hrest
  have hexp' := renderExp_inj hexp
  cases l
  cases l'
  simp_all

end NumLit

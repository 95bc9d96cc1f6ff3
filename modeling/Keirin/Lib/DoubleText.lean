import Keirin.Lib.Binary64
import Keirin.Lib.NumLit

/-!
# The texts of doubles

Python and JavaScript write a double with its shortest digits, in different layouts. Either text reads back as the double,
except that JavaScript writes a negative zero as `0`. JavaScript writes an integer below `10 ^ 21` without a point.
-/

namespace Binary64

/-- The text of a double in Python: `repr(x)`. -/
def pyRepr (x : Binary64) : NumLit :=
  let (s, p) := shortest x.mag
  let ds := Nat.toDigits 10 s
  if x.mag = 0 then NumLit.whole x.neg ['0'] 0 (some ['0'])
  else if point x.mag ≤ -4 ∨ 16 < point x.mag then NumLit.scientific x.neg ds (point x.mag - 1) 2
  else if point x.mag ≤ 0 then NumLit.pointBefore x.neg ds (-point x.mag).toNat
  else if 0 ≤ p then NumLit.whole x.neg ds p.toNat (some ['0'])
  else NumLit.pointInside x.neg ds (point x.mag).toNat

/-- The text of a double in JavaScript: `JSON.stringify(x)`, which follows `Number::toString`. -/
def jsText (x : Binary64) : NumLit :=
  let (s, p) := shortest x.mag
  let ds := Nat.toDigits 10 s
  if x.mag = 0 then NumLit.whole false ['0'] 0 none
  else if point x.mag ≤ -6 ∨ 21 < point x.mag then NumLit.scientific x.neg ds (point x.mag - 1) 1
  else if point x.mag ≤ 0 then NumLit.pointBefore x.neg ds (-point x.mag).toNat
  else if 0 ≤ p then NumLit.whole x.neg ds p.toNat none
  else NumLit.pointInside x.neg ds (point x.mag).toNat

/-- The double a literal is read as; `none` where it overflows to an infinity. -/
def read (l : NumLit) : Option Binary64 := ofMag l.neg l.mag

/-! ## Reading back -/

/-- A nonnegative magnitude that is not zero is positive. -/
theorem mag_pos {x : Binary64} (h : x.mag ≠ 0) : 0 < x.mag := lt_of_le_of_ne (isDouble_nonneg x.isDouble) (Ne.symm h)

theorem point_def (v : ℚ) : point v = (Nat.toDigits 10 (shortest v).1).length + (shortest v).2 := rfl

/-- The magnitude of the Python text is the shortest decimal. -/
theorem mag_pyRepr {x : Binary64} (h : x.mag ≠ 0) : x.pyRepr.mag = (shortest x.mag).1 * (10 : ℚ) ^ (shortest x.mag).2 := by
  have hp := point_def x.mag
  have hlen : 0 < (Nat.toDigits 10 (shortest x.mag).1).length := Nat.length_toDigits_pos
  simp only [pyRepr, h, if_false]
  split_ifs with h1 h2 h3
  · rw [NumLit.mag_scientific _ Nat.toDigits_ne_nil, NumLit.digits_toDigits]
    congr 2
    omega
  · rw [NumLit.mag_pointBefore, NumLit.digits_toDigits]
    congr 2
    omega
  · rw [NumLit.mag_whole_point, NumLit.digits_toDigits, Int.toNat_of_nonneg h3]
  · rw [NumLit.mag_pointInside _ _ (by omega), NumLit.digits_toDigits]
    congr 2
    omega

/-- The magnitude of the JavaScript text is the shortest decimal. -/
theorem mag_jsText {x : Binary64} (h : x.mag ≠ 0) : x.jsText.mag = (shortest x.mag).1 * (10 : ℚ) ^ (shortest x.mag).2 := by
  have hp := point_def x.mag
  have hlen : 0 < (Nat.toDigits 10 (shortest x.mag).1).length := Nat.length_toDigits_pos
  simp only [jsText, h, if_false]
  split_ifs with h1 h2 h3
  · rw [NumLit.mag_scientific _ Nat.toDigits_ne_nil, NumLit.digits_toDigits]
    congr 2
    omega
  · rw [NumLit.mag_pointBefore, NumLit.digits_toDigits]
    congr 2
    omega
  · rw [NumLit.mag_whole, NumLit.digits_toDigits, Int.toNat_of_nonneg h3]
  · rw [NumLit.mag_pointInside _ _ (by omega), NumLit.digits_toDigits]
    congr 2
    omega

@[simp] theorem neg_pyRepr (x : Binary64) : x.pyRepr.neg = x.neg := by
  simp only [pyRepr]
  split_ifs <;> rfl

theorem neg_jsText {x : Binary64} (h : x.mag ≠ 0) : x.jsText.neg = x.neg := by
  simp only [jsText, h, if_false]
  split_ifs <;> rfl

/-- The Python text of a double reads back as the double. -/
theorem read_pyRepr (x : Binary64) : read x.pyRepr = some x := by
  rw [read, neg_pyRepr]
  refine ofMag_of_roundMag x (NumLit.mag_nonneg _) ?_
  by_cases h : x.mag = 0
  · have h0 : x.pyRepr.mag = 0 := by
      simp only [pyRepr, h, if_true]
      have hd : NumLit.digits ['0'] = 0 := by decide
      rw [NumLit.mag_whole_point, hd, Nat.cast_zero, zero_mul]
    rw [h0, h]
    exact roundMag_of_isDouble isDouble_zero
  · rw [mag_pyRepr h]
    exact roundMag_shortest x.isDouble (mag_pos h)

/-- The JavaScript text of a double that is not zero reads back as the double. -/
theorem read_jsText {x : Binary64} (h : x.mag ≠ 0) : read x.jsText = some x := by
  rw [read, neg_jsText h]
  refine ofMag_of_roundMag x (NumLit.mag_nonneg _) ?_
  rw [mag_jsText h]
  exact roundMag_shortest x.isDouble (mag_pos h)

/-- The JavaScript text of either zero is `0`. -/
theorem jsText_of_zero {x : Binary64} (h : x.mag = 0) : x.jsText = NumLit.ofInt 0 := by
  simp only [jsText, h, if_true]
  decide

/-- Different doubles have different Python texts. -/
theorem pyRepr_inj {x y : Binary64} (h : x.pyRepr = y.pyRepr) : x = y := by
  have := read_pyRepr x
  rw [h, read_pyRepr y] at this
  exact (Option.some.inj this).symm

/-! ## Forms -/

/-- Python writes every double with a point or an exponent. -/
@[simp] theorem isInt_pyRepr (x : Binary64) : x.pyRepr.isInt = false := by
  simp only [pyRepr]
  split_ifs <;> simp [NumLit.isInt, NumLit.whole, NumLit.scientific, NumLit.pointBefore, NumLit.pointInside]

/-- JavaScript writes a double without point and exponent exactly when it is an integer below `10 ^ 21`. -/
theorem isInt_jsText (x : Binary64) : x.jsText.isInt = true ↔ (∃ n : ℤ, x.mag = n) ∧ x.mag < 10 ^ 21 := by
  by_cases h : x.mag = 0
  · rw [jsText_of_zero h, h]
    exact ⟨fun _ => ⟨⟨0, by simp⟩, by positivity⟩, fun _ => by decide⟩
  have hpos := mag_pos h
  have hexp := shortest_exp_nonneg_iff x.isDouble hpos
  have hp := point_def x.mag
  have hlen : 0 < (Nat.toDigits 10 (shortest x.mag).1).length := Nat.length_toDigits_pos
  have hform : x.jsText.isInt = true ↔ 0 ≤ (shortest x.mag).2 ∧ point x.mag ≤ 21 := by
    simp only [jsText, h, if_false]
    split_ifs with h1 h2 h3 <;>
      simp only [NumLit.isInt, NumLit.whole, NumLit.scientific, NumLit.pointBefore, NumLit.pointInside, Option.isNone_none,
        Option.isNone_some, Bool.and_false, Bool.and_true, Bool.false_eq_true, false_iff, true_iff] <;> omega
  rw [hform, hexp]
  refine and_congr_right ?_
  rintro ⟨n, hn⟩
  refine ⟨fun hle => ?_, point_le x.isDouble hpos hn⟩
  by_contra hge
  have := lt_point x.isDouble hpos (j := 21) (not_lt.1 hge)
  omega

theorem wf_pyRepr (x : Binary64) : x.pyRepr.WF := by
  have hp := point_def x.mag
  simp only [pyRepr]
  split_ifs with h h1 h2 h3
  · exact NumLit.wf_whole (by simp) (by simp) _ _ (by simp)
  · exact NumLit.wf_scientific (NumLit.toDigits_digit _) Nat.toDigits_ne_nil _ _ _
  · exact NumLit.wf_pointBefore (NumLit.toDigits_digit _) _ _
  · exact NumLit.wf_whole (NumLit.toDigits_digit _) Nat.toDigits_ne_nil _ _ (by simp)
  · exact NumLit.wf_pointInside (NumLit.toDigits_digit _) Nat.toDigits_ne_nil _ (by omega)

end Binary64

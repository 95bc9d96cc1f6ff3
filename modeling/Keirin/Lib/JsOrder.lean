import Keirin.Lib.JsMath
import Keirin.Lib.Rounding

/-!
# Comparing by subtraction

The difference of two doubles is rounded, but it is never rounded to zero unless they are equal: its sign compares them.
-/

namespace JsFloat

open Binary64

/-- A double is a multiple of the least one. -/
theorem multiple_of_least {v : ℚ} (h : IsDouble v) : ∃ n : ℤ, v = n * (2 : ℚ) ^ (-1074 : ℤ) := by
  obtain ⟨n, e, -, he, -, rfl⟩ := h
  obtain ⟨k, hk⟩ := zpow_multiple he
  exact ⟨n * k, by rw [hk]; push_cast; ring⟩

theorem isDouble_least : IsDouble ((2 : ℚ) ^ (-1074 : ℤ)) := ⟨1, -1074, by norm_num, le_rfl, by norm_num, by norm_num⟩

theorem toRat_multiple (x : Binary64) : ∃ n : ℤ, x.toRat = n * (2 : ℚ) ^ (-1074 : ℤ) := by
  obtain ⟨n, hn⟩ := multiple_of_least x.isDouble
  unfold Binary64.toRat
  split_ifs
  · exact ⟨-n, by rw [hn]; push_cast; ring⟩
  · exact ⟨n, hn⟩

/-- A difference of doubles that is not zero is not rounded to zero. -/
theorem roundMag_pos {q : ℚ} {n : ℤ} (hq : q = n * (2 : ℚ) ^ (-1074 : ℤ)) (hne : q ≠ 0) : 0 < roundMag |q| := by
  have hpos : (0 : ℚ) < (2 : ℚ) ^ (-1074 : ℤ) := by positivity
  have hn : n ≠ 0 := by
    rintro rfl
    exact hne (by rw [hq]; norm_num)
  have hleast : (2 : ℚ) ^ (-1074 : ℤ) ≤ |q| := by
    rw [hq, abs_mul, abs_of_pos hpos]
    have hone : (1 : ℚ) ≤ |(n : ℚ)| := by exact_mod_cast Int.one_le_abs hn
    exact le_mul_of_one_le_left hpos.le hone
  exact lt_of_lt_of_le hpos (le_roundMag isDouble_least hleast)

theorem sub_finite (x y : Binary64) : ∃ s, sub (num (.finite x)) (num (.finite y)) = round s (x.toRat - y.toRat) := by
  have hneg : Binary64.toRat { y with neg := !y.neg } = -y.toRat := by
    unfold Binary64.toRat
    cases y.neg <;> simp
  refine ⟨x.neg && !y.neg, ?_⟩
  show round (x.neg && !y.neg) (x.toRat + Binary64.toRat { y with neg := !y.neg }) = _
  rw [hneg, sub_eq_add_neg]

theorem toRat_zero : Binary64.toRat ⟨false, 0, isDouble_zero⟩ = 0 := rfl

theorem lt_zero_finite (z : Binary64) : lt zero (num (.finite z)) = true ↔ 0 < z.toRat := by
  show decide (Binary64.toRat ⟨false, 0, isDouble_zero⟩ < z.toRat) = true ↔ _
  rw [decide_eq_true_iff, toRat_zero]

theorem truthy_finite (z : Binary64) : truthy (num (.finite z)) = true ↔ z.toRat ≠ 0 := by
  have heq : eq (num (.finite z)) zero = decide (z.toRat = 0) := rfl
  simp [truthy, heq]

/-- Rounding keeps the sign of a difference of doubles. -/
theorem sign_round (s : Bool) {q : ℚ} {n : ℤ} (hn : q = n * (2 : ℚ) ^ (-1074 : ℤ)) :
    (lt zero (round s q) = true ↔ 0 < q) ∧ (truthy (round s q) = true ↔ q ≠ 0) := by
  have hzero : zero = num (.finite ⟨false, 0, isDouble_zero⟩) := rfl
  by_cases hq : q = 0
  · subst hq
    have hmag : ofMag s |(0 : ℚ)| = some ⟨s, 0, isDouble_zero⟩ := by
      rw [abs_zero]
      exact ofMag_of_roundMag ⟨s, 0, isDouble_zero⟩ le_rfl (roundMag_of_isDouble isDouble_zero)
    have hfinite : round s 0 = num (.finite ⟨s, 0, isDouble_zero⟩) := by
      unfold round
      simp only [if_true, hmag]
    have hrat : Binary64.toRat ⟨s, 0, isDouble_zero⟩ = 0 := by
      unfold Binary64.toRat
      cases s <;> simp
    rw [hfinite, lt_zero_finite, truthy_finite, hrat]
    simp
  · have hpos := roundMag_pos hn hq
    unfold round
    simp only [if_neg hq]
    cases hmag : ofMag (decide (q < 0)) |q| with
    | none => rcases lt_or_gt_of_ne hq with h | h <;> simp [hzero, lt, truthy, eq, hq, h, h.le]
    | some z =>
      have hz : z.neg = decide (q < 0) ∧ z.mag = roundMag |q| := by
        unfold ofMag at hmag
        split_ifs at hmag
        cases hmag
        exact ⟨rfl, rfl⟩
      have hrat : z.toRat = if q < 0 then -roundMag |q| else roundMag |q| := by
        unfold Binary64.toRat
        rw [hz.1, hz.2]
        simp
      rw [lt_zero_finite, truthy_finite, hrat]
      rcases lt_or_gt_of_ne hq with h | h
      · rw [if_pos h]
        exact ⟨⟨fun hlt => absurd hlt (not_lt.2 (neg_neg_of_pos hpos).le), fun hlt => absurd hlt h.not_gt⟩,
          fun _ => hq, fun _ => (neg_neg_of_pos hpos).ne⟩
      · rw [if_neg h.not_gt]
        exact ⟨⟨fun _ => h, fun _ => hpos⟩, fun _ => hq, fun _ => hpos.ne'⟩

/-- The sign of a difference compares the numbers. -/
theorem sign_sub (x y : Binary64) : (lt zero (sub (num (.finite x)) (num (.finite y))) = true ↔ y.toRat < x.toRat) ∧
    (truthy (sub (num (.finite x)) (num (.finite y))) = true ↔ x.toRat ≠ y.toRat) := by
  obtain ⟨s, hsub⟩ := sub_finite x y
  obtain ⟨a, ha⟩ := toRat_multiple x
  obtain ⟨b, hb⟩ := toRat_multiple y
  have hn : x.toRat - y.toRat = ((a - b : ℤ) : ℚ) * (2 : ℚ) ^ (-1074 : ℤ) := by
    rw [ha, hb]
    push_cast
    ring
  rw [hsub, (sign_round s hn).1, (sign_round s hn).2, sub_pos, ne_eq, sub_eq_zero]
  exact ⟨Iff.rfl, Iff.rfl⟩

end JsFloat

import Keirin.Lib.Binary64

/-!
# Rounding and bounds

Rounding to the nearest double does not cross a double: what lies below a double is rounded to no more than it, what lies above to
no less.
-/

namespace Binary64

/-! ## The nearest integer -/

theorem roundHalfEven_le {q : ℚ} {n : ℤ} (h : q ≤ n) : roundHalfEven q ≤ n := by
  rcases eq_or_lt_of_le h with rfl | h
  · rw [roundHalfEven_intCast]
  · have hfloor : ⌊q⌋ < n := Int.floor_lt.2 h
    rcases roundHalfEven_eq q with hr | hr <;> omega

theorem le_roundHalfEven {q : ℚ} {n : ℤ} (h : n ≤ q) : n ≤ roundHalfEven q := by
  have hfloor : n ≤ ⌊q⌋ := Int.le_floor.2 h
  rcases roundHalfEven_eq q with hr | hr <;> omega

/-! ## Multiples of the last significant bit -/

/-- What lies below a multiple of its last significant bit is rounded to no more than it. -/
theorem roundMag_le_of_multiple {v : ℚ} {n : ℤ} (h : v ≤ n * (2 : ℚ) ^ quantum v) : roundMag v ≤ n * (2 : ℚ) ^ quantum v := by
  have hp : (0 : ℚ) < (2 : ℚ) ^ quantum v := by positivity
  have hround : roundHalfEven (v / (2 : ℚ) ^ quantum v) ≤ n := roundHalfEven_le ((div_le_iff₀ hp).2 h)
  exact mul_le_mul_of_nonneg_right (by exact_mod_cast hround) hp.le

theorem le_roundMag_of_multiple {v : ℚ} {n : ℤ} (h : n * (2 : ℚ) ^ quantum v ≤ v) : n * (2 : ℚ) ^ quantum v ≤ roundMag v := by
  have hp : (0 : ℚ) < (2 : ℚ) ^ quantum v := by positivity
  have hround : n ≤ roundHalfEven (v / (2 : ℚ) ^ quantum v) := le_roundHalfEven ((le_div_iff₀ hp).2 h)
  exact mul_le_mul_of_nonneg_right (by exact_mod_cast hround) hp.le

/-- A power of two is a multiple of any smaller one. -/
theorem zpow_multiple {a b : ℤ} (h : a ≤ b) : ∃ n : ℤ, (2 : ℚ) ^ b = n * (2 : ℚ) ^ a := by
  refine ⟨2 ^ (b - a).toNat, ?_⟩
  push_cast
  rw [← zpow_natCast, Int.toNat_of_nonneg (by omega), ← zpow_add₀ (by norm_num)]
  congr 1
  omega

/-- A double is a multiple of its last significant bit, and of every smaller one. -/
theorem multiple_of_isDouble {w : ℚ} (hw : IsDouble w) {a : ℤ} (ha : a ≤ quantum w) : ∃ n : ℤ, w = n * (2 : ℚ) ^ a := by
  obtain ⟨m, hm⟩ := zpow_multiple ha
  refine ⟨roundHalfEven (w / (2 : ℚ) ^ quantum w) * m, ?_⟩
  push_cast
  rw [mul_assoc, ← hm]
  exact (roundMag_of_isDouble hw).symm

/-! ## Doubles as bounds -/

theorem quantum_mono {v w : ℚ} (hv : 0 < v) (h : v ≤ w) : quantum v ≤ quantum w := by
  have hlog := Int.log_mono_right (b := 2) hv h
  simp only [quantum]
  omega

/-- Below a double. -/
theorem roundMag_le {v w : ℚ} (hv : 0 ≤ v) (hw : IsDouble w) (h : v ≤ w) : roundMag v ≤ w := by
  rcases hv.eq_or_lt with rfl | hpos
  · rwa [roundMag_of_isDouble isDouble_zero]
  · obtain ⟨n, hn⟩ := multiple_of_isDouble hw (quantum_mono hpos h)
    rw [hn] at h ⊢
    exact roundMag_le_of_multiple h

/-- Above a double. -/
theorem le_roundMag {v w : ℚ} (hw : IsDouble w) (h : w ≤ v) : w ≤ roundMag v := by
  rcases (isDouble_nonneg hw).eq_or_lt with rfl | hpos
  · have hround : 0 ≤ roundHalfEven (v / (2 : ℚ) ^ quantum v) := roundHalfEven_nonneg (by positivity)
    exact mul_nonneg (by exact_mod_cast hround) (by positivity)
  · have hvpos : 0 < v := hpos.trans_le h
    by_cases hq : quantum v ≤ quantum w
    · obtain ⟨n, hn⟩ := multiple_of_isDouble hw hq
      rw [hn] at h ⊢
      exact le_roundMag_of_multiple h
    · -- the double lies below the greatest power of two that `v` reaches, and that is a multiple of the last significant bit
      have hlog : Int.log 2 w < Int.log 2 v := by
        simp only [quantum] at hq
        omega
      have hlow : (2 : ℚ) ^ Int.log 2 v ≤ v := by exact_mod_cast Int.zpow_log_le_self (b := 2) (by norm_num) hvpos
      have hup : w < (2 : ℚ) ^ (Int.log 2 w + 1) := by exact_mod_cast Int.lt_zpow_succ_log_self (b := 2) (by norm_num) w
      have hle : w ≤ (2 : ℚ) ^ Int.log 2 v := hup.le.trans (zpow_le_zpow_right₀ (by norm_num) (by omega))
      have hquantum : quantum v ≤ Int.log 2 v := by
        simp only [quantum] at hq ⊢
        omega
      obtain ⟨n, hn⟩ := zpow_multiple hquantum
      rw [hn] at hlow hle
      exact hle.trans (le_roundMag_of_multiple hlow)

/-- A natural number below the significands is a double. -/
theorem isDouble_natCast {n : ℕ} (h : n < 2 ^ 53) : IsDouble n := ⟨n, 0, h, by norm_num, by norm_num, by simp⟩

end Binary64

import Mathlib.Tactic
import Mathlib.Data.Rat.Floor
import Mathlib.Data.Int.Log

/-!
# Double precision numbers

A finite double is a sign and a magnitude `n * 2 ^ e` with a 53-bit significand. Reading a decimal rounds it to the nearest
double, ties to even; writing a double searches for the shortest decimal that reads back as the same double.
-/

/-! ## Doubles -/

/-- The magnitudes of the finite doubles. -/
def IsDouble (v : ℚ) : Prop :=
  ∃ n : ℕ, ∃ e : ℤ, n < 2 ^ 53 ∧ -1074 ≤ e ∧ e ≤ 971 ∧ v = n * (2 : ℚ) ^ e

/-- A finite double: a sign (zero has both) and a magnitude. -/
structure Binary64 where
  neg : Bool
  mag : ℚ
  isDouble : IsDouble mag
deriving DecidableEq

namespace Binary64

/-- The nearest integer, ties to even. -/
def roundHalfEven (q : ℚ) : ℤ :=
  let f := ⌊q⌋
  if q - f < 1 / 2 then f
  else if 1 / 2 < q - f then f + 1
  else if f % 2 = 0 then f
  else f + 1

/-- The exponent of the last significant bit of a magnitude. -/
def quantum (v : ℚ) : ℤ := max (Int.log 2 v - 52) (-1074)

/-- The nearest multiple of the last significant bit; a double unless it overflows. -/
def roundMag (v : ℚ) : ℚ := roundHalfEven (v / (2 : ℚ) ^ quantum v) * (2 : ℚ) ^ quantum v

/-! ### Rounding -/

theorem roundHalfEven_intCast (n : ℤ) : roundHalfEven (n : ℚ) = n := by
  simp [roundHalfEven]

theorem roundHalfEven_eq (q : ℚ) : roundHalfEven q = ⌊q⌋ ∨ roundHalfEven q = ⌊q⌋ + 1 := by
  unfold roundHalfEven
  simp only
  split_ifs <;> simp

theorem roundHalfEven_nonneg {q : ℚ} (h : 0 ≤ q) : 0 ≤ roundHalfEven q := by
  have hf : 0 ≤ ⌊q⌋ := Int.floor_nonneg.2 h
  rcases roundHalfEven_eq q with hr | hr <;> omega

/-- A multiple of its last significant bit is not changed by rounding. -/
theorem roundMag_eq_self {v : ℚ} {n : ℤ} (h : v = n * (2 : ℚ) ^ quantum v) : roundMag v = v := by
  have hp : (2 : ℚ) ^ quantum v ≠ 0 := by positivity
  have hd : v / (2 : ℚ) ^ quantum v = n := by rw [div_eq_iff hp]; exact h
  rw [roundMag, hd, roundHalfEven_intCast]
  exact h.symm

theorem isDouble_nonneg {v : ℚ} (h : IsDouble v) : 0 ≤ v := by
  obtain ⟨n, e, -, -, -, rfl⟩ := h
  positivity

theorem isDouble_zero : IsDouble 0 := ⟨0, 0, by norm_num, by norm_num, by norm_num, by simp⟩

/-- The last significant bit of a double lies at or below the bit it is written with. -/
theorem quantum_le {n : ℕ} {e : ℤ} (hn : n < 2 ^ 53) (h0 : n ≠ 0) (he : -1074 ≤ e) :
    quantum (n * (2 : ℚ) ^ e) ≤ e := by
  have hpos : (0 : ℚ) < n * (2 : ℚ) ^ e := by positivity
  have hlt : n * (2 : ℚ) ^ e < (2 : ℚ) ^ (53 + e) := by
    rw [zpow_add₀ (by norm_num)]
    have hn' : (n : ℚ) < (2 : ℚ) ^ (53 : ℤ) := by exact_mod_cast hn
    exact mul_lt_mul_of_pos_right hn' (by positivity)
  have hlog : Int.log 2 (n * (2 : ℚ) ^ e) < 53 + e := (Int.lt_zpow_iff_log_lt (by norm_num) hpos).1 (by exact_mod_cast hlt)
  simp only [quantum]
  omega

/-- Rounding leaves a double as it is. -/
theorem roundMag_of_isDouble {v : ℚ} (h : IsDouble v) : roundMag v = v := by
  obtain ⟨n, e, hn, he, -, rfl⟩ := h
  rcases eq_or_ne n 0 with rfl | h0
  · exact roundMag_eq_self (n := 0) (by simp)
  · have hq := quantum_le hn h0 he
    refine roundMag_eq_self (n := n * 2 ^ (e - quantum (n * (2 : ℚ) ^ e)).toNat) ?_
    generalize quantum (n * (2 : ℚ) ^ e) = q at hq ⊢
    push_cast
    rw [mul_assoc, ← zpow_natCast, ← zpow_add₀ (by norm_num)]
    congr 2
    omega

/-- The significand a magnitude is rounded to has at most 53 bits, and 53 of them above the smallest exponent. -/
theorem roundHalfEven_quantum {v : ℚ} (hv : 0 < v) :
    roundHalfEven (v / (2 : ℚ) ^ quantum v) ≤ 2 ^ 53 ∧
      (quantum v ≠ -1074 → 2 ^ 52 ≤ roundHalfEven (v / (2 : ℚ) ^ quantum v)) := by
  have hp : (0 : ℚ) < (2 : ℚ) ^ quantum v := by positivity
  have hup : v < (2 : ℚ) ^ (Int.log 2 v + 1) := by exact_mod_cast Int.lt_zpow_succ_log_self (b := 2) (by norm_num) v
  have hlow : (2 : ℚ) ^ Int.log 2 v ≤ v := by exact_mod_cast Int.zpow_log_le_self (b := 2) (by norm_num) hv
  have hlt : v / (2 : ℚ) ^ quantum v < 2 ^ 53 := by
    rw [div_lt_iff₀ hp]
    calc v < (2 : ℚ) ^ (Int.log 2 v + 1) := hup
      _ ≤ (2 : ℚ) ^ (53 + quantum v) := zpow_le_zpow_right₀ (by norm_num) (by simp only [quantum]; omega)
      _ = 2 ^ 53 * (2 : ℚ) ^ quantum v := by rw [zpow_add₀ (by norm_num)]; norm_cast
  have hfl : ⌊v / (2 : ℚ) ^ quantum v⌋ < 2 ^ 53 := by
    rw [Int.floor_lt]; exact_mod_cast hlt
  refine ⟨by rcases roundHalfEven_eq (v / (2 : ℚ) ^ quantum v) with h | h <;> omega, fun hq => ?_⟩
  have hge : (2 : ℚ) ^ 52 ≤ v / (2 : ℚ) ^ quantum v := by
    rw [le_div_iff₀ hp]
    calc (2 : ℚ) ^ 52 * (2 : ℚ) ^ quantum v = (2 : ℚ) ^ (52 + quantum v) := by
          rw [zpow_add₀ (by norm_num)]; norm_cast
      _ ≤ (2 : ℚ) ^ Int.log 2 v := zpow_le_zpow_right₀ (by norm_num) (by simp only [quantum] at hq ⊢; omega)
      _ ≤ v := hlow
  have hfl' : 2 ^ 52 ≤ ⌊v / (2 : ℚ) ^ quantum v⌋ := by
    rw [Int.le_floor]; exact_mod_cast hge
  rcases roundHalfEven_eq (v / (2 : ℚ) ^ quantum v) with h | h <;> omega

/-- What rounding yields is a double, unless it overflows. -/
theorem isDouble_roundMag {v : ℚ} (hv : 0 ≤ v) (h : roundMag v < 2 ^ 1024) : IsDouble (roundMag v) := by
  rcases hv.eq_or_lt with rfl | hpos
  · rw [roundMag_of_isDouble isDouble_zero]
    exact isDouble_zero
  obtain ⟨hle, hge⟩ := roundHalfEven_quantum hpos
  have hnn : 0 ≤ roundHalfEven (v / (2 : ℚ) ^ quantum v) := roundHalfEven_nonneg (by positivity)
  have hq : -1074 ≤ quantum v := le_max_right _ _
  rw [roundMag] at h ⊢
  generalize quantum v = q at *
  obtain ⟨n, hn⟩ := Int.eq_ofNat_of_zero_le hnn
  simp only [hn, Int.cast_natCast] at h hle hge ⊢
  have hlt (k : ℕ) (hk : 2 ^ k ≤ n) : (k : ℤ) + q < 1024 := by
    have hc : (2 : ℚ) ^ ((k : ℤ) + q) < (2 : ℚ) ^ (1024 : ℤ) := by
      calc (2 : ℚ) ^ ((k : ℤ) + q) = 2 ^ k * (2 : ℚ) ^ q := by rw [zpow_add₀ (by norm_num), zpow_natCast]
        _ ≤ n * (2 : ℚ) ^ q := by
            have : ((2 : ℚ) ^ k) ≤ n := by exact_mod_cast hk
            gcongr
        _ < _ := by exact_mod_cast h
    exact (zpow_lt_zpow_iff_right₀ (by norm_num)).1 hc
  by_cases h53 : n < 2 ^ 53
  · refine ⟨n, q, h53, hq, ?_, rfl⟩
    by_cases hm : q = -1074
    · omega
    · have := hlt 52 (by exact_mod_cast hge hm)
      omega
  · have hn53 : n = 2 ^ 53 := by
      have : n ≤ 2 ^ 53 := by exact_mod_cast hle
      omega
    have := hlt 53 (by omega)
    refine ⟨2 ^ 52, q + 1, by norm_num, by omega, by omega, ?_⟩
    rw [hn53, zpow_add₀ (by norm_num)]
    push_cast
    ring

/-- An integer is rounded to an integer. -/
theorem roundMag_natCast (n : ℕ) : ∃ m : ℤ, roundMag n = m := by
  by_cases hq : 0 ≤ quantum (n : ℚ)
  · refine ⟨roundHalfEven (n / (2 : ℚ) ^ quantum (n : ℚ)) * 2 ^ (quantum (n : ℚ)).toNat, ?_⟩
    rw [roundMag]
    push_cast
    rw [← zpow_natCast, Int.toNat_of_nonneg hq]
  · refine ⟨n, ?_⟩
    have hk : quantum (n : ℚ) = -((-quantum (n : ℚ)).toNat : ℤ) := by omega
    refine (roundMag_eq_self (n := n * 2 ^ (-quantum (n : ℚ)).toNat) ?_).trans (by simp)
    generalize (-quantum (n : ℚ)).toNat = k at hk
    rw [hk]
    push_cast
    rw [mul_assoc, ← zpow_natCast, ← zpow_add₀ (by norm_num)]
    simp

/-- The nearest double of a magnitude, with a sign; `none` where it overflows to an infinity. -/
def ofMag (neg : Bool) (v : ℚ) : Option Binary64 :=
  if h : 0 ≤ v ∧ roundMag v < 2 ^ 1024 then some ⟨neg, roundMag v, isDouble_roundMag h.1 h.2⟩ else none

theorem isDouble_lt {v : ℚ} (h : IsDouble v) : v < 2 ^ 1024 := by
  obtain ⟨n, e, hn, -, he, rfl⟩ := h
  have hn' : (n : ℚ) < (2 : ℚ) ^ (53 : ℤ) := by exact_mod_cast hn
  calc (n : ℚ) * (2 : ℚ) ^ e < (2 : ℚ) ^ (53 : ℤ) * (2 : ℚ) ^ e := mul_lt_mul_of_pos_right hn' (by positivity)
    _ = (2 : ℚ) ^ (53 + e) := by rw [zpow_add₀ (by norm_num)]
    _ ≤ (2 : ℚ) ^ (1024 : ℤ) := zpow_le_zpow_right₀ (by norm_num) (by omega)
    _ = 2 ^ 1024 := zpow_ofNat 2 1024

/-- A magnitude that rounds to that of a double is read as the double. -/
theorem ofMag_of_roundMag (x : Binary64) {v : ℚ} (hv : 0 ≤ v) (h : roundMag v = x.mag) : ofMag x.neg v = some x := by
  have hlt : roundMag v < 2 ^ 1024 := h ▸ isDouble_lt x.isDouble
  simp only [ofMag, hv, hlt, true_and, dif_pos]
  cases x
  simp_all

/-! ## Decimals -/

/-- The shortest decimal with `k` digits, or more, whose rounding is `v`: at each number of digits the two neighbours of `v`
are tried, the nearer one first. The decimal is `s * 10 ^ p`. -/
def shortestFrom (v : ℚ) : (fuel k : ℕ) → ℕ × ℤ
  | 0, _ => (0, 0)
  | fuel + 1, k =>
    let p := Int.log 10 v + 1 - k
    let lo := ⌊v / (10 : ℚ) ^ p⌋.toNat
    let near := (roundHalfEven (v / (10 : ℚ) ^ p)).toNat
    let far := if near = lo then lo + 1 else lo
    if roundMag (near * (10 : ℚ) ^ p) = v then (near, p)
    else if roundMag (far * (10 : ℚ) ^ p) = v then (far, p)
    else shortestFrom v fuel (k + 1)

/-- The digits and the exponent of the shortest decimal of a magnitude. Only a single digit rounded up can end in a zero. -/
def shortest (v : ℚ) : ℕ × ℤ :=
  let r := shortestFrom v 1400 1
  if r.1 = 10 then (1, r.2 + 1) else r

/-- The search finds a decimal that rounds to the double: one of the two neighbours at some number of digits, no later than
any number of digits at which the double is itself a decimal. -/
theorem shortestFrom_spec {v : ℚ} (hv : IsDouble v) {k' : ℕ} {N : ℕ} (hex : v = N * (10 : ℚ) ^ (Int.log 10 v + 1 - k'))
    (fuel k : ℕ) (hk : k ≤ k') (hf : k' < k + fuel) :
    ∃ k₀ : ℕ, k ≤ k₀ ∧ k₀ ≤ k' ∧ (shortestFrom v fuel k).2 = Int.log 10 v + 1 - k₀ ∧
      ((shortestFrom v fuel k).1 = ⌊v / (10 : ℚ) ^ (shortestFrom v fuel k).2⌋.toNat ∨
        (shortestFrom v fuel k).1 = ⌊v / (10 : ℚ) ^ (shortestFrom v fuel k).2⌋.toNat + 1) ∧
      roundMag ((shortestFrom v fuel k).1 * (10 : ℚ) ^ (shortestFrom v fuel k).2) = v := by
  induction fuel generalizing k with
  | zero => omega
  | succ fuel ih =>
    have hnear : (roundHalfEven (v / (10 : ℚ) ^ (Int.log 10 v + 1 - k))).toNat = ⌊v / (10 : ℚ) ^ (Int.log 10 v + 1 - k)⌋.toNat ∨
        (roundHalfEven (v / (10 : ℚ) ^ (Int.log 10 v + 1 - k))).toNat = ⌊v / (10 : ℚ) ^ (Int.log 10 v + 1 - k)⌋.toNat + 1 := by
      have hnn : 0 ≤ ⌊v / (10 : ℚ) ^ (Int.log 10 v + 1 - k)⌋ := by
        have := isDouble_nonneg hv
        exact Int.floor_nonneg.2 (by positivity)
      rcases roundHalfEven_eq (v / (10 : ℚ) ^ (Int.log 10 v + 1 - k)) with h | h <;> omega
    have hlt : roundMag ((roundHalfEven (v / (10 : ℚ) ^ (Int.log 10 v + 1 - k))).toNat * (10 : ℚ) ^ (Int.log 10 v + 1 - k)) ≠ v →
        k < k' := by
      refine fun h1 => lt_of_le_of_ne hk fun he => h1 ?_
      rw [← he] at hex
      have hd : v / (10 : ℚ) ^ (Int.log 10 v + 1 - k) = (N : ℤ) := by
        rw [div_eq_iff (by positivity)]; exact_mod_cast hex
      rw [hd, roundHalfEven_intCast, Int.toNat_natCast, ← hex, roundMag_of_isDouble hv]
    have hrest : k < k' → _ := fun h => ih (k + 1) h (by omega)
    rw [shortestFrom]
    split_ifs with h1 h2 h3 h4
    · exact ⟨k, le_rfl, hk, rfl, hnear, h1⟩
    · exact ⟨k, le_rfl, hk, rfl, .inr rfl, h3⟩
    · obtain ⟨k₀, hk₀, h⟩ := hrest (hlt h1)
      exact ⟨k₀, by omega, h⟩
    · exact ⟨k, le_rfl, hk, rfl, .inl rfl, h4⟩
    · obtain ⟨k₀, hk₀, h⟩ := hrest (hlt h1)
      exact ⟨k₀, by omega, h⟩

/-- The decimal logarithm of a positive double is small. -/
theorem log_bounds {v : ℚ} (hv : IsDouble v) (hpos : 0 < v) : -1074 ≤ Int.log 10 v ∧ Int.log 10 v < 309 := by
  constructor
  · refine (Int.zpow_le_iff_le_log (by norm_num) hpos).1 ?_
    obtain ⟨n, e, -, he, -, rfl⟩ := hv
    have hn : (1 : ℚ) ≤ n := by
      have : n ≠ 0 := by rintro rfl; simp at hpos
      exact_mod_cast Nat.one_le_iff_ne_zero.2 this
    calc ((10 : ℕ) : ℚ) ^ (-1074 : ℤ) = ((10 : ℚ) ^ (1074 : ℕ))⁻¹ := by rw [zpow_neg]; norm_cast
      _ ≤ ((2 : ℚ) ^ (1074 : ℕ))⁻¹ := by gcongr; norm_num
      _ = (2 : ℚ) ^ (-1074 : ℤ) := by rw [zpow_neg]; norm_cast
      _ ≤ (2 : ℚ) ^ e := zpow_le_zpow_right₀ (by norm_num) he
      _ ≤ n * (2 : ℚ) ^ e := le_mul_of_one_le_left (by positivity) hn
  · refine (Int.lt_zpow_iff_log_lt (by norm_num) hpos).1 ((isDouble_lt hv).trans_le ?_)
    have : (2 : ℕ) ^ 1024 ≤ 10 ^ 309 := by decide +kernel
    exact_mod_cast this

/-- Every double is a decimal with enough digits. -/
theorem exists_decimal {v : ℚ} (hv : IsDouble v) (hpos : 0 < v) :
    ∃ k N : ℕ, 1 ≤ k ∧ k < 1401 ∧ v = N * (10 : ℚ) ^ (Int.log 10 v + 1 - k) := by
  obtain ⟨hlo, hhi⟩ := log_bounds hv hpos
  refine ⟨(Int.log 10 v + 1075).toNat, ?_⟩
  have hk : Int.log 10 v + 1 - ((Int.log 10 v + 1075).toNat : ℤ) = -1074 := by omega
  rw [hk]
  obtain ⟨n, e, -, he, -, hve⟩ := hv
  refine ⟨n * 2 ^ (e + 1074).toNat * 5 ^ 1074, by omega, by omega, ?_⟩
  have h2 : (2 : ℚ) ^ (e + 1074).toNat = (2 : ℚ) ^ e * 2 ^ 1074 := by
    rw [← zpow_natCast, Int.toNat_of_nonneg (by omega), zpow_add₀ (by norm_num), zpow_ofNat (2 : ℚ) 1074]
  have h10 : (2 : ℚ) ^ 1074 * 5 ^ 1074 * (10 : ℚ) ^ (-1074 : ℤ) = 1 := by
    rw [← mul_pow, zpow_neg, zpow_ofNat, show (2 : ℚ) * 5 = 10 by norm_num]
    exact mul_inv_cancel₀ (pow_ne_zero _ (by norm_num))
  calc v = n * (2 : ℚ) ^ e * ((2 : ℚ) ^ 1074 * 5 ^ 1074 * (10 : ℚ) ^ (-1074 : ℤ)) := by rw [h10, mul_one, hve]
    _ = _ := by
      rw [Nat.cast_mul, Nat.cast_mul, Nat.cast_pow, Nat.cast_pow, Nat.cast_ofNat, Nat.cast_ofNat, h2]
      generalize (2 : ℚ) ^ 1074 = a
      generalize (5 : ℚ) ^ 1074 = b
      ring

/-- What the search for the shortest decimal finds: digits `s`, an exponent `p` and their number `k` of digits, no larger than
any at which the double is itself a decimal. -/
theorem shortest_search {v : ℚ} (hv : IsDouble v) (hpos : 0 < v) :
    ∃ k : ℕ, 1 ≤ k ∧ (shortestFrom v 1400 1).2 = Int.log 10 v + 1 - k ∧
      (∀ k' N : ℕ, 1 ≤ k' → k' < 1401 → v = N * (10 : ℚ) ^ (Int.log 10 v + 1 - k') → k ≤ k') ∧
      ((shortestFrom v 1400 1).1 = ⌊v / (10 : ℚ) ^ (shortestFrom v 1400 1).2⌋.toNat ∨
        (shortestFrom v 1400 1).1 = ⌊v / (10 : ℚ) ^ (shortestFrom v 1400 1).2⌋.toNat + 1) ∧
      roundMag ((shortestFrom v 1400 1).1 * (10 : ℚ) ^ (shortestFrom v 1400 1).2) = v := by
  obtain ⟨k', N, h1, h2, hex⟩ := exists_decimal hv hpos
  obtain ⟨k, hk, -, hp, hs, hr⟩ := shortestFrom_spec hv hex 1400 1 h1 (by omega)
  refine ⟨k, hk, hp, fun k'' N' h1' h2' hex' => ?_, hs, hr⟩
  obtain ⟨k₂, -, hle, hp₂, -⟩ := shortestFrom_spec hv hex' 1400 1 h1' (by omega)
  omega

/-- The value of the shortest decimal is the value of the decimal found. -/
theorem shortest_value (v : ℚ) :
    ((shortest v).1 : ℚ) * (10 : ℚ) ^ (shortest v).2 =
      (shortestFrom v 1400 1).1 * (10 : ℚ) ^ (shortestFrom v 1400 1).2 := by
  simp only [shortest]
  split_ifs with h
  · rw [h, zpow_add₀ (by norm_num)]
    push_cast
    ring
  · rfl

/-- The shortest decimal reads back as the double. -/
theorem roundMag_shortest {v : ℚ} (hv : IsDouble v) (hpos : 0 < v) :
    roundMag ((shortest v).1 * (10 : ℚ) ^ (shortest v).2) = v := by
  obtain ⟨-, -, -, -, -, hr⟩ := shortest_search hv hpos
  rw [shortest_value, hr]

theorem shortest_digits_pos {v : ℚ} (hv : IsDouble v) (hpos : 0 < v) : 0 < (shortest v).1 := by
  by_contra h
  have h0 : (shortest v).1 = 0 := by omega
  have := roundMag_shortest hv hpos
  rw [h0, Nat.cast_zero, zero_mul, roundMag_of_isDouble isDouble_zero] at this
  exact hpos.ne this

/-- The shortest decimal of a double has no fraction exactly when the double is an integer. -/
theorem shortest_exp_nonneg_iff {v : ℚ} (hv : IsDouble v) (hpos : 0 < v) : 0 ≤ (shortest v).2 ↔ ∃ n : ℤ, v = n := by
  constructor
  · intro hp
    obtain ⟨m, hm⟩ := roundMag_natCast ((shortest v).1 * 10 ^ (shortest v).2.toNat)
    refine ⟨m, ?_⟩
    push_cast at hm
    rw [← zpow_natCast, Int.toNat_of_nonneg hp, roundMag_shortest hv hpos] at hm
    exact hm
  · rintro ⟨n, hn⟩
    obtain ⟨k, -, hp, hmin, -⟩ := shortest_search hv hpos
    obtain ⟨-, hhi⟩ := log_bounds hv hpos
    have hn1 : 1 ≤ n := by
      rw [hn] at hpos
      exact_mod_cast hpos
    have hlog : 0 ≤ Int.log 10 v := by
      refine (Int.zpow_le_iff_le_log (by norm_num) hpos).1 ?_
      rw [hn, zpow_zero]
      exact_mod_cast hn1
    have hk : k ≤ (Int.log 10 v + 1).toNat := by
      refine hmin _ n.toNat (by omega) (by omega) ?_
      rw [Int.toNat_of_nonneg (by omega), sub_self, zpow_zero, mul_one, hn]
      exact_mod_cast (Int.toNat_of_nonneg (by omega : 0 ≤ n)).symm
    simp only [shortest]
    split_ifs <;> omega

/-- The number of digits before the decimal point of the shortest decimal, at or below 0 where zeros follow the point. -/
def point (v : ℚ) : ℤ := (Nat.toDigits 10 (shortest v).1).length + (shortest v).2

/-- The point does not depend on whether a rounded-up digit is written as `10` or as `1`. -/
theorem point_eq (v : ℚ) : point v = (Nat.toDigits 10 (shortestFrom v 1400 1).1).length + (shortestFrom v 1400 1).2 := by
  simp only [point, shortest]
  split_ifs with h
  · rw [h]
    have h1 : (Nat.toDigits 10 1).length = 1 := by decide
    have h10 : (Nat.toDigits 10 10).length = 2 := by decide
    rw [h1, h10]
    push_cast
    ring
  · rfl

/-- A double from `10 ^ 21` up has more than 21 digits before the point. -/
theorem lt_point {v : ℚ} (hv : IsDouble v) (hpos : 0 < v) {j : ℕ} (h : 10 ^ j ≤ v) : (j : ℤ) < point v := by
  obtain ⟨k, hk, hp, -, hs, -⟩ := shortest_search hv hpos
  rw [point_eq]
  generalize shortestFrom v 1400 1 = r at *
  have hj : (j : ℤ) ≤ Int.log 10 v := by
    refine (Int.zpow_le_iff_le_log (by norm_num) hpos).1 ?_
    rw [zpow_natCast]
    exact_mod_cast h
  have hfloor : (10 : ℤ) ^ (k - 1) ≤ ⌊v / (10 : ℚ) ^ r.2⌋ := by
    rw [Int.le_floor, le_div_iff₀ (by positivity)]
    push_cast
    rw [← zpow_natCast, ← zpow_add₀ (by norm_num)]
    have hle := Int.zpow_log_le_self (b := 10) (by norm_num) hpos
    calc (10 : ℚ) ^ (((k - 1 : ℕ) : ℤ) + r.2) = (10 : ℚ) ^ Int.log 10 v := by congr 1; omega
      _ ≤ v := by exact_mod_cast hle
  have hge : 10 ^ (k - 1) ≤ r.1 := by
    have : 10 ^ (k - 1) ≤ ⌊v / (10 : ℚ) ^ r.2⌋.toNat := by
      rw [Int.le_toNat (by positivity)]
      exact_mod_cast hfloor
    rcases hs with hs | hs <;> omega
  have hlen : k - 1 < (Nat.toDigits 10 r.1).length := by
    by_contra hc
    have hpos' := Nat.length_toDigits_pos (b := 10) (n := r.1)
    have := (Nat.length_toDigits_le_iff (b := 10) (n := r.1) (k := k - 1) (by norm_num) (by omega)).1 (by omega)
    omega
  omega

/-- An integer double below `10 ^ 21` has at most 21 digits before the point. -/
theorem point_le {v : ℚ} (hv : IsDouble v) (hpos : 0 < v) {n : ℤ} (hn : v = n) (h : v < 10 ^ 21) : point v ≤ 21 := by
  have hexp : 0 ≤ (shortest v).2 := (shortest_exp_nonneg_iff hv hpos).2 ⟨n, hn⟩
  obtain ⟨k, hk, hp, -, hs, hr⟩ := shortest_search hv hpos
  simp only [shortest] at hexp
  rw [point_eq]
  generalize shortestFrom v 1400 1 = r at *
  have hlog : Int.log 10 v < 21 := (Int.lt_zpow_iff_log_lt (by norm_num) hpos).1 (by exact_mod_cast h)
  rcases lt_or_ge r.2 0 with hneg | hnn
  · -- only a nine rounded up to `10` has a negative exponent here
    split_ifs at hexp with h10
    · have hl : (Nat.toDigits 10 10).length = 2 := by decide
      rw [h10, hl]
      omega
    · omega
  · obtain ⟨p, hpn⟩ := Int.eq_ofNat_of_zero_le hnn
    rw [hpn] at hr hs hp ⊢
    simp only [zpow_natCast] at hr hs hp ⊢
    have hp20 : p ≤ 20 := by omega
    have hfl : ⌊v / (10 : ℚ) ^ p⌋ < 10 ^ (21 - p) := by
      rw [Int.floor_lt, div_lt_iff₀ (by positivity)]
      push_cast
      rwa [← pow_add, show 21 - p + p = 21 by omega]
    have hle : r.1 ≤ 10 ^ (21 - p) := by
      have : ⌊v / (10 : ℚ) ^ p⌋.toNat < 10 ^ (21 - p) := by
        rw [Int.toNat_lt' (by positivity)]
        exact_mod_cast hfl
      rcases hs with hs | hs <;> omega
    have hne : r.1 ≠ 10 ^ (21 - p) := by
      intro he
      have hd : IsDouble ((10 : ℚ) ^ 21) := ⟨5 ^ 21, 21, by norm_num, by norm_num, by norm_num, by norm_num⟩
      rw [he] at hr
      push_cast at hr
      rw [← pow_add, show 21 - p + p = 21 by omega, roundMag_of_isDouble hd] at hr
      exact h.ne hr.symm
    have hlen := (Nat.length_toDigits_le_iff (b := 10) (n := r.1) (k := 21 - p) (by norm_num) (by omega)).2 (by omega)
    omega

end Binary64

import Keirin.Lib.JsonRoundTrip

/-!
# Escapes of ASCII

A character beyond ASCII can be written by the four hexadecimal digits of its number, or by those of a pair of surrogates: it is read back
from them.
-/

namespace Json

/-- A number below `2 ^ 16` in four hexadecimal digits. -/
def hexEscape (n : ℕ) : List Char :=
  ['\\', 'u', hexDigit (n / 4096), hexDigit (n / 256 % 16), hexDigit (n / 16 % 16), hexDigit (n % 16)]

theorem hex4_hexDigits {n : ℕ} (h : n < 0x10000) :
    hex4 (hexDigit (n / 4096)) (hexDigit (n / 256 % 16)) (hexDigit (n / 16 % 16)) (hexDigit (n % 16)) = some n := by
  simp only [hex4, hexValue_hexDigit _ (show n / 4096 < 16 by omega), hexValue_hexDigit _ (show n / 256 % 16 < 16 by omega),
    hexValue_hexDigit _ (show n / 16 % 16 < 16 by omega), hexValue_hexDigit _ (show n % 16 < 16 by omega), bind, Option.bind, pure]
  congr 1
  omega

/-- No character is half of a pair. -/
theorem not_surrogate (c : Char) : ¬(0xd800 ≤ c.toNat ∧ c.toNat ≤ 0xdfff) := by
  rintro ⟨hlow, hhigh⟩
  rcases c.valid with h | ⟨h, -⟩
  · exact absurd (lt_of_le_of_lt hlow h) (lt_irrefl _)
  · exact absurd (lt_of_lt_of_le h hhigh) (lt_irrefl _)

theorem readString_hexEscape {c : Char} (h : c.toNat < 0x10000) (s : List Char) :
    readString (hexEscape c.toNat ++ s) = (readString s).map fun x => (c :: x.1, x.2) := by
  have hhex := hex4_hexDigits h
  have hnot := not_surrogate c
  unfold hexEscape
  simp only [List.cons_append, List.nil_append]
  rw [readString.eq_def]
  simp only [Char.reduceEq, if_false, if_true, hhex]
  rw [if_neg (by omega), if_neg (by omega), Char.ofNat_toNat]

theorem readString_surrogates {a b : ℕ} (ha : 0xd800 ≤ a ∧ a ≤ 0xdbff) (hb : 0xdc00 ≤ b ∧ b ≤ 0xdfff) (s : List Char) :
    readString (hexEscape a ++ (hexEscape b ++ s)) =
      (readString s).map fun x => (Char.ofNat (0x10000 + (a - 0xd800) * 1024 + (b - 0xdc00)) :: x.1, x.2) := by
  have hfirst := hex4_hexDigits (n := a) (by omega)
  have hsecond := hex4_hexDigits (n := b) (by omega)
  unfold hexEscape
  simp only [List.cons_append, List.nil_append]
  rw [readString.eq_def]
  simp only [Char.reduceEq, if_false, if_true, hfirst, hsecond]
  rw [if_pos ha, if_pos hb]

/-- A character beyond the first plane is read back from a pair of surrogates. -/
theorem readString_pair {c : Char} (h : 0x10000 ≤ c.toNat) (s : List Char) :
    readString (hexEscape (0xd800 + (c.toNat - 0x10000) / 0x400) ++ (hexEscape (0xdc00 + (c.toNat - 0x10000) % 0x400) ++ s)) =
      (readString s).map fun x => (c :: x.1, x.2) := by
  have hmax : c.toNat < 0x110000 := by
    have hvalid := c.valid
    simp only [UInt32.isValidChar, Nat.isValidChar] at hvalid
    have hval : c.val.toNat = c.toNat := rfl
    omega
  rw [readString_surrogates (by omega) (by omega)]
  have hnumber : 0x10000 + (0xd800 + (c.toNat - 0x10000) / 0x400 - 0xd800) * 1024 +
      (0xdc00 + (c.toNat - 0x10000) % 0x400 - 0xdc00) = c.toNat := by omega
  rw [hnumber, Char.ofNat_toNat]

end Json

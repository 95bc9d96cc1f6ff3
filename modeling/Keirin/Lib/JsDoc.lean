import Keirin.Lib.DoubleText
import Keirin.Lib.JsonRebuild
import Keirin.Lib.Jsonb

/-!
# Documents in JavaScript

The text of a document is given by the document it writes out, its numbers as literals. JavaScript reads every number of a text
as a double (`JSON.parse`), keeps the fields of an object in an order of its own, and writes a double with its shortest digits
(`JSON.stringify`). What it has written it writes again as it is (`stringify_again`), also when a database kept the text in
between. An integer below `2 ^ 53` in magnitude comes through unchanged, and nothing else comes out as one (`safe_ofInt`).
-/

/-- A document with its numbers as a text writes them. -/
abbrev JsonLits := Json NumLit

/-- A number of JavaScript that a text gives; a literal beyond the doubles is an infinity. -/
inductive JsNumber
  | finite (x : Binary64)
  | infinite (neg : Bool)
deriving DecidableEq

/-- A value of JavaScript that a text gives. -/
abbrev JsDoc := Json JsNumber

namespace JsNumber

/-- The number a literal is read as. -/
def ofLit (l : NumLit) : JsNumber :=
  match Binary64.read l with
  | some x => finite x
  | none => infinite l.neg

/-- The number of an integer. -/
def ofInt (n : ℤ) : JsNumber := ofLit (NumLit.ofInt n)

/-- What `JSON.stringify` writes for a number: an infinity becomes `null`. -/
def stringify : JsNumber → JsonLits
  | finite x => .num x.jsText
  | infinite _ => .null

/-- `Number.isSafeInteger(v)`, with the integer. -/
def safeInteger? : JsNumber → Option ℤ
  | finite x => if x.mag.den = 1 ∧ x.mag < 2 ^ 53 then some (if x.neg then -x.mag.num else x.mag.num) else none
  | infinite _ => none

end JsNumber

namespace JsDoc

/-- Whether a key is the index of an array: a decimal numeral below `2 ^ 32 - 1`. -/
def isIndex (key : String) : Bool :=
  match key.toList with
  | [] => false
  | '0' :: cs => cs.isEmpty
  | cs => cs.all Char.isDigit && decide (NumLit.digits cs < 2 ^ 32 - 1)

variable {α : Type}

/-- The fields of an object in the order of its keys: the indexes first, from the least, then the others as they were set. -/
def ordered (fs : Dict α) : Dict α :=
  (fs.filter (fun f => isIndex f.1)).insertionSort (fun a b => NumLit.digits a.1.toList ≤ NumLit.digits b.1.toList) ++
    fs.filter (fun f => !isIndex f.1)

/-- An object from the fields of a text; of two fields with one key the second counts. -/
def object (fs : Dict α) : Dict α := ordered (Dict.update [] fs)

/-- `JSON.parse(text)` -/
def parse (text : JsonLits) : JsDoc := text.rebuild (fun l => .num (.ofLit l)) object

/-- `JSON.stringify(v)` -/
def stringify (v : JsDoc) : JsonLits := v.bindNum JsNumber.stringify

theorem perm_ordered (fs : Dict α) : (ordered fs).Perm fs := by
  unfold ordered
  refine ((List.perm_insertionSort _ _).append_right _).trans ?_
  have hnot : (fun f : String × α => !isIndex f.1) = fun f => !(fun f : String × α => isIndex f.1) f := rfl
  rw [hnot]
  exact List.filter_append_perm _ fs

theorem perm_object {fs : Dict α} (h : (fs.map Prod.fst).Nodup) : (object fs).Perm fs := by
  unfold object
  rw [Json.update_nil h]
  exact perm_ordered fs

/-- Fields whose keys stand once and are no indexes keep their order. -/
theorem object_of_names {fs : Dict α} (h : (fs.map Prod.fst).Nodup) (hnames : (fs.map Prod.fst).all (fun k => !isIndex k) = true) :
    object fs = fs := by
  have hname : ∀ f ∈ fs, isIndex f.1 = false := by
    intro f hf
    simpa using List.all_eq_true.1 hnames f.1 (List.mem_map_of_mem hf)
  unfold object ordered
  rw [Json.update_nil h]
  have hindex : fs.filter (fun f => isIndex f.1) = [] := by
    refine List.filter_eq_nil_iff.2 fun f hf => ?_
    rw [hname f hf]
    exact Bool.false_ne_true
  have hother : fs.filter (fun f => !isIndex f.1) = fs := by
    refine List.filter_eq_self.2 fun f hf => ?_
    rw [hname f hf]
    rfl
  rw [hindex, hother]
  rfl

/-- An object whose keys are names and stand once is read field by field. -/
theorem parse_obj {fs : Dict JsonLits} (h : (fs.map Prod.fst).Nodup) (hnames : (fs.map Prod.fst).all (fun k => !isIndex k) = true) :
    parse (.obj fs) = .obj (fs.map fun f => (f.1, parse f.2)) := by
  have hkeys : (Json.rebuildFields (fun l => Json.num (JsNumber.ofLit l)) object fs).map Prod.fst = fs.map Prod.fst := by
    rw [Json.rebuildFields_eq, List.map_map]
    rfl
  unfold parse
  rw [Json.rebuild, object_of_names (hkeys ▸ h) (hkeys ▸ hnames), Json.rebuildFields_eq]

theorem parse_arr (xs : List JsonLits) : parse (.arr xs) = .arr (xs.map parse) := by
  unfold parse
  rw [Json.rebuild, Json.rebuildList_eq]

/-- The keys of an object stand once. -/
theorem nodup_object (fs : Dict α) : ((object fs).map Prod.fst).Nodup :=
  ((perm_ordered _).map Prod.fst).nodup_iff.2 (Dict.nodup_update List.nodup_nil)

/-- The values of an object are those of the fields of the text. -/
theorem mem_object {fs : Dict α} {e : String × α} (h : e ∈ object fs) : ∃ f ∈ fs, e.2 = f.2 := by
  rcases Dict.mem_update ((perm_ordered _).mem_iff.1 h) with h | h
  · nomatch h
  · exact h

/-- What `JSON.parse` gives has every key of an object once. -/
theorem keysOnce_parse (text : JsonLits) : (parse text).keysOnce = true := by
  unfold parse
  induction text using Json.induct with
  | null => rfl
  | bool b => rfl
  | num n => rfl
  | str s => rfl
  | arr xs ih =>
    rw [Json.rebuild, Json.rebuildList_eq, Json.keysOnce, Json.keysOnceList_eq, List.all_eq_true]
    intro v hv
    obtain ⟨x, hx, rfl⟩ := List.mem_map.1 hv
    exact ih x hx
  | obj fs ih =>
    rw [Json.rebuild, Json.rebuildFields_eq, Json.keysOnce, Bool.and_eq_true, decide_eq_true_eq, Json.keysOnceFields_eq,
      List.all_eq_true]
    refine ⟨nodup_object _, fun e he => ?_⟩
    obtain ⟨f, hf, heq⟩ := mem_object he
    obtain ⟨g, hg, rfl⟩ := List.mem_map.1 hf
    rw [heq]
    exact ih g hg

/-- The document of a key has every key once where the whole does. -/
theorem keysOnce_of_get? {key : String} {fs : Dict JsDoc} {v : JsDoc} (h : Json.keysOnce (.obj fs) = true)
    (hv : Dict.get? key fs = some v) : v.keysOnce = true := by
  rw [Json.keysOnce, Bool.and_eq_true, Json.keysOnceFields_eq, List.all_eq_true] at h
  exact h.2 _ (Dict.mem_of_get? hv)

end JsDoc

namespace Jsonb

/-- The stored document of a text. -/
def ofText (text : JsonLits) : Jsonb := ofJson (text.bindNum fun l => .num (Numeric.ofLit l))

/-- The text of a stored document. -/
def toText (v : Jsonb) : JsonLits := v.bindNum fun x => .num x.lit

theorem perm_fields {α : Type} {fs : Dict α} (h : (fs.map Prod.fst).Nodup) : (fs.foldl put []).Perm fs := by
  have hput : (fs.foldl put []).Perm (fs ++ []) := perm_foldl_put (by rwa [List.append_nil])
  rwa [List.append_nil] at hput

/-- Storing a document rebuilds it with the fields of its objects in the order of the database. -/
theorem ofJson_eq_rebuild (v : Json Numeric) : ofJson v = v.rebuild .num (fun fs => fs.foldl put []) := by
  induction v using Json.induct with
  | null => rfl
  | bool b => rfl
  | num n => rfl
  | str s => rfl
  | arr xs ih =>
    rw [ofJson, Json.rebuild, ofList_eq, Json.rebuildList_eq]
    exact congrArg Json.arr (List.map_congr_left ih)
  | obj fs ih =>
    rw [ofJson, Json.rebuild, ofFields_eq, Json.rebuildFields_eq]
    exact congrArg (fun gs : Dict Jsonb => Json.obj (gs.foldl put [])) (List.map_congr_left fun f hf => Prod.ext rfl (ih f hf))

/-- A stored document is the one of the text but for the order of fields. -/
theorem same_ofText {text : JsonLits} (h : text.keysOnce = true) :
    Json.Same (ofText text) (text.bindNum fun l => .num (Numeric.ofLit l)) := by
  have hk : (text.bindNum fun l => Json.num (Numeric.ofLit l)).keysOnce = true := by
    rw [Json.keysOnce_bindNum fun _ => rfl, h]
  have hsame : Json.Same (Json.rebuild Json.num (fun fs : Dict Jsonb => fs.foldl put []) (text.bindNum fun l => .num (Numeric.ofLit l)))
      ((text.bindNum fun l => .num (Numeric.ofLit l)).bindNum Json.num) := Json.same_rebuild (fun _ => perm_fields) hk
  rwa [Json.bindNum_num, ← ofJson_eq_rebuild] at hsame

end Jsonb

/-! ## Numbers that are read again -/

namespace JsNumber

open Binary64

theorem value_eq_zero {l : NumLit} : l.value = 0 ↔ l.mag = 0 := by
  unfold NumLit.value
  split <;> simp

/-- The magnitude of a literal is that of its value. -/
theorem mag_eq_abs (l : NumLit) : l.mag = |l.value| := by
  unfold NumLit.value
  split
  · rw [abs_neg, abs_of_nonneg l.mag_nonneg]
  · rw [abs_of_nonneg l.mag_nonneg]

/-- Two literals with one value, and one sign where that is zero, are read as one number. -/
theorem ofLit_congr {l m : NumLit} (h : l.value = m.value) (h0 : l.value = 0 → l.neg = m.neg) : ofLit l = ofLit m := by
  have hmag : l.mag = m.mag := by rw [mag_eq_abs, mag_eq_abs, h]
  have hneg : l.neg = m.neg := by
    by_cases hz : l.value = 0
    · exact h0 hz
    · have hpos : 0 < l.mag := lt_of_le_of_ne l.mag_nonneg fun hm => hz (value_eq_zero.2 hm.symm)
      have hval := h
      unfold NumLit.value at hval
      cases hl : l.neg <;> cases hm : m.neg <;> simp only [hl, hm, if_true, if_false, Bool.false_eq_true] at hval
      · rfl
      · linarith
      · linarith
      · rfl
  unfold ofLit Binary64.read
  rw [hmag, hneg]

/-- A literal is read from a database as it was written. -/
theorem ofLit_stored {l : NumLit} (h : l.value = 0 → l.neg = false) : ofLit (Numeric.ofLit l).lit = ofLit l := by
  have hval : (Numeric.ofLit l).lit.value = l.value := by rw [Numeric.value_lit, Numeric.value_ofLit]
  refine ofLit_congr hval fun hz => ?_
  rw [h (hval.symm.trans hz)]
  have hc : (Numeric.ofLit l).coeff = 0 := by
    rw [Numeric.value_lit, Numeric.value] at hz
    rcases mul_eq_zero.1 hz with hz | hz
    · exact_mod_cast hz
    · exact absurd hz (by positivity)
  simp [Numeric.lit, hc]

/-- JavaScript writes no zero with a sign. -/
theorem neg_jsText_of_zero {x : Binary64} (h : x.jsText.value = 0) : x.jsText.neg = false := by
  by_cases hx : x.mag = 0
  · rw [jsText_of_zero hx]
    rfl
  · have hread := read_jsText hx
    rw [value_eq_zero] at h
    unfold Binary64.read at hread
    rw [h] at hread
    have hzero : roundMag 0 = x.mag := by
      unfold ofMag at hread
      split at hread
      · exact congrArg Binary64.mag (Option.some.inj hread)
      · cases hread
    rw [roundMag_of_isDouble isDouble_zero] at hzero
    exact absurd hzero.symm hx

/-- What JavaScript has written it reads as a number it writes alike. -/
theorem jsText_again (x : Binary64) : (ofLit x.jsText).stringify = .num x.jsText := by
  by_cases hx : x.mag = 0
  · have hzero : ∃ y : Binary64, ofLit (NumLit.ofInt 0) = finite y ∧ y.mag = 0 := by
      have hmag : (NumLit.ofInt 0).mag = 0 := by
        rw [← value_eq_zero, NumLit.value_of_isInt rfl, NumLit.toInt_ofInt]
        rfl
      have := ofMag_of_roundMag (x := ⟨false, 0, isDouble_zero⟩) le_rfl (roundMag_of_isDouble isDouble_zero)
      refine ⟨⟨false, 0, isDouble_zero⟩, ?_, rfl⟩
      unfold ofLit Binary64.read
      rw [hmag, show (NumLit.ofInt 0).neg = false from rfl, this]
    obtain ⟨y, hy, hy0⟩ := hzero
    rw [jsText_of_zero hx, hy, stringify, jsText_of_zero hy0]
  · rw [ofLit, read_jsText hx, stringify]

/-- A number that was written, kept by the database and read is written again as it was. -/
theorem stringify_stored (n : JsNumber) :
    ((n.stringify.bindNum fun l => Json.num (Numeric.ofLit l)).bindNum fun x => (ofLit x.lit).stringify) = n.stringify := by
  cases n with
  | infinite neg => rfl
  | finite x =>
    rw [stringify, Json.bindNum, Json.bindNum, ofLit_stored neg_jsText_of_zero]
    exact jsText_again x

/-! ## Integers -/

/-- A natural number of `2 ^ 53` or more is rounded to one. -/
theorem le_roundMag {n : ℕ} (h : 2 ^ 53 ≤ n) : (2 : ℚ) ^ 53 ≤ roundMag n := by
  have hn : (n : ℚ) ≠ 0 := by
    have : 0 < n := lt_of_lt_of_le (by norm_num) h
    exact_mod_cast this.ne'
  have hpos : (0 : ℚ) < n := lt_of_le_of_ne (Nat.cast_nonneg n) hn.symm
  have hlog : (53 : ℤ) ≤ Int.log 2 (n : ℚ) := by
    rw [← Int.zpow_le_iff_le_log (by norm_num) hpos]
    exact_mod_cast h
  have hq : quantum n = Int.log 2 (n : ℚ) - 52 := max_eq_left (by omega)
  have hfloor : (2 : ℤ) ^ 52 ≤ ⌊(n : ℚ) / (2 : ℚ) ^ quantum n⌋ := by
    have hsplit : (2 : ℚ) ^ (52 : ℤ) * (2 : ℚ) ^ (Int.log 2 (n : ℚ) - 52) = (2 : ℚ) ^ Int.log 2 (n : ℚ) := by
      rw [← zpow_add₀ (by norm_num)]
      congr 1
      ring
    have hle : (2 : ℚ) ^ Int.log 2 (n : ℚ) ≤ n := by exact_mod_cast Int.zpow_log_le_self (b := 2) (by norm_num) hpos
    rw [Int.le_floor, le_div_iff₀ (by positivity), hq]
    calc (((2 : ℤ) ^ 52 : ℤ) : ℚ) * (2 : ℚ) ^ (Int.log 2 (n : ℚ) - 52)
        = (2 : ℚ) ^ (52 : ℤ) * (2 : ℚ) ^ (Int.log 2 (n : ℚ) - 52) := by norm_num
      _ ≤ n := hsplit.trans_le hle
  have hround : (2 : ℤ) ^ 52 ≤ roundHalfEven ((n : ℚ) / (2 : ℚ) ^ quantum n) := by
    rcases roundHalfEven_eq ((n : ℚ) / (2 : ℚ) ^ quantum n) with he | he <;> omega
  have htwo : (2 : ℚ) ≤ (2 : ℚ) ^ quantum n := by
    have := zpow_le_zpow_right₀ (a := (2 : ℚ)) (by norm_num) (show (1 : ℤ) ≤ quantum n by omega)
    simpa using this
  unfold roundMag
  calc (2 : ℚ) ^ 53 = ((2 : ℤ) ^ 52 : ℤ) * 2 := by norm_num
    _ ≤ (roundHalfEven ((n : ℚ) / (2 : ℚ) ^ quantum n) : ℚ) * (2 : ℚ) ^ quantum n := by
        refine mul_le_mul (by exact_mod_cast hround) htwo (by norm_num) ?_
        exact_mod_cast le_trans (by norm_num) hround

/-- A natural number below `2 ^ 53` is a double. -/
theorem roundMag_of_lt {n : ℕ} (h : n < 2 ^ 53) : roundMag n = n :=
  roundMag_of_isDouble ⟨n, 0, h, by norm_num, by norm_num, by simp⟩

theorem mag_ofInt (n : ℤ) : (NumLit.ofInt n).mag = n.natAbs := by
  rw [mag_eq_abs, NumLit.value_of_isInt rfl, NumLit.toInt_ofInt, Nat.cast_natAbs]
  exact_mod_cast rfl

/-- The double of an integer has its sign and its rounded magnitude. -/
theorem ofInt_finite {n : ℤ} {x : Binary64} (h : ofInt n = finite x) : x.neg = decide (n < 0) ∧ x.mag = roundMag n.natAbs := by
  unfold ofInt ofLit Binary64.read ofMag at h
  rw [mag_ofInt] at h
  split at h
  · rename_i y hy
    split at hy
    · cases hy
      cases h
      exact ⟨rfl, rfl⟩
    · cases hy
  · cases h

/-- An integer below `2 ^ 53` in magnitude is a safe integer. -/
theorem safeInteger_ofInt {n : ℤ} (h : n.natAbs < 2 ^ 53) : (ofInt n).safeInteger? = some n := by
  have hround := roundMag_of_lt h
  have hlt : (n.natAbs : ℚ) < 2 ^ 53 := by exact_mod_cast h
  have hfin : ∃ x, ofInt n = finite x := by
    unfold ofInt ofLit Binary64.read ofMag
    rw [mag_ofInt, dif_pos ⟨Nat.cast_nonneg _, by rw [hround]; exact hlt.trans (pow_lt_pow_right₀ (by norm_num) (by norm_num))⟩]
    exact ⟨_, rfl⟩
  obtain ⟨x, hx⟩ := hfin
  obtain ⟨hneg, hmag⟩ := ofInt_finite hx
  rw [hround] at hmag
  rw [hx, safeInteger?, hmag, if_pos ⟨Rat.den_natCast _, hlt⟩, hneg, Rat.num_natCast]
  by_cases hn : n < 0
  · simp only [hn, decide_true, if_true, Option.some.injEq]
    omega
  · simp only [hn, decide_false, Bool.false_eq_true, if_false, Option.some.injEq]
    omega

/-- A safe integer that an integer is read as is that integer. -/
theorem safe_ofInt {n m : ℤ} (h : (ofInt n).safeInteger? = some m) : m = n ∧ n.natAbs < 2 ^ 53 := by
  by_cases hn : n.natAbs < 2 ^ 53
  · rw [safeInteger_ofInt hn] at h
    exact ⟨(Option.some.inj h).symm, hn⟩
  · cases hx : ofInt n with
    | infinite neg =>
      rw [hx] at h
      nomatch h
    | finite x =>
      have hmag := (ofInt_finite hx).2
      have hle := le_roundMag (not_lt.1 hn)
      rw [hx, safeInteger?, hmag, if_neg fun hc => absurd hc.2 (not_lt.2 hle)] at h
      nomatch h

/-- A safe integer is below `2 ^ 53` in magnitude. -/
theorem natAbs_lt_of_safe {v : JsNumber} {n : ℤ} (h : v.safeInteger? = some n) : n.natAbs < 2 ^ 53 := by
  cases v with
  | infinite neg => nomatch h
  | finite x =>
    rw [safeInteger?] at h
    split at h
    · rename_i hc
      have hnum : x.mag = (x.mag.num : ℚ) := by
        conv_lhs => rw [← Rat.num_div_den x.mag, hc.1]
        simp
      have hnonneg : 0 ≤ x.mag.num := Rat.num_nonneg.2 (isDouble_nonneg x.isDouble)
      have hlt : x.mag.num < 2 ^ 53 := by
        have := hc.2
        rw [hnum] at this
        exact_mod_cast this
      have := Option.some.inj h
      split at this <;> omega
    · nomatch h

/-- JavaScript writes the number of an integer below `2 ^ 53` in magnitude as that integer. -/
theorem jsText_ofInt {n : ℤ} {x : Binary64} (h : ofInt n = finite x) (hn : n.natAbs < 2 ^ 53) :
    x.jsText.isInt = true ∧ x.jsText.toInt = n := by
  obtain ⟨hneg, hmag⟩ := ofInt_finite h
  rw [roundMag_of_lt hn] at hmag
  have hint : x.jsText.isInt = true := by
    rw [isInt_jsText, hmag]
    refine ⟨⟨(n.natAbs : ℤ), by rw [Int.cast_natCast]⟩, ?_⟩
    calc (n.natAbs : ℚ) < 2 ^ 53 := by exact_mod_cast hn
      _ < 10 ^ 21 := by norm_num
  refine ⟨hint, ?_⟩
  by_cases hz : x.mag = 0
  · rw [jsText_of_zero hz, NumLit.toInt_ofInt]
    rw [hmag] at hz
    have : n.natAbs = 0 := by exact_mod_cast hz
    omega
  · have hread := read_jsText hz
    have hval := NumLit.value_of_isInt hint
    have habs : x.jsText.mag = (x.jsText.toInt.natAbs : ℚ) := by
      rw [mag_eq_abs, hval, Nat.cast_natAbs]
      exact_mod_cast rfl
    have hround : roundMag (x.jsText.toInt.natAbs : ℚ) = x.mag := by
      unfold Binary64.read ofMag at hread
      rw [habs] at hread
      split at hread
      · exact congrArg Binary64.mag (Option.some.inj hread)
      · cases hread
    have hsmall : x.jsText.toInt.natAbs < 2 ^ 53 := by
      by_contra hge
      have := le_roundMag (not_lt.1 hge)
      rw [hround, hmag] at this
      have hlt : (n.natAbs : ℚ) < 2 ^ 53 := by exact_mod_cast hn
      linarith
    rw [roundMag_of_lt hsmall, hmag] at hround
    have hnat : x.jsText.toInt.natAbs = n.natAbs := by exact_mod_cast hround
    have hsign := neg_jsText hz
    have htoInt : x.jsText.toInt < 0 ↔ x.neg = true := by
      rw [← hsign]
      have hpos : 0 < NumLit.digits x.jsText.int := by
        by_contra hd
        have hd0 : NumLit.digits x.jsText.int = 0 := by omega
        have : x.jsText.toInt = 0 := by
          unfold NumLit.toInt
          rw [hd0]
          split <;> rfl
        rw [this] at hnat
        apply hz
        rw [hmag]
        have : n.natAbs = 0 := by simpa using hnat.symm
        exact_mod_cast this
      unfold NumLit.toInt
      cases x.jsText.neg <;> simp <;> omega
    rw [hneg, decide_eq_true_eq] at htoInt
    omega

end JsNumber

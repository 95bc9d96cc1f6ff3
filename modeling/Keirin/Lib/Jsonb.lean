import Keirin.Lib.Json
import Keirin.Lib.NumLit

/-!
# Stored documents

Documents as PostgreSQL stores them (`jsonb`). A number is an exact decimal (`numeric`) with the number of digits it is
written with behind the point. An object has each key once, in the order of the length of the keys and then of their bytes.
-/

/-- An exact decimal: `coeff` with the point before its last `scale` digits. -/
structure Numeric where
  coeff : ℤ
  scale : ℕ
deriving DecidableEq

namespace Numeric

/-- The number a decimal denotes. -/
def value (x : Numeric) : ℚ := x.coeff * (10 : ℚ) ^ (-(x.scale : ℤ))

/-- The decimal of an integer. -/
def ofInt (n : ℤ) : Numeric := { coeff := n, scale := 0 }

/-- The decimal a literal is read as. -/
def ofLit (l : NumLit) : Numeric :=
  let ds := NumLit.digits (l.int ++ l.frac.getD [])
  let coeff : ℤ := if l.neg then -(ds : ℤ) else ds
  let e : ℤ := l.expValue - (l.frac.getD []).length
  if 0 ≤ e then { coeff := coeff * 10 ^ e.toNat, scale := 0 } else { coeff := coeff, scale := (-e).toNat }

/-- The digits of a decimal, with zeros in front where it has fewer than one before the point. -/
def padded (x : Numeric) : List Char :=
  let ds := Nat.toDigits 10 x.coeff.natAbs
  List.replicate (x.scale + 1 - ds.length) '0' ++ ds

/-- The literal of a decimal, written without an exponent. -/
def lit (x : Numeric) : NumLit :=
  let n := x.padded.length - x.scale
  { neg := decide (x.coeff < 0)
    int := x.padded.take n
    frac := if x.scale = 0 then none else some (x.padded.drop n)
    exp := none }

theorem padded_digit (x : Numeric) : ∀ c ∈ x.padded, c.isDigit = true :=
  NumLit.digits_append_digit (NumLit.zeros_digit _) (NumLit.toDigits_digit _)

theorem scale_lt_padded (x : Numeric) : x.scale < x.padded.length := by
  simp only [padded, List.length_append, List.length_replicate]
  omega

theorem wf_lit (x : Numeric) : x.lit.WF := by
  have hlen := x.scale_lt_padded
  refine ⟨fun c hc => x.padded_digit c (List.mem_of_mem_take hc), ?_, ?_, by simp [lit]⟩
  · simp only [lit, ne_eq, List.take_eq_nil_iff, not_or]
    exact ⟨by omega, List.ne_nil_of_length_pos (by omega)⟩
  · intro ds hds c hc
    simp only [lit] at hds
    split at hds
    · nomatch hds
    · rw [← Option.mem_some_iff.1 hds] at hc
      exact x.padded_digit c (List.mem_of_mem_drop hc)

theorem mag_lit (x : Numeric) : x.lit.mag = (x.coeff.natAbs : ℚ) * (10 : ℚ) ^ (-(x.scale : ℤ)) := by
  have hlen := x.scale_lt_padded
  have hd : NumLit.digits x.padded = x.coeff.natAbs := by rw [padded, NumLit.digits_zeros_append, NumLit.digits_toDigits]
  by_cases h : x.scale = 0
  · simp [NumLit.mag, NumLit.expValue, lit, h, hd]
  · have hdrop : (x.padded.drop (x.padded.length - x.scale)).length = x.scale := by
      rw [List.length_drop]
      omega
    simp only [NumLit.mag, NumLit.expValue, lit, h, if_false, Option.getD_some, List.take_append_drop, hd, hdrop, zero_sub]

/-- The literal of a decimal denotes its number. -/
theorem value_lit (x : Numeric) : x.lit.value = x.value := by
  rw [NumLit.value, mag_lit, value, lit]
  by_cases h : x.coeff < 0
  · have hc : (x.coeff : ℚ) = -(x.coeff.natAbs : ℚ) := by
      rw [← Int.cast_natCast, Int.ofNat_natAbs_of_nonpos h.le, Int.cast_neg, neg_neg]
    simp only [h, decide_true, if_true]
    rw [hc]
    ring
  · have hc : (x.coeff : ℚ) = (x.coeff.natAbs : ℚ) := by
      rw [← Int.cast_natCast, Int.natAbs_of_nonneg (not_lt.1 h)]
    simp only [h, decide_false, Bool.false_eq_true, if_false]
    rw [hc]

/-- Reading a literal keeps its number. -/
theorem value_ofLit (l : NumLit) : (ofLit l).value = l.value := by
  have hsign : ∀ n : ℕ, (((if l.neg then -(n : ℤ) else n : ℤ)) : ℚ) = if l.neg then -(n : ℚ) else n := by
    intro n
    split <;> simp
  have hmag : l.value = (if l.neg then -(NumLit.digits (l.int ++ l.frac.getD []) : ℚ)
      else NumLit.digits (l.int ++ l.frac.getD [])) * (10 : ℚ) ^ (l.expValue - (l.frac.getD []).length) := by
    unfold NumLit.value NumLit.mag
    split <;> ring
  rw [hmag]
  unfold ofLit
  simp only []
  split
  · rename_i he
    simp only [value, Int.cast_mul, hsign, Int.cast_pow, Int.cast_ofNat, Nat.cast_zero, neg_zero, zpow_zero, mul_one]
    congr 1
    rw [← zpow_natCast, Int.toNat_of_nonneg he]
  · rename_i he
    simp only [value, hsign]
    congr 2
    rw [Int.toNat_of_nonneg (by omega), neg_neg]

end Numeric

/-! ## Documents -/

/-- A stored document. -/
abbrev Jsonb := Json Numeric

namespace Jsonb

/-- The order of keys: the shorter one first, then by bytes. -/
def keyLe (a b : String) : Bool :=
  a.utf8ByteSize < b.utf8ByteSize || (a.utf8ByteSize = b.utf8ByteSize && decide (Text.utf8 a.toList ≤ Text.utf8 b.toList))

variable {α : Type}

/-- Put a field at its place among fields that do not have its key. -/
def insertField (key : String) (v : α) : Dict α → Dict α
  | [] => [(key, v)]
  | (k, w) :: d => if keyLe key k then (key, v) :: (k, w) :: d else (k, w) :: insertField key v d

/-- Set a field; the value it had is dropped. -/
def put (d : Dict α) (f : String × α) : Dict α := insertField f.1 f.2 (Dict.pop f.1 d)

theorem get?_insertField_self {key : String} (v : α) {d : Dict α} (h : Dict.get? key d = none) :
    Dict.get? key (insertField key v d) = some v := by
  induction d with
  | nil => simp [insertField, Dict.get?]
  | cons e d ih =>
    obtain ⟨k, w⟩ := e
    simp only [insertField]
    by_cases hk : k = key
    · simp [Dict.get?, hk] at h
    · simp only [Dict.get?, hk, if_false] at h
      split
      · simp [Dict.get?]
      · simp [Dict.get?, hk, ih h]

theorem get?_insertField_of_ne {key key' : String} (h : key' ≠ key) (v : α) (d : Dict α) :
    Dict.get? key' (insertField key v d) = Dict.get? key' d := by
  induction d with
  | nil => simp [insertField, Dict.get?, h.symm]
  | cons e d ih =>
    obtain ⟨k, w⟩ := e
    simp only [insertField]
    split
    · simp [Dict.get?, h.symm]
    · simp [Dict.get?, ih]

@[simp] theorem get?_put_self (d : Dict α) (key : String) (v : α) : Dict.get? key (put d (key, v)) = some v :=
  get?_insertField_self v (Dict.get?_pop_self key d)

theorem get?_put_of_ne {key key' : String} (h : key' ≠ key) (d : Dict α) (v : α) :
    Dict.get? key' (put d (key, v)) = Dict.get? key' d := by
  rw [put, get?_insertField_of_ne h, Dict.get?_pop_of_ne h]

mutual

/-- The stored form of a document. -/
def ofJson : Json Numeric → Jsonb
  | .arr xs => .arr (ofList xs)
  | .obj fs => .obj ((ofFields fs).foldl put [])
  | .null => .null
  | .bool b => .bool b
  | .num n => .num n
  | .str s => .str s

def ofList : List (Json Numeric) → List Jsonb
  | [] => []
  | x :: xs => ofJson x :: ofList xs

def ofFields : List (String × Json Numeric) → List (String × Jsonb)
  | [] => []
  | (k, x) :: fs => (k, ofJson x) :: ofFields fs

end

theorem ofFields_eq (fs : List (String × Json Numeric)) : ofFields fs = fs.map (fun f => (f.1, ofJson f.2)) := by
  induction fs with
  | nil => rfl
  | cons f fs ih => simp [ofFields, ih]

theorem ofList_eq (xs : List (Json Numeric)) : ofList xs = xs.map ofJson := by
  induction xs with
  | nil => rfl
  | cons x xs ih => simp [ofList, ih]

/-- Fields that are set one by one are found, where no key stands twice among them. -/
theorem get?_foldl_put {fs : Dict α} (h : (fs.map Prod.fst).Nodup) (key : String) (d : Dict α) :
    Dict.get? key (fs.foldl put d) = (Dict.get? key fs).or (Dict.get? key d) := by
  induction fs generalizing d with
  | nil => simp [Dict.get?]
  | cons f fs ih =>
    obtain ⟨k, v⟩ := f
    rw [List.map_cons, List.nodup_cons] at h
    rw [List.foldl_cons, ih h.2]
    by_cases hk : k = key
    · subst hk
      have hnone : Dict.get? k fs = none := by
        by_contra hne
        obtain ⟨w, hw⟩ := Option.ne_none_iff_exists'.1 hne
        exact h.1 (List.mem_map.2 ⟨(k, w), Dict.mem_of_get? hw, rfl⟩)
      simp [hnone, Dict.get?]
    · rw [get?_put_of_ne (Ne.symm hk)]
      simp [Dict.get?, hk]

theorem perm_insertField (key : String) (v : α) (d : Dict α) : (insertField key v d).Perm ((key, v) :: d) := by
  induction d with
  | nil => exact List.Perm.refl _
  | cons e d ih =>
    obtain ⟨k, w⟩ := e
    unfold insertField
    split
    · exact List.Perm.refl _
    · exact (ih.cons _).trans (List.Perm.swap _ _ _)

/-- Fields with different keys are all kept. -/
theorem perm_foldl_put {fs d : Dict α} (h : ((fs ++ d).map Prod.fst).Nodup) : (fs.foldl put d).Perm (fs ++ d) := by
  induction fs generalizing d with
  | nil => exact List.Perm.refl _
  | cons f fs ih =>
    obtain ⟨k, v⟩ := f
    simp only [List.cons_append, List.map_cons, List.nodup_cons] at h
    have hpop : Dict.pop k d = d := by
      refine List.filter_eq_self.2 fun e he => decide_eq_true fun hk => h.1 ?_
      rw [← hk]
      exact List.mem_map_of_mem (List.mem_append_right _ he)
    have hput : (put d (k, v)).Perm ((k, v) :: d) := by
      rw [put, hpop]
      exact perm_insertField k v d
    have hmid : (fs ++ put d (k, v)).Perm ((k, v) :: (fs ++ d)) := (hput.append_left fs).trans List.perm_middle
    refine (ih ?_).trans hmid
    exact ((hmid.map Prod.fst).nodup_iff).2 (List.nodup_cons.2 h)

/-- A field of a stored object. -/
theorem get?_ofJson_obj {fs : List (String × Json Numeric)} (h : (fs.map Prod.fst).Nodup) (key : String) :
    (ofJson (.obj fs)).get? key = (Dict.get? key fs).map ofJson := by
  have hkeys : ((ofFields fs).map Prod.fst).Nodup := by
    rw [ofFields_eq, List.map_map]
    exact h
  rw [ofJson, Json.get?, get?_foldl_put hkeys, ofFields_eq, Dict.get?_map]
  exact Option.or_none

/-- `jsonb_typeof(v) = 'object'` -/
def isObject : Jsonb → Bool
  | .obj _ => true
  | _ => false

/-- The elements `||` sees. -/
def elements : Jsonb → List Jsonb
  | .arr xs => xs
  | v => [v]

/-- `a || b` -/
def concat (a b : Jsonb) : Jsonb :=
  match a, b with
  | .obj fs, .obj gs => .obj (gs.foldl put fs)
  | a, b => .arr (elements a ++ elements b)

/-! ## Text -/

mutual

/-- The text of a stored document. -/
def text : Jsonb → List Char
  | .null => ['n', 'u', 'l', 'l']
  | .bool true => ['t', 'r', 'u', 'e']
  | .bool false => ['f', 'a', 'l', 's', 'e']
  | .num n => n.lit.render
  | .str s => Json.quote s
  | .arr xs => '[' :: textList xs
  | .obj fs => '{' :: textFields fs

def textList : List Jsonb → List Char
  | [] => [']']
  | [x] => text x ++ [']']
  | x :: y :: xs => text x ++ ',' :: ' ' :: textList (y :: xs)

def textFields : List (String × Jsonb) → List Char
  | [] => ['}']
  | [(k, x)] => Json.quote k ++ ':' :: ' ' :: (text x ++ ['}'])
  | (k, x) :: f :: fs => Json.quote k ++ ':' :: ' ' :: (text x ++ ',' :: ' ' :: textFields (f :: fs))

end

/-- `v ->> key`; `none` is the SQL null. -/
def getText (v : Jsonb) (key : String) : Option String :=
  match v.get? key with
  | none => none
  | some .null => none
  | some (.str s) => some s
  | some w => some (String.ofList (text w))

/-- A text that begins with a letter and is no truth value is what `->>` gives for that text only. -/
def IsWord (word : String) : Prop := (word.toList.head?.any Char.isAlpha = true) ∧ word ≠ "true" ∧ word ≠ "false"

instance (word : String) : Decidable (IsWord word) := by
  unfold IsWord
  infer_instance

/-- A word that `->>` gives for a field is the field. -/
theorem get?_of_getText {v : Jsonb} {key word : String} (h : v.getText key = some word) (hw : IsWord word) :
    v.get? key = some (.str word) := by
  obtain ⟨halpha, htrue, hfalse⟩ := hw
  unfold getText at h
  split at h
  · nomatch h
  · nomatch h
  · rename_i s hs
    rw [hs, Option.some.inj h]
  · rename_i w hnull hstr hw
    have hword : word.toList = text w := by rw [← Option.some.inj h, String.toList_ofList]
    rw [hword] at halpha
    cases w with
    | null => exact absurd rfl hnull
    | bool b =>
      cases b
      · exact absurd (String.toList_inj.1 (by rw [hword]; simp [text])) hfalse
      · exact absurd (String.toList_inj.1 (by rw [hword]; simp [text])) htrue
    | num n =>
      obtain ⟨c, r, hr, hc⟩ := NumLit.head_render_digit n.wf_lit
      simp only [text, hr, List.head?_cons, Option.any_some] at halpha
      rcases hc with rfl | hc
      · exact absurd halpha (by decide)
      · exact absurd halpha (by simp [NumLit.not_isAlpha_of_isDigit hc])
    | str s => exact absurd rfl (hstr s)
    | arr xs => simp [text] at halpha
    | obj fs => simp [text] at halpha

end Jsonb

import Keirin.Lib.JsValue
import Mathlib.Data.List.TakeWhile

/-!
# Arithmetic of JavaScript

The numbers a program computes with: the doubles, the infinities and NaN. The operations round the exact result; what the
language leaves to the implementation, such as `Math.exp`, is not defined here. `Number(v)` is defined for every value of a
document; it throws where the value has no text.
-/

/-- A number of JavaScript. -/
inductive JsFloat
  | nan
  | num (n : JsNumber)
deriving DecidableEq

/-- The number a double stands for. -/
def Binary64.toRat (x : Binary64) : ℚ := if x.neg then -x.mag else x.mag

namespace JsFloat

/-- The number nearest to a rational number; a zero has the sign `neg`. -/
def round (neg : Bool) (q : ℚ) : JsFloat :=
  let neg := if q = 0 then neg else decide (q < 0)
  match Binary64.ofMag neg |q| with
  | some x => num (.finite x)
  | none => num (.infinite neg)

/-- The number nearest to a rational number, as a literal of the source is read. -/
def ofRat (q : ℚ) : JsFloat := round false q

def zero : JsFloat := num (.finite ⟨false, 0, Binary64.isDouble_zero⟩)

/-- `-x` -/
def neg : JsFloat → JsFloat
  | nan => nan
  | num (.finite x) => num (.finite { x with neg := !x.neg })
  | num (.infinite s) => num (.infinite !s)

/-- `x + y` -/
def add : JsFloat → JsFloat → JsFloat
  | num (.finite x), num (.finite y) => round (x.neg && y.neg) (x.toRat + y.toRat)
  | num (.infinite s), num (.infinite t) => if s = t then num (.infinite s) else nan
  | num (.infinite s), num (.finite _) => num (.infinite s)
  | num (.finite _), num (.infinite t) => num (.infinite t)
  | _, _ => nan

/-- `x - y` -/
def sub (x y : JsFloat) : JsFloat := add x (neg y)

/-- `x * y` -/
def mul : JsFloat → JsFloat → JsFloat
  | num (.finite x), num (.finite y) => round (x.neg != y.neg) (x.toRat * y.toRat)
  | num (.infinite s), num (.infinite t) => num (.infinite (s != t))
  | num (.infinite s), num (.finite y) => if y.mag = 0 then nan else num (.infinite (s != y.neg))
  | num (.finite x), num (.infinite t) => if x.mag = 0 then nan else num (.infinite (x.neg != t))
  | _, _ => nan

/-- `x / y` -/
def div : JsFloat → JsFloat → JsFloat
  | num (.finite x), num (.finite y) =>
    if y.mag = 0 then if x.mag = 0 then nan else num (.infinite (x.neg != y.neg)) else round (x.neg != y.neg) (x.toRat / y.toRat)
  | num (.infinite s), num (.finite y) => num (.infinite (s != y.neg))
  | num (.finite x), num (.infinite t) => round (x.neg != t) 0
  | _, _ => nan

/-- `x < y` -/
def lt : JsFloat → JsFloat → Bool
  | num (.finite x), num (.finite y) => x.toRat < y.toRat
  | num (.infinite s), num (.infinite t) => s && !t
  | num (.infinite s), num (.finite _) => s
  | num (.finite _), num (.infinite t) => !t
  | _, _ => false

/-- `x === y` -/
def eq : JsFloat → JsFloat → Bool
  | num (.finite x), num (.finite y) => x.toRat = y.toRat
  | num (.infinite s), num (.infinite t) => s = t
  | _, _ => false

/-- `x <= y` -/
def le (x y : JsFloat) : Bool := lt x y || eq x y

/-- `Number.isFinite(x)` -/
def isFinite : JsFloat → Bool
  | num (.finite _) => true
  | _ => false

/-- Whether a number counts as true. -/
def truthy (x : JsFloat) : Bool := x ≠ nan && !eq x zero

/-- `x || y` -/
def or (x y : JsFloat) : JsFloat := if truthy x then x else y

/-- The integer of a number that is one: `Number.isInteger(x)`. -/
def int? : JsFloat → Option ℤ
  | num n => n.int?
  | nan => none

/-! ## Functions of `Math` -/

/-- `Math.trunc(x)` -/
def trunc : JsFloat → JsFloat
  | num (.finite x) => round x.neg (if x.neg then -⌊x.mag⌋ else ⌊x.mag⌋)
  | x => x

/-- `Math.round(x)` -/
def mathRound : JsFloat → JsFloat
  | num (.finite x) => round x.neg ⌊x.toRat + 1 / 2⌋
  | x => x

/-- `Math.abs(x)` -/
def abs : JsFloat → JsFloat
  | num (.finite x) => num (.finite { x with neg := false })
  | num (.infinite _) => num (.infinite false)
  | nan => nan

/-- `Math.max(x, y)` -/
def max (x y : JsFloat) : JsFloat :=
  if x = nan ∨ y = nan then nan
  else if lt x y then y
  else if lt y x then x
  else if x = neg zero then y else x

/-- `Math.min(x, y)` -/
def min (x y : JsFloat) : JsFloat := neg (max (neg x) (neg y))

/-- `Math.max(...xs)` -/
def maxAll (xs : List JsFloat) : JsFloat := xs.foldl max (num (.infinite true))

/-- `xs.reduce((a, b) => a + b, 0)` -/
def sum (xs : List JsFloat) : JsFloat := xs.foldl add zero

/-! ## Texts -/

/-- `String(x)` -/
def text : JsFloat → String
  | nan => "NaN"
  | num n => n.text

/-- `x.toFixed(digits)` -/
def toFixed (digits : ℕ) : JsFloat → String
  | num (.finite x) =>
    if 10 ^ 21 ≤ x.mag then text (num (.finite x))
    else
      let ds := Nat.toDigits 10 ⌊x.mag * 10 ^ digits + 1 / 2⌋.toNat
      let ds := List.replicate (digits + 1 - ds.length) '0' ++ ds
      let whole := ds.take (ds.length - digits)
      String.ofList ((if x.neg ∧ x.mag ≠ 0 then ['-'] else []) ++ whole ++
        if digits = 0 then [] else '.' :: ds.drop (ds.length - digits))
  | x => text x

/-! ## Numbers of texts -/

/-- The exponent of a literal: a sign and digits. -/
def exponent? (cs : List Char) : Option (Bool × List Char) :=
  let (neg, ds) := match cs with
    | '-' :: ds => (true, ds)
    | '+' :: ds => (false, ds)
    | ds => (false, ds)
  if ds ≠ [] ∧ ds.all Char.isDigit = true then some (neg, ds) else none

/-- A decimal literal without a sign. -/
def decimal? (cs : List Char) : Option NumLit := do
  let int := cs.takeWhile Char.isDigit
  let (frac, rest) := match cs.dropWhile Char.isDigit with
    | '.' :: r => (some (r.takeWhile Char.isDigit), r.dropWhile Char.isDigit)
    | r => (none, r)
  guard (int ≠ [] ∨ frac.getD [] ≠ [])
  match rest with
  | [] => return { neg := false, int := int, frac := frac, exp := none }
  | c :: r =>
    guard (c = 'e' ∨ c = 'E')
    let exp ← exponent? r
    return { neg := false, int := int, frac := frac, exp := some exp }

/-- The value of a digit of a literal with a base. -/
def baseDigit (base : ℕ) (c : Char) : Option ℕ :=
  let v := if c.isDigit then some (c.toNat - 48)
    else if 'a' ≤ c ∧ c ≤ 'f' then some (c.toNat - 87)
    else if 'A' ≤ c ∧ c ≤ 'F' then some (c.toNat - 55)
    else none
  v.filter (· < base)

/-- The number of the digits of a literal with a base. -/
def ofBase (base : ℕ) (cs : List Char) : JsFloat :=
  match cs.mapM (baseDigit base) with
  | some (d :: ds) => ofRat ((d :: ds).foldl (fun n d => base * n + d) 0 : ℕ)
  | _ => nan

/-- The number of an unsigned literal. -/
def ofUnsigned (cs : List Char) : JsFloat :=
  if cs = "Infinity".toList then num (.infinite false)
  else match decimal? cs with
    | some l => num (.ofLit l)
    | none => nan

/-- `Number(s)` -/
def ofString (s : String) : JsFloat :=
  match (JsVal.trim s).toList with
  | [] => zero
  | '-' :: cs => neg (ofUnsigned cs)
  | '+' :: cs => ofUnsigned cs
  | '0' :: c :: cs =>
    if c = 'x' ∨ c = 'X' then ofBase 16 cs
    else if c = 'o' ∨ c = 'O' then ofBase 8 cs
    else if c = 'b' ∨ c = 'B' then ofBase 2 cs
    else ofUnsigned ('0' :: c :: cs)
  | cs => ofUnsigned cs

/-- A digit is not a character `trim` removes. -/
theorem isSpace_of_isDigit {c : Char} (h : c.isDigit = true) : JsVal.isSpace c = false := by
  have hc : 48 ≤ c.toNat ∧ c.toNat ≤ 57 := by
    simp only [Char.isDigit, Bool.and_eq_true, decide_eq_true_eq, UInt32.le_iff_toNat_le, ge_iff_le] at h
    exact h
  simp only [JsVal.isSpace, Bool.or_eq_false_iff, Bool.and_eq_false_iff, decide_eq_false_iff_not]
  omega

theorem trim_digits {ds : List Char} (h : ds.all Char.isDigit = true) : JsVal.trim (String.ofList ds) = String.ofList ds := by
  have hdrop : ∀ cs : List Char, (∀ c ∈ cs, c.isDigit = true) → cs.dropWhile JsVal.isSpace = cs := by
    intro cs hcs
    cases cs with
    | nil => rfl
    | cons c cs => exact List.dropWhile_cons_of_neg (by rw [isSpace_of_isDigit (hcs c List.mem_cons_self)]; decide)
  rw [List.all_eq_true] at h
  unfold JsVal.trim
  rw [String.toList_ofList, hdrop ds h, hdrop ds.reverse fun c hc => h c (List.mem_reverse.1 hc), List.reverse_reverse]

theorem decimal_digits {ds : List Char} (hne : ds ≠ []) (h : ds.all Char.isDigit = true) :
    decimal? ds = some { neg := false, int := ds, frac := none, exp := none } := by
  have htake : ds.takeWhile Char.isDigit = ds := List.takeWhile_eq_self_iff.2 (List.all_eq_true.1 h)
  have hdrop : ds.dropWhile Char.isDigit = [] := List.dropWhile_eq_nil_iff.2 (List.all_eq_true.1 h)
  unfold decimal?
  rw [htake, hdrop]
  simp [hne]

theorem ofUnsigned_digits {ds : List Char} (hne : ds ≠ []) (h : ds.all Char.isDigit = true) :
    ofUnsigned ds = num (.ofLit { neg := false, int := ds, frac := none, exp := none }) := by
  unfold ofUnsigned
  rw [if_neg, decimal_digits hne h]
  rintro rfl
  exact absurd h (by decide)

/-- The number of digits. -/
theorem ofString_digits {ds : List Char} (hne : ds ≠ []) (h : ds.all Char.isDigit = true) :
    ofString (String.ofList ds) = num (.ofLit { neg := false, int := ds, frac := none, exp := none }) := by
  rw [← ofUnsigned_digits hne h]
  have hmem := List.all_eq_true.1 h
  unfold ofString
  rw [trim_digits h, String.toList_ofList]
  split
  · exact absurd rfl hne
  · exact absurd (hmem '-' List.mem_cons_self) (by decide)
  · exact absurd (hmem '+' List.mem_cons_self) (by decide)
  · rename_i c cs
    have hc : c.isDigit = true := hmem c (List.mem_cons_of_mem _ List.mem_cons_self)
    rw [if_neg, if_neg, if_neg]
    · rintro (rfl | rfl) <;> exact absurd hc (by decide)
    · rintro (rfl | rfl) <;> exact absurd hc (by decide)
    · rintro (rfl | rfl) <;> exact absurd hc (by decide)
  · rfl

/-- A number other than zero whose text is digits is the number of its text. -/
theorem ofString_text {x : JsFloat} (hx : eq x zero = false) (hne : x.text.toList ≠ []) (h : x.text.toList.all Char.isDigit = true) :
    ofString x.text = x := by
  cases x with
  | nan => exact absurd h (by decide)
  | num n =>
    cases n with
    | infinite neg => cases neg <;> exact absurd h (by decide)
    | finite y =>
      have hy : y.mag ≠ 0 := by
        intro hy
        simp [eq, zero, Binary64.toRat, hy] at hx
      have htext : (num (.finite y)).text = String.ofList y.jsText.render := rfl
      rw [htext, String.toList_ofList] at hne h
      rw [htext]
      have hplain : y.jsText = { neg := false, int := y.jsText.render, frac := none, exp := none } := by
        cases hl : y.jsText with
        | mk neg int frac exp =>
          rw [hl] at h
          simp only [NumLit.render, List.all_append, Bool.and_eq_true] at h ⊢
          obtain ⟨hneg, -, hfrac, hexp⟩ := h
          cases neg with
          | true => cases hneg
          | false =>
            cases frac with
            | some ds => simp [NumLit.renderFrac] at hfrac
            | none =>
              cases exp with
              | some e => simp [NumLit.renderExp] at hexp
              | none => simp [NumLit.renderFrac, NumLit.renderExp]
      rw [ofString_digits hne h, ← hplain, JsNumber.ofLit, Binary64.read_jsText hy]

end JsFloat

namespace JsVal

/-- `Number(v)` -/
def number : JsVal → Except String JsFloat
  | none => .ok .nan
  | some .null => .ok .zero
  | some (.bool b) => .ok (if b then .ofRat 1 else .zero)
  | some (.num n) => .ok (.num n)
  | some (.str s) => .ok (.ofString s)
  | some v => (docText v).map .ofString

/-- A value that has a text, and a number. -/
def Textual (v : JsVal) : Prop := ∃ s, text v = .ok s

theorem exists_map_ok {ε α β : Type} {e : Except ε α} {f : α → β} : (∃ y, e.map f = .ok y) ↔ ∃ x, e = .ok x := by
  cases e <;> simp [Except.map]

theorem number_ok (v : JsVal) : (∃ x, number v = .ok x) ↔ Textual v := by
  match v with
  | none => exact ⟨fun _ => ⟨_, rfl⟩, fun _ => ⟨_, rfl⟩⟩
  | some .null => exact ⟨fun _ => ⟨_, rfl⟩, fun _ => ⟨_, rfl⟩⟩
  | some (.bool b) => exact ⟨fun _ => ⟨_, rfl⟩, fun _ => ⟨_, rfl⟩⟩
  | some (.num n) => exact ⟨fun _ => ⟨_, rfl⟩, fun _ => ⟨_, rfl⟩⟩
  | some (.str s) => exact ⟨fun _ => ⟨_, rfl⟩, fun _ => ⟨_, rfl⟩⟩
  | some (.arr xs) => exact exists_map_ok
  | some (.obj fs) => exact exists_map_ok

/-- `v === w`; two containers of one document are never the same. -/
def strictEq : JsVal → JsVal → Bool
  | none, none => true
  | some .null, some .null => true
  | some (.bool b), some (.bool c) => b = c
  | some (.num m), some (.num n) => JsFloat.eq (.num m) (.num n)
  | some (.str s), some (.str t) => s = t
  | _, _ => false

/-- `(v || {}).key` -/
def orProp (v : JsVal) (key : String) : JsVal :=
  match v with
  | some (.obj fs) => Dict.get? key fs
  | _ => none

/-- The value of a document. -/
def field (v : JsDoc) (key : String) : JsVal :=
  match v with
  | .obj fs => Dict.get? key fs
  | _ => none

end JsVal

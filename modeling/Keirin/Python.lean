import Keirin.Lib.DoubleText
import Keirin.Lib.Json
import Mathlib.Data.List.DropRight

/-!
# Values of the host language

The values the runtime handles are documents whose numbers are Python's: integers, doubles, and the values that JSON has no
number for. A value that is not data at all is an `object`. The conversions `bool`, `str`, `int`, `list` and `dict` are
Python's; the text of a container is left open, since it depends on Python's `repr`.
-/

namespace Keirin

/-- A number of Python, or a value no JSON text stands for. -/
inductive Scalar
  | int (n : Int)
  | float (x : Binary64)
  | nan
  | inf (neg : Bool)
  | object (truthy : Bool)
deriving DecidableEq

/-- A value of Python. A mapping is given by its items, a sequence by its elements. -/
abbrev Doc := Json Scalar

instance lawfulBEqDoc : LawfulBEq Doc := inferInstance

instance lawfulBEqTexts : LawfulBEq (String × String) := inferInstance

/-- An exception, with the message the source gives it. -/
inductive PyError
  | valueError (message : String)
  | typeError (message : String)
  | keyError (key : String)
  | attributeError (message : String)
  | overflowError (message : String)
  | runtimeError (message : String)
  | osError (message : String)
  | csvError (message : String)
deriving DecidableEq

/-- Raise `e` where `bad` holds: `if bad: raise e`. -/
def raiseIf {ε : Type} (bad : Prop) [Decidable bad] (e : ε) : Except ε Unit := if bad then .error e else .ok ()

/-- A chain that begins with a check succeeds when the check passes and the rest succeeds. -/
theorem raiseIf_bind_ok {ε α : Type} {bad : Prop} [Decidable bad] {e : ε} {f : Unit → Except ε α} {a : α} :
    (raiseIf bad e >>= f) = .ok a ↔ ¬bad ∧ f () = .ok a := by
  by_cases h : bad
  · simp [raiseIf, h, bind, Except.bind]
  · simp [raiseIf, h, bind, Except.bind]

theorem raiseIf_ok {ε : Type} {bad : Prop} [Decidable bad] {e : ε} : raiseIf bad e = .ok () ↔ ¬bad := by
  by_cases h : bad <;> simp [raiseIf, h]

theorem raiseIf_pos {ε : Type} {bad : Prop} [Decidable bad] (h : bad) (e : ε) : raiseIf bad e = .error e := if_pos h

theorem raiseIf_neg {ε : Type} {bad : Prop} [Decidable bad] (h : ¬bad) (e : ε) : raiseIf bad e = .ok () := if_neg h

/-- A chain succeeds when its first part and the rest do. -/
theorem bind_ok {ε α β : Type} {x : Except ε α} {f : α → Except ε β} {b : β} :
    (x >>= f) = .ok b ↔ ∃ a, x = .ok a ∧ f a = .ok b := by
  cases x <;> simp [bind, Except.bind]

/-! ## Texts -/

/-- The characters `str.isspace` accepts. -/
def isSpace (c : Char) : Bool :=
  let n := c.toNat
  (9 ≤ n && n ≤ 13) || (28 ≤ n && n ≤ 32) || n = 0x85 || n = 0xa0 || n = 0x1680 || (0x2000 ≤ n && n ≤ 0x200a) ||
    n = 0x2028 || n = 0x2029 || n = 0x202f || n = 0x205f || n = 0x3000

/-- `s.strip()` -/
def strip (s : String) : String := String.ofList (((s.toList.dropWhile isSpace).reverse.dropWhile isSpace).reverse)

/-- `not s.strip()` -/
def isBlank (s : String) : Bool := s.toList.all isSpace

/-- A stripped text has nothing more to strip. -/
theorem strip_strip (s : String) : strip (strip s) = strip s := by
  have hfront : ((s.toList.dropWhile isSpace).rdropWhile isSpace).dropWhile isSpace = (s.toList.dropWhile isSpace).rdropWhile isSpace := by
    refine List.dropWhile_eq_self_iff.2 fun hl => ?_
    have hpre := List.rdropWhile_prefix isSpace (l := s.toList.dropWhile isSpace)
    rw [hpre.getElem hl]
    exact List.dropWhile_get_zero_not isSpace s.toList (lt_of_lt_of_le hl hpre.length_le)
  have hback := List.rdropWhile_idempotent isSpace (s.toList.dropWhile isSpace)
  have hstrip : ∀ t : String, strip t = String.ofList ((t.toList.dropWhile isSpace).rdropWhile isSpace) := fun _ => rfl
  rw [hstrip, hstrip, String.toList_ofList, hfront, hback]

/-- A text is blank when nothing is left of it. -/
theorem isBlank_iff {s : String} : isBlank s = true ↔ strip s = "" := by
  have h : strip s = "" ↔ ((s.toList.dropWhile isSpace).rdropWhile isSpace) = [] := by
    unfold strip
    rw [← String.toList_inj]
    simp [List.rdropWhile]
  rw [h, List.rdropWhile_eq_nil_iff, isBlank, List.all_eq_true]
  constructor
  · intro hs x hx
    exact hs x ((List.dropWhile_sublist isSpace).subset hx)
  · intro hs x hx
    by_contra hx'
    have hd : s.toList.dropWhile isSpace ≠ [] := fun hd => hx' ((List.dropWhile_eq_nil_iff).1 hd x hx)
    have hpos : 0 < (s.toList.dropWhile isSpace).length := List.length_pos_iff.2 hd
    exact List.dropWhile_get_zero_not isSpace s.toList hpos (hs _ (List.get_mem _ ⟨0, hpos⟩))

/-- The zeros of the decimal digits of Unicode; each is followed by the other nine. -/
def decimalZeros : List Nat :=
  [0x30, 0x660, 0x6f0, 0x7c0, 0x966, 0x9e6, 0xa66, 0xae6, 0xb66, 0xbe6, 0xc66, 0xce6, 0xd66, 0xde6, 0xe50, 0xed0, 0xf20,
   0x1040, 0x1090, 0x17e0, 0x1810, 0x1946, 0x19d0, 0x1a80, 0x1a90, 0x1b50, 0x1bb0, 0x1c40, 0x1c50, 0xa620, 0xa8d0, 0xa900,
   0xa9d0, 0xa9f0, 0xaa50, 0xabf0, 0xff10, 0x104a0, 0x10d30, 0x11066, 0x110f0, 0x11136, 0x111d0, 0x112f0, 0x11450, 0x114d0,
   0x11650, 0x116c0, 0x11730, 0x118e0, 0x11950, 0x11c50, 0x11d50, 0x11da0, 0x16a60, 0x16ac0, 0x16b50, 0x1d7ce, 0x1d7d8,
   0x1d7e2, 0x1d7ec, 0x1d7f6, 0x1e140, 0x1e2f0, 0x1e950, 0x1fbf0]

/-- The value of a decimal digit. -/
def decimalDigit (c : Char) : Option Nat :=
  (decimalZeros.find? (fun z => z ≤ c.toNat && c.toNat < z + 10)).map (fun z => c.toNat - z)

/-- Digits, with single underscores between them; `acc` is the number read so far, `prev` whether a digit came before. -/
def readDigits (acc : Nat) (prev : Bool) : List Char → Option Nat
  | [] => if prev then some acc else none
  | c :: cs =>
    if c = '_' then if prev then readDigits acc false cs else none
    else match decimalDigit c with
      | some d => readDigits (10 * acc + d) true cs
      | none => none

/-- `int(s)` for a text. -/
def intOfText (s : String) : Except PyError Int :=
  let r := match (strip s).toList with
    | '-' :: cs => (readDigits 0 false cs).map (fun n => -(n : Int))
    | '+' :: cs => (readDigits 0 false cs).map (fun n => (n : Int))
    | cs => (readDigits 0 false cs).map (fun n => (n : Int))
  match r with
  | some n => .ok n
  | none => .error (.valueError "invalid literal for int() with base 10")

/-! ## Conversions -/

namespace Scalar

/-- `bool(v)` for a number. -/
def truthy : Scalar → Bool
  | int n => n ≠ 0
  | float x => x.mag ≠ 0
  | nan => true
  | inf _ => true
  | object t => t

/-- The text `json.dumps` writes for a number; a value JSON has no number for has none. -/
def text : Scalar → List Char
  | int n => (NumLit.ofInt n).render
  | float x => x.pyRepr.render
  | nan => []
  | inf _ => []
  | object _ => []

/-- Whether `json.dumps` with `allow_nan=False` writes the number. -/
def finite : Scalar → Bool
  | int _ => true
  | float _ => true
  | _ => false

/-- Whether `json.dumps` writes the value. -/
def encodable : Scalar → Bool
  | object _ => false
  | _ => true

end Scalar

namespace Doc

/-- `bool(v)` -/
def truthy : Doc → Bool
  | .null => false
  | .bool b => b
  | .num n => n.truthy
  | .str s => s ≠ ""
  | .arr xs => !xs.isEmpty
  | .obj fs => !fs.isEmpty

/-- `v or default` -/
def orElse (v default : Doc) : Doc := if truthy v then v else default

/-- `payload.get(key) or default` -/
def getOr (payload : Dict Doc) (key : String) (default : Doc) : Doc := orElse (Dict.getD payload key .null) default

/-- `str(v)`; `repr` gives the text of containers and objects. -/
def toStr (repr : Doc → String) : Doc → String
  | .null => "None"
  | .bool true => "True"
  | .bool false => "False"
  | .num (.int n) => String.ofList (NumLit.ofInt n).render
  | .num (.float x) => String.ofList x.pyRepr.render
  | .num .nan => "nan"
  | .num (.inf neg) => if neg then "-inf" else "inf"
  | .str s => s
  | v => repr v

/-- `int(v)` -/
def toInt : Doc → Except PyError Int
  | .bool b => .ok (if b then 1 else 0)
  | .num (.int n) => .ok n
  | .num (.float x) => .ok (if x.neg then -⌊x.mag⌋ else ⌊x.mag⌋)
  | .num .nan => .error (.valueError "cannot convert float NaN to integer")
  | .num (.inf _) => .error (.overflowError "cannot convert float infinity to integer")
  | .str s => intOfText s
  | _ => .error (.typeError "int() argument must be a string, a bytes-like object or a real number")

/-- `list(v)` -/
def toList : Doc → Except PyError (List Doc)
  | .arr xs => .ok xs
  | .obj fs => .ok (fs.map (fun f => .str f.1))
  | .str s => .ok (s.toList.map (fun c => .str (String.ofList [c])))
  | _ => .error (.typeError "object is not iterable")

/-- A pair of a key and a value, as `dict` reads it from an element of a sequence. -/
def toPair : Doc → Except PyError (String × Doc)
  | .arr [.str k, v] => .ok (k, v)
  | .obj [(k, _), (l, _)] => .ok (k, .str l)
  | .str s =>
    match s.toList with
    | [c, d] => .ok (String.ofList [c], .str (String.ofList [d]))
    | _ => .error (.valueError "dictionary update sequence element has the wrong length")
  | _ => .error (.typeError "cannot convert dictionary update sequence element to a sequence")

/-- `dict(v)` -/
def toDict : Doc → Except PyError (Dict Doc)
  | .obj fs => .ok fs
  | .arr xs => (xs.mapM toPair).map (fun kvs => Dict.update [] kvs)
  | .str s => if s = "" then .ok [] else .error (.valueError "dictionary update sequence element #0 has length 1; 2 is required")
  | _ => .error (.typeError "object is not iterable")

/-- Whether `json.dumps` with `allow_nan=False` writes the value. -/
def finite (v : Doc) : Bool := v.allNum Scalar.finite

/-- Whether `json.dumps` writes the value. -/
def encodable (v : Doc) : Bool := v.allNum Scalar.encodable

/-- An optional text. -/
def ofOption : Option String → Doc
  | none => .null
  | some s => .str s

end Doc

end Keirin

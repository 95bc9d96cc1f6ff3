import Keirin.Lib.JsDoc

/-!
# Values of JavaScript

The values a program works on after `JSON.parse`: documents, and `undefined` for what is not there. Reading a property of `null`
or `undefined` throws; every other value that is not an object has none of the properties asked for here.
-/

/-- A value; `none` is `undefined`. -/
abbrev JsVal := Option JsDoc

namespace JsNumber

/-- The value of a finite number. -/
def value : JsNumber → Option ℚ
  | finite x => some (if x.neg then -x.mag else x.mag)
  | infinite _ => none

/-- The integer of a number that is one. -/
def int? (n : JsNumber) : Option ℤ := n.value.bind fun q => if q.den = 1 then some q.num else none

/-- `String(n)` -/
def text : JsNumber → String
  | finite x => String.ofList x.jsText.render
  | infinite neg => if neg then "-Infinity" else "Infinity"

end JsNumber

namespace JsVal

/-- `v.key` -/
def prop (v : JsVal) (key : String) : Except String JsVal :=
  match v with
  | none => .error ("Cannot read properties of undefined (reading '" ++ key ++ "')")
  | some .null => .error ("Cannot read properties of null (reading '" ++ key ++ "')")
  | some (.obj fs) => .ok (Dict.get? key fs)
  | some _ => .ok none

/-- Whether a value counts as true. -/
def truthy : JsVal → Bool
  | none => false
  | some .null => false
  | some (.bool b) => b
  | some (.num n) => n.value ≠ some 0
  | some (.str s) => s ≠ ""
  | some (.arr _) => true
  | some (.obj _) => true

/-- `v || w` -/
def or (v w : JsVal) : JsVal := if truthy v then v else w

/-- `{}` -/
def empty : JsVal := some (.obj [])

/-- `v && v.key` -/
def andProp (v : JsVal) (key : String) : Except String JsVal := if truthy v then prop v key else .ok v

/-- `v == null` -/
def isNullish : JsVal → Bool
  | none => true
  | some .null => true
  | some _ => false

/-- `v === s` for a text. -/
def isStr (v : JsVal) (s : String) : Bool :=
  match v with
  | some (.str t) => t = s
  | _ => false

/-- `v === true` -/
def isTrue : JsVal → Bool
  | some (.bool true) => true
  | _ => false

/-- `v === false` -/
def isFalse : JsVal → Bool
  | some (.bool false) => true
  | _ => false

/-- `v && typeof v === 'object'` -/
def isObject : JsVal → Bool
  | some (.arr _) => true
  | some (.obj _) => true
  | _ => false

/-- The elements of an array. -/
def elements? : JsVal → Option (List JsDoc)
  | some (.arr xs) => some xs
  | _ => none

mutual

/-- `String(v)`. An object without a `toString` of its own is `[object Object]`; a `toString` that came from a document cannot be
called, and then the object has no text. -/
def docText : JsDoc → Except String String
  | .null => .ok "null"
  | .bool b => .ok (if b then "true" else "false")
  | .num n => .ok n.text
  | .str s => .ok s
  | .arr xs => (elementTexts xs).map fun ts => ",".intercalate ts
  | .obj fs =>
    if (Dict.get? "toString" fs).isSome then .error "Cannot convert object to primitive value" else .ok "[object Object]"

/-- The texts of the elements of an array; `null` has none. -/
def elementTexts : List JsDoc → Except String (List String)
  | [] => .ok []
  | .null :: xs => (elementTexts xs).map fun ts => "" :: ts
  | x :: xs =>
    match docText x, elementTexts xs with
    | .ok t, .ok ts => .ok (t :: ts)
    | .error e, _ => .error e
    | _, .error e => .error e

end

/-- `String(v)` -/
def text : JsVal → Except String String
  | none => .ok "undefined"
  | some v => docText v

/-- The characters `trim` removes. -/
def isSpace (c : Char) : Bool :=
  let n := c.toNat
  (9 ≤ n && n ≤ 13) || n = 32 || n = 0xa0 || n = 0x1680 || (0x2000 ≤ n && n ≤ 0x200a) || n = 0x2028 || n = 0x2029 ||
    n = 0x202f || n = 0x205f || n = 0x3000 || n = 0xfeff

/-- `s.trim()` -/
def trim (s : String) : String := String.ofList (((s.toList.dropWhile isSpace).reverse.dropWhile isSpace).reverse)

/-- `s.length`: a character beyond the first plane counts as two. -/
def utf16Length (s : String) : ℕ := (s.toList.map fun c => if c.toNat < 0x10000 then 1 else 2).sum

end JsVal

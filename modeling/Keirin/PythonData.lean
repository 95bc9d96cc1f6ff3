import Keirin.Datetime
import Keirin.Lib.JsonText
import Keirin.Lib.JsonSort
import Keirin.Lib.Sha256

/-!
# Comparing and encoding values

`==` compares numbers by their value, whatever their type, and mappings whatever the order of their keys. The text of a value
with sorted keys tells the types apart; its digest stands for the value in the reports.
-/

namespace Keirin

/-! ## Exceptions -/

/-- `str(exc)` -/
def PyError.text : PyError → String
  | .valueError m => m
  | .typeError m => m
  | .keyError key => "'" ++ key ++ "'"
  | .attributeError m => m
  | .overflowError m => m
  | .runtimeError m => m
  | .osError m => m
  | .csvError m => m

/-- `int(...)` to a double, which fails beyond the range of the doubles. -/
def floatOfInt (n : ℤ) : Except PyError ℚ :=
  if Binary64.roundMag |(n : ℚ)| < 2 ^ 1024 then .ok (roundRat n) else .error (.overflowError "int too large to convert to float")

/-- A value that must be there. -/
def require {α : Type} (x : Option α) (message : String) : Except PyError α :=
  match x with
  | some a => .ok a
  | none => .error (.valueError message)

theorem require_ok {α : Type} {x : Option α} {message : String} {a : α} : require x message = .ok a ↔ x = some a := by
  cases x <;> simp [require]

/-! ## Equality -/

/-- The value of a finite number. -/
def Scalar.value : Scalar → Option ℚ
  | int n => some n
  | float x => some (if x.neg then -x.mag else x.mag)
  | _ => none

namespace Doc

/-- The number of a value; a truth value is one or zero. -/
def number : Doc → Option Scalar
  | .bool b => some (.int (if b then 1 else 0))
  | .num n => some n
  | _ => none

/-- `==` for values that are neither texts nor containers. The NaN of the JSON reader is one object, and the elements of a
container are first compared by identity, so it counts as equal to itself. -/
def eqNumber (v w : Doc) : Bool :=
  match number v, number w with
  | some m, some n =>
    match m.value, n.value with
    | some p, some q => p = q
    | none, none => m = n
    | _, _ => false
  | _, _ => false

mutual

/-- `v == w` -/
def pyEq : Doc → Doc → Bool
  | .null, w => w = .null
  | .str s, w => w = .str s
  | .arr xs, w =>
    match w with
    | .arr ys => pyEqList xs ys
    | _ => false
  | .obj fs, w =>
    match w with
    | .obj gs => fs.length = gs.length && pyEqFields fs gs
    | _ => false
  | .bool b, w => eqNumber (.bool b) w
  | .num n, w => eqNumber (.num n) w

def pyEqList : List Doc → List Doc → Bool
  | [], [] => true
  | x :: xs, y :: ys => pyEq x y && pyEqList xs ys
  | _, _ => false

/-- Every field of one mapping has an equal one in the other. -/
def pyEqFields : List (String × Doc) → List (String × Doc) → Bool
  | [], _ => true
  | (k, x) :: fs, gs =>
    match Dict.get? k gs with
    | some y => pyEq x y && pyEqFields fs gs
    | none => false

end

/-- A text of one of two equal mappings is that of the other. -/
theorem get?_str_of_pyEqFields {fs gs : Dict Doc} (h : pyEqFields fs gs = true) {key s : String}
    (hs : Dict.get? key fs = some (.str s)) : Dict.get? key gs = some (.str s) := by
  induction fs with
  | nil => nomatch hs
  | cons f fs ih =>
    obtain ⟨k, x⟩ := f
    unfold pyEqFields at h
    cases hk : Dict.get? k gs with
    | none => simp [hk] at h
    | some y =>
      rw [hk] at h
      simp only [Bool.and_eq_true] at h
      obtain ⟨hxy, htail⟩ := h
      by_cases hkey : k = key
      · subst hkey
        simp only [Dict.get?, if_true, Option.some.injEq] at hs
        subst hs
        have hy : y = .str s := by simpa [pyEq] using hxy
        rw [hk, hy]
      · rw [Dict.get?, if_neg hkey] at hs
        exact ih htail hs

/-- A text of one of two equal mappings is that of the other. -/
theorem get?_str_of_pyEq {fs gs : Dict Doc} (h : pyEq (.obj fs) (.obj gs) = true) {key s : String}
    (hs : Dict.get? key fs = some (.str s)) : Dict.get? key gs = some (.str s) := by
  simp only [pyEq, Bool.and_eq_true] at h
  exact get?_str_of_pyEqFields h.2 hs

/-! ## Texts -/

/-- `isinstance(v, str) and v.strip()` -/
def isText : Doc → Bool
  | .str s => !isBlank s
  | _ => false

/-- The text of a value that is a text. -/
def text? : Doc → Option String
  | .str s => some s
  | _ => none

/-- The numbers `type(v) is int`. -/
def int? : Doc → Option ℤ
  | .num (.int n) => some n
  | _ => none

/-- The elements of a value that is a list. -/
def elements? : Doc → Option (List Doc)
  | .arr xs => some xs
  | _ => none

/-- The entries of a value that is a mapping. -/
def entries : Doc → Dict Doc
  | .obj fs => fs
  | _ => []

/-- `v.get(name)` for a mapping. -/
def field (v : Doc) (name : String) : Doc := (v.get? name).getD .null

/-- The check of `json.dumps` with `allow_nan=False`. -/
def checkFinite (v : Doc) : Except PyError Unit :=
  if encodable v = false then .error (.typeError "Object is not JSON serializable")
  else if finite v = false then .error (.valueError "Out of range float values are not JSON compliant")
  else .ok ()

/-- The escape of a character beyond the printable ones of ASCII; beyond the first plane it is a pair of surrogates. -/
def asciiChar (c : Char) : List Char :=
  let hex (n : ℕ) := ['\\', 'u', Json.hexDigit (n / 4096), Json.hexDigit (n / 256 % 16), Json.hexDigit (n / 16 % 16),
    Json.hexDigit (n % 16)]
  let n := c.toNat
  if n < 127 then [c]
  else if n < 0x10000 then hex n
  else hex (0xd800 + (n - 0x10000) / 0x400) ++ hex (0xdc00 + (n - 0x10000) % 0x400)

/-- The text `ensure_ascii=True` makes of a JSON text. -/
def ascii (text : List Char) : List Char := text.flatMap asciiChar

/-- `json.dumps(v, sort_keys=True, allow_nan=False)` -/
def sortedText (v : Doc) : Except PyError (List Char) := do
  checkFinite v
  return ascii (v.sortKeys.spaced [' '] Scalar.text)

end Doc

/-- The time of a text in ISO format with an offset. -/
def timestamp : Doc → Except PyError ℚ
  | .str s =>
    match Datetime.fromisoformat (zuluOffset s) with
    | none => .error (.valueError "Invalid isoformat string")
    | some dt =>
      if dt.utcoffset.isNone then .error (.valueError "timestamp_timezone_missing") else .ok dt.timestamp
  | _ => .error (.valueError "timestamp_missing")

/-- `raw.decode("utf-8")` -/
def decodeUtf8 (raw : List ℕ) : Except PyError String :=
  match String.fromUTF8? ⟨(raw.map UInt8.ofNat).toArray⟩ with
  | some s => .ok s
  | none => .error (.valueError "utf-8 codec can't decode")

/-- `hashlib.sha256(json.dumps(record, sort_keys=True, ensure_ascii=False, allow_nan=False, separators=(",", ":")).encode())` -/
def digest (record : Doc) : Except PyError String := do
  Doc.checkFinite record
  return String.ofList (Sha256.hexdigest (Text.utf8 (record.dumps Scalar.text)))

/-! ## Parts of values -/

/-- `r[key]` -/
def subscript (r : Doc) (key : String) : Except PyError Doc :=
  match r with
  | .obj fs =>
    match Dict.get? key fs with
    | some v => .ok v
    | none => .error (.keyError key)
  | .arr _ => .error (.typeError "list indices must be integers or slices, not str")
  | .str _ => .error (.typeError "string indices must be integers, not 'str'")
  | _ => .error (.typeError "object is not subscriptable")

/-- Whether a value can be in a set. -/
def Doc.hashable : Doc → Bool
  | .arr _ => false
  | .obj _ => false
  | _ => true

/-- `v.get(key)`, which only a mapping has. -/
def Doc.pyGet (v : Doc) (key : String) : Except PyError Doc :=
  match v with
  | .obj fs => .ok (Dict.getD fs key .null)
  | _ => .error (.attributeError "get")

/-- `v or {}` -/
def Doc.orEmpty (v : Doc) : Doc := Doc.orElse v (.obj [])

/-! ## Records of races -/

/-- The race of a record that has one: a text that is not blank. -/
def raceOf : Doc → Option (String × Dict Doc)
  | .obj fs => ((Doc.text? (Dict.getD fs "race_id" .null)).filter fun s => !isBlank s).map fun key => (key, fs)
  | _ => none

/-- The records of a race, in their order. -/
def recordsOf (key : String) (records : List Doc) : List (Dict Doc) :=
  ((records.filterMap raceOf).filter fun r => r.1 = key).map Prod.snd

theorem recordsOf_append (key : String) (rs rs' : List Doc) : recordsOf key (rs ++ rs') = recordsOf key rs ++ recordsOf key rs' := by
  simp [recordsOf]

theorem recordsOf_singleton (key : String) (record : Doc) :
    recordsOf key [record] = ((raceOf record).filter fun r => r.1 = key).toList.map Prod.snd := by
  cases h : raceOf record with
  | none => simp [recordsOf, h]
  | some r => by_cases hk : r.1 = key <;> simp [recordsOf, h, hk, Option.filter]

/-- What is known of a record with a race. -/
theorem raceOf_eq_some {record : Doc} {key : String} {fs : Dict Doc} (h : raceOf record = some (key, fs)) :
    record = .obj fs ∧ Doc.text? (Dict.getD fs "race_id" .null) = some key ∧ isBlank key = false := by
  cases record with
  | obj gs =>
    simp only [raceOf, Option.map_eq_some_iff, Option.filter_eq_some_iff] at h
    obtain ⟨s, ⟨hs, hblank⟩, he⟩ := h
    cases he
    exact ⟨rfl, hs, by simpa using hblank⟩
  | _ => nomatch h

end Keirin

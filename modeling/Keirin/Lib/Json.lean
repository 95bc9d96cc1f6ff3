import Keirin.Lib.Dict
import Keirin.Lib.Text
import Mathlib.Data.List.Sort

/-!
# Documents

A document over a type of numbers: null, a truth value, a number, a text, an array, or an object, which is a list of
fields in the order they were written. The text of a document is written without blanks; written with sorted keys it does
not depend on the order of the fields, and a document is determined by that text.
-/

/-- A document whose numbers are of type `ν`. -/
inductive Json (ν : Type) : Type
  | null
  | bool (b : Bool)
  | num (n : ν)
  | str (s : String)
  | arr (xs : List (Json ν))
  | obj (fields : List (String × Json ν))

namespace Json

variable {ν μ : Type}

/-! ## Equality -/

section Equality

variable [DecidableEq ν]

mutual

/-- Whether two documents are equal. -/
def beq : Json ν → Json ν → Bool
  | null, null => true
  | bool a, bool b => a == b
  | num m, num n => m == n
  | str s, str t => s == t
  | arr xs, arr ys => beqList xs ys
  | obj fs, obj gs => beqFields fs gs
  | _, _ => false

def beqList : List (Json ν) → List (Json ν) → Bool
  | [], [] => true
  | x :: xs, y :: ys => beq x y && beqList xs ys
  | _, _ => false

def beqFields : List (String × Json ν) → List (String × Json ν) → Bool
  | [], [] => true
  | (k, x) :: fs, (l, y) :: gs => k == l && beq x y && beqFields fs gs
  | _, _ => false

end

attribute [grind =] beq beqList beqFields

mutual

theorem beq_iff (a b : Json ν) : beq a b = true ↔ a = b := by
  match a, b with
  | null, b => cases b <;> simp [beq]
  | bool p, b => cases b <;> simp [beq]
  | num m, b => cases b <;> simp [beq]
  | str s, b => cases b <;> simp [beq]
  | arr xs, b =>
    cases b with
    | arr ys => simp [beq, beqList_iff xs ys]
    | _ => simp [beq]
  | obj fs, b =>
    cases b with
    | obj gs => simp [beq, beqFields_iff fs gs]
    | _ => simp [beq]

theorem beqList_iff (xs ys : List (Json ν)) : beqList xs ys = true ↔ xs = ys := by
  match xs, ys with
  | [], [] => simp [beqList]
  | [], y :: ys => simp [beqList]
  | x :: xs, [] => simp [beqList]
  | x :: xs, y :: ys => simp [beqList, beq_iff x y, beqList_iff xs ys]

theorem beqFields_iff (fs gs : List (String × Json ν)) : beqFields fs gs = true ↔ fs = gs := by
  match fs, gs with
  | [], [] => simp [beqFields]
  | [], (l, y) :: gs => simp [beqFields]
  | (k, x) :: fs, [] => simp [beqFields]
  | (k, x) :: fs, (l, y) :: gs => simp [beqFields, beq_iff x y, beqFields_iff fs gs]

end

instance : DecidableEq (Json ν) := fun a b => decidable_of_iff _ (beq_iff a b)

end Equality

/-! ## Fields -/

/-- The value of a field; a document that is not an object has none. -/
def get? (j : Json ν) (key : String) : Option (Json ν) :=
  match j with
  | obj fs => Dict.get? key fs
  | _ => none

/-! ## Numbers -/

mutual

/-- Replace every number by a document. -/
def bindNum (f : ν → Json μ) : Json ν → Json μ
  | null => null
  | bool b => bool b
  | num n => f n
  | str s => str s
  | arr xs => arr (bindNumList f xs)
  | obj fs => obj (bindNumFields f fs)

def bindNumList (f : ν → Json μ) : List (Json ν) → List (Json μ)
  | [] => []
  | x :: xs => bindNum f x :: bindNumList f xs

def bindNumFields (f : ν → Json μ) : List (String × Json ν) → List (String × Json μ)
  | [] => []
  | (k, x) :: fs => (k, bindNum f x) :: bindNumFields f fs

end

attribute [grind =] bindNum bindNumList bindNumFields

mutual

/-- Whether every number of a document satisfies `p`. -/
def allNum (p : ν → Bool) : Json ν → Bool
  | num n => p n
  | arr xs => allNumList p xs
  | obj fs => allNumFields p fs
  | null => true
  | bool _ => true
  | str _ => true

def allNumList (p : ν → Bool) : List (Json ν) → Bool
  | [] => true
  | x :: xs => allNum p x && allNumList p xs

def allNumFields (p : ν → Bool) : List (String × Json ν) → Bool
  | [] => true
  | (_, x) :: fs => allNum p x && allNumFields p fs

end

attribute [grind =] allNum allNumList allNumFields

/-! ## Text -/

/-- The hexadecimal digit of a number below sixteen. -/
def hexDigit (n : Nat) : Char := Nat.digitChar n

/-- A character of a text, escaped where it is a quotation mark, a backslash or a control character. -/
def escapeChar (c : Char) : List Char :=
  if c = '"' then ['\\', '"']
  else if c = '\\' then ['\\', '\\']
  else if c = '\n' then ['\\', 'n']
  else if c = '\r' then ['\\', 'r']
  else if c = '\t' then ['\\', 't']
  else if c = '\x08' then ['\\', 'b']
  else if c = '\x0c' then ['\\', 'f']
  else if c.toNat < 32 then ['\\', 'u', '0', '0', hexDigit (c.toNat / 16), hexDigit (c.toNat % 16)]
  else [c]

/-- A text between quotation marks. -/
def quote (s : String) : List Char := '"' :: (s.toList.flatMap escapeChar ++ ['"'])

mutual

/-- The text of a document, the fields of its objects in their order. -/
def render (numText : ν → List Char) : Json ν → List Char
  | null => ['n', 'u', 'l', 'l']
  | bool true => ['t', 'r', 'u', 'e']
  | bool false => ['f', 'a', 'l', 's', 'e']
  | num n => numText n
  | str s => quote s
  | arr xs => '[' :: renderList numText xs
  | obj fs => '{' :: renderFields numText fs

/-- The elements of an array, up to the closing bracket. -/
def renderList (numText : ν → List Char) : List (Json ν) → List Char
  | [] => [']']
  | [x] => render numText x ++ [']']
  | x :: y :: xs => render numText x ++ ',' :: renderList numText (y :: xs)

/-- The fields of an object, up to the closing brace. -/
def renderFields (numText : ν → List Char) : List (String × Json ν) → List Char
  | [] => ['}']
  | [(k, x)] => quote k ++ ':' :: (render numText x ++ ['}'])
  | (k, x) :: f :: fs => quote k ++ ':' :: (render numText x ++ ',' :: renderFields numText (f :: fs))

end

attribute [grind =] render renderList renderFields

mutual

/-- Sort the fields of every object by their keys. -/
def sortKeys : Json ν → Json ν
  | arr xs => arr (sortKeysList xs)
  | obj fs => obj ((sortKeysFields fs).insertionSort (fun a b => a.1 ≤ b.1))
  | null => null
  | bool b => bool b
  | num n => num n
  | str s => str s

def sortKeysList : List (Json ν) → List (Json ν)
  | [] => []
  | x :: xs => sortKeys x :: sortKeysList xs

def sortKeysFields : List (String × Json ν) → List (String × Json ν)
  | [] => []
  | (k, x) :: fs => (k, sortKeys x) :: sortKeysFields fs

end

attribute [grind =] sortKeys sortKeysList sortKeysFields

/-- The text of a document with sorted keys. -/
def dumps (numText : ν → List Char) (j : Json ν) : List Char := (sortKeys j).render numText

end Json

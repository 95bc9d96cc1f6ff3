import Mathlib.Tactic

/-!
# Texts that can be split

A text is split where a run of characters of one class ends. The lemmas here say when what was joined can be told apart
again; the readers of number literals and of documents rest on them.
-/

namespace Text

/-- The text `r` does not go on with a character of the class `P`. -/
def Stops (P : Char → Bool) (r : List Char) : Prop := ∀ c ∈ r.head?, P c = false

@[simp] theorem stops_nil (P : Char → Bool) : Stops P [] := by simp [Stops]

@[simp] theorem stops_cons (P : Char → Bool) (c : Char) (r : List Char) : Stops P (c :: r) ↔ P c = false := by
  simp [Stops]

/-- A run of characters of a class ends where a text goes on with another character. -/
theorem takeWhile_run {P : Char → Bool} {a r : List Char} (ha : ∀ c ∈ a, P c = true) (hr : Stops P r) :
    (a ++ r).takeWhile P = a := by
  rw [List.takeWhile_append_of_pos ha]
  cases r with
  | nil => simp
  | cons c r => simp [(stops_cons P c r).1 hr]

/-- Two texts that begin with a run of one class begin with the same run. -/
theorem run_inj {P : Char → Bool} {a b r s : List Char} (ha : ∀ c ∈ a, P c = true) (hb : ∀ c ∈ b, P c = true)
    (hr : Stops P r) (hs : Stops P s) (h : a ++ r = b ++ s) : a = b ∧ r = s := by
  have hab : a = b := by rw [← takeWhile_run ha hr, h, takeWhile_run hb hs]
  exact ⟨hab, List.append_cancel_left (hab ▸ h)⟩

/-- A letter or a digit of ASCII. -/
def isAlnum (c : Char) : Bool := c.isDigit || ('A' ≤ c && c ≤ 'Z') || ('a' ≤ c && c ≤ 'z')

/-- A name: a letter or a digit, and up to 127 characters more, which may also be among `more`. -/
def isName (more : List Char) (s : String) : Bool :=
  match s.toList with
  | [] => false
  | c :: cs => isAlnum c && cs.all (fun c => isAlnum c || c ∈ more) && cs.length ≤ 127

/-- The bytes of a text. -/
def utf8 (cs : List Char) : List Nat := cs.flatMap (fun c => (String.utf8EncodeChar c).map UInt8.toNat)

end Text

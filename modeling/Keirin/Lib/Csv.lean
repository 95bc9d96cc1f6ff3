import Mathlib.Tactic

/-!
# Reading CSV

The reader of comma-separated values with quoted fields, as a machine that is given the characters of one line after another and the
end of each line. A record may take several lines; it carries the number of the lines read so far. Nothing is read after an error.
-/

namespace Csv

/-! ## Lines -/

/-- The lines of a text with their ends, each of which is a line feed, a carriage return or both; `line` is the line so far. -/
def splitLines : (line : List Char) → List Char → List (List Char)
  | line, [] => if line = [] then [] else [line]
  | line, '\r' :: '\n' :: cs => (line ++ ['\r', '\n']) :: splitLines [] cs
  | line, c :: cs => if c = '\n' ∨ c = '\r' then (line ++ [c]) :: splitLines [] cs else splitLines (line ++ [c]) cs

/-! ## The machine -/

inductive State
  | startRecord
  | startField
  | inField
  | inQuotedField
  | quoteInQuotedField
  | eatCrnl
deriving DecidableEq

/-- What has been read of a record: the fields that are complete, and the field that is not. -/
structure Parse where
  state : State := .startRecord
  fields : List String := []
  field : List Char := []
deriving DecidableEq

namespace Parse

/-- `field_size_limit` -/
def fieldLimit : ℕ := 131072

def saveField (p : Parse) (state : State) : Parse := { state := state, fields := p.fields ++ [String.ofList p.field], field := [] }

def addChar (p : Parse) (state : State) (c : Char) : Except String Parse :=
  if fieldLimit ≤ p.field.length then .error "field larger than field limit (131072)"
  else .ok { p with state := state, field := p.field ++ [c] }

/-- The start of a field. -/
def startField (p : Parse) : Option Char → Except String Parse
  | none => .ok (p.saveField .startRecord)
  | some c =>
    if c = '\n' ∨ c = '\r' then .ok (p.saveField .eatCrnl)
    else if c = '"' then .ok { p with state := .inQuotedField }
    else if c = ',' then .ok (p.saveField .startField)
    else p.addChar .inField c

/-- One character, or the end of a line. -/
def step (p : Parse) (c : Option Char) : Except String Parse :=
  match p.state, c with
  | .startRecord, none => .ok p
  | .startRecord, some c =>
    if c = '\n' ∨ c = '\r' then .ok { p with state := .eatCrnl } else startField { p with state := .startField } (some c)
  | .startField, c => p.startField c
  | .inField, none => .ok (p.saveField .startRecord)
  | .inField, some c =>
    if c = '\n' ∨ c = '\r' then .ok (p.saveField .eatCrnl)
    else if c = ',' then .ok (p.saveField .startField)
    else p.addChar .inField c
  | .inQuotedField, none => .ok p
  | .inQuotedField, some c => if c = '"' then .ok { p with state := .quoteInQuotedField } else p.addChar .inQuotedField c
  | .quoteInQuotedField, none => .ok (p.saveField .startRecord)
  | .quoteInQuotedField, some c =>
    if c = '"' then p.addChar .inQuotedField c
    else if c = ',' then .ok (p.saveField .startField)
    else if c = '\n' ∨ c = '\r' then .ok (p.saveField .eatCrnl)
    else .error "',' expected after '\"'"
  | .eatCrnl, none => .ok { p with state := .startRecord }
  | .eatCrnl, some c =>
    if c = '\n' ∨ c = '\r' then .ok p
    else .error "new-line character seen in unquoted field - do you need to open the file with newline=''?"

/-- A line and its end. -/
def line (p : Parse) (cs : List Char) : Except String Parse := do
  let p ← cs.foldlM (fun p c => p.step (some c)) p
  p.step none

end Parse

/-! ## Records -/

/-- The fields of a record, and the number of the lines read with it. -/
structure Record where
  fields : List String
  lineNum : ℕ

/-- The records of the lines, each with the lines before it counted; `p` is what has been read of a record. -/
def records : (lineNum : ℕ) → Parse → List (List Char) → List (Except String Record)
  | _, p, [] => if p.state = .inQuotedField ∨ p.field ≠ [] then [.error "unexpected end of data"] else []
  | n, p, cs :: lines =>
    match p.line cs with
    | .error e => [.error e]
    | .ok p => if p.state = .startRecord then .ok ⟨p.fields, n + 1⟩ :: records (n + 1) {} lines else records (n + 1) p lines

/-- The records that are not blank. One after blank records has the number of the lines read with the first of them, which is
`first`. -/
def rows : (first : Option ℕ) → List (Except String Record) → List (Except String Record)
  | _, [] => []
  | _, .error e :: rs => .error e :: rows none rs
  | first, .ok r :: rs =>
    if r.fields = [] then rows (some (first.getD r.lineNum)) rs else .ok ⟨r.fields, first.getD r.lineNum⟩ :: rows none rs

/-- The records of a text. -/
def read (text : String) : List (Except String Record) := records 0 {} (splitLines [] text.toList)

/-- The first record, and the others that are not blank. -/
def header (rs : List (Except String Record)) : Except String (List String × List (Except String Record)) :=
  match rs with
  | [] => .ok ([], [])
  | .error e :: _ => .error e
  | .ok r :: rs => .ok (r.fields, rows none rs)

/-! ## The line numbers -/

/-- The number of the lines read with a record, if it could be read. -/
def lineNum? (r : Except String Record) : Option ℕ := r.toOption.map Record.lineNum

/-- The records end at later and later lines. -/
theorem lines_records (lines : List (List Char)) (n : ℕ) (p : Parse) :
    ((records n p lines).filterMap lineNum?).Pairwise (· < ·) ∧ ∀ m ∈ (records n p lines).filterMap lineNum?, n < m := by
  induction lines generalizing n p with
  | nil =>
    have hnone : (records n p []).filterMap lineNum? = [] := by
      rw [records]
      split_ifs
      · rfl
      · rfl
    rw [hnone]
    exact ⟨.nil, fun _ h => (nomatch h)⟩
  | cons cs lines ih =>
    rw [records]
    cases p.line cs with
    | error e => exact ⟨.nil, fun _ h => (nomatch h)⟩
    | ok p =>
      simp only
      split_ifs with hstart
      · obtain ⟨hpair, hlater⟩ := ih (n + 1) {}
        have hcons : ((.ok ⟨p.fields, n + 1⟩ : Except String Record) :: records (n + 1) {} lines).filterMap lineNum? =
            (n + 1) :: (records (n + 1) {} lines).filterMap lineNum? := rfl
        rw [hcons]
        refine ⟨List.pairwise_cons.2 ⟨hlater, hpair⟩, List.forall_mem_cons.2 ⟨Nat.lt_succ_self n, fun m hm => ?_⟩⟩
        exact (Nat.lt_succ_self n).trans (hlater m hm)
      · obtain ⟨hpair, hlater⟩ := ih (n + 1) p
        exact ⟨hpair, fun m hm => (Nat.lt_succ_self n).trans (hlater m hm)⟩

/-- The line of a row is that of a record. -/
theorem lines_rows (first : Option ℕ) (rs : List (Except String Record)) :
    ((rows first rs).filterMap lineNum?).Sublist (first.toList ++ rs.filterMap lineNum?) := by
  induction rs generalizing first with
  | nil => exact List.nil_sublist _
  | cons r rs ih =>
    cases r with
    | error e => exact (ih none).trans (List.sublist_append_right _ _)
    | ok r =>
      have hcons : ((.ok r : Except String Record) :: rs).filterMap lineNum? = r.lineNum :: rs.filterMap lineNum? := rfl
      rw [rows, hcons]
      split_ifs with hblank
      · cases first with
        | none => exact ih (some r.lineNum)
        | some n => exact (ih (some n)).trans ((List.sublist_cons_self _ _).cons_cons n)
      · cases first with
        | none => exact (ih none).cons_cons _
        | some n => exact ((ih none).cons _).cons_cons n

/-- The rows under the header of a text stand at different lines. -/
theorem lines_header {text : String} {columns : List String} {rs : List (Except String Record)} (h : header (read text) = .ok (columns, rs)) :
    (rs.filterMap lineNum?).Pairwise (· < ·) := by
  have hpair := (lines_records (splitLines [] text.toList) 0 {}).1
  unfold header read at h
  split at h
  · cases h
    exact .nil
  · nomatch h
  · rename_i r rest hread
    cases h
    rw [hread] at hpair
    exact (List.Pairwise.of_cons hpair).sublist (lines_rows none rest)

end Csv

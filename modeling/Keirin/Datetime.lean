import Keirin.Python

/-!
# Times

The times of the reports are texts in ISO format. `fromisoformat` reads the formats Python reads: a calendar date or a week
date, with or without hyphens, any one character between date and time, a fraction of which six digits count, and an offset.
The time as a number is the double next to the exact number of seconds since 1970.
-/

namespace Keirin

/-! ## Arithmetic of doubles -/

/-- The double next to a rational number, zero having one sign; it may exceed the range of the doubles. -/
def roundRat (q : ℚ) : ℚ := if q < 0 then -Binary64.roundMag (-q) else Binary64.roundMag q

/-- A rational number as the double next to it; beyond the range of the doubles it is an infinity. -/
def Scalar.ofRat (q : ℚ) : Scalar :=
  match Binary64.ofMag (decide (q < 0)) |q| with
  | some x => .float x
  | none => .inf (decide (q < 0))

/-- A date and time; the date is the number of days up to it in the calendar that starts with the year 1, the times are in
microseconds. -/
structure Datetime where
  ordinal : ℕ
  micros : ℕ
  utcoffset : Option ℤ
deriving DecidableEq

namespace Datetime

/-! ## The calendar -/

def isLeap (year : ℕ) : Bool := year % 4 = 0 && (year % 100 ≠ 0 || year % 400 = 0)

def daysInMonth (year month : ℕ) : ℕ :=
  if month = 2 then if isLeap year then 29 else 28
  else if month ∈ [4, 6, 9, 11] then 30
  else 31

def daysBeforeYear (year : ℕ) : ℕ := (year - 1) * 365 + (year - 1) / 4 - (year - 1) / 100 + (year - 1) / 400

def daysBeforeMonth (year month : ℕ) : ℕ := ((List.range' 1 (month - 1)).map (daysInMonth year)).sum

/-- The days up to the last of the year 9999. -/
def maxOrdinal : ℕ := 3652059

/-- The days up to a calendar date, where there is one. -/
def ofYmd (year month day : ℕ) : Option ℕ :=
  if 1 ≤ year ∧ 1 ≤ month ∧ month ≤ 12 ∧ 1 ≤ day ∧ day ≤ daysInMonth year month then
    some (daysBeforeYear year + daysBeforeMonth year month + day)
  else none

/-- The days up to the Monday of the first week of a year: the week with its first Thursday. -/
def isoWeek1Monday (year : ℕ) : ℤ :=
  let firstday : ℤ := daysBeforeYear year + 1
  let weekday := (firstday + 6) % 7
  let monday := firstday - weekday
  if 3 < weekday then monday + 7 else monday

/-- Whether a year has a 53rd week. -/
def longYear (year : ℕ) : Bool :=
  let weekday := (daysBeforeYear year + 7) % 7
  weekday = 3 || (weekday = 2 && isLeap year)

/-- The days up to a week date, where there is one. -/
def ofIsoWeek (year week day : ℕ) : Option ℕ :=
  if 1 ≤ year ∧ 1 ≤ week ∧ (week ≤ 52 ∨ (week = 53 ∧ longYear year = true)) ∧ 1 ≤ day ∧ day ≤ 7 then
    let ordinal := isoWeek1Monday year + (week - 1) * 7 + (day - 1)
    if 1 ≤ ordinal ∧ ordinal ≤ maxOrdinal then some ordinal.toNat else none
  else none

/-! ## Reading -/

/-- Exactly `n` digits, before the number `acc` of the digits already read. -/
def readDigits (acc : ℕ) : ℕ → List Char → Option (ℕ × List Char)
  | 0, s => some (acc, s)
  | n + 1, c :: s => if c.isDigit then readDigits (10 * acc + (c.toNat - 48)) n s else none
  | _ + 1, [] => none

/-- Where the date ends; the formats differ at the fifth and sixth character, and a week date without its day is told from one
with it by the number of digits that follow. -/
def separatorPosition (s : List Char) : ℕ :=
  if s.length = 7 then 7
  else if s.getD 4 ' ' = '-' then
    if s.getD 5 ' ' = 'W' then
      if s.getD 8 ' ' = '-' then
        if 10 < s.length ∧ (s.getD 10 ' ').isDigit then 8 else 10
      else 8
    else 10
  else if s.getD 4 ' ' = 'W' then
    let digits := ((s.drop 7).takeWhile Char.isDigit).length
    if digits < 2 then 7 + digits else if digits % 2 = 1 then 7 else 8
  else 8

/-- The date of a text. -/
def readDate (s : List Char) : Option ℕ := do
  let (year, s) ← readDigits 0 4 s
  let hyphens := s.head? = some '-'
  let s := if hyphens then s.tail else s
  match s with
  | 'W' :: s => do
    let (week, s) ← readDigits 0 2 s
    if s.isEmpty then ofIsoWeek year week 1
    else if hyphens ∧ s.head? ≠ some '-' then none
    else do
      let (day, _) ← readDigits 0 1 (if hyphens then s.tail else s)
      ofIsoWeek year week day
  | s => do
    let (month, s) ← readDigits 0 2 s
    if hyphens ∧ s.head? ≠ some '-' then none
    else do
      let (day, _) ← readDigits 0 2 (if hyphens then s.tail else s)
      ofYmd year month day

/-- A time as it is written: hours, minutes, seconds, the fraction in microseconds, and whether anything follows it. -/
structure Clock where
  hour : ℕ
  minute : ℕ
  second : ℕ
  microsecond : ℕ
  more : Bool

/-- The microseconds of a time. -/
def Clock.micros (t : Clock) : ℕ := ((t.hour * 60 + t.minute) * 60 + t.second) * 1000000 + t.microsecond

/-- The fraction of a second, of which six digits count; further digits are skipped. -/
def readFraction (s : List Char) : Option (ℕ × Bool) := do
  let (fraction, rest) ← readDigits 0 (min 6 s.length) s
  some (fraction * 10 ^ (6 - min 6 s.length), !rest.all Char.isDigit)

/-- The time whose hours, minutes and seconds are given as far as they were read. -/
def clockOf (parts : List ℕ) (fraction : ℕ × Bool) : Clock :=
  ⟨parts.getD 0 0, parts.getD 1 0, parts.getD 2 0, fraction.1, fraction.2⟩

/-- Hours, minutes and seconds of two digits each, `n` of them still to come; the first separator says whether there are
separators, and what follows the last one is the fraction. -/
def readParts (colons : Bool) (parts : List ℕ) : ℕ → List Char → Option Clock
  | 0, s => (readFraction s).map (clockOf parts)
  | n + 1, s => do
    let (part, s) ← readDigits 0 2 s
    match s with
    | [] => some (clockOf (parts ++ [part]) (0, false))
    | [_] => some (clockOf (parts ++ [part]) (0, true))
    | c :: rest =>
      let colons := if parts.isEmpty then decide (c = ':') else colons
      if colons ∧ c = ':' then readParts colons (parts ++ [part]) n rest
      else if c = '.' ∨ c = ',' then (readFraction rest).map (clockOf (parts ++ [part]))
      else if colons then none
      else readParts colons (parts ++ [part]) n (c :: rest)

/-- The time of the day in microseconds; `last` where no offset follows, so that the text must end with it. -/
def timeOfDay (last : Bool) (s : List Char) : Option ℕ := do
  let t ← readParts false [] 3 s
  if t.hour < 24 ∧ t.minute < 60 ∧ t.second < 60 ∧ (last = true → t.more = false) then some t.micros else none

/-- The offset from UTC: its absolute value is below a day. -/
def readOffset (neg : Bool) (s : List Char) : Option ℤ := do
  let t ← readParts false [] 3 s
  if t.micros < 86400000000 ∧ t.more = false then some (if neg then -(t.micros : ℤ) else t.micros) else none

/-- Whether a character starts the offset. -/
def startsOffset (c : Char) : Bool := c = '+' || c = '-' || c = 'Z'

/-- The time and the offset of a text. -/
def readTimeAndOffset (s : List Char) : Option (ℕ × Option ℤ) := do
  let offset := s.dropWhile fun c => !startsOffset c
  let micros ← timeOfDay offset.isEmpty (s.takeWhile fun c => !startsOffset c)
  match offset with
  | [] => some (micros, none)
  | 'Z' :: rest => if rest.isEmpty then some (micros, some 0) else none
  | c :: rest => (readOffset (decide (c = '-')) rest).map fun offset => (micros, some offset)

/-- `datetime.fromisoformat(s)` -/
def fromisoformat (s : String) : Option Datetime := do
  let cs := s.toList
  if cs.length < 7 then none
  else do
    let ordinal ← readDate (cs.take (separatorPosition cs))
    match cs.drop (separatorPosition cs) with
    | [] => some ⟨ordinal, 0, none⟩
    | _ :: time => do
      let (micros, offset) ← readTimeAndOffset time
      some ⟨ordinal, micros, offset⟩

/-- The microseconds since 1970. -/
def epochMicros (dt : Datetime) : ℤ := ((dt.ordinal : ℤ) - 719163) * 86400000000 + dt.micros - dt.utcoffset.getD 0

/-- `dt.timestamp()` for a time with an offset. -/
def timestamp (dt : Datetime) : ℚ := roundRat ((dt.epochMicros : ℚ) / 1000000)

end Datetime

/-- `value.replace("Z", "+00:00")` -/
def zuluOffset (s : String) : String :=
  String.ofList (s.toList.flatMap fun c => if c = 'Z' then ['+', '0', '0', ':', '0', '0'] else [c])

end Keirin

import Keirin.PythonData
import Keirin.Lib.Distinct
import Mathlib.Data.String.Basic

/-!
# Payout candidates

`historical_payouts.py`: the rows of the files are grouped by race, without repetition, and each race becomes a candidate: its
finish and its payouts where they agree with one another, or the reason why it is quarantined.
-/

namespace Keirin

namespace HistoricalPayouts

/-! ## Reading values -/

/-- `type(v).__name__` -/
def typeName : Doc → String
  | .null => "NoneType"
  | .bool _ => "bool"
  | .num (.int _) => "int"
  | .num (.object _) => "object"
  | .num _ => "float"
  | .str _ => "str"
  | .arr _ => "list"
  | .obj _ => "dict"

/-- The text a pattern is matched against. -/
def matchable : Doc → Except PyError String
  | .str s => .ok s
  | v => .error (.typeError ("expected string or bytes-like object, got '" ++ typeName v ++ "'"))

/-- `raise ValueError(message)` where the condition fails. -/
def demand (condition : Bool) (message : String) : Except PyError Unit := raiseIf (condition = false) (.valueError message)

/-- A digit of ASCII that is not zero. -/
def carDigit (c : Char) : Option ℕ := if '1' ≤ c ∧ c ≤ '9' then some (c.toNat - 48) else none

/-- The value of a text of one such digit. -/
def carText (cs : List Char) : Option ℕ :=
  match cs with
  | [c] => carDigit c
  | _ => none

/-- `_car` -/
def car (v : Doc) : Except PyError ℕ :=
  match (Doc.text? v).bind fun s => carText s.toList with
  | some n => .ok n
  | none => .error (.valueError "invalid_car_or_rank")

/-- `re.fullmatch(r"[0-9]+", s)` -/
def isDigits (s : String) : Bool := s ≠ "" && s.toList.all Char.isDigit

/-- The value of a text of digits. -/
def digitsValue (cs : List Char) : ℕ := cs.foldl (fun n c => 10 * n + (c.toNat - 48)) 0

/-- `int(s)` for a text of digits, of which there may be at most so many. -/
def intOfDigits (cs : List Char) : Except PyError ℤ :=
  if cs.length ≤ 4300 then .ok (digitsValue cs)
  else .error (.valueError ("Exceeds the limit (4300 digits) for integer string conversion: value has " ++ toString cs.length ++
    " digits; use sys.set_int_max_str_digits() to increase the limit"))

/-- `x in` a mapping with keys that are texts. -/
def isKey (v : Doc) : Except PyError (Option String) :=
  match v with
  | .str s => .ok (some s)
  | v => if v.hashable then .ok none else .error (.typeError ("unhashable type: '" ++ typeName v ++ "'"))

/-- `a + b` after a text. -/
def concatText (a : String) (b : Doc) : Except PyError String :=
  match b with
  | .str s => .ok (a ++ s)
  | v => .error (.typeError ("can only concatenate str (not \"" ++ typeName v ++ "\") to str"))

/-! ## The finish -/

/-- `NONFINISH` -/
def NONFINISH : Dict String := [("欠場", "DNS"), ("落車", "DNF"), ("故障", "DNF"), ("失格", "DSQ")]

structure Participant where
  carNumber : ℕ
  riderId : String
  finishRank : Option ℕ
  status : String

/-- A number, or `None`. -/
def ofRank : Option ℕ → Doc
  | some n => .num (.int n)
  | none => .null

def Participant.toDoc (p : Participant) : Doc :=
  .obj [("car_number", .num (.int p.carNumber)), ("rider_id", .str p.riderId), ("finish_rank", ofRank p.finishRank),
    ("status", .str p.status)]

/-- What `_result_groups` has gathered. -/
structure Gathered where
  cars : List ℕ := []
  ids : List String := []
  ranks : List (ℕ × ℕ) := []
  participants : List Participant := []
  changes : List Doc := []

/-- The identity of a player. -/
def playerIdentity (row : Doc) : Except PyError String := do
  let v ← subscript row "Player_ID"
  let identity := (Doc.text? v).getD ""
  demand ((Doc.text? v).isSome && isDigits identity) "player_identity_missing"
  return identity

/-- The rank and the status of a row, an abbreviated fault spelled out, with the change noted. -/
def rankAndStatus (row : Doc) (carNumber : ℕ) : Except PyError (Doc × Doc × List Doc) := do
  let rank ← subscript row "Rank"
  let status ← subscript row "Status"
  if rank = .str "故" ∧ status = .str "" then do
    let source ← digest row
    return (.str "", .str "故障", [.obj [("field", .str "Rank/Status"), ("original", .arr [.str "故", .str ""]),
      ("normalized", .arr [.null, .str "DNF"]), ("car_number", .num (.int carNumber)),
      ("rule", .str "explicit_fault_abbreviation"), ("source_row_sha256", .str source)]])
  else return (rank, status, [])

/-- The rank of a row that has a finish, and the state. -/
def finishOf (rank status : Doc) (size : ℕ) : Except PyError (Option ℕ × String) :=
  if status = .str "" then do
    let n ← car rank
    demand (n ≤ size) "rank_outside_roster"
    return (some n, "FINISHED")
  else do
    let key ← isKey status
    match key.bind fun s => Dict.get? s NONFINISH with
    | some state =>
      if rank = .str "" then .ok (none, state) else .error (.valueError "unknown_or_conflicting_finish_status")
    | none => .error (.valueError "unknown_or_conflicting_finish_status")

/-- One row of the results. -/
def gatherRow (size : ℕ) (g : Gathered) (row : Doc) : Except PyError Gathered := do
  let v ← subscript row "Car"
  let carNumber ← car v
  let identity ← playerIdentity row
  demand (decide (carNumber ∉ g.cars ∧ identity ∉ g.ids)) "duplicate_car_or_player_result"
  let found ← rankAndStatus row carNumber
  let finish ← finishOf found.1 found.2.1 size
  return { cars := g.cars ++ [carNumber], ids := g.ids ++ [identity],
           ranks := g.ranks ++ (finish.1.map fun n => (n, carNumber)).toList,
           participants := g.participants ++ [⟨carNumber, "keirindb:" ++ identity, finish.1, finish.2⟩],
           changes := g.changes ++ found.2.2 }

def gatherRows (size : ℕ) (g : Gathered) : List Doc → Except PyError Gathered
  | [] => .ok g
  | row :: rows => do
    let g ← gatherRow size g row
    gatherRows size g rows

/-- The cars of each rank, the ranks in their order; each rank is one more than the cars before it. -/
def rankGroups (ranks : List (ℕ × ℕ)) : (expected : ℕ) → List ℕ → Except PyError (List (List ℕ))
  | _, [] => .ok []
  | expected, rank :: rest => do
    demand (rank = expected) "incomplete_or_invalid_competition_ranks"
    let group := (ranks.filter fun r => r.1 = rank).map Prod.snd
    let groups ← rankGroups ranks (expected + group.length) rest
    return group.insertionSort (· ≤ ·) :: groups

/-- `_result_groups` -/
def resultGroups (rows : List Doc) : Except PyError (List (List ℕ) × List Participant × List Doc) := do
  demand (3 ≤ rows.length && rows.length ≤ 9) "result_roster_size_invalid"
  let g ← gatherRows rows.length {} rows
  let groups ← rankGroups g.ranks 1 ((g.ranks.map Prod.fst).dedup.insertionSort (· ≤ ·))
  return (groups, g.participants.insertionSort (fun a b => a.carNumber ≤ b.carNumber), g.changes)

/-! ## The payouts -/

/-- `permutations(group, n)` for distinct cars. -/
def selections : ℕ → List ℕ → List (List ℕ)
  | 0, _ => [[]]
  | n + 1, group => group.flatMap fun c => (selections n (group.erase c)).map (c :: ·)

/-- The ways to fill so many positions, group by group. -/
def arrange : ℕ → List (List ℕ) → List (List ℕ)
  | _, [] => [[]]
  | 0, _ :: _ => [[]]
  | n + 1, group :: groups =>
    let take := min (n + 1) group.length
    (selections take group).flatMap fun first => (arrange (n + 1 - take) groups).map (first ++ ·)

/-- `_outcomes`: a set, given by its elements. -/
def outcomes (groups : List (List ℕ)) (width : ℕ) : List (List ℕ) :=
  if (groups.map List.length).sum < width then [] else (arrange width groups).dedup

/-- The cars of a text, which are separated by hyphens. -/
def literalCars (width : ℕ) (cs : List Char) : Option (List ℕ) :=
  ((cs.splitOn '-').mapM carText).filter fun cars => cars.length = width

/-- The cars of a text a spreadsheet made a date of two cars. -/
def exactaDate (cs : List Char) : Option (List ℕ) :=
  match cs with
  | [a, '月', b, '日'] => [a, b].mapM carDigit
  | _ => none

/-- The cars of a text a spreadsheet made a date of three cars. -/
def trifectaDate (cs : List Char) : Option (List ℕ) :=
  match cs with
  | ['2', '0', '0', a, '/', b, '/', c] => [a, b, c].mapM carDigit
  | _ => none

/-- The cars of an outcome, and the rule that read them. -/
def readOutcome (width : ℕ) (cs : List Char) : Option (List ℕ × String) :=
  match literalCars width cs with
  | some cars => some (cars, "literal_ordered_combination")
  | none =>
    if width = 2 then (exactaDate cs).map fun cars => (cars, "date_like_exacta_candidate")
    else if width = 3 then (trifectaDate cs).map fun cars => (cars, "date_like_trifecta_candidate")
    else none

/-- `_parse_ordered` -/
def parseOrdered (raw : Doc) (width : ℕ) : Except PyError (List ℕ × String) := do
  let s ← matchable raw
  let read ← require (readOutcome width s.toList) "unsupported_ordered_outcome_format"
  demand (read.1.dedup.length = width) "duplicate_car_in_outcome"
  return read

/-- The digits of an amount, with a comma before every three of them or with none. -/
def isAmount (cs : List Char) : Bool :=
  match cs.splitOn ',' with
  | [] => false
  | first :: rest =>
    (first.all Char.isDigit && first.head?.any (· ≠ '0')) &&
      (rest.isEmpty || first.length ≤ 3) && rest.all fun part => part.length = 3 && part.all Char.isDigit

/-- `_money` -/
def money (raw : Doc) : Except PyError ℤ := do
  let s ← matchable raw
  demand (isAmount s.toList) "invalid_payout_amount"
  intOfDigits (s.toList.filter (· ≠ ','))

/-- A payout: its cars and its amount. -/
structure Payout where
  combination : List ℕ
  payoutYen : ℤ

def Payout.toDoc (p : Payout) : Doc :=
  .obj [("combination", .arr (p.combination.map fun (c : ℕ) => .num (.int c))), ("payout_yen", .num (.int p.payoutYen))]

/-- A settlement of one kind of bet. -/
structure Settlement where
  status : String
  outcomes : List Payout
  changes : List Doc

def Settlement.toDoc (s : Settlement) : Doc :=
  .obj [("status", .str s.status), ("outcomes", .arr (s.outcomes.map Payout.toDoc)), ("changes", .arr s.changes)]

/-- The text of a combination. -/
def combinationText (cars : List ℕ) : String := "-".intercalate (cars.map toString)

/-- The note of an outcome that was not read literally. -/
def changeOf (row raw : Doc) (cars : List ℕ) (rule : String) : Except PyError (List Doc) :=
  if rule = "literal_ordered_combination" then .ok []
  else do
    let source ← digest row
    return [.obj [("field", .str "Outcome"), ("original", raw), ("normalized", .str (combinationText cars)), ("rule", .str rule),
      ("source_row_sha256", .str source)]]

/-- The payouts of the rows, in their order, with the notes. -/
def payoutsOf (expected : List (List ℕ)) (width : ℕ) : (found : List (List ℕ)) → List Doc → Except PyError (List Payout × List Doc)
  | _, [] => .ok ([], [])
  | found, row :: rows => do
    let raw ← subscript row "Outcome"
    let read ← parseOrdered raw width
    demand (decide (read.1 ∈ expected)) "payout_disagrees_with_finish_order"
    demand (decide (read.1 ∉ found)) "duplicate_payout_outcome"
    let paid ← subscript row "Payout"
    let amount ← money paid
    let change ← changeOf row raw read.1 read.2
    let rest ← payoutsOf expected width (read.1 :: found) rows
    return (⟨read.1, amount⟩ :: rest.1, change ++ rest.2)

/-- One row that refunds everything. -/
def fullRefund (rows : List Doc) : Except PyError Bool :=
  match rows with
  | [row] => do
    let outcome ← subscript row "Outcome"
    let payout ← subscript row "Payout"
    return Doc.pyEq outcome payout && payout = .str "全返還"
  | _ => .ok false

/-- The order of combinations of one width. -/
def combinationKey (cars : List ℕ) : ℕ := cars.foldl (fun n c => 10 * n + c) 0

/-- `_settlement` -/
def settlement (rows : List Doc) (groups : List (List ℕ)) (width : ℕ) : Except PyError Settlement := do
  let expected := outcomes groups width
  demand (!rows.isEmpty) "ordered_payout_missing"
  if expected.isEmpty then do
    let refund ← fullRefund rows
    demand refund "insufficient_finishers_without_explicit_full_refund"
    return ⟨"full_refund", [], []⟩
  else do
    let paid ← payoutsOf expected width [] rows
    demand (expected.all fun cars => decide (cars ∈ paid.1.map Payout.combination)) "missing_tied_payout_outcome"
    return ⟨if 1 < expected.length then "dead_heat" else "ordinary",
      paid.1.insertionSort (fun a b => combinationKey a.combination ≤ combinationKey b.combination), paid.2⟩

/-! ## Dates -/

/-- Two digits as a number. -/
def twoDigits (a b : Char) : ℕ := 10 * (a.toNat - 48) + (b.toNat - 48)

/-- What `%m` can match at the front of a text of digits, the first choice first. -/
def monthMatches (cs : List Char) : List (ℕ × List Char) :=
  match cs with
  | [] => []
  | [a] => if a = '0' then [] else [(a.toNat - 48, [])]
  | a :: b :: rest =>
    (if 1 ≤ twoDigits a b ∧ twoDigits a b ≤ 12 then [(twoDigits a b, rest)] else []) ++
      if a = '0' then [] else [(a.toNat - 48, b :: rest)]

/-- What `%d` can match at the front of a text of digits. -/
def dayMatches (cs : List Char) : List (ℕ × List Char) :=
  match cs with
  | [] => []
  | [a] => if a = '0' then [] else [(a.toNat - 48, [])]
  | a :: b :: rest =>
    (if 1 ≤ twoDigits a b ∧ twoDigits a b ≤ 31 then [(twoDigits a b, rest)] else []) ++
      if a = '0' then [] else [(a.toNat - 48, b :: rest)]

/-- The date of a text of eight digits, as `strptime` with `%Y%m%d` reads it. -/
def raceDate (s : String) : Except PyError String :=
  let cs := s.toList
  let year := digitsValue (cs.take 4)
  let found := (monthMatches (cs.drop 4)).flatMap fun m => (dayMatches m.2).map fun d => (m.1, d.1, d.2)
  match found with
  | [] => .error (.valueError ("time data '" ++ s ++ "' does not match format '%Y%m%d'"))
  | (month, day, rest) :: _ =>
    if rest ≠ [] then .error (.valueError ("unconverted data remains: " ++ String.ofList rest))
    else if year = 0 then .error (.valueError "year 0 is out of range")
    else if Datetime.daysInMonth year month < day then .error (.valueError "day is out of range for month")
    else .ok (String.ofList (cs.take 4 ++ '-' :: (cs.drop 4).take 2 ++ '-' :: cs.drop 6))

/-- `re.fullmatch(r"[1-9]|1[0-2]", s)` -/
def raceNumber (s : String) : Option ℕ :=
  match s.toList with
  | [c] => carDigit c
  | ['1', c] => if c = '0' ∨ c = '1' ∨ c = '2' then some (10 + (c.toNat - 48)) else none
  | _ => none

/-! ## Candidates -/

/-- The race of a row. -/
def raceKey (row : Doc) : String := ((row.get? "Race_ID").bind Doc.text?).getD ""

/-- The check of the race of a row. -/
def checkRace (missing : String) (row : Doc) : Except PyError Unit :=
  match row with
  | .obj _ => demand (((row.get? "Race_ID").bind Doc.text?).any fun s => !isBlank s) missing
  | _ => .error (.valueError missing)

/-- The fingerprint of a row that has a race. -/
def fingerprint (missing : String) (row : Doc) : Except PyError String := do
  checkRace missing row
  digest row

/-- The rows of a race. -/
def rowsOf (key : String) (rows : List Doc) : List Doc := rows.filter fun row => raceKey row = key

/-- The rows of a bet. -/
def betRows (bet : String) : List Doc → Except PyError (List Doc)
  | [] => .ok []
  | row :: rows => do
    let kind ← subscript row "Bet_Type"
    let rest ← betRows bet rows
    return if kind = .str bet then row :: rest else rest

/-- The fields a race that is consistent adds to its candidate. -/
def consistentFields (key : String) (info results payoffs : List Doc) : Except PyError (Dict Doc) := do
  let metadata ← require (match info with
    | [m] => some m
    | _ => none) "missing_or_conflicting_race_info"
  let status ← subscript metadata "Race_Status"
  demand (status = .str "held") "held_race_required"
  let date ← subscript metadata "Date"
  let date ← matchable date
  demand (date.toList.length = 8 && isDigits date) "invalid_race_date"
  let isoDate ← raceDate date
  let number ← subscript metadata "Race_Number"
  let number ← matchable number
  let n ← require (raceNumber number) "invalid_race_number"
  let venue ← subscript metadata "Venue"
  let place ← concatText (date ++ "_") venue
  demand (key = place ++ number) "race_identity_disagrees_with_metadata"
  let unit ← subscript metadata "Unit"
  let size ← car unit
  demand (size = results.length) "result_roster_incomplete"
  let found ← resultGroups results
  let exactaRows ← betRows "2車単" payoffs
  let exacta ← settlement exactaRows found.1 2
  let trifectaRows ← betRows "3連単" payoffs
  let trifecta ← settlement trifectaRows found.1 3
  return [("normalization_status", .str "internally_consistent_candidate"), ("race_date", .str isoDate), ("venue", venue),
    ("race_number", .num (.int n)), ("participants", .arr (found.2.1.map Participant.toDoc)),
    ("finish_order_groups", .arr (found.1.map fun g => .arr (g.map fun (c : ℕ) => .num (.int c)))),
    ("listed_result_roster_count", .num (.int found.2.1.length)),
    ("actual_starters", .num (.int (found.2.1.filter fun p => p.status ≠ "DNS").length)),
    ("settlements", .obj [("2車単", exacta.toDoc), ("3連単", trifecta.toDoc)]), ("result_status_changes", .arr found.2.2)]

/-- `except (ValueError, TypeError, KeyError)` -/
def caught : PyError → Bool
  | .valueError _ => true
  | .typeError _ => true
  | .keyError _ => true
  | _ => false

/-- The outcome of a `try`: the value, or the text of an error of the kinds that are caught. -/
def attempt {α : Type} (caught : PyError → Bool) (x : Except PyError α) : Except PyError (α ⊕ String) :=
  match x with
  | .ok a => .ok (.inl a)
  | .error e => if caught e then .ok (.inr e.text) else .error e

/-- A candidate before anything was checked. -/
def blankCandidate (key rawDigest : String) (raw : Doc) : Dict Doc :=
  [("race_id", .str key), ("raw", raw), ("raw_sha256", .str rawDigest), ("normalization_status", .str "quarantined"),
    ("reasons", .arr []), ("external_source_verified", .bool false), ("training_approved", .bool false),
    ("feature_as_of", .null), ("result_available_at", .null), ("pre_race_state_verified", .bool false),
    ("pre_race_features", .arr []), ("prospective", .bool false)]

/-- The candidate with what the `try` brought. -/
def settleCandidate (item : Dict Doc) : Dict Doc ⊕ String → Dict Doc
  | .inl fields => Dict.update item fields
  | .inr reason => Dict.set "reasons" (.arr [.str reason]) item

/-- The rows of a race, of each file. -/
def rawRows (info results payoffs : List Doc) : Doc :=
  .obj [("info", .arr info), ("results", .arr results), ("payoffs", .arr payoffs)]

/-- The candidate of a race. -/
def candidate (key : String) (info results payoffs : List Doc) : Except PyError (Dict Doc) := do
  let rawDigest ← digest (rawRows info results payoffs)
  let tried ← attempt caught (consistentFields key info results payoffs)
  let item := settleCandidate (blankCandidate key rawDigest (rawRows info results payoffs)) tried
  let d ← digest (.obj item)
  return Dict.set "candidate_sha256" (.str d) item

/-- The races of the rows, sorted. -/
def raceKeys (rows : List Doc) : List String := (rows.map raceKey).dedup.insertionSort (· ≤ ·)

/-- `dict(Counter(xs))`, the elements in the order they first appear. -/
def counter (xs : List String) : Doc :=
  .obj (xs.reverse.dedup.reverse.map fun x => (x, .num (.int (xs.count x))))

/-- A field of the candidates that have it, as a text. -/
def textsAt (path : List String) (records : List (Dict Doc)) : List String :=
  records.filterMap fun r => (path.foldl (fun (v : Option Doc) key => v.bind fun v => v.get? key) (some (.obj r))).bind Doc.text?

/-- `normalize` -/
def normalize (info results payoffs : List Doc) : Except PyError Doc := do
  let i ← Distinct.keep (fingerprint "race_id_missing") [] info
  let r ← Distinct.keep (fingerprint "race_id_missing") [] results
  let p ← Distinct.keep (fingerprint "race_id_missing") [] payoffs
  let records ← (raceKeys (i ++ r ++ p)).mapM fun key => candidate key (rowsOf key i) (rowsOf key r) (rowsOf key p)
  let dropped : Dict Doc := ([("info", info.length - i.length), ("results", results.length - r.length),
    ("payoffs", payoffs.length - p.length)].filter fun d => d.2 ≠ 0).map fun d => (d.1, .num (.int d.2))
  return .obj [("schema_version", .str "historical-payout-candidates-v1"), ("records", .arr (records.map .obj)),
    ("summary", .obj [("unique_races", .num (.int records.length)),
      ("normalization_status_counts", counter (textsAt ["normalization_status"] records)),
      ("identical_duplicate_rows_ignored", .obj dropped),
      ("trifecta_settlement_counts", counter (textsAt ["settlements", "3連単", "status"] records)),
      ("external_source_verified_races", .num (.int 0)), ("training_eligible_races", .num (.int 0)),
      ("training_runs", .num (.int 0))]),
    ("production_enabled", .bool false), ("automatic_collection_enabled", .bool false)]

end HistoricalPayouts

end Keirin

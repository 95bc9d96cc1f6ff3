import Keirin.PythonData
import Mathlib.Data.List.Sort

/-!
# Recent form

`historical_form.build`: the recent results of the riders of a target race, from a list of reviewed past races. The list is
first grouped by race, an equal second record being a duplicate and an unequal one a conflict; then each race is examined and
is usable or excluded; the features are taken from the usable races, in the order of their starts.
-/

namespace Keirin.HistoricalForm

open Doc (int?)

/-! ## Rosters -/

/-- Whether an identity has a namespace: a text on either side of its first colon. -/
def namespaced (identity : String) : Bool :=
  let l := identity.toList
  l.contains ':' && !(l.takeWhile (· ≠ ':')).all isSpace && !((l.dropWhile (· ≠ ':')).drop 1).all isSpace

/-- A row of a roster whose car and identity have been checked. -/
structure Rider where
  car : ℤ
  identity : String
  row : Dict Doc

/-- The checks on a row of a roster. -/
def rider (row : Doc) : Except PyError Rider :=
  match row with
  | .obj fs =>
    match int? (Dict.getD fs "car_number" .null), Doc.text? (Dict.getD fs "rider_id" .null) with
    | some car, identity =>
      if ¬(1 ≤ car ∧ car ≤ 9) then .error (.valueError "invalid_car_number")
      else match identity with
        | some identity =>
          if isBlank identity ∨ namespaced identity = false then .error (.valueError "namespaced_rider_identity_required")
          else .ok ⟨car, identity, fs⟩
        | none => .error (.valueError "namespaced_rider_identity_required")
    | none, _ => .error (.valueError "invalid_car_number")
  | _ => .error (.valueError "invalid_rider")

/-- `_roster`: three to nine rows, no car and no identity twice. -/
def roster (rows : Doc) : Except PyError (List Rider) :=
  match rows with
  | .arr xs => do
    raiseIf (¬(3 ≤ xs.length ∧ xs.length ≤ 9)) (.valueError "invalid_roster_size")
    let riders ← xs.mapM rider
    raiseIf (¬(riders.map Rider.car).Nodup ∨ ¬(riders.map Rider.identity).Nodup) (.valueError "duplicate_car_or_rider_identity")
    return riders
  | _ => .error (.valueError "invalid_roster_size")

/-! ## The races of the history -/

/-- The records of the history grouped by race: the first record of each race, the races with an unequal second record, what
was left out, and the number of equal second records. -/
structure Grouped where
  seen : Dict (Dict Doc) := []
  conflicts : List String := []
  excluded : List Doc := []
  duplicates : ℕ := 0

def exclusion (raceId : Doc) (reason : String) : Doc := .obj [("race_id", raceId), ("reason", .str reason)]

/-- One record of the history. -/
def groupRecord (g : Grouped) (record : Doc) : Grouped :=
  match raceOf record with
  | none => { g with excluded := g.excluded ++ [exclusion .null "invalid_history_record"] }
  | some (key, fs) =>
    match Dict.get? key g.seen with
    | some first =>
      if Doc.pyEq (.obj fs) (.obj first) then { g with duplicates := g.duplicates + 1 }
      else { g with conflicts := g.conflicts ++ [key] }
    | none => { g with seen := Dict.set key fs g.seen }

/-- The history, record by record. -/
def group (history : List Doc) : Grouped := history.foldl groupRecord {}

/-- The target race, as far as the history is examined against it. -/
structure Window where
  raceId : String
  cutoff : ℚ
  lower : ℚ

/-- A race that counts. -/
structure Usable where
  start : ℚ
  key : String
  record : Dict Doc
  participants : List Rider
  sha256 : String

/-- The rank of a participant, none where he was not classified; `n` riders took part. -/
def finishRank (n : ℕ) (p : Rider) : Except PyError (Option ℤ) :=
  let rank := Dict.getD p.row "finish_rank" .null
  if Dict.getD p.row "status" .null = .str "FINISHED" then
    match int? rank with
    | some r => if 1 ≤ r ∧ r ≤ n then .ok (some r) else .error (.valueError "invalid_finish_rank")
    | none => .error (.valueError "invalid_finish_rank")
  else if Dict.getD p.row "status" .null ∉ ([.str "DNF", .str "DSQ", .str "DNS"] : List Doc) ∨ rank ≠ .null then
    .error (.valueError "invalid_finish_status")
  else .ok none

/-- Competition ranks keep ties: after two firsts comes a third. -/
def finishOrder (nextRank : ℤ) : List (ℤ × ℕ) → Except PyError Unit
  | [] => .ok ()
  | (rank, count) :: ranks => do
    raiseIf (rank ≠ nextRank) (.valueError "incomplete_or_invalid_finish_order")
    finishOrder (nextRank + count) ranks

/-- `Counter(xs)`, in the order of first appearance. -/
def tally {α : Type} [DecidableEq α] (xs : List α) : List (α × ℕ) := xs.eraseDups.map fun x => (x, xs.count x)

/-- The checks on the first record of a race, in the order of the source. -/
def examine (w : Window) (conflicts : List String) (key : String) (record : Dict Doc) : Except PyError Usable := do
  let field (name : String) : Doc := Dict.getD record name .null
  raiseIf (key = w.raceId) (.valueError "target_result_excluded")
  raiseIf (key ∈ conflicts) (.valueError "conflicting_history_race")
  raiseIf (field "race_status" ≠ .str "completed") (.valueError "completed_race_required")
  raiseIf ((field "result_time_evidence").isText = false) (.valueError "result_time_evidence_required")
  raiseIf ((field "identity_evidence").isText = false) (.valueError "identity_evidence_required")
  raiseIf ((field "source_use_evidence").isText = false) (.valueError "source_use_evidence_required")
  let start ← timestamp (field "race_start_at")
  let available ← timestamp (field "result_available_at")
  raiseIf (available < start) (.valueError "result_precedes_race")
  raiseIf (¬(w.lower ≤ start ∧ start < w.cutoff)) (.valueError "outside_race_window")
  raiseIf (w.cutoff ≤ available) (.valueError "result_not_available_before_cutoff")
  let participants ← roster (field "participants")
  let ranks ← participants.mapM (finishRank participants.length)
  finishOrder 1 ((tally (ranks.filterMap id)).insertionSort fun a b => a.1 ≤ b.1)
  let sha256 ← digest (.obj record)
  return ⟨start, key, record, participants, sha256⟩

/-- `except (ValueError, TypeError, KeyError, OverflowError)` -/
def caught : PyError → Bool
  | .valueError _ => true
  | .typeError _ => true
  | .keyError _ => true
  | .overflowError _ => true
  | _ => false

/-- The races one by one: those that count, and those that are excluded. -/
def sift (w : Window) (conflicts : List String) : Dict (Dict Doc) → Except PyError (List Usable × List Doc)
  | [] => .ok ([], [])
  | (key, record) :: seen =>
    match examine w conflicts key record with
    | .ok u => (sift w conflicts seen).map fun r => (u :: r.1, r.2)
    | .error exc =>
      if caught exc then (sift w conflicts seen).map fun r => (r.1, exclusion (.str key) exc.text :: r.2)
      else .error exc

/-- The order of the races: by start, then by race. -/
def earlier (a b : Usable) : Prop := a.start < b.start ∨ (a.start = b.start ∧ a.key ≤ b.key)

instance : DecidableRel earlier := fun a b =>
  inferInstanceAs (Decidable (a.start < b.start ∨ (a.start = b.start ∧ a.key ≤ b.key)))

/-! ## Features -/

/-- The participant of a race with a rider's identity, unless he did not start. -/
def observe (identity : String) (u : Usable) : Option Rider :=
  (u.participants.find? fun p => p.identity = identity).filter fun p => Dict.getD p.row "status" .null ≠ .str "DNS"

/-- `100 * k / n`, and nothing where there are no starts. -/
def rate (k n : ℕ) : Doc := if n = 0 then .null else .num (.ofRat (100 * k / n))

/-- The row of an entrant. -/
def formRow (usable : List Usable) (entrant : Rider) : Doc :=
  let observations := usable.filterMap fun u => (observe entrant.identity u).map fun p => (u.key, p)
  let n := observations.length
  let status (p : Rider) : Doc := Dict.getD p.row "status" .null
  let ranked := observations.filterMap fun o =>
    if status o.2 = .str "FINISHED" then int? (Dict.getD o.2.row "finish_rank" .null) else none
  let values := [("recent_win_rate", rate (ranked.countP (· = 1)) n), ("recent_top2_rate", rate (ranked.countP (· ≤ 2)) n),
    ("recent_top3_rate", rate (ranked.countP (· ≤ 3)) n),
    ("recent_avg_finish", if ranked.isEmpty then .null else .num (.ofRat ((ranked.sum : ℚ) / ranked.length)))]
  .obj [("car_number", .num (.int entrant.car)), ("rider_id", .str entrant.identity), ("features", .obj values),
    ("starts", .num (.int n)), ("classified_finishes", .num (.int ranked.length)),
    ("status_counts", .obj ((tally (observations.filterMap fun o => Doc.text? (status o.2))).map fun c => (c.1, .num (.int c.2)))),
    ("history_race_ids", .arr (observations.map fun o => .str o.1))]

/-- What is recorded of a race that was used. -/
def provenanceOf (u : Usable) : Doc :=
  let field (name : String) : Doc := Dict.getD u.record name .null
  .obj [("race_id", .str u.key), ("record_sha256", .str u.sha256), ("result_available_at", field "result_available_at"),
    ("result_time_evidence", field "result_time_evidence"), ("identity_evidence", field "identity_evidence"),
    ("source_use_evidence", field "source_use_evidence")]

/-- The races that were used, in the order in which the entrants lead to them. -/
def provenance (usable : List Usable) (entrants : List Rider) : Dict Doc :=
  entrants.foldl (fun d entrant =>
    (usable.filter fun u => (observe entrant.identity u).isSome).foldl (fun d u => Dict.set u.key (provenanceOf u) d) d) []

/-! ## The report -/

/-- The checks on the target race and the history: the window, the entrants, the records and the days of the window. -/
def readTarget (target history windowDays : Doc) : Except PyError (Window × List Rider × List Doc × ℤ) := do
  let days ← require ((int? windowDays).filter (0 < ·)) "positive_window_days_required"
  let raceId ← require ((Doc.text? (target.field "race_id")).filter fun s => !isBlank s) "target_race_id_required"
  let records ← require history.elements? "history_array_required"
  raiseIf ((target.field "identity_evidence").isText = false) (.valueError "identity_evidence_required")
  raiseIf ((target.field "entry_time_evidence").isText = false) (.valueError "entry_time_evidence_required")
  let cutoff ← timestamp (target.field "feature_as_of")
  let scheduled ← timestamp (target.field "listed_scheduled_start_jst")
  raiseIf (scheduled ≤ cutoff) (.valueError "cutoff_must_precede_start")
  let entrants ← roster (target.field "riders")
  let span ← floatOfInt (days * 86400)
  return (⟨raceId, cutoff, roundRat (cutoff - span)⟩, entrants, records, days)

/-- `build` -/
def build (target history windowDays : Doc) : Except PyError Doc := do
  let (w, entrants, records, days) ← readTarget target history windowDays
  let g := group records
  let (races, rejected) ← sift w g.conflicts g.seen
  let usable := races.insertionSort earlier
  let sha256 ← digest target
  return .obj [("schema_version", .str "historical-form-candidates-v1"), ("target_race_id", .str w.raceId),
    ("target_sha256", .str sha256), ("feature_as_of", target.field "feature_as_of"),
    ("window_days", .num (.int days)), ("riders", .arr (entrants.map (formRow usable))),
    ("provenance", .arr ((provenance usable entrants).map Prod.snd)), ("excluded_history", .arr (g.excluded ++ rejected)),
    ("identical_duplicates", .num (.int g.duplicates)), ("rate_units", .str "percent_of_started_races"),
    ("average_finish_denominator", .str "classified_finishes_only"),
    ("history_coverage", .str "supplied_records_only_not_complete_career"), ("training_approved", .bool false),
    ("prospective", .bool false), ("training_runs", .num (.int 0)), ("production_enabled", .bool false)]

end Keirin.HistoricalForm

import Keirin.HistoricalEntrants
import Keirin.Lib.Csv
import Keirin.Lib.Grouped

/-!
# Detailed intake

`historical_details.py`: the rows of the files of a manifest, without repetition but with all their origins, attached to the races
they name. A row that cannot be trusted keeps the reasons, and a race with such a row is held back from the review.
-/

namespace Keirin

namespace HistoricalDetails

open HistoricalPayouts

/-! ## Columns -/

def CATALOG : Dict (List String) :=
  [("info", ["Race_ID", "Date", "Venue", "Race_Grade", "Program_Name", "Race_Timezone", "Race_Number", "Class", "Program", "Unit",
      "Weather", "Wind_Speed", "Race_Status"]),
   ("entrants", ["Race_ID", "Frame", "Car", "Status", "Player_Name", "Player_ID", "Points", "S", "B", "H", "Style", "Nige_Count",
      "Makuri_Count", "Sashi_Count", "Mark_Count", "Win_Count", "Second_Count", "Third_Count", "Out_Count", "Win_Rate", "Top2_Rate",
      "Top3_Rate", "Gear_Ratio", "Grade_Class", "Age", "Term", "Prefecture"]),
   ("results", ["Race_ID", "Rank", "Status", "Car", "Player_Name", "Player_ID", "Gap", "Lap_Time", "Decision", "SB"]),
   ("payoffs", ["Race_ID", "Bet_Type", "Outcome", "Payout", "Popularity"])]

def INT_FIELDS : List String :=
  ["Frame", "Car", "S", "B", "H", "Nige_Count", "Makuri_Count", "Sashi_Count", "Mark_Count", "Win_Count", "Second_Count",
    "Third_Count", "Out_Count", "Age", "Term", "Race_Number", "Unit"]

def FLOAT_FIELDS : List String := ["Points", "Win_Rate", "Top2_Rate", "Top3_Rate", "Gear_Ratio", "Wind_Speed"]

/-- The columns of `RATE_MAP`. -/
def rateColumns : List String := ["Win_Rate", "Top2_Rate", "Top3_Rate"]

def UNSUPPLIED_GROUPS : List String :=
  ["pre_race_lineup", "rider_comments", "timestamped_odds", "bank_geometry", "timestamped_pre_race_weather", "race_video",
    "training_and_equipment_changes"]

/-- The roles of the catalog. -/
def roles : List String := CATALOG.map Prod.fst

/-! ## Addresses -/

/-- What the intake reads of an address. -/
structure SplitResult where
  scheme : String
  hostname : Option String
  username : Option String
  password : Option String

/-- The text before the last separator, if there is one, and the text after it. -/
def rpartition (sep : Char) (cs : List Char) : Option (List Char) × List Char :=
  match cs.reverse.span (· ≠ sep) with
  | (after, []) => (none, after.reverse)
  | (after, _ :: before) => (some before.reverse, after.reverse)

/-- The text before the first separator, and the text after it, if there is one. -/
def partition (sep : Char) (cs : List Char) : List Char × Option (List Char) :=
  match cs.span (· ≠ sep) with
  | (before, []) => (before, none)
  | (before, _ :: after) => (before, some after)

/-- A character of a scheme. -/
def isSchemeChar (c : Char) : Bool := Text.isAlnum c || c = '+' || c = '-' || c = '.'

/-- The scheme of an address, and what follows it. -/
def splitScheme (cs : List Char) : List Char × List Char :=
  match partition ':' cs with
  | (scheme, some rest) =>
    if scheme.head?.any (fun c => Text.isAlnum c && !c.isDigit) && scheme.all isSchemeChar then (scheme.map Char.toLower, rest)
    else ([], cs)
  | _ => ([], cs)

/-- `urlsplit`; the checks of a network location against addresses in brackets and compatibility characters are `netloc`. -/
def urlsplit (netloc : String → Bool) (url : String) : Except PyError SplitResult := do
  let cs := (url.toList.dropWhile fun c => c.toNat ≤ 32).filter fun c => c ≠ '\t' && c ≠ '\r' && c ≠ '\n'
  let (scheme, rest) := splitScheme cs
  let location := match rest with
    | '/' :: '/' :: rest => rest.takeWhile fun c => c ≠ '/' && c ≠ '?' && c ≠ '#'
    | _ => []
  demand (decide ('[' ∈ location ↔ ']' ∈ location)) "Invalid IPv6 URL"
  demand (netloc (String.ofList location)) "invalid network location"
  let (userinfo, hostinfo) := rpartition '@' location
  let host := match partition '[' hostinfo with
    | (_, some bracketed) => (partition ']' bracketed).1
    | _ => (partition ':' hostinfo).1
  let user := userinfo.map (partition ':')
  return { scheme := String.ofList scheme, hostname := if host = [] then none else some (String.ofList host)
           username := user.map fun u => String.ofList u.1, password := user.bind fun u => u.2.map String.ofList }

/-- Whether a part of an address is there and is not empty. -/
def given (part : Option String) : Bool := part.any (· ≠ "")

/-! ## Sources -/

/-- A row of a source, with the line it ends at. -/
structure SourceRow where
  raw : Dict String
  lineEnd : ℕ

structure Source where
  role : String
  sha256 : String
  sourceUrl : String
  observedAt : Doc
  observationEvidence : String
  columns : List String
  rows : List SourceRow
  blankRowsIgnored : ℕ

/-- `data.decode("utf-8-sig")` -/
def decodeSig (data : List ℕ) : Except PyError String :=
  decodeUtf8 (if data.take 3 = [0xef, 0xbb, 0xbf] then data.drop 3 else data)

/-- The address of a file, which is parsed as a text. -/
def addressOf (v : Doc) : Except PyError String :=
  match v with
  | .str s => .ok s
  | v => if Doc.truthy v then .error (.attributeError "decode") else .ok ""

/-- What the reader gives, or its error. -/
def ofCsv {α : Type} (x : Except String α) : Except PyError α := x.mapError .csvError

/-- The check of the columns. -/
def checkColumns (columns : List String) : Except PyError Unit :=
  demand (decide (columns ≠ [] ∧ "Race_ID" ∈ columns ∧ columns.Nodup) && columns.all fun c => !isBlank c) "invalid_detail_header"

/-- The rows that are not blank, and the number of the others. -/
def readRows (columns : List String) : List (Except String Csv.Record) → Except PyError (List SourceRow × ℕ)
  | [] => .ok ([], 0)
  | r :: rs => do
    let record ← ofCsv r
    demand (record.fields.length = columns.length) "invalid_detail_row_width"
    let rest ← readRows columns rs
    if record.fields.all isBlank then return (rest.1, rest.2 + 1)
    else return (⟨columns.zip record.fields, record.lineNum⟩ :: rest.1, rest.2)

section Load

-- the files of the root by their relative paths, and the checks of a network location
variable (files : String → Option (List ℕ)) (netloc : String → Bool)

/-- One file of the manifest; `seen` are the roles and digests before it. -/
def loadSource (seen : List (String × String)) (spec : Doc) : Except PyError Source := do
  let role ← isKey (spec.field "role")
  let role ← require (role.filter fun role => decide (role ∈ roles)) "unsupported_source_role"
  demand (spec.field "provider" = .str "keirindb") "unsupported_provider"
  let path ← require (((spec.get? "path").bind Doc.text?).filter fun s => !isBlank s && s.toList.head? ≠ some '/')
    "relative_source_path_required"
  let data ← require (files path) "source_outside_root_or_missing"
  let address ← addressOf (spec.field "source_url")
  let url ← urlsplit netloc address
  demand (url.scheme = "https" && given url.hostname && !given url.username && !given url.password) "public_source_url_required"
  if spec.field "observed_at" ≠ .null then let _ ← timestamp (spec.field "observed_at")
  let evidence ← require (((spec.get? "observation_evidence").bind Doc.text?).filter fun s => !isBlank s)
    "observation_evidence_required"
  let sha := String.ofList (Sha256.hexdigest data)
  demand (spec.field "sha256" = .str sha) "source_digest_mismatch"
  demand (decide ((role, sha) ∉ seen)) "duplicate_source_file"
  let text ← decodeSig data
  let (columns, records) ← ofCsv (Csv.header (Csv.read text))
  checkColumns columns
  let (rows, blanks) ← readRows columns records
  return { role := role, sha256 := sha, sourceUrl := address, observedAt := spec.field "observed_at"
           observationEvidence := evidence, columns := columns, rows := rows, blankRowsIgnored := blanks }

def loadFiles : (seen : List (String × String)) → List Doc → Except PyError (List Source)
  | _, [] => .ok []
  | seen, spec :: specs => do
    let source ← loadSource files netloc seen spec
    let rest ← loadFiles ((source.role, source.sha256) :: seen) specs
    return source :: rest

/-- `load_sources` -/
def loadSources (manifest : Doc) : Except PyError (List Source) := do
  let schema ← manifest.pyGet "schema_version"
  demand (schema = .str "historical-detail-manifest-v1") "detail_manifest_required"
  let specs ← require ((manifest.field "files").elements?.filter (· ≠ [])) "source_files_required"
  loadFiles files netloc [] specs

end Load

/-! ## Cells -/

/-- What a column holds: its state, and the value where it has one. -/
structure Cell where
  state : String
  value : Doc

def Cell.toDoc (c : Cell) : Doc := .obj [("state", .str c.state), ("value", c.value)]

/-- The number of a numeric column. -/
def cellNumber (column value : String) : Except PyError Doc :=
  if column ∈ INT_FIELDS then do
    demand (isDigits value) "invalid_numeric"
    let n ← intOfDigits value.toList
    let _ ← floatOfInt n
    return .num (.int n)
  else do
    demand (HistoricalEntrants.isDecimalText value) "invalid_numeric"
    let number ← floatOfText value
    let v ← require number.value "invalid_numeric"
    demand (decide (column ∉ rateColumns ∨ v ≤ 100)) "invalid_numeric"
    return .num number

/-- `_cell` -/
def cell (column : String) (value : Option String) : Cell :=
  match value with
  | none => ⟨"absent", .null⟩
  | some value =>
    if value = "" then ⟨"blank", .null⟩
    else if column ∈ INT_FIELDS ∨ column ∈ FLOAT_FIELDS then
      match cellNumber column value with
      | .ok number => ⟨"value", number⟩
      | .error _ => ⟨"invalid", .null⟩
    else ⟨"value", .str value⟩

/-- The fields of the logical key of a role. -/
def keyFields (role : String) : List String :=
  if role = "info" then ["Race_ID"]
  else if role = "entrants" ∨ role = "results" then ["Race_ID", "Car"]
  else ["Race_ID", "Bet_Type", "Outcome"]

/-- `_key` -/
def logicalKey (role : String) (raw : Dict String) : List String := (keyFields role).map fun f => Dict.getD raw f ""

/-! ## Rows -/

/-- Where a row was found. -/
structure Origin where
  sha256 : String
  sourceUrl : String
  observedAt : Doc
  observationEvidence : String
  lineEnd : ℕ
deriving DecidableEq

/-- Rows of one content, with all their origins. -/
structure DetailRow where
  role : String
  raw : Dict String
  rawRowSha256 : String
  cells : Dict Cell
  origins : List Origin
  quarantineReasons : List String

/-- `raw["Race_ID"]`, which the header has. -/
def raceId (raw : Dict String) : String := Dict.getD raw "Race_ID" ""

def rawDoc (raw : Dict String) : Doc := .obj (raw.map fun f => (f.1, .str f.2))

/-- The origin of a row of a source. -/
def originOf (source : Source) (item : SourceRow) : Origin :=
  ⟨source.sha256, source.sourceUrl, source.observedAt, source.observationEvidence, item.lineEnd⟩

/-- The digest that stands for the content of a row of a role. -/
def fingerprint (role : String) (raw : Dict String) : Except PyError String := digest (.obj [("role", .str role), ("raw", rawDoc raw)])

/-- The cells of the columns of the catalog and of the row, sorted. -/
def cellsOf (role : String) (raw : Dict String) : Dict Cell :=
  ((Dict.getD CATALOG role [] ++ raw.map Prod.fst).dedup.insertionSort (· ≤ ·)).map fun c => (c, cell c (Dict.get? c raw))

/-- What speaks against a row by itself. -/
def rowReasons (role : String) (raw : Dict String) (cells : Dict Cell) : List String :=
  (if isBlank (raceId raw) then ["race_id_missing"] else []) ++
  (if role ∈ ["entrants", "results"] ∧ carText (Dict.getD raw "Car" "").toList = none then ["car_missing_or_invalid"] else []) ++
  if cells.any fun c => c.2.state = "invalid" then ["invalid_numeric_detail"] else []

/-- What has been collected: the rows by their fingerprints, the states of the columns, and the fingerprints of rows without a race. -/
structure Collected where
  unique : Dict DetailRow := []
  coverage : Dict (Dict ℕ) := []
  invalidIds : List String := []

/-- Count the states of the cells of a new row. -/
def countCells (role : String) (cells : Dict Cell) (coverage : Dict (Dict ℕ)) : Dict (Dict ℕ) :=
  cells.foldl (fun d c =>
    let column := role ++ "." ++ c.1
    Dict.set column (Tally.add (Dict.getD d column []) c.2.state 1) d) coverage

/-- One row of a source. -/
def collectRow (source : Source) (g : Collected) (item : SourceRow) : Except PyError Collected := do
  let print ← fingerprint source.role item.raw
  match Dict.get? print g.unique with
  | some row => return { g with unique := Dict.set print { row with origins := row.origins ++ [originOf source item] } g.unique }
  | none =>
    let cells := cellsOf source.role item.raw
    let sha ← digest (rawDoc item.raw)
    return { unique := Dict.set print ⟨source.role, item.raw, sha, cells, [originOf source item], rowReasons source.role item.raw cells⟩
               g.unique
             coverage := countCells source.role cells g.coverage
             invalidIds := if isBlank (raceId item.raw) then g.invalidIds ++ [print] else g.invalidIds }

def collectSource (g : Collected) (source : Source) : Except PyError Collected := source.rows.foldlM (collectRow source) g

/-- The group of a row: its role and its logical key. -/
def groupKey (row : DetailRow) : String × List String := (row.role, logicalKey row.role row.raw)

/-- The groups of rows, in the order of their first rows. -/
def groupKeys (rows : List DetailRow) : List (String × List String) := (rows.map groupKey).reverse.dedup.reverse

/-- Whether a row shares its logical key with another. -/
def conflicting (rows : List DetailRow) (row : DetailRow) : Bool := 1 < rows.countP fun r => decide (groupKey r = groupKey row)

/-- The rows with the conflicts noted. -/
def markConflicts (unique : Dict DetailRow) : Dict DetailRow :=
  unique.map fun e => (e.1, if conflicting (unique.map Prod.snd) e.2 then
    { e.2 with quarantineReasons := e.2.quarantineReasons ++ ["conflicting_logical_key"] } else e.2)

/-! ## Races -/

/-- What has been observed of a race. -/
structure RaceRecord where
  raceId : String
  tables : Dict (List DetailRow)

/-- The records of the races of the rows that have one, sorted. -/
def raceRecords (rows : List DetailRow) : List RaceRecord :=
  let named := rows.filter fun row => !isBlank (raceId row.raw)
  ((named.map fun row => raceId row.raw).dedup.insertionSort (· ≤ ·)).map fun key =>
    ⟨key, roles.map fun role => (role, named.filter fun row => raceId row.raw = key && row.role = role)⟩

namespace RaceRecord

variable (r : RaceRecord)

def rows : List DetailRow := r.tables.flatMap Prod.snd

def missingRoles : List String := (r.tables.filter fun t => t.2.isEmpty).map Prod.fst

def quarantineReasons : List String := (r.rows.flatMap DetailRow.quarantineReasons).dedup.insertionSort (· ≤ ·)

end RaceRecord

/-! ## The report -/

def texts (ts : List String) : Doc := .arr (ts.map .str)

def count (n : ℕ) : Doc := .num (.int n)

def Origin.toDoc (o : Origin) : Doc :=
  .obj [("sha256", .str o.sha256), ("source_url", .str o.sourceUrl), ("observed_at", o.observedAt),
    ("observation_evidence", .str o.observationEvidence), ("line_end", count o.lineEnd)]

def DetailRow.toDoc (row : DetailRow) : Doc :=
  .obj [("role", .str row.role), ("raw", rawDoc row.raw), ("raw_row_sha256", .str row.rawRowSha256),
    ("cells", .obj (row.cells.map fun c => (c.1, c.2.toDoc))), ("origins", .arr (row.origins.map Origin.toDoc)),
    ("quarantine_reasons", texts row.quarantineReasons)]

def RaceRecord.toDoc (r : RaceRecord) : Doc :=
  .obj [("race_id", .str r.raceId), ("provider", .str "keirindb"), ("source_race_id", .str r.raceId),
    ("tables", .obj (r.tables.map fun t => (t.1, .arr (t.2.map DetailRow.toDoc)))), ("missing_roles", texts r.missingRoles),
    ("quarantine_reasons", texts r.quarantineReasons), ("feature_as_of", .null), ("result_available_at", .null),
    ("training_approved", .bool false), ("prospective", .bool false)]

/-- What is still to be found out about a race. -/
def RaceRecord.backlog (r : RaceRecord) : Doc :=
  .obj [("race_id", .str r.raceId), ("missing_roles", texts r.missingRoles), ("unavailable_detail_groups", texts UNSUPPLIED_GROUPS),
    ("quality_issues", texts r.quarantineReasons),
    ("required_evidence", texts ["source_use", "feature_availability", "scheduled_start", "result_availability"]),
    ("automatic_fetch_authorized", .bool false)]

def Source.toDoc (s : Source) : Doc :=
  .obj [("role", .str s.role), ("provider", .str "keirindb"), ("sha256", .str s.sha256), ("source_url", .str s.sourceUrl),
    ("observed_at", s.observedAt), ("observation_evidence", .str s.observationEvidence), ("columns", texts s.columns),
    ("blank_rows_ignored", count s.blankRowsIgnored)]

/-- The conflicts, group by group. -/
def conflictDocs (rows : List DetailRow) : List Doc :=
  ((groupKeys rows).filter fun k => decide (1 < rows.countP fun r => decide (groupKey r = k))).map fun k =>
    .obj [("role", .str k.1), ("key", texts k.2),
      ("raw_hashes", texts ((rows.filter fun r => groupKey r = k).map DetailRow.rawRowSha256))]

/-- What an intake found. -/
structure Intake where
  manifestSha256 : String
  sources : List Source
  rows : List DetailRow
  unassignedRows : List DetailRow
  coverage : Dict (Dict ℕ)
  recordHashes : Dict Doc

namespace Intake

variable (c : Intake)

def records : List RaceRecord := raceRecords c.rows

/-- `len(unique)` -/
def uniqueRows : ℕ := c.rows.length

def sourceRows : ℕ := (c.sources.map fun s => s.rows.length).sum

def duplicateRows : ℕ := (c.rows.map fun r => r.origins.length - 1).sum

/-- The columns of a role, each once. -/
def fieldsOf (role : String) : List String := ((c.sources.filter fun s => s.role = role).flatMap Source.columns).dedup

def summary : Doc :=
  .obj [("source_files", count c.sources.length), ("race_observations", count c.records.length), ("source_rows", count c.sourceRows),
    ("unique_rows", count c.uniqueRows), ("duplicate_rows", count c.duplicateRows), ("rows_by_role", counter (c.rows.map DetailRow.role)),
    ("fields_by_role", .obj (roles.map fun role => (role, count (c.fieldsOf role).length))),
    ("conflicting_keys", count (conflictDocs c.rows).length),
    ("races_with_all_four_tables", count (c.records.filter fun r => r.missingRoles.isEmpty).length),
    ("races_with_quality_issues", count (c.records.filter fun r => !r.quarantineReasons.isEmpty).length),
    ("training_eligible_races", count 0), ("training_runs", count 0)]

def toDoc : Doc :=
  .obj [("schema_version", .str "historical-detail-intake-v1"), ("manifest_sha256", .str c.manifestSha256),
    ("sources", .arr (c.sources.map Source.toDoc)), ("records", .arr (c.records.map RaceRecord.toDoc)),
    ("unassigned_rows", .arr (c.unassignedRows.map DetailRow.toDoc)), ("conflicts", .arr (conflictDocs c.rows)),
    ("field_coverage", .obj ((c.coverage.insertionSort fun a b => a.1 ≤ b.1).map fun f =>
      (f.1, .obj (f.2.map fun n => (n.1, count n.2))))),
    ("collection_backlog", .arr (c.records.map RaceRecord.backlog)), ("record_hashes", .obj c.recordHashes), ("summary", c.summary),
    ("scope", .str "supplied_files_only_not_all_details_or_continuous_history"), ("production_enabled", .bool false),
    ("automatic_collection_enabled", .bool false), ("autonomous_learning_running", .bool false)]

end Intake

/-- `{r["race_id"]: digest(r) for r in records}` -/
def hashRecords : List RaceRecord → Except PyError (Dict Doc)
  | [] => .ok []
  | r :: rs => do
    let d ← digest r.toDoc
    let rest ← hashRecords rs
    return (r.raceId, .str d) :: rest

/-- `collect` -/
def collect (files : String → Option (List ℕ)) (netloc : String → Bool) (manifest : Doc) : Except PyError Intake := do
  let sources ← loadSources files netloc manifest
  let g ← sources.foldlM collectSource {}
  let unique := markConflicts g.unique
  let rows := unique.map Prod.snd
  let hash ← digest manifest
  let hashes ← hashRecords (raceRecords rows)
  return { manifestSha256 := hash, sources := sources, rows := rows, coverage := g.coverage, recordHashes := hashes
           unassignedRows := g.invalidIds.filterMap fun k => Dict.get? k unique }

/-! ## The review -/

/-- The rows of the races that are reviewed, by role, and the races that are held back. -/
structure Screened where
  tables : Dict (List Doc) := roles.map fun role => (role, [])
  held : List Doc := []

/-- The raw rows of a table of a record. -/
def rawRows (record : Doc) (role : String) : Except PyError (List Doc) := do
  let tables ← subscript record "tables"
  let table ← subscript tables role
  let rows ← table.toList
  rows.mapM fun row => subscript row "raw"

/-- The tables with the rows of a record after the rows before. -/
def addTables (record : Doc) : Dict (List Doc) → Except PyError (Dict (List Doc))
  | [] => .ok []
  | (role, rows) :: tables => do
    let more ← rawRows record role
    let rest ← addTables record tables
    return (role, rows ++ more) :: rest

/-- One record: held back where something speaks against it. -/
def screenRecord (hashes : Doc) (s : Screened) (record : Doc) : Except PyError Screened := do
  let race ← subscript record "race_id"
  let key ← isKey race
  let expected ← match key with
    | some key => hashes.pyGet key
    | none => .ok .null
  let hash ← digest record
  demand (expected = .str hash) "detail_record_changed"
  let reasons ← subscript record "quarantine_reasons"
  if Doc.truthy reasons then return { s with held := s.held ++ [.obj [("race_id", race), ("reasons", reasons)]] }
  else do
    let tables ← addTables record s.tables
    return { s with tables := tables }

/-- The records of an intake, screened one by one. -/
def screen (detail : Doc) : Except PyError Screened := do
  let schema ← detail.pyGet "schema_version"
  demand (schema = .str "historical-detail-intake-v1") "detail_intake_required"
  let records ← subscript detail "records"
  let records ← records.toList
  let hashes ← subscript detail "record_hashes"
  records.foldlM (screenRecord hashes) {}

/-- `review_records` -/
def reviewRecords (detail : Doc) : Except PyError Doc := do
  let s ← screen detail
  let table := fun role => Dict.getD s.tables role []
  let normalized ← normalize (table "info") (table "results") (table "payoffs")
  let enriched ← HistoricalEntrants.enrich normalized (.arr (table "entrants"))
  let report ← HistoricalRecords.convert enriched
  let hash ← digest detail
  let summary := Dict.set "detail_quarantined_races" (count s.held.length) (report.field "summary").entries
  return .obj (Dict.set "summary" (.obj summary) (Dict.set "detail_quarantined_records" (.arr s.held)
    (Dict.set "detail_intake_sha256" (.str hash) report.entries)))

end HistoricalDetails

end Keirin

import Keirin.Ledger
import Keirin.Lib.Prog
import Keirin.ModelHistory

/-!
# Checkpoints of sessions

`synthetic_session.py`: the records of a session are kept in one file. A session is saved by writing another file beside it, which then
takes its place, so that whatever fails, or wherever the process stops, the file holds one session as a whole. A store that failed once
saves no more.
-/

namespace Keirin

namespace SyntheticSession

open HistoricalPayouts (demand)
open CategorySelection (checkGiven)
open OfflinePreview (isMapping)
open ModelHistory

def SCHEMA : String := "synthetic-workbench-session-v1"
def MAX_BYTES : ℕ := 32 * 1024 * 1024
def MAX_SNAPSHOTS : ℕ := 20

/-! ## Sessions -/

section Sessions

variable (dateError : String → String)

/-- `re.fullmatch('[0-9a-f]{32}', key)` -/
def isSnapshotKey (s : String) : Bool := s.toList.length = 32 && s.toList.all fun c => c.isDigit || ('a' ≤ c && c ≤ 'f')

/-- A history kept for a snapshot. -/
def checkKept (snapshot history : Doc) : Except PyError Unit := do
  validateHistory dateError history
  let given ← canonical (history.field "snapshot")
  let kept ← canonical snapshot
  demand (given = kept) "session_history_snapshot_mismatch"

/-- A snapshot of a session: one of a race that was generated. -/
def checkSnapshot (scheduled : Datetime) (series : ℤ) (histories : Doc) (key : String) (snapshot : Doc) : Except PyError Unit := do
  demand (isSnapshotKey key) "session_snapshot_key_invalid"
  validateSnapshot dateError snapshot
  let prediction := snapshot.field "prediction"
  let race := prediction.field "race"
  let count := ((prediction.field "input_quality").field "rider_count").int?.getD 0
  let number := (race.field "race_number").int?.getD 0
  demand (race.field "venue" = .str "SYNTHETIC" && (number - count) % 10 = 0 && 0 ≤ (number - count) / 10 && (number - count) / 10 ≤ series)
    "generated_session_race_required"
  if (number - count) / 10 = series then do
    let start ← iso (snapshot.field "scheduled_start") "scheduled_start"
    demand (start.epochMicros = scheduled.epochMicros) "session_schedule_mismatch"
  checkGiven (histories.get? key) (checkKept dateError snapshot)

/-- The snapshots of a session one by one. -/
def checkSnapshots (scheduled : Datetime) (series : ℤ) (histories : Doc) : Dict Doc → Except PyError Unit
  | [] => .ok ()
  | f :: fs => do
    checkSnapshot dateError scheduled series histories f.1 f.2
    checkSnapshots scheduled series histories fs

def sessionFields : List String := ["schema_version", "synthetic_only", "scheduled", "series", "snapshots", "histories", "current"]

/-- Whether the current snapshot is one of the session, where it has any. -/
def isCurrent (snapshots current : Doc) : Bool :=
  if snapshots.truthy then current.text?.any fun key => (snapshots.get? key).isSome else current = .null

/-- `validate_session` -/
def validateSession (value : Doc) : Except PyError Unit := do
  demand (isMapping value && hasFields value sessionFields && value.field "schema_version" = .str SCHEMA &&
    value.field "synthetic_only" = .bool true) "session_schema_invalid"
  let scheduled ← iso (value.field "scheduled") "session_scheduled"
  let series ← require ((value.field "series").int?.filter fun n => 0 ≤ n ∧ n ≤ 1000000) "session_series_invalid"
  let snapshots := value.field "snapshots"
  let histories := value.field "histories"
  demand (isMapping snapshots && isMapping histories && snapshots.entries.length ≤ MAX_SNAPSHOTS &&
    histories.entries.all fun f => (snapshots.get? f.1).isSome) "session_records_invalid"
  demand (isCurrent snapshots (value.field "current")) "session_current_invalid"
  checkSnapshots dateError scheduled series histories snapshots.entries

/-- `{'payload': payload, 'sha256': sha256}` -/
def envelope (payload : Doc) (sha256 : String) : Doc := .obj [("payload", payload), ("sha256", .str sha256)]

/-- The bytes a session is saved as. -/
def encode (payload : Doc) : Except PyError (List ℕ) := do
  validateSession dateError payload
  let sha256 ← digest payload
  let text ← canonical (envelope payload sha256)
  let data := Text.utf8 (text ++ ['\n'])
  demand (data.length ≤ MAX_BYTES) "session_too_large"
  return data

end Sessions

/-! ## Reading -/

inductive Encoding
  | utf8
  | utf8Sig
  | utf16
  | utf16be
  | utf16le
  | utf32
  | utf32be
  | utf32le
deriving DecidableEq

/-- `json.detect_encoding(b)` -/
def detectEncoding (b : List ℕ) : Encoding :=
  if [0x00, 0x00, 0xFE, 0xFF].isPrefixOf b || [0xFF, 0xFE, 0x00, 0x00].isPrefixOf b then .utf32
  else if [0xFE, 0xFF].isPrefixOf b || [0xFF, 0xFE].isPrefixOf b then .utf16
  else if [0xEF, 0xBB, 0xBF].isPrefixOf b then .utf8Sig
  else match b with
    | b0 :: b1 :: b2 :: b3 :: _ =>
      if b0 = 0 then if b1 = 0 then .utf32be else .utf16be
      else if b1 = 0 then if b2 = 0 ∧ b3 = 0 then .utf32le else .utf16le
      else .utf8
    | [b0, b1] => if b0 = 0 then .utf16be else if b1 = 0 then .utf16le else .utf8
    | _ => .utf8

/-- What stands under the name of the file. -/
inductive Entry
  | plain (data : List ℕ) (links : ℕ)
  | special
  | link
deriving DecidableEq

/-- `SessionStore._read`: the bytes of the file, where there is one. -/
def readOf : Option Entry → Except PyError (Option (List ℕ))
  | none => .ok none
  | some .link => .error (.osError "Too many levels of symbolic links")
  | some .special => .error (.valueError "session_file_invalid")
  | some (.plain data links) =>
    if links ≠ 1 ∨ MAX_BYTES < data.length then .error (.valueError "session_file_invalid") else .ok (some data)

/-- A store: whether it failed, and the bytes it expects in the file. -/
structure SessionStore where
  failed : Bool
  expected : Option (List ℕ)
deriving DecidableEq

section Opening

-- How the wider encodings of Unicode are decoded, and what `date.fromisoformat` says of a text that is no date.
variable (wide : Encoding → List ℕ → Except PyError String) (dateError : String → String)

/-- The text of bytes that `json.loads` is given. -/
def decode (b : List ℕ) : Except PyError String :=
  match detectEncoding b with
  | .utf8 => decodeUtf8 b
  | .utf8Sig => decodeUtf8 (b.drop 3)
  | encoding => wide encoding b

/-- The session in the bytes of the file. -/
def payloadOf (data : List ℕ) : Except PyError Doc := do
  let text ← decode wide data
  let envelope ← Doc.loads text.toList
  demand (isMapping envelope && hasFields envelope ["payload", "sha256"]) "session_envelope_invalid"
  let payload := envelope.field "payload"
  let sha256 ← digest payload
  demand (envelope.field "sha256" = .str sha256) "session_digest_mismatch"
  validateSession dateError payload
  return payload

/-- `SessionStore(directory)`: the store, and the session it loaded. -/
def openStore (file : Option Entry) : Except PyError (SessionStore × Option Doc) := do
  match ← readOf file with
  | none => return (⟨false, none⟩, none)
  | some data =>
    let payload ← payloadOf wide dateError data
    return (⟨false, some data⟩, some payload)

end Opening

/-! ## Saving -/

/-- The operations on files of a save. -/
inductive FileOp
  | read
  | create (name : String)
  | write (name : String) (data : List ℕ)
  | flush (name : String) (data : List ℕ)
  | fsync (name : String)
  | close (name : String)
  | replace (name : String)
  | fsyncDirectory
  | unlink (name : String)
deriving DecidableEq

/-- An error of the system: a file is not there, or anything else. -/
inductive OsError
  | notFound
  | other
deriving DecidableEq

/-- What an operation answers. -/
inductive Answer
  | done
  | file (entry : Option Entry)
  | error (e : OsError)
deriving DecidableEq

abbrev SaveProg (ε α : Type) := Prog FileOp (fun _ => Answer) ε α

/-- How far a save got. -/
structure Progress where
  created : Bool
  replaced : Bool
deriving DecidableEq

/-- Carry out an operation; where it fails, the save has got so far. -/
def attempt (progress : Progress) (op : FileOp) : SaveProg Progress Unit :=
  .cmd op fun answer =>
    match answer with
    | .error _ => .raise progress
    | _ => .ret ()

/-- The operations once the file was found as expected. -/
def writeFile (name : String) (data : List ℕ) : SaveProg Progress Unit := do
  attempt ⟨false, false⟩ (.create name)
  attempt ⟨true, false⟩ (.write name data)
  attempt ⟨true, false⟩ (.flush name data)
  attempt ⟨true, false⟩ (.fsync name)
  attempt ⟨true, false⟩ (.close name)
  attempt ⟨true, false⟩ (.replace name)
  attempt ⟨true, true⟩ .fsyncDirectory

/-- The operations of a save but the last: an error of the system and an error of the checks end it alike. -/
def saveFile (expected : Option (List ℕ)) (name : String) (data : List ℕ) : SaveProg Progress Unit :=
  .cmd .read fun answer =>
    match answer with
    | .file file => if readOf file = .ok expected then writeFile name data else .raise ⟨false, false⟩
    | _ => .raise ⟨false, false⟩

/-- What a save raises. -/
inductive SaveError
  | sessionSaveError (message : String)
  | refused (exc : PyError)
  | osError
deriving DecidableEq

/-- The end of a save: the store, and what is raised. -/
abbrev Ending := SessionStore × Except SaveError Unit

/-- The store after the operations. -/
def settle (store : SessionStore) (data : List ℕ) : Except Progress Unit → Ending
  | .ok () => ({ store with expected := some data }, .ok ())
  | .error progress =>
    ({ store with failed := true }, .error (.sessionSaveError
      (if progress.replaced then "session_save_uncertain_restart_required" else "session_save_failed_restart_required")))

/-- Remove the temporary file, which is not there any more where it took the place of the file. -/
def cleanUp (name : String) (ending : Ending) : SaveProg Empty Ending :=
  .cmd (.unlink name) fun answer =>
    match answer with
    | .error .other => .ret (ending.1, .error .osError)
    | _ => .ret ending

/-- `SessionStore.save`; `name` is the one of the temporary file. -/
def save (dateError : String → String) (store : SessionStore) (payload : Doc) (name : String) : SaveProg Empty Ending :=
  if store.failed then .ret (store, .error (.sessionSaveError "session_restart_required"))
  else match encode dateError payload with
    | .error exc => .ret (store, .error (.refused exc))
    | .ok data => do
      let result ← (saveFile store.expected name data).outcome
      if (match result with
        | .ok () => true
        | .error progress => progress.created) then cleanUp name (settle store data result)
      else return settle store data result

/-! ## The file and its surroundings -/

/-- The operations at which a save can be struck. -/
inductive Stage
  | read
  | create
  | write
  | flush
  | fsync
  | close
  | replace
  | fsyncDirectory
  | unlink
deriving DecidableEq

def FileOp.stage : FileOp → Stage
  | read => .read
  | create _ => .create
  | write _ _ => .write
  | flush _ _ => .flush
  | fsync _ => .fsync
  | close _ => .close
  | replace _ => .replace
  | fsyncDirectory => .fsyncDirectory
  | unlink _ => .unlink

/-- Which operations fail, and how many bytes of a write arrive then. -/
abbrev Faults := Stage → Option ℕ

/-- A directory: the file of the session, and the temporary files. -/
structure Disk where
  file : Option Entry
  partials : Dict (List ℕ)

/-- The bytes arrive in a temporary file. -/
def Disk.fill (disk : Disk) (name : String) (data : List ℕ) : Disk := { disk with partials := Dict.set name data disk.partials }

/-- What an operation does that is not struck. -/
def Disk.perform (disk : Disk) : FileOp → Answer × Disk
  | .read =>
    match disk.file with
    | some .link => (.error .other, disk)
    | file => (.file file, disk)
  | .create name => if (Dict.get? name disk.partials).isSome then (.error .other, disk) else (.done, disk.fill name [])
  | .write name data => (.done, disk.fill name data)
  | .replace name =>
    match Dict.get? name disk.partials with
    | some data => (.done, { file := some (.plain data 1), partials := Dict.pop name disk.partials })
    | none => (.error .notFound, disk)
  | .unlink name =>
    if (Dict.get? name disk.partials).isSome then (.done, { disk with partials := Dict.pop name disk.partials })
    else (.error .notFound, disk)
  | _ => (.done, disk)

/-- What an operation that is struck leaves behind. -/
def Disk.struck (disk : Disk) (arrived : ℕ) : FileOp → Disk
  | .write name data => disk.fill name (data.take arrived)
  | .flush name data => disk.fill name (data.take arrived)
  | _ => disk

/-- A save under way: the directory, whether the file was replaced, and whether an operation failed. -/
structure Underway where
  disk : Disk
  replaced : Bool
  faulted : Bool

/-- Operations on a directory, some of which fail. -/
def machine (faults : Faults) : Machine Underway FileOp (fun _ => Answer) Unit := fun s op _ =>
  let result : Answer × Disk :=
    match faults op.stage with
    | some arrived => (.error .other, s.disk.struck arrived op)
    | none => s.disk.perform op
  some (result.1,
    { disk := result.2
      replaced := s.replaced || (op.stage = .replace && result.1 = .done)
      faulted := s.faulted || result.1 = .error .other })

/-! ## Runs -/

/-- A session, the keys of a mapping standing once. -/
structure Payload where
  doc : Doc
  once : doc.keysOnce = true

/-- What can happen: the store is opened again, a save is carried out up to the operation at which the process stops, or another changes
the file. -/
inductive Event
  | start
  | save (payload : Payload) (name : String) (faults : Faults) (steps : ℕ)
  | outside (file : Option Entry)

/-- The directory, the store if the process runs, and what is known of them: the session of the last replacement, or of the opening,
unless another changed the file since; the bytes the store last read or wrote; whether a save of the store failed in an operation. -/
structure World where
  disk : Disk
  store : Option SessionStore
  known : Option (Option Doc)
  seen : Option (List ℕ)
  faulted : Bool

section Runs

variable (wide : Encoding → List ℕ → Except PyError String) (dateError : String → String)

/-- A save on a directory, as far as it comes. -/
def carryOut (store : SessionStore) (payload : Doc) (name : String) (faults : Faults) (steps : ℕ) (disk : Disk) :
    Underway × SaveProg Empty Ending :=
  (save dateError store payload name).exec (machine faults) (List.replicate steps ()) ⟨disk, false, false⟩

/-- The bytes of the file. -/
def Disk.bytes (disk : Disk) : Option (List ℕ) := (readOf disk.file).toOption.join

def step (w : World) : Event → World
  | .start =>
    match openStore wide dateError w.disk.file with
    | .ok (store, loaded) => { w with store := some store, known := some loaded, seen := store.expected, faulted := false }
    | .error _ => { w with store := none }
  | .save payload name faults steps =>
    match w.store with
    | none => w
    | some store =>
      let result := carryOut dateError store payload.doc name faults steps w.disk
      { disk := result.1.disk
        store := result.2.value?.map Prod.fst
        known := if result.1.replaced then some (some payload.doc) else w.known
        seen := if result.1.replaced then result.1.disk.bytes else w.seen
        faulted := w.faulted || result.1.faulted }
  | .outside file => { w with disk := { w.disk with file := file }, known := none }

/-- What is reached from a directory nobody has opened. -/
def run (disk : Disk) (events : List Event) : World := events.foldl (step wide dateError) ⟨disk, none, none, none, false⟩

end Runs

end SyntheticSession

end Keirin

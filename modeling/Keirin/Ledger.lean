import Keirin.FileStore
import Keirin.Lib.JsonRebuild
import Keirin.Lib.JsonSort
import Keirin.Lib.NumScan

/-!
# The text of the activity ledger

The file `activity.jsonl`: every event is written as one JSON text and a line end, with the characters beyond ASCII as they are;
it is read by cutting the file into lines and reading each line that is not blank.
-/

namespace Keirin

/-! ## Numbers -/

namespace Scalar

/-- The text `json.dumps` writes for a number, the values JSON has no number for included. -/
def dumpText : Scalar → List Char
  | nan => "NaN".toList
  | inf neg => if neg then "-Infinity".toList else "Infinity".toList
  | n => n.text

/-- The number a literal is read as. -/
def ofLit (l : NumLit) : Scalar :=
  if l.isInt then .int l.toInt
  else match Binary64.read l with
    | some x => .float x
    | none => .inf l.neg

/-- The names `json.loads` reads as a number. -/
def scanName (s : List Char) : Option (Scalar × List Char) :=
  match s.dropPrefix? "NaN".toList, s.dropPrefix? "Infinity".toList, s.dropPrefix? "-Infinity".toList with
  | some r, _, _ => some (.nan, r)
  | _, some r, _ => some (.inf false, r)
  | _, _, some r => some (.inf true, r)
  | _, _, _ => none

/-- The number at the front of a text. -/
def scan (s : List Char) : Option (Scalar × List Char) :=
  match scanName s with
  | some x => some x
  | none => (NumLit.scan s).map fun x => (ofLit x.1, x.2)

end Scalar

/-- `json.loads(text)`; of the fields with one key the last counts. -/
def Doc.loads (text : List Char) : Except PyError Doc :=
  match Json.read Scalar.scan text with
  | none => .error (.valueError "JSONDecodeError")
  | some v => .ok (v.rebuild .num (Dict.update []))

/-! ## Lines -/

/-- The characters at which `str.splitlines` ends a line. -/
def isLineBreak (c : Char) : Bool :=
  let n := c.toNat
  (10 ≤ n && n ≤ 13) || (28 ≤ n && n ≤ 30) || n = 0x85 || n = 0x2028 || n = 0x2029

/-- `s.splitlines()` -/
def splitLines : List Char → List (List Char)
  | [] => []
  | '\r' :: '\n' :: s => [] :: splitLines s
  | c :: s =>
    if isLineBreak c then [] :: splitLines s
    else match splitLines s with
      | [] => [[c]]
      | line :: lines => (c :: line) :: lines

/-- The line ends of a file as a text read from it has them. -/
def universalNewlines : List Char → List Char
  | [] => []
  | '\r' :: '\n' :: s => '\n' :: universalNewlines s
  | c :: s => (if c = '\r' then '\n' else c) :: universalNewlines s

/-! ## Events -/

/-- The characters of a time in ISO format. -/
def isTimeChar (c : Char) : Bool := c.isDigit || c ∈ ['-', 'T', ':', '.', '+']

/-- `utc_now_iso()` -/
structure Timestamp where
  text : String
  iso : text.toList.all isTimeChar = true

/-- The event with the time it was appended at. -/
def Event.toDict (now : Timestamp) (e : Event) : Doc :=
  .obj [("timestamp", .str now.text), ("task_id", .str e.taskId), ("step_id", Doc.ofOption e.stepId),
    ("event_type", .str e.eventType), ("message", e.message), ("data", .obj e.data)]

/-- The message and the data of the event are JSON values: their numbers are finite, and no object has a key twice. -/
def Event.IsJson (e : Event) : Prop :=
  (Doc.finite e.message = true ∧ e.message.keysOnce = true) ∧
    (Doc.finite (.obj e.data) = true ∧ (Json.obj e.data).keysOnce = true)

/-- The characters of the texts that the caller of `append_event` supplies. -/
def Event.chars (e : Event) : List Char :=
  (e.stepId.getD "").toList ++ (e.eventType.toList ++ (e.message.chars ++ (Json.obj e.data).chars))

namespace Ledger

/-- The text of an event: `json.dumps(event, ensure_ascii=False, sort_keys=True)`. -/
def eventText (event : Doc) : List Char := event.sortKeys.spaced [' '] Scalar.dumpText

/-- `append_event`; `file` is the text of the ledger, none where there is no file yet. -/
def appendEvent (now : Timestamp) (e : Event) (file : Option (List Char)) : Except PyError (Doc × Option (List Char)) := do
  FileStore.checkTaskId e.taskId
  raiseIf (Doc.encodable (e.toDict now) = false) (.typeError "Object is not JSON serializable")
  return (e.toDict now, some (file.getD [] ++ (eventText (e.toDict now) ++ ['\n'])))

/-- `event.get("task_id") == task_id` -/
def ofTask (taskId : String) (event : Doc) : Except PyError Bool :=
  match event with
  | .obj fs => .ok (Dict.getD fs "task_id" .null = .str taskId)
  | _ => .error (.attributeError "get")

/-- The event of a line, where the line is not blank and the event is asked for. -/
def loadLine (taskId : Option String) (line : List Char) : Except PyError (Option Doc) :=
  if line.all isSpace then .ok none
  else match Json.read Scalar.scan line with
    | none => .error (.valueError "JSONDecodeError")
    | some event =>
      match taskId with
      | none => .ok (some event)
      | some taskId => (ofTask taskId event).map fun own => if own then some event else none

/-- The events of the lines. -/
def loadLines (taskId : Option String) : List (List Char) → Except PyError (List Doc)
  | [] => .ok []
  | line :: lines => do
    let event ← loadLine taskId line
    let events ← loadLines taskId lines
    return event.toList ++ events

/-- `load_events` -/
def loadEvents (taskId : Option String) (file : Option (List Char)) : Except PyError (List Doc) :=
  match file with
  | none => .ok []
  | some text => loadLines taskId (splitLines (universalNewlines text))

/-- A sequence of calls of `append_event` that all return: the events they returned, and the ledger after them. -/
def appendAll (file : Option (List Char)) : List (Timestamp × Event) → Except PyError (List Doc × Option (List Char))
  | [] => .ok ([], file)
  | (now, e) :: calls => do
    let (event, file) ← appendEvent now e file
    let (events, file) ← appendAll file calls
    return (event :: events, file)

/-- The events that are read are those that were returned, but for the order of the keys, which does not matter to a mapping. -/
def Returns (loaded : Except PyError (List Doc)) (returned : List Doc) : Prop :=
  ∃ events, loaded = .ok events ∧ List.Forall₂ Json.Same events returned

/-- Nothing that was appended is lost: all events are read, and those of each task. -/
def Lossless (returned : List Doc) (file : Option (List Char)) : Prop :=
  Returns (loadEvents none file) returned ∧
    ∀ taskId, Returns (loadEvents (some taskId) file) (returned.filter fun event => event.get? "task_id" = some (.str taskId))

/-- A character beyond ASCII that ends a line: NEXT LINE, LINE SEPARATOR or PARAGRAPH SEPARATOR. -/
def isWideBreak (c : Char) : Bool := c.toNat = 0x85 || c.toNat = 0x2028 || c.toNat = 0x2029

/-- The event stays on its line. -/
def OneLine (e : Event) : Prop := ∀ c ∈ e.chars, isWideBreak c = false

end Ledger

end Keirin

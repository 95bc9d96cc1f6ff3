import Keirin.Lib.JsValue
import Keirin.Lib.Paging
import Keirin.Queue
import Keirin.SecretBackend
import Keirin.Wire

/-!
# The ledger of activity behind the edge function

The table `agent_task_events`, the function that appends to it, and the modes `event_append` and `event_list` of the edge
function. A request and a reply are documents of JavaScript; the fields that every reply has are left out but for `success`.
-/

namespace Keirin

namespace Activity

/-! ## The table -/

/-- A row of `agent_task_events`, with the check constraints of the table; the time is the text the database writes. -/
structure EventRow where
  eventId : ℤ
  userId : String
  taskId : String
  eventType : String
  stepId : Option String
  payload : Jsonb
  createdAt : String
  nonempty : SecretBackend.btrim eventType ≠ ""
  object : payload.isObject = true
deriving DecidableEq

/-- The rows, each under its key. -/
structure Table where
  rows : List EventRow
  keyed : (rows.map EventRow.eventId).Nodup
deriving DecidableEq

/-- The text of the columns `EVENT_SELECT` names. -/
def EventRow.text (row : EventRow) : JsonLits :=
  .obj [("event_id", .num (NumLit.ofInt row.eventId)), ("task_id", .str row.taskId), ("event_type", .str row.eventType),
    ("step_id", match row.stepId with
      | none => .null
      | some s => .str s),
    ("payload", row.payload.toText), ("created_at", .str row.createdAt)]

/-- The rows of a task that a caller sees. -/
def Table.visible (table : Table) (caller : Queue.Caller) (taskId : String) : List EventRow :=
  table.rows.filter fun r => caller.may r.userId && r.taskId = taskId

/-- What the database decides about a new row: the value of the identity column and the time. -/
structure Stamp where
  eventId : ℤ
  createdAt : String

/-- `agent_append_event`; `tasks` are the keys of the rows of `agent_tasks`. -/
def agentAppendEvent (caller : Queue.Caller) (tasks : List (String × String)) (stamp : Stamp) (taskId eventType : String)
    (stepId : Option String) (payload : Jsonb) (table : Table) : Except PgError (EventRow × Table) := do
  let uid ← Queue.authenticated caller
  raiseIf (Queue.isTaskId taskId = false) (.raised "invalid_task_id" "22023")
  raiseIf (SecretBackend.btrim eventType = "" ∨ 128 < eventType.length) (.raised "invalid_event_type" "22023")
  raiseIf (∃ s ∈ stepId, SecretBackend.btrim s = "" ∨ 128 < s.length) (.raised "invalid_step_id" "22023")
  raiseIf (payload.isObject = false) (.raised "event_payload_must_be_object" "22023")
  raiseIf (caller.may uid = false) (.raised "new row violates row-level security policy for table \"agent_task_events\"" "42501")
  if h : SecretBackend.btrim (SecretBackend.btrim eventType) ≠ "" ∧ payload.isObject = true ∧
      ((table.rows.map EventRow.eventId) ++ [stamp.eventId]).Nodup then do
    raiseIf ((uid, taskId) ∉ tasks) (.raised
      "insert or update on table \"agent_task_events\" violates foreign key constraint \"agent_task_events_task_fk\"" "23503")
    let row : EventRow :=
      { eventId := stamp.eventId
        userId := uid
        taskId := taskId
        eventType := SecretBackend.btrim eventType
        stepId := Queue.nullIfEmpty (stepId.map SecretBackend.btrim)
        payload := payload
        createdAt := stamp.createdAt
        nonempty := h.1
        object := h.2.1 }
    return (row, { rows := table.rows ++ [row], keyed := by rw [List.map_append]; exact h.2.2 })
  else throw (.raised "duplicate key value violates unique constraint \"agent_task_events_pkey\"" "23505")

/-! ## Requests -/

/-- `asObject(value)` -/
def asObject : JsDoc → Option (Dict JsDoc)
  | .obj fs => some fs
  | _ => none

/-- `validateTaskId(value)` -/
def validateTaskId : Option JsDoc → Option String
  | some (.str s) => if Queue.isTaskId s then some s else none
  | _ => none

/-- `Number.isSafeInteger(value)`, with the integer. -/
def safeInteger? : JsDoc → Option ℤ
  | .num n => n.safeInteger?
  | _ => none

/-- A value that must be there, or the message of the refusal. -/
def demand {α : Type} (x : Option α) (message : String) : Except String α :=
  match x with
  | some a => .ok a
  | none => .error message

structure AppendRequest where
  taskId : String
  eventType : String
  stepId : Option String
  payload : JsDoc

/-- The step of a request: none, or a text that is not blank. -/
def checkStepId : Option JsDoc → Except String (Option String)
  | none => .ok none
  | some .null => .ok none
  | some (.str s) =>
    if JsVal.trim s = "" ∨ 128 < JsVal.utf16Length (JsVal.trim s) then .error "invalid step_id" else .ok (some (JsVal.trim s))
  | some _ => .error "invalid step_id"

/-- `validateActivityAppend` -/
def validateActivityAppend (input : JsDoc) : Except String AppendRequest := do
  let body ← demand (asObject input) "request must be an object"
  let taskId ← demand (validateTaskId (Dict.get? "task_id" body)) "valid task_id is required"
  let eventType := match Dict.get? "event_type" body with
    | some (.str s) => JsVal.trim s
    | _ => ""
  raiseIf (eventType = "" ∨ 128 < JsVal.utf16Length eventType) "invalid event_type"
  let stepId ← checkStepId (Dict.get? "step_id" body)
  let payload ← demand (asObject ((Dict.get? "payload" body).getD (.obj []))) "event payload must be an object"
  raiseIf ((forbiddenSecretPath "$" (.obj payload : JsDoc)).isSome) "event payload contains a forbidden secret field"
  return { taskId := taskId, eventType := eventType, stepId := stepId, payload := .obj payload }

structure ListRequest where
  taskId : String
  limit : ℤ
  afterEventId : Option ℤ
deriving DecidableEq

/-- The limit of a request: 100, or a safe integer from 1 to 200. -/
def checkLimit : Option JsDoc → Except String ℤ
  | none => .ok 100
  | some v => demand ((safeInteger? v).filter fun n => 1 ≤ n && n ≤ 200) "activity list limit must be an integer from 1 to 200"

/-- The cursor of a request: none, or a safe integer that is not negative. -/
def checkAfterEventId : Option JsDoc → Except String (Option ℤ)
  | none => .ok none
  | some .null => .ok none
  | some v => (demand ((safeInteger? v).filter fun n => 0 ≤ n) "after_event_id must be a non-negative integer").map some

/-- `validateActivityList` -/
def validateActivityList (input : JsDoc) : Except String ListRequest := do
  let body ← demand (asObject input) "request must be an object"
  let taskId ← demand (validateTaskId (Dict.get? "task_id" body)) "valid task_id is required"
  let limit ← checkLimit (Dict.get? "limit" body)
  let afterEventId ← checkAfterEventId (Dict.get? "after_event_id" body)
  return { taskId := taskId, limit := limit, afterEventId := afterEventId }

/-! ## Modes -/

/-- `reply({ ...base, mode, ...fields })` -/
def reply (mode : String) (fields : Dict JsDoc) : JsDoc := .obj (("success", .bool true) :: ("mode", .str mode) :: fields)

/-- `reply({ ...base, success: false, mode, error })` -/
def refusal (mode error : String) : JsDoc := .obj [("success", .bool false), ("mode", .str mode), ("error", .str error)]

/-- `reply({ ...base, ...persistenceError(data, status), mode })` -/
def persistenceRefusal (mode message code : String) : JsDoc :=
  .obj [("success", .bool false), ("mode", .str mode), ("error", .str message), ("backend_code", .str code)]

/-- The error of a statement as the service over the database reports it: its message and its code. -/
def report : PgError → String × String
  | .raised message errcode => (message, errcode)
  | .notNull column => (s!"null value in column \"{column}\" violates not-null constraint", "23502")
  | .check constraint => (s!"new row violates check constraint \"{constraint}\"", "23514")
  | .unique constraint => (s!"duplicate key value violates unique constraint \"{constraint}\"", "23505")
  | .rowSecurity => ("new row violates row-level security policy", "42501")
  | .outOfRange type => (s!"{type} out of range", "22003")

/-- The mode `event_append`: the row is read back after it was written. -/
def eventAppend (caller : Queue.Caller) (tasks : List (String × String)) (stamp : Stamp) (body : JsDoc) (table : Table) :
    JsDoc × Table :=
  match validateActivityAppend body with
  | .error e => (refusal "event_append" e, table)
  | .ok request =>
    match agentAppendEvent caller tasks stamp request.taskId request.eventType request.stepId
        (Jsonb.ofText (JsDoc.stringify request.payload)) table with
    | .error e => (persistenceRefusal "event_append" (report e).1 (report e).2, table)
    | .ok (row, table') =>
      match (JsNumber.ofInt row.eventId).safeInteger?.filter (fun n => 0 < n) with
      | none => (refusal "event_append" "Activity append returned an invalid event id", table')
      | some eventId =>
        match (table'.visible caller request.taskId).find? fun r => r.eventId = eventId with
        | none => (refusal "event_append" "Activity append could not be verified", table')
        | some row => (reply "event_append" [("event", JsDoc.parse row.text), ("event_persisted", .bool true)], table')

/-- The rows of a task after the cursor, in the order of their identifiers, at most as many as asked for. -/
def listedRows (caller : Queue.Caller) (request : ListRequest) (table : Table) : List EventRow :=
  Paging.page EventRow.eventId (table.visible caller request.taskId) request.afterEventId request.limit.toNat

/-- The mode `event_list`. -/
def eventList (caller : Queue.Caller) (body : JsDoc) (table : Table) : JsDoc :=
  match validateActivityList body with
  | .error e => refusal "event_list" e
  | .ok request =>
    reply "event_list" [("events", JsDoc.parse (.arr ((listedRows caller request table).map EventRow.text))),
      ("activity_persisted", .bool true)]

/-- The modes of the ledger. -/
def edge (caller : Queue.Caller) (tasks : List (String × String)) (stamp : Stamp) (body : JsDoc) (table : Table) :
    JsDoc × Table :=
  match body.get? "mode" with
  | some (.str "event_append") => eventAppend caller tasks stamp body table
  | some (.str "event_list") => (eventList caller body table, table)
  | _ => (.obj [("success", .bool false), ("error", .str "mode must be preflight or one of: event_append, event_list")], table)

end Activity

end Keirin

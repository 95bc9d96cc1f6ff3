import Keirin.Lib.Prog
import Keirin.Wire

/-!
# The client of the ledger of activity

`hosted_activity.py`: the client that appends to the ledger and reads it. It is a program over the requests it hands to the
transport; a reply is a value or the exception the transport raised.
-/

namespace Keirin

/-- A request: its mode and its fields. -/
abbrev HostedRequest := String × Dict Doc

/-- A program of a hosted client. -/
abbrev HostedProg := Prog HostedRequest (fun _ => Except PyError Doc) PyError

structure HostedActivityEvent where
  eventId : ℤ
  taskId : String
  eventType : String
  stepId : Option String
  payload : Dict Doc
  createdAt : String
deriving DecidableEq

namespace HostedActivity

/-! ## Checks -/

/-- `_valid_task_id` -/
def validTaskId (taskId : String) : Bool := Text.isName ['.', '_', '-'] taskId

/-- `_validate_event_type` -/
def validateEventType (eventType : String) : Except PyError String := do
  raiseIf (strip eventType = "" ∨ 128 < (strip eventType).length) (.valueError "invalid_event_type")
  return strip eventType

/-- `_validate_step_id` -/
def validateStepId : Option String → Except PyError (Option String)
  | none => .ok none
  | some s => do
    raiseIf (strip s = "" ∨ 128 < (strip s).length) (.valueError "invalid_step_id")
    return some (strip s)

/-- `_validate_payload` -/
def validatePayload (payload : Dict Doc) : Except PyError (Dict Doc) :=
  match forbiddenSecretPath "$" (.obj payload : Doc) with
  | some path => .error (.valueError ("event_payload_contains_forbidden_secret:" ++ path))
  | none => .ok payload

/-- A positive integer of a record. -/
def positive? : Doc → Option ℤ
  | .num (.int n) => if 0 < n then some n else none
  | _ => none

/-- A text of a record with at most 128 characters, not all of them blank. -/
def shortText? (v : Doc) : Option String := (Doc.text? v).filter fun s => !isBlank s && s.length ≤ 128

/-- The step of a record: none or a short text. -/
def stepOf : Doc → Except PyError (Option String)
  | .null => .ok none
  | v =>
    match shortText? v with
    | some s => .ok (some (strip s))
    | none => .error (.runtimeError "invalid_activity_step_id")

/-- A part of a record that must be there. -/
def part {α : Type} (x : Option α) (message : String) : Except PyError α :=
  match x with
  | some a => .ok a
  | none => .error (.runtimeError message)

/-- The fields of a value that is a mapping. -/
def mapping? : Doc → Option (Dict Doc)
  | .obj fs => some fs
  | _ => none

/-- `_parse_event` -/
def parseEvent (expectedTaskId : Option String) (value : Doc) : Except PyError HostedActivityEvent := do
  let record ← part (mapping? value) "activity_event_object_required"
  let eventId ← part (positive? (Dict.getD record "event_id" .null)) "invalid_activity_event_id"
  let taskId ← part ((Doc.text? (Dict.getD record "task_id" .null)).filter fun s => validTaskId s) "invalid_activity_task_id"
  raiseIf (∃ expected ∈ expectedTaskId, taskId ≠ expected) (.runtimeError "activity_task_id_mismatch")
  let eventType ← part (shortText? (Dict.getD record "event_type" .null)) "invalid_activity_event_type"
  let stepId ← stepOf (Dict.getD record "step_id" .null)
  let payload ← part (mapping? (Dict.getD record "payload" .null)) "invalid_activity_payload"
  raiseIf ((forbiddenSecretPath "$" (.obj payload : Doc)).isSome) (.runtimeError "activity_payload_contains_forbidden_secret")
  let createdAt ← part ((Doc.text? (Dict.getD record "created_at" .null)).filter fun s => s ≠ "") "invalid_activity_created_at"
  return { eventId := eventId
           taskId := taskId
           eventType := strip eventType
           stepId := stepId
           payload := payload
           createdAt := createdAt }

/-! ## Requests -/

section Client

variable (repr : Doc → String)

/-- Go on with a value, or raise the error in its place. -/
abbrev ok {α : Type} (x : Except PyError α) : HostedProg α := Prog.ofExcept x

/-- The response of a reply that reports success. -/
def accept : Except PyError Doc → Except PyError (Dict Doc)
  | .error e => .error e
  | .ok (.obj response) =>
    if Dict.getD response "success" .null = .bool true then .ok response
    else .error (.runtimeError (Doc.toStr repr (Doc.getOr response "error" (.str "hosted_activity_request_failed"))))
  | .ok _ => .error (.runtimeError "invalid_hosted_activity_response")

/-- `_request` -/
def request (mode : String) (payload : Dict Doc) : HostedProg (Dict Doc) := .cmd (mode, payload) fun reply => ok (accept repr reply)

/-- `append` -/
def append (taskId eventType : String) (stepId : Option String) (payload : Dict Doc) : HostedProg HostedActivityEvent := do
  ok (raiseIf (validTaskId taskId = false) (.valueError "invalid_task_id"))
  let eventType ← ok (validateEventType eventType)
  let stepId ← ok (validateStepId stepId)
  let payload ← ok (validatePayload payload)
  let response ← request repr "event_append"
    [("task_id", .str taskId), ("event_type", .str eventType), ("step_id", Doc.ofOption stepId), ("payload", .obj payload)]
  ok (parseEvent (some taskId) (Dict.getD response "event" .null))

/-- The fields of a request for a page. -/
def listRequest (taskId : String) (afterEventId : Option ℤ) (limit : ℤ) : Dict Doc :=
  [("task_id", .str taskId), ("limit", .num (.int limit))] ++
    (afterEventId.map fun n => ("after_event_id", Json.num (Scalar.int n))).toList

/-- The events of a page: the identifiers ascend and are beyond the cursor. -/
def pageOf (taskId : String) (afterEventId : Option ℤ) (rows : Doc) : Except PyError (List HostedActivityEvent) := do
  let rows ← part (Doc.elements? rows) "activity_event_list_required"
  let events ← rows.mapM (parseEvent (some taskId))
  let ids := events.map HostedActivityEvent.eventId
  raiseIf (ids ≠ ids.insertionSort (· ≤ ·) ∨ ¬ids.Nodup) (.runtimeError "activity_event_order_or_duplicate_error")
  raiseIf (∃ after ∈ afterEventId, ∃ id ∈ ids, id ≤ after) (.runtimeError "activity_event_cursor_violation")
  return events

/-- `list` -/
def list (taskId : String) (afterEventId : Option ℤ) (limit : ℤ) : HostedProg (List HostedActivityEvent) := do
  ok (raiseIf (validTaskId taskId = false) (.valueError "invalid_task_id"))
  ok (raiseIf (¬(1 ≤ limit ∧ limit ≤ 200)) (.valueError "activity_list_limit_out_of_range"))
  ok (raiseIf (∃ after ∈ afterEventId, after < 0) (.valueError "invalid_after_event_id"))
  let response ← request repr "event_list" (listRequest taskId afterEventId limit)
  ok (pageOf taskId afterEventId (Dict.getD response "events" .null))

end Client

end HostedActivity

end Keirin

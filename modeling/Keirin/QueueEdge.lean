import Keirin.ActivityEdge
import Keirin.Lib.Prog

/-!
# The queue behind the edge functions

The modes of the edge function for checkpoints and for the queue, and the edge function that claims one exact task. Each is a
program over the statements it sends to the database, since others may act between two statements of one request. The fields
that every reply has are left out but for `success`.
-/

namespace Keirin

namespace QueueEdge

open Queue
open Activity (asObject validateTaskId demand safeInteger? report)

/-! ## Rows in JSON -/

section Rows

variable (iso : ℤ → String)

/-- A column that may be null. -/
def nullable {ν : Type} : Option String → Json ν
  | none => .null
  | some s => .str s

/-- The columns of a row; `iso` writes a time. -/
def columns (row : Row) : Dict JsonLits :=
  [("task_id", .str row.taskId), ("schema_version", .str row.schemaVersion), ("status", .str row.status.text),
    ("idempotency_key", .str row.idempotencyKey), ("spec", row.spec.toText), ("state", row.state.toText),
    ("blocked_reason", nullable row.blockedReason), ("last_error", nullable row.lastError),
    ("revision", .num (NumLit.ofInt row.revision)), ("spec_fingerprint", .str row.specFingerprint),
    ("not_before", .str (iso row.notBefore)), ("attempt_count", .num (NumLit.ofInt row.attemptCount)),
    ("max_attempts", .num (NumLit.ofInt row.maxAttempts)), ("lease_owner", nullable row.leaseOwner),
    ("lease_generation", .num (NumLit.ofInt row.leaseGeneration)),
    ("lease_expires_at", nullable (row.leaseExpiresAt.map iso)), ("created_at", .str (iso row.createdAt)),
    ("updated_at", .str (iso row.updatedAt))]

/-- The row as `CHECKPOINT_SELECT` of the runtime reads it. -/
def checkpointText (row : Row) : JsonLits := .obj (columns iso row)

/-- The row as `CHECKPOINT_SELECT` of the exact claim reads it. -/
def exactText (row : Row) : JsonLits :=
  .obj ((columns iso row).filter fun c => c.1 ∉ ["schema_version", "blocked_reason", "last_error"])

/-- `to_jsonb(v_row)`, written out; the order of the keys is that of the database. -/
def rowText (row : Row) : JsonLits :=
  (Jsonb.ofText (.obj (("user_id", .str row.userId) :: columns iso row))).toText

end Rows

/-! ## The ledger -/

section Ledger

variable (iso : ℤ → String)

/-- The type of an entry the database writes. -/
def eventType : TaskEvent → String
  | .checkpointSaved .. => "checkpoint_saved"
  | .leaseClaimed .. => "lease_claimed"
  | .leaseCheckpoint _ _ released .. => if released then "lease_released" else "lease_checkpoint_saved"
  | .leaseExpiryReconciled .. => "lease_expiry_reconciled"

/-- The payload of an entry the database writes. -/
def eventPayload : TaskEvent → Dict (Json Numeric)
  | .checkpointSaved _ _ revision status => [("revision", .num (.ofInt revision)), ("status", .str status.text)]
  | .leaseClaimed _ _ exactTask workerId generation revision attemptCount expiresAt =>
    (if exactTask then [("claim_mode", .str "exact_task")] else []) ++
      [("worker_id", nullable workerId), ("lease_generation", .num (.ofInt generation)), ("revision", .num (.ofInt revision)),
        ("attempt_count", .num (.ofInt attemptCount)), ("lease_expires_at", nullable (expiresAt.map iso))]
  | .leaseCheckpoint _ _ _ workerId generation revision status expiresAt =>
    [("worker_id", nullable workerId), ("lease_generation", (generation.map fun n => Json.num (Numeric.ofInt n)).getD .null),
      ("revision", .num (.ofInt revision)), ("status", .str status.text), ("lease_expires_at", nullable (expiresAt.map iso))]
  | .leaseExpiryReconciled _ _ previousWorker generation revision status reason =>
    [("previous_worker_id", nullable previousWorker),
      ("lease_generation", (generation.map fun n => Json.num (Numeric.ofInt n)).getD .null), ("revision", .num (.ofInt revision)),
      ("status", .str status.text), ("blocked_reason", .str reason)]

/-- The task an entry is about. -/
def eventKey : TaskEvent → String × String
  | .checkpointSaved userId taskId _ _ => (userId, taskId)
  | .leaseClaimed userId taskId _ _ _ _ _ _ => (userId, taskId)
  | .leaseCheckpoint userId taskId _ _ _ _ _ _ => (userId, taskId)
  | .leaseExpiryReconciled userId taskId _ _ _ _ _ => (userId, taskId)

/-- The types of the entries the database writes. -/
def EVENT_TYPES : List String :=
  ["checkpoint_saved", "lease_claimed", "lease_released", "lease_checkpoint_saved", "lease_expiry_reconciled"]

theorem eventType_mem (e : TaskEvent) : eventType e ∈ EVENT_TYPES := by
  cases e with
  | checkpointSaved => simp [eventType, EVENT_TYPES]
  | leaseClaimed => simp [eventType, EVENT_TYPES]
  | leaseCheckpoint _ _ released => cases released <;> simp [eventType, EVENT_TYPES]
  | leaseExpiryReconciled => simp [eventType, EVENT_TYPES]

theorem eventType_nonempty (e : TaskEvent) : SecretBackend.btrim (eventType e) ≠ "" := by
  have hall : EVENT_TYPES.all (fun t => SecretBackend.btrim t ≠ "") = true := by decide +kernel
  simpa using List.all_eq_true.1 hall _ (eventType_mem e)

/-- The row of the ledger the database inserts for an entry. -/
def eventRow (stamp : Activity.Stamp) (e : TaskEvent) : Activity.EventRow :=
  { eventId := stamp.eventId
    userId := (eventKey e).1
    taskId := (eventKey e).2
    eventType := eventType e
    stepId := none
    payload := Jsonb.ofJson (.obj (eventPayload iso e))
    createdAt := stamp.createdAt
    nonempty := eventType_nonempty e
    object := rfl }

end Ledger

/-! ## Requests -/

/-- `SAVE_STATUSES` -/
def SAVE_STATUSES : List String := ["running", "blocked", "completed", "failed"]

/-- A field that is a text, or the empty text. -/
def textOr (body : Dict JsDoc) (key : String) : String :=
  match Dict.get? key body with
  | some (.str s) => s
  | _ => ""

/-- `validateWorkerId(value)` -/
def validateWorkerId : Option JsDoc → Option String
  | some (.str s) => if isWorkerId s then some s else none
  | _ => none

/-- A field that is a safe integer of at least `least`. -/
def integerFrom (least : ℤ) (v : Option JsDoc) : Option ℤ := (v.bind safeInteger?).filter fun n => least ≤ n

/-- `validateLeaseSeconds(value)` -/
def validateLeaseSeconds (v : Option JsDoc) : Option ℤ := (integerFrom 15 v).filter fun n => n ≤ 3600

/-- The fingerprint of a state, which must be there. -/
def stateFingerprint (state : Dict JsDoc) : Except String String := do
  raiseIf (isFingerprint (textOr state "spec_fingerprint") = false) "valid state spec_fingerprint is required"
  return textOr state "spec_fingerprint"

/-- `validateCheckpointCreate`, which gives the call of the database. -/
def validateCheckpointCreate (input : JsDoc) : Except String Call := do
  let body ← demand (asObject input) "request must be an object"
  let task ← demand ((Dict.get? "task" body).bind asObject) "task and state are required objects"
  let state ← demand ((Dict.get? "state" body).bind asObject) "task and state are required objects"
  raiseIf ((forbiddenSecretPath "$" (.obj [("task", .obj task), ("state", .obj state)] : JsDoc)).isSome)
    "checkpoint contains a forbidden secret field"
  raiseIf (Dict.get? "schema_version" task ≠ some (.str "agent-task-v1")) "task schema mismatch"
  raiseIf (Dict.get? "schema_version" state ≠ some (.str "agent-task-state-v1")) "state schema mismatch"
  let taskId ← demand (validateTaskId (Dict.get? "task_id" task)) "task/state task_id mismatch"
  raiseIf (Dict.get? "task_id" state ≠ some (.str taskId)) "task/state task_id mismatch"
  raiseIf (Dict.get? "status" state ≠ some (.str "pending")) "new checkpoint state must be pending"
  let fingerprint ← stateFingerprint state
  let key := JsVal.trim (textOr body "idempotency_key")
  let key := if key = "" then taskId else key
  raiseIf (200 < JsVal.utf16Length key) "idempotency_key too long"
  return .createCheckpoint (some taskId) (some key) (some (Jsonb.ofText (JsDoc.stringify (.obj task))))
    (some (Jsonb.ofText (JsDoc.stringify (.obj state)))) (some fingerprint)

/-- What `validateCheckpointSave` returns. -/
structure SaveRequest where
  taskId : String
  status : String
  state : Dict JsDoc
  expectedRevision : ℤ

/-- `validateCheckpointSave` -/
def validateCheckpointSave (input : JsDoc) : Except String SaveRequest := do
  let body ← demand (asObject input) "request must be an object"
  let taskId ← demand (validateTaskId (Dict.get? "task_id" body)) "valid task_id and state are required"
  let state ← demand ((Dict.get? "state" body).bind asObject) "valid task_id and state are required"
  raiseIf ((forbiddenSecretPath "$" (.obj state : JsDoc)).isSome) "state contains a forbidden secret field"
  raiseIf (Dict.get? "schema_version" state ≠ some (.str "agent-task-state-v1") ∨ Dict.get? "task_id" state ≠ some (.str taskId))
    "state identity/schema mismatch"
  let status := textOr body "status"
  raiseIf (status ∉ SAVE_STATUSES ∨ Dict.get? "status" state ≠ some (.str status)) "status/state mismatch"
  let _ ← stateFingerprint state
  let revision ← demand (integerFrom 0 (Dict.get? "expected_revision" body)) "expected_revision must be a non-negative safe integer"
  return { taskId := taskId, status := status, state := state, expectedRevision := revision }

/-- The state of a request as the database gets it. -/
def SaveRequest.stored (r : SaveRequest) : Jsonb := Jsonb.ofText (JsDoc.stringify (.obj r.state))

structure ClaimRequest where
  workerId : String
  leaseSeconds : ℤ

/-- `validateQueueClaim` -/
def validateQueueClaim (input : JsDoc) : Except String ClaimRequest := do
  let body ← demand (asObject input) "request must be an object"
  let workerId ← demand (validateWorkerId (Dict.get? "worker_id" body)) "valid worker_id is required"
  let leaseSeconds ← demand (validateLeaseSeconds (Dict.get? "lease_seconds" body)) "lease_seconds must be an integer from 15 to 3600"
  return { workerId := workerId, leaseSeconds := leaseSeconds }

structure LeasedSaveRequest extends SaveRequest where
  workerId : String
  leaseGeneration : ℤ
  leaseSeconds : ℤ

/-- `validateQueueSave` -/
def validateQueueSave (input : JsDoc) : Except String LeasedSaveRequest := do
  let checkpoint ← validateCheckpointSave input
  let body ← demand (asObject input) "request must be an object"
  let workerId ← demand (validateWorkerId (Dict.get? "worker_id" body)) "valid worker_id is required"
  let generation ← demand (integerFrom 1 (Dict.get? "lease_generation" body)) "lease_generation must be a positive integer"
  let leaseSeconds ← demand (validateLeaseSeconds (Dict.get? "lease_seconds" body)) "lease_seconds must be an integer from 15 to 3600"
  return { checkpoint with workerId := workerId, leaseGeneration := generation, leaseSeconds := leaseSeconds }

structure ReconcileRequest where
  taskId : String
  state : Dict JsDoc
  expectedRevision : ℤ
  leaseGeneration : ℤ

/-- `validateQueueReconcileExpired` -/
def validateQueueReconcileExpired (input : JsDoc) : Except String ReconcileRequest := do
  let body ← demand (asObject input) "request must be an object"
  let taskId ← demand (validateTaskId (Dict.get? "task_id" body)) "valid task_id and state are required"
  let state ← demand ((Dict.get? "state" body).bind asObject) "valid task_id and state are required"
  raiseIf ((forbiddenSecretPath "$" (.obj state : JsDoc)).isSome) "state contains a forbidden secret field"
  raiseIf (Dict.get? "schema_version" state ≠ some (.str "agent-task-state-v1") ∨ Dict.get? "task_id" state ≠ some (.str taskId) ∨
    Dict.get? "status" state ≠ some (.str "blocked")) "blocked state identity/schema mismatch"
  let _ ← stateFingerprint state
  let revision ← demand (integerFrom 0 (Dict.get? "expected_revision" body)) "expected_revision must be a non-negative safe integer"
  let generation ← demand (integerFrom 1 (Dict.get? "lease_generation" body)) "lease_generation must be a positive integer"
  return { taskId := taskId, state := state, expectedRevision := revision, leaseGeneration := generation }

/-- `TRUSTED_RUN_ID_RE` -/
def isTrustedRunId (s : String) : Bool :=
  let token := s.toList.drop 29
  "keirin-readonly-status-check.".toList.isPrefixOf s.toList &&
    (token.all (fun c => c.isDigit || ('a' ≤ c && c ≤ 'f')) && decide (16 ≤ token.length ∧ token.length ≤ 32))

structure ExactClaimRequest extends ClaimRequest where
  taskId : String

/-- `validateExactClaimRequest` -/
def validateExactClaimRequest (input : JsDoc) : Except String ExactClaimRequest := do
  let body ← demand (asObject input) "request must be an object"
  raiseIf (body.any fun f => f.1 ∉ ["mode", "task_id", "worker_id", "lease_seconds"]) "unexpected request fields"
  raiseIf (Dict.get? "mode" body ≠ some (.str "queue_claim_task")) "exact claim mode required"
  let taskId ← demand (match Dict.get? "task_id" body with
    | some (.str s) => if isTrustedRunId s then some s else none
    | _ => none) "trusted run-instance task_id required"
  let workerId ← demand (validateWorkerId (Dict.get? "worker_id" body)) "valid worker_id required"
  let leaseSeconds ← demand (validateLeaseSeconds (Dict.get? "lease_seconds" body)) "lease_seconds must be an integer from 15 to 3600"
  return { workerId := workerId, leaseSeconds := leaseSeconds, taskId := taskId }

/-! ## Statements and replies -/

/-- Why a statement has no result: the database refused it, or its answer did not arrive and the platform answers the
client. -/
inductive DbError
  | refused (e : PgError)
  | broken (body : JsDoc)

/-- A statement the edge functions send: a call, the reading of one row, or a mode of the ledger. -/
inductive EdgeCmd
  | transact (call : Call)
  | select (taskId : String)
  | activity (body : JsDoc)

def EdgeCmd.Reply : EdgeCmd → Type
  | transact _ => Except DbError (Option Row)
  | select _ => Except DbError (Option Row)
  | activity _ => Except DbError JsDoc

/-- The status and the body of a reply. -/
structure EdgeReply where
  status : ℕ
  body : JsDoc

abbrev EdgeProg (ε : Type) := Prog EdgeCmd EdgeCmd.Reply ε EdgeReply

section Modes

variable (iso : ℤ → String) (httpStatus : String → ℕ) {ε : Type}

def accept (status : ℕ) (mode : String) (fields : Dict JsDoc) : EdgeProg ε :=
  .ret { status := status, body := Activity.reply mode fields }

def refuse (status : ℕ) (mode error : String) : EdgeProg ε :=
  .ret { status := status, body := Activity.refusal mode error }

/-- `persistenceError`; `httpStatus` is the status the service over the database gives an error by its code. -/
def persistence (mode : String) : DbError → EdgeProg ε
  | .refused e =>
    .ret { status := httpStatus (report e).2
           body := .obj [("success", .bool false), ("error", .str (report e).1),
             ("backend_status", .num (JsNumber.ofInt (httpStatus (report e).2))), ("backend_code", .str (report e).2),
             ("mode", .str mode)] }
  | .broken body => .ret { status := 500, body := body }

def checkpointCreate (body : JsDoc) : EdgeProg ε :=
  match validateCheckpointCreate body with
  | .error e => refuse 422 "checkpoint_create" e
  | .ok call => .cmd (.transact call) fun
    | .error e => persistence httpStatus "checkpoint_create" e
    | .ok row => accept 201 "checkpoint_create"
      [("checkpoint", (row.map fun r => JsDoc.parse (rowText iso r)).getD .null), ("saved", .bool true)]

def checkpointGet (body : JsDoc) : EdgeProg ε :=
  match validateTaskId (body.get? "task_id") with
  | none => refuse 422 "checkpoint_get" "valid task_id is required"
  | some taskId => .cmd (.select taskId) fun
    | .error e => persistence httpStatus "checkpoint_get" e
    | .ok none => refuse 404 "checkpoint_get" "Checkpoint not found"
    | .ok (some row) => accept 200 "checkpoint_get" [("checkpoint", JsDoc.parse (checkpointText iso row))]

def checkpointSave (body : JsDoc) : EdgeProg ε :=
  match validateCheckpointSave body with
  | .error e => refuse 422 "checkpoint_save" e
  | .ok r => .cmd (.transact (.saveCheckpoint (some r.taskId) (some r.expectedRevision) (some r.status) (some r.stored))) fun
    | .error e => persistence httpStatus "checkpoint_save" e
    | .ok saved => .cmd (.select r.taskId) fun
      | .ok (some row) =>
        if JsNumber.ofInt row.revision = JsNumber.ofInt ((saved.map fun s => s.revision).getD (-1)) then
          accept 200 "checkpoint_save" [("checkpoint", JsDoc.parse (checkpointText iso row)),
            ("revision", .num (JsNumber.ofInt row.revision)), ("saved", .bool true)]
        else refuse 500 "checkpoint_save" "Checkpoint save could not be verified"
      | _ => refuse 500 "checkpoint_save" "Checkpoint save could not be verified"

/-- What `verifyQueueRow` expects of the row it reads back. -/
structure Expected where
  revision : JsNumber
  leaseGeneration : JsNumber
  status : String
  leaseOwner : Option String

/-- `Number(value)` of a column that is a number. -/
def numberOf : Option JsDoc → Option JsNumber
  | some (.num n) => some n
  | _ => none

/-- The checks of `verifyQueueRow` on the row the call returned and the row read back. -/
def verifyRows (raw verified : JsDoc) (expected : Expected) : Except String Unit := do
  raiseIf (numberOf (verified.get? "revision") ≠ numberOf (raw.get? "revision")) "Queue revision read-back mismatch"
  raiseIf (numberOf (verified.get? "lease_generation") ≠ numberOf (raw.get? "lease_generation")) "Queue fence read-back mismatch"
  raiseIf (verified.get? "status" ≠ raw.get? "status" ∨ verified.get? "lease_owner" ≠ raw.get? "lease_owner")
    "Queue lease identity read-back mismatch"
  raiseIf (numberOf (verified.get? "revision") ≠ some expected.revision) "Unexpected queue revision"
  raiseIf (numberOf (verified.get? "lease_generation") ≠ some expected.leaseGeneration) "Unexpected queue generation"
  raiseIf (verified.get? "status" ≠ some (.str expected.status)) "Unexpected queue status"
  raiseIf (verified.get? "lease_owner" ≠ some (nullable expected.leaseOwner)) "Unexpected queue lease owner"

/-- `verifyQueueRow`; `answer` is the reply with the row read back. -/
def verifyQueueRow (mode : String) (raw : JsDoc) (expected : Expected) (answer : JsDoc → EdgeProg ε) : EdgeProg ε :=
  match raw.get? "task_id" with
  | some (.str taskId) => .cmd (.select taskId) fun
    | .ok (some row) =>
      match verifyRows raw (JsDoc.parse (checkpointText iso row)) expected with
      | .error e => refuse 500 mode e
      | .ok () => answer (JsDoc.parse (checkpointText iso row))
    | _ => refuse 500 mode "Queue state could not be read back"
  | _ => refuse 500 mode "Queue RPC returned invalid row"

/-- `Number(raw.key)` -/
def numberField (raw : JsDoc) (key : String) : JsNumber := (numberOf (raw.get? key)).getD (.infinite false)

def queueClaim (body : JsDoc) : EdgeProg ε :=
  match validateQueueClaim body with
  | .error e => refuse 422 "queue_claim" e
  | .ok r => .cmd (.transact (.claimNextTask (some r.workerId) (some r.leaseSeconds) [])) fun
    | .error e => persistence httpStatus "queue_claim" e
    | .ok none => accept 200 "queue_claim" [("claimed", .bool false), ("lease", .null)]
    | .ok (some row) =>
      let raw := JsDoc.parse (rowText iso row)
      verifyQueueRow iso "queue_claim" raw
        { revision := numberField raw "revision", leaseGeneration := numberField raw "lease_generation"
          status := "running", leaseOwner := some r.workerId }
        fun verified => accept 201 "queue_claim" [("claimed", .bool true), ("lease", verified)]

/-- The end of a mode that wrote a row: the row is read back. -/
def readBack (mode : String) (expected : Expected) : Except DbError (Option Row) → EdgeProg ε
  | .error e => persistence httpStatus mode e
  | .ok none => refuse 500 mode "Queue RPC returned invalid row"
  | .ok (some row) => verifyQueueRow iso mode (JsDoc.parse (rowText iso row)) expected fun verified =>
      accept 200 mode [("lease", verified)]

def queueSave (body : JsDoc) : EdgeProg ε :=
  match validateQueueSave body with
  | .error e => refuse 422 "queue_save" e
  | .ok r =>
    .cmd (.transact (.saveLeasedCheckpoint (some r.taskId) (some r.expectedRevision) (some r.workerId) (some r.leaseGeneration)
      (some r.status) (some r.stored) (some r.leaseSeconds)))
      (readBack iso httpStatus "queue_save"
        { revision := JsNumber.ofInt (r.expectedRevision + 1), leaseGeneration := JsNumber.ofInt r.leaseGeneration
          status := r.status, leaseOwner := if r.status = "running" then some r.workerId else none })

def queueReconcileExpired (body : JsDoc) : EdgeProg ε :=
  match validateQueueReconcileExpired body with
  | .error e => refuse 422 "queue_reconcile_expired" e
  | .ok r =>
    .cmd (.transact (.reconcileExpiredLease (some r.taskId) (some r.expectedRevision) (some r.leaseGeneration)
      (some (Jsonb.ofText (JsDoc.stringify (.obj r.state))))))
      (readBack iso httpStatus "queue_reconcile_expired"
        { revision := JsNumber.ofInt (r.expectedRevision + 1), leaseGeneration := JsNumber.ofInt r.leaseGeneration
          status := "blocked", leaseOwner := none })

/-- The modes of the ledger. -/
def activityMode (body : JsDoc) : EdgeProg ε :=
  .cmd (.activity body) fun
    | .error e => persistence httpStatus "" e
    | .ok doc => .ret { status := if doc.get? "success" = some (.bool true) then 200 else 422, body := doc }

/-- The edge function `agent-runtime-dev` from the body of a request on. -/
def runtime (body : JsDoc) : EdgeProg ε :=
  match asObject body with
  | none => refuse 400 "" "Request body must be an object"
  | some fields =>
    let mode := textOr fields "mode"
    if mode = "checkpoint_create" then checkpointCreate iso httpStatus body
    else if mode = "checkpoint_get" then checkpointGet iso httpStatus body
    else if mode = "checkpoint_save" then checkpointSave iso httpStatus body
    else if mode = "event_append" ∨ mode = "event_list" then activityMode httpStatus body
    else if mode = "queue_claim" then queueClaim iso httpStatus body
    else if mode = "queue_save" then queueSave iso httpStatus body
    else if mode = "queue_reconcile_expired" then queueReconcileExpired iso httpStatus body
    else refuse 400 mode "mode must be preflight or one of the modes"

/-- The edge function `agent-exact-claim-dev` from the body of a request on. -/
def exactClaim (body : JsDoc) : EdgeProg ε :=
  match validateExactClaimRequest body with
  | .error e => refuse 422 "queue_claim_task" e
  | .ok r => .cmd (.transact (.claimTask (some r.taskId) (some r.workerId) (some r.leaseSeconds))) fun
    | .error e => persistence httpStatus "queue_claim_task" e
    | .ok none => accept 200 "queue_claim_task" [("claimed", .bool false), ("lease", .null)]
    | .ok (some claimed) =>
      let raw := JsDoc.parse (rowText iso claimed)
      if raw.get? "task_id" ≠ some (.str r.taskId) then
        refuse 500 "queue_claim_task" "Exact claim returned unexpected task identity"
      else if raw.get? "status" ≠ some (.str "running") ∨ raw.get? "lease_owner" ≠ some (.str r.workerId) then
        refuse 500 "queue_claim_task" "Exact claim returned invalid lease identity"
      else .cmd (.select r.taskId) fun
        | .ok (some found) =>
          let row := JsDoc.parse (exactText iso found)
          if row.get? "task_id" ≠ some (.str r.taskId) ∨ row.get? "status" ≠ some (.str "running") ∨
              row.get? "lease_owner" ≠ some (.str r.workerId) ∨
              numberOf (row.get? "revision") ≠ numberOf (raw.get? "revision") ∨
              numberOf (row.get? "lease_generation") ≠ numberOf (raw.get? "lease_generation") then
            refuse 500 "queue_claim_task" "Exact claim read-back mismatch"
          else accept 201 "queue_claim_task" [("claimed", .bool true), ("lease", row)]
        | _ => refuse 500 "queue_claim_task" "Exact claim could not be read back"

end Modes

end QueueEdge

end Keirin

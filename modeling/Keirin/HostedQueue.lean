import Keirin.HostedActivity
import Keirin.PythonData
import Keirin.Queue
import Keirin.Runner

/-!
# The client of the queue

`hosted_queue.py` and `exact_task_queue.py`: the clients that claim tasks, save under a lease and reconcile expired leases. A
client is a program over the requests it hands to the transport, the clock it reads and the actions it calls.
-/

namespace Keirin

/-- An exception of the hosted clients, by its class. -/
inductive HostedError
  | builtin (e : PyError)
  | queueError (message : String)
  | queueConflict (message : String)
  | queueIntegrity (message : String)
  | checkpointError (message : String)
  | checkpointConflict (message : String)
  | checkpointNotFound (message : String)
  | checkpointIntegrity (message : String)
  | recoveryIntegrity (message : String)
  | trustedRunAlreadyUsed (message : String)
  | notAuthorized (message : String)
deriving DecidableEq

/-- What a client asks for: the time as a text, the time in microseconds (none where the clock has no zone), a request, a call
of an action and its answer. -/
inductive ClientCmd
  | now
  | utcnow
  | request (mode : String) (fields : Dict Doc)
  | invoke (call : ActionCall)
  | await (call : ActionCall)

def ClientCmd.Reply : ClientCmd → Type
  | now => String
  | utcnow => Option ℤ
  | request _ _ => Except PyError Doc
  | invoke _ => Unit
  | await _ => Except ActionExc Returned

abbrev ClientProg := Prog ClientCmd ClientCmd.Reply HostedError

structure HostedQueueLease where
  taskId : String
  status : String
  revision : ℤ
  idempotencyKey : String
  spec : TaskSpec
  state : TaskState
  attemptCount : ℤ
  maxAttempts : ℤ
  leaseOwner : Option String
  leaseGeneration : ℤ
  leaseExpiresAt : Option String
  notBefore : String
  createdAt : Option String
  updatedAt : Option String

namespace HostedQueue

/-- `_ROW_STATUSES` -/
def ROW_STATUSES : List String := ["queued", "running", "blocked", "completed", "failed"]

/-- `_SAVE_STATUSES` -/
def SAVE_STATUSES : List String := ["running", "blocked", "completed", "failed"]

/-! ## Checks -/

/-- An exception of a built-in class. -/
def builtin {α : Type} (x : Except PyError α) : Except HostedError α := x.mapError .builtin

/-- Raise an integrity error where `bad` holds. -/
def refuseIf (bad : Prop) [Decidable bad] (message : String) : Except HostedError Unit := raiseIf bad (.queueIntegrity message)

/-- Raise an integrity error where a document holds a field with a forbidden name. -/
def refuseSecret (v : Doc) (message : String) : Except HostedError Unit :=
  match forbiddenSecretPath "$" v with
  | some path => .error (.queueIntegrity (message ++ ":" ++ path))
  | none => .ok ()

/-- A part of a record that must be there. -/
def part {α : Type} (x : Option α) (message : String) : Except HostedError α :=
  match x with
  | some a => .ok a
  | none => .error (.queueIntegrity message)

/-- A text that is not empty. -/
def nonempty? (v : Doc) : Option String := (Doc.text? v).filter fun s => s ≠ ""

/-- `status in _ROW_STATUSES`, with the status; a container cannot be looked up in a set. -/
def rowStatus (integrity : String → HostedError) (message : String) : Doc → Except HostedError String
  | .str s => if s ∈ ROW_STATUSES then .ok s else .error (integrity message)
  | .arr _ => .error (.builtin (.typeError "unhashable type: 'list'"))
  | .obj _ => .error (.builtin (.typeError "unhashable type: 'dict'"))
  | _ => .error (integrity message)

/-- `_parse_int` -/
def parseInt (v : Doc) (name : String) (minimum : ℤ) : Except HostedError ℤ :=
  match v with
  | .num (.int n) => if n < minimum then .error (.queueIntegrity ("invalid_" ++ name)) else .ok n
  | _ => .error (.queueIntegrity ("invalid_" ++ name))

/-- An exception of `from_dict`; those of these classes are caught. -/
def modelError (integrity : HostedError) : PyError → HostedError
  | .keyError _ => integrity
  | .typeError _ => integrity
  | .valueError _ => integrity
  | e => .builtin e

/-- The status of the state of a row with a status. -/
def stateStatus (status : String) : TaskStatus := TaskStatus.ofDoc (.str (if status = "queued" then "pending" else status))

section Client

variable (repr : Doc → String)

/-- `TaskSpec.from_dict(deepcopy(spec.to_dict()))` with the check that follows it. -/
def detachedSpec (spec : TaskSpec) : Except HostedError TaskSpec := builtin do
  let spec ← TaskSpec.fromDict repr spec.fields
  spec.validate
  return spec

/-- `TaskState.from_dict(deepcopy(state.to_dict()))` -/
def detachedState (now : String) (state : TaskState) : Except HostedError TaskState :=
  builtin (TaskState.fromDict repr now (Doc.entries state.toDict))

/-- `_clean_state` -/
def cleanState (now : String) (spec : TaskSpec) (state : TaskState) : Except HostedError TaskState := do
  let detached ← detachedState repr now state
  let fingerprint ← builtin spec.fingerprint
  refuseIf (detached.taskId ≠ spec.taskId) "task_state_id_mismatch"
  refuseIf (detached.specFingerprint ≠ .str fingerprint) "task_spec_changed"
  refuseSecret detached.toDict "state_contains_forbidden_secret"
  return detached

/-- The checks of `_parse_lease` on the definition and the state of a row. -/
def parseModel (now : String) (taskId status : String) (fingerprint spec state : Doc) (expectedSpec : Option TaskSpec) :
    Except HostedError (TaskSpec × TaskState) := do
  let rawSpec ← part (HostedActivity.mapping? spec) "queue_spec_state_required"
  let rawState ← part (HostedActivity.mapping? state) "queue_spec_state_required"
  let spec ← (TaskSpec.fromDict repr rawSpec).mapError (modelError (.queueIntegrity "invalid_queue_model"))
  let state ← (TaskState.fromDict repr now rawState).mapError (modelError (.queueIntegrity "invalid_queue_model"))
  refuseIf (spec.taskId ≠ taskId ∨ state.taskId ≠ taskId) "queue_task_identity_mismatch"
  refuseIf (∃ expected ∈ expectedSpec, Doc.pyEq spec.toDict expected.toDict = false) "task_spec_changed"
  let own ← builtin spec.fingerprint
  refuseIf (fingerprint ≠ .str own ∨ state.specFingerprint ≠ .str own) "queue_spec_fingerprint_mismatch"
  refuseIf (state.status ≠ stateStatus status) "queue_state_status_mismatch"
  refuseSecret (.obj [("spec", .obj rawSpec), ("state", .obj rawState)]) "queue_record_contains_forbidden_secret"
  return (spec, state)

/-- The checks of `_parse_lease` on the lease of a row. -/
def parseHolder (status : String) (generation : ℤ) (owner expiresAt : Doc) : Except HostedError Unit :=
  if status = "running" then do
    refuseIf (((Doc.text? owner).filter fun s => Queue.isWorkerId s) = none) "invalid_lease_owner"
    refuseIf (generation < 1) "invalid_lease_generation"
    refuseIf (nonempty? expiresAt = none) "invalid_lease_expiry"
  else refuseIf (owner ≠ .null ∨ expiresAt ≠ .null) "terminal_or_queued_lease_not_cleared"

/-- `_parse_lease` -/
def parseLease (now : String) (value : Doc) (expectedSpec : Option TaskSpec) : Except HostedError HostedQueueLease := do
  let record ← part (HostedActivity.mapping? value) "queue_lease_object_required"
  let field := fun key => Dict.getD record key .null
  let taskId ← part (nonempty? (field "task_id")) "invalid_queue_task_id"
  let status ← rowStatus .queueIntegrity "invalid_queue_status" (field "status")
  let model ← parseModel repr now taskId status (field "spec_fingerprint") (field "spec") (field "state") expectedSpec
  let revision ← parseInt (field "revision") "queue_revision" 0
  let attemptCount ← parseInt (field "attempt_count") "attempt_count" 0
  let maxAttempts ← parseInt (field "max_attempts") "max_attempts" 1
  let generation ← parseInt (field "lease_generation") "lease_generation" 0
  refuseIf (maxAttempts < attemptCount) "attempt_budget_exceeded"
  let key ← part (nonempty? (field "idempotency_key")) "invalid_queue_idempotency_key"
  let notBefore ← part (nonempty? (field "not_before")) "invalid_not_before"
  parseHolder status generation (field "lease_owner") (field "lease_expires_at")
  return { taskId := taskId
           status := status
           revision := revision
           idempotencyKey := key
           spec := model.1
           state := model.2
           attemptCount := attemptCount
           maxAttempts := maxAttempts
           leaseOwner := Doc.text? (field "lease_owner")
           leaseGeneration := generation
           leaseExpiresAt := Doc.text? (field "lease_expires_at")
           notBefore := notBefore
           createdAt := Doc.text? (field "created_at")
           updatedAt := Doc.text? (field "updated_at") }

/-- `_error_from_response` -/
def errorFromResponse (response : Dict Doc) : HostedError :=
  let message := Doc.toStr repr (Doc.getOr response "error" (.str "hosted_queue_request_failed"))
  let code := Doc.toStr repr (Doc.getOr response "backend_code" (.str ""))
  if code = "40001" ∨ "conflict".toList <:+: message.toList ∨ "expired".toList <:+: message.toList then .queueConflict message
  else .queueError message

/-! ## Requests -/

/-- Go on with a value, or raise the error in its place. -/
abbrev ok {α : Type} (x : Except HostedError α) : ClientProg α := Prog.ofExcept x

/-- Read the clock. -/
def now : ClientProg String := .cmd .now .ret

/-- The response of a reply that reports success. -/
def accept : Except PyError Doc → Except HostedError (Dict Doc)
  | .error e => .error (.builtin e)
  | .ok (.obj response) =>
    if Dict.getD response "success" .null = .bool true then .ok response else .error (errorFromResponse repr response)
  | .ok _ => .error (.queueError "invalid_hosted_queue_response")

/-- `_request` -/
def request (mode : String) (fields : Dict Doc) : ClientProg (Dict Doc) := .cmd (.request mode fields) fun reply => ok (accept repr reply)

def inspect (spec : TaskSpec) : ClientProg HostedQueueLease := do
  let spec ← ok (detachedSpec repr spec)
  let response ← request repr "checkpoint_get" [("task_id", .str spec.taskId)]
  let time ← now
  ok (parseLease repr time (Dict.getD response "checkpoint" .null) (some spec))

/-- `_valid_lease_seconds` -/
def validLeaseSeconds (n : ℤ) : Bool := 15 ≤ n && n ≤ 3600

/-- The checks of the arguments of a claim. -/
def checkClaim (workerId : String) (leaseSeconds : ℤ) : Except HostedError Unit := builtin do
  raiseIf (Queue.isWorkerId workerId = false) (.valueError "invalid_worker_id")
  raiseIf (validLeaseSeconds leaseSeconds = false) (.valueError "invalid_lease_seconds")

/-- What a claim returned: none, or a lease of the worker. -/
def claimedLease (time workerId : String) (expectedSpec : Option TaskSpec) (response : Dict Doc) :
    Except HostedError (Option HostedQueueLease) :=
  let claimed := Dict.getD response "claimed" .null
  let lease := Dict.getD response "lease" .null
  if claimed = .bool false ∧ lease = .null then .ok none
  else do
    refuseIf (claimed ≠ .bool true) "queue_claim_flag_mismatch"
    let record ← parseLease repr time lease expectedSpec
    refuseIf (∃ spec ∈ expectedSpec, record.taskId ≠ spec.taskId) "exact_task_claim_identity_mismatch"
    refuseIf (record.status ≠ "running" ∨ record.leaseOwner ≠ some workerId) "queue_claim_identity_mismatch"
    refuseIf (record.revision < 1 ∨ record.attemptCount < 1) "queue_claim_counters_not_advanced"
    return some record

def claim (workerId : String) (leaseSeconds : ℤ) : ClientProg (Option HostedQueueLease) := do
  ok (checkClaim workerId leaseSeconds)
  let response ← request repr "queue_claim" [("worker_id", .str workerId), ("lease_seconds", .num (.int leaseSeconds))]
  let time ← now
  ok (claimedLease repr time workerId none response)

/-- `claim_task`, with which `BoundExactTaskQueueClient` claims. -/
def claimTask (spec : TaskSpec) (workerId : String) (leaseSeconds : ℤ) : ClientProg (Option HostedQueueLease) := do
  let spec ← ok (detachedSpec repr spec)
  ok (checkClaim workerId leaseSeconds)
  let response ← request repr "queue_claim_task"
    [("task_id", .str spec.taskId), ("worker_id", .str workerId), ("lease_seconds", .num (.int leaseSeconds))]
  let time ← now
  ok (claimedLease repr time workerId (some spec) response)

/-- The checks of a row that was written under a fence. -/
def checkWritten (record : HostedQueueLease) (expectedRevision leaseGeneration : ℤ) : Except HostedError Unit := do
  refuseIf (record.revision ≠ expectedRevision + 1) "queue_revision_increment_mismatch"
  refuseIf (record.leaseGeneration ≠ leaseGeneration) "queue_fencing_generation_changed"

/-- `record.fenced` -/
def fenced (record : HostedQueueLease) : Bool :=
  record.status = "running" && record.leaseOwner.isSome && record.leaseExpiresAt.isSome

/-- The fields of a save under a lease. -/
def saveFields (spec : TaskSpec) (state : TaskState) (expectedRevision : ℤ) (workerId : String) (leaseGeneration leaseSeconds : ℤ) :
    Dict Doc :=
  [("task_id", .str spec.taskId), ("expected_revision", .num (.int expectedRevision)), ("worker_id", .str workerId),
    ("lease_generation", .num (.int leaseGeneration)), ("status", state.status.toDoc), ("state", state.toDict),
    ("lease_seconds", .num (.int leaseSeconds))]

/-- `state.status`, where it is in `_SAVE_STATUSES`. -/
def saveStatus (state : TaskState) : Option String := (Doc.text? state.status.toDoc).filter fun s => s ∈ SAVE_STATUSES

/-- The checks of the arguments of a save. -/
def checkSave (state : TaskState) (expectedRevision : ℤ) (workerId : String) (leaseGeneration leaseSeconds : ℤ) :
    Except HostedError Unit := builtin do
  raiseIf (saveStatus state = none) (.valueError "invalid_leased_checkpoint_status")
  raiseIf (expectedRevision < 0) (.valueError "expected_revision_must_be_non_negative_integer")
  raiseIf (Queue.isWorkerId workerId = false) (.valueError "invalid_worker_id")
  raiseIf (leaseGeneration < 1) (.valueError "invalid_lease_generation")
  raiseIf (validLeaseSeconds leaseSeconds = false) (.valueError "invalid_lease_seconds")

/-- The lease a save returned. -/
def savedLease (time : String) (spec : TaskSpec) (state : TaskState) (expectedRevision : ℤ) (workerId : String)
    (leaseGeneration : ℤ) (response : Dict Doc) : Except HostedError HostedQueueLease := do
  let record ← parseLease repr time (Dict.getD response "lease" .null) (some spec)
  checkWritten record expectedRevision leaseGeneration
  if state.status = .running then
    refuseIf (record.leaseOwner ≠ some workerId ∨ fenced record = false) "running_lease_not_preserved"
  else refuseIf (record.leaseOwner ≠ none ∨ record.leaseExpiresAt ≠ none) "terminal_lease_not_released"
  return record

def save (spec : TaskSpec) (state : TaskState) (expectedRevision : ℤ) (workerId : String) (leaseGeneration leaseSeconds : ℤ) :
    ClientProg HostedQueueLease := do
  let spec ← ok (detachedSpec repr spec)
  let time ← now
  let state ← ok (cleanState repr time spec state)
  ok (checkSave state expectedRevision workerId leaseGeneration leaseSeconds)
  let response ← request repr "queue_save" (saveFields spec state expectedRevision workerId leaseGeneration leaseSeconds)
  let time ← now
  ok (savedLease repr time spec state expectedRevision workerId leaseGeneration response)

/-- The checks of the arguments of a reconciliation. -/
def checkReconcile (state : TaskState) (expectedRevision leaseGeneration : ℤ) : Except HostedError Unit := builtin do
  raiseIf (state.status ≠ .blocked) (.valueError "blocked_state_required")
  raiseIf (expectedRevision < 0) (.valueError "expected_revision_must_be_non_negative_integer")
  raiseIf (leaseGeneration < 1) (.valueError "invalid_lease_generation")

/-- The lease a reconciliation returned. -/
def reconciledLease (time : String) (spec : TaskSpec) (expectedRevision leaseGeneration : ℤ) (response : Dict Doc) :
    Except HostedError HostedQueueLease := do
  let record ← parseLease repr time (Dict.getD response "lease" .null) (some spec)
  refuseIf (record.status ≠ "blocked") "expired_reconciliation_not_blocked"
  checkWritten record expectedRevision leaseGeneration
  refuseIf (record.leaseOwner ≠ none ∨ record.leaseExpiresAt ≠ none) "expired_lease_not_cleared"
  return record

def reconcileExpired (spec : TaskSpec) (state : TaskState) (expectedRevision leaseGeneration : ℤ) : ClientProg HostedQueueLease := do
  let spec ← ok (detachedSpec repr spec)
  let time ← now
  let state ← ok (cleanState repr time spec state)
  ok (checkReconcile state expectedRevision leaseGeneration)
  let response ← request repr "queue_reconcile_expired"
    [("task_id", .str spec.taskId), ("expected_revision", .num (.int expectedRevision)),
      ("lease_generation", .num (.int leaseGeneration)), ("state", state.toDict)]
  let time ← now
  ok (reconciledLease repr time spec expectedRevision leaseGeneration response)

end Client

end HostedQueue

end Keirin

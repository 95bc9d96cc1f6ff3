import Keirin.HostedQueue
import Keirin.QueueEdge

/-!
# The client of the checkpoints

`hosted_checkpoint.py`, and over it `trusted_run_enqueue.py` and `trusted_run_instance.py`: the client that creates a checkpoint
and reads it, and the enqueuer that creates or finds one pristine run of the trusted task.
-/

namespace Keirin

structure HostedCheckpointRecord where
  taskId : String
  status : String
  revision : ℤ
  idempotencyKey : String
  spec : TaskSpec
  state : TaskState
  createdAt : Option String
  updatedAt : Option String

namespace HostedCheckpoint

open HostedQueue (builtin ok now nonempty? rowStatus modelError stateStatus)

section Client

variable (repr : Doc → String)

/-- Raise an integrity error where `bad` holds. -/
def refuseIf (bad : Prop) [Decidable bad] (message : String) : Except HostedError Unit := raiseIf bad (.checkpointIntegrity message)

/-- A part of a record that must be there. -/
def part {α : Type} (x : Option α) (message : String) : Except HostedError α :=
  match x with
  | some a => .ok a
  | none => .error (.checkpointIntegrity message)

/-- `_detached_spec`, with the check that follows it. -/
def detachedSpec (spec : TaskSpec) : Except HostedError TaskSpec := builtin do
  let spec ← Runner.detach repr spec
  spec.validate
  return spec

/-- `_detached_state` -/
def detachedState (time : String) (state : TaskState) : Except HostedError TaskState := builtin do
  raiseIf (state.toDict.encodable = false) (.typeError "Object is not JSON serializable")
  raiseIf (state.toDict.finite = false) (.valueError "Out of range float values are not JSON compliant")
  TaskState.fromDict repr time (Doc.entries state.toDict)

/-- `_error_from_response` -/
def errorFromResponse (response : Dict Doc) : HostedError :=
  let message := Doc.toStr repr (Doc.getOr response "error" (.str "hosted_checkpoint_request_failed"))
  let code := Doc.toStr repr (Doc.getOr response "backend_code" (.str ""))
  if Doc.pyEq (Dict.getD response "backend_status" .null) (.num (.int 404)) = true ∨ message = "Checkpoint not found" then
    .checkpointNotFound message
  else if code ∈ ["40001", "23505"] ∨ "checkpoint_conflict".toList <:+: message.toList ∨ message = "duplicate" then
    .checkpointConflict message
  else .checkpointError message

/-- The response of a reply that reports success. -/
def accept : Except PyError Doc → Except HostedError (Dict Doc)
  | .error e => .error (.builtin e)
  | .ok (.obj response) =>
    if Dict.getD response "success" .null = .bool true then .ok response else .error (errorFromResponse repr response)
  | .ok _ => .error (.checkpointError "invalid_hosted_checkpoint_response")

/-- `_request` -/
def request (mode : String) (fields : Dict Doc) : ClientProg (Dict Doc) := .cmd (.request mode fields) fun reply => ok (accept repr reply)

/-- `_validate_state_for_spec` for the initial state of a task. -/
def validateInitialState (time : String) (spec : TaskSpec) (state : TaskState) : Except HostedError TaskState := do
  let detached ← detachedState repr time state
  let fingerprint ← builtin spec.fingerprint
  refuseIf (detached.taskId ≠ spec.taskId) "task_state_id_mismatch"
  refuseIf (detached.specFingerprint ≠ .null ∧ detached.specFingerprint ≠ .str fingerprint) "task_spec_changed"
  refuseIf (detached.status ≠ .pending) "initial_state_must_be_pending"
  return { detached with specFingerprint := .str fingerprint }

/-- `_parse_revision` -/
def parseRevision : Doc → Except HostedError ℤ
  | .num (.int n) => if n < 0 then .error (.checkpointIntegrity "invalid_checkpoint_revision") else .ok n
  | _ => .error (.checkpointIntegrity "invalid_checkpoint_revision")

/-- `_parse_full_record` -/
def parseFullRecord (time : String) (checkpoint : Doc) (expectedSpec : TaskSpec) : Except HostedError HostedCheckpointRecord := do
  let record ← part (HostedActivity.mapping? checkpoint) "checkpoint_object_required"
  let field := fun key => Dict.getD record key .null
  refuseIf (field "task_id" ≠ .str expectedSpec.taskId) "checkpoint_task_id_mismatch"
  let status ← rowStatus .checkpointIntegrity "invalid_checkpoint_status" (field "status")
  let revision ← parseRevision (field "revision")
  let key ← part (nonempty? (field "idempotency_key")) "invalid_checkpoint_idempotency_key"
  let rawSpec ← part (HostedActivity.mapping? (field "spec")) "checkpoint_spec_state_required"
  let rawState ← part (HostedActivity.mapping? (field "state")) "checkpoint_spec_state_required"
  let spec ← (TaskSpec.fromDict repr rawSpec).mapError (modelError (.checkpointIntegrity "invalid_checkpoint_model"))
  let state ← (TaskState.fromDict repr time rawState).mapError (modelError (.checkpointIntegrity "invalid_checkpoint_model"))
  refuseIf (Doc.pyEq spec.toDict expectedSpec.toDict = false) "task_spec_changed"
  let fingerprint ← builtin expectedSpec.fingerprint
  refuseIf (field "spec_fingerprint" ≠ .str fingerprint) "checkpoint_spec_fingerprint_mismatch"
  refuseIf (state.specFingerprint ≠ .str fingerprint) "state_spec_fingerprint_mismatch"
  refuseIf (state.taskId ≠ expectedSpec.taskId) "task_state_id_mismatch"
  refuseIf (state.status ≠ stateStatus status) "checkpoint_state_status_mismatch"
  return { taskId := expectedSpec.taskId
           status := status
           revision := revision
           idempotencyKey := key
           spec := spec
           state := state
           createdAt := Doc.text? (field "created_at")
           updatedAt := Doc.text? (field "updated_at") }

/-- `create` with the state of a new task. -/
def create (spec : TaskSpec) (idempotencyKey : String) : ClientProg HostedCheckpointRecord := do
  let spec ← ok (detachedSpec repr spec)
  let created ← now
  let time ← now
  let state ← ok (validateInitialState repr time spec { taskId := spec.taskId, updatedAt := created })
  let key := strip (if idempotencyKey = "" then spec.taskId else idempotencyKey)
  ok (builtin (raiseIf (key = "") (.valueError "idempotency_key_required")))
  let response ← request repr "checkpoint_create"
    [("task", spec.toDict), ("state", state.toDict), ("idempotency_key", .str key)]
  let time ← now
  ok (parseFullRecord repr time (Dict.getD response "checkpoint" .null) spec)

def get (spec : TaskSpec) : ClientProg HostedCheckpointRecord := do
  let spec ← ok (detachedSpec repr spec)
  let response ← request repr "checkpoint_get" [("task_id", .str spec.taskId)]
  let time ← now
  ok (parseFullRecord repr time (Dict.getD response "checkpoint" .null) spec)

end Client

end HostedCheckpoint

namespace TrustedRun

open HostedQueue (builtin ok)

/-! ## The trusted task -/

def TRUSTED_TASK_ID : String := "keirin-readonly-status-check"

def TRUSTED_TASK_FINGERPRINT : String := "sha256-v1:f9af0209ae2545d096d9c04cf4cfe5d434b90407bfc6aaa73ca0c6445d749403"

/-- `TRUSTED_RUN_ID_PREFIX` -/
def TRUSTED_RUN_ID_PREFIX : String := TRUSTED_TASK_ID ++ "."

section Enqueue

/- `template` is what the file of the trusted task holds. -/
variable (repr : Doc → String) (template : Dict Doc)

/-- `trusted_status_template_spec` -/
def trustedStatusTemplateSpec : Except PyError TaskSpec := do
  let spec ← TaskSpec.fromDict repr template
  raiseIf (spec.taskId ≠ TRUSTED_TASK_ID) (.valueError "trusted_status_template_changed")
  let fingerprint ← spec.fingerprint
  raiseIf (fingerprint ≠ TRUSTED_TASK_FINGERPRINT) (.valueError "trusted_status_template_changed")
  return spec

/-- `_instance_token` -/
def checkInstanceToken (taskId : String) : Except PyError Unit := do
  raiseIf (TRUSTED_RUN_ID_PREFIX.toList.isPrefixOf taskId.toList = false) (.valueError "trusted_run_instance_id_required")
  raiseIf (QueueEdge.isTrustedRunId taskId = false) (.valueError "invalid_trusted_run_instance_token")

/-- `validate_trusted_status_run_spec` -/
def validateTrustedStatusRunSpec (spec : TaskSpec) : Except PyError Unit := do
  let candidate ← TaskSpec.fromDict repr spec.fields
  checkInstanceToken candidate.taskId
  let template ← trustedStatusTemplateSpec repr template
  let canonical ← TaskSpec.fromDict repr (Dict.set "task_id" (.str TRUSTED_TASK_ID) candidate.fields)
  raiseIf (Doc.pyEq canonical.toDict template.toDict = false) (.valueError "trusted_run_instance_scope_mismatch")
  let fingerprint ← canonical.fingerprint
  raiseIf (fingerprint ≠ TRUSTED_TASK_FINGERPRINT) (.valueError "trusted_run_instance_template_fingerprint_mismatch")

/-! ## The enqueuer -/

structure TrustedRunEnqueueResult where
  record : HostedCheckpointRecord
  created : Bool

/-- `_assert_pristine` -/
def assertPristine (record : HostedCheckpointRecord) (spec : TaskSpec) : Except HostedError HostedCheckpointRecord := do
  raiseIf (record.taskId ≠ spec.taskId ∨ Doc.pyEq record.spec.toDict spec.toDict = false)
    (.trustedRunAlreadyUsed "trusted_run_instance_identity_mismatch")
  raiseIf (record.idempotencyKey ≠ spec.taskId) (.trustedRunAlreadyUsed "trusted_run_instance_idempotency_mismatch")
  raiseIf (record.status ≠ "queued" ∨ record.revision ≠ 0 ∨ record.state.status ≠ .pending)
    (.trustedRunAlreadyUsed ("trusted_run_instance_already_used:" ++ record.status))
  raiseIf (record.state.attempts ≠ [] ∨ record.state.completedSteps ≠ [])
    (.trustedRunAlreadyUsed "trusted_run_instance_has_prior_progress")
  return record

/-- The result for a record that was found, or that was created. -/
def resultOf (spec : TaskSpec) (created : Bool) (record : HostedCheckpointRecord) : ClientProg TrustedRunEnqueueResult := do
  let record ← ok (assertPristine record spec)
  return { record := record, created := created }

/-- What follows a creation that was refused: the record is looked for once more. -/
def afterConflict (spec : TaskSpec) : ClientProg TrustedRunEnqueueResult := do
  match ← (HostedCheckpoint.get repr spec).outcome with
  | .ok existing => resultOf spec false existing
  | .error (.checkpointNotFound _) => .raise (.trustedRunAlreadyUsed "another_trusted_run_instance_is_active")
  | .error e => .raise e

/-- What follows when there was no record. -/
def createNew (spec : TaskSpec) : ClientProg TrustedRunEnqueueResult := do
  match ← (HostedCheckpoint.create repr spec spec.taskId).outcome with
  | .ok created => resultOf spec true created
  | .error (.checkpointConflict _) => afterConflict repr spec
  | .error e => .raise e

/-- `ensure_queued` -/
def ensureQueued (spec : TaskSpec) : ClientProg TrustedRunEnqueueResult := do
  let spec ← ok (builtin (TaskSpec.fromDict repr spec.fields))
  ok (builtin (validateTrustedStatusRunSpec repr template spec))
  match ← (HostedCheckpoint.get repr spec).outcome with
  | .ok existing => resultOf spec false existing
  | .error (.checkpointNotFound _) => createNew repr spec
  | .error e => .raise e

end Enqueue

end TrustedRun

end Keirin

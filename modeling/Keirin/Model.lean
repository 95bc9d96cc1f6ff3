import Keirin.Lib.Sha256
import Keirin.Python

/-!
# Task definitions and task states

A task definition (`TaskSpec`) is frozen when the task is first run and is identified by the digest of its JSON text; the
progress of the task is its `TaskState`. An action reports what it made by artifact updates, which are merged into the
artifacts of the state.
-/

namespace Keirin

def TASK_SCHEMA_VERSION : String := "agent-task-v1"
def STATE_SCHEMA_VERSION : String := "agent-task-state-v1"
def ARTIFACT_SCHEMA_VERSION : String := "agent-artifact-state-v1"

/-! ## Steps -/

structure StepSpec where
  stepId : String
  action : String
  args : Dict Doc
  verifyAction : Option String
  retrySafe : Bool
  maxAttempts : Int
deriving DecidableEq

namespace StepSpec

def validate (step : StepSpec) : Except PyError Unit := do
  raiseIf (isBlank step.stepId = true) (.valueError "step_id_required")
  raiseIf (isBlank step.action) (.valueError "action_required")
  raiseIf (step.maxAttempts < 1) (.valueError "max_attempts_must_be_positive")
  raiseIf (step.retrySafe = false ∧ step.maxAttempts ≠ 1) (.valueError "unsafe_retry_requires_single_attempt")

def toDict (step : StepSpec) : Doc :=
  .obj [("step_id", .str step.stepId), ("action", .str step.action), ("args", .obj step.args),
    ("verify_action", Doc.ofOption step.verifyAction), ("retry_safe", .bool step.retrySafe),
    ("max_attempts", .num (.int step.maxAttempts))]

/-- `payload[key]` -/
def item (payload : Dict Doc) (key : String) : Except PyError Doc :=
  match Dict.get? key payload with
  | some v => .ok v
  | none => .error (.keyError key)

def fromDict (repr : Doc → String) (payload : Doc) : Except PyError StepSpec := do
  let .obj payload := payload | throw (.typeError "string indices must be integers")
  let stepId ← item payload "step_id"
  let action ← item payload "action"
  let args ← Doc.toDict (Doc.getOr payload "args" (.obj []))
  let verifyAction := Dict.getD payload "verify_action" .null
  let retrySafe := Doc.truthy (Dict.getD payload "retry_safe" (.bool false))
  let maxAttempts ← Doc.toInt (Dict.getD payload "max_attempts" (.num (.int 1)))
  return { stepId := Doc.toStr repr stepId
           action := Doc.toStr repr action
           args := args
           verifyAction := if verifyAction = .null then none else some (Doc.toStr repr verifyAction)
           retrySafe := retrySafe
           maxAttempts := maxAttempts }

/-- `verify_action` where it is present and not empty. -/
def verifier (step : StepSpec) : Option String := step.verifyAction.filter (fun a => a ≠ "")

end StepSpec

/-! ## Tasks -/

structure TaskSpec where
  taskId : String
  title : String
  goal : String
  allowedActions : List String
  steps : List StepSpec
  inputs : Dict Doc
  completionConditions : List String
  schemaVersion : String
deriving DecidableEq

namespace TaskSpec

/-- The fields of `to_dict`. -/
def fields (spec : TaskSpec) : Dict Doc :=
  [("schema_version", .str spec.schemaVersion), ("task_id", .str spec.taskId), ("title", .str spec.title),
    ("goal", .str spec.goal), ("allowed_actions", .arr (spec.allowedActions.map .str)),
    ("steps", .arr (spec.steps.map StepSpec.toDict)), ("inputs", .obj spec.inputs),
    ("completion_conditions", .arr (spec.completionConditions.map .str))]

def toDict (spec : TaskSpec) : Doc := .obj spec.fields

/-- The text the digest is taken of. -/
def encoded (spec : TaskSpec) : List Char := spec.toDict.dumps Scalar.text

/-- The digest of a text, with its version. -/
def digest (text : List Char) : String := String.ofList ("sha256-v1:".toList ++ Sha256.hexdigest (Text.utf8 text))

/-- The versioned digest of the definition. -/
def fingerprint (spec : TaskSpec) : Except PyError String :=
  if spec.toDict.finite then .ok (digest spec.encoded)
  else .error (.valueError "Out of range float values are not JSON compliant")

/-- The checks on the steps; `seen` are the identifiers before. -/
def validateSteps (allowed : List String) : List StepSpec → (seen : List String) → Except PyError Unit
  | [], _ => .ok ()
  | step :: steps, seen => do
    step.validate
    raiseIf (step.stepId ∈ seen) (.valueError "duplicate_step_id")
    raiseIf (step.action ∉ allowed) (.valueError s!"action_not_allowed:{step.action}")
    raiseIf (∃ a ∈ step.verifier, a ∉ allowed)
      (.valueError ("verification_action_not_allowed:" ++ step.verifier.getD ""))
    validateSteps allowed steps (step.stepId :: seen)

def validate (spec : TaskSpec) : Except PyError Unit := do
  raiseIf (spec.schemaVersion ≠ TASK_SCHEMA_VERSION) (.valueError "task_schema_mismatch")
  raiseIf (isBlank spec.taskId) (.valueError "task_id_required")
  raiseIf (isBlank spec.title) (.valueError "title_required")
  raiseIf (isBlank spec.goal) (.valueError "goal_required")
  raiseIf (spec.steps.isEmpty) (.valueError "at_least_one_step_required")
  raiseIf (¬spec.allowedActions.Nodup) (.valueError "duplicate_allowed_action")
  validateSteps spec.allowedActions spec.steps []

def fromDict (repr : Doc → String) (payload : Dict Doc) : Except PyError TaskSpec := do
  let taskId ← StepSpec.item payload "task_id"
  let title ← StepSpec.item payload "title"
  let goal ← StepSpec.item payload "goal"
  let allowedActions ← Doc.toList (Doc.getOr payload "allowed_actions" (.arr []))
  let steps ← Doc.toList (Doc.getOr payload "steps" (.arr []))
  let steps ← steps.mapM (StepSpec.fromDict repr)
  let inputs ← Doc.toDict (Doc.getOr payload "inputs" (.obj []))
  let completionConditions ← Doc.toList (Doc.getOr payload "completion_conditions" (.arr []))
  let spec : TaskSpec :=
    { taskId := Doc.toStr repr taskId
      title := Doc.toStr repr title
      goal := Doc.toStr repr goal
      allowedActions := allowedActions.map (Doc.toStr repr)
      steps := steps
      inputs := inputs
      completionConditions := completionConditions.map (Doc.toStr repr)
      schemaVersion := Doc.toStr repr (Doc.getOr payload "schema_version" (.str "")) }
  spec.validate
  return spec

end TaskSpec

/-! ## Artifacts -/

/-- An artifact update. Its fields are what the action put there; a flag that is null is not reported. -/
structure ArtifactUpdate where
  artifactId : Doc
  kind : Doc
  locator : Doc := .null
  created : Doc := .null
  verified : Doc := .null
  persistentSaved : Doc := .null
  deviceSaved : Doc := .null
  uiLoaded : Doc := .null
  metadata : Doc := .obj []
deriving DecidableEq

namespace ArtifactUpdate

/-- `v.strip()`, which only a text has. -/
def stripped (v : Doc) : Except PyError String :=
  match v with
  | .str s => .ok (strip s)
  | _ => .error (.attributeError "strip")

def validate (update : ArtifactUpdate) : Except PyError Unit := do
  raiseIf ((← stripped update.artifactId) = "") (.valueError "artifact_id_required")
  raiseIf ((← stripped update.kind) = "") (.valueError "artifact_kind_required")

/-- The names of the fields. -/
def fieldNames : List String :=
  ["artifact_id", "kind", "locator", "created", "verified", "persistent_saved", "device_saved", "ui_loaded", "metadata"]

/-- `ArtifactUpdate(**item)` -/
def ofKwargs (item : Dict Doc) : Except PyError ArtifactUpdate :=
  match item.find? (fun f => f.1 ∉ fieldNames), Dict.get? "artifact_id" item, Dict.get? "kind" item with
  | some _, _, _ => .error (.typeError "unexpected keyword argument")
  | none, some artifactId, some kind =>
    .ok { artifactId := artifactId
          kind := kind
          locator := Dict.getD item "locator" .null
          created := Dict.getD item "created" .null
          verified := Dict.getD item "verified" .null
          persistentSaved := Dict.getD item "persistent_saved" .null
          deviceSaved := Dict.getD item "device_saved" .null
          uiLoaded := Dict.getD item "ui_loaded" .null
          metadata := Dict.getD item "metadata" (.obj []) }
  | none, _, _ => .error (.typeError "missing required argument")

/-- `update.__dict__` -/
def toDict (update : ArtifactUpdate) : Doc :=
  .obj [("artifact_id", update.artifactId), ("kind", update.kind), ("locator", update.locator), ("created", update.created),
    ("verified", update.verified), ("persistent_saved", update.persistentSaved), ("device_saved", update.deviceSaved),
    ("ui_loaded", update.uiLoaded), ("metadata", update.metadata)]

end ArtifactUpdate

structure ArtifactState where
  artifactId : Doc
  kind : Doc
  locator : Doc := .null
  created : Doc := .bool false
  verified : Doc := .bool false
  persistentSaved : Doc := .bool false
  deviceSaved : Doc := .bool false
  uiLoaded : Doc := .bool false
  metadata : Doc := .obj []
  schemaVersion : Doc := .str ARTIFACT_SCHEMA_VERSION
deriving DecidableEq

namespace ArtifactState

/-- A flag after a merge: `bool(value)` where the update reports it. -/
def mergeFlag (value old : Doc) : Doc := if value = .null then old else .bool (Doc.truthy value)

/-- `self.metadata.update(metadata)`, which only a mapping has. -/
def mergeMetadata (old metadata : Doc) : Except PyError Doc :=
  if Doc.truthy metadata then
    match old with
    | .obj fs => (Doc.toDict metadata).map (fun kvs => .obj (Dict.update fs kvs))
    | _ => .error (.attributeError "update")
  else .ok old

def merge (self : ArtifactState) (update : ArtifactUpdate) : Except PyError ArtifactState := do
  raiseIf (Doc.truthy update.kind && self.kind ≠ update.kind) (.valueError "artifact_kind_conflict")
  let metadata ← mergeMetadata self.metadata update.metadata
  return { self with
    locator := if update.locator = .null then self.locator else update.locator
    created := mergeFlag update.created self.created
    verified := mergeFlag update.verified self.verified
    persistentSaved := mergeFlag update.persistentSaved self.persistentSaved
    deviceSaved := mergeFlag update.deviceSaved self.deviceSaved
    uiLoaded := mergeFlag update.uiLoaded self.uiLoaded
    metadata := metadata }

def toDict (a : ArtifactState) : Doc :=
  .obj [("artifact_id", a.artifactId), ("kind", a.kind), ("locator", a.locator), ("created", a.created),
    ("verified", a.verified), ("persistent_saved", a.persistentSaved), ("device_saved", a.deviceSaved),
    ("ui_loaded", a.uiLoaded), ("metadata", a.metadata), ("schema_version", a.schemaVersion)]

/-- `ArtifactState(**value)` -/
def ofKwargs (value : Doc) : Except PyError ArtifactState := do
  let .obj item := value | throw (.typeError "argument after ** must be a mapping")
  raiseIf (item.any (fun f => f.1 ∉ ArtifactUpdate.fieldNames ++ ["schema_version"]))
    (.typeError "unexpected keyword argument")
  match Dict.get? "artifact_id" item, Dict.get? "kind" item with
  | some artifactId, some kind =>
    return { artifactId := artifactId
             kind := kind
             locator := Dict.getD item "locator" .null
             created := Dict.getD item "created" (.bool false)
             verified := Dict.getD item "verified" (.bool false)
             persistentSaved := Dict.getD item "persistent_saved" (.bool false)
             deviceSaved := Dict.getD item "device_saved" (.bool false)
             uiLoaded := Dict.getD item "ui_loaded" (.bool false)
             metadata := Dict.getD item "metadata" (.obj [])
             schemaVersion := Dict.getD item "schema_version" (.str ARTIFACT_SCHEMA_VERSION) }
  | _, _ => throw (.typeError "missing required argument")

end ArtifactState

/-! ## Task states -/

/-- The status of a task state; a stored document may hold any other value. -/
inductive TaskStatus
  | pending
  | running
  | completed
  | blocked
  | failed
  | other (v : Doc)
deriving DecidableEq

namespace TaskStatus

def toDoc : TaskStatus → Doc
  | pending => .str "pending"
  | running => .str "running"
  | completed => .str "completed"
  | blocked => .str "blocked"
  | failed => .str "failed"
  | other v => v

def ofDoc (v : Doc) : TaskStatus :=
  if v = .str "pending" then pending
  else if v = .str "running" then running
  else if v = .str "completed" then completed
  else if v = .str "blocked" then blocked
  else if v = .str "failed" then failed
  else other v

end TaskStatus

structure TaskState where
  taskId : String
  status : TaskStatus := .pending
  completedSteps : List Doc := []
  attempts : Dict Int := []
  blockedReason : Doc := .null
  lastError : Doc := .null
  artifacts : Dict ArtifactState := []
  reconciliations : List Doc := []
  updatedAt : String := ""
  schemaVersion : String := STATE_SCHEMA_VERSION
  specFingerprint : Doc := .null
deriving DecidableEq

namespace TaskState

/-- The attempts of a step that have been recorded. -/
def attemptsOf (state : TaskState) (stepId : String) : Int := Dict.getD state.attempts stepId 0

/-- Whether the step is among the completed ones. -/
def done (state : TaskState) (stepId : String) : Bool := Json.str stepId ∈ state.completedSteps

def toDict (state : TaskState) : Doc :=
  .obj [("task_id", .str state.taskId), ("status", state.status.toDoc), ("completed_steps", .arr state.completedSteps),
    ("attempts", .obj (state.attempts.map (fun a => (a.1, .num (.int a.2))))), ("blocked_reason", state.blockedReason),
    ("last_error", state.lastError), ("artifacts", .obj (state.artifacts.map (fun a => (a.1, a.2.toDict)))),
    ("reconciliations", .arr state.reconciliations), ("updated_at", .str state.updatedAt),
    ("schema_version", .str state.schemaVersion), ("spec_fingerprint", state.specFingerprint)]

/-- The states read from a stored document; `now` is the time of the reading. -/
def fromDict (repr : Doc → String) (now : String) (payload : Dict Doc) : Except PyError TaskState := do
  raiseIf (Dict.getD payload "schema_version" .null ≠ .str STATE_SCHEMA_VERSION) (.valueError "state_schema_mismatch")
  let artifacts ← Doc.toDict (Doc.getOr payload "artifacts" (.obj []))
  let artifacts ← artifacts.mapM (fun a => (ArtifactState.ofKwargs a.2).map (fun v => (a.1, v)))
  let taskId ← StepSpec.item payload "task_id"
  let completedSteps ← Doc.toList (Doc.getOr payload "completed_steps" (.arr []))
  let attempts ← Doc.toDict (Doc.getOr payload "attempts" (.obj []))
  let attempts ← attempts.mapM (fun a => (Doc.toInt a.2).map (fun v => (a.1, v)))
  let reconciliations ← Doc.toList (Doc.getOr payload "reconciliations" (.arr []))
  return { taskId := Doc.toStr repr taskId
           status := TaskStatus.ofDoc (Dict.getD payload "status" (.str "pending"))
           completedSteps := completedSteps
           attempts := attempts
           blockedReason := Dict.getD payload "blocked_reason" .null
           lastError := Dict.getD payload "last_error" .null
           artifacts := artifacts
           reconciliations := reconciliations
           updatedAt := Doc.toStr repr (Doc.getOr payload "updated_at" (.str now))
           schemaVersion := STATE_SCHEMA_VERSION
           specFingerprint := Dict.getD payload "spec_fingerprint" .null }

end TaskState

/-! ## Results of actions -/

/-- What an action raised: `BlockedAction` with its message, `SafeActionError` with its code, or any other exception. -/
inductive ActionExc
  | blocked (message : String)
  | safe (code : String)
  | other

/-- What one pass over an iterable yields: its items, and the exception that ends it, if one does. -/
structure Pass (α : Type) where
  items : List α
  error : Option ActionExc

/-- An iterable, through what its successive passes yield. A list or a tuple yields the same at every pass; an iterator is
empty from the second pass on. -/
structure Iterable (α : Type) where
  listOrTuple : Bool
  pass : Nat → Pass α

namespace Iterable

variable {α : Type}

/-- A list or a tuple. -/
def ofList (items : List α) : Iterable α := { listOrTuple := true, pass := fun _ => { items := items, error := none } }

/-- A value that cannot be iterated. -/
def notIterable : Iterable α :=
  { listOrTuple := false, pass := fun _ => { items := [], error := some .other } }

/-- An iterator or a generator. -/
def once (items : List α) : Iterable α :=
  { listOrTuple := false, pass := fun n => { items := if n = 0 then items else [], error := none } }

/-- The iterable after one pass. -/
def next (it : Iterable α) : Iterable α := { it with pass := fun n => it.pass (n + 1) }

/-- `tuple(it)` -/
def toTuple (it : Iterable α) : Except ActionExc (List α) :=
  match (it.pass 0).error with
  | some e => .error e
  | none => .ok (it.pass 0).items

end Iterable

/-- An item of the artifacts of a result. -/
inductive ArtifactItem
  | update (u : ArtifactUpdate)
  | mapping (fields : Dict Doc)
  | other

/-- An `ActionResult`. -/
structure ActionResult where
  message : Doc
  artifacts : Iterable ArtifactItem
  data : Doc

/-- A mapping an action returned, through what the runner asks of it: `value.get("artifacts", ())`,
`str(value.get("message") or "")`, `dict(value.get("data") or {})` and `value.get("verified") is True`. -/
structure DictResult where
  artifacts : Iterable ArtifactItem
  message : Except ActionExc String
  data : Except ActionExc (Dict Doc)
  verified : Bool

/-- What an action returned; `mapping` is a mapping that is not a `dict`. -/
inductive Returned
  | none
  | bool (b : Bool)
  | result (r : ActionResult)
  | dict (d : DictResult)
  | mapping (d : DictResult)
  | other

end Keirin

import Keirin.Lib.Prog
import Keirin.Model

/-!
# The runner

The sequential, resumable runner of a task. It is a program over the commands it issues: to its store (`lock`, `exists`,
`load`, `save`, `event`) and to the actions (`invoke` starts a call, `await` is its answer). Whatever store and whatever
actions it runs against, this is the one definition of what it does.
-/

namespace Keirin

/-- An entry of the activity ledger. -/
structure Event where
  taskId : String
  stepId : Option String
  eventType : String
  message : Doc
  data : Dict Doc
deriving DecidableEq

/-- Whether a call is that of the action of a step or that of its verifier. -/
inductive Phase
  | action
  | verification
deriving DecidableEq

/-- A call of an action or a verifier. -/
structure ActionCall where
  stepId : String
  phase : Phase
  action : String
  args : Dict Doc
  context : Dict Doc
deriving DecidableEq

/-- What the runner asks of its store and of the actions. -/
inductive RunnerCmd
  | lock
  | exists
  | load
  | save (state : TaskState)
  | event (e : Event)
  | invoke (call : ActionCall)
  | await (call : ActionCall)

/-- The reply to a command. -/
def RunnerCmd.Reply : RunnerCmd → Type
  | lock => Except PyError Unit
  | «exists» => Except PyError Bool
  | load => Except PyError TaskState
  | save _ => Except PyError Unit
  | event _ => Except PyError Unit
  | invoke _ => Unit
  | await _ => Except ActionExc Returned

abbrev RunProg := Prog RunnerCmd RunnerCmd.Reply PyError

structure RunOutcome where
  taskId : String
  status : TaskStatus
  completedSteps : List Doc
  blockedReason : Doc
  lastError : Doc
  executedSteps : List String
  skippedSteps : List String
deriving DecidableEq

/-! ## Results -/

/-- `_normalise_action_result` -/
def normaliseActionResult : Returned → Except ActionExc ActionResult
  | .none => .ok { message := .str "", artifacts := .ofList [], data := .obj [] }
  | .result r => .ok r
  | .dict d => do
    let items ← d.artifacts.toTuple
    let artifacts ← items.mapM (fun item => match item with
      | .update u => .ok (.update u)
      | .mapping fields =>
        match ArtifactUpdate.ofKwargs fields with
        | .ok u => .ok (.update u)
        | .error _ => .error ActionExc.other
      | .other => .error .other)
    let message ← d.message
    let data ← d.data
    return { message := .str message, artifacts := .ofList artifacts, data := .obj data }
  | .bool _ => .error .other
  | .mapping _ => .error .other
  | .other => .error .other

/-- `_verification_passed` -/
def verificationPassed : Returned → Except ActionExc Bool
  | .bool b => .ok b
  | .result r =>
    match r.data with
    | .obj fs => .ok (Dict.getD fs "verified" .null = .bool true)
    | _ => .error .other
  | .dict d => .ok d.verified
  | .none => .ok false
  | .mapping _ => .ok false
  | .other => .ok false

/-- `_persistent_error` -/
def persistentError (exc : ActionExc) (verification : Bool) : String :=
  match exc with
  | .safe code => s!"SafeActionError:{code}"
  | _ =>
    if verification then "UntrustedActionError:verification_exception_redacted"
    else "UntrustedActionError:action_exception_redacted"

/-- `store.apply_artifact_update`, the same in both stores. -/
def applyArtifactUpdate (state : TaskState) (item : ArtifactItem) : Except PyError TaskState :=
  match item with
  | .update u => do
    u.validate
    let .str key := u.artifactId | throw (.attributeError "strip")
    let existing := (Dict.get? key state.artifacts).getD { artifactId := u.artifactId, kind := u.kind }
    let merged ← existing.merge u
    return { state with artifacts := Dict.set key merged state.artifacts }
  | .mapping _ => .error (.attributeError "validate")
  | .other => .error (.attributeError "validate")

/-- Apply the artifacts of a result, in one pass. -/
def applyArtifacts (state : TaskState) (artifacts : Iterable ArtifactItem) : Except PyError TaskState := do
  let state ← (artifacts.pass 0).items.foldlM applyArtifactUpdate state
  match (artifacts.pass 0).error with
  | some _ => throw (.runtimeError "artifacts")
  | none => return state

/-- The arguments of a verifier; the artifacts are iterated once more. -/
def verifyArgs (step : StepSpec) (result : ActionResult) : Except PyError (Dict Doc) := do
  let data ← Doc.toDict result.data
  let items ← match result.artifacts.next.toTuple with
    | .ok items => pure items
    | .error _ => throw (.runtimeError "artifacts")
  let artifacts ← items.mapM (fun item => match item with
    | .update u => .ok u.toDict
    | .mapping _ => .error (.attributeError "__dict__")
    | .other => .error (.attributeError "__dict__"))
  return [("step_action", .str step.action), ("step_args", .obj step.args),
    ("action_result", .obj [("message", result.message), ("data", .obj data), ("artifacts", .arr artifacts)])]

/-! ## Commands -/

namespace Runner

/-- Go on with the value of a reply, or raise its error. -/
def unwrap {α : Type} : Except PyError α → RunProg α
  | .ok a => .ret a
  | .error e => .raise e

def lock : RunProg Unit := .cmd .lock unwrap

def «exists» : RunProg Bool := .cmd .exists unwrap

def loadState : RunProg TaskState := .cmd .load unwrap

def saveState (state : TaskState) : RunProg Unit := .cmd (.save state) unwrap

def appendEvent (taskId eventType : String) (message : Doc) (stepId : Option String) (data : Dict Doc) : RunProg Unit :=
  .cmd (.event { taskId := taskId, stepId := stepId, eventType := eventType, message := message, data := data }) unwrap

/-- Call an action and wait for its answer. -/
def call (c : ActionCall) : RunProg (Except ActionExc Returned) := .cmd (.invoke c) (fun _ => .cmd (.await c) .ret)

/-! ## The run -/

def outcome (state : TaskState) (executed skipped : List String) : RunOutcome :=
  { taskId := state.taskId
    status := state.status
    completedSteps := state.completedSteps
    blockedReason := state.blockedReason
    lastError := state.lastError
    executedSteps := executed
    skippedSteps := skipped }

/-- `_block` -/
def block (state : TaskState) (reason : String) (step : Option StepSpec) (error : Option String) : RunProg TaskState := do
  let state := { state with status := .blocked, blockedReason := .str reason, lastError := Doc.ofOption error }
  saveState state
  appendEvent state.taskId "task_blocked" (.str reason) (step.map StepSpec.stepId)
    (match error with
      | some e => [("error", .str e)]
      | none => [])
  return state

/-- The steps whose attempts were recorded and that are not completed. -/
def unresolved (state : TaskState) : List String :=
  ((state.attempts.filter (fun a => 0 < a.2 && !state.done a.1)).map Prod.fst).insertionSort (· ≤ ·)

/-- What became of a step: the run goes on, or it ends. -/
inductive StepResult
  | next (state : TaskState)
  | stop (state : TaskState)

/-- What became of the attempts of a step: a result, or the run ends. -/
inductive AttemptResult
  | done (state : TaskState) (result : ActionResult)
  | stop (state : TaskState)

section Run

variable (spec : TaskSpec) (actions : List String) (context : Dict Doc)

def baseContext : Dict Doc :=
  Dict.set "task_inputs" (.obj spec.inputs) (Dict.set "task_id" (.str spec.taskId) context)

def stepContext (step : StepSpec) : Dict Doc :=
  Dict.update (baseContext spec context)
    [("task_inputs", .obj spec.inputs), ("step_id", .str step.stepId),
      ("idempotency_key", .str s!"{spec.taskId}:{step.stepId}")]

/-- An attempt that raised an exception other than `BlockedAction`: the task is blocked, or fails, or the step is retried. -/
def attemptFailed (step : StepSpec) (attempt : Int) (error : String) (state : TaskState)
    (retry : TaskState → RunProg AttemptResult) : RunProg AttemptResult := do
  let state := { state with lastError := .str error }
  appendEvent spec.taskId "step_error" (.str error) (some step.stepId) [("attempt", .num (.int attempt))]
  if step.retrySafe = false then
    let state ← block state "action_error_requires_reconciliation" (some step) (some error)
    return .stop state
  else if step.maxAttempts ≤ attempt then
    let state := { state with status := .failed, blockedReason := .null }
    saveState state
    appendEvent spec.taskId "task_failed" (.str "retry-safe action exhausted configured attempts") (some step.stepId)
      [("error", .str error), ("attempts", .num (.int attempt))]
    return .stop state
  else
    retry state

/-- The attempts of a step: the attempt is recorded before the action is called. `fuel` counts the attempts that are left; from
`attemptFuel` it does not run out (`attempts_follows`). -/
def attempts (step : StepSpec) : (fuel : Nat) → TaskState → RunProg AttemptResult
  | fuel, state => do
    let attempt := state.attemptsOf step.stepId + 1
    let state := { state with attempts := Dict.set step.stepId attempt state.attempts }
    saveState state
    appendEvent spec.taskId "step_started" (.str step.action) (some step.stepId)
      [("attempt", .num (.int attempt)), ("retry_safe", .bool step.retrySafe)]
    let answer ← call
      { stepId := step.stepId, phase := .action, action := step.action, args := step.args,
        context := stepContext spec context step }
    match answer.bind normaliseActionResult with
    | .ok result => return .done state result
    | .error (.blocked message) =>
      let state ← block state s!"action_blocked:{message}" (some step) none
      return .stop state
    | .error exc =>
      attemptFailed spec step attempt (persistentError exc false) state fun state =>
        match fuel with
        | fuel + 1 => attempts step fuel state
        | 0 => .raise (.runtimeError "attempts exhausted")

/-- The attempts that are left after the next one. -/
def attemptFuel (step : StepSpec) (state : TaskState) : Nat :=
  (step.maxAttempts - (state.attemptsOf step.stepId + 1)).toNat

/-- The verification of a step, where it has one. -/
def verify (step : StepSpec) (result : ActionResult) (state : TaskState) : RunProg StepResult :=
  match step.verifier with
  | none => return .next state
  | some verifyAction =>
    if verifyAction ∉ actions then do
      let state ← block state s!"verification_action_unavailable:{verifyAction}" (some step) none
      return .stop state
    else do
      let args ← unwrap (verifyArgs step result)
      let answer ← call
        { stepId := step.stepId, phase := .verification, action := verifyAction, args := args,
          context := stepContext spec context step }
      match answer.bind verificationPassed with
      | .error exc =>
        let state ← block state "verification_error_requires_reconciliation" (some step) (some (persistentError exc true))
        return .stop state
      | .ok false =>
        let state ← block state s!"verification_failed:{verifyAction}" (some step) none
        return .stop state
      | .ok true =>
        appendEvent spec.taskId "step_verified" (.str verifyAction) (some step.stepId) []
        return .next state

/-- A step that is not completed yet. -/
def runStep (step : StepSpec) (state : TaskState) : RunProg StepResult :=
  if step.action ∉ actions then do
    let state ← block state s!"action_unavailable:{step.action}" (some step) none
    return .stop state
  else do
    match ← attempts spec context step (attemptFuel step state) state with
    | .stop state => return .stop state
    | .done state result =>
      let state ← unwrap (applyArtifacts state result.artifacts)
      saveState state
      match ← verify spec actions context step result state with
      | .stop state => return .stop state
      | .next state =>
        let state := { state with completedSteps := state.completedSteps ++ [.str step.stepId], lastError := .null }
        saveState state
        appendEvent spec.taskId "step_completed" result.message (some step.stepId) []
        return .next state

/-- The steps that are left, in their order. -/
def runSteps : List StepSpec → TaskState → (executed skipped : List String) → RunProg RunOutcome
  | [], state, executed, skipped => do
    let state := { state with status := .completed, blockedReason := .null, lastError := .null }
    saveState state
    appendEvent spec.taskId "task_completed" (.str "all configured steps completed and required verifications passed") none
      [("completion_conditions", .arr (spec.completionConditions.map .str))]
    return outcome state executed skipped
  | step :: steps, state, executed, skipped =>
    if state.done step.stepId then do
      appendEvent spec.taskId "step_skipped_completed" (.str "completed step was not repeated") (some step.stepId) []
      runSteps steps state executed (skipped ++ [step.stepId])
    else do
      match ← runStep spec actions context step state with
      | .stop state => return outcome state executed skipped
      | .next state => runSteps steps state (executed ++ [step.stepId]) skipped

/-- The statuses a run does not go on from. -/
def terminal : TaskStatus → Bool
  | .completed => true
  | .blocked => true
  | .failed => true
  | _ => false

/-- The name of a terminal status. -/
def statusName : TaskStatus → String
  | .completed => "completed"
  | .blocked => "blocked"
  | _ => "failed"

/-- The state of a task that did not exist is bound to the definition and saved. -/
def bindSpec (fingerprint : String) (existed : Bool) (state : TaskState) : RunProg TaskState :=
  if existed then .ret state
  else do
    let state := { state with specFingerprint := .str fingerprint }
    saveState state
    return state

/-- The run from the loaded and bound state on. -/
def resume (state : TaskState) : RunProg RunOutcome :=
  if terminal state.status then do
    appendEvent spec.taskId "terminal_resume_skipped"
      (.str s!"task already {statusName state.status}; no action repeated") none []
    return outcome state [] []
  else if unresolved state ≠ [] then do
    let state ← block state ("interrupted_step_requires_reconciliation:" ++ ",".intercalate (unresolved state)) none none
    return outcome state [] []
  else do
    let state := { state with status := .running, blockedReason := .null, lastError := .null }
    saveState state
    appendEvent spec.taskId "task_started" (.str spec.title) none []
    runSteps spec actions context spec.steps state [] []

/-- `_run_locked` -/
def runLocked : RunProg RunOutcome := do
  let existed ← «exists»
  let state ← loadState
  unwrap (raiseIf (state.taskId ≠ spec.taskId) (.valueError "task_state_id_mismatch"))
  let fingerprint ← unwrap spec.fingerprint
  unwrap (raiseIf (existed ∧ state.specFingerprint = .null) (.valueError "legacy_task_spec_requires_review"))
  unwrap (raiseIf (state.specFingerprint ≠ .null ∧ state.specFingerprint ≠ .str fingerprint) (.valueError "task_spec_changed"))
  let state ← bindSpec fingerprint existed state
  resume spec actions context state

end Run

/-- The definition as it is after a round trip through its JSON text, which detaches it from the caller. -/
def detach (repr : Doc → String) (spec : TaskSpec) : Except PyError TaskSpec :=
  if !spec.toDict.encodable then .error (.typeError "Object is not JSON serializable")
  else if !spec.toDict.finite then .error (.valueError "Out of range float values are not JSON compliant")
  else TaskSpec.fromDict repr spec.fields

/-- `AgentRunner.run` -/
def run (repr : Doc → String) (spec : TaskSpec) (actions : List String) (context : Dict Doc) : RunProg RunOutcome := do
  let spec ← unwrap (detach repr spec)
  let _ ← unwrap spec.validate
  lock
  runLocked spec actions context

end Runner

end Keirin

import Keirin.FileStore

/-!
# The runner with its exceptions

The exceptions of actions and verifiers as the host sees them, with their class, text, arguments and attributes; the diagnostics
the runner emits about them; and the runner that handles them. It is the runner of the other modules with one addition: a
failure is reported to the diagnostic sink before it is recorded.
-/

namespace Keirin

/-! ## Exceptions -/

/-- The classes of exceptions that the runner tells apart. -/
inductive ExcClass
  | blockedAction
  | safeActionError (code : String)
  | otherException
deriving DecidableEq

/-- An exception: the name of its type, its text, its arguments and its attributes. -/
structure Raised where
  cls : ExcClass
  typeName : String
  text : String
  args : List Doc
  attributes : Dict Doc

/-- What the runner looks at. -/
def Raised.toExc (e : Raised) : ActionExc :=
  match e.cls with
  | .blockedAction => .blocked e.text
  | .safeActionError code => .safe code
  | .otherException => .other

/-- What became of a call of an action: what it returned or raised, and the exceptions it raises while what it returned is read. -/
structure RawAnswer where
  value : Except Raised Returned
  later : ActionExc → Raised
  later_toExc : ∀ e, (later e).toExc = e

namespace RawAnswer

/-- What the runner looks at. -/
def answer (a : RawAnswer) : Except ActionExc Returned := a.value.mapError Raised.toExc

/-- Read what was returned. -/
def read {α : Type} (f : Returned → Except ActionExc α) (a : RawAnswer) : Except Raised α :=
  a.value.bind fun v => (f v).mapError a.later

/-- Two answers are the same up to what exceptions carry that are neither `BlockedAction` nor `SafeActionError`. -/
def SameUpToText (a b : RawAnswer) : Prop := a.answer = b.answer

end RawAnswer

/-! ## Diagnostics -/

/-- `_SAFE_NAME_RE` -/
def isSafeName (s : String) : Bool :=
  match s.toList with
  | [] => false
  | c :: cs => (c.isAlpha || c = '_') && cs.all (fun c => Text.isAlnum c || c ∈ ['_', '.', ':', '-']) && cs.length ≤ 127

/-- `_SAFE_CODE_RE` -/
def isSafeCode (s : String) : Bool :=
  match s.toList with
  | [] => false
  | c :: cs => c.isLower && cs.all (fun c => c.isLower || c.isDigit || c ∈ ['_', '.', ':', '-']) && cs.length ≤ 127

/-- `safe_exception_type` -/
def safeExceptionType (error : Raised) : String := if isSafeName error.typeName then error.typeName else "Exception"

structure ActionDiagnosticEvent where
  taskId : String
  stepId : String
  action : String
  phase : Phase
  attempt : Int
  retrySafe : Bool
  classification : String
  exceptionType : String
deriving DecidableEq

/-- `not value or len(value) > 256` -/
def badLabel (s : String) : Bool := s = "" || 256 < s.length

/-- `__post_init__` -/
def ActionDiagnosticEvent.validate (e : ActionDiagnosticEvent) : Except PyError Unit := do
  raiseIf (badLabel e.taskId = true) (.valueError "diagnostic_task_id_invalid")
  raiseIf (badLabel e.stepId = true) (.valueError "diagnostic_step_id_invalid")
  raiseIf (badLabel e.action = true) (.valueError "diagnostic_action_invalid")
  raiseIf (e.attempt < 1) (.valueError "diagnostic_attempt_invalid")
  raiseIf (isSafeCode e.classification = false) (.valueError "diagnostic_classification_invalid")
  raiseIf (isSafeName e.exceptionType = false) (.valueError "diagnostic_exception_type_invalid")

/-- `_diagnostic_classification` -/
def diagnosticClassification (exc : Raised) (phase : Phase) : String :=
  match exc.cls, phase with
  | .safeActionError code, _ => code
  | _, .verification => "verification_exception_redacted"
  | _, .action => "action_exception_redacted"

/-! ## Commands -/

/-- What the runner asks of its host: a command to the store or the start of a call, the answer of a call, and to report a
diagnostic. -/
inductive HostCmd
  | store (c : RunnerCmd)
  | answer (call : ActionCall)
  | emit (event : ActionDiagnosticEvent)

/-- The reply to a command; a sink may fail with an exception of its own. -/
def HostCmd.Reply : HostCmd → Type
  | store c => c.Reply
  | answer _ => RawAnswer
  | emit _ => Except String Unit

abbrev HostProg := Prog HostCmd HostCmd.Reply PyError

namespace Diagnosed

open Runner

/-- A part of the runner that calls no action. -/
def lift {α : Type} (p : RunProg α) : HostProg α := p.handle fun c => .cmd (.store c) .ret

/-- Call an action and wait for its answer. -/
def call (c : ActionCall) : HostProg RawAnswer := .cmd (.store (.invoke c)) fun _ => .cmd (.answer c) .ret

/-- `_emit_diagnostic`; a diagnostic that is not valid is not emitted, and a failure of the sink is ignored. -/
def emitDiagnostic (sink : Bool) (event : ActionDiagnosticEvent) : HostProg Unit :=
  if sink = false then .ret ()
  else match event.validate with
    | .error _ => .ret ()
    | .ok () => .cmd (.emit event) fun _ => .ret ()

/-! ## The run -/

section Run

variable (spec : TaskSpec) (actions : List String) (context : Dict Doc) (sink : Bool)

def attemptFailed (step : StepSpec) (attempt : Int) (error : String) (state : TaskState)
    (retry : TaskState → HostProg AttemptResult) : HostProg AttemptResult := do
  let state := { state with lastError := .str error }
  lift (appendEvent spec.taskId "step_error" (.str error) (some step.stepId) [("attempt", .num (.int attempt))])
  if step.retrySafe = false then
    let state ← lift (block state "action_error_requires_reconciliation" (some step) (some error))
    return .stop state
  else if step.maxAttempts ≤ attempt then
    let state := { state with status := .failed, blockedReason := .null }
    lift (saveState state)
    lift (appendEvent spec.taskId "task_failed" (.str "retry-safe action exhausted configured attempts") (some step.stepId)
      [("error", .str error), ("attempts", .num (.int attempt))])
    return .stop state
  else
    retry state

/-- The diagnostic of a failed attempt. -/
def attemptDiagnostic (step : StepSpec) (attempt : Int) (exc : Raised) : ActionDiagnosticEvent :=
  { taskId := spec.taskId
    stepId := step.stepId
    action := step.action
    phase := .action
    attempt := attempt
    retrySafe := step.retrySafe
    classification := diagnosticClassification exc .action
    exceptionType := safeExceptionType exc }

/-- The handling of an exception an action raised. -/
def attemptRaised (step : StepSpec) (attempt : Int) (exc : Raised) (state : TaskState)
    (retry : TaskState → HostProg AttemptResult) : HostProg AttemptResult :=
  match exc.toExc with
  | .blocked message => do
    let state ← lift (block state s!"action_blocked:{message}" (some step) none)
    return .stop state
  | e => do
    emitDiagnostic sink (attemptDiagnostic spec step attempt exc)
    attemptFailed spec step attempt (persistentError e false) state retry

def attempts (step : StepSpec) : (fuel : Nat) → TaskState → HostProg AttemptResult
  | fuel, state => do
    let attempt := state.attemptsOf step.stepId + 1
    let state := { state with attempts := Dict.set step.stepId attempt state.attempts }
    lift (saveState state)
    lift (appendEvent spec.taskId "step_started" (.str step.action) (some step.stepId)
      [("attempt", .num (.int attempt)), ("retry_safe", .bool step.retrySafe)])
    let answer ← call
      { stepId := step.stepId, phase := .action, action := step.action, args := step.args,
        context := stepContext spec context step }
    match answer.read normaliseActionResult with
    | .ok result => return .done state result
    | .error exc =>
      attemptRaised spec sink step attempt exc state fun state =>
        match fuel with
        | fuel + 1 => attempts step fuel state
        | 0 => .raise (.runtimeError "attempts exhausted")

/-- The diagnostic of a failed verification. -/
def verifyDiagnostic (step : StepSpec) (verifyAction : String) (state : TaskState) (exc : Raised) : ActionDiagnosticEvent :=
  { taskId := spec.taskId
    stepId := step.stepId
    action := verifyAction
    phase := .verification
    attempt := Dict.getD state.attempts step.stepId 1
    retrySafe := false
    classification := diagnosticClassification exc .verification
    exceptionType := safeExceptionType exc }

def verify (step : StepSpec) (result : ActionResult) (state : TaskState) : HostProg StepResult :=
  match step.verifier with
  | none => return .next state
  | some verifyAction =>
    if verifyAction ∉ actions then do
      let state ← lift (block state s!"verification_action_unavailable:{verifyAction}" (some step) none)
      return .stop state
    else do
      let args ← lift (unwrap (verifyArgs step result))
      let answer ← call
        { stepId := step.stepId, phase := .verification, action := verifyAction, args := args,
          context := stepContext spec context step }
      match answer.read verificationPassed with
      | .error exc =>
        emitDiagnostic sink (verifyDiagnostic spec step verifyAction state exc)
        let state ← lift (block state "verification_error_requires_reconciliation" (some step)
          (some (persistentError exc.toExc true)))
        return .stop state
      | .ok false =>
        let state ← lift (block state s!"verification_failed:{verifyAction}" (some step) none)
        return .stop state
      | .ok true =>
        lift (appendEvent spec.taskId "step_verified" (.str verifyAction) (some step.stepId) [])
        return .next state

def runStep (step : StepSpec) (state : TaskState) : HostProg StepResult :=
  if step.action ∉ actions then do
    let state ← lift (block state s!"action_unavailable:{step.action}" (some step) none)
    return .stop state
  else do
    match ← attempts spec context sink step (attemptFuel step state) state with
    | .stop state => return .stop state
    | .done state result =>
      let state ← lift (unwrap (applyArtifacts state result.artifacts))
      lift (saveState state)
      match ← verify spec actions context sink step result state with
      | .stop state => return .stop state
      | .next state =>
        let state := { state with completedSteps := state.completedSteps ++ [.str step.stepId], lastError := .null }
        lift (saveState state)
        lift (appendEvent spec.taskId "step_completed" result.message (some step.stepId) [])
        return .next state

def runSteps : List StepSpec → TaskState → (executed skipped : List String) → HostProg RunOutcome
  | [], state, executed, skipped => do
    let state := { state with status := .completed, blockedReason := .null, lastError := .null }
    lift (saveState state)
    lift (appendEvent spec.taskId "task_completed" (.str "all configured steps completed and required verifications passed") none
      [("completion_conditions", .arr (spec.completionConditions.map .str))])
    return outcome state executed skipped
  | step :: steps, state, executed, skipped =>
    if state.done step.stepId then do
      lift (appendEvent spec.taskId "step_skipped_completed" (.str "completed step was not repeated") (some step.stepId) [])
      runSteps steps state executed (skipped ++ [step.stepId])
    else do
      match ← runStep spec actions context sink step state with
      | .stop state => return outcome state executed skipped
      | .next state => runSteps steps state (executed ++ [step.stepId]) skipped

def resume (state : TaskState) : HostProg RunOutcome :=
  if terminal state.status then do
    lift (appendEvent spec.taskId "terminal_resume_skipped"
      (.str s!"task already {statusName state.status}; no action repeated") none [])
    return outcome state [] []
  else if unresolved state ≠ [] then do
    let state ← lift (block state ("interrupted_step_requires_reconciliation:" ++ ",".intercalate (unresolved state)) none none)
    return outcome state [] []
  else do
    let state := { state with status := .running, blockedReason := .null, lastError := .null }
    lift (saveState state)
    lift (appendEvent spec.taskId "task_started" (.str spec.title) none [])
    runSteps spec actions context sink spec.steps state [] []

/-- `_run_locked` -/
def runLocked : HostProg RunOutcome := do
  let existed ← lift «exists»
  let state ← lift loadState
  lift (unwrap (raiseIf (state.taskId ≠ spec.taskId) (.valueError "task_state_id_mismatch")))
  let fingerprint ← lift (unwrap spec.fingerprint)
  lift (unwrap (raiseIf (existed ∧ state.specFingerprint = .null) (.valueError "legacy_task_spec_requires_review")))
  lift (unwrap (raiseIf (state.specFingerprint ≠ .null ∧ state.specFingerprint ≠ .str fingerprint) (.valueError "task_spec_changed")))
  let state ← lift (bindSpec fingerprint existed state)
  resume spec actions context sink state

end Run

/-- `AgentRunner.run`, with a diagnostic sink or without one. -/
def run (repr : Doc → String) (spec : TaskSpec) (actions : List String) (context : Dict Doc) (sink : Bool) : HostProg RunOutcome := do
  let spec ← lift (unwrap (detach repr spec))
  let _ ← lift (unwrap spec.validate)
  lift lock
  runLocked spec actions context sink

end Diagnosed

/-! ## The host -/

/-- The host of a run: the actions and verifiers, which answer by what was called before; the sink; the clock; and the store
commands that fail, by their number. -/
structure Host where
  answer : List ActionCall → ActionCall → RawAnswer
  sink : List ActionDiagnosticEvent → ActionDiagnosticEvent → Except String Unit
  hasSink : Bool
  clock : Nat → String
  fault : Nat → Option PyError

/-- The store, the calls made, the number of commands to the store, and the diagnostics emitted. -/
structure HostWorld where
  store : FileStore.World
  calls : List ActionCall
  commands : Nat
  emitted : List ActionDiagnosticEvent

namespace Host

/-- The reply of a store that cannot carry out a command: `json.dumps` refuses a state. -/
def refusal : (c : RunnerCmd) → c.Reply
  | .lock => .error (.typeError "Object is not JSON serializable")
  | .exists => .error (.typeError "Object is not JSON serializable")
  | .load => .error (.typeError "Object is not JSON serializable")
  | .save _ => .error (.typeError "Object is not JSON serializable")
  | .event _ => .error (.typeError "Object is not JSON serializable")
  | .invoke _ => ()
  | .await _ => .error .other

/-- How a command to the store is resolved; the start of a call does not fail. -/
def choice (now : String) (fault : Option PyError) : RunnerCmd → FileStore.Choice
  | .invoke _ => .ok now
  | _ =>
    match fault with
    | some e => .fail e
    | none => .ok now

/-- A command to the file store. -/
def storeReply (taskId now : String) (fault : Option PyError) (w : FileStore.World) (c : RunnerCmd) : c.Reply × FileStore.World :=
  match FileStore.machine taskId 0 (.saved 0) w c (choice now fault c) with
  | some x => x
  | none => (refusal c, w)

/-- A command of the runner. -/
def carryOut (host : Host) (taskId : String) (w : HostWorld) : (c : HostCmd) → c.Reply × HostWorld
  | .store c =>
    let x := storeReply taskId (host.clock w.commands) (host.fault w.commands) w.store c
    (x.1, { w with store := x.2, commands := w.commands + 1 })
  | .answer c => (host.answer w.calls c, { w with calls := w.calls ++ [c] })
  | .emit e => (host.sink w.emitted e, { w with emitted := w.emitted ++ [e] })

/-- A whole run, from a store that holds a state of the task or none. -/
def run (host : Host) (repr : Doc → String) (spec : TaskSpec) (actions : List String) (context : Dict Doc) (store : FileStore.World) :
    Except PyError RunOutcome × HostWorld :=
  (Diagnosed.run repr spec actions context host.hasSink).interp (host.carryOut spec.taskId)
    { store := store, calls := [], commands := 0, emitted := [] }

/-- The actions and verifiers of two hosts behave identically except for what their exceptions carry, and their stores fail
alike; sinks and clocks may differ. -/
structure SameUpToText (host host' : Host) : Prop where
  answer : ∀ calls c, (host.answer calls c).SameUpToText (host'.answer calls c)
  fault : host.fault = host'.fault

end Host

/-! ## Times -/

/-- The state without the time it was written at. -/
def TaskState.untimed (state : TaskState) : TaskState := { state with updatedAt := "" }

/-- The sequence of task states a store wrote, without their times. -/
def FileStore.World.states (w : FileStore.World) : List TaskState := (w.log.filterMap Item.written).map TaskState.untimed

/-- The sequence of events of the ledger, without their times. -/
def FileStore.World.events (w : FileStore.World) : List Event := w.ledger.map Prod.snd

end Keirin

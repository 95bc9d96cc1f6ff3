import Keirin.Runner

/-!
# What a run of the runner may do

The abstract model of a run: what the run knows (`RunView`), which saves and which calls it may issue knowing it
(`SaveOk`, `InvokeOk`). `run_follows` shows that the runner keeps to it against every store and every action, so the stores
need to look at the three kinds of command only, not at the branches of the runner.
-/

namespace Keirin

/-! ## Write flags -/

/-- The flags of an artifact that say something was written. -/
def ArtifactState.writeFlags (a : ArtifactState) : List Doc := [a.created, a.persistentSaved, a.deviceSaved, a.uiLoaded]

/-- The flags of an update that say something was written. -/
def ArtifactUpdate.writeFlags (u : ArtifactUpdate) : List Doc := [u.created, u.persistentSaved, u.deviceSaved, u.uiLoaded]

/-- No artifact has a write flag that is true. -/
def TaskState.NoWrite (state : TaskState) : Prop :=
  ∀ a ∈ state.artifacts, ∀ flag ∈ a.2.writeFlags, flag ≠ .bool true

/-- No update the runner merges from the result sets a write flag. -/
def ActionResult.NoWrite (r : ActionResult) : Prop :=
  ∀ u, .update u ∈ (r.artifacts.pass 0).items → ∀ flag ∈ u.writeFlags, Doc.truthy flag = false

/-! ## The view of a run -/

/-- What a run knows: the state it loaded, the state as last loaded or saved, the steps whose action it called, those whose
action returned a result, those whose verifier passed, and the results. -/
structure RunView where
  loaded : Option TaskState
  state : Option TaskState
  called : List String
  acted : List String
  verified : List String
  results : List ActionResult

namespace RunView

def initial : RunView := { loaded := none, state := none, called := [], acted := [], verified := [], results := [] }

/-- What a run knows after a reply. -/
def next (v : RunView) : (c : RunnerCmd) → c.Reply → RunView
  | .load, .ok state => { v with loaded := some state, state := some state }
  | .save state, .ok () => { v with state := some state }
  | .invoke c, _ => if c.phase = .action then { v with called := c.stepId :: v.called } else v
  | .await c, answer =>
    match c.phase with
    | .action =>
      match Except.bind answer normaliseActionResult with
      | .ok r => { v with acted := c.stepId :: v.acted, results := r :: v.results }
      | .error _ => v
    | .verification =>
      match Except.bind answer verificationPassed with
      | .ok true => { v with verified := c.stepId :: v.verified }
      | _ => v
  | _, _ => v

end RunView

/-! ## What is allowed -/

/-- A save of `state` over `old`. -/
structure SaveOk (spec : TaskSpec) (v : RunView) (old state : TaskState) : Prop where
  taskId : state.taskId = old.taskId
  reconciliations : state.reconciliations = old.reconciliations
  fingerprint : state.specFingerprint = old.specFingerprint ∨ spec.fingerprint.map Json.str = .ok state.specFingerprint
  completed : state.completedSteps = old.completedSteps ∨
    ∃ step ∈ spec.steps, old.done step.stepId = false ∧ state.completedSteps = old.completedSteps ++ [.str step.stepId] ∧
      step.stepId ∈ v.acted ∧ (step.verifier ≠ none → step.stepId ∈ v.verified)
  attempts : ∀ key, state.attemptsOf key = old.attemptsOf key ∨
    (state.attemptsOf key = old.attemptsOf key + 1 ∧
      ∃ step ∈ spec.steps, step.stepId = key ∧ old.done key = false ∧ state.attemptsOf key ≤ step.maxAttempts)
  finished : state.status = .completed → old.status = .completed ∨ ∀ step ∈ spec.steps, state.done step.stepId = true
  artifacts : old.NoWrite → (∀ r ∈ v.results, r.NoWrite) → state.NoWrite

/-- A call of the action of a step, while the task is in `state`; the run loaded `loaded`. -/
structure InvokeOk (spec : TaskSpec) (v : RunView) (loaded state : TaskState) (stepId : String) : Prop where
  unresolved : Runner.unresolved loaded = []
  terminal : Runner.terminal loaded.status = false
  order : ∃ before step after, spec.steps = before ++ step :: after ∧ stepId = step.stepId ∧
    (∀ b ∈ before, state.done b.stepId = true) ∧ (step.retrySafe = false → stepId ∉ v.called)
  fresh : state.done stepId = false
  recorded : (v.called.count stepId : Int) + loaded.attemptsOf stepId < state.attemptsOf stepId

/-- What a run of `spec` may do. -/
def runDiscipline (spec : TaskSpec) : Discipline RunView RunnerCmd RunnerCmd.Reply where
  next := RunView.next
  allowed v
    | .save state => ∃ old, v.state = some old ∧ SaveOk spec v old state
    | .invoke c => c.phase = .action → ∃ loaded state, v.loaded = some loaded ∧ v.state = some state ∧
        InvokeOk spec v loaded state c.stepId
    | _ => True

end Keirin

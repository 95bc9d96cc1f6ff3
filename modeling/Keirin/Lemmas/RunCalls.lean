import Keirin.Lemmas.RunDiscipline

/-!
# What the actions of a run are told

A second discipline of the runner: every call is told the task of the run, its action is one of those registered, the state the run
saved last says that the task is running, and a verifier is called only after an action was.
-/

namespace Keirin

namespace RunCalls

open Runner

/-- A call that a run may issue. -/
structure CallOk (spec : TaskSpec) (actions : List String) (v : RunView) (c : ActionCall) : Prop where
  task : Dict.get? "task_id" c.context = some (.str spec.taskId)
  registered : c.action ∈ actions
  running : ∃ state, v.state = some state ∧ state.status = .running
  after : c.phase = .verification → v.called ≠ []

/-- The discipline of the calls. -/
def callDiscipline (spec : TaskSpec) (actions : List String) : Discipline RunView RunnerCmd RunnerCmd.Reply where
  next := RunView.next
  allowed v
    | .invoke c => CallOk spec actions v c
    | _ => True

section Commands

variable {spec : TaskSpec} {actions : List String} {v : RunView} {α : Type}

theorem follows_unwrap {x : Except PyError α} {Q : α → RunView → Prop} (h : ∀ a, x = .ok a → Q a v) :
    (unwrap x).Follows (callDiscipline spec actions) Q v := by
  cases x with
  | ok a => exact h a rfl
  | error e => trivial

theorem follows_save {state : TaskState} {Q : Unit → RunView → Prop} (hQ : Q () { v with state := some state }) :
    (saveState state).Follows (callDiscipline spec actions) Q v := by
  refine ⟨trivial, fun r _ => ?_⟩
  cases r with
  | ok u => exact hQ
  | error e => trivial

theorem follows_event {taskId eventType : String} {message : Doc} {stepId : Option String} {data : Dict Doc}
    {Q : Unit → RunView → Prop} (hQ : Q () v) :
    (Runner.appendEvent taskId eventType message stepId data).Follows (callDiscipline spec actions) Q v := by
  refine ⟨trivial, fun r _ => ?_⟩
  cases r with
  | ok u => exact hQ
  | error e => trivial

theorem follows_block {state : TaskState} {reason : String} {step : Option StepSpec} {error : Option String}
    {Q : TaskState → RunView → Prop} (hQ : ∀ s v', Q s v') :
    (block state reason step error).Follows (callDiscipline spec actions) Q v := by
  refine Prog.Follows.bind (Q := fun _ _ => True) (follows_save trivial) fun _ _ _ => ?_
  exact Prog.Follows.bind (Q := fun _ _ => True) (follows_event trivial) fun _ _ _ => hQ _ _

theorem follows_call {c : ActionCall} {Q : Except ActionExc Returned → RunView → Prop} (hok : CallOk spec actions v c)
    (hQ : ∀ answer v', (c.phase = .action → v'.called ≠ []) → Q answer v') : (call c).Follows (callDiscipline spec actions) Q v := by
  refine ⟨hok, fun r _ => ⟨trivial, fun answer _ => hQ answer _ fun hphase => ?_⟩⟩
  show ((v.next (.invoke c) r).next (.await c) answer).called ≠ []
  simp only [RunView.next, hphase]
  split <;> simp

end Commands

/-- The context of a step names the task of the run. -/
theorem task_stepContext (spec : TaskSpec) (context : Dict Doc) (step : StepSpec) :
    Dict.get? "task_id" (stepContext spec context step) = some (.str spec.taskId) := by
  unfold stepContext baseContext Dict.update
  simp only [List.foldl_cons, List.foldl_nil]
  rw [Dict.get?_set_of_ne (by decide), Dict.get?_set_of_ne (by decide), Dict.get?_set_of_ne (by decide),
    Dict.get?_set_of_ne (by decide), Dict.get?_set_self]

section Walk

variable {spec : TaskSpec} {actions : List String} {context : Dict Doc} {step : StepSpec}

theorem attemptFailed_follows {v : RunView} {state : TaskState} {attempt : Int} {error : String}
    {retry : TaskState → RunProg AttemptResult} {Q : AttemptResult → RunView → Prop} (hstop : ∀ s w, Q (.stop s) w)
    (hretry : ∀ w, (retry { state with lastError := .str error }).Follows (callDiscipline spec actions) Q w) :
    (attemptFailed spec step attempt error state retry).Follows (callDiscipline spec actions) Q v := by
  unfold attemptFailed
  refine Prog.Follows.bind (Q := fun _ _ => True) (follows_event trivial) fun _ w _ => ?_
  split
  · exact Prog.Follows.bind (Q := fun _ _ => True) (follows_block fun _ _ => trivial) fun _ _ _ => hstop _ _
  · split
    · refine Prog.Follows.bind (Q := fun _ _ => True) (follows_save trivial) fun _ _ _ => ?_
      exact Prog.Follows.bind (Q := fun _ _ => True) (follows_event trivial) fun _ _ _ => hstop _ _
    · exact hretry w

/-- What holds where the attempts of a step end in a result. -/
def ResultRunning (a : AttemptResult) (v : RunView) : Prop := ∀ s r, a = .done s r → s.status = .running ∧ v.called ≠ []

/-- One attempt, from a running state, if the attempts after it keep to the discipline. -/
theorem attempt_follows (hmem : step.action ∈ actions) {fuel : Nat} {v : RunView} {state : TaskState} (hrun : state.status = .running)
    (hrec : ∀ fuel' w s, fuel = fuel' + 1 → s.status = .running →
      (attempts spec context step fuel' s).Follows (callDiscipline spec actions) ResultRunning w) :
    (attempts spec context step fuel state).Follows (callDiscipline spec actions) ResultRunning v := by
  have hstop (s : TaskState) (w : RunView) : ResultRunning (.stop s) w := by
    intro s' r h
    cases h
  unfold attempts
  refine Prog.Follows.bind (Q := fun _ w => w.state = some (withAttempt state step)) (follows_save rfl) fun _ w hw => ?_
  refine Prog.Follows.bind (Q := fun _ w => w.state = some (withAttempt state step)) (follows_event hw) fun _ w hw => ?_
  refine Prog.Follows.bind (Q := fun _ w => w.called ≠ [])
    (follows_call ⟨task_stepContext spec context step, hmem, ⟨_, hw, hrun⟩, fun h => by cases h⟩ fun _ _ h => h rfl)
    fun answer w hcalled => ?_
  cases Except.bind answer normaliseActionResult with
  | ok r =>
    intro s r' h
    cases h
    exact ⟨hrun, hcalled⟩
  | error exc =>
    cases exc with
    | blocked message => exact Prog.Follows.bind (Q := fun _ _ => True) (follows_block fun _ _ => trivial) fun _ w _ => hstop _ w
    | safe code =>
      refine attemptFailed_follows hstop fun w => ?_
      cases fuel with
      | zero => trivial
      | succ fuel' => exact hrec fuel' w _ rfl hrun
    | other =>
      refine attemptFailed_follows hstop fun w => ?_
      cases fuel with
      | zero => trivial
      | succ fuel' => exact hrec fuel' w _ rfl hrun

/-- The attempts of a step, from a running state. -/
theorem attempts_follows (hmem : step.action ∈ actions) (fuel : Nat) {v : RunView} {state : TaskState} (hrun : state.status = .running) :
    (attempts spec context step fuel state).Follows (callDiscipline spec actions) ResultRunning v := by
  induction fuel generalizing v state with
  | zero => exact attempt_follows hmem hrun fun _ _ _ h => by cases h
  | succ fuel ih =>
    refine attempt_follows hmem hrun fun fuel' w s h hs => ?_
    cases h
    exact ih hs

/-- The verification of a step, from a running state that was saved. -/
theorem verify_follows {v : RunView} {r : ActionResult} {state : TaskState} (hsaved : v.state = some state) (hrun : state.status = .running)
    (hcalled : v.called ≠ []) :
    (verify spec actions context step r state).Follows (callDiscipline spec actions) (fun a _ => ∀ s, a = .next s → s = state) v := by
  unfold verify
  split
  · intro s hs
    cases hs
    rfl
  · rename_i verifyAction hver
    have hblock (reason : String) (error : Option String) (w : RunView) :
        ((block state reason (some step) error >>= fun s => pure (StepResult.stop s) : RunProg StepResult)).Follows
          (callDiscipline spec actions) (fun a _ => ∀ s, a = .next s → s = state) w := by
      refine Prog.Follows.bind (Q := fun _ _ => True) (follows_block fun _ _ => trivial) fun _ _ _ s hs => ?_
      cases hs
    split
    · exact hblock _ _ _
    · rename_i hmem
      refine Prog.Follows.bind (Q := fun _ w => w = v) (follows_unwrap fun _ _ => rfl) ?_
      rintro args w rfl
      refine Prog.Follows.bind (Q := fun _ _ => True)
        (follows_call ⟨task_stepContext spec context step, not_not.1 hmem, ⟨state, hsaved, hrun⟩, fun _ => hcalled⟩
          fun _ _ _ => trivial) fun answer w _ => ?_
      cases Except.bind answer verificationPassed with
      | error exc => exact hblock _ _ _
      | ok passed =>
        cases passed with
        | false => exact hblock _ _ _
        | true =>
          refine Prog.Follows.bind (Q := fun _ _ => True) (follows_event trivial) fun _ _ _ s hs => ?_
          cases hs
          rfl

/-- A step, from a running state. -/
theorem runStep_follows {v : RunView} {state : TaskState} (hrun : state.status = .running) :
    (runStep spec actions context step state).Follows (callDiscipline spec actions)
      (fun a _ => ∀ s, a = .next s → s.status = .running) v := by
  have hstop (s : TaskState) : ∀ s', StepResult.stop s = .next s' → s'.status = .running := by
    intro s' h
    cases h
  unfold runStep
  split
  · exact Prog.Follows.bind (Q := fun _ _ => True) (follows_block fun _ _ => trivial) fun _ _ _ => hstop _
  · rename_i hmem
    refine Prog.Follows.bind (attempts_follows (not_not.1 hmem) _ hrun) fun a w ha => ?_
    cases a with
    | stop s => exact hstop s
    | done state' result =>
      have hrun' := ha state' result rfl
      refine Prog.Follows.bind (Q := fun s w => s.status = .running ∧ w.called ≠ []) (follows_unwrap fun s hs => ?_) fun s w hs => ?_
      · obtain ⟨⟨arts, rfl⟩, -⟩ := applyArtifacts_ok hs
        exact hrun'
      refine Prog.Follows.bind (Q := fun _ w => w.state = some s ∧ w.called ≠ []) (follows_save ⟨rfl, hs.2⟩) fun _ w hw => ?_
      refine Prog.Follows.bind (verify_follows hw.1 hs.1 hw.2) fun a w ha => ?_
      cases a with
      | stop s' => exact hstop s'
      | next s' =>
        cases ha s' rfl
        refine Prog.Follows.bind (Q := fun _ _ => True) (follows_save trivial) fun _ _ _ => ?_
        refine Prog.Follows.bind (Q := fun _ _ => True) (follows_event trivial) fun _ _ _ s' h => ?_
        cases h
        exact hs.1

/-- The steps that are left, from a running state. -/
theorem runSteps_follows (steps : List StepSpec) {v : RunView} {state : TaskState} {executed skipped : List String}
    (hrun : state.status = .running) :
    (runSteps spec actions context steps state executed skipped).Follows (callDiscipline spec actions) (fun _ _ => True) v := by
  induction steps generalizing v state executed skipped with
  | nil =>
    unfold runSteps
    refine Prog.Follows.bind (Q := fun _ _ => True) (follows_save trivial) fun _ _ _ => ?_
    exact Prog.Follows.bind (Q := fun _ _ => True) (follows_event trivial) fun _ _ _ => trivial
  | cons step steps ih =>
    unfold runSteps
    split
    · exact Prog.Follows.bind (Q := fun _ _ => True) (follows_event trivial) fun _ _ _ => ih hrun
    · refine Prog.Follows.bind (runStep_follows hrun) fun a w ha => ?_
      cases a with
      | stop s => trivial
      | next s => exact ih (ha s rfl)

/-- The run from the loaded state on. -/
theorem resume_follows {v : RunView} {state : TaskState} :
    (resume spec actions context state).Follows (callDiscipline spec actions) (fun _ _ => True) v := by
  unfold resume
  split
  · exact Prog.Follows.bind (Q := fun _ _ => True) (follows_event trivial) fun _ _ _ => trivial
  split
  · exact Prog.Follows.bind (Q := fun _ _ => True) (follows_block fun _ _ => trivial) fun _ _ _ => trivial
  · refine Prog.Follows.bind (Q := fun _ _ => True) (follows_save trivial) fun _ _ _ => ?_
    exact Prog.Follows.bind (Q := fun _ _ => True) (follows_event trivial) fun _ _ _ => runSteps_follows _ rfl

/-- Every call of a run is told its task, is of a registered action, and is made while the saved state is running. -/
theorem run_follows (repr : Doc → String) (spec : TaskSpec) (actions : List String) (context : Dict Doc) :
    (run repr spec actions context).Follows (callDiscipline spec actions) (fun _ _ => True) RunView.initial := by
  refine Prog.Follows.bind (Q := fun spec' _ => spec' = spec) (follows_unwrap fun _ h => (detach_ok h).1) ?_
  rintro spec' v rfl
  refine Prog.Follows.bind (Q := fun _ _ => True) (follows_unwrap fun _ _ => trivial) fun _ _ _ => ?_
  refine Prog.Follows.bind (Q := fun _ _ => True) ⟨trivial, fun r _ => by cases r <;> trivial⟩ fun _ _ _ => ?_
  refine Prog.Follows.bind (Q := fun _ _ => True) ⟨trivial, fun r _ => by cases r <;> trivial⟩ fun existed _ _ => ?_
  refine Prog.Follows.bind (Q := fun _ _ => True) ⟨trivial, fun r _ => by cases r <;> trivial⟩ fun state _ _ => ?_
  refine Prog.Follows.bind (Q := fun _ _ => True) (follows_unwrap fun _ _ => trivial) fun _ _ _ => ?_
  refine Prog.Follows.bind (Q := fun _ _ => True) (follows_unwrap fun _ _ => trivial) fun fingerprint _ _ => ?_
  refine Prog.Follows.bind (Q := fun _ _ => True) (follows_unwrap fun _ _ => trivial) fun _ _ _ => ?_
  refine Prog.Follows.bind (Q := fun _ _ => True) (follows_unwrap fun _ _ => trivial) fun _ _ _ => ?_
  refine Prog.Follows.bind (Q := fun _ _ => True) ?_ fun _ _ _ => resume_follows
  unfold bindSpec
  split
  · trivial
  · exact Prog.Follows.bind (Q := fun _ _ => True) (follows_save trivial) fun _ _ _ => trivial

end Walk

end RunCalls

end Keirin

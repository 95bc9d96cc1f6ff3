import Keirin.Diagnostics
import Keirin.Lib.Simulation

/-!
# The runner with its exceptions simulates the runner

What the runner issues to its store and to the actions depends on an exception only through its class, and not on times. One
lemma for each part of the runner, ending in `run_simulates`.
-/

namespace Keirin

namespace Diagnosed

open Runner Prog

/-! ## Commands that belong together -/

/-- Two commands that are the same but for the times of a state. -/
def SameCmd : RunnerCmd → RunnerCmd → Prop
  | .lock, .lock => True
  | .exists, .exists => True
  | .load, .load => True
  | .save s, .save s' => s.untimed = s'.untimed
  | .event e, .event e' => e = e'
  | .invoke c, .invoke c' => c = c'
  | _, _ => False

/-- Two replies that are the same but for the times of a state. -/
def SameReply : (c d : RunnerCmd) → c.Reply → d.Reply → Prop
  | .lock, .lock, r, r' => r = r'
  | .exists, .exists, r, r' => r = r'
  | .load, .load, r, r' => Except.map TaskState.untimed r = Except.map TaskState.untimed r'
  | .save _, .save _, r, r' => r = r'
  | .event _, .event _, r, r' => r = r'
  | .invoke _, .invoke _, _, _ => True
  | _, _, _, _ => False

/-- Diagnostics are silent; of an answer only the class of the exception counts. -/
def upToText : Simulation HostCmd RunnerCmd HostCmd.Reply RunnerCmd.Reply where
  silent
    | .emit _ => True
    | _ => False
  pairs
    | .store c, d => SameCmd c d
    | .answer c, .await d => c = d
    | _, _ => False
  replies
    | .store c, d, r, s => SameReply c d r s
    | .answer _, .await _, a, s => RawAnswer.answer a = s
    | _, _, _, _ => False

/-- Two states that differ in their times only. -/
def SameState (s s' : TaskState) : Prop := ∃ u, s' = { s with updatedAt := u }

theorem sameState_of_untimed {s s' : TaskState} (h : s.untimed = s'.untimed) : SameState s s' := by
  refine ⟨s'.updatedAt, ?_⟩
  calc s' = { s'.untimed with updatedAt := s'.updatedAt } := rfl
    _ = { s.untimed with updatedAt := s'.updatedAt } := by rw [h]
    _ = { s with updatedAt := s'.updatedAt } := rfl

theorem SameState.untimed {s s' : TaskState} (h : SameState s s') : s.untimed = s'.untimed := by
  obtain ⟨u, rfl⟩ := h
  rfl

theorem SameState.refl (s : TaskState) : SameState s s := ⟨s.updatedAt, rfl⟩

/-! ## The parts that call no action -/

theorem lift_bind {α β : Type} (p : RunProg α) (f : α → RunProg β) : lift (p >>= f) = lift p >>= fun a => lift (f a) :=
  handle_bind _ p f

theorem simulates_unwrap {α : Type} (x : Except PyError α) :
    (lift (unwrap x)).Simulates upToText (fun a b => a = b ∧ x = .ok a) (unwrap x) := by
  cases x with
  | ok a => exact simulates_ret ⟨rfl, rfl⟩
  | error e => exact simulates_raise e

theorem simulates_lock : (lift lock).Simulates upToText (fun _ _ => True) lock :=
  simulates_cmd trivial fun r s hrs => by
    cases hrs
    cases r with
    | ok a => exact simulates_ret trivial
    | error e => exact simulates_raise e

theorem simulates_exists : (lift «exists»).Simulates upToText (fun a b => a = b) «exists» :=
  simulates_cmd trivial fun r s hrs => by
    cases hrs
    cases r with
    | ok a => exact simulates_ret rfl
    | error e => exact simulates_raise e

theorem simulates_load : (lift loadState).Simulates upToText SameState loadState :=
  simulates_cmd trivial fun r s hrs => by
    cases r with
    | ok a =>
      cases s with
      | ok b => exact simulates_ret (sameState_of_untimed (Except.ok.inj hrs))
      | error e => nomatch hrs
    | error e =>
      cases s with
      | ok b => nomatch hrs
      | error e' =>
        cases hrs
        exact simulates_raise e

theorem simulates_save {state state' : TaskState} (h : SameState state state') :
    (lift (saveState state)).Simulates upToText (fun _ _ => True) (saveState state') :=
  simulates_cmd h.untimed fun r s hrs => by
    cases hrs
    cases r with
    | ok a => exact simulates_ret trivial
    | error e => exact simulates_raise e

theorem simulates_event (taskId eventType : String) (message : Doc) (stepId : Option String) (data : Dict Doc) :
    (lift (appendEvent taskId eventType message stepId data)).Simulates upToText (fun _ _ => True)
      (appendEvent taskId eventType message stepId data) :=
  simulates_cmd rfl fun r s hrs => by
    cases hrs
    cases r with
    | ok a => exact simulates_ret trivial
    | error e => exact simulates_raise e

theorem simulates_block {state state' : TaskState} (h : SameState state state') (reason : String) (step : Option StepSpec)
    (error : Option String) : (lift (block state reason step error)).Simulates upToText SameState (block state' reason step error) := by
  obtain ⟨u, rfl⟩ := h
  unfold block
  rw [lift_bind]
  refine (simulates_save ⟨u, rfl⟩).bind fun _ _ _ => ?_
  rw [lift_bind]
  refine (simulates_event _ _ _ _ _).bind fun _ _ _ => ?_
  exact simulates_ret ⟨u, rfl⟩

theorem simulates_call (c : ActionCall) : (call c).Simulates upToText (fun a b => a.answer = b) (Runner.call c) :=
  simulates_cmd rfl fun _ _ _ => simulates_cmd rfl fun _ _ hrs => simulates_ret hrs

/-- A diagnostic changes nothing. -/
theorem simulates_emit (sink : Bool) (event : ActionDiagnosticEvent) {α β : Type} {Q : α → β → Prop} {f : Unit → HostProg α}
    {q : RunProg β} (h : (f ()).Simulates upToText Q q) : (emitDiagnostic sink event >>= f).Simulates upToText Q q := by
  unfold emitDiagnostic
  split_ifs
  · exact h
  · split
    · exact h
    · exact simulates_silent trivial fun _ => h

/-- Reading an answer depends on its exceptions only through their classes. -/
theorem read_toExc {α : Type} (f : Returned → Except ActionExc α) (a : RawAnswer) :
    (a.read f).mapError Raised.toExc = a.answer.bind f := by
  unfold RawAnswer.read RawAnswer.answer
  cases a.value with
  | error e => rfl
  | ok v =>
    simp only [Except.bind, Except.mapError]
    cases f v with
    | error e => simp only [Except.mapError, a.later_toExc]
    | ok x => rfl

/-! ## Steps -/

section Run

variable {spec : TaskSpec} {actions : List String} {context : Dict Doc} {sink : Bool} {step : StepSpec}

/-- The results of the attempts of a step that belong together. -/
def SameAttempt : AttemptResult → AttemptResult → Prop
  | .done s r, .done s' r' => SameState s s' ∧ r = r'
  | .stop s, .stop s' => SameState s s'
  | _, _ => False

/-- The results of a step that belong together. -/
def SameStep : StepResult → StepResult → Prop
  | .next s, .next s' => SameState s s'
  | .stop s, .stop s' => SameState s s'
  | _, _ => False

/-- Block the task and stop. -/
theorem simulates_stop {state state' : TaskState} (h : SameState state state') (reason : String) (step : Option StepSpec)
    (error : Option String) :
    (lift (block state reason step error) >>= fun s => pure (AttemptResult.stop s) : HostProg AttemptResult).Simulates upToText
      SameAttempt (block state' reason step error >>= fun s => pure (AttemptResult.stop s)) :=
  (simulates_block h reason step error).bind fun _ _ hs => simulates_ret hs

theorem simulates_stopStep {state state' : TaskState} (h : SameState state state') (reason : String) (step : Option StepSpec)
    (error : Option String) :
    (lift (block state reason step error) >>= fun s => pure (StepResult.stop s) : HostProg StepResult).Simulates upToText
      SameStep (block state' reason step error >>= fun s => pure (StepResult.stop s)) :=
  (simulates_block h reason step error).bind fun _ _ hs => simulates_ret hs

theorem attemptFailed_simulates {state state' : TaskState} (h : SameState state state') (attempt : Int) (error : String)
    {retry : TaskState → HostProg AttemptResult} {retry' : TaskState → RunProg AttemptResult}
    (hretry : ∀ s s', SameState s s' → (retry s).Simulates upToText SameAttempt (retry' s')) :
    (attemptFailed spec step attempt error state retry).Simulates upToText SameAttempt
      (Runner.attemptFailed spec step attempt error state' retry') := by
  obtain ⟨u, rfl⟩ := h
  unfold attemptFailed Runner.attemptFailed
  refine (simulates_event _ _ _ _ _).bind fun _ _ _ => ?_
  split_ifs
  · exact simulates_stop ⟨u, rfl⟩ _ _ _
  · refine (simulates_save ⟨u, rfl⟩).bind fun _ _ _ => ?_
    refine (simulates_event _ _ _ _ _).bind fun _ _ _ => ?_
    exact simulates_ret ⟨u, rfl⟩
  · exact hretry _ _ ⟨u, rfl⟩

/-- An exception of class `BlockedAction` blocks the task in both. -/
theorem attemptRaised_blocked {state state' : TaskState} (h : SameState state state') (attempt : Int) {exc : Raised} {message : String}
    (hexc : exc.toExc = .blocked message) (retry : TaskState → HostProg AttemptResult) :
    (attemptRaised spec sink step attempt exc state retry).Simulates upToText SameAttempt
      (block state' s!"action_blocked:{message}" (some step) none >>= fun s => pure (AttemptResult.stop s)) := by
  unfold attemptRaised
  rw [hexc]
  exact simulates_stop h _ _ _

/-- Any other exception is reported, and then handled alike. -/
theorem attemptRaised_failed {state state' : TaskState} (h : SameState state state') (attempt : Int) {exc : Raised} {e : ActionExc}
    (hexc : exc.toExc = e) (he : ∀ message, e ≠ .blocked message)
    {retry : TaskState → HostProg AttemptResult} {retry' : TaskState → RunProg AttemptResult}
    (hretry : ∀ s s', SameState s s' → (retry s).Simulates upToText SameAttempt (retry' s')) :
    (attemptRaised spec sink step attempt exc state retry).Simulates upToText SameAttempt
      (Runner.attemptFailed spec step attempt (persistentError e false) state' retry') := by
  unfold attemptRaised
  rw [hexc]
  cases e with
  | blocked message => exact absurd rfl (he message)
  | safe code => exact simulates_emit _ _ (attemptFailed_simulates h _ _ hretry)
  | other => exact simulates_emit _ _ (attemptFailed_simulates h _ _ hretry)

/-- What comes after the call of an action. -/
theorem answered_simulates {state state' : TaskState} (h : SameState state state') (attempt : Int) (a : RawAnswer)
    {retry : TaskState → HostProg AttemptResult} {retry' : TaskState → RunProg AttemptResult}
    (hretry : ∀ s s', SameState s s' → (retry s).Simulates upToText SameAttempt (retry' s')) :
    Simulates upToText SameAttempt
      (match a.read normaliseActionResult with
        | .ok result => pure (.done state result)
        | .error exc => attemptRaised spec sink step attempt exc state retry)
      (match a.answer.bind normaliseActionResult with
        | .ok result => pure (.done state' result)
        | .error (.blocked message) =>
          block state' s!"action_blocked:{message}" (some step) none >>= fun s => pure (.stop s)
        | .error exc => Runner.attemptFailed spec step attempt (persistentError exc false) state' retry') := by
  rw [← read_toExc]
  cases a.read normaliseActionResult with
  | ok result => exact simulates_ret ⟨h, rfl⟩
  | error exc =>
    simp only [Except.mapError]
    cases hexc : exc.toExc with
    | blocked message => exact attemptRaised_blocked h attempt hexc retry
    | safe code => exact attemptRaised_failed h attempt hexc (fun _ he => nomatch he) hretry
    | other => exact attemptRaised_failed h attempt hexc (fun _ he => nomatch he) hretry

theorem attempts_simulates (fuel : Nat) {state state' : TaskState} (h : SameState state state') :
    (attempts spec context sink step fuel state).Simulates upToText SameAttempt
      (Runner.attempts spec context step fuel state') := by
  induction fuel generalizing state state' with
  | zero =>
    obtain ⟨u, rfl⟩ := h
    unfold attempts Runner.attempts
    refine (simulates_save ⟨u, rfl⟩).bind fun _ _ _ => ?_
    refine (simulates_event _ _ _ _ _).bind fun _ _ _ => ?_
    refine (simulates_call _).bind fun a b hab => ?_
    subst hab
    exact answered_simulates ⟨u, rfl⟩ _ a fun _ _ _ => simulates_raise _
  | succ fuel ih =>
    obtain ⟨u, rfl⟩ := h
    unfold attempts Runner.attempts
    refine (simulates_save ⟨u, rfl⟩).bind fun _ _ _ => ?_
    refine (simulates_event _ _ _ _ _).bind fun _ _ _ => ?_
    refine (simulates_call _).bind fun a b hab => ?_
    subst hab
    exact answered_simulates ⟨u, rfl⟩ _ a fun _ _ hs => ih hs

/-! ## Artifacts and verification -/

/-- An artifact update does not look at the time. -/
theorem applyArtifactUpdate_updatedAt (state : TaskState) (u : String) (item : ArtifactItem) :
    applyArtifactUpdate { state with updatedAt := u } item =
      (applyArtifactUpdate state item).map fun s => { s with updatedAt := u } := by
  cases item with
  | mapping _ => rfl
  | other => rfl
  | update v =>
    simp only [applyArtifactUpdate]
    cases v.validate with
    | error e => rfl
    | ok _ =>
      cases v.artifactId with
      | str key =>
        simp only [Bind.bind, Except.bind]
        cases ((Dict.get? key state.artifacts).getD { artifactId := .str key, kind := v.kind }).merge v with
        | error e => rfl
        | ok merged => rfl
      | null => rfl
      | bool _ => rfl
      | num _ => rfl
      | arr _ => rfl
      | obj _ => rfl

theorem applyArtifacts_updatedAt (state : TaskState) (u : String) (artifacts : Iterable ArtifactItem) :
    applyArtifacts { state with updatedAt := u } artifacts =
      (applyArtifacts state artifacts).map fun s => { s with updatedAt := u } := by
  have hfold (items : List ArtifactItem) : ∀ state : TaskState, items.foldlM applyArtifactUpdate { state with updatedAt := u } =
      (items.foldlM applyArtifactUpdate state).map fun s => { s with updatedAt := u } := by
    induction items with
    | nil => exact fun _ => rfl
    | cons item items ih =>
      intro state
      rw [List.foldlM_cons, List.foldlM_cons, applyArtifactUpdate_updatedAt]
      cases applyArtifactUpdate state item with
      | error e => rfl
      | ok s => exact ih s
  unfold applyArtifacts
  rw [hfold]
  cases (artifacts.pass 0).items.foldlM applyArtifactUpdate state with
  | error e => rfl
  | ok s =>
    simp only [Except.map, Bind.bind, Except.bind]
    cases (artifacts.pass 0).error with
    | none => rfl
    | some e => rfl

theorem simulates_artifacts {state state' : TaskState} (h : SameState state state') (artifacts : Iterable ArtifactItem) :
    (lift (unwrap (applyArtifacts state artifacts))).Simulates upToText SameState (unwrap (applyArtifacts state' artifacts)) := by
  obtain ⟨u, rfl⟩ := h
  rw [applyArtifacts_updatedAt state u]
  cases applyArtifacts state artifacts with
  | error e => exact simulates_raise e
  | ok s => exact simulates_ret ⟨u, rfl⟩

/-- What comes after the call of a verifier. -/
theorem verified_simulates {state state' : TaskState} (h : SameState state state') (verifyAction : String) (a : RawAnswer) :
    Simulates upToText SameStep
      (match a.read verificationPassed with
        | .error exc => do
          emitDiagnostic sink (verifyDiagnostic spec step verifyAction state exc)
          let state ← lift (block state "verification_error_requires_reconciliation" (some step)
            (some (persistentError exc.toExc true)))
          return .stop state
        | .ok false => do
          let state ← lift (block state s!"verification_failed:{verifyAction}" (some step) none)
          return .stop state
        | .ok true => do
          lift (appendEvent spec.taskId "step_verified" (.str verifyAction) (some step.stepId) [])
          return .next state)
      (match a.answer.bind verificationPassed with
        | .error exc => do
          let state ← block state' "verification_error_requires_reconciliation" (some step) (some (persistentError exc true))
          return .stop state
        | .ok false => do
          let state ← block state' s!"verification_failed:{verifyAction}" (some step) none
          return .stop state
        | .ok true => do
          appendEvent spec.taskId "step_verified" (.str verifyAction) (some step.stepId) []
          return .next state') := by
  rw [← read_toExc]
  cases a.read verificationPassed with
  | error exc => exact simulates_emit _ _ (simulates_stopStep h _ _ _)
  | ok passed =>
    cases passed with
    | false => exact simulates_stopStep h _ _ _
    | true => exact (simulates_event _ _ _ _ _).bind fun _ _ _ => simulates_ret h

theorem verify_simulates (result : ActionResult) {state state' : TaskState} (h : SameState state state') :
    (verify spec actions context sink step result state).Simulates upToText SameStep
      (Runner.verify spec actions context step result state') := by
  unfold verify Runner.verify
  cases step.verifier with
  | none => exact simulates_ret h
  | some verifyAction =>
    simp only
    split_ifs
    · refine (simulates_unwrap _).bind fun args args' hargs => ?_
      obtain ⟨rfl, -⟩ := hargs
      refine (simulates_call _).bind fun a b hab => ?_
      subst hab
      exact verified_simulates h verifyAction a
    · exact simulates_stopStep h _ _ _

/-! ## The run -/

theorem runStep_simulates {state state' : TaskState} (h : SameState state state') :
    (runStep spec actions context sink step state).Simulates upToText SameStep (Runner.runStep spec actions context step state') := by
  obtain ⟨u, rfl⟩ := h
  unfold runStep Runner.runStep
  split_ifs
  · refine (attempts_simulates _ ⟨u, rfl⟩).bind fun r r' hr => ?_
    cases r with
    | stop s =>
      cases r' with
      | stop s' => exact simulates_ret hr
      | done s' result' => exact hr.elim
    | done s result =>
      cases r' with
      | stop s' => exact hr.elim
      | done s' result' =>
        obtain ⟨hs, rfl⟩ := hr
        refine (simulates_artifacts hs _).bind fun s s' hs => ?_
        refine (simulates_save hs).bind fun _ _ _ => ?_
        refine (verify_simulates result hs).bind fun r r' hr => ?_
        cases r with
        | stop s =>
          cases r' with
          | stop s' => exact simulates_ret hr
          | next s' => exact hr.elim
        | next s =>
          cases r' with
          | stop s' => exact hr.elim
          | next s' =>
            obtain ⟨v, rfl⟩ : SameState s s' := hr
            refine (simulates_save ⟨v, rfl⟩).bind fun _ _ _ => ?_
            refine (simulates_event _ _ _ _ _).bind fun _ _ _ => ?_
            exact simulates_ret ⟨v, rfl⟩
  · exact simulates_stopStep ⟨u, rfl⟩ _ _ _

theorem runSteps_simulates (steps : List StepSpec) {state state' : TaskState} (h : SameState state state')
    (executed skipped : List String) :
    (runSteps spec actions context sink steps state executed skipped).Simulates upToText (fun a b => a = b)
      (Runner.runSteps spec actions context steps state' executed skipped) := by
  induction steps generalizing state state' executed skipped with
  | nil =>
    obtain ⟨u, rfl⟩ := h
    unfold runSteps Runner.runSteps
    refine (simulates_save ⟨u, rfl⟩).bind fun _ _ _ => ?_
    refine (simulates_event _ _ _ _ _).bind fun _ _ _ => ?_
    exact simulates_ret rfl
  | cons step steps ih =>
    obtain ⟨u, rfl⟩ := h
    unfold runSteps Runner.runSteps
    refine simulates_ite Iff.rfl (fun _ => ?_) (fun _ => ?_)
    · exact (simulates_event _ _ _ _ _).bind fun _ _ _ => ih ⟨u, rfl⟩ _ _
    · refine (runStep_simulates ⟨u, rfl⟩).bind fun r r' hr => ?_
      cases r with
      | stop s =>
        cases r' with
        | stop s' =>
          obtain ⟨v, rfl⟩ : SameState s s' := hr
          exact simulates_ret rfl
        | next s' => exact hr.elim
      | next s =>
        cases r' with
        | stop s' => exact hr.elim
        | next s' => exact ih hr _ _

theorem resume_simulates {state state' : TaskState} (h : SameState state state') :
    (resume spec actions context sink state).Simulates upToText (fun a b => a = b) (Runner.resume spec actions context state') := by
  obtain ⟨u, rfl⟩ := h
  unfold resume Runner.resume
  refine simulates_ite Iff.rfl (fun _ => ?_) (fun _ => simulates_ite Iff.rfl (fun _ => ?_) (fun _ => ?_))
  · exact (simulates_event _ _ _ _ _).bind fun _ _ _ => simulates_ret rfl
  · refine (simulates_block ⟨u, rfl⟩ _ _ _).bind fun s s' hs => ?_
    obtain ⟨v, rfl⟩ := hs
    exact simulates_ret rfl
  · refine (simulates_save ⟨u, rfl⟩).bind fun _ _ _ => ?_
    refine (simulates_event _ _ _ _ _).bind fun _ _ _ => ?_
    exact runSteps_simulates _ ⟨u, rfl⟩ _ _

theorem simulates_bindSpec (fingerprint : String) (existed : Bool) {state state' : TaskState} (h : SameState state state') :
    (lift (bindSpec fingerprint existed state)).Simulates upToText SameState (bindSpec fingerprint existed state') := by
  obtain ⟨u, rfl⟩ := h
  cases existed with
  | true => exact simulates_ret ⟨u, rfl⟩
  | false =>
    simp only [bindSpec, Bool.false_eq_true, if_false, lift_bind]
    exact (simulates_save ⟨u, rfl⟩).bind fun _ _ _ => simulates_ret ⟨u, rfl⟩

theorem runLocked_simulates : (runLocked spec actions context sink).Simulates upToText (fun a b => a = b)
    (Runner.runLocked spec actions context) := by
  unfold runLocked Runner.runLocked
  refine simulates_exists.bind fun existed existed' he => ?_
  subst he
  refine simulates_load.bind fun state state' hs => ?_
  obtain ⟨u, rfl⟩ := hs
  refine (simulates_unwrap _).bind fun _ _ _ => ?_
  refine (simulates_unwrap _).bind fun fingerprint fingerprint' hf => ?_
  obtain ⟨rfl, -⟩ := hf
  refine (simulates_unwrap _).bind fun _ _ _ => ?_
  refine (simulates_unwrap _).bind fun _ _ _ => ?_
  exact (simulates_bindSpec fingerprint existed ⟨u, rfl⟩).bind fun _ _ hs => resume_simulates hs

end Run

/-- The runner that handles exceptions simulates the runner. -/
theorem run_simulates (repr : Doc → String) (spec : TaskSpec) (actions : List String) (context : Dict Doc) (sink : Bool) :
    (run repr spec actions context sink).Simulates upToText (fun a b => a = b) (Runner.run repr spec actions context) := by
  unfold run Runner.run
  refine (simulates_unwrap _).bind fun spec spec' hspec => ?_
  obtain ⟨rfl, -⟩ := hspec
  refine (simulates_unwrap _).bind fun _ _ _ => ?_
  exact simulates_lock.bind fun _ _ _ => runLocked_simulates

end Diagnosed

/-! ## The host -/

namespace Host

open Diagnosed

/-- Two stores that are the same but for times. -/
structure SameStore (w w' : FileStore.World) : Prop where
  file : w.file.map TaskState.untimed = w'.file.map TaskState.untimed
  states : w.states = w'.states
  events : w.events = w'.events

/-- Two worlds that are the same but for times and diagnostics. -/
structure SameWorld (w w' : HostWorld) : Prop where
  store : SameStore w.store w'.store
  calls : w.calls = w'.calls
  commands : w.commands = w'.commands

/-- A host as the runner sees it: its exceptions by their classes, at no particular time. -/
def plain (host : Host) (taskId : String) (w : HostWorld) : (c : RunnerCmd) → c.Reply × HostWorld
  | .await c => ((host.answer w.calls c).answer, { w with calls := w.calls ++ [c] })
  | c =>
    let x := storeReply taskId "" (host.fault w.commands) w.store c
    (x.1, { w with store := x.2, commands := w.commands + 1 })

/-- Whether a state can be written does not depend on its time. -/
theorem encodable_untimed (state : TaskState) : Doc.encodable state.toDict = Doc.encodable state.untimed.toDict := by
  simp [Doc.encodable, TaskState.toDict, TaskState.untimed, Json.allNum, Json.allNumFields]

theorem encodable_sameState {state state' : TaskState} (h : SameState state state') :
    Doc.encodable state.toDict = Doc.encodable state'.toDict := by
  rw [encodable_untimed state, encodable_untimed state', h.untimed]

section Store

variable {taskId now now' : String} {fault : Option PyError} {w w' : FileStore.World}

theorem exists_same (h : SameStore w w') :
    (storeReply taskId now fault w .exists).1 = (storeReply taskId now' fault w' .exists).1 := by
  cases fault with
  | some e => rfl
  | none =>
    have hsome : w.file.isSome = w'.file.isSome := by
      rw [← Option.isSome_map (f := TaskState.untimed), h.file, Option.isSome_map]
    simp only [storeReply, choice, FileStore.machine, hsome]
    rfl

theorem load_same (h : SameStore w w') :
    SameReply .load .load (storeReply taskId now fault w .load).1 (storeReply taskId now' fault w' .load).1 := by
  cases fault with
  | some e => rfl
  | none =>
    simp only [SameReply, storeReply, choice, FileStore.machine]
    cases FileStore.checkTaskId taskId with
    | error e => rfl
    | ok _ =>
      cases hf : w.file with
      | none =>
        have hf' : w'.file = none := by simpa [hf] using h.file.symm
        rw [hf']
        rfl
      | some s =>
        obtain ⟨s', hf', hs⟩ : ∃ s', w'.file = some s' ∧ s'.untimed = s.untimed := by simpa [hf] using h.file.symm
        rw [hf']
        obtain ⟨u, rfl⟩ := sameState_of_untimed hs
        simp only [Except.bind]
        split_ifs <;> rfl

theorem save_same {state state' : TaskState} (hs : SameState state state') (h : SameStore w w') :
    SameReply (.save state) (.save state') (storeReply taskId now fault w (.save state)).1
        (storeReply taskId now' fault w' (.save state')).1 ∧
      SameStore (storeReply taskId now fault w (.save state)).2 (storeReply taskId now' fault w' (.save state')).2 := by
  obtain ⟨u, rfl⟩ := hs
  cases fault with
  | some e => exact ⟨rfl, h⟩
  | none =>
    have hsame : SameState { state with updatedAt := now } { state with updatedAt := now' } := ⟨now', rfl⟩
    simp only [SameReply, storeReply, choice, FileStore.machine, encodable_sameState hsame]
    split_ifs
    · refine ⟨rfl, ?_, ?_, h.events⟩
      · rfl
      · simpa [FileStore.World.states, FileStore.Item.written, TaskState.untimed] using h.states
    · exact ⟨rfl, h⟩

theorem event_same (e : Event) (h : SameStore w w') :
    (storeReply taskId now fault w (.event e)).1 = (storeReply taskId now' fault w' (.event e)).1 ∧
      SameStore (storeReply taskId now fault w (.event e)).2 (storeReply taskId now' fault w' (.event e)).2 := by
  cases fault with
  | some e => exact ⟨rfl, h⟩
  | none =>
    refine ⟨rfl, h.file, h.states, ?_⟩
    simpa [storeReply, choice, FileStore.machine, FileStore.World.events] using h.events

theorem invoke_same (c : ActionCall) (h : SameStore w w') :
    SameStore (storeReply taskId now fault w (.invoke c)).2 (storeReply taskId now' fault w' (.invoke c)).2 := by
  refine ⟨h.file, ?_, h.events⟩
  simpa [storeReply, choice, FileStore.machine, FileStore.World.states, FileStore.Item.written] using h.states

/-- Commands that belong together have replies that do, and leave the same store. -/
theorem storeReply_same (taskId now now' : String) (fault : Option PyError) {c d : RunnerCmd} (hcd : SameCmd c d)
    (h : SameStore w w') :
    SameReply c d (storeReply taskId now fault w c).1 (storeReply taskId now' fault w' d).1 ∧
      SameStore (storeReply taskId now fault w c).2 (storeReply taskId now' fault w' d).2 := by
  cases c with
  | lock =>
    cases d with
    | lock => cases fault <;> exact ⟨rfl, h⟩
    | _ => exact hcd.elim
  | «exists» =>
    cases d with
    | «exists» => exact ⟨exists_same h, by cases fault <;> exact h⟩
    | _ => exact hcd.elim
  | load =>
    cases d with
    | load => exact ⟨load_same h, by cases fault <;> exact h⟩
    | _ => exact hcd.elim
  | save state =>
    cases d with
    | save state' => exact save_same (sameState_of_untimed hcd) h
    | _ => exact hcd.elim
  | event e =>
    cases d with
    | event e' =>
      cases (hcd : e = e')
      exact event_same e h
    | _ => exact hcd.elim
  | invoke call =>
    cases d with
    | invoke call' =>
      cases (hcd : call = call')
      exact ⟨trivial, invoke_same call h⟩
    | _ => exact hcd.elim
  | await call => cases d <;> exact hcd.elim

end Store

/-- Every command but the answer of a call is one to the store. -/
theorem plain_store (host : Host) (taskId : String) (w : HostWorld) {c d : RunnerCmd} (h : SameCmd c d) :
    host.plain taskId w d = ((storeReply taskId "" (host.fault w.commands) w.store d).1,
      { w with
        store := (storeReply taskId "" (host.fault w.commands) w.store d).2
        commands := w.commands + 1 }) := by
  cases d with
  | await d => cases c <;> exact h.elim
  | _ => rfl

/-- A host and what the runner sees of it match. -/
theorem carryOut_matches (host : Host) (taskId : String) :
    Prog.Matches upToText (host.carryOut taskId) (host.plain taskId) SameWorld where
  silent := by
    intro c w w' hc h
    cases c with
    | emit e => exact ⟨h.store, h.calls, h.commands⟩
    | store c => exact hc.elim
    | answer c => exact hc.elim
  pairs := by
    intro c d w w' hcd h
    obtain ⟨hstore, hcalls, hcommands⟩ := h
    cases c with
    | emit e => exact hcd.elim
    | answer c =>
      cases d with
      | await d =>
        cases (hcd : c = d)
        refine ⟨?_, hstore, ?_, hcommands⟩
        · show (host.answer w.calls c).answer = (host.answer w'.calls c).answer
          rw [hcalls]
        · show w.calls ++ [c] = w'.calls ++ [c]
          rw [hcalls]
      | _ => exact hcd.elim
    | store c =>
      obtain ⟨hreply, hstore'⟩ := storeReply_same taskId (host.clock w.commands) "" (host.fault w.commands) hcd hstore
      rw [plain_store host taskId w' hcd, ← hcommands]
      exact ⟨hreply, hstore', hcalls, rfl⟩

/-- Hosts that differ in what their exceptions carry look the same to the runner. -/
theorem plain_eq {host host' : Host} (h : host.SameUpToText host') (taskId : String) : host.plain taskId = host'.plain taskId := by
  funext w c
  cases c with
  | await c =>
    show ((host.answer w.calls c).answer, _) = ((host'.answer w.calls c).answer, _)
    rw [h.answer w.calls c]
  | _ => simp only [plain, h.fault]

/-- A run, as the runner sees it. -/
def plainRun (host : Host) (repr : Doc → String) (spec : TaskSpec) (actions : List String) (context : Dict Doc)
    (store : FileStore.World) : Except PyError RunOutcome × HostWorld :=
  (Runner.run repr spec actions context).interp (host.plain spec.taskId) { store := store, calls := [], commands := 0, emitted := [] }

/-- A run on a host is the run as the runner sees it, but for times and diagnostics. -/
theorem run_same (host : Host) (repr : Doc → String) (spec : TaskSpec) (actions : List String) (context : Dict Doc)
    (store : FileStore.World) :
    (host.run repr spec actions context store).1 = (host.plainRun repr spec actions context store).1 ∧
      SameWorld (host.run repr spec actions context store).2 (host.plainRun repr spec actions context store).2 := by
  have hinit : SameWorld { store := store, calls := [], commands := 0, emitted := [] }
      { store := store, calls := [], commands := 0, emitted := [] } := ⟨⟨rfl, rfl, rfl⟩, rfl, rfl⟩
  obtain ⟨hw, hresult⟩ := (run_simulates repr spec actions context host.hasSink).interp (carryOut_matches host spec.taskId) hinit
  refine ⟨?_, hw⟩
  rcases hresult with ⟨a, b, ha, hb, hab⟩ | ⟨e, ha, hb⟩
  · exact ha.trans ((congrArg Except.ok hab).trans hb.symm)
  · exact ha.trans hb.symm

end Host

end Keirin

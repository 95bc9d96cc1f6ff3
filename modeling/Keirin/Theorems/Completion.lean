import Keirin.Lemmas.FileStore

/-!
# Completion is sound

A step is among the durable completed steps only if an operator reconciled it as applied, or a run appended it after its
action returned and its verifier passed in that run. Steps are attempted in the order of the definition, and a task is
completed only with all of its steps.
-/

namespace Keirin

namespace FileStore

/-- How a step came to be completed: the write that added it is a reconciliation of the step as applied, or the save of a
run in which its action returned and its verifier passed. -/
def Justified (spec : TaskSpec) (log : List Item) (c : Doc) : Prop :=
  (∃ pre n stepId state post, log = pre ++ .reconciled n stepId .appliedAndVerified state :: post ∧ c = .str stepId ∧
    c ∉ completedOf pre ∧ c ∈ state.completedSteps) ∨
  (∃ pre n state post, log = pre ++ .saved n state :: post ∧ c ∉ completedOf pre ∧ c ∈ state.completedSteps ∧
    CompletedBy spec n pre c)

theorem Justified.append {spec : TaskSpec} {log : List Item} {c : Doc} (h : Justified spec log c) (item : Item) :
    Justified spec (log ++ [item]) c := by
  rcases h with ⟨pre, n, stepId, state, post, rfl, h⟩ | ⟨pre, n, state, post, rfl, h⟩
  · exact .inl ⟨pre, n, stepId, state, post ++ [item], by simp, h⟩
  · exact .inr ⟨pre, n, state, post ++ [item], by simp, h⟩

theorem completedOf_append (log : List Item) (item : Item) :
    completedOf (log ++ [item]) = (item.written.map TaskState.completedSteps).getD (completedOf log) := by
  rw [completedOf, lastState_append]
  cases item.written <;> rfl

/-- Every durable completed step came to be completed in one of the two ways. -/
theorem justified_of_holds {spec : TaskSpec} {log : List Item} (h : Log.Holds (ItemOk spec) log) :
    ∀ c ∈ completedOf log, Justified spec log c := by
  refine Log.Holds.induct (Q := fun log => ∀ c ∈ completedOf log, Justified spec log c) (fun c hc => nomatch hc) ?_ h
  intro log item hlog hok ih c hc
  by_cases hold : c ∈ completedOf log
  · exact (ih c hold).append item
  rw [completedOf_append] at hc
  cases item with
  | saved n state =>
    rcases hok.2.2 c hc with hin | hby
    · exact absurd hin hold
    · exact .inr ⟨log, n, state, [], rfl, hold, hc, hby⟩
  | reconciled n stepId resolution state =>
    rcases hok.2.2 c hc with hin | ⟨hcs, rfl⟩
    · exact absurd hin hold
    · exact .inl ⟨log, n, stepId, state, [], rfl, hcs, hold, hc⟩
  | invoked n call => exact absurd hc hold
  | answered n call answer => exact absurd hc hold

/-- The durable state has no step twice, and all steps when it is completed. -/
theorem lastState_of_holds {spec : TaskSpec} {log : List Item} (h : Log.Holds (ItemOk spec) log) :
    ∀ state, lastState log = some state → state.completedSteps.Nodup ∧ FinishedOk spec state := by
  refine Log.Holds.induct (Q := fun log => ∀ state, lastState log = some state → state.completedSteps.Nodup ∧
    FinishedOk spec state) (fun state hs => nomatch hs) ?_ h
  intro log item hlog hok ih state hs
  rw [lastState_append] at hs
  cases item with
  | saved n written =>
    cases hs
    exact ⟨hok.1, hok.2.1⟩
  | reconciled n stepId resolution written =>
    cases hs
    exact ⟨hok.1, hok.2.1⟩
  | invoked n call => exact ih state hs
  | answered n call answer => exact ih state hs

/-- In every durable state of a history the completed steps are distinct and each came to be completed by a reconciliation as
applied or by a run in which its action returned and its verifier passed; a completed task has completed all its steps; and
the action of a step is called only when all earlier steps are durably completed. -/
theorem completion_sound (repr : Doc → String) (spec : TaskSpec) (hv : spec.validate = .ok ()) (ops : List Op) :
    (∀ pre post state, (history repr spec ops).log = pre ++ post → lastState pre = some state →
      state.completedSteps.Nodup ∧ (∀ c ∈ state.completedSteps, Justified spec pre c) ∧
      (state.status = .completed → ∀ step ∈ spec.steps, state.done step.stepId = true)) ∧
    (∀ pre n call post, (history repr spec ops).log = pre ++ .invoked n call :: post → call.phase = .action →
      ∃ state before step after, lastState pre = some state ∧ spec.steps = before ++ step :: after ∧
        call.stepId = step.stepId ∧ ∀ b ∈ before, state.done b.stepId = true) := by
  have hi := history_inv repr (TaskSpec.valid_of_validate hv) ops
  refine ⟨fun pre post state hlog hlast => ?_, fun pre n call post hlog hph => ?_⟩
  · have hpre := (hlog ▸ hi.items : Log.Holds (ItemOk spec) (pre ++ post)).initial
    obtain ⟨hnd, hfin⟩ := lastState_of_holds hpre state hlast
    refine ⟨hnd, fun c hc => justified_of_holds hpre c ?_, hfin⟩
    rw [completedOf, hlast]
    exact hc
  · obtain ⟨state, before, step, after, hlast, hsteps, hid, hbefore, -⟩ := hi.items _ _ _ hlog hph
    exact ⟨state, before, step, after, hlast, hsteps, hid, hbefore⟩

/-- A task of two steps, the first with a verifier. -/
def verifyThenReport : TaskSpec :=
  { taskId := "t1", title := "report", goal := "report once", allowedActions := ["read", "check", "report"]
    steps :=
      [{ stepId := "s1", action := "read", args := [], verifyAction := some "check", retrySafe := false, maxAttempts := 1 },
       { stepId := "s2", action := "report", args := [], verifyAction := none, retrySafe := false, maxAttempts := 1 }]
    inputs := [], completionConditions := [], schemaVersion := TASK_SCHEMA_VERSION }

/-- A run that completes both steps. -/
def completeBoth : List Op :=
  let ok := Choice.ok "t"
  let some (r : Returned) : Choice := .answer (.ok r)
  [.run ["read", "check", "report"] []
    [ok, ok, ok, ok, ok, ok, ok, ok, ok, some .none, ok, ok, some (.bool true), ok, ok, ok, ok, ok, ok, some .none, ok, ok, ok,
      ok, ok]]

theorem completion_sound_completeBoth :
    ∃ state, lastState (history (fun _ => "") verifyThenReport completeBoth).log = some state ∧
      state.status = .completed ∧ state.completedSteps.Nodup := by
  have hsome : (lastState (history (fun _ => "") verifyThenReport completeBoth).log).isSome = true := by decide +kernel
  have hstat : (lastState (history (fun _ => "") verifyThenReport completeBoth).log).map TaskState.status = some .completed := by
    decide +kernel
  obtain ⟨state, hstate⟩ := Option.isSome_iff_exists.1 hsome
  rw [hstate] at hstat
  exact ⟨state, hstate, Option.some.inj hstat, ((completion_sound (fun _ => "") verifyThenReport (by decide +kernel)
    completeBoth).1 _ [] state (by simp) hstate).1⟩

end FileStore

end Keirin

import Keirin.Lemmas.Diagnostics

/-!
# Exception text never reaches durable state

The runs of a task on two hosts whose actions and verifiers differ in nothing but the class, the text, the arguments and the
attributes of the exceptions they raise, other than `BlockedAction` and `SafeActionError`, write the same task states and the
same events, and end alike. The runs may report their diagnostics to different sinks, or to none.
-/

namespace Keirin

namespace Host

/-- Two runs on hosts that differ in what their exceptions carry write the same and have the same outcome. -/
theorem exceptionText_never_durable (repr : Doc → String) (spec : TaskSpec) (actions : List String) (context : Dict Doc)
    (store : FileStore.World) {host host' : Host} (h : host.SameUpToText host') :
    (host.run repr spec actions context store).1 = (host'.run repr spec actions context store).1 ∧
      (host.run repr spec actions context store).2.store.states = (host'.run repr spec actions context store).2.store.states ∧
      (host.run repr spec actions context store).2.store.events = (host'.run repr spec actions context store).2.store.events := by
  obtain ⟨hresult, hworld⟩ := run_same host repr spec actions context store
  obtain ⟨hresult', hworld'⟩ := run_same host' repr spec actions context store
  have hplain : host.plainRun repr spec actions context store = host'.plainRun repr spec actions context store := by
    unfold plainRun
    rw [plain_eq h]
  rw [← hplain] at hresult' hworld'
  exact ⟨hresult.trans hresult'.symm, hworld.store.states.trans hworld'.store.states.symm,
    hworld.store.events.trans hworld'.store.events.symm⟩

/-- A host whose action raises, with a sink that accepts every diagnostic. -/
def raising (exc : Raised) : Host :=
  { answer := fun _ _ =>
      { value := .error exc
        later := fun e =>
          match e with
          | .blocked message => { cls := .blockedAction, typeName := "BlockedAction", text := message, args := [], attributes := [] }
          | .safe code => { cls := .safeActionError code, typeName := "SafeActionError", text := code, args := [], attributes := [] }
          | .other => { cls := .otherException, typeName := "Exception", text := "", args := [], attributes := [] }
        later_toExc := fun e => by cases e <;> rfl }
    sink := fun _ _ => .ok ()
    hasSink := true
    clock := fun _ => "t"
    fault := fun _ => none }

/-- A task of one step that may be retried once. -/
def retriedTask : TaskSpec :=
  { taskId := "t1", title := "report", goal := "report once", allowedActions := ["report"]
    steps := [{ stepId := "s1", action := "report", args := [], verifyAction := none, retrySafe := true, maxAttempts := 2 }]
    inputs := [], completionConditions := [], schemaVersion := TASK_SCHEMA_VERSION }

/-- An exception with a secret in its text and its attributes. -/
def leakingError : Raised :=
  { cls := .otherException, typeName := "AuthError", text := "token abc123 rejected", args := [.str "abc123"]
    attributes := [("token", .str "abc123")] }

/-- An exception without any text. -/
def silentError : Raised := { cls := .otherException, typeName := "Error", text := "", args := [], attributes := [] }

/-- Both runs fail after two attempts, and write the same. -/
theorem exceptionText_never_durable_retried :
    ((raising leakingError).run (fun _ => "") retriedTask ["report"] [] .initial).2.emitted ≠
        ((raising silentError).run (fun _ => "") retriedTask ["report"] [] .initial).2.emitted ∧
      ((raising leakingError).run (fun _ => "") retriedTask ["report"] [] .initial).1.map RunOutcome.status = .ok .failed ∧
      ((raising leakingError).run (fun _ => "") retriedTask ["report"] [] .initial).2.store.events.length = 6 ∧
      ((raising leakingError).run (fun _ => "") retriedTask ["report"] [] .initial).2.store.states =
        ((raising silentError).run (fun _ => "") retriedTask ["report"] [] .initial).2.store.states :=
  ⟨by decide +kernel, by decide +kernel, by decide +kernel,
    (exceptionText_never_durable (fun _ => "") retriedTask ["report"] [] .initial
      (⟨fun _ _ => rfl, rfl⟩ : (raising leakingError).SameUpToText (raising silentError))).2.1⟩

end Host

end Keirin

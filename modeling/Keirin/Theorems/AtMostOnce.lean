import Keirin.Lemmas.FileStore

/-!
# At most once, across crashes

A run records an attempt before it calls the action, and a later run refuses to go on while an attempt is open. So between
two reconciliations of a step as not applied its action is called at most as often as the step allows, wherever the runs
were cut off and whatever else was reconciled.
-/

namespace Keirin

namespace FileStore

/-- The calls in a part of the log without such a reconciliation are among the calls since the last one. -/
theorem calls_le_callsSince {key : String} (pre : List Item) {seg : List Item}
    (h : ∀ item ∈ seg, item.isNotApplied key = false) : calls key seg ≤ callsSince key (pre ++ seg) := by
  induction seg using List.reverseRecOn with
  | nil => exact Nat.zero_le _
  | append_singleton seg item ih =>
    have ih' := ih fun x hx => h x (List.mem_append_left _ hx)
    have hitem := h item (List.mem_append_right _ (List.mem_singleton_self _))
    rw [← List.append_assoc, calls_append, callsSince_append, hitem]
    by_cases hc : item.isCall key = true
    · simp only [hc, if_true, Bool.false_eq_true, if_false]
      omega
    · simp only [hc, Bool.false_eq_true, if_false]
      omega

/-- The calls of a step in a part of the log without such a reconciliation stay within what the step allows. -/
theorem calls_le_maxAttempts {spec : TaskSpec} (hv : spec.Valid) {step : StepSpec} (hs : step ∈ spec.steps) {pre seg : List Item}
    (h : Log.Holds (ItemOk spec) (pre ++ seg)) (hno : ∀ item ∈ seg, item.isNotApplied step.stepId = false) :
    (calls step.stepId seg : Int) ≤ step.maxAttempts := by
  induction seg using List.reverseRecOn with
  | nil =>
    have := (hv.steps step hs).positive
    simp only [calls, List.countP_nil]
    omega
  | append_singleton seg item ih =>
    rw [← List.append_assoc] at h
    have hno' : ∀ x ∈ seg, x.isNotApplied step.stepId = false := fun x hx => hno x (List.mem_append_left _ hx)
    have hseg := ih h.initial hno'
    rw [calls_append]
    by_cases hc : item.isCall step.stepId = true
    · -- the call was in order, so an attempt was left for it
      have hle := calls_le_callsSince pre hno'
      have hok := h (pre ++ seg) item [] rfl
      cases item with
      | invoked n call =>
        simp only [Item.isCall, Bool.and_eq_true, decide_eq_true_eq] at hc
        obtain ⟨state, before, step', after, -, hsteps, hid, -, -, hroom⟩ := hok hc.1
        have hst : step' = step := List.inj_on_of_nodup_map hv.nodup (by simp [hsteps]) hs (hid.symm.trans hc.2)
        rw [hst] at hroom
        have : Item.isCall step.stepId (.invoked n call) = true := by simp [Item.isCall, hc]
        rw [this]
        push_cast
        omega
      | saved n state => cases hc
      | reconciled n stepId resolution state => cases hc
      | answered n call answer => cases hc
    · simp only [hc, Bool.false_eq_true, if_false]
      omega

/-- In every part of a history that holds no successful reconciliation of the step as not applied, the action of a step is
called at most once if the step is not retry-safe and at most `max_attempts` times otherwise; and it is never called while
the step is among the durable completed steps. -/
theorem at_most_once (repr : Doc → String) (spec : TaskSpec) (hv : spec.validate = .ok ()) (ops : List Op) (step : StepSpec)
    (hs : step ∈ spec.steps) :
    (∀ pre seg post, (history repr spec ops).log = pre ++ seg ++ post →
      (∀ item ∈ seg, item.isNotApplied step.stepId = false) →
      (calls step.stepId seg : Int) ≤ if step.retrySafe then step.maxAttempts else 1) ∧
    (∀ pre n call post, (history repr spec ops).log = pre ++ .invoked n call :: post → call.phase = .action →
      call.stepId = step.stepId → ∀ state, lastState pre = some state → state.done step.stepId = false) := by
  have hvalid := TaskSpec.valid_of_validate hv
  have hi := history_inv repr hvalid ops
  refine ⟨fun pre seg post hlog hno => ?_, fun pre n call post hlog hph hid state hlast => ?_⟩
  · have hle := calls_le_maxAttempts hvalid hs (hlog ▸ hi.items).initial hno
    cases hr : step.retrySafe with
    | true => exact hle
    | false => exact hle.trans (by rw [(hvalid.steps step hs).single hr]; rfl)
  · obtain ⟨state', before, step', after, hlast', -, hid', -, hfresh, -⟩ := hi.items _ _ _ hlog hph
    rw [hlast'] at hlast
    cases hlast
    rwa [← hid, hid']

/-- A task with one step, which may be tried twice. -/
def publishTwice : TaskSpec :=
  { taskId := "t1", title := "publish", goal := "publish once", allowedActions := ["publish"]
    steps := [{ stepId := "s1", action := "publish", args := [], verifyAction := none, retrySafe := true, maxAttempts := 2 }]
    inputs := [], completionConditions := [], schemaVersion := TASK_SCHEMA_VERSION }

/-- A run in which the action fails twice. -/
def failTwice : List Op :=
  let ok := Choice.ok "t"
  [.run ["publish"] []
    [ok, ok, ok, ok, ok, ok, ok, ok, ok, .answer (.error .other), ok, ok, ok, ok, .answer (.error .other), ok, ok, ok]]

theorem at_most_once_publishTwice :
    calls "s1" (history (fun _ => "") publishTwice failTwice).log = 2 ∧
      (calls "s1" (history (fun _ => "") publishTwice failTwice).log : Int) ≤ 2 := by
  have hno : (history (fun _ => "") publishTwice failTwice).log.all (fun item => !item.isNotApplied "s1") = true := by
    decide +kernel
  refine ⟨by decide +kernel, ?_⟩
  refine (at_most_once (fun _ => "") publishTwice (by decide +kernel) failTwice _ List.mem_cons_self).1 [] _ [] (by simp)
    fun item hm => ?_
  simpa using List.all_eq_true.1 hno item hm

end FileStore

end Keirin

import Keirin.Lemmas.FileStore
import Keirin.Lib.JsonSort

/-!
# Which step a reconciliation is about

A reconciliation is meant for the step that blocks the task: one that was attempted and is not completed. The call asks only
that the task is blocked and that its other arguments are in order; a call that is refused leaves the file of the state as it is.
-/

namespace Keirin

namespace FileStore

open Runner

/-! ## The file belongs to the task -/

/-- A state in the file is that of the task, whose identifier is safe. -/
def Owned (spec : TaskSpec) (w : World) : Prop := ∀ s, w.file = some s → s.taskId = spec.taskId ∧ safeTaskId spec.taskId = true

/-- What a load returns is a state of the task. -/
theorem load_owned {taskId now : String} {w : World} {state : TaskState}
    (h : ((checkTaskId taskId).bind fun _ =>
      match w.file with
      | none => .ok { taskId := taskId, updatedAt := now }
      | some state => if state.taskId ≠ taskId then .error (.valueError "task_state_id_mismatch") else .ok state) = .ok state) :
    state.taskId = taskId ∧ safeTaskId taskId = true := by
  obtain ⟨_, hsafe, h⟩ := bind_ok.1 h
  have hid : safeTaskId taskId = true := by simpa using raiseIf_ok.1 hsafe
  cases hf : w.file with
  | none =>
    simp only [hf] at h
    cases h
    exact ⟨rfl, hid⟩
  | some s =>
    simp only [hf] at h
    by_cases hne : s.taskId ≠ taskId
    · rw [if_pos hne] at h
      nomatch h
    · rw [if_neg hne] at h
      cases h
      exact ⟨not_not.1 hne, hid⟩

/-- An answer changes nothing about the state a run knows. -/
theorem next_await_state (v : RunView) (c : ActionCall) (answer : Except ActionExc Returned) :
    (v.next (.await c) answer).state = v.state := by
  simp only [RunView.next]
  cases c.phase with
  | action => cases Except.bind answer normaliseActionResult <;> rfl
  | verification =>
    cases Except.bind answer verificationPassed with
    | error e => rfl
    | ok b => cases b <;> rfl

/-- A command of a run leaves the file to the task. -/
theorem run_owned {spec : TaskSpec} {n : Nat} {v : RunView} {c : RunnerCmd} {x : Choice} {r : c.Reply} {w w' : World}
    (ha : (runDiscipline spec).allowed v c)
    (hJ : ∀ s, v.state = some s → s.taskId = spec.taskId ∧ safeTaskId spec.taskId = true) (hi : Owned spec w)
    (hm : machine spec.taskId n (Item.saved n) w c x = some (r, w')) :
    Owned spec w' ∧ ∀ s, (v.next c r).state = some s → s.taskId = spec.taskId ∧ safeTaskId spec.taskId = true := by
  cases c with
  | load =>
    cases x with
    | ok now =>
      obtain ⟨hr, rfl⟩ := Prod.mk.inj (Option.some.inj hm)
      refine ⟨hi, fun s hs => ?_⟩
      cases r with
      | error e => exact hJ s hs
      | ok state =>
        cases hs
        exact load_owned hr
    | fail e =>
      cases hm
      exact ⟨hi, hJ⟩
    | answer a => cases hm
  | save state =>
    cases x with
    | ok now =>
      simp only [machine] at hm
      split at hm
      · obtain ⟨rfl, rfl⟩ := Prod.mk.inj (Option.some.inj hm)
        obtain ⟨old, hold, hok⟩ := ha
        have hstate : state.taskId = spec.taskId ∧ safeTaskId spec.taskId = true := by
          rw [hok.taskId]
          exact hJ old hold
        refine ⟨fun s hs => ?_, fun s hs => ?_⟩
        · cases hs
          exact hstate
        · cases hs
          exact hstate
      · cases hm
    | fail e =>
      obtain ⟨rfl, rfl⟩ := Prod.mk.inj (Option.some.inj hm)
      exact ⟨hi, hJ⟩
    | answer a => cases hm
  | invoke c =>
    cases x with
    | ok now =>
      cases hm
      refine ⟨hi, fun s hs => hJ s ?_⟩
      simpa only [RunView.next, apply_ite RunView.state, ite_self] using hs
    | fail e => cases hm
    | answer a => cases hm
  | await c =>
    cases x with
    | answer a =>
      cases hm
      exact ⟨hi, fun s hs => hJ s (next_await_state v c _ ▸ hs)⟩
    | ok now => cases hm
    | fail e => cases hm
  | lock => cases x <;> first | (cases hm; exact ⟨hi, hJ⟩) | cases hm
  | «exists» => cases x <;> first | (cases hm; exact ⟨hi, hJ⟩) | cases hm
  | event e => cases x <;> first | (cases hm; exact ⟨hi, hJ⟩) | cases hm

/-- A reconciliation leaves the file to the task, wherever it is cut off. -/
theorem reconcile_owned {spec : TaskSpec} (r : Reconciliation) {w : World} {n : ℕ} (mark : TaskState → Item) (hi : Owned spec w) :
    (reconcileBlockedStep spec.taskId r).Safe (Setting.alone (machine spec.taskId n mark) (Owned spec)) (fun _ _ => True)
      (fun _ _ => True) w := by
  refine (reconcile_effect r (P := True) (fun _ _ hf _ h s hs => h s (hf ▸ hs)) ?_ hi)
  intro w old state resolution now _ _ _ _ _ hid hsafe _ hstate _
  obtain ⟨arts, rfl⟩ := foldlM_updates_ok hstate
  refine ⟨fun s hs => ?_, trivial⟩
  cases hs
  refine ⟨?_, hsafe⟩
  cases resolution <;> exact hid

/-! ## What a call does -/

/-- The call, made at a point of a history and resolved by choices. -/
def reconcileAt (spec : TaskSpec) (w : World) (r : Reconciliation) (choices : List Choice) : World × RunProg TaskState :=
  Prog.exec (machine spec.taskId w.ops ((Op.reconcile r choices).mark w.ops)) choices w (reconcileBlockedStep spec.taskId r)

/-- The task is blocked. -/
def Blocked (w : World) : Prop := ∃ state, w.file = some state ∧ state.status = .blocked

/-- The step is one of the task that was attempted and is not completed. -/
def Attempted (spec : TaskSpec) (w : World) (stepId : String) : Prop :=
  ∃ state, w.file = some state ∧ (∃ step ∈ spec.steps, step.stepId = stepId) ∧ 0 < state.attemptsOf stepId ∧
    state.done stepId = false

/-- The arguments of the call besides the step it names are in order: there is a step and a note, and the artifact updates can be
applied and stored. -/
def InOrder (w : World) (r : Reconciliation) : Prop :=
  isBlank r.stepId = false ∧ isBlank r.note = false ∧ ∃ state state', w.file = some state ∧
    (r.artifactUpdates.map ArtifactItem.update).foldlM applyArtifactUpdate state = .ok state' ∧ Doc.encodable state'.toDict = true

/-- The call is about the step that blocks the task: however it is resolved, it returns only where the task is blocked and the step
was attempted and is not completed, and where that is not so it leaves the file as it is. -/
def Precise (spec : TaskSpec) (w : World) (r : Reconciliation) : Prop :=
  ∀ choices, ((∃ s, (reconcileAt spec w r choices).2 = .ret s) → Blocked w ∧ Attempted spec w r.stepId) ∧
    (¬(Blocked w ∧ Attempted spec w r.stepId) → (reconcileAt spec w r choices).1.file = w.file)

/-- At every point of a history the file is that of the task. -/
theorem history_owned (repr : Doc → String) (spec : TaskSpec) (ops : List Op) : Owned spec (history repr spec ops) := by
  unfold history
  induction ops using List.reverseRecOn with
  | nil => exact fun s hs => nomatch hs
  | append_singleton ops op ih =>
    rw [List.foldl_append]
    generalize ops.foldl (Op.exec repr spec) .initial = w at ih ⊢
    cases op with
    | run actions context choices =>
      exact Prog.exec_inv_alone (I := Owned spec) choices ih ((run_follows repr spec actions context).safe_alone
        (J := fun v _ => ∀ s, v.state = some s → s.taskId = spec.taskId ∧ safeTaskId spec.taskId = true)
        (fun v w c x r t ha hJ hi hm => ⟨trivial, run_owned ha hJ hi hm⟩) fun s hs => nomatch hs)
    | reconcile r choices =>
      exact Prog.exec_inv_alone (I := Owned spec) choices ih (reconcile_owned r _ ih)

/-! ## The calls that are refused -/

theorem encodable_obj (fs : Dict Doc) : Doc.encodable (.obj fs) = fs.all fun f => Doc.encodable f.2 := Json.allNumFields_eq _ fs

theorem encodable_arr (xs : List Doc) : Doc.encodable (.arr xs) = xs.all Doc.encodable := Json.allNumList_eq _ xs

/-- What a state needs to be stored. -/
theorem encodable_state (state : TaskState) : Doc.encodable state.toDict = true ↔
    Doc.encodable state.status.toDoc = true ∧ (∀ c ∈ state.completedSteps, Doc.encodable c = true) ∧
      Doc.encodable state.blockedReason = true ∧ Doc.encodable state.lastError = true ∧
      (∀ a ∈ state.artifacts, Doc.encodable a.2.toDict = true) ∧ (∀ c ∈ state.reconciliations, Doc.encodable c = true) ∧
      Doc.encodable state.specFingerprint = true := by
  have hstr : ∀ s : String, Doc.encodable (.str s) = true := fun _ => rfl
  have hnum : ∀ n : ℤ, Doc.encodable (.num (.int n)) = true := fun _ => rfl
  simp [TaskState.toDict, encodable_obj, encodable_arr, hstr, hnum, Function.comp_def]

/-- The state a reconciliation writes can be stored where the state with the updates can. -/
theorem encodable_written {r : Reconciliation} {resolution : Resolution} {now : String} {state : TaskState}
    (hb : state.status = .blocked) :
    Doc.encodable (written r resolution now state).toDict = true ↔ Doc.encodable state.toDict = true := by
  have hstr : ∀ s : String, Doc.encodable (.str s) = true := fun _ => rfl
  have hstatus : Doc.encodable state.status.toDoc = true := by
    rw [hb]
    rfl
  have hrecord : Doc.encodable (record r state) = true ↔
      Doc.encodable state.blockedReason = true ∧ Doc.encodable state.lastError = true := by
    simp [record, encodable_obj, hstr]
  have hnull : Doc.encodable .null = true := rfl
  have hpending : Doc.encodable TaskStatus.pending.toDoc = true := rfl
  have hblocked : Doc.encodable TaskStatus.blocked.toDoc = true := rfl
  rw [encodable_state, encodable_state]
  cases resolution with
  | notApplied =>
    simp only [written, resolve, hnull, hpending, hstatus, List.forall_mem_append, List.forall_mem_singleton, hrecord]
    tauto
  | appliedAndVerified =>
    have hsteps : (∀ c ∈ (written r .appliedAndVerified now state).completedSteps, Doc.encodable c = true) ↔
        ∀ c ∈ state.completedSteps, Doc.encodable c = true := by
      by_cases hd : state.done r.stepId = true
      · exact iff_of_eq (by rw [show (written r .appliedAndVerified now state).completedSteps = state.completedSteps from if_pos hd])
      · rw [show (written r .appliedAndVerified now state).completedSteps = state.completedSteps ++ [.str r.stepId] from if_neg hd,
          List.forall_mem_append, List.forall_mem_singleton]
        exact and_iff_left (hstr _)
    rw [hsteps]
    simp only [written, resolve, hnull, hpending, hstatus, List.forall_mem_append, List.forall_mem_singleton, hrecord]
    tauto
  | needsManualAction =>
    simp only [written, resolve, hblocked, hstatus, List.forall_mem_append, List.forall_mem_singleton, hrecord]
    tauto

/-- Where the task is not blocked or the arguments are not in order, the call is refused: it does not return, and it leaves the
file as it is. -/
theorem refused {spec : TaskSpec} {w : World} {r : Reconciliation} (h : ¬(Blocked w ∧ InOrder w r)) (choices : List Choice) :
    (¬∃ s, (reconcileAt spec w r choices).2 = .ret s) ∧ (reconcileAt spec w r choices).1.file = w.file := by
  have hsafe : (reconcileBlockedStep spec.taskId r).Safe
      (Setting.alone (machine spec.taskId w.ops ((Op.reconcile r choices).mark w.ops)) (fun t => t.file = w.file))
      (fun _ _ => False) (fun _ _ => True) w := by
    refine reconcile_effect r (fun _ _ hf _ hi => hf.trans hi) ?_ rfl
    intro t old state resolution now hi _ hstep hnote hold _ _ hb hstate henc
    have hfile : w.file = some old := hi.symm.trans hold
    obtain ⟨arts, hs⟩ := foldlM_updates_ok hstate
    have hstored := (encodable_written (by rw [hs]; exact hb)).1 henc
    exact absurd ⟨⟨old, hfile, hb⟩, hstep, hnote, old, state, hfile, hstate, hstored⟩ h
  obtain ⟨hfile, hrest⟩ := hsafe.exec (fun _ => rfl) choices rfl
  refine ⟨?_, hfile⟩
  rintro ⟨s, hs⟩
  change (reconcileAt spec w r choices).2.Safe _ _ _ _ at hrest
  rw [hs] at hrest
  exact hrest _ rfl hfile

/-- Where the task is blocked and the arguments are in order, the call can succeed. -/
theorem accepted {spec : TaskSpec} {w : World} {r : Reconciliation} (hw : Owned spec w) (hb : Blocked w) (ho : InOrder w r)
    {resolution : Resolution} (hr : Resolution.ofText r.resolution = some resolution) :
    ∃ choices s, (reconcileAt spec w r choices).2 = .ret s := by
  obtain ⟨old, hfile, hb⟩ := hb
  obtain ⟨hstep, hnote, old', state, hfile', hstate, henc⟩ := ho
  obtain rfl : old = old' := Option.some.inj (hfile.symm.trans hfile')
  obtain ⟨hid, hsafe⟩ := hw old hfile
  obtain ⟨arts, hs⟩ := foldlM_updates_ok hstate
  have hstored := (@encodable_written r resolution "" state (by rw [hs]; exact hb)).2 henc
  have hcheck : checkTaskId spec.taskId = .ok () := raiseIf_neg (by simp [hsafe]) _
  refine ⟨[.ok "", .ok "", .ok "", .ok ""],
    resolve r.stepId resolution { state with reconciliations := state.reconciliations ++ [record r state] }, ?_⟩
  rw [reconcileAt, reconcileBlockedStep, exec_lock hcheck, checkResolution, hr]
  change (Prog.exec _ _ w (unwrap (raiseIf (isBlank r.stepId = true) _) >>= fun _ => _)).2 = _
  rw [raiseIf_neg (by simp [hstep])]
  change (Prog.exec _ _ w (unwrap (raiseIf (isBlank r.note = true) _) >>= fun _ => _)).2 = _
  rw [raiseIf_neg (by simp [hnote])]
  change (Prog.exec _ _ w (loadState >>= fun _ => _)).2 = _
  rw [exec_load hcheck hfile hid, raiseIf_neg (not_not.2 hb)]
  change (Prog.exec _ _ w (unwrap (List.foldlM applyArtifactUpdate old (r.artifactUpdates.map ArtifactItem.update)) >>= fun _ => _)).2 = _
  rw [hstate]
  change (Prog.exec _ _ w (saveState _ >>= fun _ => _)).2 = _
  rw [exec_save hstored]
  rfl

/-- At every point of every history, and for every call with one of the two resolutions that lift the block: the call is about the
step that blocks the task, however it is resolved, exactly where the named step was attempted and is not completed, or the call is
refused anyway, because the task is not blocked or another argument is not in order. -/
theorem reconciles_blocked_step_iff (repr : Doc → String) (spec : TaskSpec) (ops : List Op) (r : Reconciliation)
    (hr : r.resolution ∈ ["applied_and_verified", "not_applied"]) :
    Precise spec (history repr spec ops) r ↔
      (Blocked (history repr spec ops) → InOrder (history repr spec ops) r → Attempted spec (history repr spec ops) r.stepId) := by
  have howned := history_owned repr spec ops
  generalize history repr spec ops = w at howned
  have hres : ∃ resolution, Resolution.ofText r.resolution = some resolution := by
    rcases List.mem_cons.1 hr with h | h
    · exact ⟨.appliedAndVerified, by rw [h]; rfl⟩
    · exact ⟨.notApplied, by rw [List.mem_singleton.1 h]; rfl⟩
  obtain ⟨resolution, hres⟩ := hres
  constructor
  · intro hp hb ho
    obtain ⟨choices, s, hs⟩ := accepted howned hb ho hres
    exact ((hp choices).1 ⟨s, hs⟩).2
  · intro hcond choices
    by_cases hin : Blocked w ∧ InOrder w r
    · have hatt := hcond hin.1 hin.2
      exact ⟨fun _ => ⟨hin.1, hatt⟩, fun hn => absurd ⟨hin.1, hatt⟩ hn⟩
    · obtain ⟨hret, hfile⟩ := refused hin choices
      exact ⟨fun h => absurd h hret, fun _ => hfile⟩

/-! ## A mistyped step -/

/-- A task of two steps. -/
def publishBoth : TaskSpec :=
  { taskId := "t1", title := "publish", goal := "publish both", allowedActions := ["publish"]
    steps := [{ stepId := "s1", action := "publish", args := [], verifyAction := none, retrySafe := false, maxAttempts := 1 },
      { stepId := "s2", action := "publish", args := [], verifyAction := none, retrySafe := false, maxAttempts := 1 }]
    inputs := [], completionConditions := [], schemaVersion := TASK_SCHEMA_VERSION }

/-- The first step is interrupted after its attempt was recorded; the next run blocks the task. -/
def interruptedFirst : List Op :=
  let ok := Choice.ok "t"
  [.run ["publish"] [] (List.replicate 9 ok), .run ["publish"] [] (List.replicate 5 ok)]

/-- The call that lifts the block for a step. -/
def appliedStep (stepId : String) : Reconciliation :=
  { stepId := stepId, resolution := "applied_and_verified", note := "checked by hand", artifactUpdates := [], now := "t" }

/-- The call succeeds for the second step, which was never attempted: it is marked completed, and the block of the first is
lifted. -/
theorem mistyped_step_accepted : publishBoth.validate = .ok () ∧
    ¬Precise publishBoth (history (fun _ => "") publishBoth interruptedFirst) (appliedStep "s2") := by
  refine ⟨by decide +kernel, fun h => ?_⟩
  have hret := Prog.exists_of_value? (P := fun _ => true)
    (r := reconcileAt publishBoth (history (fun _ => "") publishBoth interruptedFirst) (appliedStep "s2") (List.replicate 4 (.ok "t")))
    (by decide +kernel)
  obtain ⟨_, s, hs, -⟩ := hret
  obtain ⟨-, state, hfile, -, hatt, -⟩ := (h (List.replicate 4 (.ok "t"))).1 ⟨s, by rw [hs]⟩
  have hnone : (history (fun _ => "") publishBoth interruptedFirst).file.all (fun s => s.attemptsOf "s2" ≤ 0) = true := by
    decide +kernel
  rw [hfile] at hnone
  have hle : state.attemptsOf "s2" ≤ 0 := by simpa using hnone
  change 0 < state.attemptsOf "s2" at hatt
  omega

/-- For the step that was interrupted the call is as it should be. -/
theorem reconciles_blocked_step_interrupted :
    Precise publishBoth (history (fun _ => "") publishBoth interruptedFirst) (appliedStep "s1") := by
  refine (reconciles_blocked_step_iff (fun _ => "") publishBoth interruptedFirst (appliedStep "s1") List.mem_cons_self).2 ?_
  intro hb _
  obtain ⟨state, hfile, -⟩ := hb
  have hfirst : (history (fun _ => "") publishBoth interruptedFirst).file.all
      (fun s => decide (0 < s.attemptsOf "s1") && !s.done "s1") = true := by decide +kernel
  rw [hfile] at hfirst
  simp only [Option.all_some, Bool.and_eq_true, decide_eq_true_eq, Bool.not_eq_true'] at hfirst
  exact ⟨state, hfile, ⟨_, List.mem_cons_self, rfl⟩, hfirst⟩

end FileStore

end Keirin

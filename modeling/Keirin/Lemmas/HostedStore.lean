import Keirin.Lemmas.HostedCalls

/-!
# A run over the store of a lease

The worker carries out a run over the row it claimed. What the run knows and what the worker heard are related by `Under`, which every
command of the run keeps; so the calls of the run are calls that the worker may start (`WorkerCall`).
-/

namespace Keirin

namespace Hosted

open HostedQueue (ok now)
open HostedWorker (ToolRegistry guardedActions guardedStore leaseStore)

/-- A call that a worker may start under the lease it claimed. -/
structure WorkerCall (registry : ToolRegistry) (workerId : String) (lease : HostedQueueLease) (heard : Heard) (call : ActionCall) : Prop where
  registered : (call.action, .read) ∈ registry
  task : Dict.get? "task_id" call.context = some (.str lease.taskId)
  saved : SaveHeard workerId heard lease.taskId
  step : call.phase = .action → ∃ step ∈ lease.spec.steps, call.stepId = step.stepId ∧
    (step.retrySafe = false → ∀ earlier ∈ heardCalls heard, earlier.phase = .action → earlier.stepId ≠ call.stepId)

/-- A worker starts a call only under a lease it claimed. -/
def WorkerMay (repr : Doc → String) (registry : ToolRegistry) (workerId : String) (leaseSeconds : ℤ) (heard : Heard) (call : ActionCall) :
    Prop :=
  ∃ lease, ClaimHeard repr workerId leaseSeconds heard lease ∧ WorkerCall registry workerId lease heard call

section Store

variable {repr : Doc → String} {registry : ToolRegistry} {workerId : String} {leaseSeconds : ℤ} {claimed : HostedQueueLease}

/-- What the run over the claimed lease knows, the lease it has now, and what the worker heard. -/
structure Under (repr : Doc → String) (workerId : String) (leaseSeconds : ℤ) (claimed : HostedQueueLease) (v : RunView)
    (lease : HostedQueueLease) (heard : Heard) : Prop where
  claim : ClaimHeard repr workerId leaseSeconds heard claimed
  one : OneTask lease
  task : ∀ state, v.state = some state → state.taskId = claimed.taskId
  loaded : ∀ state, v.state = some state → v.loaded = some state ∨ (state.status = .running → SaveHeard workerId heard claimed.taskId)
  saved : v.called ≠ [] → SaveHeard workerId heard claimed.taskId
  called : ∀ call ∈ heardCalls heard, call.phase = .action → call.stepId ∈ v.called

/-- More is heard, and no call is started. -/
theorem Under.extend {v : RunView} {lease : HostedQueueLease} {heard heard' : Heard} (h : Under repr workerId leaseSeconds claimed v lease heard)
    (hpre : heard <+: heard') (hcalls : heardCalls heard' = heardCalls heard) :
    Under repr workerId leaseSeconds claimed v lease heard' where
  claim := h.claim.mono hpre
  one := h.one
  task := h.task
  loaded := fun state hstate => (h.loaded state hstate).imp_right fun hs hrunning => (hs hrunning).mono hpre
  saved := fun hcalled => (h.saved hcalled).mono hpre
  called := fun call hcall => h.called call (hcalls ▸ hcall)

/-- The worker may start the calls that the run may start. -/
theorem Under.workerCall {v : RunView} {lease : HostedQueueLease} {heard : Heard} {call : ActionCall} (hone : OneTask claimed)
    (h : Under repr workerId leaseSeconds claimed v lease heard)
    (hrun : (runDiscipline claimed.spec).allowed v (.invoke call))
    (hcall : RunCalls.CallOk claimed.spec (guardedActions registry) v call) : WorkerCall registry workerId claimed heard call where
  registered := by
    obtain ⟨entry, hentry, haction⟩ := List.mem_map.1 hcall.registered
    obtain ⟨hmem, hread⟩ := List.mem_filter.1 hentry
    rw [← haction, ← of_decide_eq_true hread]
    exact hmem
  task := by
    rw [← hone.1]
    exact hcall.task
  saved := by
    cases hphase : call.phase with
    | verification => exact h.saved (hcall.after hphase)
    | action =>
      obtain ⟨loaded, state, hloaded, hstate, hok⟩ := hrun hphase
      obtain ⟨running, hrunning, hstatus⟩ := hcall.running
      rw [hstate] at hrunning
      cases hrunning
      rcases h.loaded state hstate with hsame | hsaved
      · -- a call is recorded in the state before it is started, so the state is not the one that was loaded
        rw [hloaded] at hsame
        cases hsame
        have hrecorded := hok.recorded
        omega
      · exact hsaved hstatus
  step := by
    intro hphase
    obtain ⟨loaded, state, -, -, hok⟩ := hrun hphase
    obtain ⟨before, step, after, hsteps, hid, -, honce⟩ := hok.order
    refine ⟨step, by rw [hsteps]; simp, hid, fun hsafe earlier hearlier hphase' heq => ?_⟩
    exact honce hsafe (heq ▸ h.called earlier hearlier hphase')

/-- What an answer of an action tells a run leaves its state and its calls as they were. -/
theorem next_await (v : RunView) (call : ActionCall) (answer : Except ActionExc Returned) :
    (v.next (.await call) answer).state = v.state ∧ (v.next (.await call) answer).loaded = v.loaded ∧
      (v.next (.await call) answer).called = v.called := by
  simp only [RunView.next]
  cases call.phase with
  | action =>
    simp only []
    split <;> exact ⟨rfl, rfl, rfl⟩
  | verification =>
    simp only []
    split <;> exact ⟨rfl, rfl, rfl⟩

/-- A call that the run starts. -/
theorem Under.invoke {v : RunView} {lease : HostedQueueLease} {heard : Heard} {call : ActionCall}
    (h : Under repr workerId leaseSeconds claimed v lease heard) (hsaved : SaveHeard workerId heard claimed.taskId) :
    Under repr workerId leaseSeconds claimed (v.next (.invoke call) ()) lease (heard ++ [⟨.invoke call, ()⟩]) := by
  have hpre : heard <+: heard ++ [⟨.invoke call, ()⟩] := List.prefix_append _ _
  have hview : (v.next (.invoke call) ()).state = v.state ∧ (v.next (.invoke call) ()).loaded = v.loaded := by
    simp only [RunView.next]
    split <;> exact ⟨rfl, rfl⟩
  refine ⟨h.claim.mono hpre, h.one, fun state hstate => ?_, fun state hstate => ?_, fun _ => hsaved.mono hpre, fun earlier hearlier hphase => ?_⟩
  · exact h.task state (hview.1 ▸ hstate)
  · rw [hview.2]
    exact (h.loaded state (hview.1 ▸ hstate)).imp_right fun hs hrunning => (hs hrunning).mono hpre
  · have hmem : earlier ∈ heardCalls heard ∨ earlier = call := by
      unfold heardCalls at hearlier ⊢
      simpa [heardCall] using hearlier
    simp only [RunView.next]
    rcases hmem with hmem | rfl
    · split
      · exact List.mem_cons_of_mem _ (h.called earlier hmem hphase)
      · exact h.called earlier hmem hphase
    · rw [if_pos hphase]
      exact List.mem_cons_self

/-- The state of the lease is loaded. -/
theorem Under.load {v : RunView} {lease : HostedQueueLease} {heard : Heard} (h : Under repr workerId leaseSeconds claimed v lease heard)
    (hone : OneTask claimed) (time : String) (r : Except PyError TaskState × HostedQueueLease)
    (hr : r = if claimed.spec.taskId ≠ lease.taskId then (.error (.valueError "task_state_id_mismatch"), lease)
      else HostedWorker.reply lease (HostedQueue.detachedState repr time lease.state)) :
    Under repr workerId leaseSeconds claimed (v.next .load r.1) r.2 heard := by
  split at hr
  · subst hr
    exact h
  · rename_i htask
    cases hdetached : HostedQueue.detachedState repr time lease.state with
    | error e =>
      rw [hdetached] at hr
      subst hr
      exact h
    | ok state =>
      rw [hdetached] at hr
      subst hr
      have hstate : state.taskId = claimed.taskId := by
        rw [(detachedState_ok hdetached).1, h.one.2, ← not_not.1 htask, hone.1]
      refine ⟨h.claim, h.one, fun found hfound => ?_, fun found hfound => ?_, h.saved, h.called⟩
      · cases hfound
        exact hstate
      · cases hfound
        exact .inl rfl

/-- An event of the run is written, or refused. -/
theorem Under.event {v : RunView} {lease : HostedQueueLease} {heard : Heard} (h : Under repr workerId leaseSeconds claimed v lease heard)
    (e : Event) (p : ClientProg (Except PyError Unit × HostedQueueLease))
    (hp : p = if e.taskId ≠ lease.taskId then return (.error (.valueError "activity_task_id_mismatch"), lease)
      else do return HostedWorker.reply lease (← (HostedWorker.appendEvent repr e.taskId e.eventType e.stepId
        [("message", e.message), ("data", .obj e.data)]).outcome)) :
    p.Follows quiet (fun r heard' => Under repr workerId leaseSeconds claimed (v.next (.event e) r.1) r.2 heard') heard := by
  split at hp
  · subst hp
    exact h
  · subst hp
    refine Prog.Follows.bind (keeps_calls (quiet_outcome (Q := fun _ _ => True) (quiet_append _ _ _ _) fun _ _ => trivial)) ?_
    rintro r heard' ⟨-, hpre, hcalls⟩
    cases r with
    | error e' => exact h.extend hpre hcalls
    | ok u => exact h.extend hpre hcalls

/-- A save of the run. -/
theorem quiet_saveState {lease : HostedQueueLease} {heard : Heard} (state : TaskState) :
    (HostedWorker.saveState repr workerId leaseSeconds lease state).Follows quiet
      (fun lease' heard' => OneTask lease' ∧ state.taskId = lease.taskId ∧
        (state.status = .running → SaveHeard workerId heard' lease.spec.taskId)) heard := by
  refine Prog.Follows.bind (Q := fun _ _ => state.taskId = lease.taskId) (quiet_ok fun _ h => ?_) fun _ heard₀ htask => ?_
  · exact not_not.1 (raiseIf_ok.1 (mapError_ok.1 h))
  refine Prog.Follows.bind (Q := fun _ _ => True) (quiet_now fun _ _ _ => trivial) fun time heard₁ _ => ?_
  exact (quiet_save _ _ _ _ _ _).mono fun lease' heard' h => ⟨h.1, htask, h.2⟩

/-- A command of the run is carried out over the lease. -/
theorem store_follows {v : RunView} {lease : HostedQueueLease} {heard : Heard} (c : RunnerCmd) (hone : OneTask claimed)
    (hrun : (runDiscipline claimed.spec).allowed v c)
    (hcall : (RunCalls.callDiscipline claimed.spec (guardedActions registry)).allowed v c)
    (h : Under repr workerId leaseSeconds claimed v lease heard) :
    (guardedStore repr claimed.spec.taskId workerId leaseSeconds lease c).Follows
      (Prog.listening (MayIssue (WorkerMay repr registry workerId leaseSeconds)))
      (fun r heard' => Under repr workerId leaseSeconds claimed (v.next c r.1) r.2 heard') heard := by
  cases c with
  | lock => exact h
  | «exists» => exact h
  | load =>
    refine relaxed (Prog.Follows.bind (keeps_calls (quiet_now (Q := fun _ _ => True) fun _ _ _ => trivial)) ?_)
    rintro time heard' ⟨-, hpre, hcalls⟩
    exact (h.extend hpre hcalls).load hone time _ rfl
  | save state =>
    obtain ⟨old, hold, hsave⟩ := hrun
    have htask : state.taskId = claimed.taskId := hsave.taskId.trans (h.task old hold)
    refine relaxed (Prog.Follows.bind (keeps_calls (quiet_outcome (Q := fun r heard' => ∀ lease', r = .ok lease' →
      OneTask lease' ∧ state.taskId = lease.taskId ∧ (state.status = .running → SaveHeard workerId heard' lease.spec.taskId))
      ((quiet_saveState state).mono fun lease' heard' hQ found hfound => ?_) fun e heard' lease' he => ?_)) ?_)
    · cases hfound
      exact hQ
    · cases he
    rintro r heard' ⟨hQ, hpre, hcalls⟩
    have h' := h.extend hpre hcalls
    cases r with
    | error e => exact h'
    | ok lease' =>
      obtain ⟨hone', hsame, hsaved⟩ := hQ lease' rfl
      have hleased : lease.spec.taskId = claimed.taskId := h.one.1.trans (hsame.symm.trans htask)
      refine ⟨h'.claim, hone', fun found hfound => ?_, fun found hfound => ?_, h'.saved, h'.called⟩
      · cases hfound
        exact htask
      · cases hfound
        exact .inr fun hrunning => hleased ▸ hsaved hrunning
  | event e =>
    exact relaxed (h.event e _ rfl)
  | invoke call =>
    have hworker := h.workerCall hone hrun hcall
    refine ⟨fun call' hcall' => ?_, fun r _ => h.invoke hworker.saved⟩
    cases hcall'
    exact ⟨claimed, h.claim, hworker⟩
  | await call =>
    refine ⟨fun call' hcall' => (by cases hcall'), fun answer _ => ?_⟩
    have h' : Under repr workerId leaseSeconds claimed v lease (heard ++ [⟨.await call, answer⟩]) :=
      h.extend (List.prefix_append _ _) (by simp [heardCalls, heardCall])
    obtain ⟨hstate, hloaded, hcalled⟩ := next_await v call (Except.bind answer HostedWorker.assertReadOnlyResult)
    exact ⟨h'.claim, h'.one, by rw [hstate]; exact h'.task, by rw [hstate, hloaded]; exact h'.loaded, by rw [hcalled]; exact h'.saved,
      by rw [hcalled]; exact h'.called⟩

end Store

end Hosted

end Keirin

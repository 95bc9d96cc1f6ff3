import Keirin.Lemmas.HostedTalk
import Keirin.Lemmas.RunCalls

/-!
# What the clients call

Every method of the clients but a run of the worker starts no call of an action (`quiet`). A run of the worker starts a call only
under a lease that it claimed, after a running state of the task was saved under the lease.
-/

namespace Keirin

namespace Hosted

open HostedQueue (ok now)

/-- The discipline of a client that starts no call. -/
def quiet : Discipline Heard ClientCmd ClientCmd.Reply := Prog.listening fun _ c => heardCall c = none

/-- A success of a request was heard. -/
def Success (heard : Heard) (mode : String) (fields response : Dict Doc) : Prop :=
  ⟨.request mode fields, .ok (.obj response)⟩ ∈ heard ∧ Dict.getD response "success" .null = .bool true

theorem Success.mono {heard heard' : Heard} {mode : String} {fields response : Dict Doc} (h : Success heard mode fields response)
    (hpre : heard <+: heard') : Success heard' mode fields response := ⟨hpre.subset h.1, h.2⟩

section Quiet

variable {α β : Type} {repr : Doc → String} {heard : Heard} {Q : α → Heard → Prop} {p : ClientProg α}

/-- A client that starts no call hears more, and has started the calls it had. -/
theorem keeps_calls (h : p.Follows quiet Q heard) :
    p.Follows quiet (fun a heard' => Q a heard' ∧ heard <+: heard' ∧ heardCalls heard' = heardCalls heard) heard := by
  induction p generalizing heard with
  | ret a => exact ⟨h, List.prefix_rfl, rfl⟩
  | raise e => trivial
  | cmd c k ih =>
    refine ⟨h.1, fun r hr => (ih r (h.2 r hr)).mono ?_⟩
    rintro a heard' ⟨hQ, hpre, hcalls⟩
    refine ⟨hQ, (List.prefix_append _ _).trans hpre, hcalls.trans ?_⟩
    unfold heardCalls
    exact (List.filterMap_append ..).trans (by simp [show heardCall c = none from h.1])

/-- A client that starts no call keeps to every discipline of calls. -/
theorem relaxed {allowed : Heard → ActionCall → Prop} (h : p.Follows quiet Q heard) :
    p.Follows (Prog.listening (MayIssue allowed)) Q heard := by
  refine Prog.Follows.relax h fun heard' c hc call hcall => ?_
  rw [show heardCall c = none from hc] at hcall
  cases hcall

theorem quiet_ok {x : Except HostedError α} (h : ∀ a, x = .ok a → Q a heard) : (ok x).Follows quiet Q heard := Prog.follows_ofExcept h

theorem quiet_now {Q : String → Heard → Prop} (h : ∀ time heard', heard <+: heard' → Q time heard') : now.Follows quiet Q heard :=
  ⟨rfl, fun _ _ => h _ _ (List.prefix_append _ _)⟩

theorem quiet_outcome {Q : Except HostedError α → Heard → Prop} (h : p.Follows quiet (fun a heard' => Q (.ok a) heard') heard)
    (herror : ∀ e heard', Q (.error e) heard') : (p.outcome : ClientProg (Except HostedError α)).Follows quiet Q heard := by
  induction p generalizing heard with
  | ret a => exact h
  | raise e => exact herror e heard
  | cmd c k ih => exact ⟨h.1, fun r hr => ih r (h.2 r hr)⟩

/-- A request of the queue. -/
theorem quiet_request (mode : String) (fields : Dict Doc) :
    (HostedQueue.request repr mode fields).Follows quiet (fun response heard' => Success heard' mode fields response) heard := by
  refine ⟨rfl, fun reply _ => quiet_ok fun response h => ?_⟩
  cases reply with
  | error e => cases h
  | ok document =>
    cases document with
    | obj found =>
      simp only [HostedQueue.accept] at h
      split at h
      · rename_i hs
        cases h
        exact ⟨List.mem_append_right _ (List.mem_singleton_self _), hs⟩
      · cases h
    | null => cases h
    | bool b => cases h
    | num n => cases h
    | str s => cases h
    | arr xs => cases h

/-- A request of the checkpoints. -/
theorem quiet_checkpoint (mode : String) (fields : Dict Doc) :
    (HostedCheckpoint.request repr mode fields).Follows quiet (fun _ _ => True) heard :=
  ⟨rfl, fun _ _ => quiet_ok fun _ _ => trivial⟩

/-- A method of the client of the ledger. -/
theorem quiet_ledger (p : HostedProg α) : (HostedWorker.ledger p).Follows quiet (fun _ _ => True) heard := by
  refine Prog.Follows.mapError (p := p.handle HostedWorker.sendRequest) ?_ _
  induction p generalizing heard with
  | ret a => trivial
  | raise e => trivial
  | cmd c k ih => exact ⟨rfl, fun r _ => ih r⟩

theorem quiet_append (taskId eventType : String) (stepId : Option String) (payload : Dict Doc) :
    (HostedWorker.appendEvent repr taskId eventType stepId payload).Follows quiet (fun _ _ => True) heard :=
  Prog.Follows.bind (quiet_ledger _) fun _ _ _ => trivial

/-! ## Claims -/

/-- A lease that was claimed, as the worker heard it. -/
def ClaimHeard (repr : Doc → String) (workerId : String) (leaseSeconds : ℤ) (heard : Heard) (lease : HostedQueueLease) : Prop :=
  ∃ response time expected, HostedQueue.claimedLease repr time workerId expected response = .ok (some lease) ∧
    (Success heard "queue_claim" (claimFields workerId leaseSeconds) response ∨
      ∃ spec, Success heard "queue_claim_task" (claimTaskFields spec workerId leaseSeconds) response)

theorem ClaimHeard.mono {heard' : Heard} {workerId : String} {leaseSeconds : ℤ} {lease : HostedQueueLease}
    (h : ClaimHeard repr workerId leaseSeconds heard lease) (hpre : heard <+: heard') :
    ClaimHeard repr workerId leaseSeconds heard' lease := by
  obtain ⟨response, time, expected, hlease, hnext | ⟨spec, hexact⟩⟩ := h
  · exact ⟨response, time, expected, hlease, .inl (hnext.mono hpre)⟩
  · exact ⟨response, time, expected, hlease, .inr ⟨spec, hexact.mono hpre⟩⟩

theorem quiet_claim (workerId : String) (leaseSeconds : ℤ) :
    (HostedQueue.claim repr workerId leaseSeconds).Follows quiet
      (fun claimed heard' => ∀ lease ∈ claimed, ClaimHeard repr workerId leaseSeconds heard' lease) heard := by
  refine Prog.Follows.bind (Q := fun _ _ => True) (quiet_ok fun _ _ => trivial) fun _ heard₀ _ => ?_
  refine Prog.Follows.bind (quiet_request _ _) fun response heard₁ hs => ?_
  refine Prog.Follows.bind (quiet_now fun _ _ hpre => hs.mono hpre) fun time heard₂ hs => ?_
  refine quiet_ok fun claimed hclaimed lease hlease => ?_
  cases hlease
  exact ⟨response, time, none, hclaimed, .inl hs⟩

theorem quiet_claimTask (spec : TaskSpec) (workerId : String) (leaseSeconds : ℤ) :
    (HostedQueue.claimTask repr spec workerId leaseSeconds).Follows quiet
      (fun claimed heard' => ∀ lease ∈ claimed, ClaimHeard repr workerId leaseSeconds heard' lease) heard := by
  refine Prog.Follows.bind (Q := fun _ _ => True) (quiet_ok fun _ _ => trivial) fun spec' heard₀ _ => ?_
  refine Prog.Follows.bind (Q := fun _ _ => True) (quiet_ok fun _ _ => trivial) fun _ heard₁ _ => ?_
  refine Prog.Follows.bind (quiet_request _ _) fun response heard₂ hs => ?_
  refine Prog.Follows.bind (quiet_now fun _ _ hpre => hs.mono hpre) fun time heard₃ hs => ?_
  refine quiet_ok fun claimed hclaimed lease hlease => ?_
  cases hlease
  exact ⟨response, time, some spec', hclaimed, .inr ⟨spec', hs⟩⟩

/-- The claim of a worker. -/
theorem quiet_claimBy {T : Type} (env : Env T) (mode : ClaimMode) (workerId : String) (leaseSeconds : ℤ) :
    (claimBy env mode workerId leaseSeconds).Follows quiet
      (fun claimed heard' => ∀ lease ∈ claimed, ClaimHeard env.repr workerId leaseSeconds heard' lease) heard := by
  cases mode with
  | next => exact quiet_claim workerId leaseSeconds
  | exact spec => exact quiet_claimTask spec workerId leaseSeconds

/-! ## Saves -/

/-- The definition that is written out and read again is the one that was written. -/
theorem detachedSpec_ok {spec spec' : TaskSpec} (h : HostedQueue.detachedSpec repr spec = .ok spec') : spec' = spec := by
  have h := mapError_ok.1 h
  obtain ⟨found, hfound, h⟩ := bind_ok.1 h
  obtain ⟨_, -, h⟩ := bind_ok.1 h
  cases h
  rw [TaskSpec.fromDict_fields] at hfound
  obtain ⟨_, -, hfound⟩ := bind_ok.1 hfound
  cases hfound
  rfl

/-- The state of a task that is written out and read again is of the task, with the status as it is read. -/
theorem detachedState_ok {time : String} {state detached : TaskState} (h : HostedQueue.detachedState repr time state = .ok detached) :
    detached.taskId = state.taskId ∧ detached.status = TaskStatus.ofDoc state.status.toDoc := by
  have h := mapError_ok.1 h
  unfold TaskState.fromDict at h
  obtain ⟨-, h⟩ := raiseIf_bind_ok.1 h
  obtain ⟨_, -, h⟩ := bind_ok.1 h
  obtain ⟨_, -, h⟩ := bind_ok.1 h
  obtain ⟨taskId, htask, h⟩ := bind_ok.1 h
  obtain ⟨_, -, h⟩ := bind_ok.1 h
  obtain ⟨_, -, h⟩ := bind_ok.1 h
  obtain ⟨_, -, h⟩ := bind_ok.1 h
  obtain ⟨_, -, h⟩ := bind_ok.1 h
  cases htask
  cases h
  exact ⟨rfl, rfl⟩

/-- A running state of the task was saved under a lease of the worker. -/
def SaveHeard (workerId : String) (heard : Heard) (taskId : String) : Prop :=
  ∃ spec state expected generation seconds response,
    Success heard "queue_save" (HostedQueue.saveFields spec state expected workerId generation seconds) response ∧
      spec.taskId = taskId ∧ state.status = .running

theorem SaveHeard.mono {heard' : Heard} {workerId taskId : String} (h : SaveHeard workerId heard taskId) (hpre : heard <+: heard') :
    SaveHeard workerId heard' taskId := by
  obtain ⟨spec, state, expected, generation, seconds, response, hs, htask, hrunning⟩ := h
  exact ⟨spec, state, expected, generation, seconds, response, hs.mono hpre, htask, hrunning⟩

/-- The tasks of a lease, of its definition and of its state are one. -/
def OneTask (lease : HostedQueueLease) : Prop := lease.spec.taskId = lease.taskId ∧ lease.state.taskId = lease.taskId

theorem oneTask_parse {now : String} {value : Doc} {expected : Option TaskSpec} {lease : HostedQueueLease}
    (h : HostedQueue.parseLease repr now value expected = .ok lease) : OneTask lease := by
  cases value with
  | obj record => exact (leaseOf_parse h).identity
  | null => cases h
  | bool b => cases h
  | num n => cases h
  | str s => cases h
  | arr xs => cases h

/-- A save under a lease: the lease after it is of one task, and a running state was saved. -/
theorem quiet_save (spec : TaskSpec) (state : TaskState) (expected : ℤ) (workerId : String) (generation seconds : ℤ) :
    (HostedQueue.save repr spec state expected workerId generation seconds).Follows quiet
      (fun lease heard' => OneTask lease ∧ (state.status = .running → SaveHeard workerId heard' spec.taskId)) heard := by
  refine Prog.Follows.bind (Q := fun spec' _ => spec' = spec) (quiet_ok fun _ h => detachedSpec_ok h) ?_
  rintro spec' heard₀ rfl
  refine Prog.Follows.bind (Q := fun _ _ => True) (quiet_now fun _ _ _ => trivial) fun time heard₁ _ => ?_
  refine Prog.Follows.bind (Q := fun state' _ => state.status = .running → state'.status = .running) (quiet_ok fun state' h => ?_)
    fun state' heard₂ hstate => ?_
  · unfold HostedQueue.cleanState at h
    obtain ⟨detached, hdetached, h⟩ := bind_ok.1 h
    obtain ⟨_, -, h⟩ := bind_ok.1 h
    obtain ⟨-, h⟩ := refuseIf_bind_ok.1 h
    obtain ⟨-, h⟩ := refuseIf_bind_ok.1 h
    obtain ⟨_, -, h⟩ := bind_ok.1 h
    cases h
    intro hrunning
    rw [(detachedState_ok hdetached).2, hrunning]
    rfl
  refine Prog.Follows.bind (Q := fun _ _ => True) (quiet_ok fun _ _ => trivial) fun _ heard₃ _ => ?_
  refine Prog.Follows.bind (quiet_request _ _) fun response heard₄ hs => ?_
  refine Prog.Follows.bind (quiet_now fun _ _ hpre => hs.mono hpre) fun time heard₅ hs => ?_
  refine quiet_ok fun lease hlease => ⟨?_, fun hrunning => ⟨spec', state', expected, generation, seconds, response, hs, rfl, hstate hrunning⟩⟩
  unfold HostedQueue.savedLease at hlease
  obtain ⟨record, hrecord, hlease⟩ := bind_ok.1 hlease
  obtain ⟨_, -, hlease⟩ := bind_ok.1 hlease
  split at hlease
  · obtain ⟨_, -, hlease⟩ := bind_ok.1 hlease
    cases hlease
    exact oneTask_parse hrecord
  · obtain ⟨_, -, hlease⟩ := bind_ok.1 hlease
    cases hlease
    exact oneTask_parse hrecord

end Quiet

end Hosted

end Keirin

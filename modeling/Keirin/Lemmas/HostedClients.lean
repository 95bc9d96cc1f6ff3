import Keirin.Lemmas.HostedStore

/-!
# The clients keep to their discipline

One lemma for each client. Only a run of a worker that is authorised starts calls, and it starts them as `WorkerMay` says.
-/

namespace Keirin

namespace Hosted

open HostedQueue (ok now)
open HostedWorker (ToolRegistry guardedActions)

section Worker

variable {repr : Doc → String} {registry : ToolRegistry} {workerId : String} {leaseSeconds : ℤ} {lease : HostedQueueLease} {heard : Heard}

/-- A lease that was claimed was parsed from the response. -/
theorem claimedLease_ok {time : String} {expected : Option TaskSpec} {response : Dict Doc}
    (h : HostedQueue.claimedLease repr time workerId expected response = .ok (some lease)) :
    Dict.getD response "claimed" .null = .bool true ∧
      HostedQueue.parseLease repr time (Dict.getD response "lease" .null) expected = .ok lease := by
  simp only [HostedQueue.claimedLease] at h
  split at h
  · cases h
  obtain ⟨hclaimed, h⟩ := refuseIf_bind_ok.1 h
  obtain ⟨record, hrecord, h⟩ := bind_ok.1 h
  obtain ⟨-, h⟩ := refuseIf_bind_ok.1 h
  obtain ⟨-, h⟩ := refuseIf_bind_ok.1 h
  obtain ⟨-, h⟩ := refuseIf_bind_ok.1 h
  cases h
  exact ⟨not_not.1 hclaimed, hrecord⟩

theorem ClaimHeard.oneTask (h : ClaimHeard repr workerId leaseSeconds heard lease) : OneTask lease := by
  obtain ⟨response, time, expected, hlease, -⟩ := h
  exact oneTask_parse (claimedLease_ok hlease).2

/-- Giving a task back. -/
theorem quiet_releaseBlocked (failure reason : String) :
    (HostedWorker.releaseBlocked repr failure workerId leaseSeconds reason lease).Follows quiet (fun _ _ => True) heard := by
  refine Prog.Follows.bind (Q := fun _ _ => True) (quiet_now fun _ _ _ => trivial) fun _ _ _ => ?_
  refine Prog.Follows.bind (Q := fun _ _ => True) (quiet_now fun _ _ _ => trivial) fun _ _ _ => ?_
  refine Prog.Follows.bind (Q := fun _ _ => True) (quiet_ok fun _ _ => trivial) fun _ _ _ => ?_
  refine Prog.Follows.bind (quiet_save _ _ _ _ _ _) fun _ _ _ => ?_
  exact Prog.Follows.bind (Q := fun _ _ => True) (quiet_ok fun _ _ => trivial) fun _ _ _ => trivial

theorem quiet_giveBack (reason : String) :
    (HostedWorker.giveBack repr workerId leaseSeconds reason lease).Follows quiet (fun _ _ => True) heard := by
  refine Prog.Follows.bind (quiet_releaseBlocked _ _) fun _ _ _ => ?_
  exact Prog.Follows.bind (quiet_append _ _ _ _) fun _ _ _ => trivial

/-- A run of a worker under the lease it claimed. -/
theorem runClaimed_follows (hclaim : ClaimHeard repr workerId leaseSeconds heard lease) (hnone : heardCalls heard = []) :
    (HostedWorker.runClaimed repr registry workerId leaseSeconds lease).Follows
      (Prog.listening (MayIssue (WorkerMay repr registry workerId leaseSeconds))) (fun _ _ => True) heard := by
  refine Prog.Follows.bind (relaxed (keeps_calls (quiet_append _ _ _ _))) ?_
  rintro _ heard₁ ⟨-, hpre, hcalls⟩
  refine Prog.Follows.bind (Q := fun _ heard' => heard' = heard₁) (relaxed (quiet_ok fun _ _ => rfl)) ?_
  rintro ⟨missing, nonRead⟩ _ rfl
  dsimp only
  split
  · exact relaxed (quiet_giveBack _)
  split
  · exact relaxed (quiet_giveBack _)
  have hone := hclaim.oneTask
  have hrun := (run_follows repr lease.spec (guardedActions registry) []).and
    (RunCalls.run_follows repr lease.spec (guardedActions registry) [])
  have hrun := Prog.Follows.mapError hrun HostedError.builtin
  refine Prog.Follows.bind (Prog.Follows.serve (J := Under repr workerId leaseSeconds lease)
    (fun v lease' heard' c hc h => ?_) hrun ?_) fun _ _ _ => trivial
  · exact (store_follows c hone hc.1 hc.2 h).mono fun r _ h => ⟨trivial, h⟩
  refine ⟨hclaim.mono hpre, hone, fun state h => ?_, fun state h => ?_, fun h => ?_, fun call h => ?_⟩
  · cases h
  · cases h
  · exact absurd rfl h
  · rw [hcalls, hnone] at h
    cases h

/-- A run of a worker. -/
theorem runNext_follows {T : Type} (env : Env T) (mode : ClaimMode) :
    (HostedWorker.runNext env.repr true (claimBy env mode workerId leaseSeconds) registry workerId leaseSeconds).Follows
      (Prog.listening (MayIssue (WorkerMay env.repr registry workerId leaseSeconds))) (fun _ _ => True) [] := by
  unfold HostedWorker.runNext
  refine Prog.Follows.bind (relaxed (keeps_calls (quiet_claimBy env mode workerId leaseSeconds))) ?_
  rintro claimed heard' ⟨hclaim, -, hcalls⟩
  cases claimed with
  | none => trivial
  | some lease => exact runClaimed_follows (hclaim lease rfl) hcalls

/-- The coordinator. -/
theorem quiet_inspectNext (allowed : List HostedWorker.AccessMode) :
    (HostedWorker.inspectNext repr registry allowed workerId leaseSeconds).Follows quiet (fun _ _ => True) heard := by
  refine Prog.Follows.bind (quiet_claim workerId leaseSeconds) fun claimed heard₁ _ => ?_
  cases claimed with
  | none => trivial
  | some lease =>
    refine Prog.Follows.bind (quiet_append _ _ _ _) fun _ _ _ => ?_
    refine Prog.Follows.bind (Q := fun _ _ => True) (quiet_ok fun _ _ => trivial) ?_
    rintro ⟨missing, forbidden⟩ heard₂ -
    refine Prog.Follows.bind (quiet_releaseBlocked _ _) fun _ _ _ => ?_
    exact Prog.Follows.bind (quiet_append _ _ _ _) fun _ _ _ => trivial

end Worker

section Inspector

variable {repr : Doc → String} {heard : Heard} {spec : TaskSpec} {lease : HostedQueueLease}

/-- A row that was read, as the inspector heard it. -/
def ReadHeard (repr : Doc → String) (heard : Heard) (taskId : String) (lease : HostedQueueLease) : Prop :=
  ∃ response time expected, Success heard "checkpoint_get" [("task_id", .str taskId)] response ∧
    HostedQueue.parseLease repr time (Dict.getD response "checkpoint" .null) expected = .ok lease

theorem ReadHeard.mono {heard' : Heard} {taskId : String} (h : ReadHeard repr heard taskId lease) (hpre : heard <+: heard') :
    ReadHeard repr heard' taskId lease := by
  obtain ⟨response, time, expected, hs, hlease⟩ := h
  exact ⟨response, time, expected, hs.mono hpre, hlease⟩

theorem quiet_inspect :
    (HostedQueue.inspect repr spec).Follows quiet (fun lease heard' => ReadHeard repr heard' spec.taskId lease) heard := by
  refine Prog.Follows.bind (Q := fun spec' _ => spec' = spec) (quiet_ok fun _ h => detachedSpec_ok h) ?_
  rintro spec' heard₀ rfl
  refine Prog.Follows.bind (quiet_request _ _) fun response heard₁ hs => ?_
  refine Prog.Follows.bind (quiet_now fun _ _ hpre => hs.mono hpre) fun time heard₂ hs => ?_
  exact quiet_ok fun lease hlease => ⟨response, time, some spec', hs, hlease⟩

/-- A report on a lease: what is unstarted is queued and was never claimed, and only that may be executed. -/
structure Reports (lease : HostedQueueLease) (report : HostedRecoveryReport) : Prop where
  taskId : report.taskId = lease.taskId
  allowed : report.reexecutionAllowed = true → report.classification = "queued_unstarted"
  unstarted : report.classification = "queued_unstarted" → lease.status = "queued" ∧ lease.attemptCount = 0

theorem reports_classify {evidence : HostedInspector.Evidence} {leaseExpired verified : Option Bool} {verdict : HostedInspector.Verdict}
    (h : HostedInspector.classify lease evidence leaseExpired verified = .ok verdict) :
    Reports lease (HostedInspector.reportOf lease evidence leaseExpired verified verdict) := by
  unfold HostedInspector.classify at h
  split at h
  · rename_i hqueued
    cases h
    refine ⟨rfl, fun hallowed => ?_, fun hclass => ⟨hqueued, ?_⟩⟩
    · have hzero : lease.attemptCount = 0 := by
        simp only [HostedInspector.reportOf, Bool.and_eq_true, decide_eq_true_eq] at hallowed
        exact hallowed.1.1
      simp only [HostedInspector.reportOf, if_pos hzero]
    · by_contra hpos
      simp only [HostedInspector.reportOf, if_neg hpos] at hclass
      exact absurd hclass (by decide)
  have hother {v : HostedInspector.Verdict} (hfalse : v.reexecutionAllowed = false) (hclass : v.classification ≠ "queued_unstarted") :
      Reports lease (HostedInspector.reportOf lease evidence leaseExpired verified v) := by
    refine ⟨rfl, fun hallowed => ?_, fun h => absurd h hclass⟩
    rw [show v.reexecutionAllowed = true from hallowed] at hfalse
    cases hfalse
  split at h
  · split at h
    · cases h
      exact hother rfl (by decide)
    · cases h
      refine hother rfl ?_
      simp only [HostedInspector.expiredClass]
      split
      · decide
      split
      · decide
      split <;> decide
  split at h
  · cases h
    refine hother rfl ?_
    simp only [HostedInspector.completedClass]
    split
    · decide
    split <;> decide
  split at h
  · cases h
    exact hother rfl (by decide)
  split at h
  · cases h
    exact hother rfl (by decide)
  · cases h

theorem quiet_reportOn (events : List HostedActivityEvent) :
    (HostedInspector.reportOn lease events).Follows quiet (fun report _ => Reports lease report) heard := by
  refine Prog.Follows.bind (Q := fun _ _ => True) (quiet_ok fun _ _ => trivial) fun evidence _ _ => ?_
  refine Prog.Follows.bind (Q := fun _ _ => True) ?_ fun leaseExpired _ _ => ?_
  · unfold HostedInspector.leaseExpiry
    split
    · trivial
    split
    · trivial
    · refine ⟨rfl, fun time _ => ?_⟩
      cases time with
      | none => trivial
      | some time =>
        dsimp only
        generalize HostedInspector.parseTimestamp _ = parsed
        cases parsed <;> trivial
  · refine Prog.Follows.bind (Q := fun verdict _ => Reports lease (HostedInspector.reportOf lease evidence leaseExpired _ verdict))
      (quiet_ok fun verdict h => reports_classify h) fun verdict _ h => h

/-- A reading of the inspector. -/
theorem quiet_inspectSnapshot (fuel : ℕ) :
    (HostedInspector.inspectSnapshot repr fuel spec).Follows quiet
      (fun r heard' => ∀ lease report, r = some (lease, report) → ReadHeard repr heard' spec.taskId lease ∧ Reports lease report) heard := by
  refine Prog.Follows.bind (Q := fun spec' _ => spec' = spec) (quiet_ok fun _ h => detachedSpec_ok h) ?_
  rintro spec' heard₀ rfl
  refine Prog.Follows.bind (Prog.Follows.mapError quiet_inspect _) fun lease heard₁ hread => ?_
  refine Prog.Follows.bind (keeps_calls (quiet_ledger _)) ?_
  rintro events heard₂ ⟨-, hpre, -⟩
  cases events with
  | none =>
    intro lease report h
    cases h
  | some events =>
    refine Prog.Follows.bind (keeps_calls (quiet_reportOn events)) ?_
    rintro report heard₃ ⟨hreport, hpre', -⟩
    intro lease' report' h
    cases h
    exact ⟨(hread.mono hpre).mono hpre', hreport⟩

/-- A report of the inspector. -/
theorem quiet_report (fuel : ℕ) :
    (HostedInspector.inspect repr fuel spec).Follows quiet
      (fun r heard' => ∀ report, r = some report → ∃ lease, ReadHeard repr heard' spec.taskId lease ∧ Reports lease report) heard := by
  refine Prog.Follows.bind (quiet_inspectSnapshot fuel) fun r heard' h report hreport => ?_
  obtain ⟨⟨lease, found⟩, hr, rfl⟩ := Option.map_eq_some_iff.1 hreport
  exact ⟨lease, h lease found hr⟩

/-- A proposal to execute is made for a report that says the task is unstarted. -/
theorem otherProposal_eligible {report : HostedRecoveryReport}
    (h : (HostedInspector.otherProposal lease report).proposedAction = "eligible_for_first_execution") :
    report.classification = "queued_unstarted" ∧ (HostedInspector.otherProposal lease report).taskId = report.taskId := by
  unfold HostedInspector.otherProposal at h ⊢
  split at h
  · rename_i hclass
    rw [if_pos hclass]
    exact ⟨hclass, rfl⟩
  split at h
  · exact absurd h (by simp only [HostedInspector.proposal]; decide)
  split at h
  · exact absurd h (by simp only [HostedInspector.proposal]; decide)
  split at h
  · exact absurd h (by simp only [HostedInspector.proposal]; decide)
  · exact absurd h (by simp only [HostedInspector.proposal]; decide)

/-- A proposal of the inspector. -/
theorem quiet_propose (fuel : ℕ) :
    (HostedInspector.propose repr fuel spec).Follows quiet
      (fun r heard' => ∀ proposal, r = some proposal → proposal.proposedAction = "eligible_for_first_execution" →
        ∃ lease report, ReadHeard repr heard' spec.taskId lease ∧ Reports lease report ∧ report.classification = "queued_unstarted" ∧
          proposal.taskId = report.taskId) heard := by
  refine Prog.Follows.bind (quiet_inspectSnapshot fuel) fun first heard₀ _ => ?_
  cases first with
  | none =>
    intro proposal h
    cases h
  | some first =>
    refine Prog.Follows.bind (quiet_inspectSnapshot fuel) fun second heard₁ hsecond => ?_
    cases second with
    | none =>
      intro proposal h
      cases h
    | some second =>
      obtain ⟨hread, hreport⟩ := hsecond second.1 second.2 rfl
      refine Prog.Follows.bind (Q := fun _ heard' => heard₁ <+: heard') (quiet_ok fun _ _ => List.prefix_rfl) fun _ heard₂ hpre => ?_
      refine Prog.Follows.bind (Q := fun p heard' => heard₂ <+: heard' ∧ (p.proposedAction = "eligible_for_first_execution" →
        second.2.classification = "queued_unstarted" ∧ p.taskId = second.2.taskId)) ?_ ?_
      · unfold HostedInspector.proposalOf
        split
        · refine Prog.Follows.bind (keeps_calls (quiet_now (Q := fun _ _ => True) fun _ _ _ => trivial)) ?_
          rintro _ heard₃ ⟨-, hpre₃, -⟩
          refine Prog.Follows.bind (keeps_calls (quiet_now (Q := fun _ _ => True) fun _ _ _ => trivial)) ?_
          rintro _ heard₄ ⟨-, hpre₄, -⟩
          refine Prog.Follows.bind (Q := fun _ heard' => heard₂ <+: heard') (quiet_ok fun _ _ => hpre₃.trans hpre₄) ?_
          intro blocked heard₅ hpre₅
          refine ⟨hpre₅, fun h => ?_⟩
          simp only [HostedInspector.proposal] at h
          exact absurd h (by decide)
        · exact ⟨List.prefix_rfl, otherProposal_eligible⟩
      · rintro p heard₃ ⟨hpre', hp⟩ found hfound heligible
        cases hfound
        exact ⟨second.1, second.2, (hread.mono hpre).mono hpre', hreport, hp heligible⟩

end Inspector

section Enqueuer

variable {repr : Doc → String} {template : Dict Doc} {heard : Heard}

theorem quiet_get (spec : TaskSpec) : (HostedCheckpoint.get repr spec).Follows quiet (fun _ _ => True) heard := by
  refine Prog.Follows.bind (Q := fun _ _ => True) (quiet_ok fun _ _ => trivial) fun _ _ _ => ?_
  refine Prog.Follows.bind (quiet_checkpoint _ _) fun _ _ _ => ?_
  refine Prog.Follows.bind (Q := fun _ _ => True) (quiet_now fun _ _ _ => trivial) fun _ _ _ => ?_
  exact quiet_ok fun _ _ => trivial

theorem quiet_create (spec : TaskSpec) (key : String) :
    (HostedCheckpoint.create repr spec key).Follows quiet (fun _ _ => True) heard := by
  refine Prog.Follows.bind (Q := fun _ _ => True) (quiet_ok fun _ _ => trivial) fun _ _ _ => ?_
  refine Prog.Follows.bind (Q := fun _ _ => True) (quiet_now fun _ _ _ => trivial) fun _ _ _ => ?_
  refine Prog.Follows.bind (Q := fun _ _ => True) (quiet_now fun _ _ _ => trivial) fun _ _ _ => ?_
  refine Prog.Follows.bind (Q := fun _ _ => True) (quiet_ok fun _ _ => trivial) fun _ _ _ => ?_
  -- Which key is sent does not matter, and as a call the check of it would be evaluated here.
  generalize strip _ = stripped
  refine Prog.Follows.bind (Q := fun _ _ => True) (quiet_ok fun _ _ => trivial) fun _ _ _ => ?_
  refine Prog.Follows.bind (quiet_checkpoint _ _) fun _ _ _ => ?_
  refine Prog.Follows.bind (Q := fun _ _ => True) (quiet_now fun _ _ _ => trivial) fun _ _ _ => ?_
  exact quiet_ok fun _ _ => trivial

theorem quiet_resultOf (spec : TaskSpec) (created : Bool) (record : HostedCheckpointRecord) :
    (TrustedRun.resultOf spec created record).Follows quiet (fun _ _ => True) heard :=
  Prog.Follows.bind (Q := fun _ _ => True) (quiet_ok fun _ _ => trivial) fun _ _ _ => trivial

theorem quiet_afterConflict (spec : TaskSpec) : (TrustedRun.afterConflict repr spec).Follows quiet (fun _ _ => True) heard := by
  refine Prog.Follows.bind (quiet_outcome (Q := fun _ _ => True) (quiet_get spec) fun _ _ => trivial) fun found _ _ => ?_
  split
  · exact quiet_resultOf _ _ _
  · trivial
  · trivial

theorem quiet_createNew (spec : TaskSpec) : (TrustedRun.createNew repr spec).Follows quiet (fun _ _ => True) heard := by
  refine Prog.Follows.bind (quiet_outcome (Q := fun _ _ => True) (quiet_create spec _) fun _ _ => trivial) fun created _ _ => ?_
  split
  · exact quiet_resultOf _ _ _
  · exact quiet_afterConflict spec
  · trivial

theorem quiet_ensureQueued (spec : TaskSpec) :
    (TrustedRun.ensureQueued repr template spec).Follows quiet (fun _ _ => True) heard := by
  refine Prog.Follows.bind (Q := fun _ _ => True) (quiet_ok fun _ _ => trivial) fun spec _ _ => ?_
  refine Prog.Follows.bind (Q := fun _ _ => True) (quiet_ok fun _ _ => trivial) fun _ _ _ => ?_
  refine Prog.Follows.bind (quiet_outcome (Q := fun _ _ => True) (quiet_get spec) fun _ _ => trivial) fun found _ _ => ?_
  split
  · exact quiet_resultOf _ _ _
  · exact quiet_createNew spec
  · trivial

end Enqueuer

/-! ## The programs of the clients -/

section Programs

variable {T : Type} (env : Env T)

/-- The calls a client may start. -/
def ClientMay (client : ClientCall) (heard : Heard) (call : ActionCall) : Prop :=
  ∃ mode registry workerId leaseSeconds, client = .runNext true mode registry workerId leaseSeconds ∧
    WorkerMay env.repr registry workerId leaseSeconds heard call

/-- What the value of a client says, by what the client heard. -/
def Returns : ClientResult → Heard → Prop
  | .reported (some report), heard =>
    ∃ taskId lease, ReadHeard env.repr heard taskId lease ∧ Reports lease report
  | .proposed (some proposal), heard => proposal.proposedAction = "eligible_for_first_execution" →
    ∃ taskId lease report, ReadHeard env.repr heard taskId lease ∧ Reports lease report ∧ report.classification = "queued_unstarted" ∧
      proposal.taskId = report.taskId
  | _, _ => True

/-- Every client keeps to its discipline. -/
theorem program_follows (client : ClientCall) :
    (program env client).Follows (Prog.listening (MayServe env.iso env.httpStatus (ClientMay env client)))
      (fun r told => ∃ heard, Returns env r heard ∧ Relayed env.iso env.httpStatus heard told) [] := by
  have hquiet {α : Type} {p : ClientProg α} {Q : α → Heard → Prop} (h : p.Follows quiet Q []) :
      (onNetwork env p).Follows (Prog.listening (MayServe env.iso env.httpStatus (ClientMay env client)))
        (fun a told => ∃ heard, Q a heard ∧ Relayed env.iso env.httpStatus heard told) [] := onNetwork_follows env (relaxed h)
  cases client with
  | http exactMode body =>
    refine Prog.Follows.bind (statement_follows (edge env.iso env.httpStatus exactMode body) []) ?_
    rintro reply told ⟨hpre, hcalls, -⟩
    exact ⟨[], trivial, relayed_nil.extend hpre hcalls⟩
  | inspectNext registry allowed workerId leaseSeconds =>
    refine Prog.Follows.bind (hquiet (quiet_inspectNext allowed)) ?_
    rintro decision told ⟨heard, -, h⟩
    exact ⟨heard, trivial, h⟩
  | runNext executionAuthorized mode registry workerId leaseSeconds =>
    cases executionAuthorized with
    | false => trivial
    | true =>
      refine Prog.Follows.bind (onNetwork_follows env (Prog.Follows.relax (runNext_follows env mode) ?_)) ?_
      · intro heard c hc call hcall
        exact ⟨mode, registry, workerId, leaseSeconds, rfl, hc call hcall⟩
      · rintro result told ⟨heard, -, h⟩
        exact ⟨heard, trivial, h⟩
  | ensureQueued spec =>
    refine Prog.Follows.bind (hquiet (quiet_ensureQueued spec)) ?_
    rintro result told ⟨heard, -, h⟩
    exact ⟨heard, trivial, h⟩
  | inspect fuel spec =>
    refine Prog.Follows.bind (hquiet (quiet_report fuel)) ?_
    rintro report told ⟨heard, hreport, h⟩
    refine ⟨heard, ?_, h⟩
    cases report with
    | none => trivial
    | some report =>
      obtain ⟨lease, hread, hreports⟩ := hreport report rfl
      exact ⟨spec.taskId, lease, hread, hreports⟩
  | propose fuel spec =>
    refine Prog.Follows.bind (hquiet (quiet_propose fuel)) ?_
    rintro proposal told ⟨heard, hproposal, h⟩
    refine ⟨heard, ?_, h⟩
    cases proposal with
    | none => trivial
    | some proposal =>
      intro heligible
      obtain ⟨lease, report, hread, hreports, hclass, htask⟩ := hproposal proposal rfl heligible
      exact ⟨spec.taskId, lease, report, hread, hreports, hclass, htask⟩

end Programs

end Hosted

end Keirin

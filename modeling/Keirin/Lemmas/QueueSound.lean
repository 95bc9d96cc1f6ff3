import Keirin.Lemmas.QueueInv

/-!
# The tables the functions leave

Every row of the tables passed the trigger and stands alone under the unique indexes (`Sound`); all calls keep this. So a claim
that finds a task that is due is never turned down by the trigger or an index.
-/

namespace Keirin.Queue

/-- What the trigger demands of the definition and the state of a row. -/
structure Guarded (row : Row) : Prop where
  stateTask : row.state.getText "task_id" = some row.taskId
  specTask : row.spec.getText "task_id" = some row.taskId
  stateSchema : row.state.getText "schema_version" = some "agent-task-state-v1"
  specSchema : row.spec.getText "schema_version" = some "agent-task-v1"
  fingerprint : row.state.getText "spec_fingerprint" = some row.specFingerprint

/-- A run of the trusted kind that has not ended. -/
def ActiveTrusted (row : Row) : Prop := isTrustedRun row.taskId = true ∧ (row.status = .queued ∨ row.status = .running)

/-- The rows passed the trigger and stand alone under the unique indexes. -/
structure Sound (db : Db) : Prop where
  guarded : ∀ row ∈ db.tasks, Guarded row
  keys : ∀ a ∈ db.tasks, ∀ b ∈ db.tasks, a.userId = b.userId → a.idempotencyKey = b.idempotencyKey → a = b
  single : ∀ a ∈ db.tasks, ∀ b ∈ db.tasks, a.userId = b.userId → ActiveTrusted a → ActiveTrusted b → a = b

theorem sound_empty : Sound .empty := ⟨by simp [Db.empty], by simp [Db.empty], by simp [Db.empty]⟩

theorem Sound.event {db : Db} (h : Sound db) (e : TaskEvent) : Sound (db.event e) := ⟨h.guarded, h.keys, h.single⟩

/-! ## Writes -/

/-- A row that is checked against the trigger. -/
theorem guarded_of_guard {old : Option Row} {new draft : Draft} {clock : Clock} {row : Row}
    (h : agentCheckpointGuard old new clock = .ok draft) (hrow : row.draft = draft) : Guarded row := by
  have hchecks : new.state.bind (fun s => s.getText "task_id") = new.taskId ∧ new.spec.bind (fun s => s.getText "task_id") = new.taskId ∧
      new.state.bind (fun s => s.getText "schema_version") = some "agent-task-state-v1" ∧
      new.spec.bind (fun s => s.getText "schema_version") = some "agent-task-v1" ∧
      new.state.bind (fun s => s.getText "spec_fingerprint") = new.specFingerprint := by
    have hfirst := (raiseIf_bind_ok.1 h).1
    simp only [not_or, ne_eq, not_not] at hfirst
    exact ⟨hfirst.1, hfirst.2.1, hfirst.2.2.1, hfirst.2.2.2.1, hfirst.2.2.2.2.1⟩
  have hsame : draft.state = new.state ∧ draft.spec = new.spec ∧ draft.taskId = new.taskId ∧ draft.specFingerprint = new.specFingerprint := by
    have hrest := (raiseIf_bind_ok.1 h).2
    cases old with
    | none =>
      obtain ⟨-, hrest⟩ := raiseIf_bind_ok.1 hrest
      cases hrest
      exact ⟨rfl, rfl, rfl, rfl⟩
    | some old =>
      obtain ⟨-, hrest⟩ := raiseIf_bind_ok.1 hrest
      obtain ⟨-, hrest⟩ := raiseIf_bind_ok.1 hrest
      obtain ⟨-, hrest⟩ := raiseIf_bind_ok.1 hrest
      cases hrest
      exact ⟨rfl, rfl, rfl, rfl⟩
  obtain ⟨hstate, hspec, htask, hfp⟩ := hsame
  rw [← hstate, ← hspec, ← htask, ← hfp, ← hrow] at hchecks
  exact ⟨hchecks.1, hchecks.2.1, hchecks.2.2.1, hchecks.2.2.2.1, hchecks.2.2.2.2⟩

/-- A row that passed the unique indexes shares no key with another one. -/
theorem unique_of_check {others : List Row} {row : Row} {u : Unit} (h : Db.checkUnique others row = .ok u) :
    (∀ r ∈ others, r.userId = row.userId → r.idempotencyKey ≠ row.idempotencyKey) ∧
      (ActiveTrusted row → ∀ r ∈ others, ActiveTrusted r → r.userId ≠ row.userId) := by
  obtain ⟨hkeys, h⟩ := raiseIf_bind_ok.1 h
  have hsingle := raiseIf_ok.1 h
  refine ⟨fun r hr hu hk => hkeys ⟨r, hr, hu, hk⟩, fun ha r hr hra hu => hsingle ⟨ha, r, hr, hra, hu⟩⟩

theorem check_of_unique {others : List Row} {row : Row}
    (hkeys : ∀ r ∈ others, r.userId = row.userId → r.idempotencyKey ≠ row.idempotencyKey)
    (hsingle : ActiveTrusted row → ∀ r ∈ others, ActiveTrusted r → r.userId ≠ row.userId) : Db.checkUnique others row = .ok () := by
  refine raiseIf_bind_ok.2 ⟨fun ⟨r, hr, hu, hk⟩ => hkeys r hr hu hk, raiseIf_ok.2 fun ⟨ha, r, hr, hra, hu⟩ => ?_⟩
  exact hsingle ha r hr hra hu

/-- A row among others it shares nothing with. -/
theorem Sound.join {db db' : Db} {row : Row} (h : Sound db) (hg : Guarded row)
    (hmem : ∀ r ∈ db'.tasks, r = row ∨ (r ∈ db.tasks ∧ r.key ≠ row.key))
    (hkeys : ∀ r ∈ db.tasks, r.key ≠ row.key → r.userId = row.userId → r.idempotencyKey ≠ row.idempotencyKey)
    (hsingle : ActiveTrusted row → ∀ r ∈ db.tasks, r.key ≠ row.key → ActiveTrusted r → r.userId ≠ row.userId) : Sound db' where
  guarded r hr := by
    rcases hmem r hr with rfl | ⟨hr, -⟩
    · exact hg
    · exact h.guarded r hr
  keys a ha b hb hu hk := by
    rcases hmem a ha with rfl | ⟨ha, hna⟩ <;> rcases hmem b hb with rfl | ⟨hb, hnb⟩
    · rfl
    · exact absurd hk.symm (hkeys b hb hnb hu.symm)
    · exact absurd hk (hkeys a ha hna hu)
    · exact h.keys a ha b hb hu hk
  single a ha b hb hu haa hab := by
    rcases hmem a ha with rfl | ⟨ha, hna⟩ <;> rcases hmem b hb with rfl | ⟨hb, hnb⟩
    · rfl
    · exact absurd hu.symm (hsingle haa b hb hnb hab)
    · exact absurd hu (hsingle hab a ha hna haa)
    · exact h.single a ha b hb hu haa hab

theorem update_sound {db db' : Db} {caller : Caller} {clock : Clock} {cond : Row → Bool} {set : Row → Except PgError Draft}
    {r : Option Row} (h : db.update caller clock cond set = .ok (r, db')) (hs : Sound db) : Sound db' := by
  unfold Db.update at h
  split at h
  · obtain ⟨-, rfl⟩ := Prod.mk.inj (Except.ok.inj h)
    exact hs
  · rename_i old hold
    obtain ⟨new, -, h⟩ := bind_ok.1 h
    obtain ⟨draft, hguard, h⟩ := bind_ok.1 h
    obtain ⟨-, h⟩ := raiseIf_bind_ok.1 h
    obtain ⟨row, hrow, h⟩ := bind_ok.1 h
    obtain ⟨u, hunique, h⟩ := bind_ok.1 h
    obtain ⟨rfl, rfl⟩ := Prod.mk.inj (Except.ok.inj h)
    have hcol := fun {α : Type} (f : Draft → α) => congrArg f (Draft.check_ok hrow)
    have hkey : row.key = old.key := by
      obtain ⟨hdraft, huser, htask, -⟩ := guard_update_ok hguard
      rw [hdraft] at hcol
      exact Prod.ext ((hcol Draft.userId).trans huser) (Option.some.inj ((hcol Draft.taskId).trans htask))
    obtain ⟨hkeys, hsingle⟩ := unique_of_check hunique
    have hother : ∀ r ∈ db.tasks, r.key ≠ row.key → r ∈ db.tasks.filter (fun r => r.key ≠ old.key) := fun r hr hne =>
      List.mem_filter.2 ⟨hr, by simpa [← hkey] using hne⟩
    refine hs.join (guarded_of_guard hguard (Draft.check_ok hrow)) (fun r hr => ?_) (fun r hr hne => hkeys r (hother r hr hne))
      fun ha r hr hne => hsingle ha r (hother r hr hne)
    exact (Db.mem_put hr).imp And.left id

theorem insert_sound {db db' : Db} {caller : Caller} {clock : Clock} {new : Draft} {row : Row}
    (h : db.insert caller clock new = .ok (row, db')) (hs : Sound db) : Sound db' := by
  unfold Db.insert at h
  obtain ⟨draft, hguard, h⟩ := bind_ok.1 h
  obtain ⟨-, h⟩ := raiseIf_bind_ok.1 h
  obtain ⟨row', hrow, h⟩ := bind_ok.1 h
  split at h
  · cases h
  · rename_i hfresh
    obtain ⟨u, hunique, h⟩ := bind_ok.1 h
    obtain ⟨rfl, rfl⟩ := Prod.mk.inj (Except.ok.inj h)
    obtain ⟨hkeys, hsingle⟩ := unique_of_check hunique
    refine hs.join (guarded_of_guard hguard (Draft.check_ok hrow)) (fun r hr => ?_) (fun r hr _ => hkeys r hr)
      fun ha r hr _ => hsingle ha r hr
    rcases List.mem_append.1 hr with hr | hr
    · exact .inr ⟨hr, fun hk => hfresh (hk ▸ List.mem_map_of_mem hr)⟩
    · exact .inl (List.mem_singleton.1 hr)

/-! ## Calls -/

section Calls

variable {caller : Caller} {clock : Clock} {db db' : Db} {row : Row} {r : Option Row}

theorem saveCheckpoint_sound {taskId : Option String} {expected : Option Int} {status : Option String} {state : Option Jsonb}
    (h : agentSaveCheckpoint caller clock taskId expected status state db = .ok (row, db')) (hs : Sound db) : Sound db' := by
  obtain ⟨_, -, h⟩ := bind_ok.1 h
  obtain ⟨⟨r, db''⟩, hu, h⟩ := bind_ok.1 h
  obtain ⟨_, -, h⟩ := bind_ok.1 h
  obtain ⟨-, rfl⟩ := Prod.mk.inj (Except.ok.inj h)
  exact update_sound hu hs

theorem claimNextTask_sound {worker : Option String} {seconds : Option Int} {locked : List String}
    (h : agentClaimNextTask caller clock worker seconds locked db = .ok (r, db')) (hs : Sound db) : Sound db' := by
  unfold agentClaimNextTask at h
  obtain ⟨_, -, h⟩ := bind_ok.1 h
  obtain ⟨_, -, h⟩ := bind_ok.1 h
  obtain ⟨_, -, h⟩ := bind_ok.1 h
  simp only [] at h
  split at h
  · obtain ⟨-, rfl⟩ := Prod.mk.inj (Except.ok.inj h)
    exact hs
  · obtain ⟨⟨r', db''⟩, hu, h⟩ := bind_ok.1 h
    obtain ⟨_, -, h⟩ := bind_ok.1 h
    obtain ⟨-, rfl⟩ := Prod.mk.inj (Except.ok.inj h)
    exact (update_sound hu hs).event _

theorem claimTask_sound {taskId worker : Option String} {seconds : Option Int}
    (h : agentClaimTask caller clock taskId worker seconds db = .ok (r, db')) (hs : Sound db) : Sound db' := by
  unfold agentClaimTask at h
  obtain ⟨_, -, h⟩ := bind_ok.1 h
  obtain ⟨_, -, h⟩ := bind_ok.1 h
  obtain ⟨_, -, h⟩ := bind_ok.1 h
  obtain ⟨_, -, h⟩ := bind_ok.1 h
  simp only [] at h
  split at h
  · obtain ⟨-, rfl⟩ := Prod.mk.inj (Except.ok.inj h)
    exact hs
  · obtain ⟨⟨r', db''⟩, hu, h⟩ := bind_ok.1 h
    obtain ⟨_, -, h⟩ := bind_ok.1 h
    obtain ⟨-, rfl⟩ := Prod.mk.inj (Except.ok.inj h)
    exact (update_sound hu hs).event _

theorem saveLeasedCheckpoint_sound {taskId : Option String} {expected : Option Int} {worker : Option String} {generation : Option Int}
    {status : Option String} {state : Option Jsonb} {seconds : Option Int}
    (h : agentSaveLeasedCheckpoint caller clock taskId expected worker generation status state seconds db = .ok (row, db'))
    (hs : Sound db) : Sound db' := by
  obtain ⟨_, -, h⟩ := bind_ok.1 h
  obtain ⟨_, -, h⟩ := bind_ok.1 h
  obtain ⟨_, -, h⟩ := bind_ok.1 h
  obtain ⟨_, -, h⟩ := bind_ok.1 h
  obtain ⟨_, -, h⟩ := bind_ok.1 h
  obtain ⟨-, h⟩ := raiseIf_bind_ok.1 h
  obtain ⟨_, -, h⟩ := bind_ok.1 h
  obtain ⟨_, -, h⟩ := bind_ok.1 h
  obtain ⟨⟨r', db''⟩, hu, h⟩ := bind_ok.1 h
  obtain ⟨_, -, h⟩ := bind_ok.1 h
  obtain ⟨-, rfl⟩ := Prod.mk.inj (Except.ok.inj h)
  exact (update_sound hu hs).event _

theorem reconcileExpiredLease_sound {taskId : Option String} {expected generation : Option Int} {state : Option Jsonb}
    (h : agentReconcileExpiredLease caller clock taskId expected generation state db = .ok (row, db')) (hs : Sound db) : Sound db' := by
  unfold agentReconcileExpiredLease at h
  obtain ⟨_, -, h⟩ := bind_ok.1 h
  obtain ⟨_, -, h⟩ := bind_ok.1 h
  obtain ⟨_, -, h⟩ := bind_ok.1 h
  obtain ⟨_, -, h⟩ := bind_ok.1 h
  obtain ⟨_, -, h⟩ := bind_ok.1 h
  simp only [] at h
  split at h
  · obtain ⟨⟨r', db''⟩, hu, h⟩ := bind_ok.1 h
    obtain ⟨_, -, h⟩ := bind_ok.1 h
    obtain ⟨-, rfl⟩ := Prod.mk.inj (Except.ok.inj h)
    exact (update_sound hu hs).event _
  · nomatch h

/-- A call keeps the tables sound. -/
theorem run_sound {call : Call} (h : call.run caller clock db = .ok (r, db')) (hs : Sound db) : Sound db' := by
  have hmap : ∀ {x : Except PgError (Row × Db)}, x.map (fun r => (some r.1, r.2)) = .ok (r, db') → ∃ row, x = .ok (row, db') := by
    intro x hx
    cases x with
    | error e => nomatch hx
    | ok p =>
      obtain ⟨-, rfl⟩ := Prod.mk.inj (Except.ok.inj hx)
      exact ⟨p.1, rfl⟩
  cases call with
  | createCheckpoint =>
    obtain ⟨row, hx⟩ := hmap h
    obtain ⟨_, -, hx⟩ := bind_ok.1 hx
    exact insert_sound hx hs
  | saveCheckpoint =>
    obtain ⟨row, hx⟩ := hmap h
    exact saveCheckpoint_sound hx hs
  | claimNextTask => exact claimNextTask_sound h hs
  | claimTask => exact claimTask_sound h hs
  | saveLeasedCheckpoint =>
    obtain ⟨row, hx⟩ := hmap h
    exact saveLeasedCheckpoint_sound hx hs
  | reconcileExpiredLease =>
    obtain ⟨row, hx⟩ := hmap h
    exact reconcileExpiredLease_sound hx hs

end Calls

/-- The tables of every history are sound. -/
theorem history_sound (txs : List Tx) : Sound (history txs).db := by
  have hstep : ∀ (w : World), Sound w.db → ∀ tx, Sound (w.transact tx).db := by
    intro w hw tx
    unfold World.transact
    split
    · rename_i hrun
      exact run_sound hrun hw
    · exact hw
  have hall : ∀ (w : World), Sound w.db → Sound (txs.foldl World.transact w).db := by
    induction txs with
    | nil => exact fun w hw => hw
    | cons tx txs ih => exact fun w hw => ih _ (hstep w hw tx)
  exact hall _ sound_empty

/-! ## Claims -/

/-- The counters of a row are below the largest values of their types. -/
structure Room (row : Row) : Prop where
  revision : row.revision + 1 < 2 ^ 63
  attempts : row.attemptCount + 1 < 2 ^ 31
  generation : row.leaseGeneration + 1 < 2 ^ 63

/-- A row as it stands passes the constraints. -/
theorem check_draft (row : Row) : row.draft.check = .ok row := by
  obtain ⟨columns, hchecked⟩ := row
  have hstatus : RowStatus.ofText columns.status.text = some columns.status := by cases columns.status <;> rfl
  simp only [Draft.check, Row.draft, required, bind, Except.bind, hstatus]
  exact dif_pos hchecked

theorem getText_concat {state : Jsonb} (hobj : state.isObject = true) {key : String} (hkey : key ∉ ["status", "last_error", "blocked_reason"]) :
    (state.concat runningPatch).getText key = state.getText key := by
  cases state with
  | obj fs =>
    have hnone : Dict.get? key [("status", (.str "running" : Jsonb)), ("last_error", .null), ("blocked_reason", .null)] = none :=
      Dict.get?_eq_none_iff.2 hkey
    have hget : (Jsonb.concat (.obj fs) runningPatch).get? key = Json.get? (.obj fs) key := by
      show Dict.get? key (List.foldl Jsonb.put fs _) = Dict.get? key fs
      rw [Jsonb.get?_foldl_put (by decide), hnone, Option.none_or]
    rw [Jsonb.getText, Jsonb.getText, hget]
  | _ => nomatch hobj

theorem status_concat {state : Jsonb} (hobj : state.isObject = true) : (state.concat runningPatch).getText "status" = some "running" := by
  cases state with
  | obj fs =>
    have hget : (Jsonb.concat (.obj fs) runningPatch).get? "status" = some (.str "running") := by
      show Dict.get? "status" (List.foldl Jsonb.put fs _) = _
      rw [Jsonb.get?_foldl_put (by decide)]
      rfl
    rw [Jsonb.getText, hget]
  | _ => nomatch hobj

theorem isObject_concat {state : Jsonb} (hobj : state.isObject = true) : (state.concat runningPatch).isObject = true := by
  cases state with
  | obj fs => rfl
  | _ => nomatch hobj

section Progress

variable {caller : Caller} {clock : Clock} {db : Db} {next : Row} {worker : String}

/-- The columns of a row under a new lease. -/
def claimedColumns (clock : Clock) (worker : String) (seconds : Int) (row : Row) : Columns :=
  { row.toColumns with
    state := row.state.concat runningPatch
    status := .running
    blockedReason := none
    lastError := none
    updatedAt := clock.updated
    revision := row.revision + 1
    attemptCount := row.attemptCount + 1
    leaseOwner := some worker
    leaseGeneration := row.leaseGeneration + 1
    leaseExpiresAt := some (leaseEnd clock seconds) }

theorem due_iff {row : Row} : due clock row = true ↔ row.status = .queued ∧ row.notBefore ≤ clock.now ∧ row.attemptCount < row.maxAttempts := by
  simp [due, and_assoc]

/-- A row that is due can take a lease. -/
theorem claimedColumns_checked (seconds : Int) (hdue : due clock next = true) (hworker : isWorkerId worker = true) :
    ∀ c ∈ (claimedColumns clock worker seconds next).constraints, c.2 = true := by
  obtain ⟨-, -, hattempts⟩ := due_iff.1 hdue
  have hold := next.checked
  simp only [Columns.constraints, List.forall_mem_cons, List.not_mem_nil, false_implies, implies_true, and_true,
    decide_eq_true_eq] at hold
  obtain ⟨-, hcount, hgeneration, -, -, -, hmax, hrevision, hfp, hspec, hstate, htask⟩ := hold
  simp only [Columns.constraints, claimedColumns, List.forall_mem_cons, List.not_mem_nil, false_implies, implies_true, and_true]
  exact ⟨decide_eq_true (by omega), decide_eq_true (by omega), decide_eq_true (by omega), hworker, rfl, rfl, decide_eq_true hmax,
    decide_eq_true (by omega), hfp, hspec, isObject_concat hstate, htask⟩

/-- The trigger lets a claim pass. -/
theorem guard_claimed (worker : String) (seconds : Int) (hg : Guarded next) (hlive : next.status = .queued) (hroom : Room next) (hobj : next.state.isObject = true) :
    ∃ new draft, claimed clock worker seconds next = .ok new ∧ agentCheckpointGuard (some next) new clock = .ok draft ∧
      ∀ h, draft = Row.draft ⟨claimedColumns clock worker seconds next, h⟩ := by
  have hclaimed : claimed clock worker seconds next = .ok { next.draft with
      state := some (next.state.concat runningPatch)
      status := some "running"
      blockedReason := none
      lastError := none
      revision := next.revision + 1
      attemptCount := next.attemptCount + 1
      leaseOwner := some worker
      leaseGeneration := next.leaseGeneration + 1
      leaseExpiresAt := some (leaseEnd clock seconds) } :=
    bind_ok.2 ⟨_, bigint_ok.2 ⟨hroom.revision, rfl⟩, bind_ok.2 ⟨_, integer_ok.2 ⟨hroom.attempts, rfl⟩,
      bind_ok.2 ⟨_, bigint_ok.2 ⟨hroom.generation, rfl⟩, rfl⟩⟩⟩
  refine ⟨_, _, hclaimed, raiseIf_bind_ok.2 ⟨?_, raiseIf_bind_ok.2 ⟨?_, raiseIf_bind_ok.2 ⟨?_, raiseIf_bind_ok.2 ⟨?_, rfl⟩⟩⟩⟩, fun h => rfl⟩
  · have htask : (next.state.concat runningPatch).getText "task_id" = some next.taskId :=
      (getText_concat hobj (by decide)).trans hg.stateTask
    have hschema : (next.state.concat runningPatch).getText "schema_version" = some "agent-task-state-v1" :=
      (getText_concat hobj (by decide)).trans hg.stateSchema
    have hfp : (next.state.concat runningPatch).getText "spec_fingerprint" = some next.specFingerprint :=
      (getText_concat hobj (by decide)).trans hg.fingerprint
    have hstatus := status_concat hobj
    simp [Row.draft, htask, hschema, hfp, hstatus, hg.specTask, hg.specSchema]
  · simp [Row.draft]
  · simp
  · simp [hlive]

/-- A claim of a row that is due writes it. -/
theorem update_claimed (seconds : Int) (hs : Sound db) (hmem : next ∈ db.tasks) (hmay : caller.may next.userId = true) (hdue : due clock next = true)
    (hworker : isWorkerId worker = true) (hroom : Room next) :
    ∃ row db', db.update caller clock (fun r => r.userId = next.userId && r.taskId = next.taskId) (claimed clock worker seconds) =
      .ok (some row, db') := by
  have hfound : (db.tasks.find? fun r => caller.may r.userId && (r.userId = next.userId && r.taskId = next.taskId)).isSome = true :=
    List.find?_isSome.2 ⟨next, hmem, by simp [hmay]⟩
  obtain ⟨old, hold⟩ := Option.isSome_iff_exists.1 hfound
  have hcond := List.find?_some hold
  simp only [Bool.and_eq_true, decide_eq_true_eq] at hcond
  obtain rfl : old = next := Db.eq_of_key (List.mem_of_find?_eq_some hold) hmem (Prod.ext hcond.2.1 hcond.2.2)
  have hobj : old.state.isObject = true := by
    have h := old.checked ("agent_tasks_state_is_object", old.state.isObject) (by simp [Columns.constraints])
    exact h
  obtain ⟨new, draft, hclaimed, hguard, hdraft⟩ := guard_claimed worker seconds (hs.guarded old hmem)
    (due_iff.1 hdue).1 hroom hobj
  have hchecked := claimedColumns_checked seconds hdue hworker
  rw [hdraft hchecked] at hguard
  have hunique : Db.checkUnique (db.tasks.filter (fun r => r.key ≠ old.key)) ⟨claimedColumns clock worker seconds old, hchecked⟩ = .ok () := by
    refine check_of_unique (fun r hr hu hk => ?_) fun ha r hr hra hu => ?_
    · rw [List.mem_filter, decide_eq_true_eq] at hr
      exact hr.2 (by rw [hs.keys r hr.1 old hmem hu hk])
    · rw [List.mem_filter, decide_eq_true_eq] at hr
      have hactive : ActiveTrusted old := ⟨ha.1, .inl (due_iff.1 hdue).1⟩
      exact hr.2 (by rw [hs.single r hr.1 old hmem hu hra hactive])
  refine ⟨⟨claimedColumns clock worker seconds old, hchecked⟩, ?_⟩
  unfold Db.update
  rw [hold]
  exact ⟨_, bind_ok.2 ⟨new, hclaimed, bind_ok.2 ⟨_, hguard, raiseIf_bind_ok.2 ⟨by simp [Row.draft, claimedColumns, hmay],
    bind_ok.2 ⟨_, check_draft _, bind_ok.2 ⟨(), hunique, rfl⟩⟩⟩⟩⟩⟩

end Progress

end Keirin.Queue

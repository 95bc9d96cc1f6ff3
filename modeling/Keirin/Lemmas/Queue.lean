import Keirin.Queue

/-!
# What a transaction does

`Call.run_ok` says once what a call that succeeds did to the tables: it wrote nothing, it added a row, or it replaced one row
by another. Everything about the queue is derived from it.
-/

namespace Keirin.Queue

/-! ## Columns -/

@[simp] theorem RowStatus.ofText_text (s : RowStatus) : RowStatus.ofText s.text = some s := by
  cases s <;> decide

theorem RowStatus.text_of_ofText {t : String} {s : RowStatus} (h : RowStatus.ofText t = some s) : t = s.text := by
  unfold RowStatus.ofText at h
  split_ifs at h with h1 h2 h3 h4 h5 <;> cases h <;> assumption

theorem RowStatus.text_inj {s t : RowStatus} (h : s.text = t.text) : s = t := by
  have hs := RowStatus.ofText_text s
  rw [h, RowStatus.ofText_text] at hs
  exact (Option.some.inj hs).symm

theorem RowStatus.isWord_stateText (s : RowStatus) : Jsonb.IsWord s.stateText := by
  cases s <;> decide

theorem required_ok {α : Type} {column : String} {o : Option α} {v : α} : required column o = .ok v ↔ o = some v := by
  cases o <;> simp [required]

theorem bigint_ok {n m : Int} : bigint n = .ok m ↔ n < 2 ^ 63 ∧ m = n := by
  unfold bigint
  split <;> simp_all [eq_comm]

theorem integer_ok {n m : Int} : integer n = .ok m ↔ n < 2 ^ 31 ∧ m = n := by
  unfold integer
  split <;> simp_all [eq_comm]

theorem found_ok {α : Type} {e : PgError} {o : Option α} {v : α} : found e o = .ok v ↔ o = some v := by
  cases o <;> simp [found]

theorem checkArg_ok {α : Type} {ok : α → Bool} {message : String} {o : Option α} {v : α} :
    checkArg ok message o = .ok v ↔ o = some v ∧ ok v = true := by
  cases o with
  | none => simp [checkArg]
  | some w =>
    by_cases hw : ok w = true
    · simp only [checkArg, hw, if_true, Except.ok.injEq, Option.some.injEq]
      exact ⟨fun h => ⟨h, h ▸ hw⟩, fun h => h.1⟩
    · simp only [checkArg, hw, Bool.false_eq_true, if_false, reduceCtorEq, Option.some.injEq, false_iff, not_and]
      intro h
      rwa [← h]

theorem authenticated_ok {caller : Caller} {uid : String} : authenticated caller = .ok uid ↔ caller.uid = some uid := by
  unfold authenticated
  cases caller.uid <;> simp

/-- The row a proposal becomes has the columns proposed. -/
theorem Draft.check_ok {d : Draft} {row : Row} (h : d.check = .ok row) : row.draft = d := by
  unfold Draft.check at h
  obtain ⟨taskId, ht, h⟩ := bind_ok.1 h
  obtain ⟨status, hs, h⟩ := bind_ok.1 h
  obtain ⟨key, hk, h⟩ := bind_ok.1 h
  obtain ⟨spec, hsp, h⟩ := bind_ok.1 h
  obtain ⟨state, hst, h⟩ := bind_ok.1 h
  obtain ⟨fp, hf, h⟩ := bind_ok.1 h
  split at h
  · rename_i status' hstatus
    simp only [] at h
    split at h
    · cases h
      obtain ⟨_, _, _, _, _, _, _, _, _, _, _, _, _, _, _, _, _, _, _⟩ := d
      simp only [required_ok] at ht hs hk hsp hst hf
      subst ht hs hk hsp hst hf
      simp only [Row.draft, RowStatus.text_of_ofText hstatus]
    · nomatch h
  · nomatch h

namespace Row

variable (row : Row)

theorem budget : row.attemptCount ≤ row.maxAttempts := by
  have h := row.checked ("agent_tasks_attempt_budget_valid", decide (row.attemptCount ≤ row.maxAttempts))
    (by simp [Columns.constraints])
  simpa using h

theorem pair : row.leaseOwner = none ↔ row.leaseExpiresAt = none := by
  have h := row.checked ("agent_tasks_lease_pair", decide (row.leaseOwner.isSome = row.leaseExpiresAt.isSome))
    (by simp [Columns.constraints])
  simp only [decide_eq_true_eq] at h
  rw [← Option.isNone_iff_eq_none, ← Option.isNone_iff_eq_none, ← Option.not_isSome, ← Option.not_isSome, h]

theorem running_of_leased (h : row.leaseOwner ≠ none) : row.status = .running := by
  have hc := row.checked ("agent_tasks_lease_requires_running", row.leaseOwner.isNone || decide (row.status = .running))
    (by simp [Columns.constraints])
  simp only [Bool.or_eq_true, Option.isNone_iff_eq_none, decide_eq_true_eq] at hc
  exact hc.resolve_left h

end Row

/-! ## Writes -/

/-- A row `row` that the transaction wrote in the place of `old`, from the proposal `new`. -/
structure Wrote (caller : Caller) (clock : Clock) (db db' : Db) (old row : Row) (new : Draft) : Prop where
  mem : old ∈ db.tasks
  may : caller.may old.userId = true
  tasks : db'.tasks = Db.put db.tasks row
  draft : row.draft = { new with updatedAt := clock.updated }
  key : row.key = old.key
  definition : row.spec = old.spec ∧ row.specFingerprint = old.specFingerprint ∧ row.idempotencyKey = old.idempotencyKey
  revision : row.revision = old.revision + 1
  live : old.status ≠ .completed
  status : row.state.get? "status" = some (.str row.status.stateText)

/-- The proposal a guard lets pass, for an update. -/
theorem guard_update_ok {old : Row} {new draft : Draft} {clock : Clock}
    (h : agentCheckpointGuard (some old) new clock = .ok draft) :
    draft = { new with updatedAt := clock.updated } ∧ new.userId = old.userId ∧ new.taskId = some old.taskId ∧
      new.idempotencyKey = some old.idempotencyKey ∧ new.spec = some old.spec ∧ new.specFingerprint = some old.specFingerprint ∧
      new.revision = old.revision + 1 ∧ old.status ≠ .completed ∧
      new.state.bind (fun s => s.getText "status") = (if new.status = some "queued" then some "pending" else new.status) := by
  unfold agentCheckpointGuard at h
  simp only [raiseIf_bind_ok, not_or, ne_eq, not_not] at h
  obtain ⟨⟨-, -, -, -, -, hstatus⟩, ⟨huser, htask, hkey, hspec, hfp, -, -⟩, hrev, hlive, h⟩ := h
  exact ⟨(Except.ok.inj h).symm, huser, htask, hkey, hspec, hfp, hrev, hlive, hstatus⟩

/-- The proposal a guard lets pass, for an insert. -/
theorem guard_insert_ok {new draft : Draft} {clock : Clock} (h : agentCheckpointGuard none new clock = .ok draft) :
    draft = { new with createdAt := clock.created, updatedAt := clock.updated } ∧ new.revision = 0 ∧
      new.status = some "queued" ∧
      new.state.bind (fun s => s.getText "status") = (if new.status = some "queued" then some "pending" else new.status) := by
  unfold agentCheckpointGuard at h
  simp only [raiseIf_bind_ok, not_or, ne_eq, not_not] at h
  obtain ⟨⟨-, -, -, -, -, hstatus⟩, ⟨hrev, hqueued⟩, h⟩ := h
  exact ⟨(Except.ok.inj h).symm, hrev, hqueued, hstatus⟩

/-- The status inside the state of a row is that of the row, where the guard compared them. -/
theorem state_status {row : Row} {new : Draft} (hstate : new.state = some row.state) (hstatus : new.status = some row.status.text)
    (h : new.state.bind (fun s => s.getText "status") = (if new.status = some "queued" then some "pending" else new.status)) :
    row.state.get? "status" = some (.str row.status.stateText) := by
  refine Jsonb.get?_of_getText ?_ (RowStatus.isWord_stateText _)
  rw [hstate, hstatus, Option.bind_some] at h
  rw [h]
  cases row.status <;> decide

/-- An update writes nothing, or one row. -/
theorem Db.update_ok {db db' : Db} {caller : Caller} {clock : Clock} {cond : Row → Bool} {set : Row → Except PgError Draft}
    {r : Option Row} (h : db.update caller clock cond set = .ok (r, db')) :
    (r = none ∧ db' = db) ∨
      ∃ old row new, r = some row ∧ cond old = true ∧ set old = .ok new ∧ Wrote caller clock db db' old row new := by
  unfold Db.update at h
  split at h
  · obtain ⟨rfl, rfl⟩ := Prod.mk.inj (Except.ok.inj h)
    exact .inl ⟨rfl, rfl⟩
  · rename_i old hold
    obtain ⟨new, hnew, h⟩ := bind_ok.1 h
    obtain ⟨draft, hguard, h⟩ := bind_ok.1 h
    obtain ⟨hmay', h⟩ := raiseIf_bind_ok.1 h
    obtain ⟨row, hrow, h⟩ := bind_ok.1 h
    obtain ⟨_, -, h⟩ := bind_ok.1 h
    obtain ⟨rfl, rfl⟩ := Prod.mk.inj (Except.ok.inj h)
    have hfound := List.find?_some hold
    simp only [Bool.and_eq_true] at hfound
    obtain ⟨rfl, huser, htask, hkey, hspec, hfp, hrev, hlive, hstatus⟩ := guard_update_ok hguard
    have hdraft := Draft.check_ok hrow
    have hcol : ∀ {α : Type} (f : Draft → α), f row.draft = f { new with updatedAt := clock.updated } :=
      fun f => congrArg f hdraft
    refine .inr ⟨old, row, new, rfl, hfound.2, hnew, List.mem_of_find?_eq_some hold, hfound.1, rfl, hdraft, ?_, ⟨?_, ?_, ?_⟩, ?_,
      hlive, state_status (hcol Draft.state).symm (hcol Draft.status).symm hstatus⟩
    · exact Prod.ext ((hcol Draft.userId).trans huser) (Option.some.inj ((hcol Draft.taskId).trans htask))
    · exact Option.some.inj ((hcol Draft.spec).trans hspec)
    · exact Option.some.inj ((hcol Draft.specFingerprint).trans hfp)
    · exact Option.some.inj ((hcol Draft.idempotencyKey).trans hkey)
    · exact (hcol Draft.revision).trans hrev

/-- A row `row` that the transaction added. -/
structure Created (caller : Caller) (db db' : Db) (row : Row) : Prop where
  may : caller.may row.userId = true
  tasks : db'.tasks = db.tasks ++ [row]
  fresh : row.key ∉ db.tasks.map Row.key
  revision : row.revision = 0
  queued : row.status = .queued
  budget : row.attemptCount = 0 ∧ row.maxAttempts = 1
  lease : row.leaseOwner = none ∧ row.leaseGeneration = 0
  status : row.state.get? "status" = some (.str row.status.stateText)

/-- An insert adds one row. -/
theorem Db.insert_ok {db db' : Db} {caller : Caller} {clock : Clock} {new : Draft} {row : Row}
    (h : db.insert caller clock new = .ok (row, db')) (hb : new.attemptCount = 0 ∧ new.maxAttempts = 1)
    (hl : new.leaseOwner = none ∧ new.leaseGeneration = 0) :
    Created caller db db' row ∧ row.draft = { new with createdAt := clock.created, updatedAt := clock.updated } := by
  unfold Db.insert at h
  obtain ⟨draft, hguard, h⟩ := bind_ok.1 h
  obtain ⟨hmay, h⟩ := raiseIf_bind_ok.1 h
  obtain ⟨row', hrow, h⟩ := bind_ok.1 h
  split at h
  · nomatch h
  · rename_i hfresh
    obtain ⟨_, -, h⟩ := bind_ok.1 h
    obtain ⟨rfl, rfl⟩ := Prod.mk.inj (Except.ok.inj h)
    obtain ⟨rfl, hrev, hqueued, hstatus⟩ := guard_insert_ok hguard
    have hdraft := Draft.check_ok hrow
    have hcol : ∀ {α : Type} (f : Draft → α), f row'.draft = f { new with createdAt := clock.created, updatedAt := clock.updated } :=
      fun f => congrArg f hdraft
    refine ⟨⟨?_, rfl, hfresh, ?_, ?_, ⟨?_, ?_⟩, ⟨?_, ?_⟩,
      state_status (hcol Draft.state).symm (hcol Draft.status).symm hstatus⟩, hdraft⟩
    · rw [show row'.userId = new.userId from hcol Draft.userId]
      exact Bool.not_eq_false _ ▸ hmay
    · exact (hcol Draft.revision).trans hrev
    · exact RowStatus.text_inj (Option.some.inj ((hcol Draft.status).trans hqueued))
    · exact (hcol Draft.attemptCount).trans hb.1
    · exact (hcol Draft.maxAttempts).trans hb.2
    · exact (hcol Draft.leaseOwner).trans hl.1
    · exact (hcol Draft.leaseGeneration).trans hl.2

/-! ## Calls -/

/-- What a call that succeeds did. -/
inductive Effect (caller : Caller) (clock : Clock) (db : Db) : Call → Option Row → Db → Prop
  | nothing {call : Call} {worker : String} (hc : call.claimant = some worker) : Effect caller clock db call none db
  | created {key : Option String} {spec state : Option Jsonb} {fingerprint : Option String} {row : Row} {db' : Db}
      (h : Created caller db db' row)
      (hrow : some row.idempotencyKey = key ∧ some row.spec = spec ∧ some row.state = state ∧
        some row.specFingerprint = fingerprint) :
      Effect caller clock db (.createCheckpoint (some row.taskId) key spec state fingerprint) (some row) db'
  | saved {status : Option String} {state : Option Jsonb} {old row : Row} {new : Draft} {db' : Db}
      (h : Wrote caller clock db db' old row new) (hnew : saved status state old = .ok new) (hfree : old.leaseOwner = none) :
      Effect caller clock db (.saveCheckpoint (some old.taskId) (some old.revision) status state) (some row) db'
  | claimed {call : Call} {worker : String} {seconds : Int} {old row : Row} {new : Draft} {db' : Db}
      (hc : call.claimant = some worker) (h : Wrote caller clock db db' old row new)
      (hnew : claimed clock worker seconds old = .ok new) (hdue : due clock old = true) :
      Effect caller clock db call (some row) db'
  | leased {status : Option String} {state : Jsonb} {worker : String} {seconds : Int} {old row : Row} {new : Draft} {db' : Db}
      (h : Wrote caller clock db db' old row new) (hnew : leasedSaved clock status state seconds old = .ok new)
      (hheld : old.leaseOwner = some worker) (hexp : ∃ t, old.leaseExpiresAt = some t ∧ clock.now < t) :
      Effect caller clock db (.saveLeasedCheckpoint (some old.taskId) (some old.revision) (some worker)
        (some old.leaseGeneration) status (some state) (some seconds)) (some row) db'
  | reconciled {state : Jsonb} {old row : Row} {new : Draft} {db' : Db}
      (h : Wrote caller clock db db' old row new) (hnew : reconciled state old = .ok new) (hrun : old.status = .running) :
      Effect caller clock db (.reconcileExpiredLease (some old.taskId) (some old.revision) (some old.leaseGeneration)
        (some state)) (some row) db'

/-- A write stays one when an event is added. -/
theorem Wrote.event {caller : Caller} {clock : Clock} {db db' : Db} {old row : Row} {new : Draft}
    (h : Wrote caller clock db db' old row new) (e : TaskEvent) : Wrote caller clock db (db'.event e) old row new :=
  ⟨h.mem, h.may, h.tasks, h.draft, h.key, h.definition, h.revision, h.live, h.status⟩

/-- A row is determined by its key. -/
theorem Db.eq_of_key {db : Db} {a b : Row} (ha : a ∈ db.tasks) (hb : b ∈ db.tasks) (h : a.key = b.key) : a = b :=
  List.inj_on_of_nodup_map db.keyed ha hb h

section Run

variable {caller : Caller} {clock : Clock} {db db' : Db} {row : Row}

theorem agentCreateCheckpoint_ok {taskId key : Option String} {spec state : Option Jsonb} {fingerprint : Option String}
    (h : agentCreateCheckpoint caller clock taskId key spec state fingerprint db = .ok (row, db')) :
    Effect caller clock db (.createCheckpoint taskId key spec state fingerprint) (some row) db' := by
  unfold agentCreateCheckpoint at h
  obtain ⟨uid, huid, h⟩ := bind_ok.1 h
  obtain ⟨hc, hdraft⟩ := Db.insert_ok h ⟨rfl, rfl⟩ ⟨rfl, rfl⟩
  have ht : some row.taskId = taskId := congrArg Draft.taskId hdraft
  subst ht
  exact .created hc ⟨congrArg Draft.idempotencyKey hdraft, congrArg Draft.spec hdraft, congrArg Draft.state hdraft,
    congrArg Draft.specFingerprint hdraft⟩

/-- An update that must find its row. -/
theorem update_found {cond : Row → Bool} {set : Row → Except PgError Draft} {r : Option Row} {e : PgError}
    (h : db.update caller clock cond set = .ok (r, db')) (hr : found e r = .ok row) :
    ∃ old new, cond old = true ∧ set old = .ok new ∧ Wrote caller clock db db' old row new := by
  rw [found_ok] at hr
  rcases Db.update_ok h with ⟨hnone, -⟩ | ⟨old, row', new, hsome, hcond, hset, hw⟩
  · rw [hnone] at hr
    nomatch hr
  · rw [hsome] at hr
    cases hr
    exact ⟨old, new, hcond, hset, hw⟩

theorem agentSaveCheckpoint_ok {taskId : Option String} {expected : Option Int} {status : Option String} {state : Option Jsonb}
    (h : agentSaveCheckpoint caller clock taskId expected status state db = .ok (row, db')) :
    Effect caller clock db (.saveCheckpoint taskId expected status state) (some row) db' := by
  unfold agentSaveCheckpoint at h
  obtain ⟨n, hn, h⟩ := bind_ok.1 h
  obtain ⟨⟨r, db''⟩, hu, h⟩ := bind_ok.1 h
  obtain ⟨row', hr, h⟩ := bind_ok.1 h
  obtain ⟨rfl, rfl⟩ := Prod.mk.inj (Except.ok.inj h)
  obtain ⟨old, new, hcond, hset, hw⟩ := update_found hu hr
  simp only [Bool.and_eq_true, decide_eq_true_eq, Option.isNone_iff_eq_none] at hcond
  obtain ⟨⟨⟨-, rfl⟩, rfl⟩, hfree⟩ := hcond
  obtain ⟨rfl, -⟩ := checkArg_ok.1 hn
  exact .saved hw hset hfree

theorem agentClaimNextTask_ok {worker : Option String} {seconds : Option Int} {locked : List String} {r : Option Row}
    (h : agentClaimNextTask caller clock worker seconds locked db = .ok (r, db')) :
    Effect caller clock db (.claimNextTask worker seconds locked) r db' := by
  unfold agentClaimNextTask at h
  obtain ⟨uid, huid, h⟩ := bind_ok.1 h
  obtain ⟨w, hw, h⟩ := bind_ok.1 h
  obtain ⟨s, hs, h⟩ := bind_ok.1 h
  simp only [] at h
  split at h
  · obtain ⟨rfl, rfl⟩ := Prod.mk.inj (Except.ok.inj h)
    obtain ⟨rfl, -⟩ := checkArg_ok.1 hw
    obtain ⟨rfl, -⟩ := checkArg_ok.1 hs
    exact .nothing rfl
  · rename_i next hnext
    obtain ⟨⟨r', db''⟩, hu, h⟩ := bind_ok.1 h
    obtain ⟨row', hr, h⟩ := bind_ok.1 h
    obtain ⟨rfl, rfl⟩ := Prod.mk.inj (Except.ok.inj h)
    obtain ⟨old, new, hcond, hset, hwr⟩ := update_found hu hr
    simp only [Bool.and_eq_true, decide_eq_true_eq] at hcond
    have hmem := List.mem_of_find?_eq_some hnext
    rw [List.mem_insertionSort, List.mem_filter] at hmem
    simp only [Bool.and_eq_true, decide_eq_true_eq] at hmem
    have hold : old = next := by
      refine Db.eq_of_key hwr.mem hmem.1 (Prod.ext ?_ hcond.2)
      exact hcond.1.trans hmem.2.1.2.symm
    obtain ⟨rfl, -⟩ := checkArg_ok.1 hw
    obtain ⟨rfl, -⟩ := checkArg_ok.1 hs
    exact .claimed rfl (hwr.event _) hset (hold ▸ hmem.2.2)

theorem agentClaimTask_ok {taskId worker : Option String} {seconds : Option Int} {r : Option Row}
    (h : agentClaimTask caller clock taskId worker seconds db = .ok (r, db')) :
    Effect caller clock db (.claimTask taskId worker seconds) r db' := by
  unfold agentClaimTask at h
  obtain ⟨uid, huid, h⟩ := bind_ok.1 h
  obtain ⟨task, ht, h⟩ := bind_ok.1 h
  obtain ⟨w, hw, h⟩ := bind_ok.1 h
  obtain ⟨s, hs, h⟩ := bind_ok.1 h
  split at h
  · obtain ⟨rfl, rfl⟩ := Prod.mk.inj (Except.ok.inj h)
    obtain ⟨rfl, -⟩ := checkArg_ok.1 ht
    obtain ⟨rfl, -⟩ := checkArg_ok.1 hw
    obtain ⟨rfl, -⟩ := checkArg_ok.1 hs
    exact .nothing rfl
  · rename_i next hnext
    obtain ⟨⟨r', db''⟩, hu, h⟩ := bind_ok.1 h
    obtain ⟨row', hr, h⟩ := bind_ok.1 h
    obtain ⟨rfl, rfl⟩ := Prod.mk.inj (Except.ok.inj h)
    obtain ⟨old, new, hcond, hset, hwr⟩ := update_found hu hr
    simp only [Bool.and_eq_true] at hcond
    obtain ⟨rfl, -⟩ := checkArg_ok.1 ht
    obtain ⟨rfl, -⟩ := checkArg_ok.1 hw
    obtain ⟨rfl, -⟩ := checkArg_ok.1 hs
    exact .claimed rfl (hwr.event _) hset hcond.1.1.2

theorem agentSaveLeasedCheckpoint_ok {taskId : Option String} {expected : Option Int} {worker : Option String}
    {generation : Option Int} {status : Option String} {state : Option Jsonb} {seconds : Option Int}
    (h : agentSaveLeasedCheckpoint caller clock taskId expected worker generation status state seconds db = .ok (row, db')) :
    Effect caller clock db (.saveLeasedCheckpoint taskId expected worker generation status state seconds) (some row) db' := by
  unfold agentSaveLeasedCheckpoint at h
  obtain ⟨uid, huid, h⟩ := bind_ok.1 h
  obtain ⟨task, ht, h⟩ := bind_ok.1 h
  obtain ⟨n, hn, h⟩ := bind_ok.1 h
  obtain ⟨w, hw, h⟩ := bind_ok.1 h
  obtain ⟨g, hg, h⟩ := bind_ok.1 h
  obtain ⟨-, h⟩ := raiseIf_bind_ok.1 h
  obtain ⟨s, hs, h⟩ := bind_ok.1 h
  obtain ⟨n, hn', h⟩ := bind_ok.1 h
  obtain ⟨⟨r, db''⟩, hu, h⟩ := bind_ok.1 h
  obtain ⟨row', hr, h⟩ := bind_ok.1 h
  obtain ⟨rfl, rfl⟩ := Prod.mk.inj (Except.ok.inj h)
  obtain ⟨old, new, hcond, hset, hwr⟩ := update_found hu hr
  simp only [Bool.and_eq_true, decide_eq_true_eq, Option.any_eq_true] at hcond
  obtain ⟨⟨⟨⟨⟨⟨-, rfl⟩, rfl⟩, -⟩, hheld⟩, rfl⟩, hexp⟩ := hcond
  obtain ⟨rfl, -⟩ := checkArg_ok.1 ht
  obtain ⟨rfl, -⟩ := checkArg_ok.1 hn
  obtain ⟨rfl, -⟩ := checkArg_ok.1 hw
  obtain ⟨rfl, -⟩ := checkArg_ok.1 hg
  obtain ⟨rfl, -⟩ := checkArg_ok.1 hs
  obtain ⟨rfl, -⟩ := checkArg_ok.1 hn'
  exact .leased (hwr.event _) hset hheld hexp

theorem agentReconcileExpiredLease_ok {taskId : Option String} {expected generation : Option Int} {state : Option Jsonb}
    (h : agentReconcileExpiredLease caller clock taskId expected generation state db = .ok (row, db')) :
    Effect caller clock db (.reconcileExpiredLease taskId expected generation state) (some row) db' := by
  unfold agentReconcileExpiredLease at h
  obtain ⟨uid, huid, h⟩ := bind_ok.1 h
  obtain ⟨task, ht, h⟩ := bind_ok.1 h
  obtain ⟨n, hn, h⟩ := bind_ok.1 h
  obtain ⟨g, hg, h⟩ := bind_ok.1 h
  obtain ⟨s, hs, h⟩ := bind_ok.1 h
  simp only [] at h
  split at h
  · rename_i old' hold'
    obtain ⟨⟨r, db''⟩, hu, h⟩ := bind_ok.1 h
    obtain ⟨row', hr, h⟩ := bind_ok.1 h
    obtain ⟨rfl, rfl⟩ := Prod.mk.inj (Except.ok.inj h)
    obtain ⟨old, new, hcond, hset, hwr⟩ := update_found hu hr
    simp only [Bool.and_eq_true, decide_eq_true_eq] at hcond
    obtain ⟨⟨⟨⟨-, rfl⟩, rfl⟩, hrun⟩, rfl⟩ := hcond
    obtain ⟨rfl, -⟩ := checkArg_ok.1 ht
    obtain ⟨rfl, -⟩ := checkArg_ok.1 hn
    obtain ⟨rfl, -⟩ := checkArg_ok.1 hg
    obtain ⟨rfl, -⟩ := checkArg_ok.1 hs
    exact .reconciled (hwr.event _) hset hrun
  · nomatch h

/-- What a call that succeeds did. -/
theorem Call.run_ok {call : Call} {r : Option Row} (h : call.run caller clock db = .ok (r, db')) :
    Effect caller clock db call r db' := by
  have hmap : ∀ {x : Except PgError (Row × Db)}, x.map (fun r => (some r.1, r.2)) = .ok (r, db') →
      ∃ row, x = .ok (row, db') ∧ r = some row := by
    intro x hx
    cases x with
    | error e => nomatch hx
    | ok p =>
      obtain ⟨rfl, rfl⟩ := Prod.mk.inj (Except.ok.inj hx)
      exact ⟨p.1, rfl, rfl⟩
  cases call with
  | createCheckpoint =>
    obtain ⟨row, hx, rfl⟩ := hmap h
    exact agentCreateCheckpoint_ok hx
  | saveCheckpoint =>
    obtain ⟨row, hx, rfl⟩ := hmap h
    exact agentSaveCheckpoint_ok hx
  | claimNextTask => exact agentClaimNextTask_ok h
  | claimTask => exact agentClaimTask_ok h
  | saveLeasedCheckpoint =>
    obtain ⟨row, hx, rfl⟩ := hmap h
    exact agentSaveLeasedCheckpoint_ok hx
  | reconcileExpiredLease =>
    obtain ⟨row, hx, rfl⟩ := hmap h
    exact agentReconcileExpiredLease_ok hx

end Run

end Keirin.Queue

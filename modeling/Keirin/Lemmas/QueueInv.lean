import Keirin.Lemmas.Queue

/-!
# The invariant of the queue

What every row satisfies (`RowInv`), and how the rows stand to the log (`QueueInv`): a lease goes back to a claim that
nothing has ended since, and the generations of a task only grow.
-/

namespace Keirin.Queue

/-- The invariant of a row. -/
structure RowInv (row : Row) : Prop where
  attempts : row.attemptCount = row.leaseGeneration
  single : row.maxAttempts = 1
  status : row.state.get? "status" = some (.str row.status.stateText)

/-! ## Proposals -/

section Proposals

variable {caller : Caller} {clock : Clock} {db db' : Db} {old row : Row} {new : Draft}

/-- A column of the row that was written is the one proposed. -/
theorem Wrote.column {α : Type} (h : Wrote caller clock db db' old row new) (f : Draft → α) :
    f row.draft = f { new with updatedAt := clock.updated } :=
  congrArg f h.draft

theorem saved_ok {status : Option String} {state : Option Jsonb} (h : saved status state old = .ok new) :
    new = { old.draft with
      state := state
      status := status
      blockedReason := nullIfEmpty (state.bind (fun s => s.getText "blocked_reason"))
      lastError := nullIfEmpty (state.bind (fun s => s.getText "last_error"))
      revision := old.revision + 1 } := by
  unfold saved at h
  obtain ⟨n, hn, h⟩ := bind_ok.1 h
  rw [(bigint_ok.1 hn).2] at h
  exact (Except.ok.inj h).symm

theorem claimed_ok {worker : String} {seconds : Int} (h : claimed clock worker seconds old = .ok new) :
    new = { old.draft with
      state := some (old.state.concat runningPatch)
      status := some "running"
      blockedReason := none
      lastError := none
      revision := old.revision + 1
      attemptCount := old.attemptCount + 1
      leaseOwner := some worker
      leaseGeneration := old.leaseGeneration + 1
      leaseExpiresAt := some (leaseEnd clock seconds) } := by
  unfold claimed at h
  obtain ⟨n, hn, h⟩ := bind_ok.1 h
  obtain ⟨a, ha, h⟩ := bind_ok.1 h
  obtain ⟨g, hg, h⟩ := bind_ok.1 h
  rw [(bigint_ok.1 hn).2, (integer_ok.1 ha).2, (bigint_ok.1 hg).2] at h
  exact (Except.ok.inj h).symm

theorem leasedSaved_ok {status : Option String} {state : Jsonb} {seconds : Int}
    (h : leasedSaved clock status state seconds old = .ok new) :
    ∃ draft, saved status (some state) old = .ok draft ∧ new = { draft with
      leaseOwner := if status = some "running" then old.leaseOwner else none
      leaseExpiresAt := if status = some "running" then some (leaseEnd clock seconds) else none } := by
  unfold leasedSaved at h
  obtain ⟨draft, hd, h⟩ := bind_ok.1 h
  exact ⟨draft, hd, (Except.ok.inj h).symm⟩

theorem reconciled_ok {state : Jsonb} (h : reconciled state old = .ok new) :
    new = { old.draft with
      state := some (reconciledState state).2
      status := some "blocked"
      blockedReason := some (reconciledState state).1
      lastError := nullIfEmpty ((reconciledState state).2.getText "last_error")
      revision := old.revision + 1
      leaseOwner := none
      leaseExpiresAt := none } := by
  unfold reconciled at h
  obtain ⟨n, hn, h⟩ := bind_ok.1 h
  rw [(bigint_ok.1 hn).2] at h
  exact (Except.ok.inj h).symm

end Proposals

/-! ## Leases -/

/-- What a write does to the lease of a row. -/
inductive LeaseStep (call : Call) (old row : Row) : Prop
  | claimed {worker : String} (claim : call.claimant = some worker) (owner : row.leaseOwner = some worker)
      (generation : row.leaseGeneration = old.leaseGeneration + 1) (attempts : row.attemptCount = old.attemptCount + 1)
  | kept (claim : call.claimant = none) (generation : row.leaseGeneration = old.leaseGeneration)
      (attempts : row.attemptCount = old.attemptCount)
      (owner : row.leaseOwner = none ∨
        row.leaseOwner = old.leaseOwner ∧ ∀ e : Entry, e.tx.call = call → ∀ key, ¬e.Ends key)

/-- A write of a call that succeeded: the row was added, or it took the place of another. -/
theorem Effect.write {caller : Caller} {clock : Clock} {db db' : Db} {call : Call} {row : Row}
    (h : Effect caller clock db call (some row) db') :
    (Created caller db db' row ∧ call.claimant = none) ∨
      ∃ old new, Wrote caller clock db db' old row new ∧ LeaseStep call old row ∧ row.maxAttempts = old.maxAttempts ∧
        (call.claimant ≠ none ∨ call.expectedRevision = some old.revision) := by
  cases h with
  | created hc => exact .inl ⟨hc, rfl⟩
  | saved hw hnew hfree =>
    rename_i old new
    have hcol := fun {α : Type} (f : Draft → α) => hw.column f
    rw [saved_ok hnew] at hcol
    refine .inr ⟨old, new, hw, .kept rfl (hcol Draft.leaseGeneration) (hcol Draft.attemptCount) (.inl ?_),
      hcol Draft.maxAttempts, .inr rfl⟩
    exact (hcol Draft.leaseOwner).trans hfree
  | claimed hc hw hnew hdue =>
    rename_i worker seconds old new
    have hcol := fun {α : Type} (f : Draft → α) => hw.column f
    rw [claimed_ok hnew] at hcol
    refine .inr ⟨old, new, hw, .claimed hc (hcol Draft.leaseOwner) (hcol Draft.leaseGeneration) (hcol Draft.attemptCount),
      hcol Draft.maxAttempts, .inl fun hnone => ?_⟩
    rw [hnone] at hc
    nomatch hc
  | leased hw hnew hheld hexp =>
    rename_i status state worker seconds old new
    have hcol := fun {α : Type} (f : Draft → α) => hw.column f
    obtain ⟨draft, hdraft, rfl⟩ := leasedSaved_ok hnew
    rw [saved_ok hdraft] at hcol
    refine .inr ⟨old, _, hw, .kept rfl (hcol Draft.leaseGeneration) (hcol Draft.attemptCount) ?_,
      hcol Draft.maxAttempts, .inr rfl⟩
    have howner := hcol Draft.leaseOwner
    by_cases hs : status = some "running"
    · simp only [hs, if_true] at howner
      refine .inr ⟨howner, fun e he key hends => ?_⟩
      rcases hends with ⟨w, g, hcl, -⟩ | ⟨w, g, s, ⟨-, -, x, st, sec, hcall⟩, hne⟩ | ⟨g, -, -, x, st, hcall⟩
      · rw [he] at hcl
        nomatch hcl
      · rw [he] at hcall
        rw [Call.saveLeasedCheckpoint.injEq] at hcall
        exact hne (hcall.2.2.2.2.1.symm.trans hs)
      · rw [he] at hcall
        nomatch hcall
    · simp only [hs, if_false] at howner
      exact .inl howner
  | reconciled hw hnew hrun =>
    rename_i state old new
    have hcol := fun {α : Type} (f : Draft → α) => hw.column f
    rw [reconciled_ok hnew] at hcol
    exact .inr ⟨old, new, hw, .kept rfl (hcol Draft.leaseGeneration) (hcol Draft.attemptCount) (.inl (hcol Draft.leaseOwner)),
      hcol Draft.maxAttempts, .inr rfl⟩

/-! ## The tables -/

theorem Db.mem_put {tasks : List Row} {row r : Row} (h : r ∈ Db.put tasks row) :
    (r = row ∧ ∃ old ∈ tasks, old.key = row.key) ∨ (r ∈ tasks ∧ r.key ≠ row.key) := by
  obtain ⟨old, hold, hr⟩ := List.mem_map.1 h
  by_cases hk : old.key = row.key
  · rw [if_pos hk] at hr
    exact .inl ⟨hr.symm, old, hold, hk⟩
  · rw [if_neg hk] at hr
    exact .inr ⟨hr ▸ hold, hr ▸ hk⟩

theorem Db.row_mem_put {tasks : List Row} {row old : Row} (h : old ∈ tasks) (hk : row.key = old.key) : row ∈ Db.put tasks row :=
  List.mem_map.2 ⟨old, h, if_pos hk.symm⟩

theorem Db.mem_put_of_ne {tasks : List Row} {row r : Row} (h : r ∈ tasks) (hk : r.key ≠ row.key) : r ∈ Db.put tasks row :=
  List.mem_map.2 ⟨r, h, if_neg hk⟩

/-- A row written by a call that succeeded keeps the invariant of rows. -/
theorem Effect.rowInv {caller : Caller} {clock : Clock} {db db' : Db} {call : Call} {r : Option Row}
    (h : Effect caller clock db call r db') (hi : ∀ row ∈ db.tasks, RowInv row) : ∀ row ∈ db'.tasks, RowInv row := by
  intro row hrow
  cases r with
  | none =>
    cases h
    exact hi row hrow
  | some written =>
    rcases h.write with ⟨hc, -⟩ | ⟨old, new, hw, hlease, hmax, -⟩
    · rw [hc.tasks] at hrow
      rcases List.mem_append.1 hrow with hrow | hrow
      · exact hi row hrow
      · rw [List.mem_singleton.1 hrow]
        exact ⟨hc.budget.1.trans hc.lease.2.symm, hc.budget.2, hc.status⟩
    · rw [hw.tasks] at hrow
      rcases Db.mem_put hrow with ⟨rfl, -⟩ | ⟨hrow, -⟩
      · have hold := hi old hw.mem
        refine ⟨?_, hmax.trans hold.single, hw.status⟩
        cases hlease with
        | claimed claim owner generation attempts => rw [attempts, generation, hold.attempts]
        | kept claim generation attempts owner => rw [attempts, generation, hold.attempts]
      · exact hi row hrow

/-! ## The log -/

/-- The caller of a write owns the row. -/
theorem uid_of_may {caller : Caller} {userId : String} (h : caller.may userId = true) : caller.uid = some userId := by
  simp only [Caller.may, Bool.and_eq_true, decide_eq_true_eq] at h
  exact h.2

section Entries

variable {tx : Tx} {db db' : Db} {r : Option Row} {row : Row}

/-- A leased save that was accepted found the lease it names. -/
theorem Effect.saves (h : Effect tx.caller tx.clock db tx.call r db') {key : String × String} {worker : String} {generation : Int}
    {status : Option String} (hs : Entry.Saves key worker generation status ⟨tx, .ok r⟩) :
    ∃ old row, r = some row ∧ old ∈ db.tasks ∧ old.key = key ∧ row.key = key ∧ old.leaseOwner = some worker ∧
      old.leaseGeneration = generation ∧ row.leaseGeneration = generation := by
  obtain ⟨huid, hrow, expected, state, seconds, hcall⟩ := hs
  simp only [Entry.row] at huid hrow hcall
  obtain ⟨row, rfl⟩ := Option.ne_none_iff_exists'.1 hrow
  generalize tx.call = call at h hcall
  cases h with
  | created => nomatch hcall
  | saved => nomatch hcall
  | claimed hc => rw [hcall] at hc; nomatch hc
  | reconciled => nomatch hcall
  | leased hw hnew hheld hexp =>
    rename_i status state worker seconds old new
    rw [Call.saveLeasedCheckpoint.injEq] at hcall
    obtain ⟨htask, -, hworker, hgen, -⟩ := hcall
    have hcol := hw.column Draft.leaseGeneration
    obtain ⟨draft, hdraft, rfl⟩ := leasedSaved_ok hnew
    rw [saved_ok hdraft] at hcol
    have hkey : old.key = key := by
      refine Prod.ext ?_ (Option.some.inj htask)
      rw [uid_of_may hw.may] at huid
      exact Option.some.inj huid
    exact ⟨old, row, rfl, hw.mem, hkey, hw.key.trans hkey, hheld.trans hworker, Option.some.inj hgen,
      hcol.trans (Option.some.inj hgen)⟩

/-- A reconciliation that was accepted found the generation it names. -/
theorem Effect.reconciles (h : Effect tx.caller tx.clock db tx.call r db') {key : String × String} {generation : Int}
    (hs : Entry.Reconciles key generation ⟨tx, .ok r⟩) :
    ∃ row, r = some row ∧ row.key = key ∧ row.leaseGeneration = generation := by
  obtain ⟨huid, hrow, expected, state, hcall⟩ := hs
  simp only [Entry.row] at huid hrow hcall
  obtain ⟨row, rfl⟩ := Option.ne_none_iff_exists'.1 hrow
  generalize tx.call = call at h hcall
  cases h with
  | created => nomatch hcall
  | saved => nomatch hcall
  | claimed hc => rw [hcall] at hc; nomatch hc
  | leased => nomatch hcall
  | reconciled hw hnew hrun =>
    rename_i state old new
    rw [Call.reconcileExpiredLease.injEq] at hcall
    obtain ⟨htask, -, hgen, -⟩ := hcall
    have hcol := hw.column Draft.leaseGeneration
    rw [reconciled_ok hnew] at hcol
    have hkey : old.key = key := by
      refine Prod.ext ?_ (Option.some.inj htask)
      rw [uid_of_may hw.may] at huid
      exact Option.some.inj huid
    exact ⟨row, rfl, hw.key.trans hkey, hcol.trans (Option.some.inj hgen)⟩

/-- An entry about a generation is one that wrote the row, and the row has the generation. -/
theorem Effect.carries (h : Effect tx.caller tx.clock db tx.call r db') {key : String × String} {generation : Int}
    (hc : Entry.Carries key generation ⟨tx, .ok r⟩) : ∃ row, r = some row ∧ row.key = key ∧ row.leaseGeneration = generation := by
  rcases hc with ⟨worker, -, row, hrow, hk, hg⟩ | ⟨worker, status, hs⟩ | hr
  · exact ⟨row, hrow, hk, hg⟩
  · obtain ⟨old, row, hrow, -, -, hk, -, -, hg⟩ := h.saves hs
    exact ⟨row, hrow, hk, hg⟩
  · exact h.reconciles hr

/-- An entry that ends a lease is about a generation. -/
theorem Entry.Ends.carries {key : String × String} {e : Entry} (h : e.Ends key) : ∃ generation, e.Carries key generation := by
  rcases h with ⟨worker, generation, h⟩ | ⟨worker, generation, status, h, -⟩ | ⟨generation, h⟩
  · exact ⟨generation, .inl ⟨worker, h⟩⟩
  · exact ⟨generation, .inr (.inl ⟨worker, status, h⟩)⟩
  · exact ⟨generation, .inr (.inr h)⟩

/-- An entry that wrote nothing is about no generation. -/
theorem Entry.not_carries {e : Entry} (h : e.row = none) (key : String × String) (generation : Int) : ¬e.Carries key generation := by
  rintro (⟨worker, -, row, hrow, -⟩ | ⟨worker, status, -, hrow, -⟩ | ⟨-, hrow, -⟩)
  · rw [h] at hrow
    nomatch hrow
  · exact hrow h
  · exact hrow h

end Entries

/-! ## The invariant -/

/-- How the tables stand to the log. -/
structure QueueInv (w : World) : Prop where
  rows : ∀ row ∈ w.db.tasks, RowInv row
  held : ∀ row ∈ w.db.tasks, ∀ worker, row.leaseOwner = some worker →
    Log.Since (Entry.Claims row.key worker row.leaseGeneration) (Entry.Ends row.key) w.log
  claims : ∀ row ∈ w.db.tasks, (w.log.countP (Entry.isClaim row.key) : Int) = row.leaseGeneration
  unclaimed : ∀ key, key ∉ w.db.tasks.map Row.key → w.log.countP (Entry.isClaim key) = 0
  carried : ∀ e ∈ w.log, ∀ key generation, e.Carries key generation →
    ∃ row ∈ w.db.tasks, row.key = key ∧ generation ≤ row.leaseGeneration
  growing : Log.Holds (fun pre e => ∀ key worker generation, e.Claims key worker generation →
    ∀ e' ∈ pre, ∀ earlier, e'.Carries key earlier → earlier < generation) w.log
  fenced : Log.Holds (fun pre e => ∀ key worker generation status, e.Saves key worker generation status →
    Log.Since (Entry.Claims key worker generation) (Entry.Ends key) pre) w.log

theorem queueInv_initial : QueueInv World.initial where
  rows := fun _ h => nomatch h
  held := fun _ h => nomatch h
  claims := fun _ h => nomatch h
  unclaimed := fun _ _ => rfl
  carried := fun _ h => nomatch h
  growing := Log.holds_nil _
  fenced := Log.holds_nil _

/-- The number of claims after an entry that is none. -/
theorem countP_append_of_not {p : Entry → Bool} {log : List Entry} {e : Entry} (h : p e = false) :
    (log ++ [e]).countP p = log.countP p := by
  rw [List.countP_append, List.countP_singleton, h]
  rfl

theorem countP_append_of {p : Entry → Bool} {log : List Entry} {e : Entry} (h : p e = true) :
    (log ++ [e]).countP p = log.countP p + 1 := by
  rw [List.countP_append, List.countP_singleton, h]
  rfl

/-- A transaction that wrote nothing keeps the invariant. -/
theorem QueueInv.idle {w : World} (hi : QueueInv w) {e : Entry} (he : e.row = none) :
    QueueInv { w with log := w.log ++ [e] } := by
  have hnc := fun key generation => Entry.not_carries he key generation
  have hnotclaim : ∀ key, e.isClaim key = false := fun key => by simp [Entry.isClaim, he]
  refine ⟨hi.rows, fun row hrow worker ho => ?_, fun row hrow => ?_, fun key hk => ?_, fun e' he' key g hc => ?_, ?_, ?_⟩
  · refine (hi.held row hrow worker ho).append fun hends => ?_
    obtain ⟨g, hg⟩ := hends.carries
    exact hnc _ _ hg
  · simp only [countP_append_of_not (hnotclaim _)]
    exact hi.claims row hrow
  · simp only [countP_append_of_not (hnotclaim _)]
    exact hi.unclaimed key hk
  · rcases List.mem_append.1 he' with he' | he'
    · exact hi.carried e' he' key g hc
    · rw [List.mem_singleton.1 he'] at hc
      exact absurd hc (hnc _ _)
  · exact hi.growing.append fun key worker g hc => absurd (.inl ⟨worker, hc⟩) (hnc key g)
  · exact hi.fenced.append fun key worker g status hs => absurd (.inr (.inl ⟨worker, status, hs⟩)) (hnc key g)

section Write

variable {w : World} {tx : Tx} {db' : Db} {row : Row}

/-- A written row is the only one its entry is about. -/
theorem not_ends_of_ne (h : Effect tx.caller tx.clock w.db tx.call (some row) db') {key : String × String} (hk : key ≠ row.key) :
    ¬Entry.Ends key ⟨tx, .ok (some row)⟩ := by
  intro hends
  obtain ⟨g, hg⟩ := hends.carries
  obtain ⟨row', hrow, hkey, -⟩ := h.carries hg
  cases hrow
  exact hk hkey.symm

theorem isClaim_of_ne {key : String × String} (hk : key ≠ row.key) : Entry.isClaim key ⟨tx, .ok (some row)⟩ = false := by
  simp only [Entry.isClaim, Entry.row, Option.any_some, Bool.and_eq_false_iff, decide_eq_false_iff_not]
  exact .inr fun h => hk h.symm

theorem isClaim_of_claimant (hc : tx.call.claimant = none) (key : String × String) :
    Entry.isClaim key ⟨tx, .ok (some row)⟩ = false := by
  simp [Entry.isClaim, hc]

/-- The rows that were not written keep their part of the invariant. -/
theorem QueueInv.other (hi : QueueInv w) (h : Effect tx.caller tx.clock w.db tx.call (some row) db') {r : Row}
    (hr : r ∈ w.db.tasks) (hk : r.key ≠ row.key) :
    (∀ worker, r.leaseOwner = some worker →
      Log.Since (Entry.Claims r.key worker r.leaseGeneration) (Entry.Ends r.key) (w.log ++ [⟨tx, .ok (some row)⟩])) ∧
    ((w.log ++ [(⟨tx, .ok (some row)⟩ : Entry)]).countP (Entry.isClaim r.key) : Int) = r.leaseGeneration := by
  refine ⟨fun worker ho => (hi.held r hr worker ho).append (not_ends_of_ne h hk), ?_⟩
  rw [countP_append_of_not (isClaim_of_ne hk)]
  exact hi.claims r hr

/-- A transaction that added a row keeps the invariant. -/
theorem QueueInv.create (hi : QueueInv w) (h : Effect tx.caller tx.clock w.db tx.call (some row) db')
    (hc : Created tx.caller w.db db' row) (hno : tx.call.claimant = none) :
    QueueInv { db := db', log := w.log ++ [⟨tx, .ok (some row)⟩] } := by
  have hne : ∀ r ∈ w.db.tasks, r.key ≠ row.key := fun r hr hk => hc.fresh (hk ▸ List.mem_map_of_mem hr)
  refine ⟨h.rowInv hi.rows, fun r hr worker ho => ?_, fun r hr => ?_, fun key hk => ?_, fun e he key g hg => ?_, ?_, ?_⟩
  · simp only [hc.tasks] at hr
    rcases List.mem_append.1 hr with hr | hr
    · exact (hi.other h hr (hne r hr)).1 worker ho
    · rw [List.mem_singleton.1 hr, hc.lease.1] at ho
      nomatch ho
  · simp only [hc.tasks] at hr
    rcases List.mem_append.1 hr with hr | hr
    · exact (hi.other h hr (hne r hr)).2
    · rw [List.mem_singleton.1 hr]
      simp only [countP_append_of_not (isClaim_of_claimant hno _), hi.unclaimed _ hc.fresh, hc.lease.2, Nat.cast_zero]
  · simp only [hc.tasks, List.map_append, List.mem_append, not_or] at hk
    simp only [countP_append_of_not (isClaim_of_claimant hno _)]
    exact hi.unclaimed key hk.1
  · simp only [hc.tasks]
    rcases List.mem_append.1 he with he | he
    · obtain ⟨r, hr, hkey, hle⟩ := hi.carried e he key g hg
      exact ⟨r, List.mem_append_left _ hr, hkey, hle⟩
    · rw [List.mem_singleton.1 he] at hg
      obtain ⟨row', hrow, hkey, hgen⟩ := h.carries hg
      cases hrow
      exact ⟨row, List.mem_append_right _ (List.mem_singleton_self _), hkey, hgen.ge⟩
  · refine hi.growing.append fun key worker g hcl => ?_
    obtain ⟨hcl, -⟩ := hcl
    simp only [hno] at hcl
    nomatch hcl
  · refine hi.fenced.append fun key worker g status hs => ?_
    obtain ⟨old, row', hrow, hold, hkey, hkey', -⟩ := h.saves hs
    cases hrow
    exact absurd (hkey.trans hkey'.symm) (hne old hold)

/-- A transaction that replaced a row keeps the invariant. -/
theorem QueueInv.replace (hi : QueueInv w) (h : Effect tx.caller tx.clock w.db tx.call (some row) db') {old : Row} {new : Draft}
    (hw : Wrote tx.caller tx.clock w.db db' old row new) (hl : LeaseStep tx.call old row) :
    QueueInv { db := db', log := w.log ++ [⟨tx, .ok (some row)⟩] } := by
  have hkeys : db'.tasks.map Row.key = w.db.tasks.map Row.key := by rw [hw.tasks, Db.map_key_put]
  have hgrow : old.leaseGeneration ≤ row.leaseGeneration := by
    cases hl with
    | claimed claim owner generation attempts => omega
    | kept claim generation attempts owner => omega
  have hentry : Entry.isClaim row.key ⟨tx, .ok (some row)⟩ = tx.call.claimant.isSome := by
    simp [Entry.isClaim, Entry.row]
  refine ⟨h.rowInv hi.rows, fun r hr worker ho => ?_, fun r hr => ?_, fun key hk => ?_, fun e he key g hg => ?_, ?_, ?_⟩
  · simp only [hw.tasks] at hr
    rcases Db.mem_put hr with ⟨rfl, -⟩ | ⟨hr, hk⟩
    · cases hl with
      | claimed claim owner generation attempts =>
        refine Log.Since.start _ ⟨?_, r, rfl, rfl, rfl⟩
        rw [claim, ← ho, owner]
      | kept claim generation attempts owner =>
        rcases owner with hnone | ⟨howner, hends⟩
        · rw [hnone] at ho
          nomatch ho
        · rw [howner] at ho
          rw [hw.key, generation]
          exact (hi.held old hw.mem worker ho).append (hends _ rfl _)
    · exact (hi.other h hr hk).1 worker ho
  · simp only [hw.tasks] at hr
    rcases Db.mem_put hr with ⟨rfl, -⟩ | ⟨hr, hk⟩
    · have hcount := hi.claims old hw.mem
      rw [← hw.key] at hcount
      cases hl with
      | claimed claim owner generation attempts =>
        rw [countP_append_of (by rw [hentry, claim]; rfl), generation, ← hcount]
        push_cast
        rfl
      | kept claim generation attempts owner =>
        rw [countP_append_of_not (by rw [hentry, claim]; rfl), generation, hcount]
    · exact (hi.other h hr hk).2
  · rw [hkeys] at hk
    have hne : key ≠ row.key := by
      rintro rfl
      exact hk (hw.key ▸ List.mem_map_of_mem hw.mem)
    rw [countP_append_of_not (isClaim_of_ne hne)]
    exact hi.unclaimed key hk
  · simp only [hw.tasks]
    rcases List.mem_append.1 he with he | he
    · obtain ⟨r, hr, hkey, hle⟩ := hi.carried e he key g hg
      by_cases hk : r.key = row.key
      · have hro : r = old := Db.eq_of_key hr hw.mem (hk.trans hw.key)
        refine ⟨row, Db.row_mem_put hw.mem hw.key, hk.symm.trans hkey, ?_⟩
        rw [hro] at hle
        omega
      · exact ⟨r, Db.mem_put_of_ne hr hk, hkey, hle⟩
    · rw [List.mem_singleton.1 he] at hg
      obtain ⟨row', hrow, hkey, hgen⟩ := h.carries hg
      cases hrow
      exact ⟨row, Db.row_mem_put hw.mem hw.key, hkey, hgen.ge⟩
  · refine hi.growing.append fun key worker g hcl e' he' earlier hc => ?_
    obtain ⟨hclaim, row', hrow, hkey, hgen⟩ := hcl
    cases hrow
    obtain ⟨r, hr, hkey', hle⟩ := hi.carried e' he' key earlier hc
    have hro : r = old := Db.eq_of_key hr hw.mem (hkey'.trans (hkey.symm.trans hw.key))
    rw [hro] at hle
    cases hl with
    | claimed claim owner generation attempts => omega
    | kept claim generation attempts owner =>
      simp only [claim] at hclaim
      nomatch hclaim
  · refine hi.fenced.append fun key worker g status hs => ?_
    obtain ⟨old', row', hrow, hold, hkey, -, howner, hgen, -⟩ := h.saves hs
    have := hi.held old' hold worker howner
    rwa [hkey, hgen] at this

end Write

/-- A transaction keeps the invariant. -/
theorem transact_inv {w : World} (hi : QueueInv w) (tx : Tx) : QueueInv (w.transact tx) := by
  unfold World.transact
  split
  · rename_i r db' hrun
    have h := Call.run_ok hrun
    cases r with
    | none =>
      have hdb : db' = w.db := by
        generalize tx.call = call at h
        cases h
        rfl
      rw [hdb]
      exact hi.idle rfl
    | some row =>
      rcases h.write with ⟨hc, hno⟩ | ⟨old, new, hw, hl, -, -⟩
      · exact hi.create h hc hno
      · exact hi.replace h hw hl
  · exact hi.idle rfl

/-- One transaction more. -/
theorem history_append (txs : List Tx) (tx : Tx) : history (txs ++ [tx]) = (history txs).transact tx := by
  rw [history, List.foldl_append]
  rfl

/-- The invariant holds after every sequence of transactions. -/
theorem history_inv (txs : List Tx) : QueueInv (history txs) := by
  induction txs using List.reverseRecOn with
  | nil => exact queueInv_initial
  | append_singleton txs tx ih =>
    rw [history_append]
    exact transact_inv ih tx

end Keirin.Queue

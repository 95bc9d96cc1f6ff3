import Keirin.Lemmas.QueueInv

/-!
# What every row satisfies

Six functions and a trigger change the rows of the queue. Whatever calls are made, by whomever and at whatever times: the
columns of a row agree with each other, a write that is accepted replaces exactly one row by its next revision, and a
completed row stays as it is.
-/

namespace Keirin

namespace Queue

/-- What the columns of a row satisfy. -/
structure RowOk (row : Row) : Prop where
  attempts : row.attemptCount = row.leaseGeneration ∧ row.leaseGeneration ≤ row.maxAttempts
  pair : row.leaseOwner = none ↔ row.leaseExpiresAt = none
  running : row.leaseOwner ≠ none → row.status = .running
  status : row.state.get? "status" = some (.str row.status.stateText)

/-- What a call did to the tables, by the row it wrote. -/
inductive Change (call : Call) (db db' : Db) : Option Row → Prop
  | unchanged (h : db' = db) : Change call db db' none
  | added {row : Row} (tasks : db'.tasks = db.tasks ++ [row]) (fresh : row.key ∉ db.tasks.map Row.key)
      (revision : row.revision = 0) : Change call db db' (some row)
  | replaced {old row : Row} (mem : old ∈ db.tasks) (tasks : db'.tasks = Db.put db.tasks row) (key : row.key = old.key)
      (revision : row.revision = old.revision + 1)
      (named : call.claimant ≠ none ∨ call.expectedRevision = some old.revision)
      (definition : row.spec = old.spec ∧ row.specFingerprint = old.specFingerprint ∧ row.idempotencyKey = old.idempotencyKey)
      (live : old.status ≠ .completed) : Change call db db' (some row)

/-- Whether the transaction wrote the row of the key. -/
def Entry.wrote (key : String × String) (e : Entry) : Bool := e.row.any (fun row => row.key = key)

/-- What became of a row while the transactions `es` went on. -/
structure Later (es : List Entry) (row later : Row) : Prop where
  key : later.key = row.key
  definition : later.spec = row.spec ∧ later.specFingerprint = row.specFingerprint ∧ later.idempotencyKey = row.idempotencyKey
  revision : later.revision = row.revision + es.countP (Entry.wrote row.key)
  completed : row.status = .completed → later = row

/-- A transaction leaves one entry in the log, and changes the tables by the row it wrote. -/
theorem transact_change (w : World) (tx : Tx) :
    ∃ e, (w.transact tx).log = w.log ++ [e] ∧ e.tx = tx ∧ Change tx.call w.db (w.transact tx).db e.row := by
  unfold World.transact
  split
  · rename_i r db' hrun
    refine ⟨_, rfl, rfl, ?_⟩
    have h := Call.run_ok hrun
    cases r with
    | none =>
      refine .unchanged ?_
      generalize tx.call = call at h
      cases h
      rfl
    | some row =>
      rcases h.write with ⟨hc, -⟩ | ⟨old, new, hw, -, -, hnamed⟩
      · exact .added hc.tasks hc.fresh hc.revision
      · exact .replaced hw.mem hw.tasks hw.key hw.revision hnamed hw.definition hw.live
  · exact ⟨_, rfl, rfl, .unchanged rfl⟩

/-- A change leaves a row under its key. -/
theorem Change.later {call : Call} {db db' : Db} {e : Entry} (h : Change call db db' e.row) {row : Row} (hr : row ∈ db.tasks) :
    ∃ later ∈ db'.tasks, Later [e] row later := by
  have hsame : Entry.wrote row.key e = false → Later [e] row row := by
    intro hno
    refine ⟨rfl, ⟨rfl, rfl, rfl⟩, ?_, fun _ => rfl⟩
    rw [List.countP_singleton, hno]
    simp
  unfold Entry.wrote at hsame
  generalize hrow : e.row = written at h hsame
  cases h with
  | unchanged hdb => exact ⟨row, hdb ▸ hr, hsame rfl⟩
  | added tasks fresh revision =>
    rename_i new
    refine ⟨row, ?_, hsame ?_⟩
    · rw [tasks]
      exact List.mem_append_left _ hr
    · simp only [Option.any_some, decide_eq_false_iff_not]
      intro hk
      exact fresh (hk ▸ List.mem_map_of_mem hr)
  | replaced mem tasks key revision named definition live =>
    rename_i old new
    rw [tasks]
    by_cases hk : row.key = new.key
    · have hro : row = old := Db.eq_of_key hr mem (hk.trans key)
      subst hro
      refine ⟨new, Db.row_mem_put mem key, key, definition, ?_, fun hc => absurd hc live⟩
      rw [revision, List.countP_singleton, Entry.wrote, hrow]
      simp [hk]
    · refine ⟨row, Db.mem_put_of_ne hr hk, hsame ?_⟩
      simp only [Option.any_some, decide_eq_false_iff_not]
      exact fun h => hk h.symm

/-- What became of a row over two periods. -/
theorem Later.trans {es es' : List Entry} {a b c : Row} (h : Later es a b) (h' : Later es' b c) : Later (es ++ es') a c := by
  obtain ⟨hkey, ⟨hs, hf, hi⟩, hrev, hcomp⟩ := h
  obtain ⟨hkey', ⟨hs', hf', hi'⟩, hrev', hcomp'⟩ := h'
  refine ⟨hkey'.trans hkey, ⟨hs'.trans hs, hf'.trans hf, hi'.trans hi⟩, ?_, fun hc => ?_⟩
  · rw [hrev', hrev, hkey, List.countP_append]
    push_cast
    ring
  · have hb := hcomp hc
    subst hb
    exact hcomp' hc

/-- A row stays under its key through any further transactions. -/
theorem row_later (txs more : List Tx) : ∃ es, (history (txs ++ more)).log = (history txs).log ++ es ∧
    ∀ row ∈ (history txs).db.tasks, ∃ later ∈ (history (txs ++ more)).db.tasks, Later es row later := by
  induction more using List.reverseRecOn with
  | nil =>
    refine ⟨[], by simp, fun row hr => ⟨row, by simpa using hr, rfl, ⟨rfl, rfl, rfl⟩, ?_, fun _ => rfl⟩⟩
    simp
  | append_singleton more tx ih =>
    obtain ⟨es, hlog, hlater⟩ := ih
    obtain ⟨e, he, -, hchange⟩ := transact_change (history (txs ++ more)) tx
    rw [← List.append_assoc, history_append]
    refine ⟨es ++ [e], by rw [he, hlog, List.append_assoc], fun row hr => ?_⟩
    obtain ⟨mid, hmid, hl⟩ := hlater row hr
    obtain ⟨later, hmem, hl'⟩ := hchange.later hmid
    exact ⟨later, hmem, hl.trans hl'⟩

/-- After any sequence of calls, accepted or rejected, every row satisfies `RowOk`; a further call leaves the tables as they
are, adds a row at revision 0, or replaces one row that is not completed by its next revision, which a save or a
reconciliation named; and through any further calls a row keeps its definition, counts the writes to it in its revision,
and stays as it is once completed. -/
theorem row_invariants (txs : List Tx) :
    (∀ row ∈ (history txs).db.tasks, RowOk row) ∧
    (∀ tx, ∃ e, (history (txs ++ [tx])).log = (history txs).log ++ [e] ∧ e.tx = tx ∧
      Change tx.call (history txs).db (history (txs ++ [tx])).db e.row) ∧
    (∀ more, ∃ es, (history (txs ++ more)).log = (history txs).log ++ es ∧
      ∀ row ∈ (history txs).db.tasks, ∃ later ∈ (history (txs ++ more)).db.tasks, Later es row later) := by
  refine ⟨fun row hr => ?_, fun tx => ?_, fun more => row_later txs more⟩
  · have hi := (history_inv txs).rows row hr
    exact ⟨⟨hi.attempts, hi.attempts ▸ row.budget⟩, row.pair, row.running_of_leased, hi.status⟩
  · rw [history_append]
    exact transact_change _ tx

end Queue

end Keirin

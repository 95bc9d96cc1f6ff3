import Keirin.Lemmas.HostedClients
import Keirin.Theorems.RowInvariants

/-!
# The invariant of the hosted system

What every item of the log satisfies (`ItemOk`), how the rows that were written or read stand to the table (`WorldOk`), and what a
client was told to the log (`KnownTo`). A statement, a call and whatever else a command does keeps the three.
-/

namespace Keirin

namespace Hosted

open QueueEdge (EdgeCmd EdgeReply DbError)
open Queue (Row Entry)

variable {T : Type} {env : Env T}

/-! ## Definitions -/

/-- A call of an action stands on the log before it: an authorised worker claimed a task, the database accepted a running state of the
task from it, and the call is told the task. The action only reads; where it is the action of a step that is not retry-safe, the
worker called it no earlier. -/
def Authorized (env : Env T) (pre : List (Item T)) (t : T) (call : ActionCall) : Prop :=
  ∃ mode registry workerId leaseSeconds, env.client t = .runNext true mode registry workerId leaseSeconds ∧
    (call.action, .read) ∈ registry ∧
    ∃ claim row spec, .entry t claim ∈ pre ∧ claim.tx.call.claimant = some workerId ∧ claim.row = some row ∧
      Dict.get? "task_id" call.context = some (.str row.taskId) ∧ definition env.repr row = .ok spec ∧
      (∃ save generation, .entry t save ∈ pre ∧ save.Saves row.key workerId generation (some "running")) ∧
      (call.phase = .action → ∃ step ∈ spec.steps, call.stepId = step.stepId ∧
        (step.retrySafe = false → ∀ earlier, .invoked t earlier ∈ pre → earlier.phase = .action → earlier.stepId ≠ call.stepId))

/-- What an item of the log satisfies, by the log before it. -/
def ItemOk (env : Env T) (pre : List (Item T)) : Item T → Prop
  | .entry t e => e.tx.caller = env.caller t ∧ ∀ row, e.row = some row → (env.caller t).uid = some row.userId
  | .read t taskId found _ => ∀ row, found = some row → row.taskId = taskId ∧ (env.caller t).uid = some row.userId ∧
      ((entries pre).countP (Entry.isClaim row.key) : ℤ) = row.attemptCount
  | .invoked t call => Authorized env pre t call

/-- A row was written, or read. -/
def Seen (log : List (Item T)) (row : Row) : Prop :=
  (∃ t e, .entry t e ∈ log ∧ e.row = some row) ∨ ∃ t taskId ledger, .read t taskId (some row) ledger ∈ log

structure WorldOk (env : Env T) (w : World T) : Prop where
  queue : Queue.QueueInv w.queue
  seen : ∀ row, Seen w.log row → ∃ current ∈ w.db.tasks, current.key = row.key ∧ current.spec = row.spec
  items : Log.Holds (ItemOk env) w.log

/-- What a client was told goes back to the log. -/
structure KnownTo (t : T) (told : Told) (w : World T) : Prop where
  transacts : ∀ call row, toldOf told (.transact call) (.ok row) →
    ∃ e locked, .entry t e ∈ w.log ∧ e.tx.call = withLocked locked call ∧ e.outcome = .ok row
  selects : ∀ taskId found, toldOf told (.select taskId) (.ok found) → ∃ ledger, .read t taskId found ledger ∈ w.log
  invoked : ∀ call, .invoked t call ∈ w.log → call ∈ toldCalls told

/-- The contract of the clients: a command of a client adds items of the client to the log. -/
def contract (env : Env T) : Contract T (World T) :=
  { inv := WorldOk env
    guar := fun t a b => ∃ items, b.log = a.log ++ items ∧ ∀ i ∈ items, i.thread = t }

/-- A client that has done nothing yet. -/
def Fresh (t : T) (w : World T) : Prop := ∀ i ∈ w.log, i.thread ≠ t

/-! ## The log -/

theorem worldOk_initial : WorldOk env (World.initial : World T) where
  queue := Queue.queueInv_initial
  seen := by
    rintro row (⟨t, e, h, -⟩ | ⟨t, taskId, ledger, h⟩)
    · cases h
    · cases h
  items := Log.holds_nil _

/-- An item of the log stands where it is in order. -/
theorem WorldOk.item {w : World T} (h : WorldOk env w) {i : Item T} (hi : i ∈ w.log) :
    ∃ pre post, w.log = pre ++ i :: post ∧ ItemOk env pre i := by
  obtain ⟨pre, post, hlog⟩ := List.append_of_mem hi
  exact ⟨pre, post, hlog, h.items pre i post hlog⟩

section Seen

variable {log : List (Item T)} {row : Row}

theorem seen_append {i : Item T} (h : Seen (log ++ [i]) row) : Seen log row ∨ Seen [i] row := by
  rcases h with ⟨t, e, hmem, hrow⟩ | ⟨t, taskId, ledger, hmem⟩
  · rcases List.mem_append.1 hmem with hmem | hmem
    · exact .inl (.inl ⟨t, e, hmem, hrow⟩)
    · exact .inr (.inl ⟨t, e, hmem, hrow⟩)
  · rcases List.mem_append.1 hmem with hmem | hmem
    · exact .inl (.inr ⟨t, taskId, ledger, hmem⟩)
    · exact .inr (.inr ⟨t, taskId, ledger, hmem⟩)

end Seen

/-! ## Transactions -/

section Transact

variable {iso : ℤ → String} {caller : Queue.Caller} {t : T} {d : Decision} {call : Queue.Call} {w w' : World T}
  {r : Except DbError (Option Row)}

/-- A transaction of a client is one of the queue, and its entry is the client's. -/
theorem transact_queue (h : transact iso caller t d call w = some (r, w')) :
    ∃ e, w'.log = w.log ++ [.entry t e] ∧ e.tx.caller = caller ∧ e.tx.call = withLocked d.locked call ∧
      w'.queue = w.queue.transact e.tx ∧ w'.queue.log = w.queue.log ++ [e] ∧ ∀ row, r = .ok row → e.outcome = .ok row := by
  have hentries (e : Entry) : entries (w.log ++ [.entry t e]) = entries w.log ++ [e] := by
    unfold entries
    rw [List.filterMap_append]
    rfl
  unfold transact at h
  dsimp only at h
  split at h
  · rename_i e hrun
    cases h
    refine ⟨_, rfl, rfl, rfl, ?_, hentries _, fun row hrow => by cases hrow⟩
    unfold World.queue Queue.World.transact
    dsimp only
    rw [hrun, hentries]
  · rename_i row db hrun
    split at h
    · obtain ⟨table, -, h⟩ := Option.map_eq_some_iff.1 h
      cases h
      refine ⟨_, rfl, rfl, rfl, ?_, hentries _, fun row hrow => ?_⟩
      · unfold World.queue Queue.World.transact
        dsimp only
        rw [hrun, hentries]
      · cases hrow
        rfl
    · cases h

end Transact

/-- A row that a transaction wrote is in the table, and it is the caller's. -/
theorem written {w : Queue.World} {tx : Queue.Tx} {e : Entry} (hlog : (w.transact tx).log = w.log ++ [e]) {row : Row}
    (hrow : e.row = some row) : row ∈ (w.transact tx).db.tasks ∧ tx.caller.uid = some row.userId := by
  unfold Queue.World.transact at hlog ⊢
  split at hlog
  · rename_i found db hrun
    have he : e = ⟨tx, .ok found⟩ := (List.singleton_inj.1 (List.append_cancel_left hlog)).symm
    subst he
    cases hrow
    dsimp only
    rcases (Queue.Call.run_ok hrun).write with ⟨hc, -⟩ | ⟨old, new, hw, -, -, -⟩
    · refine ⟨?_, Queue.uid_of_may hc.may⟩
      rw [hc.tasks]
      exact List.mem_append_right _ (List.mem_singleton_self _)
    · refine ⟨?_, ?_⟩
      · rw [hw.tasks]
        exact Queue.Db.row_mem_put hw.mem hw.key
      · have huser : row.userId = old.userId := congrArg Prod.fst hw.key
        rw [huser]
        exact Queue.uid_of_may hw.may
  · have he : e = ⟨tx, .error _⟩ := (List.singleton_inj.1 (List.append_cancel_left hlog)).symm
    subst he
    cases hrow

section Steps

variable {t : T} {d : Decision} {w w' : World T}

/-- A transaction of a client keeps the invariant. -/
theorem WorldOk.transact (h : WorldOk env w) {call : Queue.Call} {r : Except DbError (Option Row)}
    (htx : transact env.iso (env.caller t) t d call w = some (r, w')) : WorldOk env w' := by
  obtain ⟨e, hlog, hcaller, -, hqueue, hentries, -⟩ := transact_queue htx
  have hwritten : ∀ row, e.row = some row → row ∈ w'.db.tasks ∧ (env.caller t).uid = some row.userId := by
    intro row hrow
    have hw : row ∈ (w.queue.transact e.tx).db.tasks ∧ e.tx.caller.uid = some row.userId := written (hqueue ▸ hentries) hrow
    rw [← hqueue, hcaller] at hw
    exact hw
  refine ⟨hqueue ▸ Queue.transact_inv h.queue e.tx, fun row hseen => ?_, ?_⟩
  · rw [hlog] at hseen
    rcases seen_append hseen with hold | hnew
    · obtain ⟨current, hmem, hkey, hspec⟩ := h.seen row hold
      obtain ⟨e', hlog', -, hchange⟩ := Queue.transact_change w.queue e.tx
      obtain ⟨later, hlater, hl⟩ := hchange.later hmem
      rw [← hqueue] at hlater
      exact ⟨later, hlater, hl.key.trans hkey, hl.definition.1.trans hspec⟩
    · rcases hnew with ⟨t', e', hmem, hrow⟩ | ⟨t', taskId, ledger, hmem⟩
      · cases List.mem_singleton.1 hmem
        exact ⟨row, (hwritten row hrow).1, rfl, rfl⟩
      · cases List.mem_singleton.1 hmem
  · rw [hlog]
    exact h.items.append ⟨hcaller, fun row hrow => (hwritten row hrow).2⟩

/-- A row that a client sees is the client's. -/
theorem visible {caller : Queue.Caller} {db : Queue.Db} {taskId : String} {row : Row} (h : visibleRow caller db taskId = some row) :
    row ∈ db.tasks ∧ row.taskId = taskId ∧ caller.uid = some row.userId := by
  unfold visibleRow at h
  have hp := List.find?_some h
  rw [Bool.and_eq_true, decide_eq_true_eq] at hp
  exact ⟨List.mem_of_find?_eq_some h, hp.2, Queue.uid_of_may hp.1⟩

/-- The reading of a row keeps the invariant. -/
theorem WorldOk.read (h : WorldOk env w) (taskId : String) (ledger : List Activity.EventRow) :
    WorldOk env { w with log := w.log ++ [.read t taskId (visibleRow (env.caller t) w.db taskId) ledger] } := by
  have hentries : entries (w.log ++ [.read t taskId (visibleRow (env.caller t) w.db taskId) ledger]) = entries w.log := by
    unfold entries
    rw [List.filterMap_append]
    exact List.append_nil _
  refine ⟨?_, fun row hseen => ?_, h.items.append fun row hrow => ?_⟩
  · unfold World.queue
    dsimp only
    rw [hentries]
    exact h.queue
  · rcases seen_append hseen with hold | hnew
    · exact h.seen row hold
    · rcases hnew with ⟨t', e', hmem, hrow⟩ | ⟨t', taskId', ledger', hmem⟩
      · cases List.mem_singleton.1 hmem
      · have hrow := List.mem_singleton.1 hmem
        simp only [Item.read.injEq] at hrow
        exact ⟨row, (visible hrow.2.2.1.symm).1, rfl, rfl⟩
  · obtain ⟨hmem, htask, huid⟩ := visible hrow
    refine ⟨htask, huid, ?_⟩
    rw [(h.queue.rows row hmem).attempts]
    exact h.queue.claims row hmem

/-- A call that is authorised keeps the invariant. -/
theorem WorldOk.invoke (h : WorldOk env w) {call : ActionCall} (hcall : Authorized env w.log t call) :
    WorldOk env { w with log := w.log ++ [.invoked t call] } := by
  have hentries : entries (w.log ++ [.invoked t call]) = entries w.log := by
    unfold entries
    rw [List.filterMap_append]
    exact List.append_nil _
  refine ⟨?_, fun row hseen => ?_, h.items.append hcall⟩
  · unfold World.queue
    dsimp only
    rw [hentries]
    exact h.queue
  · rcases seen_append hseen with hold | hnew
    · exact h.seen row hold
    · rcases hnew with ⟨t', e', hmem, hrow⟩ | ⟨t', taskId', ledger', hmem⟩
      · cases List.mem_singleton.1 hmem
      · cases List.mem_singleton.1 hmem

/-- The ledger is no part of the invariant. -/
theorem WorldOk.table (h : WorldOk env w) (table : Activity.Table) : WorldOk env { w with table := table } :=
  ⟨h.queue, h.seen, h.items⟩

/-! ## Calls -/

/-- Two rows that were seen under one key have one definition. -/
theorem WorldOk.definition_eq (h : WorldOk env w) {row found : Row} (hrow : Seen w.log row) (hfound : Seen w.log found)
    (hkey : row.key = found.key) : definition env.repr row = definition env.repr found := by
  obtain ⟨current, hmem, hk, hspec⟩ := h.seen row hrow
  obtain ⟨current', hmem', hk', hspec'⟩ := h.seen found hfound
  have hsame : current = current' := Queue.Db.eq_of_key hmem hmem' (hk.trans (hkey.trans hk'.symm))
  unfold definition
  rw [← hspec, ← hspec', hsame]

/-- A transaction a client was told of stands in the log. -/
theorem WorldOk.told_entry (h : WorldOk env w) {told : Told} (hk : KnownTo t told w) {call : Queue.Call} {row : Row}
    (htold : toldOf told (.transact call) (.ok (some row))) :
    ∃ e locked, .entry t e ∈ w.log ∧ e.tx.call = withLocked locked call ∧ e.row = some row ∧ e.tx.caller = env.caller t ∧
      (env.caller t).uid = some row.userId := by
  obtain ⟨e, locked, hmem, hcall, hout⟩ := hk.transacts _ _ htold
  have hrow : e.row = some row := by
    unfold Entry.row
    rw [hout]
  obtain ⟨pre, post, -, hcaller, huid⟩ := h.item hmem
  exact ⟨e, locked, hmem, hcall, hrow, hcaller, huid row hrow⟩

/-- A call that a client may start by what it heard is authorised by the log. -/
theorem WorldOk.authorized (h : WorldOk env w) {told : Told} (hk : KnownTo t told w) {heard : Heard}
    (hr : Relayed env.iso env.httpStatus heard told) {call : ActionCall} (hmay : ClientMay env (env.client t) heard call) :
    Authorized env w.log t call := by
  obtain ⟨mode, registry, workerId, leaseSeconds, hclient, lease, ⟨response, time, expected, hlease, hs⟩, hcall⟩ := hmay
  obtain ⟨hclaimed, hparse⟩ := claimedLease_ok hlease
  have hbacked : ∃ qcall row found, ClaimBacked (toldOf told) workerId response qcall row found := by
    rcases hs with hs | ⟨spec, hs⟩
    · exact backed_claim (hr.answered _ _ _ hs.1 hs.2) hclaimed
    · exact backed_claimTask (hr.answered _ _ _ hs.1 hs.2) hclaimed
  obtain ⟨qcall, row, found, hb⟩ := hbacked
  obtain ⟨claim, locked, hclaim, hqcall, hrow, -, huid⟩ := h.told_entry hk hb.accepted
  obtain ⟨ledger, hread⟩ := hk.selects _ _ hb.read
  obtain ⟨pre, post, -, hfound⟩ := h.item hread
  obtain ⟨htask, huid', -⟩ := hfound found rfl
  have hkey : row.key = found.key := by
    have huser := Option.some.inj (huid.symm.trans huid')
    exact Prod.ext huser htask.symm
  obtain ⟨record, hrecord, hshows⟩ := hb.lease
  rw [hrecord] at hparse
  have hleaseOf := leaseOf_parse hparse
  have hleaseTask : lease.taskId = row.taskId := (hleaseOf.taskId_eq hshows).trans htask
  have hdefinition : definition env.repr row = .ok lease.spec := by
    rw [h.definition_eq (.inl ⟨t, claim, hclaim, hrow⟩) (.inr ⟨t, _, ledger, hread⟩) hkey]
    exact hleaseOf.definition_eq hshows
  obtain ⟨spec, state, revision, fence, seconds, saved, hsave, hsaveTask, hrunning⟩ := hcall.saved
  obtain ⟨revision', generation, stored, seconds', row', haccepted⟩ := backed_save (hr.answered _ _ _ hsave.1 hsave.2) hrunning
  obtain ⟨save, locked', hsaveMem, hsaveCall, hsaveRow, hsaveCaller, -⟩ := h.told_entry hk haccepted
  refine ⟨mode, registry, workerId, leaseSeconds, hclient, hcall.registered, claim, row, lease.spec, hclaim, ?_, hrow, ?_, hdefinition,
    ⟨save, generation, hsaveMem, ?_, ?_, ?_⟩, fun hphase => ?_⟩
  · rw [hqcall]
    exact hb.claimant locked
  · rw [← hleaseTask]
    exact hcall.task
  · rw [hsaveCaller]
    exact huid
  · rw [hsaveRow]
    simp
  · refine ⟨revision', stored, seconds', hsaveCall.trans ?_⟩
    rw [hsaveTask, hleaseTask]
    rfl
  · obtain ⟨step, hstep, hid, honce⟩ := hcall.step hphase
    refine ⟨step, hstep, hid, fun hsafe earlier hearlier hphase' => ?_⟩
    refine honce hsafe earlier ?_ hphase'
    rw [hr.calls]
    exact hk.invoked earlier hearlier

end Steps

end Hosted

end Keirin

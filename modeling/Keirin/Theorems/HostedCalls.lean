import Keirin.Lemmas.HostedSafe

/-!
# Actions of the hosted system

Any number of clients work over one database through the edge functions, requests and replies may be lost, and every client may crash
at any point. An action is called only by an authorised worker that claimed the task, only one client ever calls the actions of a
task, and the action of a step that is not retry-safe is called at most once. What the inspector calls unstarted has not been claimed
by anyone when its row was read.
-/

namespace Keirin

namespace Hosted

open Queue (Row Entry)

variable {T : Type} {env : Env T} {w : World T}

/-! ## Claims -/

/-- Whether an item is an accepted claim of a task. -/
def Item.isClaim (key : String × String) : Item T → Bool
  | .entry _ e => e.isClaim key
  | _ => false

theorem countP_entries (key : String × String) (log : List (Item T)) :
    (entries log).countP (Entry.isClaim key) = log.countP (Item.isClaim key) := by
  induction log with
  | nil => rfl
  | cons i log ih =>
    cases i with
    | entry t e =>
      have hcons : entries (.entry t e :: log) = e :: entries log := rfl
      rw [hcons, List.countP_cons, List.countP_cons, ih]
      rfl
    | read t taskId found ledger => exact ih
    | invoked t call => exact ih

/-- A task is claimed at most once. -/
theorem WorldOk.claimed_once (h : WorldOk env w) (key : String × String) : w.log.countP (Item.isClaim key) ≤ 1 := by
  rw [← countP_entries]
  by_cases hmem : key ∈ w.db.tasks.map Row.key
  · obtain ⟨row, hrow, rfl⟩ := List.mem_map.1 hmem
    have hclaims := h.queue.claims row hrow
    have hinv := h.queue.rows row hrow
    have hbudget := row.budget
    have hattempts := hinv.attempts
    have hsingle := hinv.single
    have hcount : ((entries w.log).countP (Entry.isClaim row.key) : ℤ) ≤ 1 := by
      calc ((entries w.log).countP (Entry.isClaim row.key) : ℤ) = row.leaseGeneration := hclaims
        _ = row.attemptCount := hattempts.symm
        _ ≤ row.maxAttempts := hbudget
        _ = 1 := hsingle
    exact_mod_cast hcount
  · have hnone := h.queue.unclaimed key hmem
    exact (show (entries w.log).countP (Entry.isClaim key) = 0 from hnone).le.trans (Nat.zero_le 1)

/-- The call of an action is about a task of a user. -/
def CallOf (env : Env T) (key : String × String) (t : T) (call : ActionCall) : Prop :=
  (env.caller t).uid = some key.1 ∧ Dict.get? "task_id" call.context = some (.str key.2)

/-- Whoever calls an action of a task has claimed the task before. -/
theorem WorldOk.claim_before (h : WorldOk env w) {pre post : List (Item T)} {t : T} {call : ActionCall}
    (hlog : w.log = pre ++ .invoked t call :: post) {key : String × String} (hkey : CallOf env key t call) :
    ∃ claim row, .entry t claim ∈ pre ∧ claim.row = some row ∧ row.key = key ∧ Item.isClaim key (.entry t claim : Item T) = true := by
  obtain ⟨mode, registry, workerId, leaseSeconds, -, -, claim, row, spec, hmem, hclaimant, hrow, htask, -⟩ := h.items pre _ post hlog
  obtain ⟨before, after, hentry, hitem⟩ := h.item (i := .entry t claim) (hlog ▸ List.mem_append_left _ hmem)
  have huser : key.1 = row.userId := Option.some.inj (hkey.1.symm.trans (hitem.2 row hrow))
  have hrowKey : row.key = key := by
    rw [hkey.2] at htask
    exact Prod.ext huser.symm (Json.str.inj (Option.some.inj htask)).symm
  refine ⟨claim, row, hmem, hrow, hrowKey, ?_⟩
  simp [Item.isClaim, Entry.isClaim, hclaimant, hrow, hrowKey]

/-- One client calls the actions of a task. -/
theorem WorldOk.one_caller (h : WorldOk env w) {key : String × String} {t t' : T} {call call' : ActionCall}
    (hmem : .invoked t call ∈ w.log) (hmem' : .invoked t' call' ∈ w.log) (hkey : CallOf env key t call)
    (hkey' : CallOf env key t' call') : t = t' := by
  obtain ⟨pre, post, hlog⟩ := List.append_of_mem hmem
  obtain ⟨pre', post', hlog'⟩ := List.append_of_mem hmem'
  obtain ⟨claim, row, hclaim, -, -, hp⟩ := h.claim_before hlog hkey
  obtain ⟨claim', row', hclaim', -, -, hp'⟩ := h.claim_before hlog' hkey'
  have heq := Log.eq_of_countP (h.claimed_once key) (hlog ▸ List.mem_append_left _ hclaim) (hlog' ▸ List.mem_append_left _ hclaim') hp hp'
  exact (Item.entry.inj heq).1

/-! ## Steps -/

/-- Whether an item is a call of the action of a step of a task. -/
def Item.isStep (env : Env T) (key : String × String) (stepId : String) : Item T → Bool
  | .invoked t call =>
    (env.caller t).uid = some key.1 && Dict.get? "task_id" call.context = some (.str key.2) && call.phase = .action &&
      call.stepId = stepId
  | _ => false

theorem isStep_iff {key : String × String} {stepId : String} {i : Item T} : Item.isStep env key stepId i = true ↔
    ∃ t call, i = .invoked t call ∧ CallOf env key t call ∧ call.phase = .action ∧ call.stepId = stepId := by
  cases i with
  | entry t e => simp [Item.isStep]
  | read t taskId found ledger => simp [Item.isStep]
  | invoked t call => simp [Item.isStep, CallOf, and_assoc]

/-- A definition that is read is valid. -/
theorem valid_of_fromDict {repr : Doc → String} {fields : Dict Doc} {spec : TaskSpec} (h : TaskSpec.fromDict repr fields = .ok spec) :
    spec.Valid := by
  unfold TaskSpec.fromDict at h
  obtain ⟨_, -, h⟩ := bind_ok.1 h
  obtain ⟨_, -, h⟩ := bind_ok.1 h
  obtain ⟨_, -, h⟩ := bind_ok.1 h
  obtain ⟨_, -, h⟩ := bind_ok.1 h
  obtain ⟨_, -, h⟩ := bind_ok.1 h
  obtain ⟨_, -, h⟩ := bind_ok.1 h
  obtain ⟨_, -, h⟩ := bind_ok.1 h
  obtain ⟨_, -, h⟩ := bind_ok.1 h
  obtain ⟨_, hvalidate, h⟩ := bind_ok.1 h
  cases h
  exact TaskSpec.valid_of_validate hvalidate

/-- The action of a step that is not retry-safe is called at most once. -/
theorem WorldOk.step_once (h : WorldOk env w) {row : Row} (hrow : row ∈ w.db.tasks) {spec : TaskSpec}
    (hspec : definition env.repr row = .ok spec) {step : StepSpec} (hstep : step ∈ spec.steps) (hsafe : step.retrySafe = false) :
    w.log.countP (Item.isStep env row.key step.stepId) ≤ 1 := by
  refine Log.Holds.countP_le_one fun pre x post hlog hx y hy => ?_
  obtain ⟨t, call, rfl, hkey, hphase, hid⟩ := isStep_iff.1 hx
  by_contra hy'
  obtain ⟨t', call', rfl, hkey', hphase', hid'⟩ := isStep_iff.1 (by simpa using hy')
  have ht : t' = t := h.one_caller (hlog ▸ List.mem_append_left _ hy) (by rw [hlog]; simp) hkey' hkey
  subst ht
  obtain ⟨mode, registry, workerId, leaseSeconds, -, -, claim, found, spec', hclaim, -, hfound, htask, hspec', -, horder⟩ :=
    h.items pre _ post hlog
  -- the row that was claimed has the definition of the row of the task
  have hsame : spec' = spec := by
    obtain ⟨before, after, -, hitem⟩ := h.item (i := .entry t' claim) (hlog ▸ List.mem_append_left _ hclaim)
    have huser : row.key.1 = found.userId := Option.some.inj (hkey.1.symm.trans (hitem.2 found hfound))
    rw [hkey.2] at htask
    have hkeys : found.key = row.key := Prod.ext huser.symm (Json.str.inj (Option.some.inj htask)).symm
    obtain ⟨current, hcurrent, hck, hcs⟩ := h.seen found (.inl ⟨t', claim, hlog ▸ List.mem_append_left _ hclaim, hfound⟩)
    have hrowCurrent : current = row := Queue.Db.eq_of_key hcurrent hrow (hck.trans hkeys)
    subst hrowCurrent
    unfold definition at hspec hspec'
    rw [← hcs, hspec] at hspec'
    exact (Except.ok.inj hspec').symm
  subst hsame
  obtain ⟨step', hstep', hid'', honce⟩ := horder hphase
  have hvalid := valid_of_fromDict hspec
  have hstepEq : step' = step := List.inj_on_of_nodup_map hvalid.nodup hstep' hstep (hid''.symm.trans hid)
  subst hstepEq
  exact honce hsafe call' hy hphase' (hid'.trans hid.symm)

/-- Along every schedule of any clients over one database: a call of an action stands on the log before it, as `Authorized` says; a
task is claimed at most once, and whoever calls its actions made that claim; and the action of a step that is not retry-safe is called
at most once. -/
theorem actions_once [DecidableEq T] (env : Env T) (es : List (SchedEvent T Unit Choice)) :
    (∀ pre t call post, (run env es).log = pre ++ .invoked t call :: post → Authorized env pre t call) ∧
    (∀ key, (run env es).log.countP (Item.isClaim key) ≤ 1 ∧ ∀ t t' claim call, .entry t claim ∈ (run env es).log →
      claim.isClaim key = true → .invoked t' call ∈ (run env es).log → CallOf env key t' call → t' = t) ∧
    (∀ row ∈ (run env es).db.tasks, ∀ spec, definition env.repr row = .ok spec → ∀ step ∈ spec.steps, step.retrySafe = false →
      (run env es).log.countP (Item.isStep env row.key step.stepId) ≤ 1) := by
  have hw := (run_ok env es).1
  refine ⟨fun pre t call post hlog => hw.items pre _ post hlog, fun key => ⟨hw.claimed_once key, ?_⟩, ?_⟩
  · intro t t' claim call hclaim hkind hcall hkey
    obtain ⟨pre, post, hlog⟩ := List.append_of_mem hcall
    obtain ⟨claim', row, hclaim', -, -, hkind'⟩ := hw.claim_before hlog hkey
    have hmem' : .entry t' claim' ∈ (run env es).log := hlog ▸ List.mem_append_left _ hclaim'
    exact (Item.entry.inj (Log.eq_of_countP (hw.claimed_once key) hmem' hclaim hkind' hkind)).1
  · intro row hrow spec hspec step hstep hsafe
    exact hw.step_once hrow hspec hstep hsafe

/-! ## Tasks that were not started -/

/-- A client read the row of a task that was queued; before the reading nobody had claimed the task or called an action of it. -/
def Unstarted (env : Env T) (log : List (Item T)) (t : T) (taskId : String) : Prop :=
  ∃ pre row ledger post, log = pre ++ .read t taskId (some row) ledger :: post ∧ row.taskId = taskId ∧
    (env.caller t).uid = some row.userId ∧ row.status = .queued ∧ pre.countP (Item.isClaim row.key) = 0 ∧
    ∀ u call, .invoked u call ∈ pre → ¬CallOf env row.key u call

/-- A lease that was read as queued and never attempted is that of a task nobody had started. -/
theorem WorldOk.unstarted (h : WorldOk env w) {t : T} {told : Told} (hk : KnownTo t told w) {heard : Heard}
    (hr : Relayed env.iso env.httpStatus heard told) {taskId : String} {lease : HostedQueueLease}
    (hread : ReadHeard env.repr heard taskId lease) (hqueued : lease.status = "queued") (hzero : lease.attemptCount = 0) :
    Unstarted env w.log t lease.taskId := by
  obtain ⟨response, time, expected, hs, hparse⟩ := hread
  obtain ⟨row, record, hselect, hrecord, hshows⟩ := backed_get (hr.answered _ _ _ hs.1 hs.2)
  rw [hrecord] at hparse
  have hlease := leaseOf_parse hparse
  obtain ⟨ledger, hmem⟩ := hk.selects _ _ hselect
  obtain ⟨pre, post, hlog, hitem⟩ := h.item hmem
  obtain ⟨htask, huid, hcount⟩ := hitem row rfl
  rw [countP_entries] at hcount
  have hle : pre.countP (Item.isClaim row.key) ≤ 1 := by
    have honce := h.claimed_once row.key
    rw [hlog, List.countP_append] at honce
    omega
  have hattempts := hlease.attempts_eq hshows (by omega)
  have hnone : pre.countP (Item.isClaim row.key) = 0 := by omega
  have hleaseTask : lease.taskId = taskId := (hlease.taskId_eq hshows).trans htask
  subst hleaseTask
  refine ⟨pre, row, ledger, post, hlog, htask, huid, ?_, hnone, fun u call hcall hkey => ?_⟩
  · refine Queue.RowStatus.text_inj ?_
    rw [← hlease.status_eq hshows, hqueued]
    rfl
  · -- a call before the reading goes back to a claim before it
    obtain ⟨before, after, rfl⟩ := List.append_of_mem hcall
    rw [List.append_assoc, List.cons_append] at hlog
    obtain ⟨claim, found, hclaim, -, -, hkind⟩ := h.claim_before hlog hkey
    have hpos : 0 < (before ++ .invoked u call :: after).countP (Item.isClaim row.key) :=
      List.countP_pos_iff.2 ⟨_, List.mem_append_left _ hclaim, hkind⟩
    omega

/-- Along every schedule of any clients over one database: where the inspector reports that a task may be executed, or proposes its
first execution, the row it read was queued, and when it was read nobody had claimed the task or called an action of it. -/
theorem inspector_unstarted [DecidableEq T] (env : Env T) (es : List (SchedEvent T Unit Choice)) (t : T) :
    (∀ report, returned env es t = some (.reported (some report)) → report.reexecutionAllowed = true →
      Unstarted env (run env es).log t report.taskId) ∧
    (∀ proposal, returned env es t = some (.proposed (some proposal)) → proposal.proposedAction = "eligible_for_first_execution" →
      Unstarted env (run env es).log t proposal.taskId) := by
  obtain ⟨hw, hreturned⟩ := run_ok env es
  refine ⟨fun report hr hallowed => ?_, fun proposal hr heligible => ?_⟩
  · obtain ⟨heard, told, ⟨taskId, lease, hread, hreports⟩, hrelayed, hk⟩ := hreturned t _ hr
    obtain ⟨hqueued, hzero⟩ := hreports.unstarted (hreports.allowed hallowed)
    rw [hreports.taskId]
    exact hw.unstarted hk hrelayed hread hqueued hzero
  · obtain ⟨heard, told, hreturns, hrelayed, hk⟩ := hreturned t _ hr
    obtain ⟨taskId, lease, report, hread, hreports, hclass, htask⟩ := hreturns heligible
    obtain ⟨hqueued, hzero⟩ := hreports.unstarted hclass
    rw [htask, hreports.taskId]
    exact hw.unstarted hk hrelayed hread hqueued hzero

end Hosted

end Keirin

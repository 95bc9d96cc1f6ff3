import Keirin.Lemmas.HostedReplies

/-!
# What a success tells a client

A response that reports success goes back to a reply that was heeded. For each method of the clients: the call the database carried
out, the row it wrote, and the row the response shows.
-/

namespace Keirin

namespace Hosted

open QueueEdge (EdgeCmd EdgeReply EdgeProg DbError checkpointText exactText columns)
open Activity (asObject validateTaskId demand)

/-! ## Responses -/

/-- The edge function that a request goes to. -/
def edge (iso : ℤ → String) (httpStatus : String → ℕ) (exactMode : Bool) (body : JsDoc) : EdgeProg HostedError :=
  if exactMode then QueueEdge.exactClaim iso httpStatus body else QueueEdge.runtime iso httpStatus body

/-- A response that reports success goes back to a heeded reply of the edge function. -/
def Answered (iso : ℤ → String) (httpStatus : String → ℕ) (replies : (c : EdgeCmd) → c.Reply → Prop) (mode : String) (fields : Dict Doc)
    (response : Dict Doc) : Prop :=
  ∃ body reply, HostedRequest.body (mode, fields) = .ok body ∧
    (edge iso httpStatus (mode = "queue_claim_task") body).Yields replies reply ∧ Heeded reply response

theorem Answered.mono {iso : ℤ → String} {httpStatus : String → ℕ} {replies replies' : (c : EdgeCmd) → c.Reply → Prop} {mode : String}
    {fields response : Dict Doc} (h : Answered iso httpStatus replies mode fields response)
    (hsub : ∀ c r, replies c r → replies' c r) : Answered iso httpStatus replies' mode fields response := by
  obtain ⟨body, reply, hbody, hyields, hh⟩ := h
  exact ⟨body, reply, hbody, hyields.mono hsub, hh⟩

/-! ## The row a response shows -/

/-- A record that shows a row, in the columns a client reads. -/
structure Shows (record : Dict Doc) (row : Queue.Row) : Prop where
  taskId : Dict.getD record "task_id" .null = .str row.taskId
  status : Dict.getD record "status" .null = .str row.status.text
  spec : Dict.getD record "spec" .null = relayed row.spec.toText
  attempts : Dict.getD record "attempt_count" .null = relayed (.num (NumLit.ofInt row.attemptCount))
  generation : Dict.getD record "lease_generation" .null = relayed (.num (NumLit.ofInt row.leaseGeneration))

theorem shows_checkpoint (iso : ℤ → String) (row : Queue.Row) :
    ∃ record, relayed (checkpointText iso row) = .obj record ∧ Shows record row :=
  ⟨_, relayed_checkpoint iso row, rfl, rfl, rfl, rfl, rfl⟩

/-- A key that a filter keeps is looked up as before. -/
theorem get?_filter {α : Type} {p : String → Bool} {key : String} (hkey : p key = true) (d : Dict α) :
    Dict.get? key (d.filter fun e => p e.1) = Dict.get? key d := by
  induction d with
  | nil => rfl
  | cons e d ih =>
    by_cases hk : e.1 = key
    · rw [List.filter_cons_of_pos (by rw [hk]; exact hkey), Dict.get?, Dict.get?, if_pos hk, if_pos hk]
    · rw [List.filter_cons, Dict.get?, if_neg hk, ← ih]
      split
      · rw [Dict.get?, if_neg hk]
      · rfl

theorem shows_exact (iso : ℤ → String) (row : Queue.Row) :
    ∃ record, relayed (exactText iso row) = .obj record ∧ Shows record row := by
  refine ⟨_, relayed_exact iso row, ?_⟩
  have hget (key : String) (hkey : key ∉ exactOmits) :
      Dict.getD (((columns iso row).filter fun c => c.1 ∉ exactOmits).map fun f => (f.1, relayed f.2)) key .null =
        Dict.getD ((columns iso row).map fun f => (f.1, relayed f.2)) key .null := by
    have hfilter : Dict.get? key ((columns iso row).filter fun c => c.1 ∉ exactOmits) = Dict.get? key (columns iso row) :=
      get?_filter (p := fun k => k ∉ exactOmits) (by simpa using hkey) _
    unfold Dict.getD
    rw [Dict.get?_map, Dict.get?_map, hfilter]
  exact ⟨hget _ (by decide), hget _ (by decide), hget _ (by decide), hget _ (by decide), hget _ (by decide)⟩

section Lease

variable {repr : Doc → String} {now : String} {record : Dict Doc} {row : Queue.Row} {lease : HostedQueueLease}

/-- The definition of a lease is that of the row. -/
theorem LeaseOf.definition_eq (h : LeaseOf repr now record lease) (hrow : Shows record row) : definition repr row = .ok lease.spec := by
  obtain ⟨fields, hfields, hspec⟩ := h.spec
  rw [hrow.spec] at hfields
  unfold definition
  rw [hfields]
  exact hspec

theorem LeaseOf.taskId_eq (h : LeaseOf repr now record lease) (hrow : Shows record row) : lease.taskId = row.taskId := by
  have htask := h.taskId.symm.trans hrow.taskId
  exact Json.str.inj htask

theorem LeaseOf.status_eq (h : LeaseOf repr now record lease) (hrow : Shows record row) : lease.status = row.status.text := by
  have hstatus := h.status.symm.trans hrow.status
  exact Json.str.inj hstatus

/-- A counter of a row below `2 ^ 53` is the counter of the lease. -/
theorem LeaseOf.attempts_eq (h : LeaseOf repr now record lease) (hrow : Shows record row) (hsmall : row.attemptCount.natAbs < 2 ^ 53) :
    lease.attemptCount = row.attemptCount := by
  have hattempts := h.attempts.symm.trans hrow.attempts
  rw [relayed_int hsmall] at hattempts
  exact Scalar.int.inj (Json.num.inj hattempts)

end Lease

/-! ## Requests -/

section Requests

variable {iso : ℤ → String} {httpStatus : String → ℕ} {replies : (c : EdgeCmd) → c.Reply → Prop} {response : Dict Doc}

/-- What stands behind a claim that was answered with a lease. -/
structure ClaimBacked (replies : (c : EdgeCmd) → c.Reply → Prop) (worker : String) (response : Dict Doc)
    (call : Queue.Call) (row found : Queue.Row) : Prop where
  accepted : replies (.transact call) (.ok (some row))
  claimant : ∀ locked, (withLocked locked call).claimant = some worker
  read : replies (.select row.taskId) (.ok (some found))
  lease : ∃ record, Dict.getD response "lease" .null = .obj record ∧ Shows record found

/-- The fields of a claim of the next task. -/
def claimFields (workerId : String) (leaseSeconds : ℤ) : Dict Doc :=
  [("worker_id", .str workerId), ("lease_seconds", .num (.int leaseSeconds))]

/-- The fields of a claim of one exact task. -/
def claimTaskFields (spec : TaskSpec) (workerId : String) (leaseSeconds : ℤ) : Dict Doc :=
  [("task_id", .str spec.taskId), ("worker_id", .str workerId), ("lease_seconds", .num (.int leaseSeconds))]

theorem validateWorkerId_ok {worker r : String} (h : QueueEdge.validateWorkerId (some (.str worker)) = some r) : r = worker := by
  simp only [QueueEdge.validateWorkerId, Option.ite_none_right_eq_some, Option.some.injEq] at h
  exact h.2.symm

/-- A claim of the next task that was answered with a lease. -/
theorem backed_claim {worker : String} {seconds : ℤ} (h : Answered iso httpStatus replies "queue_claim" (claimFields worker seconds) response)
    (hclaimed : Dict.getD response "claimed" .null = .bool true) :
    ∃ call row found, ClaimBacked replies worker response call row found := by
  obtain ⟨body, reply, hbody, hyields, hh⟩ := h
  have hobj := body_ok hbody (by simp [claimFields]) (by simp only [claimFields, List.map_cons, List.map_nil]; decide +kernel)
  have hmode : strip "queue_claim" = "queue_claim" := by decide +kernel
  rw [hmode] at hobj
  have hedge : edge iso httpStatus ("queue_claim" = "queue_claim_task") body = QueueEdge.queueClaim iso httpStatus body := by
    subst hobj
    rfl
  rw [hedge] at hyields
  rcases yields_queueClaim hyields hh with hnone | ⟨r, row, found, hr, haccepted, hread, hresponse⟩
  · rw [hnone] at hclaimed
    cases hclaimed
  obtain ⟨record, hrecord, hshows⟩ := shows_checkpoint iso found
  refine ⟨_, row, found, haccepted, fun locked => ?_, hread, record, ?_, hshows⟩
  · subst hobj
    unfold QueueEdge.validateQueueClaim at hr
    obtain ⟨fields, hfields, hr⟩ := bind_ok.1 hr
    cases demand_ok.1 hfields
    obtain ⟨workerId, hworker, hr⟩ := bind_ok.1 hr
    obtain ⟨leaseSeconds, -, hr⟩ := bind_ok.1 hr
    cases hr
    exact congrArg some (validateWorkerId_ok (demand_ok.1 hworker))
  · rw [hresponse]
    exact hrecord

/-- A claim of one exact task that was answered with a lease. -/
theorem backed_claimTask {spec : TaskSpec} {worker : String} {seconds : ℤ}
    (h : Answered iso httpStatus replies "queue_claim_task" (claimTaskFields spec worker seconds) response)
    (hclaimed : Dict.getD response "claimed" .null = .bool true) :
    ∃ call row found, ClaimBacked replies worker response call row found := by
  obtain ⟨body, reply, hbody, hyields, hh⟩ := h
  have hobj := body_ok hbody (by simp [claimTaskFields])
    (by simp only [claimTaskFields, List.map_cons, List.map_nil]; decide +kernel)
  rcases yields_exactClaim hyields hh with hnone | ⟨r, row, found, hr, haccepted, hread, hresponse⟩
  · rw [hnone] at hclaimed
    cases hclaimed
  obtain ⟨record, hrecord, hshows⟩ := shows_exact iso found
  refine ⟨_, row, found, haccepted, fun locked => ?_, hread, record, ?_, hshows⟩
  · subst hobj
    unfold QueueEdge.validateExactClaimRequest at hr
    obtain ⟨fields, hfields, hr⟩ := bind_ok.1 hr
    cases demand_ok.1 hfields
    obtain ⟨-, hr⟩ := raiseIf_bind_ok.1 hr
    obtain ⟨-, hr⟩ := raiseIf_bind_ok.1 hr
    obtain ⟨taskId, -, hr⟩ := bind_ok.1 hr
    obtain ⟨workerId, hworker, hr⟩ := bind_ok.1 hr
    obtain ⟨leaseSeconds, -, hr⟩ := bind_ok.1 hr
    cases hr
    exact congrArg some (validateWorkerId_ok (demand_ok.1 hworker))
  · rw [hresponse]
    exact hrecord

theorem validateTaskId_ok {taskId r : String} (h : validateTaskId (some (.str taskId)) = some r) : r = taskId := by
  simp only [validateTaskId, Option.ite_none_right_eq_some, Option.some.injEq] at h
  exact h.2.symm

/-- A running state that was saved under a lease: the call the database carried out. -/
theorem backed_save {spec : TaskSpec} {state : TaskState} {expected : ℤ} {worker : String} {generation seconds : ℤ}
    (h : Answered iso httpStatus replies "queue_save" (HostedQueue.saveFields spec state expected worker generation seconds) response)
    (hrunning : state.status = .running) :
    ∃ revision fence stored secs row, replies (.transact (.saveLeasedCheckpoint (some spec.taskId) revision (some worker) (some fence)
      (some "running") stored secs)) (.ok (some row)) := by
  obtain ⟨body, reply, hbody, hyields, hh⟩ := h
  have hobj := body_ok hbody (by simp [HostedQueue.saveFields])
    (by simp only [HostedQueue.saveFields, List.map_cons, List.map_nil]; decide +kernel)
  have hmode : strip "queue_save" = "queue_save" := by decide +kernel
  rw [hmode] at hobj
  have hedge : edge iso httpStatus ("queue_save" = "queue_claim_task") body = QueueEdge.queueSave iso httpStatus body := by
    subst hobj
    rfl
  rw [hedge] at hyields
  obtain ⟨r, row, found, hr, haccepted, -, -⟩ := yields_queueSave hyields hh
  subst hobj
  unfold QueueEdge.validateQueueSave at hr
  obtain ⟨checkpoint, hcheckpoint, hr⟩ := bind_ok.1 hr
  obtain ⟨fields, hfields, hr⟩ := bind_ok.1 hr
  cases demand_ok.1 hfields
  obtain ⟨workerId, hworker, hr⟩ := bind_ok.1 hr
  obtain ⟨fence, -, hr⟩ := bind_ok.1 hr
  obtain ⟨leaseSeconds, -, hr⟩ := bind_ok.1 hr
  cases hr
  unfold QueueEdge.validateCheckpointSave at hcheckpoint
  obtain ⟨fields, hfields, hcheckpoint⟩ := bind_ok.1 hcheckpoint
  cases demand_ok.1 hfields
  obtain ⟨taskId, htask, hcheckpoint⟩ := bind_ok.1 hcheckpoint
  obtain ⟨object, -, hcheckpoint⟩ := bind_ok.1 hcheckpoint
  obtain ⟨-, hcheckpoint⟩ := raiseIf_bind_ok.1 hcheckpoint
  obtain ⟨-, hcheckpoint⟩ := raiseIf_bind_ok.1 hcheckpoint
  obtain ⟨-, hcheckpoint⟩ := raiseIf_bind_ok.1 hcheckpoint
  obtain ⟨fingerprint, -, hcheckpoint⟩ := bind_ok.1 hcheckpoint
  obtain ⟨revision, -, hcheckpoint⟩ := bind_ok.1 hcheckpoint
  cases hcheckpoint
  have htaskId : taskId = spec.taskId := validateTaskId_ok (demand_ok.1 htask)
  have hworkerId : workerId = worker := validateWorkerId_ok (demand_ok.1 hworker)
  subst htaskId hworkerId
  have hstatus : QueueEdge.textOr ((("mode", .str "queue_save") :: HostedQueue.saveFields spec state expected workerId generation
      seconds).map fun f => (f.1, JsDoc.parse (Doc.toLits f.2))) "status" = "running" := by
    unfold QueueEdge.textOr HostedQueue.saveFields
    rw [hrunning]
    rfl
  rw [hstatus] at haccepted
  exact ⟨some revision, fence, _, some leaseSeconds, row, haccepted⟩

/-- A row that was read. -/
theorem backed_get {taskId : String} (h : Answered iso httpStatus replies "checkpoint_get" [("task_id", .str taskId)] response) :
    ∃ found record, replies (.select taskId) (.ok (some found)) ∧ Dict.getD response "checkpoint" .null = .obj record ∧
      Shows record found := by
  obtain ⟨body, reply, hbody, hyields, hh⟩ := h
  have hobj := body_ok hbody (by simp) (by simp only [List.map_cons, List.map_nil]; decide +kernel)
  have hmode : strip "checkpoint_get" = "checkpoint_get" := by decide +kernel
  rw [hmode] at hobj
  have hedge : edge iso httpStatus ("checkpoint_get" = "queue_claim_task") body = QueueEdge.checkpointGet iso httpStatus body := by
    subst hobj
    rfl
  rw [hedge] at hyields
  obtain ⟨named, found, hnamed, hread, hresponse⟩ := yields_checkpointGet hyields hh
  obtain ⟨record, hrecord, hshows⟩ := shows_checkpoint iso found
  subst hobj
  cases validateTaskId_ok hnamed
  refine ⟨found, record, hread, ?_, hshows⟩
  rw [hresponse]
  exact hrecord

end Requests

end Hosted

end Keirin

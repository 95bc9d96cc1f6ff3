import Keirin.Lemmas.HostedRequests

/-!
# What stands behind a heeded reply

A reply of an edge function that a client takes for a success goes back to statements that the database answered: the call that
was made, the row it wrote, and the row that was read back.
-/

namespace Keirin

namespace Hosted

open QueueEdge (EdgeCmd EdgeReply EdgeProg DbError checkpointText exactText rowText columns)
open Activity (asObject validateTaskId demand)

theorem demand_ok {α : Type} {x : Option α} {message : String} {a : α} : demand x message = .ok a ↔ x = some a := by
  unfold demand
  split
  · rw [Except.ok.injEq, Option.some.injEq]
  · simp

/-! ## The row a call returned -/

/-- The fields of a stored object stand once, and they are those of the text. -/
theorem stored_obj {fs : Dict JsonLits} (h : (fs.map Prod.fst).Nodup) :
    ∃ gs, Jsonb.ofText (.obj fs) = .obj gs ∧ (gs.map Prod.fst).Nodup ∧
      ∀ key, Dict.get? key gs = (Dict.get? key fs).map Jsonb.ofText := by
  have hkeys : ((fs.map fun f => (f.1, Json.bindNum (fun l => Json.num (Numeric.ofLit l)) f.2)).map Prod.fst).Nodup := by
    rw [List.map_map]
    exact h
  have hof : Jsonb.ofText (.obj fs) = Jsonb.ofJson (.obj (fs.map fun f => (f.1, Json.bindNum (fun l => Json.num (Numeric.ofLit l)) f.2))) := by
    unfold Jsonb.ofText
    rw [Json.bindNum, Json.bindNumFields_eq]
  have hget := Jsonb.get?_ofJson_obj hkeys
  rw [← hof] at hget
  have hperm := Jsonb.perm_fields (by rwa [Jsonb.ofFields_eq, List.map_map] : ((Jsonb.ofFields (fs.map fun f =>
    (f.1, Json.bindNum (fun l => Json.num (Numeric.ofLit l)) f.2))).map Prod.fst).Nodup)
  rw [Jsonb.ofJson] at hof
  refine ⟨_, hof, ?_, fun key => ?_⟩
  · rw [(hperm.map Prod.fst).nodup_iff, Jsonb.ofFields_eq, List.map_map]
    exact hkeys
  · have hkey := hget key
    rw [hof, Json.get?, Dict.get?_map, Option.map_map] at hkey
    exact hkey

/-- A field of a stored object, as the edge function reads it. -/
theorem get?_stored {fs : Dict JsonLits} (h : (fs.map Prod.fst).Nodup) (key : String) :
    (JsDoc.parse (Jsonb.ofText (.obj fs)).toText).get? key = (Dict.get? key fs).map fun v => JsDoc.parse (Jsonb.ofText v).toText := by
  obtain ⟨gs, hgs, hnodup, hget⟩ := stored_obj h
  rw [hgs]
  unfold Jsonb.toText JsDoc.parse
  rw [Json.bindNum, Json.bindNumFields_eq, Json.get?_rebuild (fun _ => JsDoc.perm_object) (by rwa [List.map_map]), Dict.get?_map,
    hget, Option.map_map, Option.map_map]
  rfl

/-- The row a call returned names its task. -/
theorem rowText_taskId (iso : ℤ → String) (row : Queue.Row) :
    (JsDoc.parse (rowText iso row)).get? "task_id" = some (.str row.taskId) := by
  unfold rowText
  rw [get?_stored (by simp [columns])]
  rfl

section Edge

variable {iso : ℤ → String} {httpStatus : String → ℕ} {replies : (c : EdgeCmd) → c.Reply → Prop} {reply : EdgeReply}
  {response : Dict Doc} {mode : String} {body : JsDoc}

/-! ## Reading back -/

/-- A row that was verified was read back under the task the call returned. -/
theorem yields_verifyQueueRow {raw : JsDoc} {expected : QueueEdge.Expected} {answer : JsDoc → EdgeProg HostedError}
    (h : (QueueEdge.verifyQueueRow iso mode raw expected answer).Yields replies reply) (hh : Heeded reply response) :
    ∃ taskId found, raw.get? "task_id" = some (.str taskId) ∧ replies (.select taskId) (.ok (some found)) ∧
      (answer (JsDoc.parse (checkpointText iso found))).Yields replies reply := by
  unfold QueueEdge.verifyQueueRow at h
  split at h
  · rename_i taskId htask
    obtain ⟨answered, hanswered, h⟩ := h
    beta_reduce at h
    split at h
    · rename_i found
      split at h
      · exact absurd hh (not_heeded_refuse h)
      · exact ⟨taskId, found, htask, hanswered, h⟩
    · exact absurd hh (not_heeded_refuse h)
  · exact absurd hh (not_heeded_refuse h)

/-- A row the database returned was read back under its task. -/
theorem yields_verified {row : Queue.Row} {raw : JsDoc} {expected : QueueEdge.Expected} {answer : JsDoc → EdgeProg HostedError}
    (hraw : JsDoc.parse (rowText iso row) = raw) (h : (QueueEdge.verifyQueueRow iso mode raw expected answer).Yields replies reply)
    (hh : Heeded reply response) :
    ∃ found, replies (.select row.taskId) (.ok (some found)) ∧ (answer (JsDoc.parse (checkpointText iso found))).Yields replies reply := by
  obtain ⟨taskId, found, htask, hselect, hanswer⟩ := yields_verifyQueueRow h hh
  rw [← hraw, rowText_taskId] at htask
  cases htask
  exact ⟨found, hselect, hanswer⟩

/-! ## Claims -/

/-- The response to a claim that found no task. -/
def noLease (mode : String) : Dict Doc := [("success", .bool true), ("mode", .str mode), ("claimed", .bool false), ("lease", .null)]

/-- The response to a claim of a task whose row is `record`. -/
def leased (mode : String) (record : Doc) : Dict Doc :=
  [("success", .bool true), ("mode", .str mode), ("claimed", .bool true), ("lease", record)]

/-- A claim of the next task. -/
theorem yields_queueClaim (h : (QueueEdge.queueClaim iso httpStatus body : EdgeProg HostedError).Yields replies reply) (hh : Heeded reply response) :
    response = noLease "queue_claim" ∨ ∃ r row found, QueueEdge.validateQueueClaim body = .ok r ∧
      replies (.transact (.claimNextTask (some r.workerId) (some r.leaseSeconds) [])) (.ok (some row)) ∧
      replies (.select row.taskId) (.ok (some found)) ∧ response = leased "queue_claim" (relayed (checkpointText iso found)) := by
  unfold QueueEdge.queueClaim at h
  split at h
  · exact absurd hh (not_heeded_refuse h)
  · rename_i r hr
    obtain ⟨answered, hanswered, h⟩ := h
    beta_reduce at h
    split at h
    · exact absurd hh (not_heeded_persistence h)
    · exact .inl (heeded_accept (by simp) h hh)
    · rename_i row
      generalize hraw : JsDoc.parse (rowText iso row) = raw at h
      obtain ⟨found, hselect, h⟩ := yields_verified hraw h hh
      exact .inr ⟨r, row, found, hr, hanswered, hselect, heeded_accept (by simp) h hh⟩

/-- A claim of one exact task. -/
theorem yields_exactClaim (h : (QueueEdge.exactClaim iso httpStatus body : EdgeProg HostedError).Yields replies reply) (hh : Heeded reply response) :
    response = noLease "queue_claim_task" ∨ ∃ r row found, QueueEdge.validateExactClaimRequest body = .ok r ∧
      replies (.transact (.claimTask (some r.taskId) (some r.workerId) (some r.leaseSeconds))) (.ok (some row)) ∧
      replies (.select row.taskId) (.ok (some found)) ∧ response = leased "queue_claim_task" (relayed (exactText iso found)) := by
  unfold QueueEdge.exactClaim at h
  split at h
  · exact absurd hh (not_heeded_refuse h)
  · rename_i r hr
    obtain ⟨answered, hanswered, h⟩ := h
    beta_reduce at h
    split at h
    · exact absurd hh (not_heeded_persistence h)
    · exact .inl (heeded_accept (by simp) h hh)
    · rename_i row
      simp only [rowText_taskId] at h
      split at h
      · exact absurd hh (not_heeded_refuse h)
      · rename_i htask
        have htask' : row.taskId = r.taskId := by simpa using htask
        split at h
        · exact absurd hh (not_heeded_refuse h)
        · obtain ⟨read, hread, h⟩ := h
          beta_reduce at h
          split at h
          · rename_i found
            split at h
            · exact absurd hh (not_heeded_refuse h)
            · exact .inr ⟨r, row, found, hr, hanswered, htask' ▸ hread, heeded_accept (by simp) h hh⟩
          · exact absurd hh (not_heeded_refuse h)

/-! ## Writes under a fence -/

/-- A row that was written was read back. -/
theorem yields_readBack {expected : QueueEdge.Expected} {answered : Except DbError (Option Queue.Row)}
    (h : (QueueEdge.readBack iso httpStatus mode expected answered : EdgeProg HostedError).Yields replies reply) (hh : Heeded reply response) :
    ∃ row found, answered = .ok (some row) ∧ replies (.select row.taskId) (.ok (some found)) ∧
      response = [("success", .bool true), ("mode", .str mode), ("lease", relayed (checkpointText iso found))] := by
  unfold QueueEdge.readBack at h
  split at h
  · exact absurd hh (not_heeded_persistence h)
  · exact absurd hh (not_heeded_refuse h)
  · rename_i row
    generalize hraw : JsDoc.parse (rowText iso row) = raw at h
    obtain ⟨found, hselect, h⟩ := yields_verified hraw h hh
    exact ⟨row, found, rfl, hselect, heeded_accept (by simp) h hh⟩

/-- A save under a lease. -/
theorem yields_queueSave (h : (QueueEdge.queueSave iso httpStatus body : EdgeProg HostedError).Yields replies reply) (hh : Heeded reply response) :
    ∃ r row found, QueueEdge.validateQueueSave body = .ok r ∧
      replies (.transact (.saveLeasedCheckpoint (some r.taskId) (some r.expectedRevision) (some r.workerId) (some r.leaseGeneration)
        (some r.status) (some r.stored) (some r.leaseSeconds))) (.ok (some row)) ∧
      replies (.select row.taskId) (.ok (some found)) ∧
      response = [("success", .bool true), ("mode", .str "queue_save"), ("lease", relayed (checkpointText iso found))] := by
  unfold QueueEdge.queueSave at h
  split at h
  · exact absurd hh (not_heeded_refuse h)
  · rename_i r hr
    obtain ⟨answered, hanswered, h⟩ := h
    obtain ⟨row, found, rfl, hselect, hresponse⟩ := yields_readBack h hh
    exact ⟨r, row, found, hr, hanswered, hselect, hresponse⟩

/-! ## Readings -/

/-- A reading of a row. -/
theorem yields_checkpointGet (h : (QueueEdge.checkpointGet iso httpStatus body : EdgeProg HostedError).Yields replies reply) (hh : Heeded reply response) :
    ∃ taskId found, validateTaskId (body.get? "task_id") = some taskId ∧ replies (.select taskId) (.ok (some found)) ∧
      response = [("success", .bool true), ("mode", .str "checkpoint_get"), ("checkpoint", relayed (checkpointText iso found))] := by
  unfold QueueEdge.checkpointGet at h
  split at h
  · exact absurd hh (not_heeded_refuse h)
  · rename_i taskId htask
    obtain ⟨answered, hanswered, h⟩ := h
    beta_reduce at h
    split at h
    · exact absurd hh (not_heeded_persistence h)
    · exact absurd hh (not_heeded_refuse h)
    · rename_i found
      exact ⟨taskId, found, htask, hanswered, heeded_accept (by simp) h hh⟩

end Edge

end Hosted

end Keirin

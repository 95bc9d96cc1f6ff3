import Keirin.HostedSystem
import Keirin.Lemmas.HostedLink

/-!
# Requests and replies of the hosted system

What a request is to the edge function, what the client heeds of its reply, and what the lease of a row is to the client that
receives it.
-/

namespace Keirin

namespace Hosted

open QueueEdge (EdgeCmd EdgeReply DbError checkpointText columns)

/-! ## Bodies -/

/-- The fields of a body in the order they were written, as the edge function reads them. -/
theorem body_ok {mode : String} {fields : Dict Doc} {body : JsDoc} (h : HostedRequest.body (mode, fields) = .ok body)
    (hkeys : (("mode" :: fields.map Prod.fst)).Nodup) (hnames : ("mode" :: fields.map Prod.fst).all (fun k => !JsDoc.isIndex k) = true) :
    body = .obj ((("mode", .str (strip mode)) :: fields).map fun f => (f.1, JsDoc.parse (Doc.toLits f.2))) := by
  unfold HostedRequest.body at h
  obtain ⟨-, h⟩ := raiseIf_bind_ok.1 h
  obtain ⟨-, h⟩ := raiseIf_bind_ok.1 h
  obtain ⟨text, htext, h⟩ := bind_ok.1 h
  cases h
  obtain ⟨_, -, htext⟩ := bind_ok.1 htext
  cases htext
  have hlits : Doc.toLits (.obj (("mode", .str (strip mode)) :: fields)) =
      .obj ((("mode", .str (strip mode)) :: fields).map fun f => (f.1, Doc.toLits f.2)) := by
    unfold Doc.toLits
    rw [Json.bindNum, Json.bindNumFields_eq]
  have hfst : ((("mode", .str (strip mode)) :: fields).map fun f => (f.1, Doc.toLits f.2)).map Prod.fst =
      "mode" :: fields.map Prod.fst := by
    rw [List.map_map]
    rfl
  rw [hlits, JsDoc.parse_obj (hfst ▸ hkeys) (hfst ▸ hnames), List.map_map]
  rfl

@[simp] theorem parse_toLits_str (s : String) : JsDoc.parse (Doc.toLits (.str s)) = .str s := rfl

/-! ## Replies -/

/-- A reply that a client takes for a success, with the response it reads. -/
structure Heeded (reply : EdgeReply) (response : Dict Doc) : Prop where
  status : reply.status < 400
  body : JsDoc.received reply.body = .obj response
  success : Dict.getD response "success" .null = .bool true

/-- A response that came through the transport with a success was heeded. -/
theorem heeded_of_received {reply : EdgeReply} {arrival : Arrival} {response : Dict Doc}
    (h : received reply arrival = .ok (.obj response)) (hs : Dict.getD response "success" .null = .bool true) :
    Heeded reply response := by
  have hfail : ∀ fields : Dict Doc, failure reply.status fields ≠ .obj response := by
    intro fields hf
    unfold failure at hf
    cases hf
    unfold Dict.update at hs
    simp only [List.foldl_cons, List.foldl_nil] at hs
    rw [Dict.getD_set_of_ne (by decide), Dict.getD_set_self] at hs
    cases hs
  unfold received at h
  split at h
  · cases h
  · split at h
    · cases h
    · exact absurd (Except.ok.inj h) (hfail _)
  · split at h
    · rename_i fields hfields
      split at h
      · rename_i hlt
        cases h
        exact ⟨hlt, hfields, hs⟩
      · exact absurd (Except.ok.inj h) (hfail _)
    · split at h
      · cases h
      · exact absurd (Except.ok.inj h) (hfail _)

/-- A refusal is not heeded. -/
theorem not_heeded_refusal {status : ℕ} {mode error : String} {response : Dict Doc} :
    ¬Heeded { status := status, body := Activity.refusal mode error } response := by
  rintro ⟨-, hbody, hsuccess⟩
  unfold Activity.refusal at hbody
  rw [received_obj (by simp)] at hbody
  cases hbody
  cases hsuccess

section Edge

variable {iso : ℤ → String} {httpStatus : String → ℕ} {replies : (c : EdgeCmd) → c.Reply → Prop} {reply : EdgeReply}
  {response : Dict Doc} {mode : String} {body : JsDoc}

/-- What an error of the database leads to is not heeded. -/
theorem not_heeded_persistence {e : DbError}
    (h : (QueueEdge.persistence httpStatus mode e : QueueEdge.EdgeProg HostedError).Yields replies reply) : ¬Heeded reply response := by
  rintro ⟨hstatus, hbody, hsuccess⟩
  cases e with
  | refused e =>
    cases h
    rw [received_obj (by simp)] at hbody
    cases hbody
    cases hsuccess
  | broken body =>
    cases h
    simp at hstatus

/-- A refusal yields nothing that is heeded. -/
theorem not_heeded_refuse {status : ℕ} {error : String}
    (h : (QueueEdge.refuse status mode error : QueueEdge.EdgeProg HostedError).Yields replies reply) : ¬Heeded reply response := by
  cases h
  exact not_heeded_refusal

/-- The response to a reply of an edge function that accepted. -/
theorem heeded_accept {status : ℕ} {fields : Dict JsDoc} (hkeys : ("success" :: "mode" :: fields.map Prod.fst).Nodup)
    (h : (QueueEdge.accept status mode fields : QueueEdge.EdgeProg HostedError).Yields replies reply) (hh : Heeded reply response) :
    response = ("success", .bool true) :: ("mode", .str mode) :: fields.map fun f => (f.1, JsDoc.received f.2) := by
  cases h
  have hbody := hh.body
  unfold Activity.reply at hbody
  rw [received_obj (by simpa using hkeys)] at hbody
  cases hbody
  rfl

end Edge

/-! ## Rows -/

/-- The definition of the task of a row, as a client reads it. -/
def definition (repr : Doc → String) (row : Queue.Row) : Except PyError TaskSpec :=
  TaskSpec.fromDict repr (Doc.entries (relayed row.spec.toText))

theorem nodup_columns (iso : ℤ → String) (row : Queue.Row) : ((columns iso row).map Prod.fst).Nodup := by
  simp [columns]

theorem names_columns (iso : ℤ → String) (row : Queue.Row) :
    ((columns iso row).map Prod.fst).all (fun k => !JsDoc.isIndex k) = true := by
  simp only [columns, List.map_cons, List.map_nil]
  decide +kernel

/-- A row as `CHECKPOINT_SELECT` reads it comes to the client column by column. -/
theorem relayed_checkpoint (iso : ℤ → String) (row : Queue.Row) :
    relayed (checkpointText iso row) = .obj ((columns iso row).map fun f => (f.1, relayed f.2)) :=
  relayed_obj (nodup_columns iso row) (names_columns iso row)

/-- The columns the edge function of the exact claim leaves out. -/
def exactOmits : List String := ["schema_version", "blocked_reason", "last_error"]

/-- A row as the edge function of the exact claim reads it comes to the client column by column. -/
theorem relayed_exact (iso : ℤ → String) (row : Queue.Row) :
    relayed (QueueEdge.exactText iso row) =
      .obj (((columns iso row).filter fun c => c.1 ∉ exactOmits).map fun f => (f.1, relayed f.2)) := by
  have hsub : (((columns iso row).filter fun c => c.1 ∉ exactOmits).map Prod.fst).Sublist ((columns iso row).map Prod.fst) :=
    List.filter_sublist.map _
  refine relayed_obj ((nodup_columns iso row).sublist hsub) ?_
  rw [List.all_eq_true]
  exact fun k hk => List.all_eq_true.1 (names_columns iso row) k (hsub.subset hk)

/-! ## Leases -/

/-- What a client that accepted a record as a lease read in it. -/
structure LeaseOf (repr : Doc → String) (now : String) (record : Dict Doc) (lease : HostedQueueLease) : Prop where
  taskId : Dict.getD record "task_id" .null = .str lease.taskId
  status : Dict.getD record "status" .null = .str lease.status
  spec : ∃ fields, Dict.getD record "spec" .null = .obj fields ∧ TaskSpec.fromDict repr fields = .ok lease.spec
  state : ∃ fields, Dict.getD record "state" .null = .obj fields ∧ TaskState.fromDict repr now fields = .ok lease.state
  identity : lease.spec.taskId = lease.taskId ∧ lease.state.taskId = lease.taskId
  revision : Dict.getD record "revision" .null = .num (.int lease.revision)
  attempts : Dict.getD record "attempt_count" .null = .num (.int lease.attemptCount)
  generation : Dict.getD record "lease_generation" .null = .num (.int lease.leaseGeneration)
  owner : lease.leaseOwner = Doc.text? (Dict.getD record "lease_owner" .null)

theorem refuseIf_bind_ok {α : Type} {bad : Prop} [Decidable bad] {message : String} {f : Unit → Except HostedError α} {a : α} :
    (HostedQueue.refuseIf bad message >>= f) = .ok a ↔ ¬bad ∧ f () = .ok a := raiseIf_bind_ok

theorem part_ok {α : Type} {x : Option α} {message : String} {a : α} : HostedQueue.part x message = .ok a ↔ x = some a := by
  unfold HostedQueue.part
  split
  · rw [Except.ok.injEq, Option.some.injEq]
  · simp

theorem parseInt_ok {v : Doc} {name : String} {minimum n : ℤ} :
    HostedQueue.parseInt v name minimum = .ok n ↔ v = .num (.int n) ∧ minimum ≤ n := by
  unfold HostedQueue.parseInt
  split
  · rename_i m
    split
    · rename_i hlt
      constructor
      · intro h
        cases h
      · rintro ⟨h, hle⟩
        cases h
        omega
    · rename_i hle
      constructor
      · intro h
        cases h
        exact ⟨rfl, by omega⟩
      · rintro ⟨h, -⟩
        cases h
        rfl
  · rename_i hno
    constructor
    · intro h
      cases h
    · rintro ⟨h, -⟩
      exact absurd h (hno n)

theorem mapError_ok {ε ε' α : Type} {f : ε → ε'} {x : Except ε α} {a : α} : x.mapError f = .ok a ↔ x = .ok a := by
  cases x <;> simp [Except.mapError]

theorem rowStatus_ok {integrity : String → HostedError} {message s : String} {v : Doc}
    (h : HostedQueue.rowStatus integrity message v = .ok s) : v = .str s := by
  unfold HostedQueue.rowStatus at h
  split at h
  · split at h
    · cases h
      rfl
    · cases h
  · cases h
  · cases h
  · cases h

theorem nonempty_ok {v : Doc} {s : String} (h : HostedQueue.nonempty? v = some s) : v = .str s := by
  cases v with
  | str t =>
    obtain ⟨hs, -⟩ := Option.filter_eq_some_iff.1 h
    exact congrArg Json.str (Option.some.inj hs)
  | null => cases h
  | bool b => cases h
  | num n => cases h
  | arr xs => cases h
  | obj fs => cases h

theorem mapping_ok {v : Doc} {fs : Dict Doc} (h : HostedActivity.mapping? v = some fs) : v = .obj fs := by
  cases v with
  | obj gs => exact congrArg Json.obj (Option.some.inj h)
  | null => cases h
  | bool b => cases h
  | num n => cases h
  | arr xs => cases h
  | str t => cases h

/-- What `_parse_lease` accepts. -/
theorem leaseOf_parse {repr : Doc → String} {now : String} {record : Dict Doc} {expected : Option TaskSpec} {lease : HostedQueueLease}
    (h : HostedQueue.parseLease repr now (.obj record) expected = .ok lease) : LeaseOf repr now record lease := by
  unfold HostedQueue.parseLease at h
  obtain ⟨fields, hfields, h⟩ := bind_ok.1 h
  cases part_ok.1 hfields
  obtain ⟨taskId, htask, h⟩ := bind_ok.1 h
  obtain ⟨status, hstatus, h⟩ := bind_ok.1 h
  obtain ⟨model, hmodel, h⟩ := bind_ok.1 h
  obtain ⟨revision, hrevision, h⟩ := bind_ok.1 h
  obtain ⟨attemptCount, hattempts, h⟩ := bind_ok.1 h
  obtain ⟨maxAttempts, hmax, h⟩ := bind_ok.1 h
  obtain ⟨generation, hgeneration, h⟩ := bind_ok.1 h
  obtain ⟨-, h⟩ := refuseIf_bind_ok.1 h
  obtain ⟨key, hkey, h⟩ := bind_ok.1 h
  obtain ⟨notBefore, hnotBefore, h⟩ := bind_ok.1 h
  obtain ⟨_, -, h⟩ := bind_ok.1 h
  cases h
  unfold HostedQueue.parseModel at hmodel
  obtain ⟨rawSpec, hrawSpec, hmodel⟩ := bind_ok.1 hmodel
  obtain ⟨rawState, hrawState, hmodel⟩ := bind_ok.1 hmodel
  obtain ⟨spec, hspec, hmodel⟩ := bind_ok.1 hmodel
  obtain ⟨state, hstate, hmodel⟩ := bind_ok.1 hmodel
  obtain ⟨hid, hmodel⟩ := refuseIf_bind_ok.1 hmodel
  obtain ⟨-, hmodel⟩ := refuseIf_bind_ok.1 hmodel
  obtain ⟨own, -, hmodel⟩ := bind_ok.1 hmodel
  obtain ⟨-, hmodel⟩ := refuseIf_bind_ok.1 hmodel
  obtain ⟨-, hmodel⟩ := refuseIf_bind_ok.1 hmodel
  obtain ⟨_, -, hmodel⟩ := bind_ok.1 hmodel
  cases hmodel
  simp only [not_or, not_not] at hid
  exact
    { taskId := nonempty_ok (part_ok.1 htask)
      status := rowStatus_ok hstatus
      spec := ⟨rawSpec, mapping_ok (part_ok.1 hrawSpec), mapError_ok.1 hspec⟩
      state := ⟨rawState, mapping_ok (part_ok.1 hrawState), mapError_ok.1 hstate⟩
      identity := hid
      revision := (parseInt_ok.1 hrevision).1
      attempts := (parseInt_ok.1 hattempts).1
      generation := (parseInt_ok.1 hgeneration).1
      owner := rfl }

end Hosted

end Keirin

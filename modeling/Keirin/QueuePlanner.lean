import Keirin.Python
import Mathlib.Data.String.Basic

/-!
# The queue planner

`queue_planner.py`: the plan of one owner's queue. It proposes claims in the order of creation, as many as there are free slots;
running tasks occupy slots, and one whose lease is missing or expired is left to reconciliation.
-/

namespace Keirin.QueuePlanner

/-! ## Times -/

/-- The zone of a time: which `tzinfo` object it is, the offset it gives there in microseconds, and whether the offset there is
another one in the other fold. -/
structure Zone where
  object : ℕ
  offset : Option ℤ
  repeated : Bool
deriving DecidableEq

/-- A `datetime`: what the clock on the wall shows, in microseconds, and the zone. -/
structure DateTime where
  wall : ℤ
  zone : Option Zone
deriving DecidableEq

namespace DateTime

/-- `d.utcoffset()` -/
def utcoffset (d : DateTime) : Option ℤ := d.zone.bind Zone.offset

/-- The time in UTC. -/
def instant (d : DateTime) : ℤ := d.wall - d.utcoffset.getD 0

/-- Times of one `tzinfo` object are compared by their wall clocks, all others by their instants. -/
def sameZone (a b : DateTime) : Bool := a.zone.map Zone.object = b.zone.map Zone.object

/-- `a < b` for times with an offset. -/
def lt (a b : DateTime) : Bool := if sameZone a b then a.wall < b.wall else a.instant < b.instant

/-- `a <= b` -/
def le (a b : DateTime) : Bool := if sameZone a b then a.wall ≤ b.wall else a.instant ≤ b.instant

/-- The offset depends on the fold. -/
def repeated (d : DateTime) : Bool := d.zone.any Zone.repeated

/-- `a == b`; a time in a repeated interval equals no time of another zone. -/
def eq (a b : DateTime) : Bool :=
  if sameZone a b then a.wall = b.wall else a.instant = b.instant && !a.repeated && !b.repeated

end DateTime

/-- A time of UTC. -/
def utc (wall : ℤ) : DateTime := ⟨wall, some ⟨0, some 0, false⟩⟩

/-- `_aware` -/
def aware (value : DateTime) : Except PyError Unit := raiseIf (value.utcoffset = none) (.valueError "timezone_aware_timestamp_required")

/-! ## Entries -/

structure QueueEntry where
  ownerId : String
  taskId : String
  idempotencyKey : String
  revision : ℤ
  status : String
  createdAt : DateTime
  notBefore : DateTime
  attempts : ℤ := 0
  maxAttempts : ℤ := 1
  leaseExpiresAt : Option DateTime := none
deriving DecidableEq

/-- The check of the lease, which only a running task may have. -/
def checkLease (row : QueueEntry) : Except PyError Unit :=
  match row.leaseExpiresAt with
  | none => .ok ()
  | some t => do
    aware t
    raiseIf (row.status ≠ "running") (.valueError "lease_requires_running_status")

/-- `validate` -/
def QueueEntry.validate (row : QueueEntry) : Except PyError Unit := do
  raiseIf (isBlank row.ownerId ∨ isBlank row.taskId ∨ isBlank row.idempotencyKey) (.valueError "queue_identity_required")
  raiseIf (row.status ∉ ["queued", "running", "blocked", "completed", "failed"]) (.valueError "invalid_queue_status")
  raiseIf (row.revision < 0 ∨ row.attempts < 0 ∨ row.maxAttempts < 0) (.valueError "invalid_queue_counter")
  raiseIf (row.maxAttempts < 1 ∨ row.maxAttempts < row.attempts) (.valueError "invalid_attempt_budget")
  aware row.createdAt
  aware row.notBefore
  checkLease row

/-! ## The plan -/

inductive Disposition
  | skip
  | reconcile
  | wait
  | proposeClaim
deriving DecidableEq

structure QueueDecision where
  ownerId : String
  taskId : String
  expectedRevision : ℤ
  disposition : Disposition
  reason : String
deriving DecidableEq

/-- The entries are valid, of the owner, and no two have one task or one key. -/
def checkEntries (ownerId : String) : (ids keys : List String) → List QueueEntry → Except PyError Unit
  | _, _, [] => .ok ()
  | ids, keys, row :: rows => do
    row.validate
    raiseIf (row.ownerId ≠ ownerId) (.valueError "queue_owner_scope_mismatch")
    raiseIf (row.taskId ∈ ids ∨ row.idempotencyKey ∈ keys) (.valueError "duplicate_queue_identity")
    checkEntries ownerId (row.taskId :: ids) (row.idempotencyKey :: keys) rows

/-- `(a.created_at, a.task_id) < (b.created_at, b.task_id)` -/
def earlier (a b : QueueEntry) : Bool :=
  if DateTime.eq a.createdAt b.createdAt then a.taskId < b.taskId else DateTime.lt a.createdAt b.createdAt

/-- What `sorted` keeps in place: two entries of which the second is not less than the first. -/
def inOrder (a b : QueueEntry) : Prop := earlier b a = false

instance : DecidableRel inOrder := fun a b => inferInstanceAs (Decidable (earlier b a = false))

/-- The lease of a running task is missing or has run out. -/
def leaseLost (now : DateTime) (row : QueueEntry) : Bool := row.leaseExpiresAt.all fun t => DateTime.le t now

/-- What is decided for an entry, with so many free slots. -/
def judge (now : DateTime) (slots : ℕ) (row : QueueEntry) : Disposition × String :=
  if row.status = "completed" ∨ row.status = "blocked" ∨ row.status = "failed" then (.skip, "terminal_state")
  else if row.status = "running" then
    if leaseLost now row then (.reconcile, "running_outcome_unknown") else (.wait, "active_lease")
  else if row.maxAttempts ≤ row.attempts then (.reconcile, "attempt_budget_exhausted")
  else if DateTime.lt now row.createdAt ∨ DateTime.lt now row.notBefore then (.wait, "not_due")
  else if slots = 0 then (.wait, "capacity_exhausted")
  else (.proposeClaim, "requires_atomic_claim_and_preflight")

/-- The decisions one by one; a proposal takes a slot. -/
def decisions (ownerId : String) (now : DateTime) : (slots : ℕ) → List QueueEntry → List QueueDecision
  | _, [] => []
  | slots, row :: rows =>
    let judged := judge now slots row
    ⟨ownerId, row.taskId, row.revision, judged.1, judged.2⟩ ::
      decisions ownerId now (if judged.1 = .proposeClaim then slots - 1 else slots) rows

/-- The running entries. -/
def running (rows : List QueueEntry) : ℕ := rows.countP fun row => row.status = "running"

/-- The free slots. -/
def freeSlots (capacity : ℤ) (rows : List QueueEntry) : ℕ := (capacity - running rows).toNat

/-- `plan_queue` -/
def planQueue (entries : List QueueEntry) (ownerId : String) (now : DateTime) (capacity : ℤ) : Except PyError (List QueueDecision) := do
  aware now
  raiseIf (isBlank ownerId) (.valueError "owner_scope_required")
  raiseIf (capacity < 1) (.valueError "positive_capacity_required")
  checkEntries ownerId [] [] entries
  return decisions ownerId now (freeSlots capacity entries) (entries.insertionSort inOrder)

/-- The tasks a plan proposes to claim, in its order. -/
def proposals (plan : List QueueDecision) : List String :=
  (plan.filter fun d => d.disposition = .proposeClaim).map QueueDecision.taskId

end Keirin.QueuePlanner

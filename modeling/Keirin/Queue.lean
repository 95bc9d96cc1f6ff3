import Keirin.Lib.Jsonb
import Keirin.Lib.Log
import Keirin.Python

/-!
# The queue

The table `agent_tasks` with its constraints, its row-level security and its trigger, and the functions of the database that
change it. Each call is one transaction: when it raises an error, nothing changes.
-/

namespace Keirin

/-- An error of the database: raised by a function or the trigger, or by a constraint or a policy of the table. -/
inductive PgError
  | raised (message errcode : String)
  | notNull (column : String)
  | check (constraint : String)
  | unique (constraint : String)
  | rowSecurity
  | outOfRange (type : String)
deriving DecidableEq

namespace Queue

/-! ## Patterns -/

/-- `s ~ '^[A-Za-z0-9][A-Za-z0-9._-]{0,127}$'` -/
def isTaskId (s : String) : Bool := Text.isName ['.', '_', '-'] s

/-- `s ~ '^[A-Za-z0-9][A-Za-z0-9._:-]{0,127}$'` -/
def isWorkerId (s : String) : Bool := Text.isName ['.', '_', ':', '-'] s

/-- `s ~ '^sha256-v1:[0-9a-f]{64}$'` -/
def isFingerprint (s : String) : Bool :=
  "sha256-v1:".toList.isPrefixOf s.toList &&
    ((s.toList.drop 10).all (fun c => c.isDigit || ('a' ≤ c && c ≤ 'f')) && (s.toList.drop 10).length = 64)

/-- `s like 'keirin-readonly-status-check.%'` -/
def isTrustedRun (s : String) : Bool := "keirin-readonly-status-check.".toList.isPrefixOf s.toList

/-- A number of the type `bigint`. -/
def bigint (n : Int) : Except PgError Int := if n < 2 ^ 63 then .ok n else .error (.outOfRange "bigint")

/-- A number of the type `integer`. -/
def integer (n : Int) : Except PgError Int := if n < 2 ^ 31 then .ok n else .error (.outOfRange "integer")

/-- `nullif(s, '')` -/
def nullIfEmpty (s : Option String) : Option String := s.filter (fun s => s ≠ "")

/-! ## Rows -/

/-- The status of a row. -/
inductive RowStatus
  | queued
  | running
  | blocked
  | completed
  | failed
deriving DecidableEq

namespace RowStatus

def text : RowStatus → String
  | queued => "queued"
  | running => "running"
  | blocked => "blocked"
  | completed => "completed"
  | failed => "failed"

def ofText (s : String) : Option RowStatus :=
  if s = "queued" then some queued
  else if s = "running" then some running
  else if s = "blocked" then some blocked
  else if s = "completed" then some completed
  else if s = "failed" then some failed
  else none

/-- The status inside the state: `case when status = 'queued' then 'pending' else status end`. -/
def stateText : RowStatus → String
  | queued => "pending"
  | status => status.text

end RowStatus

/-- The columns of `agent_tasks`; times are in microseconds. -/
structure Columns where
  userId : String
  taskId : String
  schemaVersion : String
  status : RowStatus
  idempotencyKey : String
  spec : Jsonb
  state : Jsonb
  blockedReason : Option String
  lastError : Option String
  createdAt : Int
  updatedAt : Int
  revision : Int
  specFingerprint : String
  notBefore : Int
  attemptCount : Int
  maxAttempts : Int
  leaseOwner : Option String
  leaseGeneration : Int
  leaseExpiresAt : Option Int
deriving DecidableEq

/-- The check constraints of the table. -/
def Columns.constraints (c : Columns) : List (String × Bool) :=
  [("agent_tasks_attempt_budget_valid", c.attemptCount ≤ c.maxAttempts),
    ("agent_tasks_attempt_count_nonnegative", 0 ≤ c.attemptCount),
    ("agent_tasks_lease_generation_nonnegative", 0 ≤ c.leaseGeneration),
    ("agent_tasks_lease_owner_format", c.leaseOwner.all isWorkerId),
    ("agent_tasks_lease_pair", c.leaseOwner.isSome = c.leaseExpiresAt.isSome),
    ("agent_tasks_lease_requires_running", c.leaseOwner.isNone || c.status = .running),
    ("agent_tasks_max_attempts_positive", 1 ≤ c.maxAttempts),
    ("agent_tasks_revision_check", 0 ≤ c.revision),
    ("agent_tasks_spec_fingerprint_check", isFingerprint c.specFingerprint),
    ("agent_tasks_spec_is_object", c.spec.isObject),
    ("agent_tasks_state_is_object", c.state.isObject),
    ("agent_tasks_task_id_format", isTaskId c.taskId)]

/-- A row of the table: its columns satisfy the check constraints. -/
structure Row extends Columns where
  checked : ∀ c ∈ toColumns.constraints, c.2 = true
deriving DecidableEq

/-- The primary key of a row. -/
def Row.key (row : Row) : String × String := (row.userId, row.taskId)

/-- What an insert or an update proposes for a row: the columns a call gives may be null, and the status any text. -/
structure Draft where
  userId : String
  taskId : Option String
  schemaVersion : String
  status : Option String
  idempotencyKey : Option String
  spec : Option Jsonb
  state : Option Jsonb
  blockedReason : Option String
  lastError : Option String
  createdAt : Int
  updatedAt : Int
  revision : Int
  specFingerprint : Option String
  notBefore : Int
  attemptCount : Int
  maxAttempts : Int
  leaseOwner : Option String
  leaseGeneration : Int
  leaseExpiresAt : Option Int

/-- The row as it stands, as a proposal. -/
def Row.draft (row : Row) : Draft :=
  { userId := row.userId
    taskId := some row.taskId
    schemaVersion := row.schemaVersion
    status := some row.status.text
    idempotencyKey := some row.idempotencyKey
    spec := some row.spec
    state := some row.state
    blockedReason := row.blockedReason
    lastError := row.lastError
    createdAt := row.createdAt
    updatedAt := row.updatedAt
    revision := row.revision
    specFingerprint := some row.specFingerprint
    notBefore := row.notBefore
    attemptCount := row.attemptCount
    maxAttempts := row.maxAttempts
    leaseOwner := row.leaseOwner
    leaseGeneration := row.leaseGeneration
    leaseExpiresAt := row.leaseExpiresAt }

/-- The value of a column that must not be null. -/
def required {α : Type} (column : String) : Option α → Except PgError α
  | some v => .ok v
  | none => .error (.notNull column)

/-- The row a proposal becomes, where it satisfies the constraints on a row. -/
def Draft.check (d : Draft) : Except PgError Row := do
  let taskId ← required "task_id" d.taskId
  let status ← required "status" d.status
  let idempotencyKey ← required "idempotency_key" d.idempotencyKey
  let spec ← required "spec" d.spec
  let state ← required "state" d.state
  let specFingerprint ← required "spec_fingerprint" d.specFingerprint
  let some status := RowStatus.ofText status | throw (.check "agent_tasks_status_valid")
  let columns : Columns :=
    { userId := d.userId
      taskId := taskId
      schemaVersion := d.schemaVersion
      status := status
      idempotencyKey := idempotencyKey
      spec := spec
      state := state
      blockedReason := d.blockedReason
      lastError := d.lastError
      createdAt := d.createdAt
      updatedAt := d.updatedAt
      revision := d.revision
      specFingerprint := specFingerprint
      notBefore := d.notBefore
      attemptCount := d.attemptCount
      maxAttempts := d.maxAttempts
      leaseOwner := d.leaseOwner
      leaseGeneration := d.leaseGeneration
      leaseExpiresAt := d.leaseExpiresAt }
  if h : ∀ c ∈ columns.constraints, c.2 = true then return { columns with checked := h }
  else throw (.check (((columns.constraints.find? (fun c => !c.2)).map Prod.fst).getD ""))

/-! ## Transactions -/

/-- Who calls: `auth.uid()`, and whether the profile of the user is that of an owner. -/
structure Caller where
  uid : Option String
  owner : Bool
deriving DecidableEq

/-- The times a transaction reads: `now()`, the first reading of the clock, and the readings of the trigger. -/
structure Clock where
  start : Int
  now : Int
  created : Int
  updated : Int
deriving DecidableEq

/-- The policies of the table: an owner sees and writes the rows of their own. -/
def Caller.may (caller : Caller) (userId : String) : Bool := caller.owner && caller.uid = some userId

/-- `agent_checkpoint_guard`, the trigger before an insert or an update. -/
def agentCheckpointGuard (old : Option Row) (new : Draft) (clock : Clock) : Except PgError Draft := do
  let stateField := fun key => new.state.bind (fun s => s.getText key)
  let specField := fun key => new.spec.bind (fun s => s.getText key)
  raiseIf (stateField "task_id" ≠ new.taskId ∨ specField "task_id" ≠ new.taskId ∨
      stateField "schema_version" ≠ some "agent-task-state-v1" ∨ specField "schema_version" ≠ some "agent-task-v1" ∨
      stateField "spec_fingerprint" ≠ new.specFingerprint ∨
      stateField "status" ≠ (if new.status = some "queued" then some "pending" else new.status))
    (.raised "checkpoint_identity_or_status_mismatch" "23514")
  match old with
  | none =>
    raiseIf (new.revision ≠ 0 ∨ new.status ≠ some "queued") (.raised "checkpoint_must_start_queued_at_zero" "23514")
    return { new with createdAt := clock.created, updatedAt := clock.updated }
  | some old =>
    raiseIf (new.userId ≠ old.userId ∨ new.taskId ≠ some old.taskId ∨ new.idempotencyKey ≠ some old.idempotencyKey ∨
        new.spec ≠ some old.spec ∨ new.specFingerprint ≠ some old.specFingerprint ∨
        new.schemaVersion ≠ old.schemaVersion ∨ new.createdAt ≠ old.createdAt)
      (.raised "checkpoint_definition_immutable" "23514")
    raiseIf (new.revision ≠ old.revision + 1) (.raised "checkpoint_revision_must_increment" "23514")
    raiseIf (old.status = .completed) (.raised "completed_checkpoint_immutable" "23514")
    return { new with updatedAt := clock.updated }

/-- What an entry of `agent_task_events` says. -/
inductive TaskEvent
  | checkpointSaved (userId taskId : String) (revision : Int) (status : RowStatus)
  | leaseClaimed (userId taskId : String) (exactTask : Bool) (workerId : Option String)
      (generation revision attemptCount : Int) (expiresAt : Option Int)
  | leaseCheckpoint (userId taskId : String) (released : Bool) (workerId : Option String) (generation : Option Int)
      (revision : Int) (status : RowStatus) (expiresAt : Option Int)
  | leaseExpiryReconciled (userId taskId : String) (previousWorker : Option String) (generation : Option Int)
      (revision : Int) (status : RowStatus) (reason : String)
deriving DecidableEq

/-- The tables: the tasks, each under its key, and the ledger of their events. -/
structure Db where
  tasks : List Row
  events : List TaskEvent
  keyed : (tasks.map Row.key).Nodup
deriving DecidableEq

namespace Db

def empty : Db := { tasks := [], events := [], keyed := List.nodup_nil }

/-- Add an event to the ledger. -/
def event (db : Db) (e : TaskEvent) : Db := { db with events := db.events ++ [e] }

/-- Put a row in the place of the row of its key. -/
def put (tasks : List Row) (row : Row) : List Row := tasks.map (fun r => if r.key = row.key then row else r)

theorem map_key_put (tasks : List Row) (row : Row) : (put tasks row).map Row.key = tasks.map Row.key := by
  rw [put, List.map_map]
  refine List.map_congr_left fun r _ => ?_
  by_cases h : r.key = row.key <;> simp [h]

/-- The unique indexes besides the primary key, for a row among the others. -/
def checkUnique (others : List Row) (row : Row) : Except PgError Unit := do
  raiseIf (∃ r ∈ others, r.userId = row.userId ∧ r.idempotencyKey = row.idempotencyKey)
    (.unique "agent_tasks_user_id_idempotency_key_key")
  let active := fun r : Row => isTrustedRun r.taskId = true ∧ (r.status = .queued ∨ r.status = .running)
  raiseIf (active row ∧ ∃ r ∈ others, active r ∧ r.userId = row.userId)
    (.unique "agent_tasks_one_active_trusted_status_run_per_owner_idx")

/-- `insert into agent_tasks … returning *` -/
def insert (db : Db) (caller : Caller) (clock : Clock) (new : Draft) : Except PgError (Row × Db) := do
  let draft ← agentCheckpointGuard none new clock
  raiseIf (caller.may draft.userId = false) .rowSecurity
  let row ← draft.check
  if h : row.key ∈ db.tasks.map Row.key then throw (.unique "agent_tasks_pkey")
  else do
    checkUnique db.tasks row
    let db' : Db :=
      { tasks := db.tasks ++ [row]
        events := db.events ++ [.checkpointSaved row.userId row.taskId row.revision row.status]
        keyed := by
          rw [List.map_append]
          exact List.nodup_append.2 ⟨db.keyed, List.nodup_singleton _, fun a ha b hb hab =>
            h (by rw [← List.mem_singleton.1 hb, ← hab]; exact ha)⟩ }
    return (row, db')

/-- `update agent_tasks set … where … returning *`, where the condition names one task. -/
def update (db : Db) (caller : Caller) (clock : Clock) (cond : Row → Bool) (set : Row → Except PgError Draft) :
    Except PgError (Option Row × Db) :=
  match db.tasks.find? (fun r => caller.may r.userId && cond r) with
  | none => .ok (none, db)
  | some old => do
    let new ← set old
    let draft ← agentCheckpointGuard (some old) new clock
    raiseIf (caller.may draft.userId = false) .rowSecurity
    let row ← draft.check
    checkUnique (db.tasks.filter (fun r => r.key ≠ old.key)) row
    let db' : Db :=
      { tasks := put db.tasks row
        events := db.events ++ [.checkpointSaved row.userId row.taskId row.revision row.status]
        keyed := by rw [map_key_put]; exact db.keyed }
    return (some row, db')

end Db

/-! ## The functions -/

section Functions

variable (caller : Caller) (clock : Clock)

/-- `auth.uid()`, which must not be null. -/
def authenticated : Except PgError String :=
  match caller.uid with
  | some uid => .ok uid
  | none => .error (.raised "authenticated_user_required" "28000")

/-- An argument that must be there and pass a check. -/
def checkArg {α : Type} (ok : α → Bool) (message : String) : Option α → Except PgError α
  | some v => if ok v then .ok v else .error (.raised message "22023")
  | none => .error (.raised message "22023")

def checkRevision : Option Int → Except PgError Int := checkArg (fun n => 0 ≤ n) "expected_revision_required"

def checkTaskId : Option String → Except PgError String := checkArg isTaskId "invalid_task_id"

def checkWorkerId : Option String → Except PgError String := checkArg isWorkerId "invalid_worker_id"

def checkGeneration : Option Int → Except PgError Int := checkArg (fun n => 1 ≤ n) "invalid_lease_generation"

def checkLeaseSeconds : Option Int → Except PgError Int :=
  checkArg (fun n => 15 ≤ n && n ≤ 3600) "invalid_lease_seconds"

/-- `v_now + make_interval(secs => seconds)` -/
def leaseEnd (seconds : Int) : Int := clock.now + seconds * 1000000

/-- The row an update returned; without one the function raises an error. -/
def found {α : Type} (e : PgError) : Option α → Except PgError α
  | some row => .ok row
  | none => .error e

def agentCreateCheckpoint (taskId idempotencyKey : Option String) (spec state : Option Jsonb)
    (specFingerprint : Option String) (db : Db) : Except PgError (Row × Db) := do
  let uid ← authenticated caller
  db.insert caller clock
    { userId := uid
      taskId := taskId
      schemaVersion := "agent-task-state-v1"
      status := some "queued"
      idempotencyKey := idempotencyKey
      spec := spec
      state := state
      blockedReason := none
      lastError := none
      createdAt := clock.start
      updatedAt := clock.start
      revision := 0
      specFingerprint := specFingerprint
      notBefore := clock.start
      attemptCount := 0
      maxAttempts := 1
      leaseOwner := none
      leaseGeneration := 0
      leaseExpiresAt := none }

/-- The row with a saved state: the reason and the error are taken from the state. -/
def saved (status : Option String) (state : Option Jsonb) (row : Row) : Except PgError Draft := do
  let revision ← bigint (row.revision + 1)
  return { row.draft with
    state := state
    status := status
    blockedReason := nullIfEmpty (state.bind (fun s => s.getText "blocked_reason"))
    lastError := nullIfEmpty (state.bind (fun s => s.getText "last_error"))
    revision := revision }

def agentSaveCheckpoint (taskId : Option String) (expectedRevision : Option Int) (status : Option String)
    (state : Option Jsonb) (db : Db) : Except PgError (Row × Db) := do
  let expected ← checkRevision expectedRevision
  let (row, db) ← db.update caller clock
    (fun r => some r.userId = caller.uid && some r.taskId = taskId && r.revision = expected && r.leaseOwner.isNone)
    (saved status state)
  let row ← found (.raised "checkpoint_conflict_or_not_accessible" "40001") row
  return (row, db)

/-- `jsonb_build_object('status', 'running', 'blocked_reason', null, 'last_error', null)` -/
def runningPatch : Jsonb :=
  .obj [("status", .str "running"), ("last_error", .null), ("blocked_reason", .null)]

/-- The row under a new lease. -/
def claimed (workerId : String) (seconds : Int) (row : Row) : Except PgError Draft := do
  let revision ← bigint (row.revision + 1)
  let attemptCount ← integer (row.attemptCount + 1)
  let leaseGeneration ← bigint (row.leaseGeneration + 1)
  return { row.draft with
    state := some (row.state.concat runningPatch)
    status := some "running"
    blockedReason := none
    lastError := none
    revision := revision
    attemptCount := attemptCount
    leaseOwner := some workerId
    leaseGeneration := leaseGeneration
    leaseExpiresAt := some (leaseEnd clock seconds) }

/-- Whether a row is due to be claimed. -/
def due (row : Row) : Bool := row.status = .queued && row.notBefore ≤ clock.now && row.attemptCount < row.maxAttempts

/-- The event of a claim. -/
def claimEvent (exactTask : Bool) (row : Row) : TaskEvent :=
  .leaseClaimed row.userId row.taskId exactTask row.leaseOwner row.leaseGeneration row.revision row.attemptCount
    row.leaseExpiresAt

/-- `order by created_at, task_id` -/
def claimOrder (a b : Row) : Bool := a.createdAt < b.createdAt || (a.createdAt = b.createdAt && decide (a.taskId ≤ b.taskId))

/-- `agent_claim_next_task`; `locked` are the tasks whose rows other transactions hold, which `skip locked` passes over. -/
def agentClaimNextTask (workerId : Option String) (leaseSeconds : Option Int) (locked : List String) (db : Db) :
    Except PgError (Option Row × Db) := do
  let uid ← authenticated caller
  let worker ← checkWorkerId workerId
  let seconds ← checkLeaseSeconds leaseSeconds
  let candidates := db.tasks.filter (fun r => caller.may r.userId && r.userId = uid && due clock r)
  match (candidates.insertionSort (fun a b => claimOrder a b)).find? (fun r => r.taskId ∉ locked) with
  | none => return (none, db)
  | some next =>
    let (row, db) ← db.update caller clock (fun r => r.userId = uid && r.taskId = next.taskId) (claimed clock worker seconds)
    let row ← found (.notNull "task_id") row
    return (some row, db.event (claimEvent false row))

def agentClaimTask (taskId workerId : Option String) (leaseSeconds : Option Int) (db : Db) :
    Except PgError (Option Row × Db) := do
  let uid ← authenticated caller
  let task ← checkTaskId taskId
  let worker ← checkWorkerId workerId
  let seconds ← checkLeaseSeconds leaseSeconds
  match db.tasks.find? (fun r => caller.may r.userId && (r.userId = uid && r.taskId = task && due clock r)) with
  | none => return (none, db)
  | some next =>
    let (row, db) ← db.update caller clock
      (fun r => r.userId = uid && r.taskId = task && due clock r && r.revision = next.revision &&
        r.attemptCount = next.attemptCount)
      (claimed clock worker seconds)
    let row ← found (.raised "exact_task_claim_conflict" "40001") row
    return (some row, db.event (claimEvent true row))

/-- The row with a state its lease holder saved: the lease is renewed while the task runs and released when it ends. -/
def leasedSaved (status : Option String) (state : Jsonb) (seconds : Int) (row : Row) : Except PgError Draft := do
  let draft ← saved status (some state) row
  return { draft with
    leaseOwner := if status = some "running" then row.leaseOwner else none
    leaseExpiresAt := if status = some "running" then some (leaseEnd clock seconds) else none }

def agentSaveLeasedCheckpoint (taskId : Option String) (expectedRevision : Option Int) (workerId : Option String)
    (leaseGeneration : Option Int) (status : Option String) (state : Option Jsonb) (leaseSeconds : Option Int) (db : Db) :
    Except PgError (Row × Db) := do
  let uid ← authenticated caller
  let task ← checkTaskId taskId
  let expected ← checkRevision expectedRevision
  let worker ← checkWorkerId workerId
  let generation ← checkGeneration leaseGeneration
  raiseIf (∃ s ∈ status, s ∉ ["running", "blocked", "completed", "failed"])
    (.raised "invalid_leased_checkpoint_status" "22023")
  let state ← checkArg Jsonb.isObject "state_must_be_object" state
  let seconds ← checkLeaseSeconds leaseSeconds
  let (row, db) ← db.update caller clock
    (fun r => r.userId = uid && r.taskId = task && r.revision = expected && r.status = .running &&
      r.leaseOwner = some worker && r.leaseGeneration = generation && r.leaseExpiresAt.any (fun t => clock.now < t))
    (leasedSaved clock status state seconds)
  let row ← found (.raised "lease_conflict_or_expired" "40001") row
  return (row, db.event (.leaseCheckpoint row.userId row.taskId (decide (status ≠ some "running")) (some worker)
    (some generation) row.revision row.status row.leaseExpiresAt))

/-- The state a reconciliation stores, with a reason. -/
def reconciledState (state : Jsonb) : String × Jsonb :=
  let reason := (nullIfEmpty (state.getText "blocked_reason")).getD "expired_lease_requires_reconciliation"
  (reason, state.concat (.obj [("blocked_reason", .str reason)]))

/-- The row without its expired lease. -/
def reconciled (state : Jsonb) (row : Row) : Except PgError Draft := do
  let revision ← bigint (row.revision + 1)
  return { row.draft with
    state := some (reconciledState state).2
    status := some "blocked"
    blockedReason := some (reconciledState state).1
    lastError := nullIfEmpty ((reconciledState state).2.getText "last_error")
    revision := revision
    leaseOwner := none
    leaseExpiresAt := none }

def agentReconcileExpiredLease (taskId : Option String) (expectedRevision leaseGeneration : Option Int)
    (state : Option Jsonb) (db : Db) : Except PgError (Row × Db) := do
  let uid ← authenticated caller
  let task ← checkTaskId taskId
  let expected ← checkRevision expectedRevision
  let generation ← checkGeneration leaseGeneration
  let state ← checkArg (fun s => s.isObject && s.getText "status" = some "blocked") "blocked_state_required" state
  let current := fun r : Row => r.userId = uid && r.taskId = task && r.revision = expected && r.status = .running &&
    r.leaseGeneration = generation
  let some old := db.tasks.find? (fun r => caller.may r.userId && (current r && r.leaseOwner.isSome &&
      r.leaseExpiresAt.any (fun t => t ≤ clock.now)))
    | throw (.raised "expired_lease_conflict_or_not_accessible" "40001")
  let (row, db) ← db.update caller clock current (reconciled state)
  let row ← found (.notNull "task_id") row
  return (row, db.event (.leaseExpiryReconciled row.userId row.taskId old.leaseOwner (some generation) row.revision row.status
    (reconciledState state).1))

end Functions

/-! ## Calls -/

/-- A call of one of the functions that change the table. -/
inductive Call
  | createCheckpoint (taskId idempotencyKey : Option String) (spec state : Option Jsonb) (specFingerprint : Option String)
  | saveCheckpoint (taskId : Option String) (expectedRevision : Option Int) (status : Option String) (state : Option Jsonb)
  | claimNextTask (workerId : Option String) (leaseSeconds : Option Int) (locked : List String)
  | claimTask (taskId workerId : Option String) (leaseSeconds : Option Int)
  | saveLeasedCheckpoint (taskId : Option String) (expectedRevision : Option Int) (workerId : Option String)
      (leaseGeneration : Option Int) (status : Option String) (state : Option Jsonb) (leaseSeconds : Option Int)
  | reconcileExpiredLease (taskId : Option String) (expectedRevision leaseGeneration : Option Int) (state : Option Jsonb)
deriving DecidableEq

/-- The transaction of a call: the row it wrote, or none where it wrote nothing, and the tables after it. -/
def Call.run (caller : Caller) (clock : Clock) (db : Db) : Call → Except PgError (Option Row × Db)
  | createCheckpoint taskId key spec state fingerprint =>
    (agentCreateCheckpoint caller clock taskId key spec state fingerprint db).map fun r => (some r.1, r.2)
  | saveCheckpoint taskId expected status state =>
    (agentSaveCheckpoint caller clock taskId expected status state db).map fun r => (some r.1, r.2)
  | claimNextTask worker seconds locked => agentClaimNextTask caller clock worker seconds locked db
  | claimTask taskId worker seconds => agentClaimTask caller clock taskId worker seconds db
  | saveLeasedCheckpoint taskId expected worker generation status state seconds =>
    (agentSaveLeasedCheckpoint caller clock taskId expected worker generation status state seconds db).map
      fun r => (some r.1, r.2)
  | reconcileExpiredLease taskId expected generation state =>
    (agentReconcileExpiredLease caller clock taskId expected generation state db).map fun r => (some r.1, r.2)

/-- A transaction: who calls what, and what the clock says. -/
structure Tx where
  caller : Caller
  clock : Clock
  call : Call
deriving DecidableEq

/-- What the log keeps of a transaction: its call, and what came of it. -/
structure Entry where
  tx : Tx
  outcome : Except PgError (Option Row)

/-- The tables, and the log of the transactions. -/
structure World where
  db : Db
  log : List Entry

def World.initial : World := { db := .empty, log := [] }

/-- One transaction; one that raises an error changes nothing. -/
def World.transact (w : World) (tx : Tx) : World :=
  match tx.call.run tx.caller tx.clock w.db with
  | .ok (row, db) => { db := db, log := w.log ++ [{ tx := tx, outcome := .ok row }] }
  | .error e => { w with log := w.log ++ [{ tx := tx, outcome := .error e }] }

/-- Any sequence of transactions, from the empty tables. -/
def history (txs : List Tx) : World := txs.foldl World.transact .initial

/-! ## Reading the log -/

/-- The worker a claim is made for. -/
def Call.claimant : Call → Option String
  | claimNextTask worker _ _ => worker
  | claimTask _ worker _ => worker
  | _ => none

/-- The revision a save or a reconciliation names. -/
def Call.expectedRevision : Call → Option Int
  | saveCheckpoint _ expected _ _ => expected
  | saveLeasedCheckpoint _ expected _ _ _ _ _ => expected
  | reconcileExpiredLease _ expected _ _ => expected
  | _ => none

namespace Entry

/-- The row the transaction wrote. -/
def row (e : Entry) : Option Row :=
  match e.outcome with
  | .ok r => r
  | .error _ => none

/-- The transaction claimed the task for a worker, under a new generation. -/
def Claims (key : String × String) (worker : String) (generation : Int) (e : Entry) : Prop :=
  e.tx.call.claimant = some worker ∧ ∃ row, e.row = some row ∧ row.key = key ∧ row.leaseGeneration = generation

/-- The transaction is a leased save of the task that was accepted. -/
def Saves (key : String × String) (worker : String) (generation : Int) (status : Option String) (e : Entry) : Prop :=
  e.tx.caller.uid = some key.1 ∧ e.row ≠ none ∧ ∃ expected state seconds,
    e.tx.call = .saveLeasedCheckpoint (some key.2) expected (some worker) (some generation) status state seconds

/-- The transaction is a reconciliation of the expired lease of the task that was accepted. -/
def Reconciles (key : String × String) (generation : Int) (e : Entry) : Prop :=
  e.tx.caller.uid = some key.1 ∧ e.row ≠ none ∧ ∃ expected state,
    e.tx.call = .reconcileExpiredLease (some key.2) expected (some generation) state

/-- The transaction is about the lease of the task under the generation: it claims it, saves under it or reconciles it. -/
def Carries (key : String × String) (generation : Int) (e : Entry) : Prop :=
  (∃ worker, e.Claims key worker generation) ∨ (∃ worker status, e.Saves key worker generation status) ∨
    e.Reconciles key generation

/-- Whether the transaction claimed the task. -/
def isClaim (key : String × String) (e : Entry) : Bool := e.tx.call.claimant.isSome && e.row.any (fun row => row.key = key)

/-- The transaction ends the lease of the task: a claim, a save that is not running, or a reconciliation. -/
def Ends (key : String × String) (e : Entry) : Prop :=
  (∃ worker generation, e.Claims key worker generation) ∨
    (∃ worker generation status, e.Saves key worker generation status ∧ status ≠ some "running") ∨
    ∃ generation, e.Reconciles key generation

/-- The transaction leaves the generation behind: it releases it, reconciles it, or claims a later one. -/
def Retires (key : String × String) (generation : Int) (e : Entry) : Prop :=
  (∃ worker later, e.Claims key worker later ∧ generation < later) ∨
    (∃ worker status, e.Saves key worker generation status ∧ status ≠ some "running") ∨ e.Reconciles key generation

end Entry

end Queue

end Keirin

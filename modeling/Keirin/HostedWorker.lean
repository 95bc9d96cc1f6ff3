import Keirin.HostedQueue
import Keirin.Lib.Layers

/-!
# The hosted workers

`hosted_readonly_worker.py` and `hosted_worker.py`: the store of a runner whose state is the row under a lease, the worker that
runs a task over it, and the coordinator that claims a task and gives it back without running it.
-/

namespace Keirin

namespace HostedWorker

open HostedQueue (ok now)

/-! ## The tools -/

/-- `AccessMode` -/
inductive AccessMode
  | read
  | write
  | execute
deriving DecidableEq

/-- What `ToolRegistry` keeps: the names of the registered actions in their order, and the access of each. -/
abbrev ToolRegistry := Dict AccessMode

/-- `_used_actions` -/
def usedActions (spec : TaskSpec) : List String :=
  (spec.steps.flatMap fun step => step.action :: step.verifyAction.toList).filter fun a => a ≠ ""

/-- `sorted(set(xs))` -/
def sortedSet (xs : List String) : List String := xs.dedup.insertionSort (· ≤ ·)

/-- `_preflight`: the actions that are missing, and those whose access is not allowed. -/
def preflight (registry : ToolRegistry) (allowed : List AccessMode) (spec : TaskSpec) :
    Except HostedError (List String × List String) := do
  HostedQueue.builtin spec.validate
  let used := sortedSet (usedActions spec)
  return (used.filter fun a => (Dict.get? a registry).isNone,
    used.filter fun a => (Dict.get? a registry).any fun access => access ∉ allowed)

/-- `_release_blocked`, `_blocked_state`: the state of the lease, blocked with a reason. -/
def blockedState (repr : Doc → String) (time touched reason : String) (lease : HostedQueueLease) : Except HostedError TaskState := do
  let state ← HostedQueue.detachedState repr time lease.state
  return { state with status := .blocked, blockedReason := .str reason, lastError := .null, updatedAt := touched }

/-- Send a request of the client of the ledger. -/
def sendRequest (r : HostedRequest) : Prog ClientCmd ClientCmd.Reply PyError (Except PyError Doc) :=
  .cmd (.request r.1 r.2) .ret

/-- A method of the client of the ledger. -/
def ledger {α : Type} (p : HostedProg α) : ClientProg α := (p.handle sendRequest).mapError .builtin

section Workers

variable (repr : Doc → String)

/-- Append an entry to the ledger; the record it returns is not used. -/
def appendEvent (taskId eventType : String) (stepId : Option String) (payload : Dict Doc) : ClientProg Unit := do
  let _ ← ledger (HostedActivity.append repr taskId eventType stepId payload)
  return ()

/-- Save the state of a lease as blocked, which must release it. -/
def releaseBlocked (failure workerId : String) (leaseSeconds : ℤ) (reason : String) (lease : HostedQueueLease) :
    ClientProg HostedQueueLease := do
  let time ← now
  let touched ← now
  let state ← ok (blockedState repr time touched reason lease)
  let released ← HostedQueue.save repr lease.spec state lease.revision workerId lease.leaseGeneration leaseSeconds
  ok (HostedQueue.builtin (raiseIf (released.status ≠ "blocked" ∨ released.leaseOwner ≠ none) (.runtimeError failure)))
  return released

/-! ## The coordinator -/

structure HostedWorkerDecision where
  claimed : Bool
  taskId : Option String
  revision : Option ℤ
  leaseGeneration : Option ℤ
  ready : Bool
  missingActions : List String
  forbiddenActions : List String
  blockedReason : String

/-- The reason the coordinator gives a task back for. -/
def preflightReason (missing forbidden : List String) : String :=
  if missing ≠ [] then "preflight_missing_actions:" ++ ",".intercalate missing
  else if forbidden ≠ [] then "preflight_forbidden_actions:" ++ ",".intercalate forbidden
  else "hosted_task_execution_not_activated"

/-- `inspect_next` -/
def inspectNext (registry : ToolRegistry) (allowed : List AccessMode) (workerId : String) (leaseSeconds : ℤ) :
    ClientProg HostedWorkerDecision := do
  match ← HostedQueue.claim repr workerId leaseSeconds with
  | none =>
    return { claimed := false, taskId := none, revision := none, leaseGeneration := none, ready := false, missingActions := []
             forbiddenActions := [], blockedReason := "queue_empty" }
  | some lease =>
    appendEvent repr lease.taskId "worker_preflight_started" none
      [("worker_id", .str workerId), ("revision", .num (.int lease.revision)),
        ("lease_generation", .num (.int lease.leaseGeneration))]
    let (missing, forbidden) ← ok (preflight registry allowed lease.spec)
    let reason := preflightReason missing forbidden
    let released ← releaseBlocked repr "worker_preflight_failed_to_release_lease" workerId leaseSeconds reason lease
    appendEvent repr lease.taskId "worker_preflight_blocked" none
      [("worker_id", .str workerId), ("revision", .num (.int released.revision)),
        ("lease_generation", .num (.int released.leaseGeneration)), ("reason", .str reason),
        ("missing_actions", .arr (missing.map .str)), ("forbidden_actions", .arr (forbidden.map .str)),
        ("execution_enabled", .bool false)]
    return { claimed := true, taskId := some lease.taskId, revision := some released.revision
             leaseGeneration := some released.leaseGeneration, ready := missing = [] && forbidden = []
             missingActions := missing, forbiddenActions := forbidden, blockedReason := reason }

/-! ## The store of a lease -/

/-- What an exception of the store is to the runner, which does not catch it. -/
def storeError : HostedError → PyError
  | .builtin e => e
  | .queueError m => .runtimeError m
  | .queueConflict m => .runtimeError m
  | .queueIntegrity m => .runtimeError m
  | .checkpointError m => .runtimeError m
  | .checkpointConflict m => .runtimeError m
  | .checkpointNotFound m => .runtimeError m
  | .checkpointIntegrity m => .runtimeError m
  | .recoveryIntegrity m => .runtimeError m
  | .trustedRunAlreadyUsed m => .runtimeError m
  | .notAuthorized m => .runtimeError m

/-- The reply of a method that may raise, and the lease after it. -/
def reply {α : Type} (lease : HostedQueueLease) : Except HostedError α → Except PyError α × HostedQueueLease
  | .ok a => (.ok a, lease)
  | .error e => (.error (storeError e), lease)

/-- `save_state` -/
def saveState (workerId : String) (leaseSeconds : ℤ) (lease : HostedQueueLease) (state : TaskState) : ClientProg HostedQueueLease := do
  ok (HostedQueue.builtin (raiseIf (state.taskId ≠ lease.taskId) (.valueError "task_state_id_mismatch")))
  let touched ← now
  HostedQueue.save repr lease.spec { state with updatedAt := touched } lease.revision workerId lease.leaseGeneration leaseSeconds

/-- `HostedLeaseStateStore`, with the actions the runner calls; `taskId` is the task of the run. -/
def leaseStore (taskId workerId : String) (leaseSeconds : ℤ) (lease : HostedQueueLease) :
    (c : RunnerCmd) → ClientProg (c.Reply × HostedQueueLease)
  | .lock => .ret (raiseIf (taskId ≠ lease.taskId) (.valueError "task_state_id_mismatch"), lease)
  | .exists =>
    .ret ((raiseIf (taskId ≠ lease.taskId) (.valueError "task_state_id_mismatch")).map fun _ => true, lease)
  | .load => do
    let time ← now
    return if taskId ≠ lease.taskId then (.error (.valueError "task_state_id_mismatch"), lease)
      else reply lease (HostedQueue.detachedState repr time lease.state)
  | .save state => do
    match ← (saveState repr workerId leaseSeconds lease state).outcome with
    | .ok lease' => return (.ok (), lease')
    | .error e => return (.error (storeError e), lease)
  | .event e => do
    if e.taskId ≠ lease.taskId then return (.error (.valueError "activity_task_id_mismatch"), lease)
    else return reply lease (← (appendEvent repr e.taskId e.eventType e.stepId
      [("message", e.message), ("data", .obj e.data)]).outcome)
  | .invoke call => .cmd (.invoke call) fun _ => .ret ((), lease)
  | .await call => .cmd (.await call) fun answer => .ret (answer, lease)

/-! ## The worker -/

structure HostedReadOnlyWorkerResult where
  claimed : Bool
  taskId : Option String
  outcome : Option RunOutcome
  blockedReason : Doc

/-- The flags of an item a result reports as written, `none` where it is no artifact update. -/
def itemFlags : ArtifactItem → Option (List Doc)
  | .update u => some [u.created, u.persistentSaved, u.deviceSaved, u.uiLoaded]
  | .mapping fields =>
    some (["created", "persistent_saved", "device_saved", "ui_loaded"].map fun key => Dict.getD fields key .null)
  | .other => none

/-- The loop of `_assert_read_only_result` over the updates of a result. -/
def checkItems : List ArtifactItem → Except ActionExc Unit
  | [] => .ok ()
  | item :: items =>
    match itemFlags item with
    | none => .error (.safe "read_only_action_returned_invalid_artifact_update")
    | some flags => if .bool true ∈ flags then .error (.safe "read_only_action_reported_write_artifact") else checkItems items

/-- `_assert_read_only_result`: the artifacts are iterated once, and a result that reports a write is refused. -/
def assertReadOnlyResult : Returned → Except ActionExc Returned
  | .result r => do
    checkItems (← r.artifacts.toTuple)
    return .result { r with artifacts := r.artifacts.next }
  | .dict d => do
    if d.artifacts.listOrTuple then checkItems (← d.artifacts.toTuple)
    return .dict d
  | .mapping d => do
    if d.artifacts.listOrTuple then checkItems (← d.artifacts.toTuple)
    return .mapping d
  | v => .ok v

/-- The store of a lease under the guard of the worker: an action answers through `_assert_read_only_result`. -/
def guardedStore (taskId workerId : String) (leaseSeconds : ℤ) (lease : HostedQueueLease) :
    (c : RunnerCmd) → ClientProg (c.Reply × HostedQueueLease)
  | .await call => .cmd (.await call) fun answer => .ret (Except.bind answer assertReadOnlyResult, lease)
  | c => leaseStore repr taskId workerId leaseSeconds lease c

/-- `_guarded_actions`: the names of the registered actions that only read. -/
def guardedActions (registry : ToolRegistry) : List String := (registry.filter fun a => a.2 = .read).map Prod.fst

/-- `_release_blocked`, with the result it leads to. -/
def giveBack (workerId : String) (leaseSeconds : ℤ) (reason : String) (lease : HostedQueueLease) :
    ClientProg HostedReadOnlyWorkerResult := do
  let released ← releaseBlocked repr "read_only_worker_failed_to_release_lease" workerId leaseSeconds reason lease
  appendEvent repr lease.taskId "readonly_worker_blocked" none
    [("worker_id", .str workerId), ("revision", .num (.int released.revision)),
      ("lease_generation", .num (.int released.leaseGeneration)), ("reason", .str reason)]
  return { claimed := true, taskId := some lease.taskId, outcome := none, blockedReason := .str reason }

/-- `run_next` from the claimed lease on. -/
def runClaimed (registry : ToolRegistry) (workerId : String) (leaseSeconds : ℤ) (lease : HostedQueueLease) :
    ClientProg HostedReadOnlyWorkerResult := do
  appendEvent repr lease.taskId "readonly_worker_claimed" none
    [("worker_id", .str workerId), ("revision", .num (.int lease.revision)), ("lease_generation", .num (.int lease.leaseGeneration))]
  let (missing, nonRead) ← ok (preflight registry [.read] lease.spec)
  if missing ≠ [] then giveBack repr workerId leaseSeconds ("preflight_missing_actions:" ++ ",".intercalate missing) lease
  else if nonRead ≠ [] then
    giveBack repr workerId leaseSeconds ("readonly_worker_forbidden_actions:" ++ ",".intercalate nonRead) lease
  else do
    let (outcome, _) ← ((Runner.run repr lease.spec (guardedActions registry) []).mapError .builtin).serve
      (guardedStore repr lease.spec.taskId workerId leaseSeconds) lease
    return { claimed := true, taskId := some lease.taskId, outcome := some outcome, blockedReason := outcome.blockedReason }

/-- `run_next`; `claim` is that of the queue, or that of the client bound to one task. -/
def runNext (executionAuthorized : Bool) (claim : ClientProg (Option HostedQueueLease)) (registry : ToolRegistry)
    (workerId : String) (leaseSeconds : ℤ) : ClientProg HostedReadOnlyWorkerResult := do
  if executionAuthorized = false then .raise (.notAuthorized "hosted_readonly_execution_not_authorized")
  else match ← claim with
    | none => return { claimed := false, taskId := none, outcome := none, blockedReason := .str "queue_empty" }
    | some lease => runClaimed repr registry workerId leaseSeconds lease

end Workers

end HostedWorker

end Keirin

import Keirin.Lib.Log
import Keirin.Runner

/-!
# The file store

The store of one task on one host: the file of its state and the ledger of its activity. A history is any sequence of runs
and operator reconciliations of the task, each cut off anywhere; the per-task lock serialises them. The log keeps what the
claims speak of: the writes of the state, the calls of actions and their answers.
-/

namespace Keirin

/-- The outcome of an operator's review of a blocked step. -/
inductive Resolution
  | notApplied
  | appliedAndVerified
  | needsManualAction
deriving DecidableEq

def Resolution.ofText (s : String) : Option Resolution :=
  if s = "not_applied" then some .notApplied
  else if s = "applied_and_verified" then some .appliedAndVerified
  else if s = "needs_manual_action" then some .needsManualAction
  else none

def Resolution.text : Resolution → String
  | notApplied => "not_applied"
  | appliedAndVerified => "applied_and_verified"
  | needsManualAction => "needs_manual_action"

/-! ## Reconciliation -/

/-- A call of `reconcile_blocked_step`; `now` is the time of its record. -/
structure Reconciliation where
  stepId : String
  resolution : String
  note : String
  artifactUpdates : List ArtifactUpdate
  now : String
deriving DecidableEq

namespace FileStore

open Runner

/-- The record of a reconciliation. -/
def record (r : Reconciliation) (state : TaskState) : Doc :=
  .obj [("timestamp", .str r.now), ("step_id", .str r.stepId), ("resolution", .str r.resolution), ("note", .str r.note),
    ("previous_blocked_reason", state.blockedReason), ("previous_last_error", state.lastError)]

/-- The state after a reconciliation, the record of it appended. -/
def resolve (stepId : String) (resolution : Resolution) (state : TaskState) : TaskState :=
  match resolution with
  | .notApplied =>
    { state with
      status := .pending
      blockedReason := .null
      lastError := .null
      attempts := Dict.pop stepId state.attempts }
  | .appliedAndVerified =>
    { state with
      completedSteps := if state.done stepId then state.completedSteps else state.completedSteps ++ [.str stepId]
      status := .pending
      blockedReason := .null
      lastError := .null }
  | .needsManualAction => { state with status := .blocked }

/-- `resolution not in _RECONCILIATION_RESOLUTIONS` -/
def checkResolution (s : String) : Except PyError Resolution :=
  match Resolution.ofText s with
  | some r => .ok r
  | none => .error (.valueError "invalid_reconciliation_resolution")

/-- `reconcile_blocked_step` -/
def reconcileBlockedStep (taskId : String) (r : Reconciliation) : RunProg TaskState := do
  lock
  let resolution ← unwrap (checkResolution r.resolution)
  unwrap (raiseIf (isBlank r.stepId) (.valueError "step_id_required"))
  unwrap (raiseIf (isBlank r.note) (.valueError "reconciliation_note_required"))
  let state ← loadState
  unwrap (raiseIf (state.status ≠ .blocked) (.valueError "task_not_blocked"))
  let state ← unwrap ((r.artifactUpdates.map ArtifactItem.update).foldlM applyArtifactUpdate state)
  let state := { state with reconciliations := state.reconciliations ++ [record r state] }
  let state := resolve r.stepId resolution state
  saveState state
  appendEvent taskId "step_reconciled" (.str r.resolution) (some r.stepId) [("note", .str r.note)]
  return state

/-! ## The store -/

/-- What the log keeps; every entry carries the number of the operation it belongs to. -/
inductive Item
  | saved (n : Nat) (state : TaskState)
  | reconciled (n : Nat) (stepId : String) (resolution : Resolution) (state : TaskState)
  | invoked (n : Nat) (call : ActionCall)
  | answered (n : Nat) (call : ActionCall) (answer : Except ActionExc Returned)

/-- The file of the state, the ledger with its timestamps, the log, and the number of operations begun. -/
structure World where
  file : Option TaskState
  ledger : List (String × Event)
  log : List Item
  ops : Nat

def World.initial : World := { file := none, ledger := [], log := [], ops := 0 }

/-- How a command is resolved: it succeeds at a time, it fails with an exception, or an action answers. -/
inductive Choice
  | ok (now : String)
  | fail (e : PyError)
  | answer (a : Except ActionExc Returned)

/-- `_SAFE_ID` -/
def safeTaskId (taskId : String) : Bool := Text.isName ['.', '_', '-'] taskId

/-- `_safe_task_id` -/
def checkTaskId (taskId : String) : Except PyError Unit := raiseIf (safeTaskId taskId = false) (.valueError "unsafe_task_id")

/-- What the commands of operation `n` do; `mark` is its entry for a write of the state. A write needs a state that
`json.dumps` accepts; a failed write leaves the file as it is. -/
def machine (taskId : String) (n : Nat) (mark : TaskState → Item) : Machine World RunnerCmd RunnerCmd.Reply Choice
  | w, .lock, .ok _ => some (checkTaskId taskId, w)
  | w, .exists, .ok _ => some ((checkTaskId taskId).map fun _ => w.file.isSome, w)
  | w, .load, .ok now =>
    some ((checkTaskId taskId).bind fun _ =>
      match w.file with
      | none => .ok { taskId := taskId, updatedAt := now }
      | some state => if state.taskId ≠ taskId then .error (.valueError "task_state_id_mismatch") else .ok state, w)
  | w, .save state, .ok now =>
    let state := { state with updatedAt := now }
    if Doc.encodable state.toDict then some (.ok (), { w with file := some state, log := w.log ++ [mark state] }) else none
  | w, .event e, .ok now => some (.ok (), { w with ledger := w.ledger ++ [(now, e)] })
  | w, .invoke c, .ok _ => some ((), { w with log := w.log ++ [.invoked n c] })
  | w, .await c, .answer a => some (a, { w with log := w.log ++ [.answered n c a] })
  | w, .lock, .fail e => some (.error e, w)
  | w, .exists, .fail e => some (.error e, w)
  | w, .load, .fail e => some (.error e, w)
  | w, .save _, .fail e => some (.error e, w)
  | w, .event _, .fail e => some (.error e, w)
  | _, _, _ => none

/-! ## Histories -/

/-- An operation on the task, with the choices that resolve its commands; it is cut off where they end. -/
inductive Op
  | run (actions : List String) (context : Dict Doc) (choices : List Choice)
  | reconcile (r : Reconciliation) (choices : List Choice)

section History

variable (repr : Doc → String) (spec : TaskSpec)

/-- The entry a write leaves in the log. -/
def Op.mark (n : Nat) : Op → TaskState → Item
  | .run .., state => .saved n state
  | .reconcile r _, state =>
    match Resolution.ofText r.resolution with
    | some resolution => .reconciled n r.stepId resolution state
    | none => .saved n state

/-- One operation. -/
def Op.exec (w : World) (op : Op) : World :=
  let w' := match op with
    | .run actions context choices =>
      (Prog.exec (machine spec.taskId w.ops (op.mark w.ops)) choices w (Runner.run repr spec actions context)).1
    | .reconcile r choices =>
      (Prog.exec (machine spec.taskId w.ops (op.mark w.ops)) choices w (reconcileBlockedStep spec.taskId r)).1
  { w' with ops := w.ops + 1 }

/-- A whole history of the task, from the empty store. -/
def history (ops : List Op) : World := ops.foldl (Op.exec repr spec) .initial

end History

/-! ## Reading the log -/

/-- The state an entry wrote. -/
def Item.written : Item → Option TaskState
  | .saved _ state => some state
  | .reconciled _ _ _ state => some state
  | _ => none

/-- The durable state: the last one written. -/
def lastState (log : List Item) : Option TaskState := log.foldl (fun s item => item.written.or s) none

/-- Whether an entry starts a call of the action of the step. -/
def Item.isCall (stepId : String) : Item → Bool
  | .invoked _ c => c.phase = .action && c.stepId = stepId
  | _ => false

/-- Whether an entry is a reconciliation of the step as not applied. -/
def Item.isNotApplied (stepId : String) : Item → Bool
  | .reconciled _ s resolution _ => s = stepId && resolution = .notApplied
  | _ => false

/-- How often the action of the step was called. -/
def calls (stepId : String) (log : List Item) : Nat := log.countP (Item.isCall stepId)

/-- How often it was called since the step was last reconciled as not applied. -/
def callsSince (stepId : String) (log : List Item) : Nat :=
  log.foldl (fun n item => if item.isNotApplied stepId then 0 else if item.isCall stepId then n + 1 else n) 0

end FileStore

end Keirin

import Keirin.FileStore
import Keirin.Ledger
import Keirin.PythonData

/-!
# Identity of a task

The round trip of a definition through its JSON text, and the history of a task whose runs are given definitions that may differ: the
definition that is bound to the task is the one of the run that first wrote its state.
-/

namespace Keirin

namespace Doc

/-- `json.dumps(v, allow_nan=False)` -/
def jsonText (v : Doc) : Except PyError (List Char) := do
  Doc.checkFinite v
  return Doc.ascii (v.spaced [' '] Scalar.text)

/-- `json.loads(json.dumps(v, allow_nan=False))` -/
def roundTrip (v : Doc) : Except PyError Doc := do
  let text ← jsonText v
  loads text

end Doc

namespace TaskSpec

/-- A valid definition whose arguments and inputs are JSON values. -/
structure Definition where
  spec : TaskSpec
  valid : spec.validate = .ok ()
  encodable : spec.toDict.encodable = true
  finite : Doc.finite spec.toDict = true
  keysOnce : spec.toDict.keysOnce = true

/-- `TaskSpec.from_dict(json.loads(json.dumps(spec.to_dict(), allow_nan=False)))` -/
def reread (repr : Doc → String) (spec : TaskSpec) : Except PyError TaskSpec := do
  let .obj payload ← Doc.roundTrip spec.toDict | throw (.typeError "string indices must be integers")
  fromDict repr payload

/-- The bytes the digest is taken of. -/
def bytes (spec : TaskSpec) : List ℕ := Text.utf8 spec.encoded

/-- Two definitions of different bytes with one digest. -/
def Collide (s t : TaskSpec) : Prop := s.bytes ≠ t.bytes ∧ Sha256.hexdigest s.bytes = Sha256.hexdigest t.bytes

/-- Equal as JSON documents, up to the order of the keys. -/
def Same (s t : TaskSpec) : Prop := Json.Same s.toDict t.toDict

end TaskSpec

namespace FileStore

open TaskSpec (Definition)

/-- An operation on a task: a run with some definition of it, or a reconciliation. -/
inductive TaskOp (taskId : String)
  | run (definition : Definition) (task : definition.spec.taskId = taskId) (actions : List String) (context : Dict Doc)
      (choices : List Choice)
  | reconcile (r : Reconciliation) (choices : List Choice)

/-- The store of a task, and the definition that was first bound to it. -/
structure Bound where
  world : World
  first : Option Definition

section Task

variable (repr : Doc → String) {taskId : String}

/-- One operation, cut off where its choices end. -/
def TaskOp.exec (w : World) : TaskOp taskId → World
  | .run definition _ actions context choices => Op.exec repr definition.spec w (.run actions context choices)
  | .reconcile r choices =>
    let op := Op.reconcile r choices
    { (Prog.exec (machine taskId w.ops (op.mark w.ops)) choices w (reconcileBlockedStep taskId r)).1 with ops := w.ops + 1 }

/-- The definition an operation is given. -/
def TaskOp.definition : TaskOp taskId → Option Definition
  | .run definition _ _ _ _ => some definition
  | .reconcile _ _ => none

/-- One operation; the first after which there is a state has bound its definition. -/
def TaskOp.bind (b : Bound) (op : TaskOp taskId) : Bound where
  world := op.exec repr b.world
  first := b.first.or (if (op.exec repr b.world).file.isSome then op.definition else none)

/-- A whole history of a task, from the empty store. -/
def taskHistory (ops : List (TaskOp taskId)) : Bound := ops.foldl (TaskOp.bind repr) ⟨.initial, none⟩

/-- What is left of a run when the lock is taken, the file is found and its state is loaded. -/
def loaded (w : World) (definition : Definition) (actions : List String) (context : Dict Doc) (now : String) : RunProg RunOutcome :=
  ((Runner.run repr definition.spec actions context).exec (machine definition.spec.taskId w.ops (Item.saved w.ops))
    [.ok now, .ok now, .ok now] w).2

end Task

end FileStore

end Keirin

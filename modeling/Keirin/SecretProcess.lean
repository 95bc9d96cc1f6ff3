import Keirin.SecretBackend

/-!
# The process of a database operation

An operation on the secret backend runs in a process of its own: the child talks to the database through a driver of which every
call may fail, and leaves a message in memory it shares with its parent; the parent waits, reads the message if the child came to
a clean end, and reaps the child. What is true of the write is kept beside them: whether its statement was submitted, and whether
it took effect.
-/

namespace Keirin

/-! ## The driver -/

/-- What a call raised: an interrupt from the keyboard or the system or another exception, with what it says of the database. -/
structure CallError where
  interrupt : Option Bool
  sqlstate : Option String
  messagePrimary : Option String
deriving DecidableEq

/-- The calls of the driver. -/
inductive DriverCmd
  | connect
  | autocommit
  | cursor
  | execute (write : Bool)
  | fetchone
  | commit
  | rollback
  | closeCursor
  | closeConnection
deriving DecidableEq

/-- What `fetchone` returns: no row, the columns of a row, or another value. -/
inductive Fetched
  | none
  | row (columns : List Doc)
  | other

/-- What a call returns; `connection.autocommit` only matters as far as it is `False`. -/
def DriverCmd.Value : DriverCmd → Type
  | autocommit => Bool
  | fetchone => Fetched
  | _ => Unit

/-- What the child calls: the guards of its process, the constructor of the backend, the driver, and the memory it shares. -/
inductive ChildCmd
  | guardParent
  | configure
  | driver (c : DriverCmd)
  | writeBuffer (message : Doc)
  | writeLength (n : Nat)
  | exit (code : Nat)

/-- The reply to a call: what it returned, or what it raised. -/
def ChildCmd.Reply : ChildCmd → Type
  | driver c => Except CallError c.Value
  | exit _ => Unit
  | _ => Except CallError Unit

abbrev ChildProg := Prog ChildCmd ChildCmd.Reply SecretError

/-! ## `PostgresSecretBackend._operate` -/

/-- How far an operation came: what `finally` has to close, and whether the statement was handed over. -/
structure Progress where
  connected : Bool := false
  hasCursor : Bool := false
  executing : Bool := false
  submitted : Bool := false

namespace PostgresSecretBackend

/-- Call the driver and go on with what it returned, or with what it raised. -/
def call (c : DriverCmd) (raised : CallError → ChildProg (Except BackendError Doc))
    (returned : c.Value → ChildProg (Except BackendError Doc)) : ChildProg (Except BackendError Doc) :=
  .cmd (.driver c) fun
    | .ok v => returned v
    | .error e => raised e

/-- The exception of the version conflict. -/
def isConflict (e : CallError) : Bool := e.sqlstate = some "P0002" && e.messagePrimary = some "credential_version_conflict"

/-- Close what is open; what that raises is dropped. -/
def close (p : Progress) (outcome : Except BackendError Doc) : ChildProg (Except BackendError Doc) :=
  let connection := if p.connected then call .closeConnection (fun _ => .ret outcome) (fun _ => .ret outcome) else .ret outcome
  if p.hasCursor then call .closeCursor (fun _ => connection) (fun _ => connection) else connection

/-- The exception for an operation that failed. -/
def failure (write : Bool) (p : Progress) (raised : Option CallError) (rolledBack : Bool) : BackendError :=
  if p.submitted then
    if write && p.executing && raised.any isConflict && rolledBack then .conflict else .ambiguousWrite
  else match raised.bind CallError.interrupt with
    | some keyboard => .other (some keyboard)
    | none => .unavailable

/-- What follows an exception: `raised` is what the driver raised, none where a check of the operation failed. -/
def fail (write : Bool) (p : Progress) (raised : Option CallError) : ChildProg (Except BackendError Doc) :=
  let ended := fun rolledBack => close p (.error (failure write p raised rolledBack))
  if p.connected then call .rollback (fun _ => ended false) (fun _ => ended true) else ended false

/-- The checks before the connection: the payload of a write. -/
def payloadOf (binding : CredentialBinding) (key : String) (expected : Option Int) (replacement : Doc) (write : Bool) :
    Except SecretError Doc := do
  raiseIf (key ≠ bindingKey binding) (.valueError "binding_invalid")
  if write then
    match expected with
    | none => throw (.valueError "version_invalid")
    | some expected =>
      raiseIf (expected < 0 ∨ SecretBackend.maxBigint ≤ expected) (.valueError "version_invalid")
      let payload ← SecretBackend.strictRecord replacement binding
      raiseIf (payload.get? "version" ≠ some (.num (.int (expected + 1)))) (.valueError "version_invalid")
      return payload
  else return .null

/-- The record of the row that was fetched, and was the only one. -/
def recordOf (binding : CredentialBinding) (payload : Doc) (write : Bool) (first second : Fetched) : Except SecretError Doc :=
  match first, second with
  | .row [column], .none => do
    let result ← SecretBackend.strictRecord column binding
    raiseIf (write = true ∧ result.sortKeys ≠ payload.sortKeys) (.valueError "readback_mismatch")
    return result
  | _, _ => .error (.valueError "row_invalid")

/-- `_operate` -/
def operate (binding : CredentialBinding) (key : String) (expected : Option Int) (replacement : Doc) (write : Bool) :
    ChildProg (Except BackendError Doc) :=
  let fail := fail write
  match payloadOf binding key expected replacement write with
  | .error _ => fail {} none
  | .ok payload =>
    call .connect (fun e => fail {} (some e)) fun _ =>
    let connected : Progress := { connected := true }
    call .autocommit (fun e => fail connected (some e)) fun (off : Bool) =>
    if off = false then fail connected none else
    call .cursor (fun e => fail connected (some e)) fun _ =>
    let opened : Progress := { connected := true, hasCursor := true }
    call (.execute write) (fun e => fail { opened with executing := true, submitted := write } (some e)) fun _ =>
    let executed : Progress := { opened with submitted := write }
    call .fetchone (fun e => fail executed (some e)) fun first =>
    call .fetchone (fun e => fail executed (some e)) fun second =>
    match recordOf binding payload write first second with
    | .error _ => fail executed none
    | .ok result =>
      call .commit (fun e => fail executed (some e)) fun _ => close executed (.ok result)

end PostgresSecretBackend

/-! ## The child -/

/-- `_MAX_MESSAGE` -/
def maxMessage : Nat := 65536

/-- The length of a character in a JSON text that is restricted to ASCII. -/
def asciiWidth (c : Char) : Nat := if c.toNat < 127 then 1 else if c.toNat < 0x10000 then 6 else 12

/-- `len(json.dumps(v, ensure_ascii=True))` -/
def Doc.asciiLength (v : Doc) : Nat := ((v.spaced [' '] Scalar.text).map asciiWidth).sum

/-- What the parent asks of the child. -/
structure SecretRequest where
  key : String
  expected : Option Int
  replacement : Doc
  write : Bool

/-- The request as it is sent. -/
def SecretRequest.document (r : SecretRequest) : Doc :=
  .obj [("key", .str r.key), ("expected", (r.expected.map fun n => Json.num (.int n)).getD .null),
    ("replacement", r.replacement), ("write", .bool r.write)]

namespace SecretProcess

def statusMessage (status : String) : Doc := .obj [("status", .str status)]

def recordMessage (record : Doc) : Doc := .obj [("status", .str "ok"), ("record", record)]

/-- The message of an operation that ended. -/
def messageOf (write : Bool) : Except BackendError Doc → Doc
  | .ok result => recordMessage result
  | .error .conflict => statusMessage "conflict"
  | .error .ambiguousWrite => statusMessage "ambiguous"
  | .error .unavailable => statusMessage "unavailable"
  | .error (.other _) => statusMessage (if write then "ambiguous" else "unavailable")

/-- A message that is too long is replaced. -/
def bounded (write : Bool) (message : Doc) : Doc :=
  if maxMessage < message.asciiLength then statusMessage (if write then "ambiguous" else "unavailable") else message

/-- Leave the message and exit; the length is set last. -/
def publish (message : Doc) : ChildProg Unit :=
  .cmd (.writeBuffer message) fun
    | .error _ => .cmd (.exit 1) .ret
    | .ok () => .cmd (.writeLength message.asciiLength) fun
      | .error _ => .cmd (.exit 1) .ret
      | .ok () => .cmd (.exit 0) .ret

/-- `_child` -/
def child (binding : CredentialBinding) (request : SecretRequest) : ChildProg Unit :=
  .cmd .guardParent fun
    | .error _ => .cmd (.exit 1) .ret
    | .ok () => do
      let outcome ← .cmd .configure fun
        | .error e => .ret (.error (.other e.interrupt))
        | .ok () => PostgresSecretBackend.operate binding request.key request.expected request.replacement request.write
      publish (bounded request.write (messageOf request.write outcome))

/-! ## The parent -/

/-- What the parent calls. -/
inductive ParentCmd
  | assertSafe
  | rawArray
  | rawValue
  | makeProcess
  | start (binding : CredentialBinding) (request : SecretRequest)
  | join
  | cleanExit
  | readLength
  | readBuffer
  | hasPid
  | isAlive
  /-- `terminate()`, or `kill()` -/
  | signal (kill : Bool)
  | closeProcess
  | erase

/-- The reply to a call; the memory that is shared holds the text of the document it is said to hold. -/
def ParentCmd.Reply : ParentCmd → Type
  | cleanExit => Except CallError Bool
  | isAlive => Except CallError Bool
  | readLength => Nat
  | readBuffer => Option Doc
  | hasPid => Bool
  | erase => Unit
  | _ => Except CallError Unit

abbrev ParentProg := Prog ParentCmd ParentCmd.Reply SecretError

/-- The statuses of an operation. -/
inductive Status
  | ok (record : Doc)
  | conflict
  | ambiguous
  | unavailable (interrupt : Option Bool)

/-- The status for an exception, and for a child that did not come to a clean end. -/
def unknown (started write : Bool) (interrupt : Option Bool) : Status :=
  if started && write then .ambiguous else .unavailable interrupt

/-- The status of a message; none where the response is invalid. -/
def statusOf (binding : CredentialBinding) (replacement : Doc) (write : Bool) (message : Doc) : Option Status :=
  match message with
  | .obj fields =>
    match Dict.get? "status" fields with
    | some (.str "ok") =>
      if (fields.map Prod.fst).Perm ["status", "record"] then
        match SecretBackend.strictRecord (Dict.getD fields "record" .null) binding with
        | .ok result => if write = true ∧ result.sortKeys ≠ replacement.sortKeys then none else some (.ok result)
        | .error _ => none
      else none
    | some (.str candidate) =>
      if (fields.map Prod.fst).Perm ["status"] ∧ candidate ∈ ["unavailable", "conflict", "ambiguous"] then
        if write = false ∨ candidate = "unavailable" then some (.unavailable none)
        else if candidate = "conflict" then some .conflict
        else some .ambiguous
      else none
    | _ => none
  | _ => none

/-- The message, where the length fits. -/
def messageIn (length : Nat) (buffer : Option Doc) : Option Doc :=
  if 0 < length ∧ length ≤ maxMessage then
    match buffer with
    | some message => if length = message.asciiLength then some message else none
    | none => none
  else none

/-- Go on with what a call returned; what it raised puts the child in quarantine. -/
def orQuarantine {α : Type} (next : α → ParentProg Bool) : Except CallError α → ParentProg Bool
  | .ok v => next v
  | .error _ => .ret true

/-- Stop the child, if it is alive, and give it some time. -/
def stop (kill : Bool) (next : ParentProg Bool) : ParentProg Bool :=
  .cmd .isAlive <| orQuarantine fun alive =>
  if alive then .cmd (.signal kill) <| orQuarantine fun () => .cmd .join <| orQuarantine fun () => next else next

/-- Close a process that is over. -/
def closeProcess : ParentProg Bool :=
  .cmd .isAlive <| orQuarantine fun alive =>
  if alive then .ret true else .cmd .closeProcess <| orQuarantine fun () => .ret false

/-- The calls that reap the child, and whether it is quarantined. -/
def reap : ParentProg Bool := stop false (stop true closeProcess)

/-- What the variables hold that `finally` looks at. -/
structure Held where
  buffer : Bool := false
  length : Bool := false
  process : Bool := false
  started : Bool := false

/-- What is raised or returned for a status. -/
def outcomeOf : Status → Except BackendError Doc
  | .ok record => .ok record
  | .conflict => .error .conflict
  | .ambiguous => .error .ambiguousWrite
  | .unavailable (some keyboard) => .error (.other (some keyboard))
  | .unavailable none => .error .unavailable

/-- `process is not None and process.pid is not None` -/
def spawned (held : Held) : ParentProg Bool := if held.process then .cmd .hasPid .ret else .ret false

/-- Reap the child that was spawned. -/
def reapSpawned (spawned : Bool) : ParentProg Bool := if spawned then reap else .ret false

/-- The end of `_operate`: the child is reaped and the memory erased, before the status is reported. -/
def finish (write quarantined : Bool) (held : Held) (interrupt : Option Bool) (status : Status) :
    ParentProg (Except BackendError Doc × Bool) := do
  let reaped ← reapSpawned (← spawned held)
  let quarantined := quarantined || reaped
  let status := if quarantined then unknown held.started write interrupt else status
  if held.buffer && !quarantined then
    .cmd .erase fun () =>
      -- the memory of the length may not be there yet
      if held.length then .ret (outcomeOf status, quarantined) else .ret (.error (.other none), quarantined)
  else .ret (outcomeOf status, quarantined)

/-- What follows an exception. -/
def failed (write quarantined : Bool) (held : Held) (interrupt : Option Bool) : ParentProg (Except BackendError Doc × Bool) :=
  let interrupt := if held.started && write then none else interrupt
  finish write quarantined held interrupt (unknown held.started write interrupt)

/-- Call and go on, or go on to the end with what was raised. -/
def callThen (write quarantined : Bool) (held : Held) {α : Type} (next : α → ParentProg (Except BackendError Doc × Bool)) :
    Except CallError α → ParentProg (Except BackendError Doc × Bool)
  | .ok v => next v
  | .error e => failed write quarantined held e.interrupt

/-- The request of an operation. -/
def requestOf (binding : CredentialBinding) (key : String) (expected : Option Int) (replacement : Doc)
    (write quarantined : Bool) : Except SecretError SecretRequest := do
  let invalid := SecretError.valueError "secret_process_request_invalid"
  raiseIf (quarantined = true ∨ key ≠ bindingKey binding) invalid
  let replacement ← if write then PostgresSecretBackend.payloadOf binding key expected replacement true else .ok replacement
  let request : SecretRequest := { key := key, expected := expected, replacement := replacement, write := write }
  raiseIf (maxMessage < request.document.asciiLength) invalid
  return request

/-- `ProcessDeadlinePostgresSecretBackend._operate`: its outcome, and whether the backend is quarantined afterwards. -/
def operate (binding : CredentialBinding) (quarantined : Bool) (key : String) (expected : Option Int) (replacement : Doc)
    (write : Bool) : ParentProg (Except BackendError Doc × Bool) :=
  .cmd .assertSafe <| callThen write quarantined {} fun () =>
  match requestOf binding key expected replacement write quarantined with
  | .error _ => failed write quarantined {} none
  | .ok request =>
    .cmd .rawArray <| callThen write quarantined {} fun () =>
    .cmd .rawValue <| callThen write quarantined { buffer := true } fun () =>
    .cmd .makeProcess <| callThen write quarantined { buffer := true, length := true } fun () =>
    let held : Held := { buffer := true, length := true, process := true, started := true }
    .cmd (.start binding request) <| callThen write quarantined held fun () =>
    .cmd .join <| callThen write quarantined held fun () =>
    .cmd .cleanExit <| callThen write quarantined held fun clean =>
    if clean then
      .cmd .readLength fun length =>
      .cmd .readBuffer fun buffer =>
      match (messageIn length buffer).bind (statusOf binding request.replacement write) with
      | some status => finish write quarantined held none status
      | none => failed write quarantined held none
    else finish write quarantined held none (unknown true write none)

/-- How the backend carries out the commands of the store; it makes no attempts and exchanges nothing. -/
def carryOut (binding : CredentialBinding) (quarantined : Bool) : (c : BackendCmd) → ParentProg c.Reply
  | .read key => do
    let (outcome, _) ← operate binding quarantined key none .null false
    return outcome.map some
  | .compareAndSwap key expectedVersion replacement => do
    let (outcome, _) ← operate binding quarantined key (some expectedVersion) replacement true
    return outcome.map some
  | .attemptId => .ret (.error .other)
  | .exchange .. => .ret .otherValue

/-- `DurableVersionedSecretStore.compare_and_swap` over the backend. -/
def compareAndSwap (self : CredentialBinding) (quarantined : Bool) (binding : CredentialBinding) (expectedVersion : Int)
    (replacement : RefreshSecretRecord) : ParentProg (Except SecretError RefreshSecretRecord) :=
  (DurableVersionedSecretStore.compareAndSwap binding expectedVersion replacement).handle (carryOut self quarantined)

/-! ## The two processes -/

/-- What is true of the write, and the memory and the exit code of the child. -/
structure ChildWorld where
  submitted : Bool := false
  pending : Bool := false
  applied : Bool := false
  buffer : Option Doc := none
  length : Nat := 0
  exited : Option Nat := none

/-- How a call of the child ends: it raises, or it does what it says. -/
structure ChildChoice where
  raised : Option CallError
  autocommitOff : Bool
  fetched : Fetched
  /-- Whether a call that raises has its effect. -/
  effect : Bool

/-- What a call of the driver returns when it does not raise. -/
def driverValue (x : ChildChoice) : (c : DriverCmd) → c.Value
  | .autocommit => x.autocommitOff
  | .fetchone => x.fetched
  | .connect => ()
  | .cursor => ()
  | .execute _ => ()
  | .commit => ()
  | .rollback => ()
  | .closeCursor => ()
  | .closeConnection => ()

/-- The reply to a call that may raise. -/
def replyOf {α : Type} (x : ChildChoice) (v : α) : Except CallError α :=
  match x.raised with
  | some e => .error e
  | none => .ok v

/-- Whether a call has its effect: where it does not raise, it has. -/
def ChildChoice.took (x : ChildChoice) : Bool := x.raised.isNone || x.effect

/-- What a call of the driver does to the write. A commit takes effect where it reports success, and may where it does not; a
rollback cannot succeed where the commit took effect. -/
def driverStep (w : ChildWorld) (c : DriverCmd) (x : ChildChoice) : Option ChildWorld :=
  match c with
  | .execute write => some { w with submitted := w.submitted || write, pending := write && x.took }
  | .commit => some { w with applied := w.applied || (w.pending && x.took), pending := false }
  | .rollback =>
    if x.raised = none then if w.applied then none else some { w with pending := false }
    else some w
  | _ => some w

/-- What a call of the child does. -/
def childMachine : Machine ChildWorld ChildCmd ChildCmd.Reply ChildChoice := fun w c x =>
  match c with
  | .guardParent => some (replyOf x (), w)
  | .configure => some (replyOf x (), w)
  | .driver c => (driverStep w c x).map fun w => (replyOf x (driverValue x c), w)
  | .writeBuffer message => some (replyOf x (), { w with buffer := if x.took then some message else none })
  | .writeLength n => some (replyOf x (), if x.took then { w with length := n } else w)
  | .exit code => some ((), { w with exited := some code })

/-- The parent and its child: the child, once it was spawned, with what it has still to do. -/
structure HostWorld where
  child : Option (ChildProg Unit) := none
  shared : ChildWorld := {}

/-- What the child does next: a call, or its death with some exit code. -/
inductive ChildStep
  | call (x : ChildChoice)
  | die (code : Nat)

/-- A step of the child, where it runs. -/
def HostWorld.step (w : HostWorld) (s : ChildStep) : HostWorld :=
  match w.child, w.shared.exited, s with
  | some _, none, .die code => { w with shared := { w.shared with exited := some code } }
  | some p, none, .call x =>
    match p.step childMachine x w.shared with
    | some (shared, p) => { child := some p, shared := shared }
    | none => w
  | _, _, _ => w

/-- What the child does between two calls of the parent. -/
def HostWorld.advance (w : HostWorld) (steps : List ChildStep) : HostWorld := steps.foldl HostWorld.step w

/-- How a call of the parent ends, after some steps of the child. -/
structure ParentChoice where
  advance : List ChildStep
  raised : Option CallError
  /-- The answer of `cleanExit` and `hasPid`, and whether a start that raises has spawned the child. -/
  flag : Bool

/-- The reply to a call of the parent that may raise. -/
def ParentChoice.reply {α : Type} (x : ParentChoice) (v : α) : Except CallError α :=
  match x.raised with
  | some e => .error e
  | none => .ok v

/-- What a call of the parent does. A clean exit is one with the exit code zero, in time. -/
def hostMachine : Machine HostWorld ParentCmd ParentCmd.Reply ParentChoice := fun w c x =>
  let w := w.advance x.advance
  match c with
  | .assertSafe => some (x.reply (), w)
  | .rawArray => some (x.reply (), w)
  | .rawValue => some (x.reply (), w)
  | .makeProcess => some (x.reply (), w)
  | .start binding request =>
    some (x.reply (), if x.raised = none ∨ x.flag = true then { w with child := some (child binding request) } else w)
  | .join => some (x.reply (), w)
  | .cleanExit => some (x.reply (decide (w.shared.exited = some 0) && x.flag), w)
  | .readLength => some (w.shared.length, w)
  | .readBuffer => some (w.shared.buffer, w)
  | .hasPid => some (w.child.isSome && x.flag, w)
  | .isAlive => some (x.reply w.shared.exited.isNone, w)
  | .signal _ => some (x.reply (), w)
  | .closeProcess => some (x.reply (), w)
  | .erase => some ((), { w with shared := { w.shared with buffer := none, length := 0 } })

/-- The outcome says the truth about the write. -/
structure SoundOutcome (replacement : RefreshSecretRecord) (outcome : Except SecretError RefreshSecretRecord)
    (submitted applied : Bool) : Prop where
  returned : ∀ record, outcome = .ok record → applied = true ∧ record = replacement
  conflict : ∀ message, outcome = .error (.storeConflict message) → applied = false
  plain : ∀ message, outcome = .error (.storeError message) → submitted = false
  interrupted : ∀ keyboard message, outcome = .error (.interrupted keyboard message) → submitted = false
  remaining : submitted = true → (∃ record, outcome = .ok record) ∨ (∃ message, outcome = .error (.storeConflict message)) ∨
    ∃ message, outcome = .error (.ambiguousWrite message)

/-- Where a call has ended, its outcome says the truth about the write, whatever the child does later. -/
def SoundRun (replacement : RefreshSecretRecord) (w : HostWorld) :
    ParentProg (Except SecretError RefreshSecretRecord) → Prop
  | .ret outcome => ∀ later, SoundOutcome replacement outcome (w.advance later).shared.submitted (w.advance later).shared.applied
  | .raise _ => False
  | .cmd _ _ => True

end SecretProcess

end Keirin

import Keirin.HostedCheckpoint
import Keirin.HostedInspector
import Keirin.HostedLink

/-!
# The hosted system

Any number of clients over one database, behind the edge functions. A request of a client is a message that may be lost on its
way, the statements of the edge function, between which others act, and a reply that may be lost. The log keeps the transactions,
the readings of rows and the calls of actions, each with the client it belongs to.
-/

namespace Keirin

namespace Hosted

open QueueEdge (EdgeCmd EdgeReply DbError)

/-! ## Requests -/

/-- How a reply arrives: whole, cut off in its body, or not at all. -/
inductive Arrival
  | delivered
  | cut
  | lost (e : PyError)

/-- What a client and the edge function that serves it ask for, step by step. -/
inductive NetCmd
  | now
  | utcnow
  | send
  | statement (c : EdgeCmd)
  | receive
  | invoke (call : ActionCall)
  | await (call : ActionCall)

/-- The replies; a request that is not served comes back with an error, or with the fields of a refusal. -/
def NetCmd.Reply : NetCmd → Type
  | now => String
  | utcnow => Option ℤ
  | send => Option (Except PyError (Dict Doc))
  | statement c => c.Reply
  | receive => Arrival
  | invoke _ => Unit
  | await _ => Except ActionExc Returned

abbrev NetProg := Prog NetCmd NetCmd.Reply HostedError

/-- What the transport makes of a status that reports an error. -/
def failure (status : ℕ) (fields : Dict Doc) : Doc :=
  .obj (Dict.update fields [("success", .bool false), ("backend_status", .num (.int status))])

/-- What the transport returns for a reply. -/
def received (reply : EdgeReply) : Arrival → Except PyError Doc
  | .lost e => .error e
  | .cut =>
    if reply.status < 400 then .error (.runtimeError "edge_transport_failed")
    else .ok (failure reply.status [("error", .str s!"HTTP {reply.status}")])
  | .delivered =>
    match JsDoc.received reply.body with
    | .obj fields => .ok (if reply.status < 400 then .obj fields else failure reply.status fields)
    | _ =>
      if reply.status < 400 then .error (.runtimeError "edge_transport_failed")
      else .ok (failure reply.status [("error", .str s!"HTTP {reply.status}")])

section Serve

variable (iso : ℤ → String) (httpStatus : String → ℕ)

/-- Send a statement to the database. -/
def statement (c : EdgeCmd) : NetProg c.Reply := .cmd (.statement c) .ret

/-- `ExactClaimRoutingTransport`: the exact claim goes to its own edge function. -/
def route (exactMode : Bool) (body : JsDoc) : NetProg EdgeReply :=
  Prog.handle statement (if exactMode then QueueEdge.exactClaim iso httpStatus body else QueueEdge.runtime iso httpStatus body)

/-- Carry out what a client asks for. -/
def carry : (c : ClientCmd) → NetProg c.Reply
  | .now => .cmd .now .ret
  | .utcnow => .cmd .utcnow .ret
  | .invoke call => .cmd (.invoke call) .ret
  | .await call => .cmd (.await call) .ret
  | .request mode fields =>
    match HostedRequest.body (mode, fields) with
    | .error e => .ret (.error e)
    | .ok body => .cmd .send fun
      | some (.error e) => .ret (.error e)
      | some (.ok refusal) => .ret (.ok (.obj (("success", .bool false) :: refusal)))
      | none => do
        let reply ← route iso httpStatus (mode = "queue_claim_task") body
        .cmd .receive fun arrival => .ret (received reply arrival)

end Serve

/-! ## The world -/

variable {T : Type}

/-- What the log keeps, with the client it belongs to: a transaction, the reading of a row with the ledger as it was then, or
the start of a call of an action. -/
inductive Item (T : Type)
  | entry (t : T) (e : Queue.Entry)
  | read (t : T) (taskId : String) (row : Option Queue.Row) (ledger : List Activity.EventRow)
  | invoked (t : T) (call : ActionCall)

def Item.thread : Item T → T
  | entry t _ => t
  | read t _ _ _ => t
  | invoked t _ => t

/-- The tables and the log. -/
structure World (T : Type) where
  db : Queue.Db
  table : Activity.Table
  log : List (Item T)

def World.initial : World T := { db := .empty, table := { rows := [], keyed := List.nodup_nil }, log := [] }

/-- What the database decides about a statement: the clock, the identifiers and times of the entries it adds to the ledger, and
the rows other transactions hold. -/
structure Decision where
  clock : Queue.Clock
  stamps : List Activity.Stamp
  locked : List String

/-- How a command is resolved. -/
inductive Choice
  | time (now : String)
  | utc (now : Option ℤ)
  | sent
  | refused (e : Except PyError (Dict Doc))
  | arrive (a : Arrival)
  | done (d : Decision)
  | undone (e : DbError)
  | unheard (d : Decision) (e : DbError)
  | called
  | answer (a : Except ActionExc Returned)

/-- The call as the database carries it out: a claim of the next task passes over the rows that are held. -/
def withLocked (locked : List String) : Queue.Call → Queue.Call
  | .claimNextTask worker seconds _ => .claimNextTask worker seconds locked
  | call => call

section Machine

variable (iso : ℤ → String) (caller : Queue.Caller) (t : T)

/-- Add rows to the ledger, each under a new identifier below `2 ^ 53`. -/
def addRows (table : Activity.Table) (rows : List Activity.EventRow) : Option Activity.Table :=
  if h : ((table.rows ++ rows).map Activity.EventRow.eventId).Nodup ∧ ∀ r ∈ rows, 0 < r.eventId ∧ r.eventId < 2 ^ 53 then
    some { rows := table.rows ++ rows, keyed := h.1 }
  else none

/-- The entries a transaction added to the ledger, as rows. -/
def newRows (before after : Queue.Db) (stamps : List Activity.Stamp) : List Activity.EventRow :=
  List.zipWith (QueueEdge.eventRow iso) stamps (after.events.drop before.events.length)

/-- One transaction. -/
def transact (d : Decision) (call : Queue.Call) (w : World T) : Option (Except DbError (Option Queue.Row) × World T) :=
  let tx : Queue.Tx := { caller := caller, clock := d.clock, call := withLocked d.locked call }
  match tx.call.run caller d.clock w.db with
  | .error e => some (.error (.refused e), { w with log := w.log ++ [.entry t { tx := tx, outcome := .error e }] })
  | .ok (row, db) =>
    if d.stamps.length = db.events.length - w.db.events.length then
      (addRows w.table (newRows iso w.db db d.stamps)).map fun table =>
        (.ok row, { db := db, table := table, log := w.log ++ [.entry t { tx := tx, outcome := .ok row }] })
    else none

/-- The row of a task that a caller sees. -/
def visibleRow (db : Queue.Db) (taskId : String) : Option Queue.Row :=
  db.tasks.find? fun r => caller.may r.userId && r.taskId = taskId

/-- What a statement does. -/
def carryOut (d : Decision) : (c : EdgeCmd) → World T → Option (c.Reply × World T)
  | .transact call, w => transact iso caller t d call w
  | .select taskId, w =>
    let row := visibleRow caller w.db taskId
    some (.ok row, { w with log := w.log ++ [.read t taskId row w.table.rows] })
  | .activity body, w =>
    match d.stamps with
    | [stamp] =>
      if 0 < stamp.eventId ∧ stamp.eventId < 2 ^ 53 then
        let answer := Activity.edge caller (w.db.tasks.map Queue.Row.key) stamp body w.table
        some (.ok answer.1, { w with table := answer.2 })
      else none
    | _ => none

/-- A statement whose answer is an error. -/
def failed : (c : EdgeCmd) → DbError → c.Reply
  | .transact _, e => .error e
  | .select _, e => .error e
  | .activity _, e => .error e

/-- What a command does in a world. -/
def machine : Machine (World T) NetCmd NetCmd.Reply Choice
  | w, .now, .time now => some (now, w)
  | w, .utcnow, .utc now => some (now, w)
  | w, .send, .sent => some (none, w)
  | w, .send, .refused e => some (some e, w)
  | w, .receive, .arrive a => some (a, w)
  | w, .statement c, .done d => carryOut iso caller t d c w
  | w, .statement c, .undone e => some (failed c e, w)
  | w, .statement c, .unheard d e => (carryOut iso caller t d c w).map fun r => (failed c e, r.2)
  | w, .invoke call, .called => some ((), { w with log := w.log ++ [.invoked t call] })
  | w, .await _, .answer a => some (a, w)
  | _, _, _ => none

end Machine

/-! ## The clients -/

/-- How a worker claims: the next task that is due, or one exact task. -/
inductive ClaimMode
  | next
  | exact (spec : TaskSpec)

/-- What a client may do: send the body of any request, coordinate, work, enqueue a trusted run, inspect, or propose. -/
inductive ClientCall
  | http (exactMode : Bool) (body : JsDoc)
  | inspectNext (registry : HostedWorker.ToolRegistry) (allowed : List HostedWorker.AccessMode) (workerId : String)
      (leaseSeconds : ℤ)
  | runNext (executionAuthorized : Bool) (mode : ClaimMode) (registry : HostedWorker.ToolRegistry) (workerId : String)
      (leaseSeconds : ℤ)
  | ensureQueued (spec : TaskSpec)
  | inspect (fuel : ℕ) (spec : TaskSpec)
  | propose (fuel : ℕ) (spec : TaskSpec)

/-- What a client returned. -/
inductive ClientResult
  | answered (reply : EdgeReply)
  | decided (decision : HostedWorker.HostedWorkerDecision)
  | worked (result : HostedWorker.HostedReadOnlyWorkerResult)
  | enqueued (result : TrustedRun.TrustedRunEnqueueResult)
  | reported (report : Option HostedRecoveryReport)
  | proposed (proposal : Option HostedRecoveryProposal)

/-- What the system leaves open: how the database writes a time, the status of an error of the database, the texts of Python,
the template of the trusted task, and for each client who it is and what it does. -/
structure Env (T : Type) where
  iso : ℤ → String
  httpStatus : String → ℕ
  repr : Doc → String
  template : Dict Doc
  caller : T → Queue.Caller
  client : T → ClientCall

variable (env : Env T)

/-- The claim of a worker. -/
def claimBy (mode : ClaimMode) (workerId : String) (leaseSeconds : ℤ) : ClientProg (Option HostedQueueLease) :=
  match mode with
  | .next => HostedQueue.claim env.repr workerId leaseSeconds
  | .exact spec => HostedQueue.claimTask env.repr spec workerId leaseSeconds

/-- A client over the network. -/
def onNetwork {α : Type} (p : ClientProg α) : NetProg α := p.handle (carry env.iso env.httpStatus)

/-- The program of a client. -/
def program : ClientCall → NetProg ClientResult
  | .http exactMode body => do return .answered (← route env.iso env.httpStatus exactMode body)
  | .inspectNext registry allowed workerId leaseSeconds => do
    return .decided (← onNetwork env (HostedWorker.inspectNext env.repr registry allowed workerId leaseSeconds))
  | .runNext executionAuthorized mode registry workerId leaseSeconds => do
    return .worked (← onNetwork env (HostedWorker.runNext env.repr executionAuthorized (claimBy env mode workerId leaseSeconds) registry
      workerId leaseSeconds))
  | .ensureQueued spec => do return .enqueued (← onNetwork env (TrustedRun.ensureQueued env.repr env.template spec))
  | .inspect fuel spec => do return .reported (← onNetwork env (HostedInspector.inspect env.repr fuel spec))
  | .propose fuel spec => do return .proposed (← onNetwork env (HostedInspector.propose env.repr fuel spec))

/-- The clients over one database. -/
def team : Team T Unit (World T) NetCmd NetCmd.Reply Choice HostedError ClientResult :=
  { machine := fun t => machine env.iso (env.caller t) t
    body := fun t _ => program env (env.client t) }

/-- A whole run of the system: a schedule of the clients from the empty database. -/
def run [DecidableEq T] (es : List (SchedEvent T Unit Choice)) : World T := ((team env).run (Team.init .initial) es).world

/-- What a client has returned after a schedule. -/
def returned [DecidableEq T] (es : List (SchedEvent T Unit Choice)) (t : T) : Option ClientResult :=
  (((team env).run (Team.init .initial) es).thread t).bind Prog.value?

/-! ## Reading the log -/

/-- The transactions of a log. -/
def entries (log : List (Item T)) : List Queue.Entry :=
  log.filterMap fun item => match item with
    | .entry _ e => some e
    | _ => none

/-- The tables with their transactions, as the queue alone sees them. -/
def World.queue (w : World T) : Queue.World := { db := w.db, log := entries w.log }

/-- The items of a client. -/
def own [DecidableEq T] (t : T) (log : List (Item T)) : List (Item T) := log.filter fun item => item.thread = t

end Hosted

end Keirin

import Keirin.ActivityEdge
import Keirin.HostedActivity

/-!
# The link to the ledger of activity

The transport writes a request as JSON, the edge function answers it from the table, and the transport reads the reply. The table
is shared: before a request is answered, others may have appended rows.
-/

namespace Keirin

/-- The body of a request as the edge function reads it; `SupabaseEdgeTransport.__call__` refuses what it cannot write. -/
def HostedRequest.body (request : HostedRequest) : Except PyError JsDoc := do
  raiseIf (strip request.1 = "") (.valueError "hosted_mode_required")
  raiseIf ((Dict.get? "mode" request.2).isSome) (.valueError "payload_must_not_override_mode")
  let text ← Doc.wire (.obj (("mode", .str (strip request.1)) :: request.2))
  return JsDoc.parse text

namespace Activity

/-- What others did before a request is answered, and what the database decides about a row the request adds. -/
structure Turn where
  others : List EventRow
  stamp : Stamp

/-- A request answered literally. -/
def answer (caller : Queue.Caller) (tasks : List (String × String)) (stamp : Stamp) (request : HostedRequest) (table : Table) :
    Except PyError Doc × Table :=
  match request.body with
  | .error e => (.error e, table)
  | .ok body => (.ok (JsDoc.received (edge caller tasks stamp body table).1), (edge caller tasks stamp body table).2)

/-- The ledger, shared with others: they only append, each row under a new key. -/
def shared (caller : Queue.Caller) (tasks : List (String × String)) : Machine Table HostedRequest (fun _ => Except PyError Doc) Turn :=
  fun table request turn =>
    if h : ((table.rows ++ turn.others).map EventRow.eventId).Nodup then
      some (answer caller tasks turn.stamp request { rows := table.rows ++ turn.others, keyed := h })
    else none

end Activity

end Keirin

import Keirin.HostedActivity

/-!
# The inspection after an interruption

`hosted_recovery.py`: the reading of the whole ledger of a task, page by page.
-/

namespace Keirin.HostedRecovery

section Inspector

variable (repr : Doc → String)

/-- The loop of `_all_events`: `events` are those read so far, `cursor` the last of them. It issues at most `fuel` requests;
`none` where it would issue more. -/
def allEventsFrom (taskId : String) : (fuel : ℕ) → (cursor : Option ℤ) → (events : List HostedActivityEvent) →
    HostedProg (Option (List HostedActivityEvent))
  | 0, _, _ => .ret none
  | fuel + 1, cursor, events => do
    let batch ← HostedActivity.list repr taskId cursor 200
    match batch.getLast? with
    | none => return some (events ++ batch)
    | some last =>
      if batch.length < 200 then return some (events ++ batch)
      else if cursor.any (fun c => last.eventId ≤ c) then .raise (.runtimeError "activity_cursor_did_not_advance")
      else allEventsFrom taskId fuel (some last.eventId) (events ++ batch)

/-- `_all_events` -/
def allEvents (taskId : String) (fuel : ℕ) : HostedProg (Option (List HostedActivityEvent)) := allEventsFrom repr taskId fuel none []

end Inspector

end Keirin.HostedRecovery

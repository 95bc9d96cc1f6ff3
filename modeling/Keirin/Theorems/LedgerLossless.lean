import Keirin.Lemmas.Ledger

/-!
# When the activity ledger is lossless

Appending writes a text without escapes beyond ASCII, reading cuts the file where `str.splitlines` does; the two disagree at
the characters NEXT LINE, LINE SEPARATOR and PARAGRAPH SEPARATOR. The ledger is lossless exactly when none of them was
appended; otherwise it is not read at all.
-/

namespace Keirin

namespace Ledger

theorem forall₂_same_sortKeys (docs : List Doc) : List.Forall₂ Json.Same (docs.map Json.sortKeys) docs := by
  induction docs with
  | nil => exact .nil
  | cons d docs ih => exact .cons (Json.sortKeys_sortKeys d) ih

/-- The events of a task among those returned. -/
theorem filter_returned (calls : List (Timestamp × Event)) (taskId : String) :
    (calls.map fun c => c.2.toDict c.1).filter (fun event => event.get? "task_id" = some (.str taskId)) =
      (calls.filter fun c => asked (some taskId) c.2).map fun c => c.2.toDict c.1 := by
  rw [List.filter_map]
  congr 1
  refine List.filter_congr fun c _ => ?_
  simp [asked, Event.toDict, Json.get?, Dict.get?]

/-- For any events that were appended by calls that all returned, to a ledger that did not exist before: the ledger is lossless
if and only if no text the callers supplied (the step id, the event type, the message, the texts and the keys of the data) holds
one of the characters U+0085, U+2028 and U+2029. -/
theorem ledger_lossless_iff {calls : List (Timestamp × Event)} {returned : List Doc} {file : Option (List Char)}
    (hjson : ∀ c ∈ calls, c.2.IsJson) (h : appendAll none calls = .ok (returned, file)) :
    Lossless returned file ↔ ∀ c ∈ calls, OneLine c.2 := by
  obtain ⟨rfl, hfile, hid⟩ := appendAll_ok h
  have hload : ∀ taskId, loadEvents taskId file = loadLines taskId (splitLines (text calls)) := by
    intro taskId
    rw [loadEvents_eq, hfile, Option.getD_none, List.nil_append, universalNewlines_of_no_return (no_return_text calls)]
  constructor
  · rintro ⟨⟨events, hall, -⟩, -⟩
    by_contra hbroken
    obtain ⟨e, he⟩ := loadLines_broken hjson hid hbroken
    rw [hload, he] at hall
    nomatch hall
  · intro hline
    have hread := loadLines_text hjson hid hline
    refine ⟨⟨_, (hload none).trans (hread none), ?_⟩, fun taskId => ⟨_, (hload _).trans (hread _), ?_⟩⟩
    · have hall : (calls.filter fun c => asked none c.2) = calls := List.filter_eq_self.2 fun c _ => rfl
      rw [hall]
      simpa using forall₂_same_sortKeys (calls.map fun c => c.2.toDict c.1)
    · rw [filter_returned]
      simpa using forall₂_same_sortKeys ((calls.filter fun c => asked (some taskId) c.2).map fun c => c.2.toDict c.1)

/-- An event with a message. -/
def sampleEvent (message : String) : Event :=
  { taskId := "t", stepId := none, eventType := "note", message := .str message, data := [] }

def sampleTime : Timestamp := { text := "2026-01-01T00:00:00+00:00", iso := by decide }

theorem sampleEvent_json (message : String) : (sampleEvent message).IsJson := ⟨⟨rfl, rfl⟩, rfl, rfl⟩

theorem ledger_lossless_plain :
    Lossless [(sampleEvent "plain").toDict sampleTime] (some (text [(sampleTime, sampleEvent "plain")])) ↔
      ∀ c ∈ [(sampleTime, sampleEvent "plain")], OneLine c.2 :=
  ledger_lossless_iff (by simpa using sampleEvent_json "plain") (by rfl)

/-- A message that is one LINE SEPARATOR: both calls return, and the ledger cannot be read, so that the other event is lost too. -/
theorem lineSeparator_lost :
    ∃ file, appendAll none [(sampleTime, sampleEvent "first"), (sampleTime, sampleEvent "\u2028")] =
        .ok ([(sampleEvent "first").toDict sampleTime, (sampleEvent "\u2028").toDict sampleTime], file) ∧
      loadEvents none file = .error (.valueError "JSONDecodeError") ∧
      ¬Lossless [(sampleEvent "first").toDict sampleTime, (sampleEvent "\u2028").toDict sampleTime] file := by
  have hread : loadEvents none (some (text [(sampleTime, sampleEvent "first"), (sampleTime, sampleEvent "\u2028")])) =
      .error (.valueError "JSONDecodeError") := by
    decide +kernel
  refine ⟨some (text [(sampleTime, sampleEvent "first"), (sampleTime, sampleEvent "\u2028")]), by rfl, hread, ?_⟩
  rintro ⟨⟨events, hall, -⟩, -⟩
  rw [hread] at hall
  nomatch hall

end Ledger

end Keirin

import Keirin.HostedLink
import Keirin.Lemmas.PythonData

/-!
# What the client of the ledger receives

A row of the ledger comes to the client with its columns as they are, its identifier included while that is below `2 ^ 53`. A
request for a page is answered with the rows of the page.
-/

namespace Keirin

/-! ## Documents that pass through JavaScript -/

/-- The document Python reads of a text that went through JavaScript. -/
def relayed (text : JsonLits) : Doc := JsDoc.received (JsDoc.parse text)

@[simp] theorem received_str (s : String) : JsDoc.received (.str s) = .str s := rfl

@[simp] theorem received_null : JsDoc.received .null = .null := rfl

@[simp] theorem received_bool (b : Bool) : JsDoc.received (.bool b) = .bool b := rfl

@[simp] theorem relayed_str (s : String) : relayed (.str s) = .str s := rfl

@[simp] theorem relayed_null : relayed .null = .null := rfl

theorem received_arr (xs : List JsDoc) : JsDoc.received (.arr xs) = .arr (xs.map JsDoc.received) := by
  unfold JsDoc.received JsDoc.stringify Doc.ofLits
  rw [Json.bindNum, Json.rebuild, Json.bindNumList_eq, Json.rebuildList_eq, List.map_map]
  rfl

theorem received_obj {fs : Dict JsDoc} (h : (fs.map Prod.fst).Nodup) :
    JsDoc.received (.obj fs) = .obj (fs.map fun f => (f.1, JsDoc.received f.2)) := by
  unfold JsDoc.received JsDoc.stringify Doc.ofLits
  rw [Json.bindNum, Json.rebuild, Json.bindNumFields_eq, Json.rebuildFields_eq, List.map_map, Json.update_nil]
  · rfl
  · rw [List.map_map]
    exact h

/-- An object whose keys are names and stand once comes through field by field. -/
theorem relayed_obj {fs : Dict JsonLits} (h : (fs.map Prod.fst).Nodup)
    (hnames : (fs.map Prod.fst).all (fun k => !JsDoc.isIndex k) = true) : relayed (.obj fs) = .obj (fs.map fun f => (f.1, relayed f.2)) := by
  have hkeys : ((fs.map fun f => (f.1, JsDoc.parse f.2)).map Prod.fst).Nodup := by
    rw [List.map_map]
    exact h
  unfold relayed
  rw [JsDoc.parse_obj h hnames, received_obj hkeys, List.map_map]
  rfl

/-- An integer below `2 ^ 53` in magnitude comes through. -/
theorem relayed_int {n : ℤ} (h : n.natAbs < 2 ^ 53) : relayed (.num (NumLit.ofInt n)) = .num (.int n) := by
  have hsafe := JsNumber.safeInteger_ofInt h
  have hparse : relayed (.num (NumLit.ofInt n)) = Doc.ofLits (JsNumber.ofInt n).stringify := rfl
  rw [hparse]
  cases hx : JsNumber.ofInt n with
  | infinite neg =>
    rw [hx] at hsafe
    nomatch hsafe
  | finite x =>
    obtain ⟨hint, hval⟩ := JsNumber.jsText_ofInt hx h
    have hof : Doc.ofLits (JsNumber.finite x).stringify = .num (Scalar.ofLit x.jsText) := rfl
    rw [hof, Scalar.ofLit, if_pos hint, hval]

namespace Activity

/-! ## Rows -/

/-- A row as the client receives it. -/
def EventRow.received (row : EventRow) : Doc := relayed row.text

theorem EventRow.received_eq (row : EventRow) :
    row.received = .obj [("event_id", relayed (.num (NumLit.ofInt row.eventId))), ("task_id", .str row.taskId),
      ("event_type", .str row.eventType), ("step_id", Doc.ofOption row.stepId), ("payload", relayed row.payload.toText),
      ("created_at", .str row.createdAt)] := by
  unfold EventRow.received EventRow.text
  rw [relayed_obj (by simp) (by simp only [List.map_cons, List.map_nil]; decide +kernel)]
  cases row.stepId <;> rfl

/-! ## Pages -/

variable {caller : Queue.Caller} {tasks : List (String × String)} {taskId : String} {cursor : Option ℤ} {limit : ℤ}

theorem safeInteger_parse {n : ℤ} (h : n.natAbs < 2 ^ 53) : safeInteger? (JsDoc.parse (.num (NumLit.ofInt n))) = some n :=
  JsNumber.safeInteger_ofInt h

/-- The fields of a request for a page in the text. -/
def listFields (taskId : String) (cursor : Option ℤ) (limit : ℤ) : Dict JsonLits :=
  [("mode", .str "event_list"), ("task_id", .str taskId), ("limit", .num (NumLit.ofInt limit))] ++
    (cursor.map fun n => ("after_event_id", Json.num (NumLit.ofInt n))).toList

/-- The body of a request for a page. -/
theorem body_list : HostedRequest.body ("event_list", HostedActivity.listRequest taskId cursor limit) =
    .ok (.obj ((listFields taskId cursor limit).map fun f => (f.1, JsDoc.parse f.2))) := by
  have hmode : strip "event_list" = "event_list" := by decide +kernel
  have hwire : Doc.wire (.obj (("mode", .str "event_list") :: HostedActivity.listRequest taskId cursor limit)) =
      .ok (.obj (listFields taskId cursor limit)) := by
    cases cursor <;> rfl
  have hparse : JsDoc.parse (.obj (listFields taskId cursor limit)) =
      .obj ((listFields taskId cursor limit).map fun f => (f.1, JsDoc.parse f.2)) := by
    apply JsDoc.parse_obj
    · cases cursor <;> simp [listFields]
    · cases cursor <;> simp only [listFields, Option.map_none, Option.map_some, Option.toList_none, Option.toList_some,
        List.append_nil, List.cons_append, List.nil_append, List.map_cons, List.map_nil] <;> decide +kernel
  have hget : Dict.get? "mode" (HostedActivity.listRequest taskId cursor limit) = none := by
    cases cursor <;> rfl
  unfold HostedRequest.body
  simp only [hmode, hget]
  rw [hwire]
  exact congrArg Except.ok hparse

/-- What the edge function reads in a request for a page. -/
theorem validate_list (htask : Queue.isTaskId taskId = true) (hlimit : 1 ≤ limit ∧ limit ≤ 200)
    (hcursor : ∀ c, cursor = some c → 0 ≤ c ∧ c < 2 ^ 53) :
    validateActivityList (.obj ((listFields taskId cursor limit).map fun f => (f.1, JsDoc.parse f.2))) =
      .ok { taskId := taskId, limit := limit, afterEventId := cursor } := by
  have hl : safeInteger? (JsDoc.parse (.num (NumLit.ofInt limit))) = some limit := safeInteger_parse (by omega)
  have htaskId : validateTaskId (some (JsDoc.parse (.str taskId))) = some taskId := if_pos htask
  have hcheck : checkLimit (some (JsDoc.parse (.num (NumLit.ofInt limit)))) = .ok limit := by
    simp [checkLimit, hl, demand, Option.filter, hlimit]
  cases cursor with
  | none =>
    have hafter : checkAfterEventId none = .ok none := rfl
    simp [validateActivityList, listFields, asObject, demand, Dict.get?, htaskId, hcheck, hafter, bind, Except.bind, pure,
      Except.pure]
  | some c =>
    obtain ⟨hpos, hlt⟩ := hcursor c rfl
    have hc : safeInteger? (JsDoc.parse (.num (NumLit.ofInt c))) = some c := safeInteger_parse (by omega)
    have hafter : checkAfterEventId (some (JsDoc.parse (.num (NumLit.ofInt c)))) = .ok (some c) := by
      have hnum : ∃ n, JsDoc.parse (.num (NumLit.ofInt c)) = .num n := ⟨_, rfl⟩
      obtain ⟨n, hn⟩ := hnum
      rw [hn] at hc ⊢
      simp [checkAfterEventId, hc, demand, Option.filter, hpos, Except.map]
    simp [validateActivityList, listFields, asObject, demand, Dict.get?, htaskId, hcheck, hafter, bind, Except.bind, pure,
      Except.pure]

/-- A request for a page is answered with its rows. -/
theorem answer_list (stamp : Stamp) (table : Table) (htask : Queue.isTaskId taskId = true) (hlimit : 1 ≤ limit ∧ limit ≤ 200)
    (hcursor : ∀ c, cursor = some c → 0 ≤ c ∧ c < 2 ^ 53) :
    answer caller tasks stamp ("event_list", HostedActivity.listRequest taskId cursor limit) table =
      (.ok (.obj [("success", .bool true), ("mode", .str "event_list"),
        ("events", .arr ((listedRows caller ⟨taskId, limit, cursor⟩ table).map EventRow.received)),
        ("activity_persisted", .bool true)]), table) := by
  have hedge : edge caller tasks stamp (.obj ((listFields taskId cursor limit).map fun f => (f.1, JsDoc.parse f.2))) table =
      (eventList caller (.obj ((listFields taskId cursor limit).map fun f => (f.1, JsDoc.parse f.2))) table, table) := rfl
  unfold answer
  rw [body_list]
  simp only [hedge]
  unfold eventList
  rw [validate_list htask hlimit hcursor]
  simp only []
  unfold reply
  rw [received_obj (by simp), JsDoc.parse_arr]
  simp only [List.map_cons, List.map_nil, received_bool, received_str, received_arr, List.map_map]
  rfl

/-! ## Records -/

/-- The record the client makes of a row. -/
def Reads (taskId : String) (row : EventRow) (event : HostedActivityEvent) : Prop :=
  HostedActivity.parseEvent (some taskId) row.received = .ok event

/-- A record has the identifier of its row. -/
theorem Reads.eventId {row : EventRow} {event : HostedActivityEvent} (hid : row.eventId.natAbs < 2 ^ 53)
    (h : Reads taskId row event) : event.eventId = row.eventId := by
  unfold Reads at h
  rw [EventRow.received_eq, relayed_int hid] at h
  unfold HostedActivity.parseEvent at h
  obtain ⟨record, hrecord, h⟩ := bind_ok.1 h
  cases hrecord
  obtain ⟨eventId, heventId, h⟩ := bind_ok.1 h
  have hid : eventId = row.eventId := by
    by_cases hpos : 0 < row.eventId
    · simpa [HostedActivity.part, HostedActivity.positive?, Dict.getD, Dict.get?, hpos, eq_comm] using heventId
    · simp [HostedActivity.part, HostedActivity.positive?, Dict.getD, Dict.get?, hpos] at heventId
  obtain ⟨task, -, h⟩ := bind_ok.1 h
  obtain ⟨-, h⟩ := raiseIf_bind_ok.1 h
  obtain ⟨eventType, -, h⟩ := bind_ok.1 h
  obtain ⟨stepId, -, h⟩ := bind_ok.1 h
  obtain ⟨payload, -, h⟩ := bind_ok.1 h
  obtain ⟨-, h⟩ := raiseIf_bind_ok.1 h
  obtain ⟨createdAt, -, h⟩ := bind_ok.1 h
  cases h
  exact hid

/-- The identifier of a record is positive. -/
theorem Reads.pos {row : EventRow} {event : HostedActivityEvent} (h : Reads taskId row event) : 0 < event.eventId := by
  unfold Reads HostedActivity.parseEvent at h
  obtain ⟨record, -, h⟩ := bind_ok.1 h
  obtain ⟨eventId, heventId, h⟩ := bind_ok.1 h
  have hpos : 0 < eventId := by
    unfold HostedActivity.part at heventId
    split at heventId
    · rename_i n hn
      cases heventId
      unfold HostedActivity.positive? at hn
      split at hn
      · split at hn
        · rename_i hpos
          exact Option.some.inj hn ▸ hpos
        · nomatch hn
      · nomatch hn
    · nomatch heventId
  obtain ⟨task, -, h⟩ := bind_ok.1 h
  obtain ⟨-, h⟩ := raiseIf_bind_ok.1 h
  obtain ⟨eventType, -, h⟩ := bind_ok.1 h
  obtain ⟨stepId, -, h⟩ := bind_ok.1 h
  obtain ⟨payload, -, h⟩ := bind_ok.1 h
  obtain ⟨-, h⟩ := raiseIf_bind_ok.1 h
  obtain ⟨createdAt, -, h⟩ := bind_ok.1 h
  cases h
  exact hpos

theorem map_eventId {rows : List EventRow} {events : List HostedActivityEvent} (hids : ∀ r ∈ rows, r.eventId.natAbs < 2 ^ 53)
    (h : List.Forall₂ (Reads taskId) rows events) : events.map HostedActivityEvent.eventId = rows.map EventRow.eventId := by
  induction h with
  | nil => rfl
  | cons hr _ ih =>
    rw [List.map_cons, List.map_cons, hr.eventId (hids _ List.mem_cons_self), ih fun r hr => hids r (List.mem_cons_of_mem _ hr)]

/-- A page whose rows ascend beyond the cursor is accepted when every row of it is. -/
theorem pageOf_rows {rows : List EventRow} {events : List HostedActivityEvent} (hids : ∀ r ∈ rows, r.eventId.natAbs < 2 ^ 53)
    (hasc : rows.Pairwise fun a b => a.eventId < b.eventId) (hafter : ∀ r ∈ rows, ∀ c, cursor = some c → c < r.eventId) :
    HostedActivity.pageOf taskId cursor (.arr (rows.map EventRow.received)) = .ok events ↔
      List.Forall₂ (Reads taskId) rows events := by
  have hmap : (rows.map EventRow.received).mapM (HostedActivity.parseEvent (some taskId)) = .ok events ↔
      List.Forall₂ (Reads taskId) rows events := by
    rw [mapM_ok_iff, List.forall₂_map_left_iff]
    exact Iff.rfl
  unfold HostedActivity.pageOf
  rw [bind_ok]
  constructor
  · rintro ⟨page, hpage, h⟩
    cases hpage
    obtain ⟨events', hevents, h⟩ := bind_ok.1 h
    obtain ⟨-, h⟩ := raiseIf_bind_ok.1 h
    obtain ⟨-, h⟩ := raiseIf_bind_ok.1 h
    cases h
    exact hmap.1 hevents
  · intro h
    refine ⟨_, rfl, bind_ok.2 ⟨events, hmap.2 h, ?_⟩⟩
    have hkeys := map_eventId hids h
    have hlt : (rows.map EventRow.eventId).Pairwise (· < ·) := List.pairwise_map.2 hasc
    simp only [hkeys]
    refine raiseIf_bind_ok.2 ⟨?_, raiseIf_bind_ok.2 ⟨?_, rfl⟩⟩
    · rw [not_or, not_not, not_not]
      exact ⟨((hlt.imp fun h => le_of_lt h).insertionSort_eq).symm, hlt.imp fun h => ne_of_lt h⟩
    · rintro ⟨after, hcursor, id, hid, hle⟩
      obtain ⟨r, hr, rfl⟩ := List.mem_map.1 hid
      exact absurd (hafter r hr after hcursor) (not_lt.2 hle)

end Activity

end Keirin

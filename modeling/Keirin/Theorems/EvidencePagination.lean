import Keirin.HostedRecovery
import Keirin.Lemmas.HostedLink

/-!
# The reading of the ledger

`HostedRecoveryInspector._all_events` reads the ledger of a task page by page while others append to it. Identifiers below
`2 ^ 53` come through JavaScript as they are; for them the reading is complete whenever it ends, and it ends once the others are
quiet, provided the client accepts the rows of the task as records.
-/

namespace Keirin.HostedRecovery

open Activity

section Reading

variable {repr : Doc → String} {caller : Queue.Caller} {tasks : List (String × String)} {taskId : String} {cursor : Option ℤ}
  {events : List HostedActivityEvent} {start : List EventRow} {table : Table}

/-- The identifiers of the rows are below `2 ^ 53` in magnitude. -/
def SafeIds (rows : List EventRow) : Prop := ∀ r ∈ rows, r.eventId.natAbs < 2 ^ 53

/-- The client accepts the rows of the task as records. -/
def Readable (taskId : String) (rows : List EventRow) : Prop := ∀ r ∈ rows, r.taskId = taskId → ∃ event, Reads taskId r event

/-! ## One page -/

/-- The rows of the next page. -/
abbrev nextRows (caller : Queue.Caller) (taskId : String) (cursor : Option ℤ) (table : Table) : List EventRow :=
  listedRows caller ⟨taskId, 200, cursor⟩ table

/-- What a request for a page does: it hands the request over and reads the page of the reply. -/
theorem list_eq (htask : Queue.isTaskId taskId = true) (hcursor : ∀ c, cursor = some c → 0 ≤ c) :
    HostedActivity.list repr taskId cursor 200 =
      .cmd ("event_list", HostedActivity.listRequest taskId cursor 200) fun reply =>
        .ofExcept (HostedActivity.accept repr reply) >>= fun response =>
          .ofExcept (HostedActivity.pageOf taskId cursor (Dict.getD response "events" .null)) := by
  have hafter : ¬∃ after ∈ cursor, after < 0 := by
    rintro ⟨after, hafter, hlt⟩
    exact absurd (hcursor after hafter) (not_le.2 hlt)
  have hname : ¬HostedActivity.validTaskId taskId = false := by
    rw [Bool.not_eq_false]
    exact htask
  unfold HostedActivity.list
  rw [raiseIf_neg hname, raiseIf_neg (by norm_num), raiseIf_neg hafter]
  rfl

/-- A page that the others let be read. -/
theorem exec_list {α : Type} (htask : Queue.isTaskId taskId = true) (hcursor : ∀ c, cursor = some c → 0 ≤ c ∧ c < 2 ^ 53)
    (f : List HostedActivityEvent → HostedProg α) (turn : Turn) (turns : List Turn)
    (hkeys : ((table.rows ++ turn.others).map EventRow.eventId).Nodup) :
    (HostedActivity.list repr taskId cursor 200 >>= f).exec (shared caller tasks) (turn :: turns) table =
      (Prog.ofExcept (HostedActivity.pageOf taskId cursor
        (.arr ((nextRows caller taskId cursor ⟨table.rows ++ turn.others, hkeys⟩).map EventRow.received))) >>= f).exec
          (shared caller tasks) turns ⟨table.rows ++ turn.others, hkeys⟩ := by
  have hopen : shared caller tasks table ("event_list", HostedActivity.listRequest taskId cursor 200) turn =
      some (answer caller tasks turn.stamp ("event_list", HostedActivity.listRequest taskId cursor 200)
        ⟨table.rows ++ turn.others, hkeys⟩) := dif_pos hkeys
  rw [answer_list turn.stamp _ htask (by norm_num) hcursor] at hopen
  rw [list_eq htask fun c hc => (hcursor c hc).1, Prog.cmd_bind, Prog.exec_cmd hopen]
  rfl

/-- A request that was not answered has not returned. -/
theorem exec_list_ret {α : Type} (htask : Queue.isTaskId taskId = true) (hcursor : ∀ c, cursor = some c → 0 ≤ c)
    {f : List HostedActivityEvent → HostedProg α} {turns : List Turn} {table' : Table} {a : α}
    (h : (HostedActivity.list repr taskId cursor 200 >>= f).exec (shared caller tasks) turns table = (table', .ret a)) :
    ∃ turn rest, turns = turn :: rest ∧ ((table.rows ++ turn.others).map EventRow.eventId).Nodup := by
  rw [list_eq htask hcursor, Prog.cmd_bind] at h
  cases turns with
  | nil => cases h
  | cons turn rest =>
    refine ⟨turn, rest, rfl, ?_⟩
    by_contra hkeys
    have hclosed : shared caller tasks table ("event_list", HostedActivity.listRequest taskId cursor 200) turn = none :=
      dif_neg hkeys
    simp only [Prog.exec, Prog.step, hclosed, Option.map_none] at h
    cases h

/-! ## The loop -/

/-- What the loop knows: the rows it has read, and the records it made of them. -/
structure Progress (caller : Queue.Caller) (taskId : String) (start : List EventRow) (table : Table) (cursor : Option ℤ)
    (events : List HostedActivityEvent) (read : List EventRow) : Prop where
  pages : Paging.Read EventRow.eventId start (table.visible caller taskId) cursor read
  records : List.Forall₂ (Reads taskId) read events
  kept : ∀ r ∈ start, r ∈ table.visible caller taskId
  ids : SafeIds table.rows
  safe : ∀ c, cursor = some c → 0 ≤ c ∧ c < 2 ^ 53

theorem progress_start (hids : SafeIds table.rows) : Progress caller taskId (table.visible caller taskId) table none [] [] :=
  ⟨Paging.Read.start _, .nil, fun _ h => h, hids, nofun⟩

variable {read : List EventRow}

/-- What others append is read later. -/
theorem Progress.grow (h : Progress caller taskId start table cursor events read) {others : List EventRow}
    (hkeys : ((table.rows ++ others).map EventRow.eventId).Nodup) (hids : SafeIds others) :
    Progress caller taskId start ⟨table.rows ++ others, hkeys⟩ cursor events read := by
  have hvisible : Table.visible ⟨table.rows ++ others, hkeys⟩ caller taskId = table.visible caller taskId ++
      others.filter fun r => caller.may r.userId && r.taskId = taskId := List.filter_append _ _
  refine ⟨hvisible ▸ h.pages.grow _, h.records, fun r hr => ?_, fun r hr => ?_, h.safe⟩
  · rw [hvisible]
    exact List.mem_append_left _ (h.kept r hr)
  · rcases List.mem_append.1 hr with hr | hr
    · exact h.ids r hr
    · exact hids r hr

theorem nodup_visible (table : Table) : ((table.visible caller taskId).map EventRow.eventId).Nodup :=
  table.keyed.sublist (List.filter_sublist.map _)

theorem safe_nextRows (hids : SafeIds table.rows) : SafeIds (nextRows caller taskId cursor table) := fun r hr =>
  hids r (List.mem_of_mem_filter (Paging.mem_of_page hr).1)

/-- The records of the next page are those of its rows. -/
theorem pageOf_nextRows (hids : SafeIds table.rows) {batch : List HostedActivityEvent} :
    HostedActivity.pageOf taskId cursor (.arr ((nextRows caller taskId cursor table).map EventRow.received)) = .ok batch ↔
      List.Forall₂ (Reads taskId) (nextRows caller taskId cursor table) batch :=
  pageOf_rows (safe_nextRows hids) (Paging.page_ascending (nodup_visible table)) fun _ hr => (Paging.mem_of_page hr).2

/-- A page that is not full ends the reading. -/
theorem Progress.last (h : Progress caller taskId start table cursor events read) {batch : List HostedActivityEvent}
    (hbatch : List.Forall₂ (Reads taskId) (nextRows caller taskId cursor table) batch) (hshort : batch.length < 200) :
    ∃ read', (read'.Pairwise fun a b => a.eventId < b.eventId) ∧ (∀ r ∈ read', r ∈ table.visible caller taskId) ∧
      (∀ r ∈ start, r ∈ read') ∧ SafeIds read' ∧ List.Forall₂ (Reads taskId) read' (events ++ batch) := by
  obtain ⟨hasc, hsound⟩ : ((read ++ nextRows caller taskId cursor table).Pairwise fun a b => a.eventId < b.eventId) ∧
      ∀ r ∈ read ++ nextRows caller taskId cursor table, r ∈ table.visible caller taskId := h.pages.page (nodup_visible table)
  refine ⟨_, hasc, hsound, h.pages.last h.kept ?_, fun r hr => h.ids r (List.mem_of_mem_filter (hsound r hr)),
    List.rel_append h.records hbatch⟩
  rw [← hbatch.length_eq] at hshort
  exact hshort

/-- After a full page the reading goes on from its last record. -/
theorem Progress.next (h : Progress caller taskId start table cursor events read) {batch : List HostedActivityEvent}
    (hbatch : List.Forall₂ (Reads taskId) (nextRows caller taskId cursor table) batch) {last : HostedActivityEvent}
    (hlast : batch.getLast? = some last) :
    ∃ row ∈ nextRows caller taskId cursor table, last.eventId = row.eventId ∧
      Progress caller taskId start table (some last.eventId) (events ++ batch) (read ++ nextRows caller taskId cursor table) := by
  have hids : SafeIds (nextRows caller taskId cursor table) := safe_nextRows h.ids
  have hmap : (nextRows caller taskId cursor table).getLast?.map EventRow.eventId = some last.eventId := by
    rw [← List.getLast?_map, ← map_eventId hids hbatch, List.getLast?_map, hlast]
    rfl
  obtain ⟨row, hrow, hid⟩ := Option.map_eq_some_iff.1 hmap
  have hmem : row ∈ nextRows caller taskId cursor table := List.mem_of_getLast? hrow
  refine ⟨row, hmem, hid.symm, ?_, List.rel_append h.records hbatch, h.kept, h.ids, fun c hc => ?_⟩
  · rw [← hid]
    exact h.pages.next (nodup_visible table) h.kept hrow
  · obtain ⟨row', -, hr⟩ := exists_of_mem_right hbatch (List.mem_of_getLast? hlast)
    have hpos := hr.pos
    have hlt := hids row hmem
    have hcid : last.eventId = c := Option.some.inj hc
    omega

/-- The cursor advances with every full page. -/
theorem Progress.advances (h : Progress caller taskId start table cursor events read) {batch : List HostedActivityEvent}
    (hbatch : List.Forall₂ (Reads taskId) (nextRows caller taskId cursor table) batch) {last : HostedActivityEvent}
    (hlast : batch.getLast? = some last) : ¬cursor.any (fun c => last.eventId ≤ c) = true := by
  obtain ⟨row, hrow, hid, -⟩ := h.next hbatch hlast
  intro hany
  rw [Option.any_eq_true] at hany
  obtain ⟨c, hc, hle⟩ := hany
  have hlt := (Paging.mem_of_page hrow).2 c hc
  have hle : last.eventId ≤ c := of_decide_eq_true hle
  omega

/-- Whenever the loop returns, it has read every row of the start. -/
theorem allEventsFrom_sound (htask : Queue.isTaskId taskId = true) {fuel : ℕ} {turns : List Turn}
    (hturns : ∀ turn ∈ turns, SafeIds turn.others) (h : Progress caller taskId start table cursor events read) {table' : Table}
    {all : List HostedActivityEvent}
    (hrun : (allEventsFrom repr taskId fuel cursor events).exec (shared caller tasks) turns table = (table', .ret (some all))) :
    ∃ read', (read'.Pairwise fun a b => a.eventId < b.eventId) ∧ (∀ r ∈ read', r ∈ table'.visible caller taskId) ∧
      (∀ r ∈ start, r ∈ read') ∧ SafeIds read' ∧ List.Forall₂ (Reads taskId) read' all := by
  induction fuel generalizing turns table cursor events read with
  | zero =>
    rw [allEventsFrom, Prog.exec_ret] at hrun
    nomatch hrun
  | succ fuel ih =>
    rw [allEventsFrom] at hrun
    obtain ⟨turn, rest, rfl, hkeys⟩ := exec_list_ret htask (fun c hc => (h.safe c hc).1) hrun
    rw [exec_list htask h.safe _ turn rest hkeys] at hrun
    have hgrown := h.grow hkeys (hturns turn List.mem_cons_self)
    cases hpage : HostedActivity.pageOf taskId cursor
        (.arr ((nextRows caller taskId cursor ⟨table.rows ++ turn.others, hkeys⟩).map EventRow.received)) with
    | error e =>
      rw [hpage, Prog.ofExcept, Prog.raise_bind, Prog.exec_raise] at hrun
      nomatch hrun
    | ok batch =>
      have hbatch := (pageOf_nextRows hgrown.ids).1 hpage
      rw [hpage, Prog.ofExcept, Prog.ret_bind] at hrun
      split at hrun
      · rename_i hnone
        rw [Prog.pure_eq, Prog.exec_ret] at hrun
        cases hrun
        refine hgrown.last hbatch ?_
        rw [List.getLast?_eq_none_iff.1 hnone]
        norm_num
      · rename_i last hlast
        split at hrun
        · rename_i hshort
          rw [Prog.pure_eq, Prog.exec_ret] at hrun
          cases hrun
          exact hgrown.last hbatch hshort
        · rw [if_neg (hgrown.advances hbatch hlast)] at hrun
          obtain ⟨_, -, -, hnext⟩ := hgrown.next hbatch hlast
          exact ih (fun t ht => hturns t (List.mem_cons_of_mem _ ht)) hnext hrun

/-! ## The end of the loop -/

/-- The rows of a task that are still to be read. -/
abbrev unread (caller : Queue.Caller) (taskId : String) (cursor : Option ℤ) (table : Table) : ℕ :=
  Paging.beyond EventRow.eventId (table.visible caller taskId) cursor

/-- Where the client accepts the rows, a request ends the loop or leaves fewer rows to be read. -/
theorem allEventsFrom_step (repr : Doc → String) (tasks : List (String × String)) (htask : Queue.isTaskId taskId = true) (h : Progress caller taskId start table cursor events read)
    {turn : Turn} (hkeys : ((table.rows ++ turn.others).map EventRow.eventId).Nodup) (hids : SafeIds turn.others)
    (hread : Readable taskId (table.rows ++ turn.others)) (fuel : ℕ) (turns : List Turn) :
    (∃ all, (allEventsFrom repr taskId (fuel + 1) cursor events).exec (shared caller tasks) (turn :: turns) table =
      (⟨table.rows ++ turn.others, hkeys⟩, .ret (some all))) ∨
    ∃ cursor' events' read', Progress caller taskId start ⟨table.rows ++ turn.others, hkeys⟩ cursor' events' read' ∧
      unread caller taskId cursor' ⟨table.rows ++ turn.others, hkeys⟩ <
        unread caller taskId cursor ⟨table.rows ++ turn.others, hkeys⟩ ∧
      (allEventsFrom repr taskId (fuel + 1) cursor events).exec (shared caller tasks) (turn :: turns) table =
        (allEventsFrom repr taskId fuel cursor' events').exec (shared caller tasks) turns ⟨table.rows ++ turn.others, hkeys⟩ := by
  have hgrown := h.grow hkeys hids
  have hrows : ∀ r ∈ nextRows caller taskId cursor ⟨table.rows ++ turn.others, hkeys⟩, ∃ event,
      HostedActivity.parseEvent (some taskId) r.received = .ok event := by
    intro r hr
    have hmem := List.mem_filter.1 (Paging.mem_of_page hr).1
    exact hread r hmem.1 (of_decide_eq_true (Bool.and_eq_true_iff.1 hmem.2).2)
  obtain ⟨batch, hmapM⟩ := exists_mapM_ok hrows
  have hbatch : List.Forall₂ (Reads taskId) (nextRows caller taskId cursor ⟨table.rows ++ turn.others, hkeys⟩) batch :=
    mapM_ok_iff.1 hmapM
  rw [allEventsFrom, exec_list htask h.safe _ turn turns hkeys, (pageOf_nextRows hgrown.ids).2 hbatch, Prog.ofExcept,
    Prog.ret_bind]
  cases hlast : batch.getLast? with
  | none =>
    simp only []
    rw [Prog.pure_eq, Prog.exec_ret]
    exact .inl ⟨_, rfl⟩
  | some last =>
    simp only []
    by_cases hshort : batch.length < 200
    · rw [if_pos hshort, Prog.pure_eq, Prog.exec_ret]
      exact .inl ⟨_, rfl⟩
    · rw [if_neg hshort, if_neg (hgrown.advances hbatch hlast)]
      obtain ⟨row, hrow, hid, hnext⟩ := hgrown.next hbatch hlast
      refine .inr ⟨_, _, _, hnext, ?_, rfl⟩
      rw [hid]
      exact Paging.beyond_lt hrow

/-- Once the others are quiet the loop ends. -/
theorem allEventsFrom_quiet (htask : Queue.isTaskId taskId = true) {turns : List Turn} (hquiet : ∀ turn ∈ turns, turn.others = [])
    (h : Progress caller taskId start table cursor events read) (hread : Readable taskId table.rows) {fuel : ℕ}
    (hfuel : turns.length ≤ fuel) (hlen : unread caller taskId cursor table < turns.length) :
    ∃ table' all, (allEventsFrom repr taskId fuel cursor events).exec (shared caller tasks) turns table = (table', .ret (some all)) := by
  induction turns generalizing table cursor events read fuel with
  | nil => nomatch hlen
  | cons turn turns ih =>
    obtain ⟨fuel, rfl⟩ : ∃ n, fuel = n + 1 := ⟨fuel - 1, by rw [List.length_cons] at hfuel; omega⟩
    have hothers : table.rows ++ turn.others = table.rows := by rw [hquiet turn List.mem_cons_self, List.append_nil]
    have hkeys : ((table.rows ++ turn.others).map EventRow.eventId).Nodup := by
      rw [hothers]
      exact table.keyed
    have hsame : (⟨table.rows ++ turn.others, hkeys⟩ : Table) = table := by
      cases table
      simp only [Table.mk.injEq]
      exact hothers
    have hids : SafeIds turn.others := by
      rw [hquiet turn List.mem_cons_self]
      exact nofun
    rcases allEventsFrom_step repr tasks htask h hkeys hids (by rwa [hothers]) fuel turns with
      ⟨all, hrun⟩ | ⟨cursor', events', read', hnext, hlt, hrun⟩
    · exact ⟨_, all, hrun⟩
    · rw [hsame] at hnext hlt hrun
      rw [hrun]
      rw [List.length_cons] at hfuel hlen
      exact ih (fun t ht => hquiet t (List.mem_cons_of_mem _ ht)) hnext hread (by omega) (by omega)

/-- The loop ends when the others are quiet for long enough after they have appended. -/
theorem allEventsFrom_ends (htask : Queue.isTaskId taskId = true) {busy quiet : List Turn}
    (hquiet : ∀ turn ∈ quiet, turn.others = []) (h : Progress caller taskId start table cursor events read)
    (hkeys : ((table.rows ++ busy.flatMap Turn.others).map EventRow.eventId).Nodup) (hids : SafeIds (busy.flatMap Turn.others))
    (hread : Readable taskId (table.rows ++ busy.flatMap Turn.others)) {fuel : ℕ} (hfuel : (busy ++ quiet).length ≤ fuel)
    (hlen : (table.rows ++ busy.flatMap Turn.others).length < quiet.length) :
    ∃ table' all, (allEventsFrom repr taskId fuel cursor events).exec (shared caller tasks) (busy ++ quiet) table =
      (table', .ret (some all)) := by
  induction busy generalizing table cursor events read fuel with
  | nil =>
    rw [List.flatMap_nil, List.append_nil] at hlen hread
    have hle : unread caller taskId cursor table ≤ table.rows.length :=
      List.countP_le_length.trans (List.length_filter_le _ _)
    exact allEventsFrom_quiet htask hquiet h hread hfuel (by omega)
  | cons turn busy ih =>
    rw [List.flatMap_cons, ← List.append_assoc] at hkeys hread hlen
    rw [List.cons_append, List.length_cons] at hfuel
    obtain ⟨fuel, rfl⟩ : ∃ n, fuel = n + 1 := ⟨fuel - 1, by omega⟩
    have hkeys' : ((table.rows ++ turn.others).map EventRow.eventId).Nodup :=
      hkeys.sublist ((List.sublist_append_left _ _).map _)
    have hids' : SafeIds turn.others := fun r hr => hids r (by rw [List.flatMap_cons]; exact List.mem_append_left _ hr)
    have hread' : Readable taskId (table.rows ++ turn.others) := fun r hr => hread r (List.mem_append_left _ hr)
    rw [List.cons_append]
    rcases allEventsFrom_step repr tasks htask h hkeys' hids' hread' fuel (busy ++ quiet) with
      ⟨all, hrun⟩ | ⟨cursor', events', read', hnext, -, hrun⟩
    · exact ⟨_, all, hrun⟩
    · rw [hrun]
      exact ih hnext hkeys (fun r hr => hids r (by rw [List.flatMap_cons]; exact List.mem_append_right _ hr)) hread (by omega) hlen

end Reading

/-! ## The reading as a whole -/

/-- While others append rows with identifiers below `2 ^ 53`, whatever the loop returns holds the record of every row of the task
that was there at the beginning, each identifier once and in ascending order, and nothing but records of rows. Where the client
accepts the rows of the task and the others append finitely often, the loop returns. -/
theorem evidence_complete (repr : Doc → String) (caller : Queue.Caller) (tasks : List (String × String)) (taskId : String)
    (htask : Queue.isTaskId taskId = true) (table : Table) (hids : SafeIds table.rows) :
    (∀ (fuel : ℕ) (turns : List Turn) (table' : Table) (events : List HostedActivityEvent),
      (∀ turn ∈ turns, SafeIds turn.others) →
      (allEvents repr taskId fuel).exec (shared caller tasks) turns table = (table', .ret (some events)) →
        (events.Pairwise fun a b => a.eventId < b.eventId) ∧
        (∀ row ∈ table.visible caller taskId, ∃ event ∈ events, Reads taskId row event ∧ event.eventId = row.eventId) ∧
        ∀ event ∈ events, ∃ row ∈ table'.visible caller taskId, Reads taskId row event) ∧
    ∀ turns : ℕ → Turn, (∀ n, SafeIds (turns n).others ∧ Readable taskId (turns n).others) → Readable taskId table.rows →
      (∀ n, ((table.rows ++ ((List.range n).map turns).flatMap Turn.others).map EventRow.eventId).Nodup) →
      (∃ m, ∀ n ≥ m, (turns n).others = []) →
        ∃ n, ∀ fuel ≥ n, ∃ table' events,
          (allEvents repr taskId fuel).exec (shared caller tasks) ((List.range n).map turns) table = (table', .ret (some events)) := by
  constructor
  · intro fuel turns table' events hturns hrun
    obtain ⟨read, hasc, hsound, hall, hgrown, hrecords⟩ := allEventsFrom_sound htask hturns (progress_start hids) hrun
    refine ⟨?_, ?_, ?_⟩
    · have hmap := map_eventId hgrown hrecords
      rw [← List.pairwise_map (f := HostedActivityEvent.eventId) (R := (· < ·)), hmap, List.pairwise_map]
      exact hasc
    · intro row hrow
      obtain ⟨event, hevent, hreads⟩ := exists_of_mem_left hrecords (hall row hrow)
      exact ⟨event, hevent, hreads, hreads.eventId (hgrown row (hall row hrow))⟩
    · intro event hevent
      obtain ⟨row, hrow, hreads⟩ := exists_of_mem_right hrecords hevent
      exact ⟨row, hsound row hrow, hreads⟩
  · intro turns hturns hread hkeys hquiet
    obtain ⟨m, hm⟩ := hquiet
    have hothers : ∀ r ∈ ((List.range m).map turns).flatMap Turn.others, ∃ n, r ∈ (turns n).others := by
      intro r hr
      obtain ⟨turn, hturn, hr⟩ := List.mem_flatMap.1 hr
      obtain ⟨n, -, rfl⟩ := List.mem_map.1 hturn
      exact ⟨n, hr⟩
    refine ⟨m + ((table.rows ++ ((List.range m).map turns).flatMap Turn.others).length + 1), fun fuel hfuel => ?_⟩
    rw [List.range_add, List.map_append]
    refine allEventsFrom_ends htask ?_ (progress_start hids) (hkeys m) ?_ ?_ ?_ ?_
    · intro turn hturn
      rw [List.map_map] at hturn
      obtain ⟨k, -, rfl⟩ := List.mem_map.1 hturn
      exact hm _ (Nat.le_add_right m k)
    · intro r hr
      obtain ⟨n, hn⟩ := hothers r hr
      exact (hturns n).1 r hn
    · intro r hr htask
      rcases List.mem_append.1 hr with hr | hr
      · exact hread r hr htask
      · obtain ⟨n, hn⟩ := hothers r hr
        exact (hturns n).2 r hn htask
    · simp only [List.length_append, List.length_map, List.length_range] at hfuel ⊢
      exact hfuel
    · simp only [List.length_map, List.length_range]
      omega

/-- The owner whose ledger it is. -/
def owner : Queue.Caller := { uid := some "u", owner := true }

def stampOf (n : ℤ) : Stamp := { eventId := n, createdAt := "2026-09-25T12:00:00+00:00" }

/-- A row of the ledger. -/
def observed (n : ℤ) : EventRow :=
  { eventId := n
    userId := "u"
    taskId := "t"
    eventType := "github_observation"
    stepId := some "s"
    payload := .obj [("revision", .num (Numeric.ofInt 1))]
    createdAt := "2026-09-25T12:00:00+00:00"
    nonempty := by decide +kernel
    object := rfl }

/-- The record of such a row. -/
def observedEvent (n : ℤ) : HostedActivityEvent :=
  { eventId := n
    taskId := "t"
    eventType := "github_observation"
    stepId := some "s"
    payload := [("revision", .num (.int 1))]
    createdAt := "2026-09-25T12:00:00+00:00" }

/-- The ledger with one row. -/
def ledger : Table := { rows := [observed 1], keyed := List.nodup_singleton _ }

/-- The others append one row before the first page. -/
def later (n : ℕ) : Turn := { others := if n = 0 then [observed 2] else [], stamp := stampOf 3 }

theorem evidence_complete_sample :
    (∀ (fuel : ℕ) (turns : List Turn) (table' : Table) (events : List HostedActivityEvent),
      (∀ turn ∈ turns, SafeIds turn.others) →
      (allEvents (fun _ => "") "t" fuel).exec (shared owner [("u", "t")]) turns ledger = (table', .ret (some events)) →
        ∃ event ∈ events, event.eventId = 1) ∧
    ∃ n, ∀ fuel ≥ n, ∃ table' events, (allEvents (fun _ => "") "t" fuel).exec (shared owner [("u", "t")])
      ((List.range n).map later) ledger = (table', .ret (some events)) := by
  have hids : SafeIds ledger.rows := by
    intro r hr
    rw [List.mem_singleton.1 hr]
    decide
  have hreads : ∀ n ∈ [(1 : ℤ), 2], Reads "t" (observed n) (observedEvent n) := by
    unfold Reads
    decide +kernel
  have hothers : ∀ n, ∀ r ∈ (later n).others, r = observed 2 := by
    intro n r hr
    unfold later at hr
    split at hr
    · exact List.mem_singleton.1 hr
    · nomatch hr
  have hall := evidence_complete (fun _ => "") owner [("u", "t")] "t" (by decide +kernel) ledger hids
  refine ⟨fun fuel turns table' events hturns hrun => ?_, hall.2 later (fun n => ⟨?_, ?_⟩) ?_ (fun n => ?_) ⟨1, fun n hn => ?_⟩⟩
  · obtain ⟨event, hevent, -, hid⟩ := (hall.1 fuel turns table' events hturns hrun).2.1 (observed 1) (by decide +kernel)
    exact ⟨event, hevent, hid⟩
  · intro r hr
    rw [hothers n r hr]
    decide
  · intro r hr _
    rw [hothers n r hr]
    exact ⟨_, hreads 2 (by simp)⟩
  · intro r hr _
    rw [List.mem_singleton.1 hr]
    exact ⟨_, hreads 1 (by simp)⟩
  · cases n with
    | zero => decide +kernel
    | succ n =>
      have hrest : ((List.range n).map fun k => later (k + 1)).flatMap Turn.others = [] := by
        rw [List.flatMap_eq_nil_iff]
        intro turn hturn
        obtain ⟨k, -, rfl⟩ := List.mem_map.1 hturn
        rfl
      have hsplit : (List.range (n + 1)).map later = later 0 :: (List.range n).map fun k => later (k + 1) := by
        rw [List.range_succ_eq_map, List.map_cons, List.map_map]
        rfl
      rw [hsplit, List.flatMap_cons, hrest]
      decide +kernel
  · unfold later
    rw [if_neg (by omega)]

/-- An append whose type is a separator, which JavaScript and the database keep and Python strips. -/
def separatorAppend : JsDoc :=
  .obj [("mode", .str "event_append"), ("task_id", .str "t"), ("event_type", .str "\x1c"), ("payload", .obj [])]

/-- The ledger after that append. -/
def separatorLedger : JsDoc × Table :=
  edge owner [("u", "t")] (stampOf 1) separatorAppend { rows := [], keyed := List.nodup_nil }

/-- The edge function accepts the append, and the reading of that ledger raises though nothing is appended. -/
theorem separator_stops_reading :
    separatorLedger.1.get? "success" = some (.bool true) ∧
      ((allEvents (fun _ => "") "t" 1).exec (shared owner [("u", "t")]) [{ others := [], stamp := stampOf 2 }] separatorLedger.2).2.error? =
        some (.runtimeError "invalid_activity_event_type") := by
  decide +kernel

end Keirin.HostedRecovery

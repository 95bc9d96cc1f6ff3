import Keirin.Lemmas.QueuePlanner
import Keirin.Lemmas.QueueSound

/-!
# The planner and the database

Two definitions say which task is next: the plan, which looks at all entries at once, and `agent_claim_next_task`, which claims
one task after another. Each claim takes the first of the due tasks in the order of their creation and leaves the order of the
others alone, so successive claims at one time take the tasks the plan proposes, in its order.
-/

namespace Keirin.QueuePlanner

open Queue

/-- A row of the table as an entry of the queue. -/
def rowEntry (row : Row) : QueueEntry :=
  { ownerId := row.userId
    taskId := row.taskId
    idempotencyKey := row.idempotencyKey
    revision := row.revision
    status := row.status.text
    createdAt := utc row.createdAt
    notBefore := utc row.notBefore
    attempts := row.attemptCount
    maxAttempts := row.maxAttempts
    leaseExpiresAt := row.leaseExpiresAt.map utc }

/-- The rows of an owner. -/
def ownerRows (uid : String) (db : Db) : List Row := db.tasks.filter fun row => row.userId = uid

/-- A call of `agent_claim_next_task` that no other transaction is in the way of. -/
structure Claim where
  caller : Caller
  clock : Clock
  worker : String
  seconds : ℤ

/-- The claim is made by the owner at the time, with arguments that pass their checks. -/
structure Claim.By (uid : String) (now : ℤ) (c : Claim) : Prop where
  caller : c.caller.uid = some uid ∧ c.caller.owner = true
  time : c.clock.now = now
  worker : isWorkerId c.worker = true
  seconds : 15 ≤ c.seconds ∧ c.seconds ≤ 3600

/-- The tasks that claims take one after another. -/
def claimAll : List Claim → Db → Except PgError (List String)
  | [], _ => .ok []
  | c :: cs, db => do
    let taken ← agentClaimNextTask c.caller c.clock (some c.worker) (some c.seconds) [] db
    let rest ← claimAll cs taken.2
    return (taken.1.map fun row => row.taskId).toList ++ rest

/-! ## The order of the rows -/

instance : Std.Total fun a b : Row => claimOrder a b = true where
  total a b := by
    simp only [claimOrder, Bool.or_eq_true, Bool.and_eq_true, decide_eq_true_eq]
    rcases lt_trichotomy a.createdAt b.createdAt with h | h | h
    · exact .inl (.inl h)
    · rcases le_total a.taskId b.taskId with ht | ht
      · exact .inl (.inr ⟨h, ht⟩)
      · exact .inr (.inr ⟨h.symm, ht⟩)
    · exact .inr (.inl h)

theorem claimOrder_iff {a b : Row} : claimOrder a b = true ↔ byInstant (rowEntry a) (rowEntry b) := by
  simp [claimOrder, byInstant, rowEntry, utc, DateTime.instant, DateTime.utcoffset, Zone.offset]

instance : IsTrans Row fun a b : Row => claimOrder a b = true where
  trans a b c hab hbc := by
    rw [claimOrder_iff] at *
    exact IsTrans.trans _ _ _ hab hbc

/-- Two rows of one owner that the order does not tell apart are one row. -/
theorem eq_of_claimOrder {db : Db} {uid : String} {a b : Row} (ha : a ∈ ownerRows uid db) (hb : b ∈ ownerRows uid db)
    (hab : claimOrder a b = true) (hba : claimOrder b a = true) : a = b := by
  rw [ownerRows, List.mem_filter, decide_eq_true_eq] at ha hb
  have htask : a.taskId = b.taskId := taskId_of_byInstant (claimOrder_iff.1 hab) (claimOrder_iff.1 hba)
  exact Db.eq_of_key ha.1 hb.1 (Prod.ext (ha.2.trans hb.2.symm) htask)

/-- A row can be claimed at the time. -/
def dueAt (now : ℤ) (row : Row) : Bool := row.status = .queued && row.notBefore ≤ now && row.attemptCount < row.maxAttempts

/-- The tasks of an owner that are due, in the order they are claimed. -/
def queue (uid : String) (now : ℤ) (db : Db) : List Row :=
  ((ownerRows uid db).filter (dueAt now)).insertionSort fun a b => claimOrder a b = true

theorem mem_queue {uid : String} {now : ℤ} {db : Db} {row : Row} :
    row ∈ queue uid now db ↔ row ∈ ownerRows uid db ∧ dueAt now row = true := by
  rw [queue, List.mem_insertionSort, List.mem_filter]

/-- Of the rows after one was put among them, those that satisfy what it does not are the others. -/
theorem filter_put {p : Row → Bool} {row : Row} (hrow : p row = false) (tasks : List Row) :
    (Db.put tasks row).filter p = (tasks.filter p).filter fun r => r.key ≠ row.key := by
  induction tasks with
  | nil => rfl
  | cons r tasks ih =>
    rw [Db.put, List.map_cons, ← Db.put]
    by_cases hr : r.key = row.key
    · rw [if_pos hr, List.filter_cons_of_neg (by simp [hrow]), ih]
      by_cases hp : p r = true
      · rw [List.filter_cons_of_pos hp, List.filter_cons_of_neg (by simp [hr])]
      · rw [List.filter_cons_of_neg hp]
    · rw [if_neg hr]
      by_cases hp : p r = true
      · rw [List.filter_cons_of_pos hp, List.filter_cons_of_pos hp, List.filter_cons_of_pos (by simp [hr]), ih]
      · rw [List.filter_cons_of_neg hp, List.filter_cons_of_neg hp, ih]

/-- When a row that is not due takes the place of the first of the queue, the rest of the queue stays as it is. -/
theorem queue_put {uid : String} {now : ℤ} {db db' : Db} {row next : Row} {rest : List Row} (hqueue : queue uid now db = next :: rest)
    (htasks : db'.tasks = Db.put db.tasks row) (hkey : row.key = next.key) (hdue : dueAt now row = false) : queue uid now db' = rest := by
  have hrow : (dueAt now row && decide (row.userId = uid)) = false := by rw [hdue, Bool.false_and]
  have hfilter : (ownerRows uid db').filter (dueAt now) = ((ownerRows uid db).filter (dueAt now)).filter fun r => r.key ≠ next.key := by
    have hput := filter_put (p := fun r => dueAt now r && decide (r.userId = uid)) hrow db.tasks
    simp only [ownerRows, htasks, List.filter_filter, hput, hkey, Bool.and_assoc]
  have hsort : (((ownerRows uid db).filter (dueAt now)).filter fun r => decide (r.key ≠ next.key)).insertionSort
      (fun a b => claimOrder a b = true) = (queue uid now db).filter fun r => decide (r.key ≠ next.key) :=
    Sorted.sort_filter _ fun a ha b hb hab hba => eq_of_claimOrder (List.mem_filter.1 ha).1 (List.mem_filter.1 hb).1 hab hba
  have hnodup : (queue uid now db).Nodup := by
    refine (List.perm_insertionSort _ _).nodup_iff.2 (List.Nodup.filter _ (List.Nodup.filter _ ?_))
    exact List.Nodup.of_map _ db.keyed
  rw [queue, hfilter, hsort]
  rw [hqueue] at hnodup ⊢
  rw [List.filter_cons_of_neg (by simp), List.filter_eq_self]
  intro r hr
  rw [decide_eq_true_eq]
  intro hk
  have hmem : ∀ x ∈ next :: rest, x ∈ db.tasks := fun x hx => (List.mem_filter.1 (mem_queue.1 (hqueue ▸ hx)).1).1
  obtain rfl : r = next := Db.eq_of_key (hmem r (List.mem_cons_of_mem _ hr)) (hmem next List.mem_cons_self) hk
  exact (List.nodup_cons.1 hnodup).1 hr

/-! ## Claims -/

section Claims

variable {uid : String} {now : ℤ} {db : Db} {c : Claim}

/-- The tasks a claim chooses from are those of the queue. -/
theorem candidates_eq (db : Db) (h : c.By uid now) : (db.tasks.filter fun r => c.caller.may r.userId && r.userId = uid && due c.clock r) =
    (ownerRows uid db).filter (dueAt now) := by
  rw [ownerRows, List.filter_filter]
  refine List.filter_congr fun r _ => ?_
  have hdue : due c.clock r = dueAt now r := by rw [due, dueAt, h.time]
  rw [hdue]
  by_cases hr : r.userId = uid
  · simp [Caller.may, h.caller.1, h.caller.2, hr]
  · simp [hr]

/-- Where nothing is due, nothing is claimed. -/
theorem claim_none (h : c.By uid now) (hqueue : queue uid now db = []) :
    agentClaimNextTask c.caller c.clock (some c.worker) (some c.seconds) [] db = .ok (none, db) := by
  have hseconds : (fun n : ℤ => decide (15 ≤ n) && decide (n ≤ 3600)) c.seconds = true := by simp [h.seconds.1, h.seconds.2]
  refine bind_ok.2 ⟨uid, authenticated_ok.2 h.caller.1, bind_ok.2 ⟨c.worker, checkArg_ok.2 ⟨rfl, h.worker⟩,
    bind_ok.2 ⟨c.seconds, checkArg_ok.2 ⟨rfl, hseconds⟩, ?_⟩⟩⟩
  have hcandidates := candidates_eq db h
  unfold queue at hqueue
  simp only [hcandidates, hqueue, List.find?_nil]
  rfl

/-- The first task of the queue is claimed, and the rest of the queue is left. -/
theorem claim_first (hs : Sound db) (h : c.By uid now) {next : Row} {rest : List Row} (hqueue : queue uid now db = next :: rest)
    (hroom : Room next) :
    ∃ row db', agentClaimNextTask c.caller c.clock (some c.worker) (some c.seconds) [] db = .ok (some row, db') ∧
      row.taskId = next.taskId ∧ queue uid now db' = rest ∧ Sound db' := by
  have hseconds : (fun n : ℤ => decide (15 ≤ n) && decide (n ≤ 3600)) c.seconds = true := by simp [h.seconds.1, h.seconds.2]
  have hcandidates := candidates_eq db h
  have hnext := mem_queue.1 (hqueue ▸ List.mem_cons_self : next ∈ queue uid now db)
  obtain ⟨hmem, huser⟩ := List.mem_filter.1 hnext.1
  rw [decide_eq_true_eq] at huser
  have hdue : due c.clock next = true := by rw [due, h.time]; exact hnext.2
  have hmay : c.caller.may next.userId = true := by simp [Caller.may, h.caller.1, h.caller.2, huser]
  obtain ⟨row, db', hupdate⟩ := update_claimed c.seconds hs hmem hmay hdue h.worker hroom
  have hclaim : agentClaimNextTask c.caller c.clock (some c.worker) (some c.seconds) [] db =
      .ok (some row, db'.event (claimEvent false row)) := by
    refine bind_ok.2 ⟨uid, authenticated_ok.2 h.caller.1, bind_ok.2 ⟨c.worker, checkArg_ok.2 ⟨rfl, h.worker⟩,
      bind_ok.2 ⟨c.seconds, checkArg_ok.2 ⟨rfl, hseconds⟩, ?_⟩⟩⟩
    unfold queue at hqueue
    simp only [hcandidates, hqueue, List.find?_cons, List.not_mem_nil, not_false_eq_true, decide_true]
    rw [huser] at hupdate
    exact bind_ok.2 ⟨(some row, db'), hupdate, rfl⟩
  rcases Db.update_ok hupdate with ⟨hnone, -⟩ | ⟨old, row', new, hsome, hcond, hset, hw⟩
  · cases hnone
  obtain rfl : row = row' := Option.some.inj hsome
  simp only [Bool.and_eq_true, decide_eq_true_eq] at hcond
  obtain rfl : old = next := Db.eq_of_key hw.mem hmem (Prod.ext hcond.1 hcond.2)
  have hrunning : row.status = .running := by
    obtain ⟨_, -, hset⟩ := bind_ok.1 hset
    obtain ⟨_, -, hset⟩ := bind_ok.1 hset
    obtain ⟨_, -, hset⟩ := bind_ok.1 hset
    cases hset
    have hstatus := congrArg Draft.status hw.draft
    exact RowStatus.text_inj (Option.some.inj hstatus)
  refine ⟨row, _, hclaim, congrArg Prod.snd hw.key, ?_, claimNextTask_sound hclaim hs⟩
  exact queue_put hqueue hw.tasks hw.key (by simp [dueAt, hrunning])

end Claims

/-- Successive claims at one time take the first tasks of the queue. -/
theorem claimAll_ok {uid : String} {now : ℤ} {claims : List Claim} {db : Db} (hs : Sound db) (h : ∀ c ∈ claims, c.By uid now)
    (hroom : ∀ row ∈ queue uid now db, Room row) :
    claimAll claims db = .ok (((queue uid now db).take claims.length).map fun row => row.taskId) := by
  induction claims generalizing db with
  | nil => simp [claimAll]
  | cons c claims ih =>
    rw [List.forall_mem_cons] at h
    cases hqueue : queue uid now db with
    | nil =>
      refine bind_ok.2 ⟨(none, db), claim_none h.1 hqueue, bind_ok.2 ⟨[], ?_, by rw [List.take_nil, List.map_nil]; rfl⟩⟩
      rw [ih hs h.2 hroom, hqueue, List.take_nil, List.map_nil]
    | cons next rest =>
      rw [hqueue, List.forall_mem_cons] at hroom
      obtain ⟨row, db', hclaim, htask, hrest, hs'⟩ := claim_first hs h.1 hqueue hroom.1
      refine bind_ok.2 ⟨(some row, db'), hclaim, bind_ok.2 ⟨_, ih hs' h.2 (hrest ▸ hroom.2), ?_⟩⟩
      rw [hrest, List.length_cons, List.take_succ_cons, List.map_cons, ← htask]
      rfl

/-! ## The prediction -/

section Entries

variable {uid : String} {now : ℤ} {db : Db}

/-- A letter or a digit is no blank. -/
theorem not_space_of_isAlnum {c : Char} (h : Text.isAlnum c = true) : isSpace c = false := by
  simp only [Text.isAlnum, Char.isDigit, Bool.or_eq_true, Bool.and_eq_true, decide_eq_true_eq, Char.le_def, UInt32.le_iff_toNat_le,
    ge_iff_le] at h
  have hn : (48 ≤ c.toNat ∧ c.toNat ≤ 57) ∨ (65 ≤ c.toNat ∧ c.toNat ≤ 90) ∨ (97 ≤ c.toNat ∧ c.toNat ≤ 122) := by
    rcases h with (h | h) | h
    · exact .inl h
    · exact .inr (.inl h)
    · exact .inr (.inr h)
  simp only [isSpace, Bool.or_eq_false_iff, Bool.and_eq_false_iff, decide_eq_false_iff_not]
  omega

theorem not_blank_of_isTaskId {s : String} (h : isTaskId s = true) : isBlank s = false := by
  unfold isTaskId Text.isName at h
  split at h
  · cases h
  · rename_i c cs hs
    simp only [Bool.and_eq_true] at h
    rw [isBlank, hs, List.all_cons, not_space_of_isAlnum h.1.1, Bool.false_and]

/-- A row whose owner and key are not blank is a valid entry. -/
theorem rowEntry_valid {row : Row} (howner : isBlank row.userId = false) (hkey : isBlank row.idempotencyKey = false) :
    (rowEntry row).validate = .ok () := by
  have hchecked := row.checked
  simp only [Columns.constraints, List.forall_mem_cons, List.not_mem_nil, false_implies, implies_true, and_true,
    decide_eq_true_eq] at hchecked
  obtain ⟨hbudget, hcount, -, -, -, -, hmax, hrevision, -, -, -, htask⟩ := hchecked
  refine raiseIf_bind_ok.2 ⟨?_, raiseIf_bind_ok.2 ⟨?_, raiseIf_bind_ok.2 ⟨?_, raiseIf_bind_ok.2 ⟨?_, ?_⟩⟩⟩⟩
  · simp [rowEntry, howner, hkey, not_blank_of_isTaskId htask]
  · cases hs : row.status <;> simp [rowEntry, hs, RowStatus.text]
  · simp only [rowEntry]
    omega
  · simp only [rowEntry]
    omega
  · refine bind_ok.2 ⟨(), by simp [aware, rowEntry, utc, DateTime.utcoffset, raiseIf], bind_ok.2 ⟨(), by
      simp [aware, rowEntry, utc, DateTime.utcoffset, raiseIf], ?_⟩⟩
    cases hlease : row.leaseExpiresAt with
    | none => simp [checkLease, rowEntry, hlease]
    | some t =>
      have hrunning : row.status = .running := row.running_of_leased fun hnone => by
        rw [row.pair.1 hnone] at hlease
        nomatch hlease
      simp [checkLease, rowEntry, hlease, hrunning, RowStatus.text, aware, utc, DateTime.utcoffset, raiseIf, bind, Except.bind]

theorem valid_ownerRows (hs : Sound db) (howner : isBlank uid = false) (hkeys : ∀ row ∈ ownerRows uid db, isBlank row.idempotencyKey = false) :
    Valid uid ((ownerRows uid db).map rowEntry) := by
  have hmem : ∀ row ∈ ownerRows uid db, row ∈ db.tasks ∧ row.userId = uid := fun row hrow => by
    simpa [ownerRows] using hrow
  have hnodup : (ownerRows uid db).Nodup := List.Nodup.filter _ (List.Nodup.of_map _ db.keyed)
  refine ⟨?_, ?_, ?_⟩
  · intro e he
    obtain ⟨row, hrow, rfl⟩ := List.mem_map.1 he
    exact ⟨rowEntry_valid ((hmem row hrow).2 ▸ howner) (hkeys row hrow), (hmem row hrow).2⟩
  · rw [List.map_map]
    refine List.Nodup.map_on (fun a ha b hb hab => ?_) hnodup
    exact Db.eq_of_key (hmem a ha).1 (hmem b hb).1 (Prod.ext ((hmem a ha).2.trans (hmem b hb).2.symm) hab)
  · rw [List.map_map]
    refine List.Nodup.map_on (fun a ha b hb hab => ?_) hnodup
    exact hs.keys a (hmem a ha).1 b (hmem b hb).1 ((hmem a ha).2.trans (hmem b hb).2.symm) hab

theorem steady_rows (rows : List Row) : Steady (times (utc now) (rows.map rowEntry)) := by
  have hall : ∀ t ∈ times (utc now) (rows.map rowEntry), ∃ w, t = utc w := by
    intro t ht
    rcases List.mem_cons.1 ht with rfl | ht
    · exact ⟨now, rfl⟩
    · obtain ⟨e, he, ht⟩ := List.mem_flatMap.1 ht
      obtain ⟨row, -, rfl⟩ := List.mem_map.1 he
      simp only [rowEntry, List.mem_cons, Option.mem_toList, Option.map_eq_some_iff] at ht
      rcases ht with rfl | rfl | ⟨w, -, rfl⟩
      · exact ⟨_, rfl⟩
      · exact ⟨_, rfl⟩
      · exact ⟨w, rfl⟩
  refine ⟨fun a ha b hb _ => ?_, fun a ha => ?_⟩
  · obtain ⟨w, rfl⟩ := hall a ha
    obtain ⟨w', rfl⟩ := hall b hb
    rfl
  · obtain ⟨w, rfl⟩ := hall a ha
    rfl

/-- The eligible entries in their order are the queue. -/
theorem eligible_rows (hcreated : ∀ row ∈ ownerRows uid db, row.createdAt ≤ now) :
    ((((ownerRows uid db).map rowEntry).insertionSort byInstant).filter (eligible (utc now))).map QueueEntry.taskId =
      (queue uid now db).map fun row => row.taskId := by
  have hmap := List.map_insertionSort (r := fun a b => claimOrder a b = true) byInstant rowEntry (ownerRows uid db)
    fun a _ b _ => claimOrder_iff
  have hsort : (queue uid now db) = ((ownerRows uid db).insertionSort fun a b => claimOrder a b = true).filter (dueAt now) :=
    Sorted.sort_filter _ fun a ha b hb hab hba => eq_of_claimOrder ha hb hab hba
  rw [← hmap, hsort, List.filter_map, List.map_map]
  have hfilter : ((ownerRows uid db).insertionSort fun a b => claimOrder a b = true).filter (eligible (utc now) ∘ rowEntry) =
      ((ownerRows uid db).insertionSort fun a b => claimOrder a b = true).filter (dueAt now) := by
    refine List.filter_congr fun row hrow => ?_
    rw [List.mem_insertionSort] at hrow
    have hmade := hcreated row hrow
    have hstatus : (row.status.text = "queued") ↔ row.status = .queued := by cases row.status <;> decide
    rw [Bool.eq_iff_iff]
    simp only [Function.comp_apply, eligible, rowEntry, dueAt, utc, DateTime.instant, DateTime.utcoffset, Option.bind_some,
      Option.getD_some, Int.sub_zero, Bool.and_eq_true, decide_eq_true_iff, hstatus, hmade, and_true]
    exact and_congr_right fun _ => decide_eq_true_iff
  rw [hfilter]
  rfl

end Entries

/-- The tasks the plan of an owner's rows proposes are the tasks successive claims at that time take, in the same order. -/
theorem plan_predicts_claims {db : Db} {uid : String} {now capacity : ℤ} {entries : List QueueEntry} (hs : Sound db)
    (howner : isBlank uid = false) (hentries : ((ownerRows uid db).map rowEntry).Perm entries)
    (hkeys : ∀ row ∈ ownerRows uid db, isBlank row.idempotencyKey = false) (hcreated : ∀ row ∈ ownerRows uid db, row.createdAt ≤ now)
    (hroom : ∀ row ∈ ownerRows uid db, Room row) (hcapacity : 1 ≤ capacity) :
    ∃ plan, planQueue entries uid (utc now) capacity = .ok plan ∧ ∀ claims : List Claim, (∀ c ∈ claims, c.By uid now) →
      claims.length ≤ freeSlots capacity entries → claimAll claims db = .ok ((proposals plan).take claims.length) := by
  have hvalid := (valid_ownerRows hs howner hkeys).perm hentries
  have hids := (valid_ownerRows hs howner hkeys).ids
  have hsteady : Steady (times (utc now) entries) := by
    have hrows : Steady (times (utc now) ((ownerRows uid db).map rowEntry)) := steady_rows _
    exact hrows.perm hentries
  have hnow : aware (utc now) = .ok () := rfl
  have hplan := planQueue_ok hvalid hnow howner hcapacity
  rw [sort_inOrder hsteady, ← sort_perm hentries hids] at hplan
  refine ⟨_, hplan, fun claims hclaims hlength => ?_⟩
  have hproposals : proposals (decisions uid (utc now) (freeSlots capacity entries)
      (((ownerRows uid db).map rowEntry).insertionSort byInstant)) =
        ((queue uid now db).map fun row => row.taskId).take (freeSlots capacity entries) := by
    rw [proposals_decisions, List.map_take, ← eligible_rows hcreated]
    have hfilter : (((ownerRows uid db).map rowEntry).insertionSort byInstant).filter (proposable (utc now)) =
        (((ownerRows uid db).map rowEntry).insertionSort byInstant).filter (eligible (utc now)) := by
      refine List.filter_congr fun e he => ?_
      rw [List.mem_insertionSort] at he
      have hmem := hentries.mem_iff.1 he
      exact proposable_eq hsteady hmem (hvalid.entries e hmem).1
    rw [hfilter]
  rw [claimAll_ok hs hclaims fun row hrow => hroom row (mem_queue.1 hrow).1, hproposals, List.take_take, List.map_take,
    Nat.min_eq_left hlength]

/-! ## Two owners' queues -/

/-- The fingerprint of a definition. -/
def sampleFingerprint : String := "sha256-v1:" ++ String.ofList (List.replicate 64 '0')

/-- The creation of a task at a time, under a key. -/
def creation (taskId key : String) (time : ℤ) : Tx where
  caller := ⟨some "owner", true⟩
  clock := ⟨time, time, time, time⟩
  call := .createCheckpoint (some taskId) (some key) (some (.obj [("task_id", .str taskId), ("schema_version", .str "agent-task-v1")]))
    (some (.obj [("status", .str "pending"), ("task_id", .str taskId), ("schema_version", .str "agent-task-state-v1"),
      ("spec_fingerprint", .str sampleFingerprint)])) (some sampleFingerprint)

/-- A claim of the owner. -/
def sampleClaim : Claim := ⟨⟨some "owner", true⟩, ⟨9, 9, 9, 9⟩, "worker", 60⟩

theorem sampleClaim_by : sampleClaim.By "owner" 9 := ⟨by decide, rfl, by decide, by decide⟩

/-- Two tasks that were created at one time. -/
def sampleDb : Db := (history [creation "b" "key-b" 5, creation "a" "key-a" 5]).db

theorem plan_predicts_claims_two : ∃ plan, planQueue ((ownerRows "owner" sampleDb).map rowEntry) "owner" (utc 9) 2 = .ok plan ∧
    ∀ claims : List Claim, (∀ c ∈ claims, c.By "owner" 9) → claims.length ≤ freeSlots 2 ((ownerRows "owner" sampleDb).map rowEntry) →
      claimAll claims sampleDb = .ok ((proposals plan).take claims.length) :=
  plan_predicts_claims (history_sound _) (by decide) (.refl _) (by decide +kernel) (by decide +kernel)
    (fun row hrow => by
      have hall : ∀ row ∈ ownerRows "owner" sampleDb,
          row.revision + 1 < 2 ^ 63 ∧ row.attemptCount + 1 < 2 ^ 31 ∧ row.leaseGeneration + 1 < 2 ^ 63 := by decide +kernel
      exact ⟨(hall row hrow).1, (hall row hrow).2.1, (hall row hrow).2.2⟩) (by decide)

/-- A task under a blank key: the database claims it, the planner makes no plan of a queue that has it. -/
theorem blank_key_claimed :
    Sound (history [creation "a" " " 5]).db ∧
      (planQueue ((ownerRows "owner" (history [creation "a" " " 5]).db).map rowEntry) "owner" (utc 9) 1).toOption = none ∧
      (claimAll [sampleClaim] (history [creation "a" " " 5]).db).toOption = some ["a"] :=
  ⟨history_sound _, by decide +kernel, by decide +kernel⟩

end Keirin.QueuePlanner

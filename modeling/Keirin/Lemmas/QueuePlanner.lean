import Keirin.QueuePlanner
import Keirin.Lib.Sorted

/-!
# What a plan proposes

Going through the entries in their order, the planner proposes the eligible ones until the free slots are taken. Where the zones
of all times have one offset each, the times are compared by their instants, and the order of the entries is that of their
instants and tasks, whatever the order they came in.
-/

namespace Keirin.QueuePlanner

/-! ## Times of steady zones -/

/-- Every zone has one offset, in either fold. -/
structure Steady (times : List DateTime) : Prop where
  offset : ∀ a ∈ times, ∀ b ∈ times, DateTime.sameZone a b = true → a.utcoffset = b.utcoffset
  single : ∀ a ∈ times, a.repeated = false

section Steady

variable {times : List DateTime} {a b : DateTime}

theorem Steady.lt_iff (h : Steady times) (ha : a ∈ times) (hb : b ∈ times) : DateTime.lt a b = true ↔ a.instant < b.instant := by
  unfold DateTime.lt
  split_ifs with hz
  · have := h.offset a ha b hb hz
    simp [DateTime.instant, this]
  · simp

theorem Steady.le_iff (h : Steady times) (ha : a ∈ times) (hb : b ∈ times) : DateTime.le a b = true ↔ a.instant ≤ b.instant := by
  unfold DateTime.le
  split_ifs with hz
  · have := h.offset a ha b hb hz
    simp [DateTime.instant, this]
  · simp

theorem Steady.eq_iff (h : Steady times) (ha : a ∈ times) (hb : b ∈ times) : DateTime.eq a b = true ↔ a.instant = b.instant := by
  unfold DateTime.eq
  split_ifs with hz
  · have := h.offset a ha b hb hz
    simp [DateTime.instant, this]
  · simp [h.single a ha, h.single b hb]

end Steady

/-! ## The order -/

/-- The order of creation, and of the tasks where two were created at once. -/
def byInstant (a b : QueueEntry) : Prop :=
  a.createdAt.instant < b.createdAt.instant ∨ (a.createdAt.instant = b.createdAt.instant ∧ a.taskId ≤ b.taskId)

instance : DecidableRel byInstant := fun a b =>
  inferInstanceAs (Decidable (a.createdAt.instant < b.createdAt.instant ∨ (a.createdAt.instant = b.createdAt.instant ∧ a.taskId ≤ b.taskId)))

instance : Std.Total byInstant where
  total a b := by
    unfold byInstant
    rcases lt_trichotomy a.createdAt.instant b.createdAt.instant with h | h | h
    · exact .inl (.inl h)
    · rcases le_total a.taskId b.taskId with ht | ht
      · exact .inl (.inr ⟨h, ht⟩)
      · exact .inr (.inr ⟨h.symm, ht⟩)
    · exact .inr (.inl h)

instance : IsTrans QueueEntry byInstant where
  trans a b c hab hbc := by
    unfold byInstant at *
    rcases hab with hab | ⟨hab, ht⟩ <;> rcases hbc with hbc | ⟨hbc, ht'⟩
    · exact .inl (hab.trans hbc)
    · exact .inl (hab.trans_eq hbc)
    · exact .inl (hab.trans_lt hbc)
    · exact .inr ⟨hab.trans hbc, ht.trans ht'⟩

theorem taskId_of_byInstant {a b : QueueEntry} (hab : byInstant a b) (hba : byInstant b a) : a.taskId = b.taskId := by
  unfold byInstant at *
  rcases hab with hab | ⟨hab, ht⟩ <;> rcases hba with hba | ⟨hba, ht'⟩
  · exact absurd (hab.trans hba) (lt_irrefl _)
  · exact absurd hab (hba ▸ lt_irrefl _)
  · exact absurd hba (hab ▸ lt_irrefl _)
  · exact le_antisymm ht ht'

/-- Sorted by an order that tells the tasks apart, the entries stand in one order only. -/
theorem sort_perm {rows rows' : List QueueEntry} (h : rows.Perm rows') (hids : (rows.map QueueEntry.taskId).Nodup) :
    rows.insertionSort byInstant = rows'.insertionSort byInstant := by
  have hinj := List.inj_on_of_nodup_map hids
  exact Sorted.sort_perm h fun a ha b hb hab hba => hinj ha hb (taskId_of_byInstant hab hba)

/-! ## The decisions -/

section Decisions

variable {ownerId : String} {now : DateTime}

/-- An entry that is proposed where a slot is free. -/
def proposable (now : DateTime) (row : QueueEntry) : Bool := (judge now 1 row).1 = .proposeClaim

theorem judge_of_proposable {row : QueueEntry} (h : proposable now row = true) (slots : ℕ) :
    (judge now (slots + 1) row).1 = .proposeClaim ∧ (judge now 0 row).1 = .wait := by
  unfold proposable at h
  unfold judge at *
  split_ifs at h ⊢ <;> simp_all

theorem judge_of_not_proposable {row : QueueEntry} (h : proposable now row = false) (slots : ℕ) :
    (judge now slots row).1 ≠ .proposeClaim := by
  unfold proposable at h
  unfold judge at *
  split_ifs at h ⊢ <;> simp_all

/-- Each entry gets one decision, in the order of the entries. -/
theorem decisions_map (slots : ℕ) (rows : List QueueEntry) :
    (decisions ownerId now slots rows).map (fun d => (d.ownerId, d.taskId, d.expectedRevision)) =
      rows.map fun row => (ownerId, row.taskId, row.revision) := by
  induction rows generalizing slots with
  | nil => rfl
  | cons row rows ih => rw [decisions, List.map_cons, List.map_cons, ih]

/-- The proposals are the first entries that can be proposed, as many as there are slots. -/
theorem proposals_decisions (slots : ℕ) (rows : List QueueEntry) :
    proposals (decisions ownerId now slots rows) = ((rows.filter (proposable now)).take slots).map QueueEntry.taskId := by
  induction rows generalizing slots with
  | nil => simp [decisions, proposals]
  | cons row rows ih =>
    rw [decisions]
    by_cases hp : proposable now row = true
    · rw [List.filter_cons_of_pos hp]
      cases slots with
      | zero =>
        have hwait := (judge_of_proposable hp 0).2
        have hrest := ih 0
        rw [List.take_zero, List.map_nil] at hrest ⊢
        simpa [proposals, hwait] using hrest
      | succ slots =>
        have hpropose := (judge_of_proposable hp slots).1
        have hrest := ih slots
        rw [List.take_succ_cons, List.map_cons, ← hrest]
        simp [proposals, hpropose]
    · have hne := judge_of_not_proposable (Bool.not_eq_true _ ▸ hp) slots
      rw [List.filter_cons_of_neg hp, ← ih slots]
      simp [proposals, hne]

/-- The decision for an entry is the judgement of it, with some number of free slots. -/
theorem exists_judge {slots : ℕ} {rows : List QueueEntry} {d : QueueDecision} (h : d ∈ decisions ownerId now slots rows) :
    ∃ row ∈ rows, ∃ free, d = ⟨ownerId, row.taskId, row.revision, (judge now free row).1, (judge now free row).2⟩ := by
  induction rows generalizing slots with
  | nil => nomatch h
  | cons row rows ih =>
    rw [decisions] at h
    rcases List.mem_cons.1 h with rfl | h
    · exact ⟨row, List.mem_cons_self, slots, rfl⟩
    · obtain ⟨row', hrow', hfree⟩ := ih h
      exact ⟨row', List.mem_cons_of_mem _ hrow', hfree⟩

theorem judge_of_lost {row : QueueEntry} (hrun : row.status = "running") (hlost : leaseLost now row = true) (slots : ℕ) :
    judge now slots row = (.reconcile, "running_outcome_unknown") := by
  simp [judge, hrun, hlost]

end Decisions

/-! ## The checks -/

theorem checkEntries_ok {ownerId : String} {ids keys : List String} {rows : List QueueEntry}
    (hrows : ∀ row ∈ rows, row.validate = .ok () ∧ row.ownerId = ownerId) (hids : (rows.map QueueEntry.taskId).Nodup)
    (hkeys : (rows.map QueueEntry.idempotencyKey).Nodup) (hnewIds : ∀ row ∈ rows, row.taskId ∉ ids)
    (hnewKeys : ∀ row ∈ rows, row.idempotencyKey ∉ keys) : checkEntries ownerId ids keys rows = .ok () := by
  induction rows generalizing ids keys with
  | nil => rfl
  | cons row rows ih =>
    rw [List.forall_mem_cons] at hrows hnewIds hnewKeys
    rw [List.map_cons, List.nodup_cons] at hids hkeys
    refine bind_ok.2 ⟨(), hrows.1.1, raiseIf_bind_ok.2 ⟨by simp [hrows.1.2], raiseIf_bind_ok.2 ⟨?_, ?_⟩⟩⟩
    · simp [hnewIds.1, hnewKeys.1]
    · refine ih hrows.2 hids.2 hkeys.2 (fun r hr => ?_) fun r hr => ?_
      · rw [List.mem_cons, not_or]
        exact ⟨fun he => hids.1 (he ▸ List.mem_map_of_mem hr), hnewIds.2 r hr⟩
      · rw [List.mem_cons, not_or]
        exact ⟨fun he => hkeys.1 (he ▸ List.mem_map_of_mem hr), hnewKeys.2 r hr⟩

/-- The times a plan reads. -/
def times (now : DateTime) (rows : List QueueEntry) : List DateTime :=
  now :: rows.flatMap fun row => row.createdAt :: row.notBefore :: row.leaseExpiresAt.toList

/-- The times of entries are the same in whatever order they come. -/
theorem Steady.perm {now : DateTime} {rows rows' : List QueueEntry} (h : Steady (times now rows)) (hp : rows.Perm rows') :
    Steady (times now rows') := by
  have hmem : ∀ t, t ∈ times now rows' → t ∈ times now rows := by
    intro t ht
    rcases List.mem_cons.1 ht with rfl | ht
    · exact List.mem_cons_self
    · obtain ⟨row, hrow, ht⟩ := List.mem_flatMap.1 ht
      exact List.mem_cons_of_mem _ (List.mem_flatMap.2 ⟨row, hp.mem_iff.2 hrow, ht⟩)
  exact ⟨fun a ha b hb => h.offset a (hmem a ha) b (hmem b hb), fun a ha => h.single a (hmem a ha)⟩

/-- Entries of one owner that are valid and have each their own task and key. -/
structure Valid (ownerId : String) (rows : List QueueEntry) : Prop where
  entries : ∀ row ∈ rows, row.validate = .ok () ∧ row.ownerId = ownerId
  ids : (rows.map QueueEntry.taskId).Nodup
  keys : (rows.map QueueEntry.idempotencyKey).Nodup

theorem Valid.perm {ownerId : String} {rows rows' : List QueueEntry} (h : Valid ownerId rows) (hp : rows.Perm rows') :
    Valid ownerId rows' where
  entries row hrow := h.entries row (hp.mem_iff.2 hrow)
  ids := (hp.map _).nodup_iff.1 h.ids
  keys := (hp.map _).nodup_iff.1 h.keys

/-- The plan of valid entries is made. -/
theorem planQueue_ok {ownerId : String} {rows : List QueueEntry} {now : DateTime} {capacity : ℤ} (h : Valid ownerId rows)
    (hnow : aware now = .ok ()) (howner : isBlank ownerId = false) (hcapacity : 1 ≤ capacity) :
    planQueue rows ownerId now capacity = .ok (decisions ownerId now (freeSlots capacity rows) (rows.insertionSort inOrder)) := by
  refine bind_ok.2 ⟨(), hnow, raiseIf_bind_ok.2 ⟨by simp [howner], raiseIf_bind_ok.2 ⟨by omega, bind_ok.2 ⟨(), ?_, rfl⟩⟩⟩⟩
  exact checkEntries_ok h.entries h.ids h.keys (by simp) (by simp)

section Order

variable {now : DateTime} {rows : List QueueEntry}

theorem createdAt_mem {row : QueueEntry} (h : row ∈ rows) : row.createdAt ∈ times now rows :=
  List.mem_cons_of_mem _ (List.mem_flatMap.2 ⟨row, h, List.mem_cons_self⟩)

theorem notBefore_mem {row : QueueEntry} (h : row ∈ rows) : row.notBefore ∈ times now rows :=
  List.mem_cons_of_mem _ (List.mem_flatMap.2 ⟨row, h, List.mem_cons_of_mem _ List.mem_cons_self⟩)

theorem leaseExpiresAt_mem {row : QueueEntry} (h : row ∈ rows) {t : DateTime} (ht : row.leaseExpiresAt = some t) : t ∈ times now rows :=
  List.mem_cons_of_mem _ (List.mem_flatMap.2 ⟨row, h, by simp [ht]⟩)

theorem inOrder_iff (h : Steady (times now rows)) {a b : QueueEntry} (ha : a ∈ rows) (hb : b ∈ rows) :
    inOrder a b ↔ byInstant a b := by
  have heq := h.eq_iff (createdAt_mem hb) (createdAt_mem ha)
  have hlt := h.lt_iff (createdAt_mem hb) (createdAt_mem ha)
  unfold inOrder earlier byInstant
  by_cases he : b.createdAt.instant = a.createdAt.instant
  · rw [if_pos (heq.2 he), decide_eq_false_iff_not, not_lt]
    simp [he]
  · rw [if_neg (fun hc => he (heq.1 hc)), ← Bool.not_eq_true, hlt, not_lt]
    constructor
    · intro hle
      exact .inl (lt_of_le_of_ne hle (Ne.symm he))
    · rintro (hl | ⟨hl, -⟩)
      · exact hl.le
      · exact hl.le

/-- The entries are gone through by their instants and tasks. -/
theorem sort_inOrder (h : Steady (times now rows)) : rows.insertionSort inOrder = rows.insertionSort byInstant := by
  have hmap := List.map_insertionSort (r := inOrder) byInstant id rows fun a ha b hb => inOrder_iff h ha hb
  simpa using hmap

/-- An entry is eligible: it is queued and due, and attempts are left. -/
def eligible (now : DateTime) (row : QueueEntry) : Bool :=
  row.status = "queued" && row.createdAt.instant ≤ now.instant && row.notBefore.instant ≤ now.instant && row.attempts < row.maxAttempts

/-- The entries that can be proposed are the eligible ones. -/
theorem proposable_eq (h : Steady (times now rows)) {row : QueueEntry} (hrow : row ∈ rows) (hvalid : row.validate = .ok ()) :
    proposable now row = eligible now row := by
  have hstatus : row.status ∈ ["queued", "running", "blocked", "completed", "failed"] := by
    have hchecks := (raiseIf_bind_ok.1 (raiseIf_bind_ok.1 hvalid).2).1
    exact not_not.1 hchecks
  have hcreated := h.lt_iff List.mem_cons_self (createdAt_mem hrow)
  have hdue := h.lt_iff List.mem_cons_self (notBefore_mem hrow)
  rw [Bool.eq_iff_iff]
  simp only [proposable, eligible, decide_eq_true_eq, Bool.and_eq_true, judge, hcreated, hdue]
  simp only [List.mem_cons, List.not_mem_nil, or_false] at hstatus
  rcases hstatus with hs | hs | hs | hs | hs
  · simp only [hs, String.reduceEq, or_self, if_false, true_and, one_ne_zero]
    split_ifs with h1 h2
    · simp only [reduceCtorEq, false_iff]
      omega
    · simp only [reduceCtorEq, false_iff]
      omega
    · simp only [true_iff]
      omega
  all_goals simp [hs]
  split_ifs <;> simp

end Order

end Keirin.QueuePlanner

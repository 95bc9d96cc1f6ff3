import Keirin.Lemmas.QueuePlanner

/-!
# The law of the plan

The plan of a queue decides every entry once, never proposes more than the capacity leaves room for, and proposes the eligible
entries in the order of their creation. Two entries of one instant whose times are in an interval the clocks went through twice
are not equal to one another, so their tasks do not order them; the law needs zones with one offset each.
-/

namespace Keirin.QueuePlanner

/-- What is asked of a plan of entries. -/
structure Lawful (ownerId : String) (rows : List QueueEntry) (now : DateTime) (capacity : ℤ) (plan : List QueueDecision) : Prop where
  once : (plan.map fun d => (d.ownerId, d.taskId, d.expectedRevision)).Perm (rows.map fun row => (ownerId, row.taskId, row.revision))
  bounded : ((running rows + (proposals plan).length : ℕ) : ℤ) ≤ max capacity (running rows)
  fifo : proposals plan =
    (((rows.insertionSort byInstant).filter (eligible now)).take (freeSlots capacity rows)).map QueueEntry.taskId
  lost : ∀ row ∈ rows, row.status = "running" → (∀ t, row.leaseExpiresAt = some t → t.instant ≤ now.instant) →
    ∀ d ∈ plan, d.taskId = row.taskId → d.disposition = .reconcile

section Law

variable {ownerId : String} {rows : List QueueEntry} {now : DateTime} {capacity : ℤ}

theorem once_sorted : ((decisions ownerId now (freeSlots capacity rows) (rows.insertionSort byInstant)).map fun d =>
    (d.ownerId, d.taskId, d.expectedRevision)).Perm (rows.map fun row => (ownerId, row.taskId, row.revision)) := by
  rw [decisions_map]
  exact (List.perm_insertionSort _ _).map _

theorem bounded_sorted : ((running rows + (proposals (decisions ownerId now (freeSlots capacity rows)
    (rows.insertionSort byInstant))).length : ℕ) : ℤ) ≤ max capacity (running rows) := by
  rw [proposals_decisions, List.length_map, List.length_take]
  have hmin := Nat.min_le_left (freeSlots capacity rows) ((rows.insertionSort byInstant).filter (proposable now)).length
  unfold freeSlots at *
  omega

theorem fifo_sorted (hvalid : Valid ownerId rows) (hsteady : Steady (times now rows)) :
    proposals (decisions ownerId now (freeSlots capacity rows) (rows.insertionSort byInstant)) =
      (((rows.insertionSort byInstant).filter (eligible now)).take (freeSlots capacity rows)).map QueueEntry.taskId := by
  have hfilter : (rows.insertionSort byInstant).filter (proposable now) = (rows.insertionSort byInstant).filter (eligible now) := by
    refine List.filter_congr fun row hrow => ?_
    rw [List.mem_insertionSort] at hrow
    exact proposable_eq hsteady hrow (hvalid.entries row hrow).1
  rw [proposals_decisions, hfilter]

theorem lost_sorted (hvalid : Valid ownerId rows) (hsteady : Steady (times now rows)) {row : QueueEntry} (hrow : row ∈ rows)
    (hrun : row.status = "running") (hlost : ∀ t, row.leaseExpiresAt = some t → t.instant ≤ now.instant) {d : QueueDecision}
    (hd : d ∈ decisions ownerId now (freeSlots capacity rows) (rows.insertionSort byInstant)) (htask : d.taskId = row.taskId) :
    d.disposition = .reconcile := by
  obtain ⟨row', hrow', free, rfl⟩ := exists_judge hd
  rw [List.mem_insertionSort] at hrow'
  obtain rfl : row' = row := List.inj_on_of_nodup_map hvalid.ids hrow' hrow htask
  have hgone : leaseLost now row' = true := by
    refine (Option.all_eq_true _ _).2 fun t ht => ?_
    exact (hsteady.le_iff (leaseExpiresAt_mem hrow ht) List.mem_cons_self).2 (hlost t ht)
  rw [judge_of_lost hrun hgone]

end Law

/-- A queued entry that is due since it was created. -/
def queuedEntry (taskId : String) (created : DateTime) : QueueEntry :=
  { ownerId := "owner", taskId := taskId, idempotencyKey := taskId, revision := 0, status := "queued", createdAt := created,
    notBefore := created }

/-- Half past one at night, in the second of the two hours that are shown alike, five hours behind UTC. -/
def secondPass : DateTime := ⟨5400000000, some ⟨1, some (-18000000000), true⟩⟩

end Keirin.QueuePlanner

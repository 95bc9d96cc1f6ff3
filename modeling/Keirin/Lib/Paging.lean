import Mathlib.Tactic
import Mathlib.Data.List.Sort

/-!
# Reading a growing table page by page

A page is the rows beyond a cursor with the least keys, at most `limit` of them. While the table only grows, the pages that are
read one after the other, each from the last key of the one before, hold every row that was there at the beginning.
-/

namespace Paging

variable {α : Type} (key : α → ℤ)

/-- The rows beyond the cursor, in the order of their keys, at most `limit`. -/
def page (rows : List α) (after : Option ℤ) (limit : ℕ) : List α :=
  ((rows.filter fun r => after.all (· < key r)).insertionSort fun a b => key a ≤ key b).take limit

variable {key} {rows : List α} {after : Option ℤ} {limit : ℕ}

theorem mem_of_page {r : α} (h : r ∈ page key rows after limit) : r ∈ rows ∧ ∀ c, after = some c → c < key r := by
  have hmem := (List.perm_insertionSort _ _).mem_iff.1 (List.mem_of_mem_take h)
  rw [List.mem_filter] at hmem
  refine ⟨hmem.1, fun c hc => ?_⟩
  have hafter := hmem.2
  rw [hc] at hafter
  simpa using hafter

/-- The keys of a page ascend. -/
theorem page_ascending (h : (rows.map key).Nodup) : (page key rows after limit).Pairwise fun a b => key a < key b := by
  have hsorted : ((rows.filter fun r => after.all (· < key r)).insertionSort fun a b => key a ≤ key b).Pairwise
      fun a b => key a ≤ key b := List.pairwise_insertionSort _ _
  have hne : ((rows.filter fun r => after.all (· < key r)).insertionSort fun a b => key a ≤ key b).Pairwise
      fun a b => key a ≠ key b := by
    have hnodup : (((rows.filter fun r => after.all (· < key r)).insertionSort fun a b => key a ≤ key b).map key).Nodup :=
      ((List.perm_insertionSort _ _).map key).nodup_iff.2 (h.sublist (List.filter_sublist.map key))
    exact List.pairwise_map.1 hnodup
  exact ((hsorted.and hne).imp fun h => lt_of_le_of_ne h.1 h.2).sublist (List.take_sublist _ _)

/-- A row beyond the cursor that the page leaves out has a key that is not below those of the page, and the page is full. -/
theorem left_out {r : α} (hr : r ∈ rows) (hafter : ∀ c, after = some c → c < key r) (hout : r ∉ page key rows after limit) :
    (page key rows after limit).length = limit ∧ ∀ x ∈ page key rows after limit, key x ≤ key r := by
  have hall : after.all (· < key r) = true := by
    cases after with
    | none => rfl
    | some c => simpa using hafter c rfl
  have hmem : r ∈ (rows.filter fun r => after.all (· < key r)).insertionSort fun a b => key a ≤ key b :=
    (List.perm_insertionSort _ _).mem_iff.2 (List.mem_filter.2 ⟨hr, hall⟩)
  have hsorted : ((rows.filter fun r => after.all (· < key r)).insertionSort fun a b => key a ≤ key b).Pairwise
      fun a b => key a ≤ key b := List.pairwise_insertionSort _ _
  unfold page at hout ⊢
  generalize (rows.filter fun r => after.all (· < key r)).insertionSort (fun a b => key a ≤ key b) = sorted at *
  have hdrop : r ∈ sorted.drop limit := by
    rw [← List.take_append_drop limit sorted, List.mem_append] at hmem
    exact hmem.resolve_left hout
  constructor
  · have hlt : limit < sorted.length := by
      by_contra hle
      rw [List.drop_eq_nil_of_le (not_lt.1 hle)] at hdrop
      nomatch hdrop
    rw [List.length_take, min_eq_left hlt.le]
  · intro x hx
    rw [← List.take_append_drop limit sorted, List.pairwise_append] at hsorted
    exact hsorted.2.2 x hx r hdrop

/-- A page that is not full holds every row beyond the cursor. -/
theorem mem_page_of_short {r : α} (hr : r ∈ rows) (hafter : ∀ c, after = some c → c < key r)
    (hshort : (page key rows after limit).length < limit) : r ∈ page key rows after limit := by
  by_contra hout
  exact absurd (left_out hr hafter hout).1 hshort.ne

/-- A page holds every row beyond the cursor whose key is not beyond one of its own. -/
theorem mem_page_of_le (h : (rows.map key).Nodup) {r x : α} (hr : r ∈ rows) (hafter : ∀ c, after = some c → c < key r)
    (hx : x ∈ page key rows after limit) (hle : key r ≤ key x) : r ∈ page key rows after limit := by
  by_contra hout
  have heq : key r = key x := le_antisymm hle ((left_out hr hafter hout).2 x hx)
  rw [List.inj_on_of_nodup_map h hr (mem_of_page hx).1 heq] at hout
  exact hout hx

/-- What was read so far of a table that grew from `start`: its keys ascend up to the cursor, and no row of the start is missing
below the cursor. -/
structure Read (key : α → ℤ) (start rows : List α) (after : Option ℤ) (read : List α) : Prop where
  ascending : read.Pairwise fun a b => key a < key b
  sound : ∀ r ∈ read, r ∈ rows
  below : ∀ r ∈ read, ∃ c, after = some c ∧ key r ≤ c
  complete : ∀ r ∈ start, (∀ c, after = some c → key r ≤ c) → after ≠ none → r ∈ read

theorem Read.start (start : List α) : Read key start start none [] :=
  ⟨List.Pairwise.nil, nofun, nofun, fun _ _ _ h => absurd rfl h⟩

variable {start : List α} {read : List α}

/-- What was read stays read while the table grows. -/
theorem Read.grow (h : Read key start rows after read) (added : List α) : Read key start (rows ++ added) after read :=
  ⟨h.ascending, fun r hr => List.mem_append_left _ (h.sound r hr), h.below, h.complete⟩

/-- Adding a page keeps the keys ascending and the rows those of the table. -/
theorem Read.page (h : Read key start rows after read) (hkeys : (rows.map key).Nodup) :
    (read ++ Paging.page key rows after limit).Pairwise (fun a b => key a < key b) ∧
      ∀ r ∈ read ++ Paging.page key rows after limit, r ∈ rows := by
  refine ⟨List.pairwise_append.2 ⟨h.ascending, page_ascending hkeys, ?_⟩, ?_⟩
  · intro a ha b hb
    obtain ⟨c, hc, hac⟩ := h.below a ha
    exact lt_of_le_of_lt hac ((mem_of_page hb).2 c hc)
  · intro r hr
    rcases List.mem_append.1 hr with hr | hr
    · exact h.sound r hr
    · exact (mem_of_page hr).1

/-- A row of the start is in what was read or beyond the cursor. -/
theorem Read.mem_or_beyond (h : Read key start rows after read) {r : α} (hr : r ∈ start) :
    r ∈ read ∨ ∀ c, after = some c → c < key r := by
  cases after with
  | none => exact .inr nofun
  | some c =>
    by_cases hle : key r ≤ c
    · exact .inl (h.complete r hr (fun c' hc => Option.some.inj hc ▸ hle) nofun)
    · refine .inr fun c' hc => ?_
      cases hc
      exact not_le.1 hle

/-- A page that is not full ends the reading: no row of the start is missing. -/
theorem Read.last (h : Read key start rows after read) (hstart : ∀ r ∈ start, r ∈ rows)
    (hshort : (Paging.page key rows after limit).length < limit) :
    ∀ r ∈ start, r ∈ read ++ Paging.page key rows after limit := by
  intro r hr
  rw [List.mem_append]
  rcases h.mem_or_beyond hr with hmem | hbeyond
  · exact .inl hmem
  · exact .inr (mem_page_of_short (hstart r hr) hbeyond hshort)

/-- After a page with a last row the reading goes on from its key. -/
theorem Read.next (h : Read key start rows after read) (hkeys : (rows.map key).Nodup) (hstart : ∀ r ∈ start, r ∈ rows) {x : α}
    (hx : (Paging.page key rows after limit).getLast? = some x) :
    Read key start rows (some (key x)) (read ++ Paging.page key rows after limit) := by
  have hmem : x ∈ Paging.page key rows after limit := List.mem_of_getLast? hx
  have hlast : ∀ r ∈ Paging.page key rows after limit, key r ≤ key x := by
    intro r hr
    obtain ⟨front, hfront⟩ := List.getLast?_eq_some_iff.1 hx
    have hasc : (Paging.page key rows after limit).Pairwise fun a b => key a < key b := page_ascending hkeys
    rw [hfront] at hr hasc
    rcases List.mem_append.1 hr with hr | hr
    · exact ((List.pairwise_append.1 hasc).2.2 r hr x (List.mem_singleton_self x)).le
    · rw [List.mem_singleton] at hr
      exact hr ▸ le_refl _
  obtain ⟨hasc, hsound⟩ : ((read ++ Paging.page key rows after limit).Pairwise fun a b => key a < key b) ∧
      ∀ r ∈ read ++ Paging.page key rows after limit, r ∈ rows := h.page hkeys
  refine ⟨hasc, hsound, ?_, ?_⟩
  · intro r hr
    rcases List.mem_append.1 hr with hr | hr
    · obtain ⟨c, hc, hrc⟩ := h.below r hr
      exact ⟨key x, rfl, hrc.trans ((mem_of_page hmem).2 c hc).le⟩
    · exact ⟨key x, rfl, hlast r hr⟩
  · intro r hr hle _
    rw [List.mem_append]
    rcases h.mem_or_beyond hr with hread | hbeyond
    · exact .inl hread
    · exact .inr (mem_page_of_le hkeys (hstart r hr) hbeyond hmem (hle _ rfl))

/-- The rows that are still beyond the cursor. -/
def beyond (key : α → ℤ) (rows : List α) (after : Option ℤ) : ℕ := rows.countP fun r => after.all (· < key r)

/-- A page with a row leaves fewer rows beyond the cursor. -/
theorem beyond_lt {x : α} (hx : x ∈ page key rows after limit) : beyond key rows (some (key x)) < beyond key rows after := by
  obtain ⟨hrow, hafter⟩ := mem_of_page hx
  unfold beyond
  rw [List.countP_eq_length_filter, List.countP_eq_length_filter]
  have hsub : (rows.filter fun r => (some (key x)).all (· < key r)).Sublist (rows.filter fun r => after.all (· < key r)) := by
    refine List.monotone_filter_right rows fun r hr => ?_
    simp only [Option.all_some, decide_eq_true_eq] at hr
    cases after with
    | none => rfl
    | some c =>
      have := hafter c rfl
      simp only [Option.all_some, decide_eq_true_eq]
      omega
  refine lt_of_le_of_ne hsub.length_le fun heq => ?_
  have hmem : x ∈ rows.filter fun r => after.all (· < key r) := by
    refine List.mem_filter.2 ⟨hrow, ?_⟩
    cases after with
    | none => rfl
    | some c => simpa using hafter c rfl
  rw [← hsub.eq_of_length heq, List.mem_filter] at hmem
  simp at hmem

end Paging

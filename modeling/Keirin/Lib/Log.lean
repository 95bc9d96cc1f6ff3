import Mathlib.Tactic

/-!
# Logs

A log is the list of what happened, the oldest first. `Holds P log` says that everything in it was in order when it
happened: `P` holds of every entry and of the entries before it. A log is only added to, so a statement of this form is
proved entry by entry and then holds at every point of the log.
-/

namespace Log

variable {α : Type}

/-- Every entry satisfies `P`, given the entries before it. -/
def Holds (P : List α → α → Prop) (log : List α) : Prop := ∀ pre x post, log = pre ++ x :: post → P pre x

theorem holds_nil (P : List α → α → Prop) : Holds P [] := fun pre x post h => by simp at h

/-- A log holds with one more entry when it held and the entry is in order. -/
theorem Holds.append {P : List α → α → Prop} {log : List α} {x : α} (h : Holds P log) (hx : P log x) :
    Holds P (log ++ [x]) := by
  intro pre y post he
  rcases List.eq_nil_or_concat post with rfl | ⟨post', z, rfl⟩
  · obtain ⟨rfl, hxy⟩ := List.append_inj' he rfl
    cases hxy
    exact hx
  · rw [List.concat_eq_append, ← List.cons_append, ← List.append_assoc] at he
    exact h pre y post' (List.append_inj' he rfl).1

/-- A property of logs that the empty log has and every entry in order keeps holds of every log that holds. -/
theorem Holds.induct {P : List α → α → Prop} {Q : List α → Prop} (h0 : Q [])
    (hstep : ∀ log x, Holds P log → P log x → Q log → Q (log ++ [x])) {log : List α} (h : Holds P log) : Q log := by
  induction log using List.reverseRecOn with
  | nil => exact h0
  | append_singleton log x ih =>
    have hlog : Holds P log := fun pre y post he => h pre y (post ++ [x]) (by rw [he]; simp)
    exact hstep log x hlog (h log x [] rfl) (ih hlog)

/-- An initial part of a log that holds, holds. -/
theorem Holds.initial {P : List α → α → Prop} {a b : List α} (h : Holds P (a ++ b)) : Holds P a :=
  fun pre x post he => h pre x (post ++ b) (by rw [he]; simp)

/-- Since an entry of the kind `P` there was none of the kind `E`. -/
def Since (P E : α → Prop) (log : List α) : Prop := ∃ pre x post, log = pre ++ x :: post ∧ P x ∧ ∀ y ∈ post, ¬E y

/-- An entry of the kind `P` begins a period. -/
theorem Since.start {P E : α → Prop} (log : List α) {x : α} (h : P x) : Since P E (log ++ [x]) :=
  ⟨log, x, [], rfl, h, fun _ hy => nomatch hy⟩

/-- The period goes on with an entry that does not end it. -/
theorem Since.append {P E : α → Prop} {log : List α} {x : α} (h : Since P E log) (hx : ¬E x) : Since P E (log ++ [x]) := by
  obtain ⟨pre, y, post, rfl, hy, hpost⟩ := h
  refine ⟨pre, y, post ++ [x], by simp, hy, fun z hz => ?_⟩
  rcases List.mem_append.1 hz with hz | hz
  · exact hpost z hz
  · rw [List.mem_singleton.1 hz]
    exact hx

/-- Entries of a kind that stands once are one entry. -/
theorem eq_of_countP {p : α → Bool} {log : List α} (h : log.countP p ≤ 1) {x y : α} (hx : x ∈ log) (hy : y ∈ log) (hpx : p x = true)
    (hpy : p y = true) : x = y := by
  have hlength : (log.filter p).length ≤ 1 := by rwa [← List.countP_eq_length_filter]
  have hx := List.mem_filter.2 ⟨hx, hpx⟩
  have hy := List.mem_filter.2 ⟨hy, hpy⟩
  obtain ⟨z, hz⟩ := List.length_eq_one_iff.1 (le_antisymm hlength (List.length_pos_of_mem hx))
  rw [hz, List.mem_singleton] at hx hy
  exact hx.trans hy.symm

/-- A kind stands once where no entry of the kind stands before another. -/
theorem Holds.countP_le_one {p : α → Bool} {log : List α} (h : Holds (fun pre x => p x = true → ∀ y ∈ pre, p y = false) log) :
    log.countP p ≤ 1 := by
  refine h.induct (Q := fun log => log.countP p ≤ 1) (Nat.zero_le 1) fun log x _ hx ih => ?_
  rw [List.countP_append, List.countP_singleton]
  by_cases hp : p x = true
  · have hnone : log.countP p = 0 := List.countP_eq_zero.2 fun y hy => by simp [hx hp y hy]
    rw [hnone, if_pos hp]
  · rw [if_neg hp]
    exact ih

/-- An entry is determined by a value that no two entries share. -/
theorem eq_of_nodup_filterMap {β : Type} {f : α → Option β} {log : List α} (h : (log.filterMap f).Nodup) {x y : α} (hx : x ∈ log)
    (hy : y ∈ log) {b : β} (hfx : f x = some b) (hfy : f y = some b) : x = y := by
  have hlate : ∀ {pre mid post : List α} {x y : α}, ((pre ++ x :: (mid ++ y :: post)).filterMap f).Nodup → f x = some b →
      f y ≠ some b := by
    intro pre mid post x y hn hfx hfy
    rw [List.filterMap_append, List.filterMap_cons_some hfx, List.filterMap_append, List.filterMap_cons_some hfy] at hn
    have := (List.nodup_cons.1 (List.nodup_append.1 hn).2.1).1
    exact this (List.mem_append_right _ List.mem_cons_self)
  obtain ⟨pre, post, rfl⟩ := List.append_of_mem hx
  rcases List.mem_append.1 hy with hy | hy
  · obtain ⟨pre', mid, rfl⟩ := List.append_of_mem hy
    rw [List.append_assoc, List.cons_append] at h
    exact absurd hfx (hlate h hfy)
  rcases List.mem_cons.1 hy with rfl | hy
  · rfl
  · obtain ⟨mid, post', rfl⟩ := List.append_of_mem hy
    exact absurd hfy (hlate h hfx)

end Log

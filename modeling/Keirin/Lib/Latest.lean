import Keirin.Lib.Grouped
import Mathlib.Data.List.MinMax

/-!
# The latest item of each key

Items are taken one by one, and of each key the latest is kept: an item replaces the one kept before it only if its time is later.
What is kept of a key is the first of its latest items, whatever items of other keys stand between them.
-/

namespace Latest

variable {α β : Type} [LinearOrder β]

/-- Keep an item if its key has none yet, or an earlier one. -/
def keep (key : α → String) (time : α → β) (kept : Dict α) (x : α) : Dict α :=
  match Dict.get? (key x) kept with
  | none => Dict.set (key x) x kept
  | some y => if time y < time x then Dict.set (key x) x kept else kept

/-- The items kept by key. -/
def latest (key : α → String) (time : α → β) (xs : List α) : Dict α := xs.foldl (keep key time) []

variable {key : α → String} {time : α → β}

theorem nodup_keep {kept : Dict α} (h : (kept.map Prod.fst).Nodup) (x : α) : ((keep key time kept x).map Prod.fst).Nodup := by
  unfold keep
  split
  · exact Dict.nodup_set h
  · split_ifs
    · exact Dict.nodup_set h
    · exact h

theorem nodup_keys (xs : List α) : ((latest key time xs).map Prod.fst).Nodup := by
  induction xs using List.reverseRecOn with
  | nil => exact List.nodup_nil
  | append_singleton xs x ih =>
    unfold latest at ih ⊢
    rw [List.foldl_append]
    exact nodup_keep ih x

/-- An item touches what is kept of its own key only. -/
theorem get?_keep (k : String) (kept : Dict α) (x : α) : Dict.get? k (keep key time kept x) =
    if key x = k then some ((Dict.get? k kept).elim x fun y => if time y < time x then x else y) else Dict.get? k kept := by
  by_cases hk : key x = k
  · subst hk
    rw [if_pos rfl]
    unfold keep
    cases hget : Dict.get? (key x) kept with
    | none => simp
    | some y =>
      by_cases ht : time y < time x
      · simp [ht]
      · simp [ht, hget]
  · rw [if_neg hk]
    unfold keep
    split
    · exact Dict.get?_set_of_ne (Ne.symm hk) _ _
    · split_ifs
      · exact Dict.get?_set_of_ne (Ne.symm hk) _ _
      · rfl

/-- An item that is kept stays until one of its key comes. -/
theorem mem_keep {kept : Dict α} {x y : α} (h : y ∈ kept.map Prod.snd) :
    y ∈ (keep key time kept x).map Prod.snd ∨ Dict.get? (key x) kept = some y := by
  have hset : ∀ d : Dict α, y ∈ d.map Prod.snd → y ∈ (Dict.set (key x) x d).map Prod.snd ∨ Dict.get? (key x) d = some y := by
    intro d hd
    induction d with
    | nil => nomatch hd
    | cons e d ih =>
      obtain ⟨k, z⟩ := e
      by_cases hk : k = key x
      · rcases List.mem_cons.1 hd with rfl | hd
        · exact .inr (by simp [Dict.get?, hk])
        · exact .inl (by simp only [Dict.set, hk, if_true, List.map_cons]; exact List.mem_cons_of_mem _ hd)
      · simp only [Dict.set, Dict.get?, hk, if_false, List.map_cons]
        rcases List.mem_cons.1 hd with rfl | hd
        · exact .inl List.mem_cons_self
        · exact (ih hd).imp_left (List.mem_cons_of_mem _)
  unfold keep
  split
  · exact hset kept h
  · split_ifs
    · exact hset kept h
    · exact .inl h

/-- An item is kept, unless one of its key was. -/
theorem self_mem_keep {kept : Dict α} {x : α} (h : Dict.get? (key x) kept = none) : x ∈ (keep key time kept x).map Prod.snd := by
  unfold keep
  rw [h]
  exact List.mem_map_of_mem (f := Prod.snd) (Dict.mem_of_get? (Dict.get?_set_self (key x) x kept))

/-- What is kept was kept before, or it is the new item. -/
theorem mem_of_keep {kept : Dict α} {x y : α} (h : y ∈ (keep key time kept x).map Prod.snd) : y ∈ kept.map Prod.snd ∨ y = x := by
  obtain ⟨e, he, rfl⟩ := List.mem_map.1 h
  unfold keep at he
  split at he
  · exact (Dict.mem_set he).imp_left fun he => List.mem_map_of_mem he
  · split_ifs at he
    · exact (Dict.mem_set he).imp_left fun he => List.mem_map_of_mem he
    · exact .inl (List.mem_map_of_mem he)

/-- What is kept of a key is the first of its latest items. -/
theorem get?_latest (k : String) (xs : List α) :
    Dict.get? k (latest key time xs) = (xs.filter fun x => key x = k).argmax time := by
  induction xs using List.reverseRecOn with
  | nil => rfl
  | append_singleton xs x ih =>
    have hstep : latest key time (xs ++ [x]) = keep key time (latest key time xs) x := by simp [latest]
    rw [hstep, get?_keep, ih, List.filter_append]
    by_cases hk : key x = k
    · have hlast : ([x].filter fun y => key y = k) = [x] := List.filter_eq_self.2 (by simp [hk])
      rw [if_pos hk, hlast, List.argmax_concat]
      cases (xs.filter fun y => key y = k).argmax time with
      | none => rfl
      | some y => by_cases ht : time y < time x <;> simp [ht]
    · simp [hk]

theorem mem_keys {k : String} {xs : List α} : k ∈ (latest key time xs).map Prod.fst ↔ ∃ x ∈ xs, key x = k := by
  rw [← Dict.get?_isSome_iff, get?_latest, Option.isSome_iff_ne_none, Ne, List.argmax_eq_none, List.filter_eq_nil_iff]
  simp

/-- The keys of rearranged items. -/
theorem keys_perm {xs ys : List α} (h : xs.Perm ys) : ((latest key time xs).map Prod.fst).Perm ((latest key time ys).map Prod.fst) := by
  refine (List.perm_ext_iff_of_nodup (nodup_keys xs) (nodup_keys ys)).2 fun k => ?_
  rw [mem_keys, mem_keys]
  constructor
  · rintro ⟨x, hx, rfl⟩
    exact ⟨x, h.mem_iff.1 hx, rfl⟩
  · rintro ⟨x, hx, rfl⟩
    exact ⟨x, h.mem_iff.2 hx, rfl⟩

/-- Whether an item is one of the latest of its key. -/
def IsLatest (key : α → String) (time : α → β) (xs : List α) (x : α) : Prop := x ∈ xs ∧ ∀ y ∈ xs, key y = key x → time y ≤ time x

theorem isLatest_perm {xs ys : List α} (h : xs.Perm ys) {x : α} : IsLatest key time xs x ↔ IsLatest key time ys x := by
  unfold IsLatest
  rw [h.mem_iff]
  refine and_congr_right fun _ => ?_
  exact ⟨fun hx y hy => hx y (h.mem_iff.2 hy), fun hx y hy => hx y (h.mem_iff.1 hy)⟩

/-- An item that is kept is one of the latest of its key. -/
theorem isLatest_of_get? {k : String} {xs : List α} {x : α} (h : Dict.get? k (latest key time xs) = some x) :
    IsLatest key time xs x ∧ key x = k := by
  rw [get?_latest] at h
  have hmem := List.mem_filter.1 (List.argmax_mem h)
  have hkey : key x = k := of_decide_eq_true hmem.2
  refine ⟨⟨hmem.1, fun y hy hyk => ?_⟩, hkey⟩
  exact List.le_of_mem_argmax (List.mem_filter.2 ⟨hy, decide_eq_true (hyk.trans hkey)⟩) h

/-- An item kept stands under its key. -/
theorem get?_of_mem {xs : List α} {x : α} (h : x ∈ (latest key time xs).map Prod.snd) :
    Dict.get? (key x) (latest key time xs) = some x := by
  obtain ⟨⟨k, y⟩, he, rfl⟩ := List.mem_map.1 h
  have hget := Dict.get?_of_mem (nodup_keys xs) he
  exact (isLatest_of_get? hget).2 ▸ hget

/-- Every item kept has a key of its own. -/
theorem nodup_map_key (xs : List α) : (((latest key time xs).map Prod.snd).map key).Nodup := by
  have hkeys : ((latest key time xs).map Prod.snd).map key = (latest key time xs).map Prod.fst := by
    rw [List.map_map]
    exact List.map_congr_left fun e he => (isLatest_of_get? (Dict.get?_of_mem (nodup_keys xs) he)).2
  exact hkeys ▸ nodup_keys xs

/-- The times of the latest items of a key agree. -/
theorem time_eq {xs : List α} {x y : α} (hx : IsLatest key time xs x) (hy : IsLatest key time xs y) (h : key x = key y) :
    time x = time y := le_antisymm (hy.2 x hx.1 h) (hx.2 y hy.1 h.symm)

/-- One of the latest items of a key is kept if it comes first. -/
theorem get?_latest_cons {xs : List α} {x : α} (h : IsLatest key time (x :: xs) x) :
    Dict.get? (key x) (latest key time (x :: xs)) = some x := by
  have hfirst : ((x :: xs).filter fun y => key y = key x) = x :: xs.filter fun y => key y = key x :=
    List.filter_cons_of_pos (decide_eq_true rfl)
  rw [get?_latest, hfirst, List.argmax_cons]
  cases hmax : (xs.filter fun y => key y = key x).argmax time with
  | none => rfl
  | some y =>
    have hy := List.mem_filter.1 (List.argmax_mem hmax)
    have hle : time y ≤ time x := h.2 y (List.mem_cons_of_mem _ hy.1) (of_decide_eq_true hy.2)
    simp [not_lt.2 hle]

/-- Where the items of a key stand in one order, the same item is kept. -/
theorem get?_congr {k : String} {xs ys : List α} (h : (xs.filter fun x => key x = k) = ys.filter fun x => key x = k) :
    Dict.get? k (latest key time xs) = Dict.get? k (latest key time ys) := by
  rw [get?_latest, get?_latest, h]

/-- Among items of different keys one stands for its key alone. -/
theorem filter_key {k : String} {xs : List α} (h : (xs.map key).Nodup) {x : α} (hx : x ∈ xs) (hk : key x = k) :
    (xs.filter fun y => key y = k) = [x] := by
  induction xs with
  | nil => nomatch hx
  | cons y ys ih =>
    rw [List.map_cons, List.nodup_cons] at h
    rcases List.mem_cons.1 hx with rfl | hx
    · have hnone : (ys.filter fun y => key y = k) = [] :=
        List.filter_eq_nil_iff.2 fun y hy hyk => h.1 ((of_decide_eq_true hyk).trans hk.symm ▸ List.mem_map_of_mem hy)
      rw [List.filter_cons_of_pos (by simpa using hk), hnone]
    · have hne : key y ≠ k := fun hyk => h.1 (hyk.trans hk.symm ▸ List.mem_map_of_mem hx)
      rw [List.filter_cons_of_neg (by simpa using hne), ih h.2 hx]

end Latest

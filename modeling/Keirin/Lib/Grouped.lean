import Keirin.Lib.Dict

/-!
# Grouping and counting

Items are added one by one to the group of their key, and counts to the counter of a name. At a key the groups hold the items of
that key in their order, so a rearrangement of the items rearranges the groups and the items in them.
-/

namespace Dict

variable {α : Type}

theorem get?_isSome_iff {key : String} {d : Dict α} : (get? key d).isSome ↔ key ∈ d.map Prod.fst := by
  rw [← not_iff_not, Bool.not_eq_true, Option.isSome_eq_false_iff, Option.isNone_iff_eq_none, get?_eq_none_iff]

/-- The values of a dictionary whose keys stand once, looked up by key. -/
theorem values_eq {d : Dict α} (h : (d.map Prod.fst).Nodup) (default : α) :
    d.map Prod.snd = (d.map Prod.fst).map fun key => getD d key default := by
  rw [List.map_map]
  refine List.map_congr_left fun e he => ?_
  have hget : get? e.1 d = some e.2 := get?_of_mem h he
  simp [getD, hget]

/-- The values of some entries, looked up by their keys. -/
theorem filterMap_get? {d e : Dict α} (h : (d.map Prod.fst).Nodup) (he : ∀ f ∈ e, f ∈ d) :
    (e.map Prod.fst).filterMap (fun key => get? key d) = e.map Prod.snd := by
  induction e with
  | nil => rfl
  | cons f e ih =>
    have hget : get? f.1 d = some f.2 := get?_of_mem h (he f List.mem_cons_self)
    rw [List.map_cons, List.filterMap_cons, hget, List.map_cons, ih fun g hg => he g (List.mem_cons_of_mem _ hg)]

end Dict

namespace Grouped

variable {α : Type}

/-- Add an item to the group of a key. -/
def add (key : α → String) (groups : Dict (List α)) (x : α) : Dict (List α) :=
  Dict.set (key x) (Dict.getD groups (key x) [] ++ [x]) groups

/-- The items by key. -/
def group (key : α → String) (xs : List α) : Dict (List α) := xs.foldl (add key) []

variable {key : α → String}

theorem nodup_foldl_add {xs : List α} {groups : Dict (List α)} (h : (groups.map Prod.fst).Nodup) :
    ((xs.foldl (add key) groups).map Prod.fst).Nodup := by
  induction xs generalizing groups with
  | nil => exact h
  | cons x xs ih => exact ih (Dict.nodup_set h)

theorem getD_foldl_add (k : String) (xs : List α) (groups : Dict (List α)) :
    Dict.getD (xs.foldl (add key) groups) k [] = Dict.getD groups k [] ++ xs.filter fun x => key x = k := by
  induction xs generalizing groups with
  | nil => simp
  | cons x xs ih =>
    rw [List.foldl_cons, ih, add]
    by_cases hk : key x = k
    · subst hk
      simp
    · rw [Dict.getD_set_of_ne (Ne.symm hk)]
      simp [hk]

theorem mem_keys_foldl_add {k : String} {xs : List α} {groups : Dict (List α)} :
    k ∈ (xs.foldl (add key) groups).map Prod.fst ↔ k ∈ groups.map Prod.fst ∨ ∃ x ∈ xs, key x = k := by
  induction xs generalizing groups with
  | nil => simp
  | cons x xs ih =>
    rw [List.foldl_cons, ih, add, Dict.keys_set]
    have hset : k ∈ (if key x ∈ groups.map Prod.fst then groups.map Prod.fst else groups.map Prod.fst ++ [key x]) ↔
        k ∈ groups.map Prod.fst ∨ k = key x := by
      split_ifs with hmem
      · refine ⟨Or.inl, fun h => h.elim id fun h => h ▸ hmem⟩
      · rw [List.mem_append, List.mem_singleton]
    rw [hset, List.exists_mem_cons_iff, or_assoc, eq_comm (a := k)]

theorem nodup_keys (xs : List α) : ((group key xs).map Prod.fst).Nodup := nodup_foldl_add List.nodup_nil

/-- The group of a key holds the items of that key in their order. -/
theorem getD_group (k : String) (xs : List α) : Dict.getD (group key xs) k [] = xs.filter fun x => key x = k := by
  rw [group, getD_foldl_add]
  rfl

theorem mem_keys {k : String} {xs : List α} : k ∈ (group key xs).map Prod.fst ↔ ∃ x ∈ xs, key x = k := by
  rw [group, mem_keys_foldl_add]
  simp

/-- The groups are those of the keys. -/
theorem values_group (xs : List α) :
    (group key xs).map Prod.snd = ((group key xs).map Prod.fst).map fun k => xs.filter fun x => key x = k := by
  rw [Dict.values_eq (nodup_keys xs) []]
  exact List.map_congr_left fun k _ => getD_group k xs

/-- A group has an item. -/
theorem ne_nil_of_mem {xs g : List α} (h : g ∈ (group key xs).map Prod.snd) : g ≠ [] := by
  rw [values_group] at h
  obtain ⟨k, hk, rfl⟩ := List.mem_map.1 h
  obtain ⟨x, hx, rfl⟩ := mem_keys.1 hk
  exact List.ne_nil_of_mem (List.mem_filter.2 ⟨hx, decide_eq_true rfl⟩)

/-- The items of a group are items, all of one key. -/
theorem mem_of_mem_group {xs g : List α} (h : g ∈ (group key xs).map Prod.snd) : ∃ k, g = xs.filter fun x => key x = k := by
  rw [values_group] at h
  obtain ⟨k, -, rfl⟩ := List.mem_map.1 h
  exact ⟨k, rfl⟩

/-- Rearranged items have the same keys. -/
theorem keys_perm {xs ys : List α} (h : xs.Perm ys) :
    ((group key xs).map Prod.fst).Perm ((group key ys).map Prod.fst) := by
  refine (List.perm_ext_iff_of_nodup (nodup_keys xs) (nodup_keys ys)).2 fun k => ?_
  rw [mem_keys, mem_keys]
  constructor
  · rintro ⟨x, hx, rfl⟩
    exact ⟨x, h.mem_iff.1 hx, rfl⟩
  · rintro ⟨x, hx, rfl⟩
    exact ⟨x, h.mem_iff.2 hx, rfl⟩

/-- What is made of each group whatever the order of its items, is made of the groups of rearranged items too. -/
theorem map_values_perm {β : Type} {f : List α → β} {xs ys : List α} (h : xs.Perm ys)
    (hf : ∀ k, f (xs.filter fun x => key x = k) = f (ys.filter fun x => key x = k)) :
    (((group key xs).map Prod.snd).map f).Perm (((group key ys).map Prod.snd).map f) := by
  have hvalues : ∀ zs : List α, ((group key zs).map Prod.snd).map f =
      ((group key zs).map Prod.fst).map fun k => f (zs.filter fun x => key x = k) := by
    intro zs
    rw [values_group, List.map_map]
    rfl
  rw [hvalues, hvalues, funext hf]
  exact (keys_perm h).map _

/-- The items of all groups are the items. -/
theorem sum_length (xs : List α) : (((group key xs).map Prod.snd).map List.length).sum = xs.length := by
  have hset : ∀ (groups : Dict (List α)) (k : String) (x : α),
      ((Dict.set k (Dict.getD groups k [] ++ [x]) groups).map fun e => e.2.length).sum =
        (groups.map fun e => e.2.length).sum + 1 := by
    intro groups k x
    induction groups with
    | nil => rfl
    | cons e groups ih =>
      obtain ⟨l, g⟩ := e
      by_cases hl : l = k
      · simp only [Dict.set, hl, if_true, Dict.getD, Dict.get?, Option.getD_some, List.map_cons, List.sum_cons, List.length_append,
          List.length_singleton]
        omega
      · have hget : Dict.getD ((l, g) :: groups) k [] = Dict.getD groups k [] := by simp [Dict.getD, Dict.get?, hl]
        rw [hget]
        simp only [Dict.set, hl, if_false, List.map_cons, List.sum_cons]
        rw [ih]
        omega
  have hfold : ∀ (groups : Dict (List α)), ((xs.foldl (add key) groups).map fun e => e.2.length).sum =
      (groups.map fun e => e.2.length).sum + xs.length := by
    induction xs with
    | nil => exact fun groups => rfl
    | cons x xs ih =>
      intro groups
      rw [List.foldl_cons, ih, add, hset, List.length_cons]
      omega
  rw [List.map_map]
  exact (hfold []).trans (Nat.zero_add _)

/-- Selecting the items of each of some distinct keys rearranges the items that have one of them. -/
theorem flatMap_filter_perm {κ : Type} [DecidableEq κ] (f : α → κ) {keys : List κ} (hkeys : keys.Nodup) {xs : List α}
    (hxs : ∀ x ∈ xs, f x ∈ keys) : (keys.flatMap fun k => xs.filter fun x => f x = k).Perm xs := by
  induction keys generalizing xs with
  | nil =>
    obtain rfl : xs = [] := List.eq_nil_iff_forall_not_mem.2 fun x hx => nomatch hxs x hx
    exact List.Perm.refl _
  | cons k keys ih =>
    rw [List.nodup_cons] at hkeys
    have hrest : ∀ x ∈ xs.filter fun x => !decide (f x = k), f x ∈ keys := by
      intro x hx
      obtain ⟨hx, hne⟩ := List.mem_filter.1 hx
      refine (List.mem_cons.1 (hxs x hx)).resolve_left fun he => ?_
      simp [he] at hne
    have hsame : (keys.flatMap fun l => xs.filter fun x => f x = l) =
        keys.flatMap fun l => (xs.filter fun x => !decide (f x = k)).filter fun x => f x = l := by
      refine List.flatMap_congr fun l hl => ?_
      have hlk : l ≠ k := fun he => hkeys.1 (he ▸ hl)
      rw [List.filter_filter]
      refine List.filter_congr fun x _ => ?_
      by_cases hx : f x = l
      · simp [hx, hlk]
      · simp [hx]
    rw [List.flatMap_cons, hsame]
    exact ((ih hkeys.2 hrest).append_left _).trans (List.filter_append_perm _ xs)

end Grouped

/-! ## Counters -/

namespace Tally

/-- Add to the counter of a name. -/
def add (counts : Dict ℕ) (name : String) (n : ℕ) : Dict ℕ := Dict.set name (Dict.getD counts name 0 + n) counts

/-- The sum of the counters. -/
def total (counts : Dict ℕ) : ℕ := (counts.map Prod.snd).sum

theorem getD_add (counts : Dict ℕ) (name name' : String) (n : ℕ) :
    Dict.getD (add counts name n) name' 0 = Dict.getD counts name' 0 + if name = name' then n else 0 := by
  unfold add
  by_cases h : name = name'
  · subst h
    simp
  · rw [Dict.getD_set_of_ne (Ne.symm h), if_neg h, Nat.add_zero]

theorem total_add (counts : Dict ℕ) (name : String) (n : ℕ) : total (add counts name n) = total counts + n := by
  unfold total add
  induction counts with
  | nil => simp [Dict.set, Dict.getD, Dict.get?]
  | cons e counts ih =>
    obtain ⟨k, m⟩ := e
    by_cases hk : k = name
    · simp only [Dict.set, hk, if_true, Dict.getD, Dict.get?, Option.getD_some, List.map_cons, List.sum_cons]
      omega
    · have hget : Dict.getD ((k, m) :: counts) name 0 = Dict.getD counts name 0 := by simp [Dict.getD, Dict.get?, hk]
      rw [hget]
      simp only [Dict.set, hk, if_false, List.map_cons, List.sum_cons]
      omega

/-- Counting names one by one. -/
theorem getD_count (names : List String) (counts : Dict ℕ) (name : String) :
    Dict.getD (names.foldl (fun d n => add d n 1) counts) name 0 = Dict.getD counts name 0 + names.count name := by
  induction names generalizing counts with
  | nil => rfl
  | cons n names ih =>
    rw [List.foldl_cons, ih, getD_add, List.count_cons]
    simp only [beq_iff_eq]
    omega

theorem total_count (names : List String) (counts : Dict ℕ) :
    total (names.foldl (fun d n => add d n 1) counts) = total counts + names.length := by
  induction names generalizing counts with
  | nil => rfl
  | cons n names ih =>
    rw [List.foldl_cons, ih, total_add, List.length_cons]
    omega

end Tally

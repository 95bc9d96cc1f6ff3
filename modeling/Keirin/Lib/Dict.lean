import Mathlib.Tactic

/-!
# Dictionaries

A dictionary is a list of entries in the order they were inserted. Looking a key up finds its first entry, setting a key
replaces that entry or adds one at the end.
-/

abbrev Dict (α : Type) := List (String × α)

namespace Dict

variable {α : Type}

/-- The value of a key. -/
def get? (key : String) : Dict α → Option α
  | [] => none
  | (k, v) :: d => if k = key then some v else get? key d

/-- The value of a key, or a default. -/
def getD (d : Dict α) (key : String) (default : α) : α := (get? key d).getD default

/-- Set a key. -/
def set (key : String) (v : α) : Dict α → Dict α
  | [] => [(key, v)]
  | (k, w) :: d => if k = key then (k, v) :: d else (k, w) :: set key v d

/-- Remove a key. -/
def pop (key : String) (d : Dict α) : Dict α := d.filter (fun e => e.1 ≠ key)

/-- Set every key of another dictionary, in its order. -/
def update (d e : Dict α) : Dict α := e.foldl (fun d kv => set kv.1 kv.2 d) d

@[simp] theorem get?_set_self (key : String) (v : α) (d : Dict α) : get? key (set key v d) = some v := by
  induction d with
  | nil => simp [set, get?]
  | cons e d ih =>
    obtain ⟨k, w⟩ := e
    by_cases h : k = key <;> simp [set, get?, h, ih]

theorem get?_set_of_ne {key key' : String} (h : key' ≠ key) (v : α) (d : Dict α) :
    get? key' (set key v d) = get? key' d := by
  induction d with
  | nil => simp [set, get?, h.symm]
  | cons e d ih =>
    obtain ⟨k, w⟩ := e
    by_cases hk : k = key
    · subst hk; simp [set, get?, h.symm]
    · by_cases hk' : k = key'
      · subst hk'; simp [set, get?, hk]
      · simp [set, get?, hk, hk', ih]

@[simp] theorem get?_pop_self (key : String) (d : Dict α) : get? key (pop key d) = none := by
  induction d with
  | nil => rfl
  | cons e d ih =>
    obtain ⟨k, w⟩ := e
    by_cases hk : k = key
    · simpa [pop, hk] using ih
    · simpa [pop, hk, get?] using ih

theorem get?_pop_of_ne {key key' : String} (h : key' ≠ key) (d : Dict α) : get? key' (pop key d) = get? key' d := by
  induction d with
  | nil => rfl
  | cons e d ih =>
    obtain ⟨k, w⟩ := e
    by_cases hk : k = key
    · subst hk
      simpa [pop, get?, h.symm] using ih
    · by_cases hk' : k = key'
      · subst hk'; simp [pop, get?, hk]
      · simpa [pop, hk, get?, hk'] using ih

@[simp] theorem pop_set_self (key : String) (v : α) (d : Dict α) : pop key (set key v d) = pop key d := by
  induction d with
  | nil => simp [pop, set]
  | cons e d ih =>
    obtain ⟨k, w⟩ := e
    by_cases hk : k = key
    · simp [pop, set, hk]
    · simpa [pop, set, hk] using ih

theorem pop_set_of_ne {key key' : String} (h : key' ≠ key) (v : α) (d : Dict α) :
    pop key (set key' v d) = set key' v (pop key d) := by
  induction d with
  | nil => simp [pop, set, h]
  | cons e d ih =>
    obtain ⟨k, w⟩ := e
    by_cases hk : k = key
    · subst hk
      simpa [pop, set, h.symm] using ih
    · by_cases hk' : k = key'
      · subst hk'; simp [pop, set, hk]
      · simpa [pop, set, hk, hk'] using ih

@[simp] theorem pop_pop (key : String) (d : Dict α) : pop key (pop key d) = pop key d := by
  simp [pop]

/-- The keys after a key was set. -/
theorem keys_set (key : String) (v : α) (d : Dict α) :
    (set key v d).map Prod.fst = if key ∈ d.map Prod.fst then d.map Prod.fst else d.map Prod.fst ++ [key] := by
  induction d with
  | nil => simp [set]
  | cons e d ih =>
    obtain ⟨k, w⟩ := e
    by_cases hk : k = key
    · simp [set, hk]
    · rw [set, if_neg hk, List.map_cons, ih]
      split_ifs with h h' h' <;> simp_all [eq_comm]

/-- Setting a key keeps the keys distinct. -/
theorem nodup_set {key : String} {v : α} {d : Dict α} (h : (d.map Prod.fst).Nodup) : ((set key v d).map Prod.fst).Nodup := by
  rw [keys_set]
  split_ifs with hk
  · exact h
  · exact List.nodup_append.2 ⟨h, List.nodup_singleton _, fun a ha b hb hab => hk (by simp_all)⟩

theorem nodup_update {d e : Dict α} (h : (d.map Prod.fst).Nodup) : ((update d e).map Prod.fst).Nodup := by
  induction e generalizing d with
  | nil => exact h
  | cons f e ih => exact ih (nodup_set h)

theorem mem_set {key : String} {v : α} {d : Dict α} {f : String × α} (h : f ∈ set key v d) : f ∈ d ∨ f.2 = v := by
  induction d with
  | nil =>
    rw [set, List.mem_singleton] at h
    exact .inr (by rw [h])
  | cons g d ih =>
    obtain ⟨k, w⟩ := g
    rw [set] at h
    split at h
    · rcases List.mem_cons.1 h with rfl | h
      · exact .inr rfl
      · exact .inl (List.mem_cons_of_mem _ h)
    · rcases List.mem_cons.1 h with rfl | h
      · exact .inl List.mem_cons_self
      · rcases ih h with h | h
        · exact .inl (List.mem_cons_of_mem _ h)
        · exact .inr h

/-- A value after updates is one from before or one of the updates. -/
theorem mem_update {d e : Dict α} {f : String × α} (h : f ∈ update d e) : f ∈ d ∨ ∃ g ∈ e, f.2 = g.2 := by
  induction e generalizing d with
  | nil => exact .inl h
  | cons g e ih =>
    rcases ih (d := set g.1 g.2 d) h with h | ⟨g', hg', h⟩
    · rcases mem_set h with h | h
      · exact .inl h
      · exact .inr ⟨g, List.mem_cons_self, h⟩
    · exact .inr ⟨g', List.mem_cons_of_mem _ hg', h⟩

theorem get?_eq_none_iff {key : String} {d : Dict α} : get? key d = none ↔ key ∉ d.map Prod.fst := by
  induction d with
  | nil => simp [get?]
  | cons e d ih =>
    obtain ⟨k, w⟩ := e
    by_cases hk : k = key
    · simp [get?, hk]
    · rw [get?, if_neg hk, ih, List.map_cons, List.mem_cons, not_or]
      exact ⟨fun h => ⟨fun he => hk he.symm, h⟩, fun h => h.2⟩

/-- Taking out a key that is not there changes nothing. -/
theorem pop_of_get? {key : String} {d : Dict α} (h : get? key d = none) : pop key d = d := by
  refine List.filter_eq_self.2 fun e he => ?_
  have hk : e.1 ≠ key := fun hk => get?_eq_none_iff.1 h (hk ▸ List.mem_map_of_mem he)
  simpa using hk

theorem mem_of_get? {key : String} {v : α} {d : Dict α} (h : get? key d = some v) : (key, v) ∈ d := by
  induction d with
  | nil => simp [get?] at h
  | cons e d ih =>
    obtain ⟨k, w⟩ := e
    by_cases hk : k = key
    · simp only [get?, hk, if_true, Option.some.injEq] at h
      simp [hk, h]
    · simp only [get?, hk, if_false] at h
      exact List.mem_cons_of_mem _ (ih h)

/-- Setting a key that is not there adds it at the end. -/
theorem set_of_get?_none {key : String} {d : Dict α} (h : get? key d = none) (v : α) : set key v d = d ++ [(key, v)] := by
  induction d with
  | nil => rfl
  | cons e d ih =>
    obtain ⟨k, w⟩ := e
    by_cases hk : k = key
    · simp [get?, hk] at h
    · rw [get?, if_neg hk] at h
      rw [set, if_neg hk, ih h]
      rfl

/-- Setting a key that is there changes its entry in its place. -/
theorem set_of_get? {key : String} {d : Dict α} {w : α} (h : get? key d = some w) (v : α) :
    ∃ before after, d = before ++ (key, w) :: after ∧ set key v d = before ++ (key, v) :: after := by
  induction d with
  | nil => nomatch h
  | cons e d ih =>
    obtain ⟨k, x⟩ := e
    by_cases hk : k = key
    · subst hk
      rw [get?, if_pos rfl] at h
      cases h
      exact ⟨[], d, rfl, by rw [set, if_pos rfl]; rfl⟩
    · rw [get?, if_neg hk] at h
      obtain ⟨before, after, rfl, hset⟩ := ih h
      refine ⟨(k, x) :: before, after, rfl, ?_⟩
      rw [set, if_neg hk, hset]
      rfl

/-- Where every key stands once, its entry is found. -/
theorem get?_of_mem {key : String} {v : α} {d : Dict α} (hd : (d.map Prod.fst).Nodup) (h : (key, v) ∈ d) :
    get? key d = some v := by
  induction d with
  | nil => nomatch h
  | cons e d ih =>
    obtain ⟨k, w⟩ := e
    rw [List.map_cons, List.nodup_cons] at hd
    rcases List.mem_cons.1 h with he | h
    · cases he
      exact if_pos rfl
    · have hne : k ≠ key := by
        rintro rfl
        exact hd.1 (List.mem_map.2 ⟨(k, v), h, rfl⟩)
      rw [get?, if_neg hne]
      exact ih hd.2 h

/-- Where every key stands once, the order of the entries does not matter. -/
theorem get?_perm {d e : Dict α} (h : d.Perm e) (hd : (d.map Prod.fst).Nodup) (key : String) : get? key d = get? key e := by
  have he : (e.map Prod.fst).Nodup := (h.map Prod.fst).nodup_iff.1 hd
  refine Option.ext fun v => ?_
  constructor
  · intro hv
    exact get?_of_mem he (h.mem_iff.1 (mem_of_get? hv))
  · intro hv
    exact get?_of_mem hd (h.mem_iff.2 (mem_of_get? hv))

/-- Look a key up among entries whose values were mapped. -/
theorem get?_map {β : Type} (f : α → β) (key : String) (d : Dict α) :
    get? key (d.map fun e => (e.1, f e.2)) = (get? key d).map f := by
  induction d with
  | nil => rfl
  | cons e d ih =>
    simp only [List.map_cons, get?]
    split
    · rfl
    · exact ih

@[simp] theorem getD_set_self (key : String) (v x : α) (d : Dict α) : getD (set key v d) key x = v := by
  simp [getD]

theorem getD_set_of_ne {key key' : String} (h : key' ≠ key) (v x : α) (d : Dict α) :
    getD (set key v d) key' x = getD d key' x := by
  simp [getD, get?_set_of_ne h]

@[simp] theorem getD_pop_self (key : String) (x : α) (d : Dict α) : getD (pop key d) key x = x := by
  simp [getD]

theorem getD_pop_of_ne {key key' : String} (h : key' ≠ key) (x : α) (d : Dict α) : getD (pop key d) key' x = getD d key' x := by
  simp [getD, get?_pop_of_ne h]

end Dict

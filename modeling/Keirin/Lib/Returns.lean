import Mathlib.Tactic

/-!
# Whether a computation returns

`Returns x` says that a computation that may fail has a value. It is settled part by part: a sequence returns where its first part
does and the rest does at its value, a list is carried out where each of its elements is.
-/

variable {ε α β : Type}

/-- The computation has a value. -/
def Returns (x : Except ε α) : Prop := ∃ a, x = .ok a

@[simp] theorem returns_ok (a : α) : Returns (.ok a : Except ε α) := ⟨a, rfl⟩

@[simp] theorem returns_pure (a : α) : Returns (pure a : Except ε α) := ⟨a, rfl⟩

@[simp] theorem not_returns_error (e : ε) : ¬Returns (.error e : Except ε α) := fun ⟨_, h⟩ => nomatch h

@[simp] theorem not_returns_throw (e : ε) : ¬Returns (throw e : Except ε α) := fun ⟨_, h⟩ => nomatch h

@[simp] theorem returns_map {x : Except ε α} {f : α → β} : Returns (x.map f) ↔ Returns x := by
  cases x with
  | ok a => simp [Except.map]
  | error e => simp [Except.map]

theorem returns_bind {x : Except ε α} {f : α → Except ε β} : Returns (x >>= f) ↔ ∃ a, x = .ok a ∧ Returns (f a) := by
  cases x with
  | ok a =>
    constructor
    · intro h
      exact ⟨a, rfl, h⟩
    · rintro ⟨b, hb, h⟩
      cases hb
      exact h
  | error e =>
    constructor
    · rintro ⟨b, hb⟩
      nomatch hb
    · rintro ⟨b, hb, -⟩
      nomatch hb

theorem Returns.bind {x : Except ε α} {f : α → Except ε β} (hx : Returns x) (hf : ∀ a, x = .ok a → Returns (f a)) :
    Returns (x >>= f) := by
  obtain ⟨a, ha⟩ := hx
  exact returns_bind.2 ⟨a, ha, hf a ha⟩

/-- Where the rest does not depend on the value, a sequence returns when both parts do. -/
theorem returns_bind_const {x : Except ε α} {f : α → Except ε β} {P : Prop} (h : ∀ a, x = .ok a → (Returns (f a) ↔ P)) :
    Returns (x >>= f) ↔ Returns x ∧ P := by
  rw [returns_bind]
  constructor
  · rintro ⟨a, ha, hf⟩
    exact ⟨⟨a, ha⟩, (h a ha).1 hf⟩
  · rintro ⟨⟨a, ha⟩, hp⟩
    exact ⟨a, ha, (h a ha).2 hp⟩

/-- A list is carried out where each of its elements is. -/
theorem returns_mapM {f : α → Except ε β} {xs : List α} : Returns (xs.mapM f) ↔ ∀ x ∈ xs, Returns (f x) := by
  induction xs with
  | nil => simp
  | cons x xs ih =>
    rw [List.mapM_cons, returns_bind_const (P := ∀ y ∈ xs, Returns (f y)), List.forall_mem_cons]
    intro a _
    rw [returns_bind_const (P := True), ih, and_true]
    intro b _
    simp

import Keirin.Lib.Prog

/-!
# Simulation of programs

One program simulates another when they issue the same commands, each in its own vocabulary, up to silent commands of the first.
A simulation says which commands are silent, which belong together and which replies do; what is proved of the two programs
holds of their whole runs on every pair of machines that match (`Simulates.interp`).
-/

/-- How the commands of two programs belong together. -/
structure Simulation (C D : Type) (R : C → Type) (S : D → Type) where
  silent : C → Prop
  pairs : C → D → Prop
  replies : (c : C) → (d : D) → R c → S d → Prop

namespace Prog

variable {C D σ τ ε α β α' β' : Type} {R : C → Type} {S : D → Type} {M : Simulation C D R S} {Q : α → β → Prop}

/-- Whatever the replies that belong together, both programs end alike: both return, and `Q` holds of what they return, or both
raise the same error. -/
def Simulates (M : Simulation C D R S) (Q : α → β → Prop) : Prog C R ε α → Prog D S ε β → Prop
  | ret a, q => ∃ b, q = ret b ∧ Q a b
  | raise e, q => q = raise e
  | cmd c k, q => (M.silent c ∧ ∀ r, (k r).Simulates M Q q) ∨
      ∃ d l, q = cmd d l ∧ M.pairs c d ∧ ∀ r s, M.replies c d r s → (k r).Simulates M Q (l s)

theorem simulates_ret {a : α} {b : β} (h : Q a b) : (ret a : Prog C R ε α).Simulates M Q (ret b : Prog D S ε β) := ⟨b, rfl, h⟩

theorem simulates_raise (e : ε) : (raise e : Prog C R ε α).Simulates M Q (raise e : Prog D S ε β) := rfl

/-- A silent command is taken by the first program alone. -/
theorem simulates_silent {c : C} {k : R c → Prog C R ε α} {q : Prog D S ε β} (hc : M.silent c)
    (h : ∀ r, (k r).Simulates M Q q) : (cmd c k).Simulates M Q q := .inl ⟨hc, h⟩

/-- Two commands that belong together. -/
theorem simulates_cmd {c : C} {d : D} {k : R c → Prog C R ε α} {l : S d → Prog D S ε β} (hcd : M.pairs c d)
    (h : ∀ r s, M.replies c d r s → (k r).Simulates M Q (l s)) : (cmd c k).Simulates M Q (cmd d l) := .inr ⟨d, l, rfl, hcd, h⟩

/-- The rule of branching, on conditions that agree. -/
theorem simulates_ite {c c' : Prop} [Decidable c] [Decidable c'] (hc : c ↔ c') {p p' : Prog C R ε α} {q q' : Prog D S ε β}
    (hpos : c → p.Simulates M Q q) (hneg : ¬c → p'.Simulates M Q q') :
    (if c then p else p').Simulates M Q (if c' then q else q') := by
  by_cases h : c
  · rw [if_pos h, if_pos (hc.mp h)]
    exact hpos h
  · rw [if_neg h, if_neg (mt hc.mpr h)]
    exact hneg h

/-- The rule of sequence. -/
theorem Simulates.bind {Q' : α' → β' → Prop} {p : Prog C R ε α} {q : Prog D S ε β} {f : α → Prog C R ε α'}
    {g : β → Prog D S ε β'} (h : p.Simulates M Q q) (hfg : ∀ a b, Q a b → (f a).Simulates M Q' (g b)) :
    (p >>= f).Simulates M Q' (q >>= g) := by
  induction p generalizing q with
  | ret a =>
    obtain ⟨b, rfl, hab⟩ := h
    exact hfg a b hab
  | raise e =>
    cases h
    rfl
  | cmd c k ih =>
    rcases h with ⟨hc, h⟩ | ⟨d, l, rfl, hcd, h⟩
    · exact simulates_silent hc fun r => ih r (h r)
    · exact simulates_cmd hcd fun r s hrs => ih r (h r s hrs)

/-- Two machines match: from related states, silent commands keep the relation, and commands that belong together have replies
that do, and keep it. -/
structure Matches (M : Simulation C D R S) (m : σ → (c : C) → R c × σ) (m' : τ → (d : D) → S d × τ) (W : σ → τ → Prop) : Prop where
  silent : ∀ {c s t}, M.silent c → W s t → W (m s c).2 t
  pairs : ∀ {c d s t}, M.pairs c d → W s t → M.replies c d (m s c).1 (m' t d).1 ∧ W (m s c).2 (m' t d).2

/-- Whole runs on machines that match end alike, in related states. -/
theorem Simulates.interp {m : σ → (c : C) → R c × σ} {m' : τ → (d : D) → S d × τ} {W : σ → τ → Prop} (hm : Matches M m m' W)
    {p : Prog C R ε α} {q : Prog D S ε β} (h : p.Simulates M Q q) {s : σ} {t : τ} (hst : W s t) :
    W (p.interp m s).2 (q.interp m' t).2 ∧
      ((∃ a b, (p.interp m s).1 = .ok a ∧ (q.interp m' t).1 = .ok b ∧ Q a b) ∨
        ∃ e, (p.interp m s).1 = .error e ∧ (q.interp m' t).1 = .error e) := by
  induction p generalizing q s t with
  | ret a =>
    obtain ⟨b, rfl, hab⟩ := h
    exact ⟨hst, .inl ⟨a, b, rfl, rfl, hab⟩⟩
  | raise e =>
    cases h
    exact ⟨hst, .inr ⟨e, rfl, rfl⟩⟩
  | cmd c k ih =>
    rcases h with ⟨hc, h⟩ | ⟨d, l, rfl, hcd, h⟩
    · exact ih _ (h _) (hm.silent hc hst)
    · obtain ⟨hrs, hst'⟩ := hm.pairs hcd hst
      exact ih _ (h _ _ hrs) hst'

end Prog

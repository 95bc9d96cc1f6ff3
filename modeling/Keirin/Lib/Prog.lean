import Mathlib.Tactic

/-!
# Programs that issue commands

A program over a set of commands is the tree of its behaviours: it returns, it raises, or it issues a command and goes on
with the reply. A machine says what a command does to a state; the environment resolves what the state leaves open (a
fault, an answer from outside) by a choice. A program cut off after any number of commands is a run on a shorter list of
choices, so a statement about every list of choices is a statement about every crash point.

`Safe` is the judgement about programs: whatever the others do between two commands, every command keeps the invariant
and stays within the guarantee, and the post-condition holds where the program ends.
-/

/-- A program: it returns a value, raises an error, or issues a command and goes on with the reply. -/
inductive Prog (C : Type) (R : C → Type) (ε α : Type) : Type
  | ret (a : α)
  | raise (e : ε)
  | cmd (c : C) (k : R c → Prog C R ε α)

/-- What a command does in a state, for each choice of the environment; `none` where the choice is not open. -/
abbrev Machine (σ C : Type) (R : C → Type) (χ : Type) := σ → (c : C) → χ → Option (R c × σ)

namespace Prog

variable {σ C χ ε α β γ : Type} {R : C → Type}

/-- Run `p`, then what follows its value; an error goes through. -/
def bind : Prog C R ε α → (α → Prog C R ε β) → Prog C R ε β
  | ret a, f => f a
  | raise e, _ => raise e
  | cmd c k, f => cmd c (fun r => (k r).bind f)

instance : Monad (Prog C R ε) where
  pure := ret
  bind := bind

/-- Issue one command and return its reply. -/
def send (c : C) : Prog C R ε (R c) := cmd c ret

@[simp] theorem pure_eq (a : α) : (pure a : Prog C R ε α) = ret a := rfl

@[simp] theorem ret_bind (a : α) (f : α → Prog C R ε β) : (ret a >>= f) = f a := rfl

@[simp] theorem raise_bind (e : ε) (f : α → Prog C R ε β) : (raise e >>= f) = raise e := rfl

@[simp] theorem cmd_bind (c : C) (k : R c → Prog C R ε α) (f : α → Prog C R ε β) :
    (cmd c k >>= f) = cmd c (fun r => k r >>= f) := rfl

@[simp] theorem send_bind (c : C) (f : R c → Prog C R ε β) : (send c >>= f) = cmd c f := rfl

/-- One command of a program, the environment choosing `x`; a program that has ended, or a choice that is not open, takes
no step. -/
def step (m : Machine σ C R χ) (x : χ) (s : σ) : Prog C R ε α → Option (σ × Prog C R ε α)
  | ret _ => none
  | raise _ => none
  | cmd c k => (m s c x).map (fun rs => (rs.2, k rs.1))

/-- Run a program along a list of choices, up to the first choice that is not open. -/
def exec (m : Machine σ C R χ) : List χ → σ → Prog C R ε α → σ × Prog C R ε α
  | [], s, p => (s, p)
  | x :: xs, s, p =>
    match p.step m x s with
    | some (s', p') => exec m xs s' p'
    | none => (s, p)

/-- A command whose choice is open is carried out. -/
theorem exec_cmd {m : Machine σ C R χ} {x : χ} {xs : List χ} {s t : σ} {c : C} {r : R c} {k : R c → Prog C R ε α}
    (h : m s c x = some (r, t)) : (cmd c k).exec m (x :: xs) s = (k r).exec m xs t := by
  simp only [exec, step, h, Option.map_some]

/-- A program that has raised an error stays as it is. -/
theorem exec_raise (m : Machine σ C R χ) (xs : List χ) (s : σ) (e : ε) : (raise e : Prog C R ε α).exec m xs s = (s, raise e) := by
  cases xs <;> rfl

/-- A program that has returned stays as it is. -/
theorem exec_ret (m : Machine σ C R χ) (xs : List χ) (s : σ) (a : α) : (ret a : Prog C R ε α).exec m xs s = (s, ret a) := by
  cases xs <;> rfl

/-- A run ends where its first part raises. -/
theorem exec_bind_raise {m : Machine σ C R χ} {xs : List χ} {p : Prog C R ε α} {s t : σ} {e : ε}
    (h : p.exec m xs s = (t, raise e)) (f : α → Prog C R ε β) : (p >>= f).exec m xs s = (t, raise e) := by
  induction xs generalizing p s with
  | nil =>
    cases h
    rfl
  | cons x xs ih =>
    cases p with
    | ret a => nomatch h
    | raise e' =>
      cases h
      rfl
    | cmd c k =>
      simp only [cmd_bind, exec, step] at h ⊢
      cases hm : m s c x with
      | none => simp [hm] at h
      | some rs =>
        simp only [hm, Option.map_some] at h ⊢
        exact ih h

end Prog

/-! ## Whole runs -/

namespace Prog

variable {σ C D ε α β : Type} {R : C → Type} {S : D → Type}

/-- The whole run of a program on a machine that leaves nothing open: what it returned or raised, and the state it ended in. -/
def interp (m : σ → (c : C) → R c × σ) : Prog C R ε α → σ → Except ε α × σ
  | ret a, s => (.ok a, s)
  | raise e, s => (.error e, s)
  | cmd c k, s => (k (m s c).1).interp m (m s c).2

/-- Carry out every command by a program over other commands. -/
def handle (h : (c : C) → Prog D S ε (R c)) : Prog C R ε α → Prog D S ε α
  | ret a => ret a
  | raise e => raise e
  | cmd c k => h c >>= fun r => (k r).handle h

variable {m : σ → (c : C) → R c × σ}

/-- The rule of sequence for whole runs: the second part runs from where the first returned. -/
theorem interp_bind_ok {p : Prog C R ε α} {s t : σ} {a : α} (h : p.interp m s = (.ok a, t)) (f : α → Prog C R ε β) :
    (p >>= f).interp m s = (f a).interp m t := by
  induction p generalizing s with
  | ret b =>
    cases h
    rfl
  | raise e => nomatch h
  | cmd c k ih => exact ih _ h

/-- A whole run ends where its first part raises. -/
theorem interp_bind_error {p : Prog C R ε α} {s t : σ} {e : ε} (h : p.interp m s = (.error e, t)) (f : α → Prog C R ε β) :
    (p >>= f).interp m s = (.error e, t) := by
  induction p generalizing s with
  | ret b => nomatch h
  | raise e' =>
    cases h
    rfl
  | cmd c k ih => exact ih _ h

/-- Carrying out a sequence carries out its parts. -/
theorem handle_bind (h : (c : C) → Prog D S ε (R c)) (p : Prog C R ε α) (f : α → Prog C R ε β) :
    (p >>= f).handle h = p.handle h >>= fun a => (f a).handle h := by
  have hassoc : ∀ {γ δ η : Type} (q : Prog D S ε γ) (g : γ → Prog D S ε δ) (g' : δ → Prog D S ε η),
      (q >>= g) >>= g' = q >>= fun a => g a >>= g' := by
    intro γ δ η q g g'
    induction q with
    | ret a => rfl
    | raise e => rfl
    | cmd c k ih => exact congrArg (cmd c) (funext ih)
  induction p with
  | ret a => rfl
  | raise e => rfl
  | cmd c k ih =>
    calc (cmd c k >>= f).handle h = h c >>= fun r => (k r >>= f).handle h := rfl
      _ = h c >>= fun r => (k r).handle h >>= fun a => (f a).handle h := by simp only [ih]
      _ = (cmd c k).handle h >>= fun a => (f a).handle h := (hassoc _ _ _).symm

end Prog

/-! ## Safety of a program -/

/-- The setting a program is judged in: the machine, the invariant of its states, what the others may do between two
commands, and what each of the program's own commands may do. -/
structure Setting (σ C : Type) (R : C → Type) (χ : Type) where
  machine : Machine σ C R χ
  inv : σ → Prop
  env : σ → σ → Prop
  guar : σ → σ → Prop

/-- The setting of a program that runs alone. -/
def Setting.alone {σ C χ : Type} {R : C → Type} (m : Machine σ C R χ) (inv : σ → Prop) : Setting σ C R χ :=
  { machine := m, inv := inv, env := Eq, guar := fun _ _ => True }

namespace Prog

variable {σ C χ ε α β γ : Type} {R : C → Type} {S : Setting σ C R χ}
  {Q : α → σ → Prop} {X : ε → σ → Prop}

/-- Every command of the program keeps the invariant and the guarantee, whatever the others do before it; `Q` holds where
the program returns, `X` where it raises. -/
def Safe (S : Setting σ C R χ) (Q : α → σ → Prop) (X : ε → σ → Prop) : Prog C R ε α → σ → Prop
  | ret a, s => ∀ t, S.env s t → S.inv t → Q a t
  | raise e, s => ∀ t, S.env s t → S.inv t → X e t
  | cmd c k, s => ∀ t, S.env s t → S.inv t → ∀ x r t', S.machine t c x = some (r, t') →
      S.inv t' ∧ S.guar t t' ∧ (k r).Safe S Q X t'

/-- Safety survives what the others do. -/
theorem Safe.env (htrans : ∀ {a b c}, S.env a b → S.env b c → S.env a c) {p : Prog C R ε α} {s t : σ}
    (h : p.Safe S Q X s) (he : S.env s t) : p.Safe S Q X t := by
  cases p with
  | ret a => exact fun u hu => h u (htrans he hu)
  | raise e => exact fun u hu => h u (htrans he hu)
  | cmd c k => exact fun u hu => h u (htrans he hu)

/-- The rule of consequence. -/
theorem Safe.mono {Q' : α → σ → Prop} {X' : ε → σ → Prop} {p : Prog C R ε α} {s : σ} (h : p.Safe S Q X s)
    (hQ : ∀ a t, S.inv t → Q a t → Q' a t) (hX : ∀ e t, S.inv t → X e t → X' e t) : p.Safe S Q' X' s := by
  induction p generalizing s with
  | ret a => exact fun t he hi => hQ a t hi (h t he hi)
  | raise e => exact fun t he hi => hX e t hi (h t he hi)
  | cmd c k ih =>
    intro t he hi x r t' hm
    obtain ⟨hi', hg, hk⟩ := h t he hi x r t' hm
    exact ⟨hi', hg, ih r hk⟩

/-- The rule of sequence: the continuation is safe from every state the first part may return in. -/
theorem Safe.bind (hrefl : ∀ s, S.env s s) {Q' : β → σ → Prop} {p : Prog C R ε α} {f : α → Prog C R ε β} {s : σ}
    (hi : S.inv s) (h : p.Safe S Q X s) (hf : ∀ a t, S.inv t → Q a t → (f a).Safe S Q' X t) :
    (p >>= f).Safe S Q' X s := by
  induction p generalizing s with
  | ret a => exact hf a s hi (h s (hrefl s) hi)
  | raise e => exact h
  | cmd c k ih =>
    intro t he hit x r t' hm
    obtain ⟨hi', hg, hk⟩ := h t he hit x r t' hm
    exact ⟨hi', hg, ih r hi' hk⟩

/-- A step of a safe program keeps the invariant and the guarantee, and leaves a safe program. -/
theorem Safe.step {p p' : Prog C R ε α} {s s' t : σ} {x : χ} (h : p.Safe S Q X s) (he : S.env s t) (hi : S.inv t)
    (hs : p.step S.machine x t = some (s', p')) : S.inv s' ∧ S.guar t s' ∧ p'.Safe S Q X s' := by
  cases p with
  | ret a => simp [Prog.step] at hs
  | raise e => simp [Prog.step] at hs
  | cmd c k =>
    simp only [Prog.step, Option.map_eq_some_iff, Prod.exists, Prod.mk.injEq] at hs
    obtain ⟨r, t', hm, rfl, rfl⟩ := hs
    exact h t he hi x r t' hm

/-- A safe program keeps the invariant along every list of choices, wherever it is cut off, and what is left of it is
safe. -/
theorem Safe.exec (hrefl : ∀ s, S.env s s) (xs : List χ) {p : Prog C R ε α} {s : σ} (hi : S.inv s)
    (h : p.Safe S Q X s) : S.inv (p.exec S.machine xs s).1 ∧ (p.exec S.machine xs s).2.Safe S Q X (p.exec S.machine xs s).1 := by
  induction xs generalizing p s with
  | nil => exact ⟨hi, h⟩
  | cons x xs ih =>
    simp only [Prog.exec]
    split
    · rename_i s' p' hs
      obtain ⟨hi', -, hp⟩ := h.step (hrefl s) hi hs
      exact ih hi' hp
    · exact ⟨hi, h⟩

end Prog

namespace Prog

variable {σ C χ ε α β : Type} {R : C → Type} {m : Machine σ C R χ} {inv : σ → Prop} {Q : α → σ → Prop} {X : ε → σ → Prop}

/-- A command of a program that runs alone. -/
theorem safe_cmd_alone {c : C} {k : R c → Prog C R ε α} {s : σ}
    (h : ∀ x r t, m s c x = some (r, t) → inv t ∧ (k r).Safe (Setting.alone m inv) Q X t) :
    (cmd c k).Safe (Setting.alone m inv) Q X s := by
  intro t he _ x r t' hm
  cases he
  obtain ⟨hi, hk⟩ := h x r t' hm
  exact ⟨hi, trivial, hk⟩

/-- The rule of sequence for a program that runs alone. -/
theorem safe_bind_alone {Q' : β → σ → Prop} {p : Prog C R ε α} {f : α → Prog C R ε β} {s : σ} (hi : inv s)
    (h : p.Safe (Setting.alone m inv) Q X s)
    (hf : ∀ a t, inv t → Q a t → (f a).Safe (Setting.alone m inv) Q' X t) :
    (p >>= f).Safe (Setting.alone m inv) Q' X s :=
  h.bind (fun _ => rfl) hi hf

/-- A safe program that runs alone keeps the invariant, wherever it is cut off. -/
theorem exec_inv_alone {I : σ → Prop} {p : Prog C R ε α} {s : σ} (xs : List χ) (hi : I s) (h : p.Safe (Setting.alone m I) Q X s) :
    I (p.exec m xs s).1 :=
  (h.exec (fun _ => rfl) xs hi).1

end Prog

/-! ## Disciplines -/

/-- A discipline of programs: what a program knows after each reply, which commands it may issue knowing it, and which replies
it counts on. It speaks of no machine, so what is proved of a program against a discipline holds of it on every machine whose
replies are among these. -/
structure Discipline (γ C : Type) (R : C → Type) where
  next : γ → (c : C) → R c → γ
  allowed : γ → C → Prop
  possible : (c : C) → R c → Prop := fun _ _ => True

namespace Prog

variable {γ σ C χ ε α β : Type} {R : C → Type} {D : Discipline γ C R} {Q : α → γ → Prop}

/-- The program issues only commands the discipline allows, whatever the replies; `Q` holds where it returns. -/
def Follows (D : Discipline γ C R) (Q : α → γ → Prop) : Prog C R ε α → γ → Prop
  | ret a, g => Q a g
  | raise _, _ => True
  | cmd c k, g => D.allowed g c ∧ ∀ r, D.possible c r → (k r).Follows D Q (D.next g c r)

/-- The rule of consequence. -/
theorem Follows.mono {Q' : α → γ → Prop} {p : Prog C R ε α} {g : γ} (h : p.Follows D Q g)
    (hQ : ∀ a g, Q a g → Q' a g) : p.Follows D Q' g := by
  induction p generalizing g with
  | ret a => exact hQ a g h
  | raise e => trivial
  | cmd c k ih => exact ⟨h.1, fun r hr => ih r (h.2 r hr)⟩

/-- The rule of sequence. -/
theorem Follows.bind {Q' : β → γ → Prop} {p : Prog C R ε α} {f : α → Prog C R ε β} {g : γ} (h : p.Follows D Q g)
    (hf : ∀ a g, Q a g → (f a).Follows D Q' g) : (p >>= f).Follows D Q' g := by
  induction p generalizing g with
  | ret a => exact hf a g h
  | raise e => trivial
  | cmd c k ih => exact ⟨h.1, fun r hr => ih r (h.2 r hr)⟩

/-- A program that follows a discipline is safe wherever the allowed commands are: `J` relates what the program knows to the
state, allowed commands keep it, and the others cannot break it. -/
theorem Follows.safe {S : Setting σ C R χ} {J : γ → σ → Prop}
    (hstep : ∀ g s c x r t, D.allowed g c → J g s → S.inv s → S.machine s c x = some (r, t) →
      D.possible c r ∧ S.inv t ∧ S.guar s t ∧ J (D.next g c r) t)
    (henv : ∀ g s t, J g s → S.env s t → S.inv t → J g t) {p : Prog C R ε α} {g : γ} {s : σ}
    (h : p.Follows D Q g) (hJ : J g s) :
    p.Safe S (fun a t => ∃ g', Q a g' ∧ J g' t) (fun _ _ => True) s := by
  induction p generalizing g s with
  | ret a => exact fun t he hi => ⟨g, h, henv g s t hJ he hi⟩
  | raise e => exact fun _ _ _ => trivial
  | cmd c k ih =>
    intro t he hi x r t' hm
    obtain ⟨hr, hi', hg, hJ'⟩ := hstep g t c x r t' h.1 (henv g s t hJ he hi) hi hm
    exact ⟨hi', hg, ih r (h.2 r hr) hJ'⟩

/-- A program that follows a discipline and runs alone is safe where the allowed commands are. -/
theorem Follows.safe_alone {m : Machine σ C R χ} {inv : σ → Prop} {J : γ → σ → Prop}
    (hstep : ∀ g s c x r t, D.allowed g c → J g s → inv s → m s c x = some (r, t) →
      D.possible c r ∧ inv t ∧ J (D.next g c r) t)
    {p : Prog C R ε α} {g : γ} {s : σ} (h : p.Follows D Q g) (hJ : J g s) :
    p.Safe (Setting.alone m inv) (fun _ _ => True) (fun _ _ => True) s :=
  (h.safe (S := Setting.alone m inv) (J := J)
    (fun g s c x r t ha hj hi hm =>
      let ⟨hr, hi', hj'⟩ := hstep g s c x r t ha hj hi hm
      ⟨hr, hi', trivial, hj'⟩)
    (fun _ _ _ hj he _ => he ▸ hj) hJ).mono (fun _ _ _ _ => trivial) (fun _ _ _ _ => trivial)

end Prog

/-! ## Conversations -/

namespace Prog

variable {C ρ ε α : Type}

/-- The value of a program that has returned. -/
def value? {R : C → Type} : Prog C R ε α → Option α
  | ret a => some a
  | _ => none

/-- The error of a program that has raised one. -/
def error? {R : C → Type} : Prog C R ε α → Option ε
  | raise e => some e
  | _ => none

/-- A run that has returned what passes a test ends in such a value. -/
theorem exists_of_value? {σ : Type} {R : C → Type} {r : σ × Prog C R ε α} {P : α → Bool} (h : r.2.value?.any P = true) :
    ∃ s a, r = (s, ret a) ∧ P a = true := by
  obtain ⟨s, p⟩ := r
  cases p with
  | ret a => exact ⟨s, a, rfl, h⟩
  | raise e => nomatch h
  | cmd c k => nomatch h

/-- Go on with a value, or raise the error in its place. -/
def ofExcept {R : C → Type} : Except ε α → Prog C R ε α
  | .ok a => ret a
  | .error e => raise e

/-- Take an error as a value, and go on. -/
def outcome {R : C → Type} {ε' : Type} : Prog C R ε α → Prog C R ε' (Except ε α)
  | ret a => ret (.ok a)
  | raise e => ret (.error e)
  | cmd c k => cmd c fun r => (k r).outcome

/-- The rule of a program whose errors are taken as values. -/
theorem Safe.outcome {σ χ ε' : Type} {R : C → Type} {S : Setting σ C R χ} {Q : α → σ → Prop} {X : ε → σ → Prop} {X' : ε' → σ → Prop}
    {p : Prog C R ε α} {s : σ} (h : p.Safe S Q X s) :
    (p.outcome : Prog C R ε' (Except ε α)).Safe S (fun r t => (∃ a, r = .ok a ∧ Q a t) ∨ ∃ e, r = .error e ∧ X e t) X' s := by
  induction p generalizing s with
  | ret a => exact fun t he hi => .inl ⟨a, rfl, h t he hi⟩
  | raise e => exact fun t he hi => .inr ⟨e, rfl, h t he hi⟩
  | cmd c k ih =>
    intro t he hi x r t' hm
    obtain ⟨hi', hg, hk⟩ := h t he hi x r t' hm
    exact ⟨hi', hg, ih r hk⟩

/-- A service that answers each command with the next reply of a list; the state is what was said. -/
def service : Machine (List (C × ρ)) C (fun _ => ρ) ρ := fun log c x => some (x, log ++ [(c, x)])

/-- The discipline of a program that may say anything: what it knows is what was said. -/
def recording : Discipline (List (C × ρ)) C (fun _ => ρ) where
  next := fun log c x => log ++ [(c, x)]
  allowed := fun _ _ => True

/-- What is proved of the value of a program and of what was said holds of every conversation. -/
theorem Follows.exec_service {p : Prog C (fun _ => ρ) ε α} {Q : α → List (C × ρ) → Prop} {log log' : List (C × ρ)}
    (h : p.Follows recording Q log) {replies : List ρ} {a : α} (hrun : p.exec service replies log = (log', ret a)) :
    Q a log' := by
  induction replies generalizing p log with
  | nil =>
    cases hrun
    exact h
  | cons x xs ih =>
    cases p with
    | ret b =>
      cases hrun
      exact h
    | raise e => nomatch hrun
    | cmd c k => exact ih (h.2 x trivial) hrun

/-- A value is followed by what is proved of it. -/
theorem follows_ofExcept {R : C → Type} {γ : Type} {D : Discipline γ C R} {Q : α → γ → Prop} {x : Except ε α} {g : γ}
    (h : ∀ a, x = .ok a → Q a g) : (ofExcept x : Prog C R ε α).Follows D Q g := by
  cases x with
  | ok a => exact h a rfl
  | error e => trivial

end Prog

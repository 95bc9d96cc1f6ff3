import Keirin.Lib.Prog

/-!
# Many programs over one state

A team runs any number of programs over one shared state. A schedule says, event by event, which thread starts which call
and which thread issues its next command, with the choice that resolves it; a thread that is never scheduled again has
crashed. The commands are atomic and interleave in any order.

The rule is rely-guarantee: a contract gives the invariant of the state and what a command of each thread may do to it; when
every call is safe in the setting where the others do anything the contract allows them, every schedule keeps the invariant
(`Team.run_inv`).
-/

/-- A team: what a command of each thread does, and the program of each call. -/
structure Team (T K σ C : Type) (R : C → Type) (χ ε α : Type) where
  machine : T → Machine σ C R χ
  body : T → K → Prog C R ε α

/-- The shared state and what is left of each thread's program; `none` for a thread that has not started. -/
structure Team.Config (T σ C : Type) (R : C → Type) (ε α : Type) where
  world : σ
  thread : T → Option (Prog C R ε α)

/-- An event of a schedule. -/
inductive SchedEvent (T K χ : Type)
  | start (t : T) (call : K)
  | step (t : T) (x : χ)

/-- The invariant of the state, and what a command of each thread may do. -/
structure Contract (T σ : Type) where
  inv : σ → Prop
  guar : T → σ → σ → Prop

namespace Team

variable {T K σ C χ ε α : Type} {R : C → Type}

/-- No thread has started. -/
def init (s : σ) : Team.Config T σ C R ε α := { world := s, thread := fun _ => none }

section Schedule

variable [DecidableEq T]

/-- One event: a thread that has not started starts its call, or a thread issues its next command; anything else changes
nothing. -/
def next (tm : Team T K σ C R χ ε α) (g : Team.Config T σ C R ε α) : SchedEvent T K χ → Team.Config T σ C R ε α
  | .start t call =>
    match g.thread t with
    | none => { g with thread := Function.update g.thread t (some (tm.body t call)) }
    | some _ => g
  | .step t x =>
    match g.thread t with
    | none => g
    | some p =>
      match p.step (tm.machine t) x g.world with
      | none => g
      | some (s', p') => { world := s', thread := Function.update g.thread t (some p') }

/-- A whole schedule. -/
def run (tm : Team T K σ C R χ ε α) (g : Team.Config T σ C R ε α) (es : List (SchedEvent T K χ)) : Team.Config T σ C R ε α :=
  es.foldl tm.next g

end Schedule

end Team

/-- What the threads other than `t` may do, any number of times. -/
def Contract.others {T σ : Type} (ct : Contract T σ) (t : T) : σ → σ → Prop :=
  Relation.ReflTransGen (fun a b => ct.inv a ∧ ct.inv b ∧ ∃ u, u ≠ t ∧ ct.guar u a b)

/-- What one command of another thread keeps, the others keep. -/
theorem Contract.others_keep {T σ : Type} {ct : Contract T σ} {t : T} {J : σ → Prop}
    (hstep : ∀ a b u, u ≠ t → ct.inv a → ct.inv b → ct.guar u a b → J a → J b) {a b : σ} (h : ct.others t a b) (hJ : J a) : J b := by
  induction h with
  | refl => exact hJ
  | tail _ hab ih =>
    obtain ⟨ha, hb, u, hu, hg⟩ := hab
    exact hstep _ _ u hu ha hb hg ih

namespace Team

variable {T K σ C χ ε α : Type} {R : C → Type} {tm : Team T K σ C R χ ε α} {ct : Contract T σ}

/-- The setting of thread `t`. -/
def setting (tm : Team T K σ C R χ ε α) (ct : Contract T σ) (t : T) : Setting σ C R χ :=
  { machine := tm.machine t, inv := ct.inv, env := ct.others t, guar := ct.guar t }

theorem others_refl (t : T) (s : σ) : (tm.setting ct t).env s s := Relation.ReflTransGen.refl

theorem others_trans (t : T) {a b c : σ} (h : (tm.setting ct t).env a b) (h' : (tm.setting ct t).env b c) :
    (tm.setting ct t).env a c := Relation.ReflTransGen.trans h h'

/-- Every started thread is safe where it stands; `Q` holds of what it returns. -/
structure Good (tm : Team T K σ C R χ ε α) (ct : Contract T σ) (Q : T → α → σ → Prop) (g : Team.Config T σ C R ε α) : Prop where
  inv : ct.inv g.world
  safe : ∀ t p, g.thread t = some p → p.Safe (tm.setting ct t) (Q t) (fun _ _ => True) g.world

/-- The calls of a team are safe to start in any state of the invariant, and `Q` holds of what they return. -/
def CallsSafe (tm : Team T K σ C R χ ε α) (ct : Contract T σ) (Q : T → α → σ → Prop) : Prop :=
  ∀ t call s, ct.inv s → (tm.body t call).Safe (tm.setting ct t) (Q t) (fun _ _ => True) s

variable {Q : T → α → σ → Prop}

theorem good_init {s : σ} (hi : ct.inv s) : tm.Good ct Q (init s) := ⟨hi, fun t p hp => by simp [init] at hp⟩

/-- A program that follows a discipline is safe in a team where the allowed commands keep the contract: `J` relates what the
program knows to the state, and what another thread does keeps it. -/
theorem safe_of_follows {γ : Type} {D : Discipline γ C R} {J : γ → σ → Prop} {t : T} {P : α → γ → Prop}
    (hstep : ∀ g s c x r s', D.allowed g c → J g s → ct.inv s → tm.machine t s c x = some (r, s') →
      D.possible c r ∧ ct.inv s' ∧ ct.guar t s s' ∧ J (D.next g c r) s')
    (hothers : ∀ g s s' u, u ≠ t → ct.inv s → ct.inv s' → ct.guar u s s' → J g s → J g s')
    {p : Prog C R ε α} {g : γ} {s : σ} (h : p.Follows D P g) (hJ : J g s) :
    p.Safe (tm.setting ct t) (fun a s => ∃ g, P a g ∧ J g s) (fun _ _ => True) s :=
  h.safe (S := tm.setting ct t) (J := J) hstep (fun g _ _ hj he _ => Contract.others_keep (hothers g) he hj) hJ

variable [DecidableEq T]

/-- One event keeps the invariant and the safety of every thread. -/
theorem Good.next (hc : tm.CallsSafe ct Q) {g : Team.Config T σ C R ε α} (h : tm.Good ct Q g) (e : SchedEvent T K χ) :
    tm.Good ct Q (tm.next g e) := by
  cases e with
  | start t call =>
    simp only [Team.next]
    split
    · refine ⟨h.inv, fun u p hp => ?_⟩
      by_cases hu : u = t
      · subst hu
        simp only [Function.update_self, Option.some.injEq] at hp
        exact hp ▸ hc u call g.world h.inv
      · simp only [Function.update_of_ne hu] at hp
        exact h.safe u p hp
    · exact h
  | step t x =>
    simp only [Team.next]
    split
    · exact h
    · rename_i p hp
      split
      · exact h
      · rename_i s' p' hs
        obtain ⟨hi, hg, hsafe⟩ := (h.safe t p hp).step (others_refl t _) h.inv hs
        refine ⟨hi, fun u q hq => ?_⟩
        by_cases hu : u = t
        · subst hu
          simp only [Function.update_self, Option.some.injEq] at hq
          exact hq ▸ hsafe
        · simp only [Function.update_of_ne hu] at hq
          exact (h.safe u q hq).env (fun ha hb => others_trans u ha hb)
            (Relation.ReflTransGen.single ⟨h.inv, hi, t, fun ht => hu ht.symm, hg⟩)

/-- A schedule keeps the invariant and the safety of every thread. -/
theorem Good.run (hc : tm.CallsSafe ct Q) (es : List (SchedEvent T K χ)) {g : Team.Config T σ C R ε α} (h : tm.Good ct Q g) :
    tm.Good ct Q (tm.run g es) := by
  induction es generalizing g with
  | nil => exact h
  | cons e es ih => exact ih (h.next hc e)

/-- The rule of the team: safe calls keep the invariant along every schedule. -/
theorem run_inv (hc : tm.CallsSafe ct Q) {s : σ} (hi : ct.inv s) (es : List (SchedEvent T K χ)) :
    ct.inv (tm.run (init s) es).world :=
  ((good_init hi).run hc es).inv

/-- What a thread has returned is as its call promises. -/
theorem run_post (hc : tm.CallsSafe ct Q) {s : σ} (hi : ct.inv s) (es : List (SchedEvent T K χ)) {t : T} {a : α}
    (h : (tm.run (init s) es).thread t = some (.ret a)) : Q t a (tm.run (init s) es).world := by
  have hgood := (good_init (Q := Q) hi).run hc es
  exact hgood.safe t _ h _ (others_refl t _) hgood.inv

end Team

import Keirin.Lib.Interleave

/-!
# Programs in layers

A program over one set of commands is carried out over another: each command is answered by a program of the layer below,
which may keep a state of its own from one command to the next. A program that follows a discipline follows one below when the
programs that answer its commands do (`Prog.Follows.serve`, `Prog.Follows.handle`).

What a program knows may be all that was said (`Prog.listening`), and what it returns is then among what its text yields for the
replies it heard (`Prog.Yields`).
-/

namespace Prog

variable {σ τ γ δ χ C D ε ε' α β : Type} {R : C → Type} {S : D → Type}

/-- Carry out every command by a program of the layer below, which passes on a state of its own. -/
def serve (h : τ → (c : C) → Prog D S ε (R c × τ)) : Prog C R ε α → τ → Prog D S ε (α × τ)
  | ret a, x => ret (a, x)
  | raise e, _ => raise e
  | cmd c k, x => h x c >>= fun r => (k r.1).serve h r.2

/-- Change the error a program raises. -/
def mapError (f : ε → ε') : Prog C R ε α → Prog C R ε' α
  | ret a => ret a
  | raise e => raise (f e)
  | cmd c k => cmd c fun r => (k r).mapError f

/-! ## Disciplines in layers -/

variable {Dis : Discipline γ C R} {Dis' : Discipline δ D S} {P : α → γ → Prop}

/-- A discipline says nothing of the errors. -/
theorem Follows.mapError {p : Prog C R ε α} {g : γ} (h : p.Follows Dis P g) (f : ε → ε') : (p.mapError f).Follows Dis P g := by
  induction p generalizing g with
  | ret a => exact h
  | raise e => trivial
  | cmd c k ih => exact ⟨h.1, fun r hr => ih r (h.2 r hr)⟩

/-- Where the errors are taken as values, the value is as before. -/
theorem Follows.outcome {p : Prog C R ε α} {g : γ} (h : p.Follows Dis P g) :
    (p.outcome : Prog C R ε' (Except ε α)).Follows Dis (fun r g => ∀ a, r = .ok a → P a g) g := by
  induction p generalizing g with
  | ret a =>
    intro b hb
    cases hb
    exact h
  | raise e =>
    intro b hb
    cases hb
  | cmd c k ih => exact ⟨h.1, fun r hr => ih r (h.2 r hr)⟩

/-- A program that follows two disciplines with the same knowledge follows both at once. -/
theorem Follows.and {allowed : γ → C → Prop} {P' : α → γ → Prop} {p : Prog C R ε α} {g : γ} (h : p.Follows Dis P g)
    (h' : p.Follows { Dis with allowed := allowed } P' g) :
    p.Follows { Dis with allowed := fun g c => Dis.allowed g c ∧ allowed g c } (fun a g => P a g ∧ P' a g) g := by
  induction p generalizing g with
  | ret a => exact ⟨h, h'⟩
  | raise e => trivial
  | cmd c k ih => exact ⟨⟨h.1, h'.1⟩, fun r hr => ih r (h.2 r hr) (h'.2 r hr)⟩

/-- The layer below follows its discipline: `J` relates what is known above, what the layer keeps and what is known below. -/
theorem Follows.serve {J : γ → τ → δ → Prop} {h : τ → (c : C) → Prog D S ε (R c × τ)}
    (hcmd : ∀ g x d c, Dis.allowed g c → J g x d →
      (h x c).Follows Dis' (fun r d' => Dis.possible c r.1 ∧ J (Dis.next g c r.1) r.2 d') d)
    {p : Prog C R ε α} {g : γ} {x : τ} {d : δ} (hp : p.Follows Dis P g) (hJ : J g x d) :
    (p.serve h x).Follows Dis' (fun a d' => ∃ g', P a.1 g' ∧ J g' a.2 d') d := by
  induction p generalizing g x d with
  | ret a => exact ⟨g, hp, hJ⟩
  | raise e => trivial
  | cmd c k ih =>
    refine Follows.bind (hcmd g x d c hp.1 hJ) ?_
    rintro ⟨r, x'⟩ d' ⟨hr, hJ'⟩
    exact ih r (hp.2 r hr) hJ'

/-- The layer below follows its discipline, where it keeps nothing. -/
theorem Follows.handle {J : γ → δ → Prop} {h : (c : C) → Prog D S ε (R c)}
    (hcmd : ∀ g d c, Dis.allowed g c → J g d → (h c).Follows Dis' (fun r d' => Dis.possible c r ∧ J (Dis.next g c r) d') d)
    {p : Prog C R ε α} {g : γ} {d : δ} (hp : p.Follows Dis P g) (hJ : J g d) :
    (p.handle h).Follows Dis' (fun a d' => ∃ g', P a g' ∧ J g' d') d := by
  induction p generalizing g d with
  | ret a => exact ⟨g, hp, hJ⟩
  | raise e => trivial
  | cmd c k ih =>
    refine Follows.bind (hcmd g d c hp.1 hJ) ?_
    rintro r d' ⟨hr, hJ'⟩
    exact ih r (hp.2 r hr) hJ'

/-! ## What was said -/

/-- The commands of a program with their replies, the oldest first. -/
abbrev Talk (C : Type) (R : C → Type) := List (Σ c : C, R c)

/-- The discipline of a program that knows all that was said. -/
def listening (allowed : Talk C R → C → Prop) : Discipline (Talk C R) C R where
  next := fun talk c r => talk ++ [⟨c, r⟩]
  allowed := allowed

variable {allowed allowed' : Talk C R → C → Prop} {Q : α → Talk C R → Prop}

/-- What was said is only added to. -/
theorem Follows.extends {p : Prog C R ε α} {talk : Talk C R} (h : p.Follows (listening allowed) Q talk) :
    p.Follows (listening allowed) (fun a talk' => Q a talk' ∧ talk <+: talk') talk := by
  induction p generalizing talk with
  | ret a => exact ⟨h, List.prefix_rfl⟩
  | raise e => trivial
  | cmd c k ih =>
    refine ⟨h.1, fun r hr => (ih r (h.2 r hr)).mono fun a talk' hQ => ⟨hQ.1, ?_⟩⟩
    exact (List.prefix_append talk [⟨c, r⟩]).trans hQ.2

/-- A discipline that allows more is followed as well. -/
theorem Follows.relax {p : Prog C R ε α} {talk : Talk C R} (h : p.Follows (listening allowed) Q talk)
    (hallow : ∀ talk c, allowed talk c → allowed' talk c) : p.Follows (listening allowed') Q talk := by
  induction p generalizing talk with
  | ret a => exact h
  | raise e => trivial
  | cmd c k ih => exact ⟨hallow _ _ h.1, fun r hr => ih r (h.2 r hr)⟩

/-- The text of a program yields a value: it returns the value for some replies among those given. -/
def Yields (replies : (c : C) → R c → Prop) : Prog C R ε α → α → Prop
  | ret a, b => a = b
  | raise _, _ => False
  | cmd c k, b => ∃ r, replies c r ∧ (k r).Yields replies b

/-- More replies yield no less. -/
theorem Yields.mono {replies replies' : (c : C) → R c → Prop} {p : Prog C R ε α} {a : α} (h : p.Yields replies a)
    (hsub : ∀ c r, replies c r → replies' c r) : p.Yields replies' a := by
  induction p with
  | ret b => exact h
  | raise e => exact h
  | cmd c k ih =>
    obtain ⟨r, hr, hk⟩ := h
    exact ⟨r, hsub c r hr, ih r hk⟩

/-- What a program returns is yielded by what it heard. -/
theorem Follows.yields {p : Prog C R ε α} {talk : Talk C R} (h : p.Follows (listening allowed) Q talk) :
    p.Follows (listening allowed) (fun a talk' => Q a talk' ∧ p.Yields (fun c r => ⟨c, r⟩ ∈ talk') a) talk := by
  induction p generalizing talk with
  | ret a => exact ⟨h, rfl⟩
  | raise e => trivial
  | cmd c k ih =>
    refine ⟨h.1, fun r hr => (ih r (h.2 r hr)).extends.mono fun a talk' hQ => ⟨hQ.1.1, r, ?_, hQ.1.2⟩⟩
    exact hQ.2.subset (List.mem_append_right _ List.mem_cons_self)

end Prog

/-! ## Threads that have done nothing yet -/

namespace Team

variable {T K σ C χ ε α : Type} {R : C → Type} {tm : Team T K σ C R χ ε α} {ct : Contract T σ} {Q : T → α → σ → Prop}
  {fresh : T → σ → Prop}

/-- The calls of a team are safe to start for a thread that has done nothing yet. -/
def FreshSafe (tm : Team T K σ C R χ ε α) (ct : Contract T σ) (fresh : T → σ → Prop) (Q : T → α → σ → Prop) : Prop :=
  ∀ t call s, ct.inv s → fresh t s → (tm.body t call).Safe (tm.setting ct t) (Q t) (fun _ _ => True) s

/-- Every started thread is safe where it stands, and the others have done nothing yet. -/
structure Ready (tm : Team T K σ C R χ ε α) (ct : Contract T σ) (fresh : T → σ → Prop) (Q : T → α → σ → Prop)
    (g : Team.Config T σ C R ε α) : Prop extends tm.Good ct Q g where
  waiting : ∀ t, g.thread t = none → fresh t g.world

variable [DecidableEq T]

/-- One event keeps the team ready. -/
theorem Ready.next (hc : tm.FreshSafe ct fresh Q) (hkeep : ∀ t u a b, u ≠ t → ct.guar u a b → fresh t a → fresh t b)
    {g : Team.Config T σ C R ε α} (h : tm.Ready ct fresh Q g) (e : SchedEvent T K χ) : tm.Ready ct fresh Q (tm.next g e) := by
  cases e with
  | start t call =>
    simp only [Team.next]
    split
    · rename_i hnone
      refine ⟨⟨h.inv, fun u p hp => ?_⟩, fun u hu => ?_⟩
      · by_cases hut : u = t
        · subst hut
          simp only [Function.update_self, Option.some.injEq] at hp
          exact hp ▸ hc u call g.world h.inv (h.waiting u hnone)
        · simp only [Function.update_of_ne hut] at hp
          exact h.safe u p hp
      · by_cases hut : u = t
        · subst hut
          simp only [Function.update_self, reduceCtorEq] at hu
        · simp only [Function.update_of_ne hut] at hu
          exact h.waiting u hu
    · exact h
  | step t x =>
    simp only [Team.next]
    split
    · exact h
    · rename_i p hp
      split
      · exact h
      · rename_i s' p' hs
        obtain ⟨hi, hg, hsafe⟩ := (h.safe t p hp).step (others_refl t _) h.inv hs
        refine ⟨⟨hi, fun u q hq => ?_⟩, fun u hu => ?_⟩
        · by_cases hut : u = t
          · subst hut
            simp only [Function.update_self, Option.some.injEq] at hq
            exact hq ▸ hsafe
          · simp only [Function.update_of_ne hut] at hq
            exact (h.safe u q hq).env (fun ha hb => others_trans u ha hb)
              (Relation.ReflTransGen.single ⟨h.inv, hi, t, fun ht => hut ht.symm, hg⟩)
        · by_cases hut : u = t
          · subst hut
            simp only [Function.update_self, reduceCtorEq] at hu
          · simp only [Function.update_of_ne hut] at hu
            exact hkeep u t g.world s' (fun ht => hut ht.symm) hg (h.waiting u hu)

/-- A schedule keeps the team ready. -/
theorem Ready.run (hc : tm.FreshSafe ct fresh Q) (hkeep : ∀ t u a b, u ≠ t → ct.guar u a b → fresh t a → fresh t b)
    (es : List (SchedEvent T K χ)) {g : Team.Config T σ C R ε α} (h : tm.Ready ct fresh Q g) :
    tm.Ready ct fresh Q (tm.run g es) := by
  induction es generalizing g with
  | nil => exact h
  | cons e es ih => exact ih (h.next hc hkeep e)

/-- The rule of the team whose threads start where they have done nothing yet: the invariant holds along every schedule, and what
a thread has returned is as its call promises. -/
theorem run_ready (hc : tm.FreshSafe ct fresh Q) (hkeep : ∀ t u a b, u ≠ t → ct.guar u a b → fresh t a → fresh t b) {s : σ}
    (hi : ct.inv s) (hfresh : ∀ t, fresh t s) (es : List (SchedEvent T K χ)) :
    ct.inv (tm.run (init s) es).world ∧
      ∀ t a, (tm.run (init s) es).thread t = some (.ret a) → Q t a (tm.run (init s) es).world := by
  have hready := Ready.run hc hkeep es ⟨good_init hi, fun t _ => hfresh t⟩
  refine ⟨hready.inv, fun t a ha => ?_⟩
  exact hready.safe t _ ha _ (others_refl t _) hready.inv

end Team

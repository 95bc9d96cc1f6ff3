import Keirin.Lib.DoubleText
import Keirin.Lib.JsonText

/-!
# Scanning numbers

The literal at the front of a text, and what comes after it: a sign, digits without a leading zero, a fraction and an exponent.
A literal of this form is scanned from its text, and what was scanned does not depend on what comes after a delimiter.
-/

namespace NumLit

/-- The digits before the point: a zero, or digits that begin with another. -/
def scanInt : List Char → Option (List Char × List Char)
  | [] => none
  | c :: s =>
    if c = '0' then some (['0'], s)
    else if c.isDigit then some (c :: s.takeWhile Char.isDigit, s.dropWhile Char.isDigit)
    else none

/-- Digits, of which there is at least one. -/
def scanDigits : List Char → Option (List Char × List Char)
  | [] => none
  | c :: s => if c.isDigit then some (c :: s.takeWhile Char.isDigit, s.dropWhile Char.isDigit) else none

/-- The fraction, where there is one. -/
def scanFrac (s : List Char) : Option (List Char) × List Char :=
  match s with
  | [] => (none, s)
  | c :: s' =>
    if c = '.' then
      match scanDigits s' with
      | some x => (some x.1, x.2)
      | none => (none, s)
    else (none, s)

/-- The sign of the exponent. -/
def scanSign (s : List Char) : Bool × List Char :=
  match s with
  | [] => (false, s)
  | c :: s' => if c = '-' then (true, s') else if c = '+' then (false, s') else (false, s)

/-- The exponent, where there is one. -/
def scanExp (s : List Char) : Option (Bool × List Char) × List Char :=
  match s with
  | [] => (none, s)
  | c :: s' =>
    if c = 'e' ∨ c = 'E' then
      match scanDigits (scanSign s').2 with
      | some x => (some ((scanSign s').1, x.1), x.2)
      | none => (none, s)
    else (none, s)

/-- The literal without its sign. -/
def scanMag (neg : Bool) (s : List Char) : Option (NumLit × List Char) :=
  (scanInt s).map fun i =>
    let f := scanFrac i.2
    let e := scanExp f.2
    ({ neg := neg, int := i.1, frac := f.1, exp := e.1 }, e.2)

/-- The literal at the front of a text. -/
def scan (s : List Char) : Option (NumLit × List Char) :=
  match s with
  | [] => none
  | c :: s' => if c = '-' then scanMag true s' else scanMag false s

/-! ## What comes after -/

theorem dropWhile_append {P : Char → Bool} {s r : List Char} {c : Char} (h : s.dropWhile P = c :: r) (t : List Char) :
    (s ++ t).dropWhile P = c :: (r ++ t) ∧ (s ++ t).takeWhile P = s.takeWhile P := by
  induction s with
  | nil => nomatch h
  | cons d s ih =>
    rw [List.cons_append]
    by_cases hd : P d = true
    · rw [List.dropWhile_cons_of_pos hd] at h
      obtain ⟨h1, h2⟩ := ih h
      rw [List.dropWhile_cons_of_pos hd, List.takeWhile_cons_of_pos hd, List.takeWhile_cons_of_pos hd, h1, h2]
      exact ⟨rfl, rfl⟩
    · rw [List.dropWhile_cons_of_neg hd] at h
      cases h
      rw [List.dropWhile_cons_of_neg hd, List.takeWhile_cons_of_neg hd, List.takeWhile_cons_of_neg hd]
      exact ⟨rfl, rfl⟩

theorem scanDigits_append {s x r : List Char} {c : Char} (h : scanDigits s = some (x, c :: r)) (t : List Char) :
    scanDigits (s ++ t) = some (x, c :: (r ++ t)) := by
  cases s with
  | nil => nomatch h
  | cons d s =>
    unfold scanDigits at h ⊢
    simp only [List.cons_append] at h ⊢
    by_cases hd : d.isDigit = true
    · simp only [if_pos hd, Option.some.injEq, Prod.mk.injEq] at h ⊢
      obtain ⟨h1, h2⟩ := dropWhile_append h.2 t
      rw [h1, h2]
      exact ⟨h.1, rfl⟩
    · simp only [if_neg hd] at h
      nomatch h

/-- A character at which a number ends. -/
def IsDelim (c : Char) : Prop := c.isDigit = false ∧ c ≠ '.' ∧ c ≠ 'e' ∧ c ≠ 'E' ∧ c ≠ '+' ∧ c ≠ '-'

theorem isDelim_of_ends {r : List Char} (h : Json.Ends r) : ∃ c r', r = c :: r' ∧ IsDelim c := by
  obtain ⟨c, r', rfl, hc⟩ := h
  refine ⟨c, r', rfl, ?_⟩
  rcases hc with hc | rfl | rfl | rfl
  · simp only [Json.isGap, Bool.or_eq_true, decide_eq_true_eq] at hc
    rcases hc with ((rfl | rfl) | rfl) | rfl <;> exact ⟨by decide, by decide, by decide, by decide, by decide, by decide⟩
  · exact ⟨by decide, by decide, by decide, by decide, by decide, by decide⟩
  · exact ⟨by decide, by decide, by decide, by decide, by decide, by decide⟩
  · exact ⟨by decide, by decide, by decide, by decide, by decide, by decide⟩

theorem scanSign_append {s : List Char} (hs : s ≠ []) (t : List Char) :
    scanSign (s ++ t) = ((scanSign s).1, (scanSign s).2 ++ t) := by
  cases s with
  | nil => exact absurd rfl hs
  | cons c s =>
    simp only [scanSign, List.cons_append]
    split_ifs <;> rfl

/-- What is left after the exponent begins with a delimiter, so the exponent does not go on, and neither does the fraction. -/
theorem scanExp_append {s r : List Char} {e : Option (Bool × List Char)} {c : Char} (h : scanExp s = (e, c :: r))
    (hc : IsDelim c) (t : List Char) :
    scanExp (s ++ t) = (e, c :: (r ++ t)) ∧ ∃ d s', s = d :: s' ∧ d ≠ '.' ∧ d.isDigit = false := by
  cases s with
  | nil => nomatch h
  | cons d s =>
    unfold scanExp at h ⊢
    simp only [List.cons_append]
    by_cases hd : d = 'e' ∨ d = 'E'
    · have hdot : d ≠ '.' ∧ d.isDigit = false := by rcases hd with rfl | rfl <;> decide
      refine ⟨?_, d, s, rfl, hdot⟩
      simp only [if_pos hd] at h ⊢
      cases hx : scanDigits (scanSign s).2 with
      | none =>
        rw [hx] at h
        simp only [Prod.mk.injEq, List.cons.injEq] at h
        obtain ⟨-, rfl, -⟩ := h
        rcases hd with hd | hd
        · exact absurd hd hc.2.2.1
        · exact absurd hd hc.2.2.2.1
      | some x =>
        obtain ⟨ds, r'⟩ := x
        rw [hx] at h
        simp only [Prod.mk.injEq] at h
        obtain ⟨rfl, rfl⟩ := h
        have hs : s ≠ [] := by
          rintro rfl
          nomatch hx
        rw [scanSign_append hs]
        simp only [scanDigits_append hx t]
    · simp only [if_neg hd, Prod.mk.injEq, List.cons.injEq] at h ⊢
      obtain ⟨rfl, rfl, rfl⟩ := h
      exact ⟨⟨rfl, rfl, rfl⟩, _, _, ⟨rfl, rfl⟩, hc.2.1, hc.1⟩

theorem scanFrac_append {s r : List Char} {f : Option (List Char)} {c : Char} (h : scanFrac s = (f, c :: r)) (hc : c ≠ '.')
    (hd : c.isDigit = false) (t : List Char) :
    scanFrac (s ++ t) = (f, c :: (r ++ t)) ∧ ∃ d s', s = d :: s' ∧ d.isDigit = false := by
  cases s with
  | nil => nomatch h
  | cons d s =>
    unfold scanFrac at h ⊢
    simp only [List.cons_append]
    by_cases hdot : d = '.'
    · refine ⟨?_, d, s, rfl, by rw [hdot]; decide⟩
      simp only [if_pos hdot] at h ⊢
      cases hx : scanDigits s with
      | none =>
        rw [hx] at h
        simp only [Prod.mk.injEq, List.cons.injEq] at h
        exact absurd (h.2.1 ▸ hdot) hc
      | some x =>
        obtain ⟨ds, r'⟩ := x
        rw [hx] at h
        simp only [Prod.mk.injEq] at h
        obtain ⟨rfl, rfl⟩ := h
        simp only [scanDigits_append hx t]
    · simp only [if_neg hdot, Prod.mk.injEq, List.cons.injEq] at h ⊢
      obtain ⟨rfl, rfl, rfl⟩ := h
      exact ⟨⟨rfl, rfl, rfl⟩, _, _, ⟨rfl, rfl⟩, hd⟩

theorem scanInt_append {s x r : List Char} {c : Char} (h : scanInt s = some (x, c :: r)) (t : List Char) :
    scanInt (s ++ t) = some (x, c :: (r ++ t)) := by
  cases s with
  | nil => nomatch h
  | cons d s =>
    unfold scanInt at h ⊢
    simp only [List.cons_append] at h ⊢
    by_cases hzero : d = '0'
    · simp only [if_pos hzero, Option.some.injEq, Prod.mk.injEq] at h ⊢
      exact ⟨h.1, by rw [h.2]; rfl⟩
    by_cases hd : d.isDigit = true
    · simp only [if_neg hzero, if_pos hd, Option.some.injEq, Prod.mk.injEq] at h ⊢
      obtain ⟨h1, h2⟩ := dropWhile_append h.2 t
      rw [h1, h2]
      exact ⟨h.1, rfl⟩
    · simp only [if_neg hzero, if_neg hd] at h
      nomatch h

theorem scanMag_append {neg : Bool} {s r : List Char} {l : NumLit} (h : scanMag neg s = some (l, r)) (hr : Json.Ends r)
    (t : List Char) : scanMag neg (s ++ t) = some (l, r ++ t) := by
  obtain ⟨c, r', rfl, hc⟩ := isDelim_of_ends hr
  unfold scanMag at h ⊢
  obtain ⟨⟨i, s₁⟩, hi, h⟩ := Option.map_eq_some_iff.1 h
  simp only [Prod.mk.injEq] at h
  obtain ⟨rfl, hrest⟩ := h
  obtain ⟨hexp, d, s₃, hs₃, hdot, hdigit⟩ := scanExp_append (s := (scanFrac s₁).2) (Prod.ext rfl hrest) hc t
  obtain ⟨hfrac, d', s₄, rfl, -⟩ := scanFrac_append (s := s₁) (Prod.ext rfl hs₃) hdot hdigit t
  rw [scanInt_append hi t]
  have hrest' : (scanFrac (d' :: s₄)).2 ++ t = d :: (s₃ ++ t) := by
    rw [hs₃]
    rfl
  rw [hrest'] at hexp
  simp only [List.cons_append] at hfrac
  simp only [Option.map_some, hfrac, hexp]
  rfl

theorem scan_append {s r : List Char} {l : NumLit} (h : scan s = some (l, r)) (hr : Json.Ends r) (t : List Char) :
    scan (s ++ t) = some (l, r ++ t) := by
  cases s with
  | nil => nomatch h
  | cons c s =>
    unfold scan at h ⊢
    simp only [List.cons_append]
    by_cases hc : c = '-'
    · simp only [if_pos hc] at h ⊢
      exact scanMag_append h hr t
    · simp only [if_neg hc] at h ⊢
      exact scanMag_append h hr t

theorem scanDigits_lt {s x r : List Char} (h : scanDigits s = some (x, r)) : r.length < s.length := by
  cases s with
  | nil => nomatch h
  | cons d s =>
    unfold scanDigits at h
    by_cases hd : d.isDigit = true
    · simp only [if_pos hd, Option.some.injEq, Prod.mk.injEq] at h
      rw [← h.2]
      exact Nat.lt_succ_of_le (List.dropWhile_suffix _).length_le
    · simp only [if_neg hd] at h
      nomatch h

theorem scanInt_lt {s x r : List Char} (h : scanInt s = some (x, r)) : r.length < s.length := by
  cases s with
  | nil => nomatch h
  | cons d s =>
    unfold scanInt at h
    by_cases hzero : d = '0'
    · simp only [if_pos hzero, Option.some.injEq, Prod.mk.injEq] at h
      rw [← h.2]
      exact Nat.lt_succ_self _
    by_cases hd : d.isDigit = true
    · simp only [if_neg hzero, if_pos hd, Option.some.injEq, Prod.mk.injEq] at h
      rw [← h.2]
      exact Nat.lt_succ_of_le (List.dropWhile_suffix _).length_le
    · simp only [if_neg hzero, if_neg hd] at h
      nomatch h

theorem scanFrac_le (s : List Char) : (scanFrac s).2.length ≤ s.length := by
  cases s with
  | nil => exact le_rfl
  | cons c s =>
    unfold scanFrac
    simp only []
    split_ifs
    · split
      · rename_i x hx
        exact (scanDigits_lt (x := x.1) (r := x.2) hx).le.trans (Nat.le_succ _)
      · exact le_rfl
    · exact le_rfl

theorem scanSign_le (s : List Char) : (scanSign s).2.length ≤ s.length := by
  cases s with
  | nil => exact le_rfl
  | cons c s =>
    unfold scanSign
    simp only []
    split_ifs
    · exact Nat.le_succ _
    · exact Nat.le_succ _
    · exact le_rfl

theorem scanExp_le (s : List Char) : (scanExp s).2.length ≤ s.length := by
  cases s with
  | nil => exact le_rfl
  | cons c s =>
    unfold scanExp
    simp only []
    split_ifs
    · split
      · rename_i x hx
        have h1 := scanDigits_lt (x := x.1) (r := x.2) hx
        have h2 := scanSign_le s
        simp only [List.length_cons]
        omega
      · exact le_rfl
    · exact le_rfl

theorem scanMag_lt {neg : Bool} {s r : List Char} {l : NumLit} (h : scanMag neg s = some (l, r)) : r.length < s.length := by
  unfold scanMag at h
  obtain ⟨⟨i, s₁⟩, hi, h⟩ := Option.map_eq_some_iff.1 h
  cases h
  have h1 := scanInt_lt hi
  have h2 := scanFrac_le s₁
  have h3 := scanExp_le (scanFrac s₁).2
  simp only
  omega

theorem scan_lt {s r : List Char} {l : NumLit} (h : scan s = some (l, r)) : r.length < s.length := by
  cases s with
  | nil => nomatch h
  | cons c s =>
    unfold scan at h
    by_cases hc : c = '-'
    · simp only [if_pos hc] at h
      exact (scanMag_lt h).trans (Nat.lt_succ_self _)
    · simp only [if_neg hc] at h
      exact scanMag_lt h

/-! ## Scanning what was written -/

/-- A literal in the form of the syntax: no zero in front of other digits, no empty fraction and no empty exponent. -/
structure Strict (l : NumLit) : Prop extends WF l where
  lead : l.int = ['0'] ∨ ∃ c ds, l.int = c :: ds ∧ c ≠ '0'
  frac_ne : ∀ ds ∈ l.frac, ds ≠ []
  exp_ne : ∀ e ∈ l.exp, e.2 ≠ []

theorem dropWhile_run {P : Char → Bool} {a r : List Char} (ha : ∀ c ∈ a, P c = true) (hr : Text.Stops P r) :
    (a ++ r).dropWhile P = r := by
  rw [List.dropWhile_append_of_pos ha]
  cases r with
  | nil => rfl
  | cons c r => rw [List.dropWhile_cons_of_neg (by simp [(Text.stops_cons P c r).1 hr])]

theorem scanDigits_run {a r : List Char} (ha : ∀ c ∈ a, c.isDigit = true) (hne : a ≠ []) (hr : Text.Stops Char.isDigit r) :
    scanDigits (a ++ r) = some (a, r) := by
  cases a with
  | nil => exact absurd rfl hne
  | cons c a =>
    have ha' : ∀ d ∈ a, d.isDigit = true := fun d hd => ha d (List.mem_cons_of_mem _ hd)
    simp only [scanDigits, List.cons_append, ha c List.mem_cons_self, if_true, dropWhile_run ha' hr, Text.takeWhile_run ha' hr]

/-- The text ends, or goes on with a delimiter. -/
def Delimited (r : List Char) : Prop := ∀ c ∈ r.head?, IsDelim c

theorem Delimited.stops {r : List Char} (h : Delimited r) : Text.Stops Char.isDigit r := fun c hc => (h c hc).1

theorem scanExp_render {l : NumLit} (h : l.Strict) {r : List Char} (hr : Delimited r) :
    scanExp (l.renderExp ++ r) = (l.exp, r) := by
  unfold renderExp
  cases he : l.exp with
  | none =>
    cases r with
    | nil => rfl
    | cons c r =>
      obtain ⟨-, -, h1, h2, -⟩ := hr c rfl
      simp [scanExp, h1, h2]
  | some e =>
    obtain ⟨n, ds⟩ := e
    have hds := scanDigits_run (h.exp_digit _ he) (h.exp_ne _ he) hr.stops
    cases n <;> simp [scanExp, scanSign, hds]

theorem scanFrac_render {l : NumLit} (h : l.Strict) {r : List Char} (hr : Delimited r) :
    scanFrac (l.renderFrac ++ (l.renderExp ++ r)) = (l.frac, l.renderExp ++ r) := by
  have hstops : Text.Stops Char.isDigit (l.renderExp ++ r) ∧ ∀ c ∈ (l.renderExp ++ r).head?, c ≠ '.' := by
    unfold renderExp
    split
    · exact ⟨hr.stops, fun c hc => (hr c hc).2.1⟩
    · simp
  unfold renderFrac
  cases hf : l.frac with
  | none =>
    cases hrest : l.renderExp ++ r with
    | nil => simp [scanFrac]
    | cons c w =>
      have hc := hstops.2 c (by rw [hrest]; rfl)
      simp [scanFrac, hc]
  | some ds =>
    have hds := scanDigits_run (h.frac_digit _ hf) (h.frac_ne _ hf) hstops.1
    simp [scanFrac, hds]

theorem scanInt_render {l : NumLit} (h : l.Strict) {r : List Char} (hr : Text.Stops Char.isDigit r) :
    scanInt (l.int ++ r) = some (l.int, r) := by
  rcases h.lead with hz | ⟨c, ds, hc, hne⟩
  · rw [hz]
    rfl
  · have hd := h.int_digit
    rw [hc] at hd ⊢
    have hds : ∀ d ∈ ds, d.isDigit = true := fun d hd' => hd d (List.mem_cons_of_mem _ hd')
    simp only [scanInt, List.cons_append, hne, if_false, hd c List.mem_cons_self, if_true, dropWhile_run hds hr,
      Text.takeWhile_run hds hr]

/-- A literal is scanned from its text. -/
theorem scan_render {l : NumLit} (h : l.Strict) {r : List Char} (hr : Delimited r) : scan (l.render ++ r) = some (l, r) := by
  have hmag : scanMag l.neg (l.int ++ (l.renderFrac ++ (l.renderExp ++ r))) = some (l, r) := by
    have hstops : Text.Stops Char.isDigit (l.renderFrac ++ (l.renderExp ++ r)) := by
      unfold renderFrac renderExp
      split
      · split
        · exact hr.stops
        · simp
      · simp
    unfold scanMag
    rw [scanInt_render h hstops, Option.map_some, scanFrac_render h hr]
    simp only [scanExp_render h hr]
  unfold render
  cases hn : l.neg with
  | true =>
    rw [hn] at hmag
    simp [scan, hmag]
  | false =>
    rw [hn] at hmag
    obtain ⟨c, ds, hc⟩ := List.exists_cons_of_ne_nil h.int_ne
    have hne : c ≠ '-' := by
      rintro rfl
      have := h.int_digit '-' (by simp [hc])
      revert this
      decide
    rw [hc, List.cons_append] at hmag
    simp [scan, hc, hne, hmag]

/-! ### The literals of numbers -/

/-- The digits of a positive number do not begin with a zero. -/
theorem toDigits_lead {n : ℕ} (hn : 0 < n) : ∃ c ds, Nat.toDigits 10 n = c :: ds ∧ c ≠ '0' := by
  induction n using Nat.strong_induction_on with
  | _ n ih =>
    by_cases h : n < 10
    · rw [Nat.toDigits_of_lt_base h]
      refine ⟨n.digitChar, [], rfl, ?_⟩
      have hall : ∀ k, k < 10 → 0 < k → k.digitChar ≠ '0' := by decide
      exact hall n h hn
    · rw [Nat.toDigits_of_base_le (by norm_num) (not_lt.1 h)]
      obtain ⟨c, ds, hc, hne⟩ := ih (n / 10) (by omega) (by omega)
      exact ⟨c, ds ++ [(n % 10).digitChar], by rw [hc]; rfl, hne⟩

theorem strict_ofInt (n : ℤ) : (ofInt n).Strict := by
  refine { wf_ofInt n with lead := ?_, frac_ne := by simp [ofInt], exp_ne := by simp [ofInt] }
  by_cases h : n = 0
  · left
    rw [h]
    rfl
  · exact .inr (toDigits_lead (by omega))

end NumLit

namespace Binary64

theorem strict_pyRepr (x : Binary64) : x.pyRepr.Strict := by
  have hp := point_def x.mag
  have hexpNe : ∀ e : ℤ, ∀ w : ℕ, List.replicate (w - (Nat.toDigits 10 e.natAbs).length) '0' ++ Nat.toDigits 10 e.natAbs ≠ [] :=
    fun e w => List.append_ne_nil_of_right_ne_nil _ Nat.toDigits_ne_nil
  by_cases h : x.mag = 0
  · have hform : x.pyRepr = NumLit.whole x.neg ['0'] 0 (some ['0']) := by simp [pyRepr, h]
    exact { x.wf_pyRepr with
      lead := .inl (by rw [hform]; rfl)
      frac_ne := by rw [hform]; simp [NumLit.whole]
      exp_ne := by rw [hform]; simp [NumLit.whole] }
  obtain ⟨c, ds, hc, hne⟩ := NumLit.toDigits_lead (shortest_digits_pos x.isDouble (mag_pos h))
  have hwf := x.wf_pyRepr
  simp only [pyRepr, h, if_false] at hwf ⊢
  split_ifs at hwf ⊢ with h1 h2 h3
  · refine { hwf with lead := .inr ⟨c, [], by simp [NumLit.scientific, hc], hne⟩, frac_ne := ?_, exp_ne := ?_ }
    · simp only [NumLit.scientific]
      split_ifs with hlen
      · simp
      · intro ds' hds'
        rw [← Option.some.inj hds', Ne, List.drop_eq_nil_iff]
        exact hlen
    · intro e he
      rw [← Option.some.inj he]
      exact hexpNe _ _
  · refine { hwf with lead := .inl rfl, frac_ne := ?_, exp_ne := by simp [NumLit.pointBefore] }
    intro ds' hds'
    rw [← Option.some.inj hds']
    exact List.append_ne_nil_of_right_ne_nil _ Nat.toDigits_ne_nil
  · exact { hwf with
      lead := .inr ⟨c, ds ++ List.replicate (shortest x.mag).2.toNat '0', by
        simp only [NumLit.whole, hc, List.cons_append], hne⟩
      frac_ne := by simp [NumLit.whole]
      exp_ne := by simp [NumLit.whole] }
  · have hlen : 0 < (Nat.toDigits 10 (shortest x.mag).1).length := Nat.length_toDigits_pos
    refine { hwf with lead := .inr ⟨c, ds.take ((point x.mag).toNat - 1), ?_, hne⟩, frac_ne := ?_, exp_ne := by simp [NumLit.pointInside] }
    · obtain ⟨k, hk⟩ : ∃ k, (point x.mag).toNat = k + 1 := ⟨(point x.mag).toNat - 1, by omega⟩
      simp only [NumLit.pointInside, hc, hk, List.take_succ_cons, Nat.add_sub_cancel]
    · intro ds' hds'
      rw [← Option.some.inj hds', Ne, List.drop_eq_nil_iff]
      omega

end Binary64

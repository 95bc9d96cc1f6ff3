import Keirin.Lib.Json

/-!
# Reading documents

The text of a document with a gap after each comma and colon, and the reader of such texts. A text that was cut off is not read
as anything (`read_cut`): once the reader has found the end of an object, an array or a text, it does not matter what comes
after.
-/

namespace Json

variable {ν : Type}

/-! ## Writing -/

section Writing

variable (gap : List Char) (numText : ν → List Char)

mutual

/-- The text of a document, with a gap after each comma and colon. -/
def spaced : Json ν → List Char
  | null => ['n', 'u', 'l', 'l']
  | bool true => ['t', 'r', 'u', 'e']
  | bool false => ['f', 'a', 'l', 's', 'e']
  | num n => numText n
  | str s => quote s
  | arr xs => '[' :: spacedList xs
  | obj fs => '{' :: spacedFields fs

/-- The elements of an array, up to the closing bracket. -/
def spacedList : List (Json ν) → List Char
  | [] => [']']
  | [x] => spaced x ++ [']']
  | x :: y :: xs => spaced x ++ ',' :: (gap ++ spacedList (y :: xs))

/-- The fields of an object, up to the closing brace. -/
def spacedFields : List (String × Json ν) → List Char
  | [] => ['}']
  | [(k, x)] => quote k ++ ':' :: (gap ++ (spaced x ++ ['}']))
  | (k, x) :: f :: fs => quote k ++ ':' :: (gap ++ (spaced x ++ ',' :: (gap ++ spacedFields (f :: fs))))

end

attribute [grind =] spaced spacedList spacedFields

end Writing

/-! ## Reading -/

/-- The blanks between the parts of a text. -/
def isGap (c : Char) : Bool := c = ' ' || c = '\t' || c = '\n' || c = '\r'

def skipGap (s : List Char) : List Char := s.dropWhile isGap

/-- The value of a hexadecimal digit. -/
def hexValue (c : Char) : Option Nat :=
  if c.isDigit then some (c.toNat - 48)
  else if 'a' ≤ c ∧ c ≤ 'f' then some (c.toNat - 87)
  else if 'A' ≤ c ∧ c ≤ 'F' then some (c.toNat - 55)
  else none

/-- The number of four hexadecimal digits. -/
def hex4 (a b c d : Char) : Option Nat := do
  return 4096 * (← hexValue a) + 256 * (← hexValue b) + 16 * (← hexValue c) + (← hexValue d)

/-- The character after a backslash that stands for another. -/
def shortEscape (c : Char) : Option Char :=
  if c = '"' then some '"'
  else if c = '\\' then some '\\'
  else if c = '/' then some '/'
  else if c = 'b' then some '\x08'
  else if c = 'f' then some '\x0c'
  else if c = 'n' then some '\n'
  else if c = 'r' then some '\r'
  else if c = 't' then some '\t'
  else none

/-- A text behind its opening quotation mark, up to the closing one. Half of a surrogate pair is no character. -/
def readString : List Char → Option (List Char × List Char)
  | [] => none
  | c :: s =>
    if c = '"' then some ([], s)
    else if c = '\\' then
      match s with
      | [] => none
      | e :: s =>
        if e = 'u' then
          match s with
          | a :: b :: c :: d :: s =>
            match hex4 a b c d with
            | none => none
            | some n =>
              if 0xd800 ≤ n ∧ n ≤ 0xdbff then
                match s with
                | '\\' :: 'u' :: a :: b :: c :: d :: s =>
                  match hex4 a b c d with
                  | none => none
                  | some m =>
                    if 0xdc00 ≤ m ∧ m ≤ 0xdfff then
                      (readString s).map fun x => (Char.ofNat (0x10000 + (n - 0xd800) * 1024 + (m - 0xdc00)) :: x.1, x.2)
                    else none
                | _ => none
              else if 0xdc00 ≤ n ∧ n ≤ 0xdfff then none
              else (readString s).map fun x => (Char.ofNat n :: x.1, x.2)
          | _ => none
        else
          match shortEscape e with
          | none => none
          | some c => (readString s).map fun x => (c :: x.1, x.2)
    else if c.toNat < 32 then none
    else (readString s).map fun x => (c :: x.1, x.2)

/-- The next character behind the gap, which must be `c`. -/
def expect (c : Char) (s : List Char) : Option (List Char) :=
  match skipGap s with
  | [] => none
  | d :: r => if d = c then some r else none

/-- What follows an element: a comma, or the bracket that closes the list. -/
def readDelim (close : Char) (s : List Char) : Option (Bool × List Char) :=
  match expect ',' s with
  | some r => some (true, r)
  | none => (expect close s).map fun r => (false, r)

/-- The names of the values that are not written otherwise, without their first letter. -/
def name (c : Char) : Option (List Char × Json ν) :=
  if c = 'n' then some (['u', 'l', 'l'], null)
  else if c = 't' then some (['r', 'u', 'e'], bool true)
  else if c = 'f' then some (['a', 'l', 's', 'e'], bool false)
  else none

section Reading

variable (scan : List Char → Option (ν × List Char))

mutual

/-- A value, and the text after it; `scan` reads a number. `fuel` counts the steps that are left; more of
them than twice the length of the text do not run out (`readValue_fuel`). -/
def readValue : (fuel : Nat) → List Char → Option (Json ν × List Char)
  | 0, _ => none
  | fuel + 1, s =>
    match skipGap s with
    | [] => none
    | c :: s =>
      if c = '"' then (readString s).map fun x => (.str (String.ofList x.1), x.2)
      else if c = '[' then
        match expect ']' s with
        | some r => some (.arr [], r)
        | none => (readItems fuel s).map fun x => (.arr x.1, x.2)
      else if c = '{' then
        match expect '}' s with
        | some r => some (.obj [], r)
        | none => (readFields fuel s).map fun x => (.obj (Dict.update [] x.1), x.2)
      else
        match name c with
        | some (rest, v) => (s.dropPrefix? rest).map fun r => (v, r)
        | none => (scan (c :: s)).map fun x => (.num x.1, x.2)

/-- The elements of an array, of which there is at least one, up to the closing bracket. -/
def readItems : (fuel : Nat) → List Char → Option (List (Json ν) × List Char)
  | 0, _ => none
  | fuel + 1, s =>
    (readValue fuel s).bind fun x =>
      (readDelim ']' x.2).bind fun d =>
        if d.1 then (readItems fuel d.2).map fun xs => (x.1 :: xs.1, xs.2) else some ([x.1], d.2)

/-- The fields of an object, of which there is at least one, up to the closing brace. -/
def readFields : (fuel : Nat) → List Char → Option (List (String × Json ν) × List Char)
  | 0, _ => none
  | fuel + 1, s =>
    match skipGap s with
    | [] => none
    | c :: s =>
      if c = '"' then
        (readString s).bind fun k =>
          (expect ':' k.2).bind fun s =>
            (readValue fuel s).bind fun x =>
              (readDelim '}' x.2).bind fun d =>
                if d.1 then (readFields fuel d.2).map fun fs => ((String.ofList k.1, x.1) :: fs.1, fs.2)
                else some ([(String.ofList k.1, x.1)], d.2)
      else none

end

/-- A whole text: one value, with nothing but blanks around it. -/
def read (s : List Char) : Option (Json ν) :=
  match readValue scan (2 * s.length + 1) s with
  | some (v, r) => if skipGap r = [] then some v else none
  | none => none

end Reading

/-! ## What comes after

Once something was read, it does not matter how the text goes on. -/

theorem skipGap_append {s r : List Char} {c : Char} (h : skipGap s = c :: r) (t : List Char) :
    skipGap (s ++ t) = c :: (r ++ t) := by
  induction s with
  | nil => nomatch h
  | cons d s ih =>
    unfold skipGap at h ih ⊢
    rw [List.cons_append]
    by_cases hd : isGap d = true
    · rw [List.dropWhile_cons_of_pos hd] at h ⊢
      exact ih h
    · rw [List.dropWhile_cons_of_neg hd] at h ⊢
      cases h
      rfl

theorem skipGap_lt {s r : List Char} {c : Char} (h : skipGap s = c :: r) : r.length < s.length := by
  have hle := (List.dropWhile_suffix isGap (l := s)).length_le
  unfold skipGap at h
  rw [h] at hle
  exact hle

/-- A text behind its opening quotation mark does not depend on what follows the closing one. -/
theorem readString_append {s x r : List Char} (h : readString s = some (x, r)) (t : List Char) :
    readString (s ++ t) = some (x, r ++ t) := by
  fun_induction readString s generalizing x r with
  | case1 => nomatch h
  | case2 s =>
    cases h
    unfold readString
    simp
  | case6 a b c d n hn hhigh a' b' c' d' s m hm hlow _ ih =>
    obtain ⟨y, hy, hx⟩ := Option.map_eq_some_iff.1 h
    cases hx
    unfold readString
    simp [hn, hhigh, hm, hlow, ih hy]
  | case10 a b c d s n hn hhigh hlow _ ih =>
    obtain ⟨y, hy, hx⟩ := Option.map_eq_some_iff.1 h
    cases hx
    unfold readString
    simp [hn, hhigh, hlow, ih hy]
  | case13 e s he c hc _ ih =>
    obtain ⟨y, hy, hx⟩ := Option.map_eq_some_iff.1 h
    cases hx
    unfold readString
    simp [he, hc, ih hy]
  | case15 c s hquote hslash hcontrol ih =>
    obtain ⟨y, hy, hx⟩ := Option.map_eq_some_iff.1 h
    cases hx
    unfold readString
    simp [hquote, hslash, hcontrol, ih hy]
  | _ => nomatch h

theorem readString_lt {s x r : List Char} (h : readString s = some (x, r)) : r.length < s.length := by
  fun_induction readString s generalizing x r with
  | case1 => nomatch h
  | case2 s =>
    cases h
    exact Nat.lt_succ_self _
  | case6 a b c d n hn hhigh a' b' c' d' s m hm hlow _ ih =>
    obtain ⟨y, hy, hx⟩ := Option.map_eq_some_iff.1 h
    cases hx
    have := ih hy
    simp only [List.length_cons]
    omega
  | case10 a b c d s n hn hhigh hlow _ ih =>
    obtain ⟨y, hy, hx⟩ := Option.map_eq_some_iff.1 h
    cases hx
    have := ih hy
    simp only [List.length_cons]
    omega
  | case13 e s he c hc _ ih =>
    obtain ⟨y, hy, hx⟩ := Option.map_eq_some_iff.1 h
    cases hx
    have := ih hy
    simp only [List.length_cons]
    omega
  | case15 c s hquote hslash hcontrol ih =>
    obtain ⟨y, hy, hx⟩ := Option.map_eq_some_iff.1 h
    cases hx
    exact Nat.lt_succ_of_lt (ih hy)
  | _ => nomatch h

theorem expect_some {c : Char} {s r : List Char} : expect c s = some r ↔ skipGap s = c :: r := by
  unfold expect
  split
  · rename_i hs
    simp [hs]
  · rename_i d r' hs
    rw [hs]
    by_cases hc : d = c <;> simp [hc]

theorem expect_append {c : Char} {s r : List Char} (h : expect c s = some r) (t : List Char) : expect c (s ++ t) = some (r ++ t) :=
  expect_some.2 (skipGap_append (expect_some.1 h) t)

theorem expect_lt {c : Char} {s r : List Char} (h : expect c s = some r) : r.length < s.length := skipGap_lt (expect_some.1 h)

/-- Where another character comes next, it does, whatever comes after. -/
theorem expect_append_none {c : Char} {s : List Char} (h : expect c s = none) (hs : skipGap s ≠ []) (t : List Char) :
    expect c (s ++ t) = none := by
  obtain ⟨d, r, hd⟩ := List.exists_cons_of_ne_nil hs
  unfold expect at h ⊢
  rw [skipGap_append hd]
  rw [hd] at h
  by_cases hc : d = c
  · simp [hc] at h
  · simp [hc]

theorem readDelim_some {close : Char} {s r : List Char} {more : Bool} (h : readDelim close s = some (more, r)) :
    skipGap s = (if more then ',' else close) :: r := by
  unfold readDelim at h
  cases hcomma : expect ',' s with
  | some r' =>
    rw [hcomma] at h
    cases h
    exact expect_some.1 hcomma
  | none =>
    rw [hcomma] at h
    obtain ⟨r', hr', he⟩ := Option.map_eq_some_iff.1 h
    cases he
    exact expect_some.1 hr'

theorem readDelim_append {close : Char} {s r : List Char} {more : Bool} (h : readDelim close s = some (more, r)) (t : List Char) :
    readDelim close (s ++ t) = some (more, r ++ t) := by
  have hs := readDelim_some h
  unfold readDelim at h ⊢
  cases hcomma : expect ',' s with
  | some r' =>
    rw [hcomma] at h
    cases h
    rw [expect_append hcomma]
  | none =>
    rw [hcomma] at h
    obtain ⟨r', hr', he⟩ := Option.map_eq_some_iff.1 h
    cases he
    rw [expect_append_none hcomma (hs ▸ List.cons_ne_nil _ _), expect_append hr']
    rfl

theorem name_ne_num {c : Char} {rest : List Char} {v : Json ν} (h : name c = some (rest, v)) (n : ν) : v ≠ .num n := by
  unfold name at h
  split_ifs at h <;> cases h <;> simp

/-- A text that goes on with a blank, a comma or a closing bracket: there a number ends. -/
def Ends (r : List Char) : Prop := ∃ c r', r = c :: r' ∧ (isGap c = true ∨ c = ',' ∨ c = ']' ∨ c = '}')

theorem ends_of_skipGap {s r : List Char} {c : Char} (h : skipGap s = c :: r) (hc : c = ',' ∨ c = ']' ∨ c = '}') : Ends s := by
  cases s with
  | nil => nomatch h
  | cons d s =>
    by_cases hd : isGap d = true
    · exact ⟨d, s, rfl, .inl hd⟩
    · unfold skipGap at h
      rw [List.dropWhile_cons_of_neg hd] at h
      cases h
      exact ⟨_, _, rfl, .inr hc⟩

/-- What is asked of the reader of numbers: it reads something, and where the text ends a number, it stops. -/
structure ScanOk (scan : List Char → Option (ν × List Char)) : Prop where
  lt : ∀ {s r : List Char} {n : ν}, scan s = some (n, r) → r.length < s.length
  append : ∀ {s r : List Char} {n : ν}, scan s = some (n, r) → Ends r → ∀ t, scan (s ++ t) = some (n, r ++ t)

section Reading

variable {scan : List Char → Option (ν × List Char)} (hscan : ScanOk scan)

include hscan

omit hscan in
/-- What the reader of values can have read. -/
theorem readValue_some {fuel : Nat} {s r : List Char} {v : Json ν} (h : readValue scan (fuel + 1) s = some (v, r)) :
    ∃ c s', skipGap s = c :: s' ∧
      ((c = '"' ∧ ∃ x, readString s' = some (x, r) ∧ v = .str (String.ofList x)) ∨
        (c = '[' ∧ expect ']' s' = some r ∧ v = .arr []) ∨
        (c = '[' ∧ expect ']' s' = none ∧ ∃ xs, readItems scan fuel s' = some (xs, r) ∧ v = .arr xs) ∨
        (c = '{' ∧ expect '}' s' = some r ∧ v = .obj []) ∨
        (c = '{' ∧ expect '}' s' = none ∧ ∃ fs, readFields scan fuel s' = some (fs, r) ∧ v = .obj (Dict.update [] fs)) ∨
        (c ≠ '"' ∧ c ≠ '[' ∧ c ≠ '{' ∧ ∃ rest, name c = some (rest, v) ∧ s'.dropPrefix? rest = some r) ∨
        (c ≠ '"' ∧ c ≠ '[' ∧ c ≠ '{' ∧ name (ν := ν) c = none ∧ ∃ n, scan (c :: s') = some (n, r) ∧ v = .num n)) := by
  unfold readValue at h
  cases hs : skipGap s with
  | nil =>
    rw [hs] at h
    nomatch h
  | cons c s' =>
    refine ⟨c, s', rfl, ?_⟩
    rw [hs] at h
    simp only [] at h
    by_cases hquote : c = '"'
    · rw [if_pos hquote] at h
      obtain ⟨x, hx, he⟩ := Option.map_eq_some_iff.1 h
      cases he
      exact .inl ⟨hquote, x.1, hx, rfl⟩
    rw [if_neg hquote] at h
    by_cases hbracket : c = '['
    · rw [if_pos hbracket] at h
      cases hclose : expect ']' s' with
      | some r' =>
        rw [hclose] at h
        cases h
        exact .inr (.inl ⟨hbracket, rfl, rfl⟩)
      | none =>
        rw [hclose] at h
        obtain ⟨x, hx, he⟩ := Option.map_eq_some_iff.1 h
        cases he
        exact .inr (.inr (.inl ⟨hbracket, rfl, x.1, hx, rfl⟩))
    rw [if_neg hbracket] at h
    by_cases hbrace : c = '{'
    · rw [if_pos hbrace] at h
      cases hclose : expect '}' s' with
      | some r' =>
        rw [hclose] at h
        cases h
        exact .inr (.inr (.inr (.inl ⟨hbrace, rfl, rfl⟩)))
      | none =>
        rw [hclose] at h
        obtain ⟨x, hx, he⟩ := Option.map_eq_some_iff.1 h
        cases he
        exact .inr (.inr (.inr (.inr (.inl ⟨hbrace, rfl, x.1, hx, rfl⟩))))
    rw [if_neg hbrace] at h
    cases hname : name (ν := ν) c with
    | some x =>
      obtain ⟨rest, w⟩ := x
      rw [hname] at h
      obtain ⟨r', hr', he⟩ := Option.map_eq_some_iff.1 h
      cases he
      exact .inr (.inr (.inr (.inr (.inr (.inl ⟨hquote, hbracket, hbrace, rest, rfl, hr'⟩)))))
    | none =>
      rw [hname] at h
      obtain ⟨x, hx, he⟩ := Option.map_eq_some_iff.1 h
      cases he
      exact .inr (.inr (.inr (.inr (.inr (.inr ⟨hquote, hbracket, hbrace, rfl, x.1, hx, rfl⟩)))))

omit hscan in
/-- What the reader of elements can have read. -/
theorem readItems_some {fuel : Nat} {s r : List Char} {xs : List (Json ν)} (h : readItems scan (fuel + 1) s = some (xs, r)) :
    ∃ x s₁ more s₂ ys, readValue scan fuel s = some (x, s₁) ∧ readDelim ']' s₁ = some (more, s₂) ∧ xs = x :: ys ∧
      if more then readItems scan fuel s₂ = some (ys, r) else ys = [] ∧ s₂ = r := by
  unfold readItems at h
  obtain ⟨⟨x, s₁⟩, hx, h⟩ := Option.bind_eq_some_iff.1 h
  obtain ⟨⟨more, s₂⟩, hd, h⟩ := Option.bind_eq_some_iff.1 h
  cases more with
  | false =>
    cases h
    exact ⟨x, s₁, false, _, [], hx, hd, rfl, rfl, rfl⟩
  | true =>
    obtain ⟨ys, hys, he⟩ := Option.map_eq_some_iff.1 h
    cases he
    exact ⟨x, s₁, true, s₂, ys.1, hx, hd, rfl, hys⟩

omit hscan in
/-- What the reader of fields can have read. -/
theorem readFields_some {fuel : Nat} {s r : List Char} {fs : List (String × Json ν)}
    (h : readFields scan (fuel + 1) s = some (fs, r)) :
    ∃ s₁ k s₂ s₃ x s₄ more s₅ gs, skipGap s = '"' :: s₁ ∧ readString s₁ = some (k, s₂) ∧ expect ':' s₂ = some s₃ ∧
      readValue scan fuel s₃ = some (x, s₄) ∧ readDelim '}' s₄ = some (more, s₅) ∧ fs = (String.ofList k, x) :: gs ∧
      if more then readFields scan fuel s₅ = some (gs, r) else gs = [] ∧ s₅ = r := by
  unfold readFields at h
  cases hs : skipGap s with
  | nil =>
    rw [hs] at h
    nomatch h
  | cons c s₁ =>
    rw [hs] at h
    simp only [] at h
    by_cases hquote : c = '"'
    · rw [if_pos hquote] at h
      obtain ⟨⟨k, s₂⟩, hk, h⟩ := Option.bind_eq_some_iff.1 h
      obtain ⟨s₃, hcolon, h⟩ := Option.bind_eq_some_iff.1 h
      obtain ⟨⟨x, s₄⟩, hx, h⟩ := Option.bind_eq_some_iff.1 h
      obtain ⟨⟨more, s₅⟩, hd, h⟩ := Option.bind_eq_some_iff.1 h
      rw [hquote]
      cases more with
      | false =>
        cases h
        exact ⟨s₁, k, s₂, s₃, x, s₄, false, _, [], rfl, hk, hcolon, hx, hd, rfl, rfl, rfl⟩
      | true =>
        obtain ⟨gs, hgs, he⟩ := Option.map_eq_some_iff.1 h
        cases he
        exact ⟨s₁, k, s₂, s₃, x, s₄, true, s₅, gs.1, rfl, hk, hcolon, hx, hd, rfl, hgs⟩
    · rw [if_neg hquote] at h
      nomatch h

/-- What is read is a proper part of the text. -/
theorem read_lt (fuel : Nat) :
    (∀ {s r : List Char} {v : Json ν}, readValue scan fuel s = some (v, r) → r.length < s.length) ∧
      (∀ {s r : List Char} {xs : List (Json ν)}, readItems scan fuel s = some (xs, r) → r.length < s.length) ∧
      ∀ {s r : List Char} {fs : List (String × Json ν)}, readFields scan fuel s = some (fs, r) → r.length < s.length := by
  induction fuel with
  | zero => exact ⟨fun h => (nomatch h), fun h => (nomatch h), fun h => (nomatch h)⟩
  | succ fuel ih =>
    obtain ⟨hvalue, hitems, hfields⟩ := ih
    refine ⟨fun {s r v} h => ?_, fun {s r xs} h => ?_, fun {s r fs} h => ?_⟩
    · obtain ⟨c, s', hs, h⟩ := readValue_some h
      have hlt := skipGap_lt hs
      rcases h with ⟨-, x, hx, -⟩ | ⟨-, hc, -⟩ | ⟨-, -, xs, hxs, -⟩ | ⟨-, hc, -⟩ | ⟨-, -, fs, hfs, -⟩ | ⟨-, -, -, rest, -, hr⟩ |
        ⟨-, -, -, -, n, hn, -⟩
      · exact (readString_lt hx).trans hlt
      · exact (expect_lt hc).trans hlt
      · exact (hitems hxs).trans hlt
      · exact (expect_lt hc).trans hlt
      · exact (hfields hfs).trans hlt
      · obtain ⟨p, hp, -⟩ := List.dropPrefix?_eq_some_iff.1 hr
        rw [hp, List.length_append] at hlt
        omega
      · have hle := (List.dropWhile_suffix isGap (l := s)).length_le
        unfold skipGap at hs
        rw [hs] at hle
        exact (hscan.lt hn).trans_le hle
    · obtain ⟨x, s₁, more, s₂, ys, hx, hd, -, hmore⟩ := readItems_some h
      have h1 := hvalue hx
      have h2 := skipGap_lt (readDelim_some hd)
      cases more with
      | false =>
        obtain ⟨-, rfl⟩ := hmore
        omega
      | true =>
        have h3 := hitems hmore
        omega
    · obtain ⟨s₁, k, s₂, s₃, x, s₄, more, s₅, gs, hs, hk, hcolon, hx, hd, -, hmore⟩ := readFields_some h
      have h1 := skipGap_lt hs
      have h2 := readString_lt hk
      have h3 := expect_lt hcolon
      have h4 := hvalue hx
      have h5 := skipGap_lt (readDelim_some hd)
      cases more with
      | false =>
        obtain ⟨-, rfl⟩ := hmore
        omega
      | true =>
        have h6 := hfields hmore
        omega

omit hscan in
theorem readItems_ne {fuel : Nat} {s r : List Char} {xs : List (Json ν)} (h : readItems scan fuel s = some (xs, r)) :
    skipGap s ≠ [] := by
  match fuel with
  | 0 => nomatch h
  | 1 => nomatch h
  | fuel + 2 =>
    obtain ⟨x, s₁, -, -, -, hx, -⟩ := readItems_some h
    obtain ⟨c, s', hs, -⟩ := readValue_some hx
    exact hs ▸ List.cons_ne_nil _ _

omit hscan in
theorem readFields_ne {fuel : Nat} {s r : List Char} {fs : List (String × Json ν)} (h : readFields scan fuel s = some (fs, r)) :
    skipGap s ≠ [] := by
  match fuel with
  | 0 => nomatch h
  | fuel + 1 =>
    obtain ⟨s₁, -, -, -, -, -, -, -, -, hs, -⟩ := readFields_some h
    exact hs ▸ List.cons_ne_nil _ _

/-- What was read does not depend on what comes after, unless it is a number that does not end there. -/
theorem read_append (fuel : Nat) :
    (∀ {s r : List Char} {v : Json ν}, readValue scan fuel s = some (v, r) → ((∃ n, v = .num n) → Ends r) →
        ∀ t, readValue scan fuel (s ++ t) = some (v, r ++ t)) ∧
      (∀ {s r : List Char} {xs : List (Json ν)}, readItems scan fuel s = some (xs, r) →
        ∀ t, readItems scan fuel (s ++ t) = some (xs, r ++ t)) ∧
      ∀ {s r : List Char} {fs : List (String × Json ν)}, readFields scan fuel s = some (fs, r) →
        ∀ t, readFields scan fuel (s ++ t) = some (fs, r ++ t) := by
  induction fuel with
  | zero => exact ⟨fun h => (nomatch h), fun h => (nomatch h), fun h => (nomatch h)⟩
  | succ fuel ih =>
    obtain ⟨hvalue, hitems, hfields⟩ := ih
    refine ⟨fun {s r v} h hend t => ?_, fun {s r xs} h t => ?_, fun {s r fs} h t => ?_⟩
    · obtain ⟨c, s', hs, h⟩ := readValue_some h
      unfold readValue
      rw [skipGap_append hs]
      rcases h with ⟨rfl, x, hx, rfl⟩ | ⟨rfl, hc, rfl⟩ | ⟨rfl, hc, xs, hxs, rfl⟩ | ⟨rfl, hc, rfl⟩ | ⟨rfl, hc, fs, hfs, rfl⟩ |
        ⟨h1, h2, h3, rest, hrest, hr⟩ | ⟨h1, h2, h3, hname, n, hn, rfl⟩
      · simp [readString_append hx]
      · simp [expect_append hc]
      · simp [expect_append_none hc (readItems_ne hxs), hitems hxs]
      · simp [expect_append hc]
      · simp [expect_append_none hc (readFields_ne hfs), hfields hfs]
      · obtain ⟨p, hp, hpr⟩ := List.dropPrefix?_eq_some_iff.1 hr
        have hd : (s' ++ t).dropPrefix? rest = some (r ++ t) :=
          List.dropPrefix?_eq_some_iff.2 ⟨p, by rw [hp, List.append_assoc], hpr⟩
        simp [h1, h2, h3, hrest, hd]
      · have hscan' := hscan.append hn (hend ⟨n, rfl⟩) t
        rw [List.cons_append] at hscan'
        simp [h1, h2, h3, hname, hscan']
    · obtain ⟨x, s₁, more, s₂, ys, hx, hd, rfl, hmore⟩ := readItems_some h
      have hends : Ends s₁ := ends_of_skipGap (readDelim_some hd) (by cases more <;> simp)
      unfold readItems
      rw [hvalue hx (fun _ => hends), Option.bind_some, readDelim_append hd, Option.bind_some]
      cases more with
      | false =>
        obtain ⟨rfl, rfl⟩ := hmore
        rfl
      | true =>
        simp [hitems hmore]
    · obtain ⟨s₁, k, s₂, s₃, x, s₄, more, s₅, gs, hs, hk, hcolon, hx, hd, rfl, hmore⟩ := readFields_some h
      have hends : Ends s₄ := ends_of_skipGap (readDelim_some hd) (by cases more <;> simp)
      unfold readFields
      rw [skipGap_append hs]
      simp only [if_true]
      rw [readString_append hk, Option.bind_some, expect_append hcolon, Option.bind_some, hvalue hx (fun _ => hends),
        Option.bind_some, readDelim_append hd, Option.bind_some]
      cases more with
      | false =>
        obtain ⟨rfl, rfl⟩ := hmore
        rfl
      | true =>
        simp [hfields hmore]

/-- The reader does not run out of fuel. -/
theorem readValue_fuel (n : Nat) :
    (∀ {m : Nat} {s : List Char}, 2 * s.length < n → 2 * s.length < m → readValue scan n s = readValue scan m s) ∧
      (∀ {m : Nat} {s : List Char}, 2 * s.length + 1 < n → 2 * s.length + 1 < m → readItems scan n s = readItems scan m s) ∧
      ∀ {m : Nat} {s : List Char}, 2 * s.length < n → 2 * s.length < m → readFields scan n s = readFields scan m s := by
  induction n with
  | zero => exact ⟨fun h => by omega, fun h => by omega, fun h => by omega⟩
  | succ n ih =>
    obtain ⟨hvalue, hitems, hfields⟩ := ih
    refine ⟨fun {m s} hn hm => ?_, fun {m s} hn hm => ?_, fun {m s} hn hm => ?_⟩
    · obtain ⟨m, rfl⟩ : ∃ k, m = k + 1 := ⟨m - 1, by omega⟩
      unfold readValue
      cases hs : skipGap s with
      | nil => rfl
      | cons c s' =>
        have hlt := skipGap_lt hs
        simp only [hitems (m := m) (s := s') (by omega) (by omega), hfields (m := m) (s := s') (by omega) (by omega)]
    · obtain ⟨m, rfl⟩ : ∃ k, m = k + 1 := ⟨m - 1, by omega⟩
      unfold readItems
      rw [hvalue (m := m) (by omega) (by omega)]
      refine Option.bind_congr fun x hx => Option.bind_congr fun d hd => ?_
      have h1 := (read_lt hscan m).1 hx
      have h2 := skipGap_lt (readDelim_some hd)
      rw [hitems (m := m) (by omega) (by omega)]
    · obtain ⟨m, rfl⟩ : ∃ k, m = k + 1 := ⟨m - 1, by omega⟩
      unfold readFields
      cases hs : skipGap s with
      | nil => rfl
      | cons c s' =>
        have h1 := skipGap_lt hs
        simp only []
        refine if_congr Iff.rfl (Option.bind_congr fun k hk => Option.bind_congr fun s₃ hcolon => ?_) rfl
        have h2 := readString_lt hk
        have h3 := expect_lt hcolon
        rw [hvalue (m := m) (by omega) (by omega)]
        refine Option.bind_congr fun x hx => Option.bind_congr fun d hd => ?_
        have h4 := (read_lt hscan m).1 hx
        have h5 := skipGap_lt (readDelim_some hd)
        rw [hfields (m := m) (by omega) (by omega)]

/-- A text that was cut off is not read, unless it is that of a number. -/
theorem read_cut {p t : List Char} {v : Json ν} (h : readValue scan (2 * (p ++ t).length + 1) (p ++ t) = some (v, []))
    (hv : ∀ n, v ≠ .num n) (ht : t ≠ []) : read scan p = none := by
  have hlen : p.length ≤ (p ++ t).length := by
    rw [List.length_append]
    omega
  have hfuel : readValue scan (2 * p.length + 1) p = readValue scan (2 * (p ++ t).length + 1) p :=
    (readValue_fuel hscan _).1 (by omega) (by omega)
  unfold read
  rw [hfuel]
  cases hp : readValue scan (2 * (p ++ t).length + 1) p with
  | none => rfl
  | some x =>
    obtain ⟨w, r⟩ := x
    have hw : ∀ n, w ≠ .num n := by
      rintro n rfl
      obtain ⟨c, s', hs, hcase⟩ := readValue_some hp
      obtain ⟨c', s'', hs', hcase'⟩ := readValue_some h
      rw [skipGap_append hs] at hs'
      cases hs'
      obtain ⟨hquote, hbracket, hbrace, hname⟩ : c ≠ '"' ∧ c ≠ '[' ∧ c ≠ '{' ∧ name (ν := ν) c = none := by
        rcases hcase with ⟨-, x, -, he⟩ | ⟨-, -, he⟩ | ⟨-, -, xs, -, he⟩ | ⟨-, -, he⟩ | ⟨-, -, fs, -, he⟩ | ⟨-, -, -, rest, hn, -⟩ |
          ⟨h1, h2, h3, hn, -⟩
        · nomatch he
        · nomatch he
        · nomatch he
        · nomatch he
        · nomatch he
        · exact absurd rfl (name_ne_num hn n)
        · exact ⟨h1, h2, h3, hn⟩
      rcases hcase' with ⟨hc, -⟩ | ⟨hc, -⟩ | ⟨hc, -⟩ | ⟨hc, -⟩ | ⟨hc, -⟩ | ⟨-, -, -, rest, hn, -⟩ | ⟨-, -, -, -, n', -, he⟩
      · exact hquote hc
      · exact hbracket hc
      · exact hbracket hc
      · exact hbrace hc
      · exact hbrace hc
      · rw [hname] at hn
        nomatch hn
      · exact hv n' he
    have happ := (read_append hscan _).1 hp (fun ⟨n, hn⟩ => absurd hn (hw n)) t
    rw [h] at happ
    have hr := (Prod.ext_iff.1 (Option.some.inj happ)).2
    exact absurd (List.append_eq_nil_iff.1 hr.symm).2 ht

end Reading

end Json

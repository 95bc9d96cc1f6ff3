import Keirin.Lib.JsonText

/-!
# Reading what was written

The reader of documents finds in the text of a document the document itself, when its objects have each key once and its
numbers can be read. The characters of the text are those of the document's texts and keys, and ASCII.
-/

namespace Json

variable {ν : Type}

/-! ## Reading what was written -/

theorem skipGap_of_not {c : Char} (h : isGap c = false) (s : List Char) : skipGap (c :: s) = c :: s := by
  unfold skipGap
  rw [List.dropWhile_cons_of_neg (by simp [h])]

theorem expect_self {c : Char} (h : isGap c = false) (s : List Char) : expect c (c :: s) = some s :=
  expect_some.2 (skipGap_of_not h s)

theorem expect_of_ne {c d : Char} (h : isGap c = false) (hne : c ≠ d) (s : List Char) : expect d (c :: s) = none := by
  unfold expect
  rw [skipGap_of_not h]
  simp [hne]

theorem hexValue_hexDigit : ∀ n, n < 16 → hexValue (hexDigit n) = some n := by decide

theorem readString_short {e c : Char} (he : e ≠ 'u') (hc : shortEscape e = some c) (s : List Char) :
    readString ('\\' :: e :: s) = (readString s).map fun x => (c :: x.1, x.2) := by
  rw [readString.eq_def]
  simp [he, hc]

/-- A character is read back from the form it has in a text. -/
theorem readString_escapeChar (c : Char) (s : List Char) :
    readString (escapeChar c ++ s) = (readString s).map fun x => (c :: x.1, x.2) := by
  unfold escapeChar
  split_ifs with h1 h2 h3 h4 h5 h6 h7 h8
  · rw [h1]
    exact readString_short (by decide) rfl s
  · rw [h2]
    exact readString_short (by decide) rfl s
  · rw [h3]
    exact readString_short (by decide) rfl s
  · rw [h4]
    exact readString_short (by decide) rfl s
  · rw [h5]
    exact readString_short (by decide) rfl s
  · rw [h6]
    exact readString_short (by decide) rfl s
  · rw [h7]
    exact readString_short (by decide) rfl s
  · have hhigh := hexValue_hexDigit (c.toNat / 16) (by omega)
    have hlow := hexValue_hexDigit (c.toNat % 16) (by omega)
    have hzero : hexValue '0' = some 0 := by decide
    have hhex : hex4 '0' '0' (hexDigit (c.toNat / 16)) (hexDigit (c.toNat % 16)) = some c.toNat := by
      simp only [hex4, hzero, hhigh, hlow, bind, Option.bind, pure]
      congr 1
      omega
    simp only [List.cons_append, List.nil_append]
    rw [readString.eq_def]
    simp [hhex, show ¬(55296 ≤ c.toNat ∧ c.toNat ≤ 56319) by omega, show ¬(56320 ≤ c.toNat ∧ c.toNat ≤ 57343) by omega]
  · simp only [List.cons_append, List.nil_append]
    rw [readString.eq_def]
    simp [h1, h2, h8]

/-- A text is read back when its characters are. -/
theorem readString_by {esc : Char → List Char} (hesc : ∀ c s, readString (esc c ++ s) = (readString s).map fun x => (c :: x.1, x.2))
    (x r : List Char) : readString (x.flatMap esc ++ '"' :: r) = some (x, r) := by
  induction x with
  | nil =>
    rw [List.flatMap_nil, List.nil_append, readString.eq_def]
    rfl
  | cons c x ih =>
    rw [List.flatMap_cons, List.append_assoc, hesc, ih]
    rfl

mutual

/-- Whether every object of a document has each key once. -/
def keysOnce : Json ν → Bool
  | arr xs => keysOnceList xs
  | obj fs => decide (fs.map Prod.fst).Nodup && keysOnceFields fs
  | null => true
  | bool _ => true
  | num _ => true
  | str _ => true

def keysOnceList : List (Json ν) → Bool
  | [] => true
  | x :: xs => keysOnce x && keysOnceList xs

def keysOnceFields : List (String × Json ν) → Bool
  | [] => true
  | (_, x) :: fs => keysOnce x && keysOnceFields fs

end

attribute [grind =] keysOnce keysOnceList keysOnceFields

/-! ## Other escapes -/

section Escaped

variable (esc : Char → List Char) (gap : List Char) (numText : ν → List Char)

/-- A text between quotation marks, its characters escaped by `esc`. -/
def quoteBy (s : String) : List Char := '"' :: (s.toList.flatMap esc ++ ['"'])

mutual

/-- The text of a document whose texts and keys are escaped by `esc`. -/
def escaped : Json ν → List Char
  | null => ['n', 'u', 'l', 'l']
  | bool true => ['t', 'r', 'u', 'e']
  | bool false => ['f', 'a', 'l', 's', 'e']
  | num n => numText n
  | str s => quoteBy esc s
  | arr xs => '[' :: escapedList xs
  | obj fs => '{' :: escapedFields fs

def escapedList : List (Json ν) → List Char
  | [] => [']']
  | [x] => escaped x ++ [']']
  | x :: y :: xs => escaped x ++ ',' :: (gap ++ escapedList (y :: xs))

def escapedFields : List (String × Json ν) → List Char
  | [] => ['}']
  | [(k, x)] => quoteBy esc k ++ ':' :: (gap ++ (escaped x ++ ['}']))
  | (k, x) :: f :: fs => quoteBy esc k ++ ':' :: (gap ++ (escaped x ++ ',' :: (gap ++ escapedFields (f :: fs))))

end

attribute [grind =] escaped escapedList escapedFields

mutual

theorem escaped_escapeChar (v : Json ν) : escaped escapeChar gap numText v = spaced gap numText v := by
  match v with
  | .null => rfl
  | .bool true => rfl
  | .bool false => rfl
  | .num n => rfl
  | .str s => rfl
  | .arr xs => rw [escaped, spaced, escapedList_escapeChar xs]
  | .obj fs => rw [escaped, spaced, escapedFields_escapeChar fs]

theorem escapedList_escapeChar (xs : List (Json ν)) : escapedList escapeChar gap numText xs = spacedList gap numText xs := by
  match xs with
  | [] => rfl
  | [x] => rw [escapedList, spacedList, escaped_escapeChar x]
  | x :: y :: xs => rw [escapedList, spacedList, escaped_escapeChar x, escapedList_escapeChar (y :: xs)]

theorem escapedFields_escapeChar (fs : List (String × Json ν)) : escapedFields escapeChar gap numText fs = spacedFields gap numText fs := by
  match fs with
  | [] => rfl
  | [(k, x)] =>
    rw [escapedFields, spacedFields, escaped_escapeChar x]
    rfl
  | (k, x) :: f :: fs =>
    rw [escapedFields, spacedFields, escaped_escapeChar x, escapedFields_escapeChar (f :: fs)]
    rfl

end

end Escaped

/-- What is asked of the text of a number: it begins with a minus sign or a digit, and is read back where it ends. -/
structure NumOk (scan : List Char → Option (ν × List Char)) (numText : ν → List Char) (n : ν) : Prop where
  head : ∃ c w, numText n = c :: w ∧ (c = '-' ∨ c.isDigit = true)
  scan : ∀ r, r = [] ∨ Ends r → scan (numText n ++ r) = some (n, r)

section Written

variable {scan : List Char → Option (ν × List Char)} {gap : List Char} {numText : ν → List Char} {p : ν → Bool}
  {esc : Char → List Char}
  (hgap : ∀ c ∈ gap, isGap c = true) (hnum : ∀ n, p n = true → NumOk scan numText n)
  (hesc : ∀ c s, readString (esc c ++ s) = (readString s).map fun x => (c :: x.1, x.2))

include hgap in
theorem skipGap_gap (s : List Char) : skipGap (gap ++ s) = skipGap s := by
  unfold skipGap
  exact List.dropWhile_append_of_pos hgap

include hgap in
theorem readValue_gap (fuel : Nat) (s : List Char) : readValue scan fuel (gap ++ s) = readValue scan fuel s := by
  cases fuel with
  | zero => rfl
  | succ fuel =>
    unfold readValue
    rw [skipGap_gap hgap]

include hgap in
theorem readItems_gap (fuel : Nat) (s : List Char) : readItems scan fuel (gap ++ s) = readItems scan fuel s := by
  cases fuel with
  | zero => rfl
  | succ fuel =>
    unfold readItems
    rw [readValue_gap hgap]

include hgap in
theorem readFields_gap (fuel : Nat) (s : List Char) : readFields scan fuel (gap ++ s) = readFields scan fuel s := by
  cases fuel with
  | zero => rfl
  | succ fuel =>
    unfold readFields
    rw [skipGap_gap hgap]

/-- The first character of a text is that of the value, not a blank or a bracket that closes. -/
theorem head_of_digit {c : Char} (h : c = '-' ∨ c.isDigit = true) :
    isGap c = false ∧ c ≠ ']' ∧ c ≠ '}' ∧ c ≠ '"' ∧ c ≠ '[' ∧ c ≠ '{' ∧ name (ν := ν) c = none := by
  rcases h with rfl | h
  · simp [isGap, name]
  · have hne : ∀ d : Char, d.isDigit = false → c ≠ d := by
      rintro d hd rfl
      rw [hd] at h
      nomatch h
    simp [isGap, name, hne ' ' rfl, hne '\t' rfl, hne '\n' rfl, hne '\r' rfl, hne ']' rfl, hne '}' rfl, hne '"' rfl, hne '[' rfl,
      hne '{' rfl, hne 'n' rfl, hne 't' rfl, hne 'f' rfl]

theorem quoteBy_append (esc : Char → List Char) (k : String) (r : List Char) :
    quoteBy esc k ++ r = '"' :: (k.toList.flatMap esc ++ '"' :: r) := by
  simp [quoteBy]

/-- The text of a value begins with a character that is no blank and closes nothing. -/
theorem escaped_head (esc : Char → List Char) (gap : List Char) {v : Json ν} (hv : v.allNum p = true) (hnum : ∀ n, p n = true → NumOk scan numText n) :
    ∃ c w, escaped esc gap numText v = c :: w ∧ isGap c = false ∧ c ≠ ']' ∧ c ≠ '}' := by
  cases v with
  | null => exact ⟨'n', _, rfl, by decide⟩
  | bool b => cases b <;> exact ⟨_, _, rfl, by decide⟩
  | num n =>
    obtain ⟨c, w, hc, hd⟩ := (hnum n hv).head
    obtain ⟨h1, h2, h3, -⟩ := head_of_digit (ν := ν) hd
    exact ⟨c, w, hc, h1, h2, h3⟩
  | str s => exact ⟨'"', _, rfl, by decide⟩
  | arr xs => exact ⟨'[', _, rfl, by decide⟩
  | obj fs => exact ⟨'{', _, rfl, by decide⟩

theorem readDelim_comma (close : Char) (s : List Char) : readDelim close (',' :: s) = some (true, s) := by
  unfold readDelim
  rw [expect_self rfl]

theorem readDelim_close {close : Char} (hne : close ≠ ',') (hgap : isGap close = false) (s : List Char) :
    readDelim close (close :: s) = some (false, s) := by
  unfold readDelim
  rw [expect_of_ne hgap hne, expect_self hgap]
  rfl

/-- Setting keys that are new and different one by one gives the fields as they are. -/
theorem update_nil {α : Type} {fs : Dict α} (h : (fs.map Prod.fst).Nodup) : Dict.update [] fs = fs := by
  have hset : ∀ (d : Dict α) (k : String) (v : α), k ∉ d.map Prod.fst → Dict.set k v d = d ++ [(k, v)] := by
    intro d k v hk
    induction d with
    | nil => rfl
    | cons e d ih =>
      rw [List.map_cons, List.mem_cons, not_or] at hk
      rw [Dict.set, if_neg (Ne.symm hk.1), ih hk.2]
      rfl
  have happend : ∀ (fs d : Dict α), ((d ++ fs).map Prod.fst).Nodup → Dict.update d fs = d ++ fs := by
    intro fs
    induction fs with
    | nil => exact fun d _ => (List.append_nil d).symm
    | cons f fs ih =>
      intro d hd
      have hnew : f.1 ∉ d.map Prod.fst := by
        rw [List.map_append, List.map_cons] at hd
        exact fun hf => (List.nodup_append.1 hd).2.2 f.1 hf f.1 List.mem_cons_self rfl
      calc Dict.update d (f :: fs) = Dict.update (Dict.set f.1 f.2 d) fs := rfl
        _ = Dict.update (d ++ [f]) fs := by rw [hset d f.1 f.2 hnew]
        _ = d ++ [f] ++ fs := ih (d ++ [f]) (by rw [List.append_assoc]; exact hd)
        _ = d ++ f :: fs := by rw [List.append_assoc]; rfl
  exact happend fs [] h

include hgap hnum hesc

mutual

/-- A value is read back from its text, where the text ends or goes on as a list does. -/
theorem readValue_escaped (v : Json ν) (hv : v.allNum p = true) (hk : v.keysOnce = true) {n : Nat} {r : List Char}
    (hr : r = [] ∨ Ends r) (hf : 2 * (escaped esc gap numText v ++ r).length < n) :
    readValue scan n (escaped esc gap numText v ++ r) = some (v, r) := by
  obtain ⟨fuel, rfl⟩ : ∃ k, n = k + 1 := ⟨n - 1, by omega⟩
  match v with
  | .null =>
    unfold readValue
    rw [escaped, List.cons_append, skipGap_of_not rfl]
    simp [name, List.dropPrefix?]
  | .bool true =>
    unfold readValue
    rw [escaped, List.cons_append, skipGap_of_not rfl]
    simp [name, List.dropPrefix?]
  | .bool false =>
    unfold readValue
    rw [escaped, List.cons_append, skipGap_of_not rfl]
    simp [name, List.dropPrefix?]
  | .num n =>
    have hn := hnum n hv
    obtain ⟨c, w, hc, hd⟩ := hn.head
    obtain ⟨hblank, -, -, h1, h2, h3, h4⟩ := head_of_digit (ν := ν) hd
    have hscan := hn.scan r hr
    rw [hc, List.cons_append] at hscan
    unfold readValue
    rw [escaped, hc, List.cons_append, skipGap_of_not hblank]
    simp [h1, h2, h3, h4, hscan]
  | .str s =>
    unfold readValue
    rw [escaped, quoteBy_append, skipGap_of_not rfl]
    simp [readString_by hesc]
  | .arr [] =>
    unfold readValue
    rw [escaped, List.cons_append, skipGap_of_not rfl]
    simp [escapedList, expect_self (c := ']') rfl]
  | .arr (x :: xs) =>
    have hitems := readItems_escaped (x :: xs) (by simp) hv hk (n := fuel) (r := r) (by
      simp only [escaped, List.cons_append, List.length_cons] at hf
      omega)
    have hopen : expect ']' (escapedList esc gap numText (x :: xs) ++ r) = none := by
      rw [allNum, allNumList, Bool.and_eq_true] at hv
      obtain ⟨c, w, hc, hblank, hne, -⟩ := escaped_head esc gap hv.1 hnum
      obtain ⟨w', hw'⟩ : ∃ w', escapedList esc gap numText (x :: xs) = escaped esc gap numText x ++ w' := by
        cases xs with
        | nil => exact ⟨_, rfl⟩
        | cons y xs => exact ⟨_, rfl⟩
      rw [hw', hc]
      exact expect_of_ne hblank hne _
    unfold readValue
    rw [escaped, List.cons_append, skipGap_of_not rfl]
    simp [hopen, hitems]
  | .obj [] =>
    unfold readValue
    rw [escaped, List.cons_append, skipGap_of_not rfl]
    simp [escapedFields, expect_self (c := '}') rfl]
  | .obj ((k, x) :: fs) =>
    rw [keysOnce, Bool.and_eq_true, decide_eq_true_eq] at hk
    have hfields := readFields_escaped ((k, x) :: fs) (by simp) hv hk.2 (n := fuel) (r := r) (by
      simp only [escaped, List.cons_append, List.length_cons] at hf
      omega)
    have hopen : expect '}' (escapedFields esc gap numText ((k, x) :: fs) ++ r) = none := by
      cases fs with
      | nil => exact expect_of_ne (c := '"') rfl (by decide) _
      | cons f fs => exact expect_of_ne (c := '"') rfl (by decide) _
    unfold readValue
    rw [escaped, List.cons_append, skipGap_of_not rfl]
    simp [hopen, hfields, update_nil hk.1]

/-- The elements of an array are read back from their text. -/
theorem readItems_escaped (xs : List (Json ν)) (hne : xs ≠ []) (hv : allNumList p xs = true) (hk : keysOnceList xs = true)
    {n : Nat} {r : List Char} (hf : 2 * (escapedList esc gap numText xs ++ r).length + 1 < n) :
    readItems scan n (escapedList esc gap numText xs ++ r) = some (xs, r) := by
  obtain ⟨fuel, rfl⟩ : ∃ k, n = k + 1 := ⟨n - 1, by omega⟩
  match xs with
  | [] => exact absurd rfl hne
  | [x] =>
    rw [allNumList, Bool.and_eq_true] at hv
    rw [keysOnceList, Bool.and_eq_true] at hk
    have htext : escapedList esc gap numText [x] ++ r = escaped esc gap numText x ++ ']' :: r := by simp [escapedList]
    have hx := readValue_escaped x hv.1 hk.1 (n := fuel) (r := ']' :: r) (.inr ⟨']', r, rfl, by decide⟩) (by
      rw [htext] at hf
      omega)
    unfold readItems
    rw [htext, hx, Option.bind_some, readDelim_close (by decide) rfl, Option.bind_some]
    rfl
  | x :: y :: xs =>
    rw [allNumList, Bool.and_eq_true] at hv
    rw [keysOnceList, Bool.and_eq_true] at hk
    have htext : escapedList esc gap numText (x :: y :: xs) ++ r =
        escaped esc gap numText x ++ ',' :: (gap ++ (escapedList esc gap numText (y :: xs) ++ r)) := by simp [escapedList]
    rw [htext] at hf ⊢
    have hx := readValue_escaped x hv.1 hk.1 (n := fuel) (r := ',' :: (gap ++ (escapedList esc gap numText (y :: xs) ++ r)))
      (.inr ⟨',', _, rfl, by decide⟩) (by omega)
    have hxs := readItems_escaped (y :: xs) (by simp) hv.2 hk.2 (n := fuel) (r := r) (by
      simp only [List.length_append, List.length_cons] at hf ⊢
      omega)
    unfold readItems
    rw [hx, Option.bind_some, readDelim_comma, Option.bind_some, if_pos rfl, readItems_gap hgap, hxs]
    rfl

/-- The fields of an object are read back from their text. -/
theorem readFields_escaped (fs : List (String × Json ν)) (hne : fs ≠ []) (hv : allNumFields p fs = true)
    (hk : keysOnceFields fs = true) {n : Nat} {r : List Char}
    (hf : 2 * (escapedFields esc gap numText fs ++ r).length < n) :
    readFields scan n (escapedFields esc gap numText fs ++ r) = some (fs, r) := by
  obtain ⟨fuel, rfl⟩ : ∃ k, n = k + 1 := ⟨n - 1, by omega⟩
  match fs with
  | [] => exact absurd rfl hne
  | [(k, x)] =>
    rw [allNumFields, Bool.and_eq_true] at hv
    rw [keysOnceFields, Bool.and_eq_true] at hk
    have htext : escapedFields esc gap numText [(k, x)] ++ r =
        '"' :: (k.toList.flatMap esc ++ '"' :: ':' :: (gap ++ (escaped esc gap numText x ++ '}' :: r))) := by
      simp [escapedFields, quoteBy]
    rw [htext] at hf ⊢
    have hx := readValue_escaped x hv.1 hk.1 (n := fuel) (r := '}' :: r) (.inr ⟨'}', r, rfl, by decide⟩) (by
      simp only [List.length_append, List.length_cons] at hf ⊢
      omega)
    unfold readFields
    rw [skipGap_of_not rfl]
    simp only [if_true]
    rw [readString_by hesc, Option.bind_some, expect_self rfl, Option.bind_some, readValue_gap hgap, hx, Option.bind_some,
      readDelim_close (by decide) rfl, Option.bind_some]
    simp
  | (k, x) :: f :: fs =>
    rw [allNumFields, Bool.and_eq_true] at hv
    rw [keysOnceFields, Bool.and_eq_true] at hk
    have htext : escapedFields esc gap numText ((k, x) :: f :: fs) ++ r =
        '"' :: (k.toList.flatMap esc ++ '"' :: ':' ::
          (gap ++ (escaped esc gap numText x ++ ',' :: (gap ++ (escapedFields esc gap numText (f :: fs) ++ r))))) := by
      simp [escapedFields, quoteBy]
    rw [htext] at hf ⊢
    have hx := readValue_escaped x hv.1 hk.1 (n := fuel) (r := ',' :: (gap ++ (escapedFields esc gap numText (f :: fs) ++ r)))
      (.inr ⟨',', _, rfl, by decide⟩) (by
        simp only [List.length_append, List.length_cons] at hf ⊢
        omega)
    have hfs := readFields_escaped (f :: fs) (by simp) hv.2 hk.2 (n := fuel) (r := r) (by
      simp only [List.length_append, List.length_cons] at hf ⊢
      omega)
    unfold readFields
    rw [skipGap_of_not rfl]
    simp only [if_true]
    rw [readString_by hesc, Option.bind_some, expect_self rfl, Option.bind_some, readValue_gap hgap, hx, Option.bind_some,
      readDelim_comma, Option.bind_some, if_pos rfl, readFields_gap hgap, hfs]
    simp

end

/-- A document is read back from its text, however characters are escaped. -/
theorem read_escaped {v : Json ν} (hv : v.allNum p = true) (hk : v.keysOnce = true) :
    read scan (escaped esc gap numText v) = some v := by
  have h := readValue_escaped hgap hnum hesc v hv hk (n := 2 * (escaped esc gap numText v).length + 1) (r := []) (.inl rfl) (by simp)
  rw [List.append_nil] at h
  unfold read
  rw [h]
  rfl

omit hesc

/-- A value is read back from its text, where the text ends or goes on as a list does. -/
theorem readValue_spaced (v : Json ν) (hv : v.allNum p = true) (hk : v.keysOnce = true) {n : Nat} {r : List Char}
    (hr : r = [] ∨ Ends r) (hf : 2 * (spaced gap numText v ++ r).length < n) :
    readValue scan n (spaced gap numText v ++ r) = some (v, r) := by
  rw [← escaped_escapeChar] at hf ⊢
  exact readValue_escaped hgap hnum readString_escapeChar v hv hk hr hf

/-- A document is read back from its text. -/
theorem read_spaced {v : Json ν} (hv : v.allNum p = true) (hk : v.keysOnce = true) :
    read scan (spaced gap numText v) = some v := by
  rw [← escaped_escapeChar]
  exact read_escaped hgap hnum readString_escapeChar hv hk

/-- A text that is cut off is not read, unless it is that of a number. -/
theorem read_spaced_cut (hscan : ScanOk scan) {v : Json ν} (hv : v.allNum p = true) (hk : v.keysOnce = true)
    (hne : ∀ n, v ≠ .num n) {s t : List Char} (hs : spaced gap numText v = s ++ t) (ht : t ≠ []) : read scan s = none := by
  have h := readValue_spaced hgap hnum v hv hk (n := 2 * (spaced gap numText v).length + 1) (r := []) (.inl rfl) (by simp)
  rw [List.append_nil, hs] at h
  exact read_cut hscan h hne ht

end Written

/-! ## Characters -/

mutual

/-- The characters of the texts and the keys of a document. -/
def chars : Json ν → List Char
  | str s => s.toList
  | arr xs => charsList xs
  | obj fs => charsFields fs
  | null => []
  | bool _ => []
  | num _ => []

def charsList : List (Json ν) → List Char
  | [] => []
  | x :: xs => chars x ++ charsList xs

def charsFields : List (String × Json ν) → List Char
  | [] => []
  | (k, x) :: fs => k.toList ++ (chars x ++ charsFields fs)

end

attribute [grind =] chars charsList charsFields

/-- The printable characters of ASCII, of which the marks of the syntax and the escapes are made. -/
def isPlain (c : Char) : Bool := 32 ≤ c.toNat && c.toNat < 127

theorem hexDigit_plain : ∀ n, n < 16 → isPlain (hexDigit n) = true := by decide

theorem mem_escapeChar {c d : Char} (h : d ∈ escapeChar c) : isPlain d = true ∨ (d = c ∧ 32 ≤ c.toNat) := by
  unfold escapeChar at h
  split_ifs at h with h1 h2 h3 h4 h5 h6 h7 h8
  · fin_cases h <;> exact .inl rfl
  · fin_cases h <;> exact .inl rfl
  · fin_cases h <;> exact .inl rfl
  · fin_cases h <;> exact .inl rfl
  · fin_cases h <;> exact .inl rfl
  · fin_cases h <;> exact .inl rfl
  · fin_cases h <;> exact .inl rfl
  · left
    simp only [List.mem_cons, List.not_mem_nil, or_false] at h
    rcases h with rfl | rfl | rfl | rfl | rfl | rfl
    · rfl
    · rfl
    · rfl
    · rfl
    · exact hexDigit_plain _ (by omega)
    · exact hexDigit_plain _ (by omega)
  · exact .inr ⟨List.mem_singleton.1 h, not_lt.1 h8⟩

theorem mem_quote {s : String} {d : Char} (h : d ∈ quote s) : isPlain d = true ∨ (d ∈ s.toList ∧ 32 ≤ d.toNat) := by
  unfold quote at h
  rcases List.mem_cons.1 h with rfl | h
  · exact .inl rfl
  rcases List.mem_append.1 h with h | h
  · obtain ⟨c, hc, hd⟩ := List.mem_flatMap.1 h
    rcases mem_escapeChar hd with hd | ⟨rfl, hd⟩
    · exact .inl hd
    · exact .inr ⟨hc, hd⟩
  · rw [List.mem_singleton.1 h]
    exact .inl rfl

/-- A character beyond ASCII is written as it is. -/
theorem mem_quote_of_high {s : String} {d : Char} (h : d ∈ s.toList) (hd : 127 ≤ d.toNat) : d ∈ quote s := by
  have hself : escapeChar d = [d] := by
    have hne : ∀ e : Char, e.toNat < 127 → d ≠ e := by
      rintro e he rfl
      omega
    unfold escapeChar
    rw [if_neg (hne _ (by decide)), if_neg (hne _ (by decide)), if_neg (hne _ (by decide)), if_neg (hne _ (by decide)),
      if_neg (hne _ (by decide)), if_neg (hne _ (by decide)), if_neg (hne _ (by decide)), if_neg (by omega)]
  exact List.mem_cons_of_mem _ (List.mem_append_left _ (List.mem_flatMap.2 ⟨d, h, by rw [hself]; exact List.mem_singleton_self d⟩))

section Characters

variable {gap : List Char} {numText : ν → List Char} {d : Char}

/-- A character of the text: a mark, a blank of the gap, or a character of the document's texts that needs no escape. -/
def OfText (gap : List Char) (chars : List Char) (d : Char) : Prop := isPlain d = true ∨ d ∈ gap ∨ (d ∈ chars ∧ 32 ≤ d.toNat)

theorem OfText.mono {a b : List Char} (hab : a ⊆ b) (h : OfText gap a d) : OfText gap b d := by
  rcases h with h | h | ⟨h, hd⟩
  · exact .inl h
  · exact .inr (.inl h)
  · exact .inr (.inr ⟨hab h, hd⟩)

variable (hnum : ∀ n, ∀ c ∈ numText n, isPlain c = true)

include hnum

mutual

theorem mem_spaced (v : Json ν) (h : d ∈ spaced gap numText v) : OfText gap v.chars d := by
  match v with
  | .null => exact .inl (by fin_cases h <;> rfl)
  | .bool true => exact .inl (by fin_cases h <;> rfl)
  | .bool false => exact .inl (by fin_cases h <;> rfl)
  | .num n => exact .inl (hnum n d h)
  | .str s =>
    rcases mem_quote h with h | h
    · exact .inl h
    · exact .inr (.inr h)
  | .arr xs =>
    rcases List.mem_cons.1 h with rfl | h
    · exact .inl rfl
    · exact mem_spacedList xs h
  | .obj fs =>
    rcases List.mem_cons.1 h with rfl | h
    · exact .inl rfl
    · exact mem_spacedFields fs h

theorem mem_spacedList (xs : List (Json ν)) (h : d ∈ spacedList gap numText xs) : OfText gap (charsList xs) d := by
  match xs with
  | [] => exact .inl (by fin_cases h; rfl)
  | [x] =>
    rcases List.mem_append.1 h with h | h
    · exact (mem_spaced x h).mono (List.subset_append_left _ _)
    · exact .inl (by fin_cases h; rfl)
  | x :: y :: xs =>
    rcases List.mem_append.1 h with h | h
    · exact (mem_spaced x h).mono (List.subset_append_left _ _)
    rcases List.mem_cons.1 h with rfl | h
    · exact .inl rfl
    rcases List.mem_append.1 h with h | h
    · exact .inr (.inl h)
    · exact (mem_spacedList (y :: xs) h).mono (List.subset_append_right _ _)

theorem mem_spacedFields (fs : List (String × Json ν)) (h : d ∈ spacedFields gap numText fs) :
    OfText gap (charsFields fs) d := by
  have hkey : ∀ {k : String} {x : Json ν} {fs}, d ∈ quote k → OfText gap (charsFields ((k, x) :: fs)) d := by
    intro k x fs h
    rcases mem_quote h with h | ⟨h, hd⟩
    · exact .inl h
    · exact .inr (.inr ⟨List.mem_append_left _ h, hd⟩)
  match fs with
  | [] => exact .inl (by fin_cases h; rfl)
  | [(k, x)] =>
    rcases List.mem_append.1 h with h | h
    · exact hkey h
    rcases List.mem_cons.1 h with rfl | h
    · exact .inl rfl
    rcases List.mem_append.1 h with h | h
    · exact .inr (.inl h)
    rcases List.mem_append.1 h with h | h
    · exact (mem_spaced x h).mono fun c hc => List.mem_append_right _ (List.mem_append_left _ hc)
    · exact .inl (by fin_cases h; rfl)
  | (k, x) :: f :: fs =>
    rcases List.mem_append.1 h with h | h
    · exact hkey h
    rcases List.mem_cons.1 h with rfl | h
    · exact .inl rfl
    rcases List.mem_append.1 h with h | h
    · exact .inr (.inl h)
    rcases List.mem_append.1 h with h | h
    · exact (mem_spaced x h).mono fun c hc => List.mem_append_right _ (List.mem_append_left _ hc)
    rcases List.mem_cons.1 h with rfl | h
    · exact .inl rfl
    rcases List.mem_append.1 h with h | h
    · exact .inr (.inl h)
    · exact (mem_spacedFields (f :: fs) h).mono fun c hc => List.mem_append_right _ (List.mem_append_right _ hc)

end

omit hnum

variable (hd : 127 ≤ d.toNat)

include hd

mutual

/-- Every character beyond ASCII of the document's texts stands in its text. -/
theorem mem_spaced_of_high (v : Json ν) (h : d ∈ v.chars) : d ∈ spaced gap numText v := by
  match v with
  | .null => nomatch h
  | .bool _ => nomatch h
  | .num _ => nomatch h
  | .str s => exact mem_quote_of_high h hd
  | .arr xs => exact List.mem_cons_of_mem _ (mem_spacedList_of_high xs h)
  | .obj fs => exact List.mem_cons_of_mem _ (mem_spacedFields_of_high fs h)

theorem mem_spacedList_of_high (xs : List (Json ν)) (h : d ∈ charsList xs) : d ∈ spacedList gap numText xs := by
  match xs with
  | [] => nomatch h
  | [x] =>
    rcases List.mem_append.1 h with h | h
    · exact List.mem_append_left _ (mem_spaced_of_high x h)
    · nomatch h
  | x :: y :: xs =>
    rcases List.mem_append.1 h with h | h
    · exact List.mem_append_left _ (mem_spaced_of_high x h)
    · exact List.mem_append_right _ (List.mem_cons_of_mem _ (List.mem_append_right _ (mem_spacedList_of_high (y :: xs) h)))

theorem mem_spacedFields_of_high (fs : List (String × Json ν)) (h : d ∈ charsFields fs) :
    d ∈ spacedFields gap numText fs := by
  match fs with
  | [] => nomatch h
  | [(k, x)] =>
    rcases List.mem_append.1 h with h | h
    · exact List.mem_append_left _ (mem_quote_of_high h hd)
    rcases List.mem_append.1 h with h | h
    · have hx := mem_spaced_of_high x h
      simp only [spacedFields, List.mem_append, List.mem_cons]
      exact .inr (.inr (.inr (.inl hx)))
    · nomatch h
  | (k, x) :: f :: fs =>
    rcases List.mem_append.1 h with h | h
    · exact List.mem_append_left _ (mem_quote_of_high h hd)
    rcases List.mem_append.1 h with h | h
    · have hx := mem_spaced_of_high x h
      simp only [spacedFields, List.mem_append, List.mem_cons]
      exact .inr (.inr (.inr (.inl hx)))
    · have hfs := mem_spacedFields_of_high (f :: fs) h
      simp only [spacedFields, List.mem_append, List.mem_cons]
      exact .inr (.inr (.inr (.inr (.inr (.inr hfs)))))

end

end Characters

/-! ## Escaping again -/

section Flat

variable {g : Char → List Char} {gap : List Char} {numText : ν → List Char}

/-- Characters that are kept one by one are kept together. -/
theorem flatMap_kept {cs : List Char} (h : ∀ c ∈ cs, g c = [c]) : cs.flatMap g = cs := by
  rw [List.flatMap_congr h]
  exact List.flatMap_singleton' cs

variable (hplain : ∀ c, isPlain c = true → g c = [c])

include hplain

/-- What keeps the plain characters changes the escapes only. -/
theorem flatMap_quote (s : String) : (quote s).flatMap g = quoteBy (fun c => (escapeChar c).flatMap g) s := by
  have hquote : g '"' = ['"'] := hplain _ (by decide)
  simp only [quote, quoteBy, List.flatMap_cons, List.flatMap_append, List.flatMap_nil, hquote, List.flatMap_assoc, List.append_nil]
  rfl

variable (hblank : ∀ c ∈ gap, g c = [c]) (hnumber : ∀ (n : ν), ∀ c ∈ numText n, g c = [c])

include hblank hnumber

mutual

theorem flatMap_spaced (v : Json ν) : (spaced gap numText v).flatMap g = escaped (fun c => (escapeChar c).flatMap g) gap numText v := by
  match v with
  | .null => exact flatMap_kept fun c hc => hplain c (List.all_eq_true.1 (rfl : ['n', 'u', 'l', 'l'].all isPlain = true) c hc)
  | .bool true => exact flatMap_kept fun c hc => hplain c (List.all_eq_true.1 (rfl : ['t', 'r', 'u', 'e'].all isPlain = true) c hc)
  | .bool false => exact flatMap_kept fun c hc => hplain c (List.all_eq_true.1 (rfl : ['f', 'a', 'l', 's', 'e'].all isPlain = true) c hc)
  | .num n => exact flatMap_kept (hnumber n)
  | .str s => exact flatMap_quote hplain s
  | .arr xs =>
    rw [spaced, List.flatMap_cons, hplain _ (by decide), flatMap_spacedList xs]
    rfl
  | .obj fs =>
    rw [spaced, List.flatMap_cons, hplain _ (by decide), flatMap_spacedFields fs]
    rfl

theorem flatMap_spacedList (xs : List (Json ν)) :
    (spacedList gap numText xs).flatMap g = escapedList (fun c => (escapeChar c).flatMap g) gap numText xs := by
  match xs with
  | [] => exact flatMap_kept fun c hc => hplain c (List.all_eq_true.1 (rfl : [']'].all isPlain = true) c hc)
  | [x] =>
    rw [spacedList, List.flatMap_append, flatMap_spaced x, List.flatMap_singleton, hplain _ (by decide)]
    rfl
  | x :: y :: xs =>
    rw [spacedList, List.flatMap_append, flatMap_spaced x, List.flatMap_cons, hplain _ (by decide), List.flatMap_append,
      flatMap_kept hblank, flatMap_spacedList (y :: xs)]
    rfl

theorem flatMap_spacedFields (fs : List (String × Json ν)) :
    (spacedFields gap numText fs).flatMap g = escapedFields (fun c => (escapeChar c).flatMap g) gap numText fs := by
  match fs with
  | [] => exact flatMap_kept fun c hc => hplain c (List.all_eq_true.1 (rfl : ['}'].all isPlain = true) c hc)
  | [(k, x)] =>
    rw [spacedFields, List.flatMap_append, flatMap_quote hplain k, List.flatMap_cons, hplain _ (by decide), List.flatMap_append,
      flatMap_kept hblank, List.flatMap_append, flatMap_spaced x, List.flatMap_singleton, hplain _ (by decide)]
    rfl
  | (k, x) :: f :: fs =>
    rw [spacedFields, List.flatMap_append, flatMap_quote hplain k, List.flatMap_cons, hplain _ (by decide), List.flatMap_append,
      flatMap_kept hblank, List.flatMap_append, flatMap_spaced x, List.flatMap_cons, hplain _ (by decide), List.flatMap_append,
      flatMap_kept hblank, flatMap_spacedFields (f :: fs)]
    rfl

end

end Flat

end Json

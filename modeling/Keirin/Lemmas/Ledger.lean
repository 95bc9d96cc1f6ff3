import Keirin.Ledger

/-!
# Reading the ledger

The text of an event is read back as the event; it holds no character that ends a line, except the wide ones of the texts in it.
A text that is cut at such a character is not read.
-/

namespace Keirin

/-! ## Numbers -/

namespace Scalar

theorem scanName_some {s r : List Char} {n : Scalar} (h : scanName s = some (n, r)) :
    ∃ w ∈ ["NaN".toList, "Infinity".toList, "-Infinity".toList], s = w ++ r := by
  have hdrop : ∀ {w r' : List Char}, s.dropPrefix? w = some r' → s = w ++ r' := by
    intro w r' hw
    obtain ⟨p, hp, hpw⟩ := List.dropPrefix?_eq_some_iff.1 hw
    rw [hp, eq_of_beq hpw]
  unfold scanName at h
  split at h
  · rename_i hw
    cases h
    exact ⟨"NaN".toList, by simp, hdrop hw⟩
  · rename_i hw _
    cases h
    exact ⟨"Infinity".toList, by simp, hdrop hw⟩
  · rename_i hw _ _
    cases h
    exact ⟨"-Infinity".toList, by simp, hdrop hw⟩
  · nomatch h

theorem scanName_append {s r : List Char} {n : Scalar} (h : scanName s = some (n, r)) (t : List Char) :
    scanName (s ++ t) = some (n, r ++ t) := by
  obtain ⟨w, hw, rfl⟩ := scanName_some h
  fin_cases hw
  · simp [scanName, List.dropPrefix?] at h ⊢
    exact h
  · simp [scanName, List.dropPrefix?] at h ⊢
    exact h
  · simp [scanName, List.dropPrefix?] at h ⊢
    exact h

/-- Where a literal can be scanned there is no name, whatever comes after. -/
theorem scanName_append_none {s r : List Char} {l : NumLit} (h : NumLit.scan s = some (l, r)) (t : List Char) :
    scanName (s ++ t) = none := by
  have hint : ∀ {neg s}, NumLit.scanMag neg s = some (l, r) → ∃ c s', s = c :: s' ∧ c.isDigit = true := by
    intro neg s h
    obtain ⟨⟨i, s₁⟩, hi, -⟩ := Option.map_eq_some_iff.1 h
    cases s with
    | nil => nomatch hi
    | cons c s =>
      refine ⟨c, s, rfl, ?_⟩
      unfold NumLit.scanInt at hi
      by_cases hzero : c = '0'
      · rw [hzero]
        rfl
      · by_cases hd : c.isDigit = true
        · exact hd
        · simp only [if_neg hzero, if_neg hd] at hi
          nomatch hi
  have hne : ∀ {c d : Char}, c.isDigit = true → d.isDigit = false → c ≠ d := by
    rintro c d hc hd rfl
    rw [hd] at hc
    nomatch hc
  cases s with
  | nil => nomatch h
  | cons c s =>
    unfold NumLit.scan at h
    by_cases hc : c = '-'
    · simp only [if_pos hc] at h
      obtain ⟨d, s', rfl, hd⟩ := hint h
      simp [scanName, List.dropPrefix?, hc, hne hd (show 'I'.isDigit = false from rfl)]
    · simp only [if_neg hc] at h
      obtain ⟨d, s', hs, hd⟩ := hint h
      cases hs
      simp [scanName, List.dropPrefix?, hne hd (show 'N'.isDigit = false from rfl), hne hd (show 'I'.isDigit = false from rfl),
        hne hd (show '-'.isDigit = false from rfl)]

theorem scan_ok : Json.ScanOk scan where
  lt := by
    intro s r n h
    unfold scan at h
    split at h
    · rename_i x hx
      cases h
      obtain ⟨w, hw, rfl⟩ := scanName_some hx
      fin_cases hw <;> simp <;> omega
    · obtain ⟨x, hx, he⟩ := Option.map_eq_some_iff.1 h
      cases he
      exact NumLit.scan_lt hx
  append := by
    intro s r n h hr t
    unfold scan at h ⊢
    split at h
    · rename_i x hx
      cases h
      rw [scanName_append hx]
    · obtain ⟨x, hx, he⟩ := Option.map_eq_some_iff.1 h
      cases he
      rw [scanName_append_none hx, NumLit.scan_append hx hr]
      rfl

/-- A literal in the form of the syntax is read as the number. -/
theorem scan_lit {n : Scalar} {l : NumLit} (htext : n.dumpText = l.render) (hl : l.Strict) (hn : ofLit l = n) :
    Json.NumOk scan dumpText n where
  head := by
    obtain ⟨c, w, hc, hd⟩ := NumLit.head_render_digit hl.toWF
    exact ⟨c, w, htext.trans hc, hd⟩
  scan := by
    intro r hr
    have hdelim : NumLit.Delimited r := by
      rcases hr with rfl | hr
      · intro c hc
        nomatch hc
      · obtain ⟨c, r', rfl, hc⟩ := NumLit.isDelim_of_ends hr
        intro d hd
        rw [← Option.some.inj hd]
        exact hc
    have hscan := NumLit.scan_render hl hdelim
    have hname := scanName_append_none hscan []
    rw [List.append_nil] at hname
    unfold scan
    rw [htext, hname, hscan, Option.map_some, hn]

theorem numOk {n : Scalar} (h : n.finite = true) : Json.NumOk scan dumpText n := by
  cases n with
  | int n => exact scan_lit rfl (NumLit.strict_ofInt n) (by
    rw [ofLit, if_pos (by rfl), NumLit.toInt_ofInt])
  | float x => exact scan_lit rfl x.strict_pyRepr (by simp [ofLit, Binary64.read_pyRepr])
  | nan => nomatch h
  | inf neg => nomatch h
  | object t => nomatch h

theorem dumpText_plain (n : Scalar) : ∀ c ∈ n.dumpText, Json.isPlain c = true := by
  have hnum : ∀ c, NumLit.isNumChar c = true → Json.isPlain c = true := by
    intro c hc
    simp only [NumLit.isNumChar, Bool.or_eq_true, decide_eq_true_eq] at hc
    rcases hc with (((hc | rfl) | rfl) | rfl) | rfl
    · simp only [Char.isDigit, Bool.and_eq_true, decide_eq_true_eq, ge_iff_le, UInt32.le_iff_toNat_le] at hc
      change 48 ≤ c.toNat ∧ c.toNat ≤ 57 at hc
      simp only [Json.isPlain, Bool.and_eq_true, decide_eq_true_eq]
      omega
    · rfl
    · rfl
    · rfl
    · rfl
  intro c hc
  cases n with
  | int n => exact hnum c (NumLit.isNumChar_of_mem_render (NumLit.wf_ofInt n) c hc)
  | float x => exact hnum c (NumLit.isNumChar_of_mem_render x.wf_pyRepr c hc)
  | nan => fin_cases hc <;> rfl
  | inf neg => cases neg <;> fin_cases hc <;> rfl
  | object t => cases hc

end Scalar

/-! ## Lines -/

namespace Ledger

theorem universalNewlines_of_no_return {s : List Char} (h : ∀ c ∈ s, c ≠ '\r') : universalNewlines s = s := by
  fun_induction universalNewlines s with
  | case1 => rfl
  | case2 s ih => exact absurd rfl (h '\r' List.mem_cons_self)
  | case3 c s hne ih =>
    rw [if_neg (h c List.mem_cons_self), ih fun d hd => h d (List.mem_cons_of_mem _ hd)]

/-- A line is cut off at the first character that ends it. -/
theorem splitLines_line {line : List Char} (hline : ∀ c ∈ line, isLineBreak c = false) {b : Char} (hb : isLineBreak b = true)
    (hr : b ≠ '\r') (s : List Char) : splitLines (line ++ b :: s) = line :: splitLines s := by
  induction line with
  | nil =>
    rw [List.nil_append, splitLines.eq_def]
    split
    · rename_i h
      nomatch h
    · rename_i h
      cases h
      exact absurd rfl hr
    · rename_i h
      cases h
      rw [if_pos hb]
  | cons c line ih =>
    have hc : isLineBreak c = false := hline c List.mem_cons_self
    rw [List.cons_append, splitLines.eq_def]
    split
    · rename_i h
      nomatch h
    · rename_i h
      rw [(List.cons.inj h).1] at hc
      nomatch hc
    · rename_i h
      cases h
      rw [hc, ih fun d hd => hline d (List.mem_cons_of_mem _ hd)]
      rfl

/-! ## The text of an event -/

variable {d : Doc} {c : Char}

theorem gap_blank : ∀ c ∈ [' '], Json.isGap c = true := by
  intro c hc
  rw [List.mem_singleton.1 hc]
  rfl

theorem read_eventText (hf : Doc.finite d = true) (hk : d.keysOnce = true) :
    Json.read Scalar.scan (eventText d) = some d.sortKeys :=
  Json.read_spaced gap_blank (fun _ => Scalar.numOk) (by rw [Json.allNum_sortKeys]; exact hf)
    (by rw [Json.keysOnce_sortKeys]; exact hk)

/-- The text of an object that is cut off is not read. -/
theorem read_eventText_cut {fs : Dict Doc} (hf : Doc.finite (.obj fs) = true) (hk : (Json.obj fs).keysOnce = true) {s t : List Char}
    (hs : eventText (.obj fs) = s ++ t) (ht : t ≠ []) : Json.read Scalar.scan s = none := by
  refine Json.read_spaced_cut gap_blank (fun _ => Scalar.numOk) Scalar.scan_ok (v := (Json.obj fs).sortKeys) ?_ ?_ ?_ hs ht
  · rw [Json.allNum_sortKeys]
    exact hf
  · rw [Json.keysOnce_sortKeys]
    exact hk
  · intro n hn
    nomatch hn

theorem mem_eventText (h : c ∈ eventText d) : Json.isPlain c = true ∨ (c ∈ d.chars ∧ 32 ≤ c.toNat) := by
  rcases Json.mem_spaced Scalar.dumpText_plain _ h with h | h | ⟨h, hc⟩
  · exact .inl h
  · left
    fin_cases h
    rfl
  · exact .inr ⟨(Json.mem_chars_sortKeys d).1 h, hc⟩

/-- The characters of the text that end a line are the wide ones. -/
theorem isWideBreak_of_mem (h : c ∈ eventText d) (hb : isLineBreak c = true) : isWideBreak c = true ∧ c ∈ d.chars := by
  simp only [isLineBreak, Bool.or_eq_true, Bool.and_eq_true, decide_eq_true_eq] at hb
  rcases mem_eventText h with hplain | ⟨hmem, hc⟩
  · simp only [Json.isPlain, Bool.and_eq_true, decide_eq_true_eq] at hplain
    omega
  · refine ⟨?_, hmem⟩
    simp only [isWideBreak, Bool.or_eq_true, decide_eq_true_eq]
    omega

theorem isLineBreak_of_isWideBreak (h : isWideBreak c = true) : isLineBreak c = true := by
  simp only [isWideBreak, isLineBreak, Bool.or_eq_true, decide_eq_true_eq] at h ⊢
  rcases h with (h | h) | h
  · exact .inl (.inl (.inr h))
  · exact .inl (.inr h)
  · exact .inr h

/-- A wide character of the event stands in its text as it is. -/
theorem mem_eventText_of_wide (h : c ∈ d.chars) (hb : isWideBreak c = true) : c ∈ eventText d := by
  refine Json.mem_spaced_of_high ?_ _ ((Json.mem_chars_sortKeys d).2 h)
  simp only [isWideBreak, Bool.or_eq_true, decide_eq_true_eq] at hb
  omega

/-- The text of an event begins with a brace. -/
theorem eventText_obj (fs : Dict Doc) : ∃ s, eventText (.obj fs) = '{' :: s := ⟨_, rfl⟩

/-! ## Events -/

variable {now : Timestamp} {e : Event}

theorem toDict_finite (h : e.IsJson) : Doc.finite (e.toDict now) = true := by
  obtain ⟨⟨hm, -⟩, hd, -⟩ := h
  have hstep : Doc.finite (Doc.ofOption e.stepId) = true := by
    cases e.stepId <;> rfl
  simp only [Doc.finite] at hm hd hstep ⊢
  simp [Event.toDict, Json.allNum, Json.allNumFields, hm, hstep]
  exact hd

theorem toDict_keysOnce (h : e.IsJson) : (e.toDict now).keysOnce = true := by
  obtain ⟨⟨-, hm⟩, -, hd⟩ := h
  have hstep : (Doc.ofOption e.stepId).keysOnce = true := by
    cases e.stepId <;> rfl
  simp only [Event.toDict, Json.keysOnce, Json.keysOnceFields, hm, hstep, Bool.and_true, Bool.true_and]
  simp only [Json.keysOnce] at hd
  rw [hd, Bool.and_true]
  change decide ["timestamp", "task_id", "step_id", "event_type", "message", "data"].Nodup = true
  decide

theorem isPlain_narrow (d : Char) (h : Json.isPlain d = true) : isWideBreak d = false := by
  simp only [Json.isPlain, Bool.and_eq_true, decide_eq_true_eq] at h
  simp only [isWideBreak, Bool.or_eq_false_iff, decide_eq_false_iff_not]
  omega

theorem isAlnum_plain (d : Char) (h : Text.isAlnum d = true) : Json.isPlain d = true := by
  simp only [Text.isAlnum, Char.isDigit, Bool.or_eq_true, Bool.and_eq_true, decide_eq_true_eq, ge_iff_le, UInt32.le_iff_toNat_le,
    Char.le_def] at h
  change ((48 ≤ d.toNat ∧ d.toNat ≤ 57) ∨ 65 ≤ d.toNat ∧ d.toNat ≤ 90) ∨ 97 ≤ d.toNat ∧ d.toNat ≤ 122 at h
  simp only [Json.isPlain, Bool.and_eq_true, decide_eq_true_eq]
  omega

theorem isTimeChar_narrow (d : Char) (h : isTimeChar d = true) : isWideBreak d = false := by
  refine isPlain_narrow d ?_
  simp only [isTimeChar, Bool.or_eq_true, decide_eq_true_eq] at h
  rcases h with h | h
  · exact isAlnum_plain d (by simp [Text.isAlnum, h])
  · fin_cases h <;> rfl

theorem not_mem_name {taskId : String} (h : FileStore.safeTaskId taskId = true) (hc : isWideBreak c = true) : c ∉ taskId.toList := by
  intro hmem
  have hplain : Json.isPlain c = true := by
    unfold FileStore.safeTaskId Text.isName at h
    split at h
    · cases h
    · rename_i b bs hb
      rw [hb] at hmem
      simp only [Bool.and_eq_true, List.all_eq_true, Bool.or_eq_true, decide_eq_true_eq] at h
      rcases List.mem_cons.1 hmem with rfl | hmem
      · exact isAlnum_plain c h.1.1
      · rcases h.1.2 c hmem with h | h
        · exact isAlnum_plain c h
        · fin_cases h <;> rfl
  rw [isPlain_narrow c hplain] at hc
  cases hc

/-- The characters of an event that may end a line are those of the texts the caller supplied. -/
theorem mem_chars_toDict (now : Timestamp) (hid : FileStore.safeTaskId e.taskId = true) (hc : isWideBreak c = true) :
    c ∈ (e.toDict now).chars ↔ c ∈ e.chars := by
  have hascii : ∀ {P : Char → Bool} {s : List Char}, (∀ d, P d = true → isWideBreak d = false) → s.all P = true → c ∉ s := by
    intro P s hP hs hcs
    have := hP c (List.all_eq_true.1 hs c hcs)
    rw [hc] at this
    nomatch this
  have hnow : c ∉ now.text.toList := hascii isTimeChar_narrow now.iso
  have htask : c ∉ e.taskId.toList := not_mem_name hid hc
  have hkey : ∀ k ∈ ["timestamp", "task_id", "step_id", "event_type", "message", "data"], c ∉ k.toList := by
    intro k hk
    exact hascii (P := Json.isPlain) isPlain_narrow (by fin_cases hk <;> rfl)
  have hstep : c ∈ (Doc.ofOption e.stepId).chars ↔ c ∈ (e.stepId.getD "").toList := by
    cases e.stepId <;> simp [Doc.ofOption, Json.chars]
  simp only [List.forall_mem_cons, List.not_mem_nil, false_imp_iff, implies_true, and_true] at hkey
  obtain ⟨h1, h2, h3, h4, h5, h6⟩ := hkey
  simp only [Event.toDict, Event.chars, Json.chars, Json.charsFields, List.mem_append, List.append_nil, h1, h2, h3, h4, h5, h6, hnow,
    htask, hstep, false_or, or_false]

/-- Whether the event is asked for. -/
def asked (taskId : Option String) (e : Event) : Bool := taskId.all (fun id => e.taskId = id)

theorem ofTask_sortKeys (taskId : String) : ofTask taskId (e.toDict now).sortKeys = .ok (decide (e.taskId = taskId)) := by
  obtain ⟨gs, hgs, hperm⟩ := Json.sortKeys_obj [("timestamp", .str now.text), ("task_id", .str e.taskId),
    ("step_id", Doc.ofOption e.stepId), ("event_type", .str e.eventType), ("message", e.message), ("data", .obj e.data)]
  have hkeys : (gs.map Prod.fst).Nodup := by
    have hmap := hperm.map Prod.fst
    rw [hmap.nodup_iff]
    change ["timestamp", "task_id", "step_id", "event_type", "message", "data"].Nodup
    decide
  have hmem : ("task_id", Json.str e.taskId) ∈ gs := hperm.mem_iff.2 (by simp [Json.sortKeys])
  unfold Event.toDict ofTask
  rw [hgs]
  simp only [Dict.getD, Dict.get?_of_mem hkeys hmem, Option.getD_some, Json.str.injEq]

/-- The line of an event that stays on its line is read as the event. -/
theorem loadLine_event (h : e.IsJson) (taskId : Option String) :
    loadLine taskId (eventText (e.toDict now)) = .ok (if asked taskId e then some (e.toDict now).sortKeys else none) := by
  have hblank : (eventText (e.toDict now)).all isSpace = false := rfl
  unfold loadLine
  rw [hblank, read_eventText (toDict_finite h) (toDict_keysOnce h)]
  cases taskId with
  | none => rfl
  | some taskId =>
    simp only [ofTask_sortKeys, asked, Option.all_some]
    rfl

/-- The text of the ledger after the calls. -/
def text (calls : List (Timestamp × Event)) : List Char := calls.flatMap fun c => eventText (c.2.toDict c.1) ++ ['\n']

theorem text_cons (c : Timestamp × Event) (calls : List (Timestamp × Event)) :
    text (c :: calls) = eventText (c.2.toDict c.1) ++ '\n' :: text calls := by
  simp [text]

theorem no_return_text (calls : List (Timestamp × Event)) : ∀ c ∈ text calls, c ≠ '\r' := by
  rintro c hc rfl
  obtain ⟨call, -, hc⟩ := List.mem_flatMap.1 hc
  rcases List.mem_append.1 hc with hc | hc
  · rcases mem_eventText hc with h | ⟨-, h⟩
    · exact absurd h (by decide)
    · exact absurd h (by decide)
  · exact absurd (List.mem_singleton.1 hc) (by decide)

theorem loadEvents_eq (taskId : Option String) (file : Option (List Char)) :
    loadEvents taskId file = loadLines taskId (splitLines (universalNewlines (file.getD []))) := by
  cases file <;> rfl

/-- What calls that all return have done. -/
theorem appendAll_ok {calls : List (Timestamp × Event)} {file file' : Option (List Char)} {returned : List Doc}
    (h : appendAll file calls = .ok (returned, file')) :
    returned = calls.map (fun c => c.2.toDict c.1) ∧ file'.getD [] = file.getD [] ++ text calls ∧
      ∀ c ∈ calls, FileStore.safeTaskId c.2.taskId = true := by
  induction calls generalizing file returned with
  | nil =>
    cases h
    exact ⟨rfl, (List.append_nil _).symm, fun c hc => nomatch hc⟩
  | cons c calls ih =>
    obtain ⟨now, e⟩ := c
    obtain ⟨⟨event, file₁⟩, happend, h⟩ := bind_ok.1 h
    obtain ⟨⟨events, file₂⟩, hrest, h⟩ := bind_ok.1 h
    cases h
    obtain ⟨hid, happend⟩ := raiseIf_bind_ok.1 happend
    obtain ⟨-, happend⟩ := raiseIf_bind_ok.1 happend
    cases happend
    obtain ⟨hreturned, hfile, hids⟩ := ih hrest
    refine ⟨by rw [hreturned]; rfl, ?_, List.forall_mem_cons.2 ⟨by simpa using hid, hids⟩⟩
    rw [hfile, text_cons, Option.getD_some]
    simp

/-! ## The lines of the ledger -/

variable {calls : List (Timestamp × Event)}

/-- A ledger whose events stay on their lines is read. -/
theorem loadLines_text (hjson : ∀ c ∈ calls, c.2.IsJson) (hid : ∀ c ∈ calls, FileStore.safeTaskId c.2.taskId = true)
    (hline : ∀ c ∈ calls, OneLine c.2) (taskId : Option String) :
    loadLines taskId (splitLines (text calls)) =
      .ok ((calls.filter fun c => asked taskId c.2).map fun c => (c.2.toDict c.1).sortKeys) := by
  induction calls with
  | nil => rfl
  | cons c calls ih =>
    obtain ⟨hjson₁, hjson⟩ := List.forall_mem_cons.1 hjson
    obtain ⟨hid₁, hid⟩ := List.forall_mem_cons.1 hid
    obtain ⟨hline₁, hline⟩ := List.forall_mem_cons.1 hline
    have hclean : ∀ b ∈ eventText (c.2.toDict c.1), isLineBreak b = false := by
      intro b hb
      rw [Bool.eq_false_iff]
      intro hbreak
      obtain ⟨hwide, hmem⟩ := isWideBreak_of_mem hb hbreak
      rw [hline₁ b ((mem_chars_toDict _ hid₁ hwide).1 hmem)] at hwide
      nomatch hwide
    rw [text_cons, splitLines_line hclean rfl (by decide), loadLines, loadLine_event hjson₁, ih hjson hid hline]
    cases hasked : asked taskId c.2 <;> simp [hasked, bind, Except.bind, pure, Except.pure]

/-- A ledger is not read when one of its events does not stay on its line. -/
theorem loadLines_broken (hjson : ∀ c ∈ calls, c.2.IsJson) (hid : ∀ c ∈ calls, FileStore.safeTaskId c.2.taskId = true)
    (hbroken : ¬∀ c ∈ calls, OneLine c.2) : ∃ e, loadLines none (splitLines (text calls)) = .error e := by
  induction calls with
  | nil => exact absurd (fun c hc => nomatch hc) hbroken
  | cons c calls ih =>
    obtain ⟨hjson₁, hjson⟩ := List.forall_mem_cons.1 hjson
    obtain ⟨hid₁, hid⟩ := List.forall_mem_cons.1 hid
    rw [text_cons]
    -- the text of the event up to the first character that ends a line
    rcases hcut : (eventText (c.2.toDict c.1)).dropWhile (fun b => !isLineBreak b) with _ | ⟨b, rest⟩
    · have hclean : ∀ b ∈ eventText (c.2.toDict c.1), isLineBreak b = false := by
        intro b hb
        simpa using List.dropWhile_eq_nil_iff.1 hcut b hb
      have hbroken' : ¬∀ c ∈ calls, OneLine c.2 := by
        intro hline
        refine hbroken (List.forall_mem_cons.2 ⟨fun b hb => ?_, hline⟩)
        rw [Bool.eq_false_iff]
        intro hwide
        have hmem := mem_eventText_of_wide ((mem_chars_toDict c.1 hid₁ hwide).2 hb) hwide
        have hbreak := isLineBreak_of_isWideBreak hwide
        rw [hclean b hmem] at hbreak
        nomatch hbreak
      obtain ⟨e, he⟩ := ih hjson hid hbroken'
      refine ⟨e, ?_⟩
      rw [splitLines_line hclean rfl (by decide), loadLines, loadLine_event hjson₁, he]
      rfl
    · have hb : isLineBreak b = true := by
        have := List.dropWhile_get_zero_not (fun b => !isLineBreak b) (eventText (c.2.toDict c.1)) (by rw [hcut]; simp)
        simpa [hcut] using this
      have hsplit : eventText (c.2.toDict c.1) = (eventText (c.2.toDict c.1)).takeWhile (fun b => !isLineBreak b) ++ b :: rest := by
        rw [← hcut, List.takeWhile_append_dropWhile]
      obtain ⟨s, hs⟩ := eventText_obj [("timestamp", .str c.1.text), ("task_id", .str c.2.taskId),
        ("step_id", Doc.ofOption c.2.stepId), ("event_type", .str c.2.eventType), ("message", c.2.message), ("data", .obj c.2.data)]
      have hclean : ∀ d ∈ (eventText (c.2.toDict c.1)).takeWhile (fun b => !isLineBreak b), isLineBreak d = false := by
        intro d hd
        simpa using List.mem_takeWhile_imp hd
      have hreturn : b ≠ '\r' := by
        rintro rfl
        refine no_return_text [c] '\r' ?_ rfl
        rw [text_cons, hsplit]
        simp
      have hcutread : Json.read Scalar.scan ((eventText (c.2.toDict c.1)).takeWhile (fun b => !isLineBreak b)) = none :=
        read_eventText_cut (toDict_finite hjson₁) (toDict_keysOnce hjson₁) hsplit (List.cons_ne_nil _ _)
      have hblank : ((eventText (c.2.toDict c.1)).takeWhile (fun b => !isLineBreak b)).all isSpace = false := by
        unfold Event.toDict
        rw [hs]
        rfl
      rw [hsplit, List.append_assoc, List.cons_append, splitLines_line hclean hb hreturn, loadLines]
      unfold loadLine
      rw [hblank, hcutread]
      exact ⟨_, rfl⟩

end Ledger

end Keirin

import Keirin.Lemmas.HistoricalRecords

/-!
# Normalized, joined, converted

What the first two stages make of the rows, the third always converts: the rows a candidate carries make the candidate again. The
records and the quarantined candidates are those of the races of the rows, each once, and the candidate of a race depends on the
rows of the race alone. Rows are told apart by their digests; two rows of different races with one digest would be confused.
-/

namespace Keirin.HistoricalRecords

open HistoricalPayouts HistoricalEntrants

/-- Two rows of different races with one digest. -/
def Collide (rows : List Doc) : Prop :=
  ∃ row ∈ rows, ∃ other ∈ rows, ∃ s, digest row = .ok s ∧ digest other = .ok s ∧ raceKey row ≠ raceKey other

/-- Such rows are in one of the files. -/
def RaceData.Collides (d : RaceData) : Prop := Collide d.info ∨ Collide d.results ∨ Collide d.payoffs ∨ Collide d.entrants

/-- The rows of a race are the same in two data sets. -/
structure RaceData.SameRace (d d' : RaceData) (key : String) : Prop where
  info : rowsOf key d.info = rowsOf key d'.info
  results : rowsOf key d.results = rowsOf key d'.results
  payoffs : rowsOf key d.payoffs = rowsOf key d'.payoffs
  entrants : rowsOf key d.entrants = rowsOf key d'.entrants

/-- The candidates of a race in a report. -/
def candidatesOf (key : String) (report : Doc) : List Doc :=
  ((report.field "records").elements?.getD []).filter fun v => raceIdOf v = some key

/-- Where no digests collide, the rows of a race that are kept are those kept of the rows of the race. -/
theorem keep_rowsOf {missing : String} {rows kept : List Doc} (h : Distinct.keep (fingerprint missing) [] rows = .ok kept)
    (hc : ¬Collide rows) (key : String) : Distinct.keep (fingerprint missing) [] (rowsOf key rows) = .ok (rowsOf key kept) := by
  refine Distinct.keep_filter h (fun row hrow other hother he => ?_) fun _ _ _ _ _ => Iff.rfl
  obtain ⟨s, hs⟩ := Distinct.keep_defined h row hrow
  have hrace : raceKey row = raceKey other := by
    by_contra hne
    exact hc ⟨row, hrow, other, hother, s, digest_of_fingerprint hs, digest_of_fingerprint (he ▸ hs), hne⟩
  rw [hrace]

/-- Where no digests collide, no race is lost. -/
theorem exists_kept {missing : String} {rows kept : List Doc} (h : Distinct.keep (fingerprint missing) [] rows = .ok kept)
    (hc : ¬Collide rows) (key : String) : (∃ row ∈ kept, raceKey row = key) ↔ ∃ row ∈ rows, raceKey row = key := by
  refine ⟨fun ⟨row, hrow, hkey⟩ => ⟨row, (Distinct.keep_sublist h).subset hrow, hkey⟩, fun ⟨row, hrow, hkey⟩ => ?_⟩
  have hkeep := keep_rowsOf h hc key
  have hmem : row ∈ rowsOf key rows := List.mem_filter.2 ⟨hrow, by simp [hkey]⟩
  obtain ⟨first, rest, hrows⟩ := List.exists_cons_of_ne_nil (List.ne_nil_of_mem hmem)
  rw [hrows] at hkeep
  obtain ⟨k, -, ⟨hseen, -⟩ | ⟨-, zs, -, hzs⟩⟩ := Distinct.keep_cons_ok hkeep
  · nomatch hseen
  · have hfirst : first ∈ rowsOf key kept := by rw [hzs]; exact List.mem_cons_self
    exact ⟨first, (List.mem_filter.1 hfirst).1, raceKey_of_mem_rowsOf hfirst⟩

section Runs

variable {d d' kept kept' : RaceData}

theorem races_of_keeps (h : d.Keeps kept) (hc : ¬d.Collides) : kept.races = d.races := by
  have hmem : ∀ key, key ∈ kept.races ↔ key ∈ d.races := by
    intro key
    simp only [RaceData.Collides, not_or] at hc
    simp only [RaceData.races, mem_raceKeys, List.mem_append, or_and_right, exists_or, exists_kept h.info hc.1,
      exists_kept h.results hc.2.1, exists_kept h.payoffs hc.2.2.1]
  refine @List.Perm.eq_of_pairwise _ (· ≤ ·) _ _ (fun a b _ _ hab hba => le_antisymm hab hba) (List.pairwise_insertionSort _ _)
    (List.pairwise_insertionSort _ _) ?_
  exact (List.perm_ext_iff_of_nodup (nodup_raceKeys _) (nodup_raceKeys _)).2 hmem

/-- Two data sets with the same rows of a race keep the same rows of it. -/
theorem sameRace_of_keeps (h : d.Keeps kept) (h' : d'.Keeps kept') (hc : ¬d.Collides) (hc' : ¬d'.Collides) {key : String}
    (hsame : d.SameRace d' key) : kept.SameRace kept' key := by
  simp only [RaceData.Collides, not_or] at hc hc'
  have hone : ∀ {missing : String} {rows rows' kept kept' : List Doc}, Distinct.keep (fingerprint missing) [] rows = .ok kept →
      Distinct.keep (fingerprint missing) [] rows' = .ok kept' → ¬Collide rows → ¬Collide rows' → rowsOf key rows = rowsOf key rows' →
        rowsOf key kept = rowsOf key kept' := by
    intro missing rows rows' kept kept' hk hk' hn hn' he
    have hfirst := keep_rowsOf hk hn key
    rw [he, keep_rowsOf hk' hn' key] at hfirst
    exact (Except.ok.inj hfirst).symm
  exact ⟨hone h.info h'.info hc.1 hc'.1 hsame.info, hone h.results h'.results hc.2.1 hc'.2.1 hsame.results,
    hone h.payoffs h'.payoffs hc.2.2.1 hc'.2.2.1 hsame.payoffs, hone h.entrants h'.entrants hc.2.2.2 hc'.2.2.2 hsame.entrants⟩

/-- Whether a race is among the races is a matter of its rows. -/
theorem mem_races_iff {key : String} : key ∈ kept.races ↔ rowsOf key kept.info ++ rowsOf key kept.results ++ rowsOf key kept.payoffs ≠ [] := by
  rw [RaceData.races, mem_raceKeys, Ne, rowsOf, rowsOf, rowsOf, ← List.filter_append, ← List.filter_append, List.filter_eq_nil_iff]
  simp

/-- The candidates of a race in a report are the one made of its rows, or none where it has none. -/
theorem candidatesOf_report {keys : List String} {items : List (Dict Doc)} {orphans : List Doc} {report : Doc}
    (h : IsEnriched items orphans report) (hitems : List.Forall₂ (fun key item => kept.candidateOf key = .ok item) keys items)
    (hnodup : keys.Nodup) (key : String) : (key ∉ keys ∧ candidatesOf key report = []) ∨
      (key ∈ keys ∧ ∃ item, kept.candidateOf key = .ok item ∧ candidatesOf key report = [.obj item]) := by
  obtain ⟨rest, rfl, -⟩ := h
  show (key ∉ keys ∧ (items.map Json.obj).filter _ = []) ∨
    (key ∈ keys ∧ ∃ item, kept.candidateOf key = .ok item ∧ (items.map Json.obj).filter _ = [.obj item])
  induction hitems with
  | nil => exact .inl ⟨List.not_mem_nil, rfl⟩
  | @cons k item keys items hitem _ ih =>
    rw [List.nodup_cons] at hnodup
    have hrace : raceIdOf (.obj item) = some k := by
      simp [raceIdOf, Doc.field, Json.get?, (raceCandidate_ok hitem).1.race, Doc.text?]
    by_cases hk : k = key
    · subst hk
      right
      refine ⟨List.mem_cons_self, item, hitem, ?_⟩
      rcases ih hnodup.2 with ⟨-, hnone⟩ | ⟨hin, -⟩
      · rw [List.map_cons, List.filter_cons_of_pos (by simp [hrace]), hnone]
      · exact absurd hin hnodup.1
    · have hskip : ((item :: items).map Json.obj).filter (fun v => decide (raceIdOf v = some key)) =
          (items.map Json.obj).filter (fun v => decide (raceIdOf v = some key)) := by
        rw [List.map_cons, List.filter_cons_of_neg (by simp [hrace, hk])]
      rw [hskip, List.mem_cons, or_iff_right (Ne.symm hk)]
      exact ih hnodup.2

end Runs

/-- What is made of the rows of four files is always converted, each of their races once, and the candidate of a race depends on
its own rows alone. -/
theorem replay_closure (d : RaceData) : match d.candidates with
    | .error _ => True
    | .ok report => (∃ out, convert report = .ok out ∧
          (racesIn "records" out ++ racesIn "quarantined_records" out).Perm (racesIn "records" report)) ∧
        (racesIn "records" report).Nodup ∧ (d.Collides ∨ racesIn "records" report = d.races.map some) ∧
        ∀ d' : RaceData, match d'.candidates with
          | .error _ => True
          | .ok report' => ∀ key, d.SameRace d' key → d.Collides ∨ d'.Collides ∨ candidatesOf key report = candidatesOf key report' := by
  split
  · trivial
  · rename_i report hreport
    obtain ⟨kept, items, orphans, hkeeps, hitems, -, henriched⟩ := candidates_ok hreport
    have hraces := racesIn_report henriched hitems
    have hnodup := nodup_raceKeys (kept.info ++ kept.results ++ kept.payoffs)
    refine ⟨convert_ok hreport, ?_, ?_, fun d' => ?_⟩
    · rw [hraces]
      exact hnodup.map (Option.some_injective _)
    · rw [or_iff_not_imp_left]
      intro hc
      rw [hraces, races_of_keeps hkeeps hc]
    · split
      · trivial
      · rename_i report' hreport'
        intro key hsame
        rw [or_iff_not_imp_left, or_iff_not_imp_left]
        intro hc hc'
        obtain ⟨kept', items', orphans', hkeeps', hitems', -, henriched'⟩ := candidates_ok hreport'
        obtain ⟨hi, hr, hp, he⟩ := sameRace_of_keeps hkeeps hkeeps' hc hc' hsame
        have hmem : key ∈ kept.races ↔ key ∈ kept'.races := by rw [mem_races_iff, mem_races_iff, hi, hr, hp]
        have hone : kept.candidateOf key = kept'.candidateOf key := by
          rw [RaceData.candidateOf, RaceData.candidateOf, hi, hr, hp, he]
        rcases candidatesOf_report henriched hitems hnodup key with ⟨hout, hnone⟩ | ⟨hin, item, hitem, hsome⟩
        · rcases candidatesOf_report henriched' hitems' (nodup_raceKeys _) key with ⟨-, hnone'⟩ | ⟨hin', -⟩
          · rw [hnone, hnone']
          · exact absurd (hmem.2 hin') hout
        · rcases candidatesOf_report henriched' hitems' (nodup_raceKeys _) key with ⟨hout', -⟩ | ⟨-, item', hitem', hsome'⟩
          · exact absurd (hmem.1 hin) hout'
          · obtain rfl : item = item' := Except.ok.inj (hitem.symm.trans (hone.trans hitem'))
            rw [hsome, hsome']

end Keirin.HistoricalRecords

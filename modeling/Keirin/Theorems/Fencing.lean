import Keirin.Lemmas.QueueInv

/-!
# Fencing

A save under a lease is accepted only from the worker of the latest claim, and only while nothing has ended that claim. So
a generation that was released, reconciled or superseded is never used again, and belongs to one worker.
-/

namespace Keirin

namespace Queue

/-- An entry that leaves a generation behind ends the lease. -/
theorem Entry.Retires.ends {key : String × String} {generation : Int} {e : Entry} (h : e.Retires key generation) : e.Ends key := by
  rcases h with ⟨worker, later, hc, -⟩ | ⟨worker, status, hs, hne⟩ | hr
  · exact .inl ⟨worker, later, hc⟩
  · exact .inr (.inl ⟨worker, generation, status, hs, hne⟩)
  · exact .inr (.inr ⟨generation, hr⟩)

/-- An entry that leaves a generation behind is about that generation or a later one. -/
theorem Entry.Retires.carries {key : String × String} {generation : Int} {e : Entry} (h : e.Retires key generation) :
    ∃ g, e.Carries key g ∧ generation ≤ g := by
  rcases h with ⟨worker, later, hc, hlt⟩ | ⟨worker, status, hs, -⟩ | hr
  · exact ⟨later, .inl ⟨worker, hc⟩, hlt.le⟩
  · exact ⟨generation, .inr (.inl ⟨worker, status, hs⟩), le_rfl⟩
  · exact ⟨generation, .inr (.inr hr), le_rfl⟩

/-- A claim does not leave its own generation behind. -/
theorem Entry.Claims.not_retires {key : String × String} {worker : String} {generation : Int} {e : Entry}
    (h : e.Claims key worker generation) : ¬e.Retires key generation := by
  obtain ⟨hclaim, row, hrow, -, hgen⟩ := h
  rintro (⟨_, later, ⟨-, row', hrow', -, hgen'⟩, hlt⟩ | ⟨_, status, ⟨-, -, _, _, _, hcall⟩, -⟩ | ⟨-, -, _, _, hcall⟩)
  · rw [hrow] at hrow'
    cases hrow'
    omega
  · rw [hcall] at hclaim
    nomatch hclaim
  · rw [hcall] at hclaim
    nomatch hclaim

/-- Two claims of a task under one generation are one claim. -/
theorem claims_unique {log : List Entry}
    (hgrow : Log.Holds (fun pre e => ∀ key worker generation, e.Claims key worker generation →
      ∀ e' ∈ pre, ∀ earlier, e'.Carries key earlier → earlier < generation) log)
    {key : String × String} {worker worker' : String} {generation : Int} {c c' : Entry} (hc : c ∈ log) (hc' : c' ∈ log)
    (h : c.Claims key worker generation) (h' : c'.Claims key worker' generation) : worker = worker' := by
  obtain ⟨pre, post, rfl⟩ := List.append_of_mem hc
  rcases List.mem_append.1 hc' with hpre | hpost
  · exact absurd (hgrow _ _ _ rfl key worker generation h c' hpre generation (.inl ⟨worker', h'⟩)) (lt_irrefl _)
  rcases List.mem_cons.1 hpost with rfl | hpost
  · exact Option.some.inj (h.1.symm.trans h'.1)
  · obtain ⟨mid, rest, rfl⟩ := List.append_of_mem hpost
    have hmem : c ∈ pre ++ c :: mid := List.mem_append_right _ List.mem_cons_self
    exact absurd (hgrow (pre ++ c :: mid) c' rest (by simp) key worker' generation h' c hmem generation (.inl ⟨worker, h⟩))
      (lt_irrefl _)

/-- After any sequence of calls, by any workers and owners and at any times: a leased save of a task by a worker under a
generation was accepted only if the latest claim of the task was made by the worker under the generation and no save that
is not running and no reconciliation was accepted since; so no save is accepted under a generation that was released,
reconciled or superseded, and the saves accepted under one generation come from one worker. -/
theorem leases_fenced (txs : List Tx) :
    (∀ pre e post, (history txs).log = pre ++ e :: post → ∀ key worker generation status,
      e.Saves key worker generation status → Log.Since (Entry.Claims key worker generation) (Entry.Ends key) pre) ∧
    (∀ pre e post, (history txs).log = pre ++ e :: post → ∀ r ∈ pre, ∀ key generation, r.Retires key generation →
      ∀ worker status, ¬e.Saves key worker generation status) ∧
    (∀ e ∈ (history txs).log, ∀ e' ∈ (history txs).log, ∀ key worker worker' generation status status',
      e.Saves key worker generation status → e'.Saves key worker' generation status' → worker = worker') := by
  have hi := history_inv txs
  refine ⟨hi.fenced, fun pre e post hlog r hr key generation hret worker status hs => ?_,
    fun e he e' he' key worker worker' generation status status' hs hs' => ?_⟩
  · obtain ⟨before, c, since, rfl, hc, hsince⟩ := hi.fenced pre e post hlog key worker generation status hs
    have hgrow : Log.Holds _ ((before ++ c :: since) ++ e :: post) := hlog ▸ hi.growing
    rcases List.mem_append.1 hr with hbefore | hr
    · obtain ⟨g, hg, hle⟩ := hret.carries
      have := hgrow.initial before c since rfl key worker generation hc r hbefore g hg
      omega
    rcases List.mem_cons.1 hr with rfl | hr
    · exact hc.not_retires hret
    · exact hsince r hr hret.ends
  · have hclaim : ∀ {x : Entry} {w : String} {s : Option String}, x ∈ (history txs).log → x.Saves key w generation s →
        ∃ c ∈ (history txs).log, c.Claims key w generation := by
      intro x w s hx hsx
      obtain ⟨pre, post, hlog⟩ := List.append_of_mem hx
      obtain ⟨before, c, since, rfl, hc, -⟩ := hi.fenced pre x post hlog key w generation s hsx
      exact ⟨c, by rw [hlog]; simp, hc⟩
    obtain ⟨c, hc, hcl⟩ := hclaim he hs
    obtain ⟨c', hc', hcl'⟩ := hclaim he' hs'
    exact claims_unique hi.growing hc hc' hcl hcl'

end Queue

end Keirin

import Keirin.Lemmas.SecretInv

/-!
# The history of a secret record

Every write replaces the record stored last by one of the next version. A revoked record is never replaced, the generation
grows with a rotated secret and only then, and a refresh returns its access grant only after it has committed the secret that
came with the grant.
-/

namespace Keirin

/-- What a write does to a record. -/
structure SecretStep (writer : SecretWriter) (old new : RefreshSecretRecord) : Prop where
  binding : new.binding = old.binding
  version : new.version = old.version + 1
  live : old.state ≠ .revoked
  revoked : new.state = .revoked ↔ writer = .revoke
  rotated : writer = .commit ∨ writer = .recoverRotated →
    new.refreshGeneration = old.refreshGeneration + 1 ∧ new.refreshSecret ≠ none
  kept : ¬(writer = .commit ∨ writer = .recoverRotated) →
    new.refreshGeneration = old.refreshGeneration ∧ (writer ≠ .revoke → new.refreshSecret = old.refreshSecret)

/-- The writes of a source are steps. -/
theorem Writes.step {attempt : Option String} {called : Option (RefreshSecretRecord × ExchangeReply)} {writer : SecretWriter}
    {old new : RefreshSecretRecord} (h : Writes attempt called writer old new) : SecretStep writer old new := by
  have hrevoked : new.state = .revoked ↔ writer = .revoke := by
    rcases h.state with ⟨rfl, hs⟩ | ⟨rfl, hs⟩ | ⟨hw, hs⟩ | ⟨rfl, hs⟩
    · simp [hs]
    · rcases hs with hs | hs <;> simp [hs]
    · rcases hw with rfl | rfl | rfl <;> simp [hs]
    · simp [hs]
  refine ⟨h.binding, h.version, h.live, hrevoked, fun hw => ⟨by rw [h.generation, if_pos hw], fun hn => ?_⟩,
    fun hw => ⟨by rw [h.generation, if_neg hw, add_zero], fun hne => ?_⟩⟩
  · have := hrevoked.1 ((RefreshSecretRecord.secret_none_iff new).1 hn)
    rw [this] at hw
    simp at hw
  · cases h with
    | claim _ _ fields => exact (congrArg SecretFields.refreshSecret fields).trans rfl
    | block _ _ _ _ fields => exact (congrArg SecretFields.refreshSecret fields).trans rfl
    | commit _ _ _ _ _ => exact absurd (.inl rfl) hw
    | recoverNotApplied _ fields => exact (congrArg SecretFields.refreshSecret fields).trans rfl
    | recoverRotated _ _ => exact absurd (.inr rfl) hw
    | revoke _ _ => exact absurd rfl hne

/-- One stored record after another of the same binding. -/
def NextRecord (old new : RefreshSecretRecord) : Prop := new.version = old.version + 1 ∧ old.state ≠ .revoked

/-- The records of a binding follow each other. -/
theorem storedRecords_chain {log : List SecretItem} (h : Log.Holds SecretItem.Ok log) (b : CredentialBinding) :
    (storedRecords b log).IsChain NextRecord := by
  refine Log.Holds.induct (Q := fun log => (storedRecords b log).IsChain NextRecord) List.IsChain.nil ?_ h
  intro log item _ hok ih
  unfold storedRecords at ih ⊢
  rw [List.filterMap_append]
  cases item with
  | exchanged b' g a x =>
    have hnone : List.filterMap (SecretItem.stores b) [SecretItem.exchanged b' g a x] = [] := rfl
    rw [hnone, List.append_nil]
    exact ih
  | seeded record =>
    by_cases hb : record.binding = b
    · have hempty : log.filterMap (SecretItem.stores b) = [] := hb ▸ hok.1
      rw [hempty]
      simp [SecretItem.stores, hb]
    · simpa [SecretItem.stores, hb] using ih
  | wrote writer old new =>
    obtain ⟨hlast, attempt, called, hw, -⟩ := hok
    by_cases hb : new.binding = b
    · have hone : List.filterMap (SecretItem.stores b) [SecretItem.wrote writer old new] = [new] := by simp [SecretItem.stores, hb]
      rw [hone]
      refine List.isChain_append.2 ⟨ih, List.IsChain.singleton new, fun x hx y hy => ?_⟩
      rw [← hw.binding, hb] at hlast
      obtain rfl := Option.some.inj (hlast.symm.trans hx)
      obtain rfl := Option.some.inj hy
      exact ⟨hw.version, hw.live⟩
    · simpa [SecretItem.stores, hb] using ih

/-- A binding has one record of a version. -/
theorem storedRecords_version_inj {log : List SecretItem} (h : Log.Holds SecretItem.Ok log) {b : CredentialBinding}
    {r r' : RefreshSecretRecord} (hr : r ∈ storedRecords b log) (hr' : r' ∈ storedRecords b log) (hv : r.version = r'.version) :
    r = r' := by
  have hpair : (storedRecords b log).Pairwise (fun x y => x.version < y.version) := by
    have hchain : (storedRecords b log).IsChain (fun x y => x.version < y.version) :=
      (storedRecords_chain h b).imp fun x y hxy => by
        have := hxy.1
        omega
    have : IsTrans RefreshSecretRecord (fun x y => x.version < y.version) := ⟨fun _ _ _ => lt_trans⟩
    exact hchain.pairwise
  have hnodup : ((storedRecords b log).map (fun r => r.version)).Nodup := by
    refine List.pairwise_map.2 (hpair.imp fun hlt => ?_)
    exact ne_of_lt hlt
  exact List.inj_on_of_nodup_map hnodup hr hr' hv

variable {T : Type}

/-- A write of a record that is stored. -/
theorem SecretInv.stored_cases {w : SecretWorld T} (hi : SecretInv w) {b : CredentialBinding} {r : RefreshSecretRecord}
    (hr : r ∈ storedRecords b w.log) :
    (r.state = .ready ∧ r.version = 0) ∨ ∃ pre writer old post, w.log = pre ++ .wrote writer old r :: post := by
  obtain ⟨item, hitem, hs⟩ := List.mem_filterMap.1 hr
  obtain ⟨pre, post, hlog⟩ := List.append_of_mem hitem
  cases item with
  | exchanged b' g a x => nomatch hs
  | seeded record =>
    simp only [SecretItem.stores, Option.ite_none_right_eq_some, Option.some.injEq] at hs
    obtain ⟨-, rfl⟩ := hs
    exact .inl (hi.items pre _ post hlog).2
  | wrote writer old new =>
    simp only [SecretItem.stores, Option.ite_none_right_eq_some, Option.some.injEq] at hs
    obtain ⟨-, rfl⟩ := hs
    exact .inr ⟨pre, writer, old, post, hlog⟩

/-- An access grant that is returned came with the secret that the same attempt has committed. -/
theorem granted_committed {w : SecretWorld T} (hi : SecretInv w) {t : T} {v : SourceView} (hk : SourceKnows t v w)
    {grant : AccessCredentialGrant} (hg : CredentialSource.Granted grant v) :
    ∃ pre post a r secret old claimed committed, w.log = pre ++ .wrote .commit claimed committed :: post ∧
      (a, t) ∈ w.attempts ∧ .wrote .claim old claimed ∈ w.log ∧ claimed.activeAttemptId = some a ∧
      .exchanged claimed.binding claimed.refreshGeneration a (.result r) ∈ pre ∧ r.grant = some grant ∧
      r.rotatedRefreshSecret = .str secret ∧ CredentialSource.Concludes claimed a secret committed := by
  obtain ⟨a, r, secret, claimed, committed, ha, hcalled, hgrant, hrotated, hseen, hactive, hcommitted, hend⟩ := hg
  have hrefreshing := RefreshSecretRecord.refreshing_of_active hactive
  have hstored := hk.stored claimed hseen
  have hmine := hk.called a claimed _ ha hcalled
  -- the claim that stored the claimed record
  have hclaim : ∃ old, .wrote .claim old claimed ∈ w.log := by
    rcases hi.stored_cases hstored with ⟨hready, -⟩ | ⟨pre, writer, old, post, hlog⟩
    · rw [hready] at hrefreshing
      nomatch hrefreshing
    · obtain ⟨-, attempt, called, hw, -⟩ := hi.items pre _ post hlog
      obtain ⟨rfl, -⟩ := hw.claim_of_refreshing hrefreshing
      exact ⟨old, by rw [hlog]; simp⟩
  obtain ⟨old, hclaim⟩ := hclaim
  rcases hi.stored_cases (hk.stored committed hcommitted) with ⟨-, h0⟩ | ⟨pre, writer, before, post, hlog⟩
  · have h1 := hend.version
    have h2 := claimed.ok.version
    omega
  · obtain ⟨hlast, attempt, called, hw, hexchanged⟩ := hi.items pre _ post hlog
    have hbefore : before = claimed := by
      have hb : before.binding = claimed.binding := hw.binding.symm.trans hend.binding
      have hmem : before ∈ storedRecords claimed.binding w.log := by
        rw [← hb]
        refine mem_storedRecords_mono (fun x hx => ?_) (List.mem_of_getLast? hlast)
        rw [hlog]
        exact List.mem_append_left _ hx
      refine storedRecords_version_inj hi.items hmem hstored ?_
      have h1 := hw.version
      have h2 := hend.version
      omega
    subst hbefore
    cases hw with
    | commit given replied rotated active fields =>
      obtain rfl := Option.some.inj (active.symm.trans hactive)
      have hthere := hexchanged _ _ _ given replied
      have hsame := Log.eq_of_nodup_filterMap hi.once hmine (by rw [hlog]; exact List.mem_append_left _ hthere) rfl rfl
      obtain ⟨-, -, -, hreply⟩ := SecretItem.exchanged.inj hsame
      rw [← hreply] at hthere
      exact ⟨pre, post, _, r, secret, old, _, committed, hlog, (hk.attempt _ ha).1, hclaim, hactive, hthere, hgrant, hrotated, hend⟩
    | claim _ ready _ => rw [ready] at hrefreshing; nomatch hrefreshing
    | block _ _ _ blocked fields =>
      have hstate := (congrArg SecretFields.state fields).symm.trans hend.state
      rcases blocked with rfl | rfl <;> nomatch hstate
    | recoverNotApplied ambiguous _ => rw [ambiguous] at hrefreshing; nomatch hrefreshing
    | recoverRotated ambiguous _ => rw [ambiguous] at hrefreshing; nomatch hrefreshing
    | revoke _ fields => nomatch (congrArg SecretFields.state fields).symm.trans hend.state

end Keirin

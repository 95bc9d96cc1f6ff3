import Keirin.Lemmas.RefreshingProvider

/-!
# The refreshing provider is safe

What holds of a provider however its threads interleave, whatever the source does and whatever the clocks show, as long as the
monotonic one does not go back.
-/

namespace Keirin

variable {T M : Type} [LinearOrder M] [DecidableEq T]

/-- Of two snapshots in the log the first is no younger. -/
theorem created_sorted {binding : CredentialBinding} {log : List ProviderItem} (h : Log.Holds (ProviderItemOk binding) log) :
    (created log).Pairwise (· ≤ ·) := by
  refine Log.Holds.induct (Q := fun log => (created log).Pairwise (· ≤ ·)) List.Pairwise.nil ?_ h
  intro log item _ hok ih
  cases item with
  | returned minimum s =>
    rw [created, List.filterMap_append]
    refine List.pairwise_append.2 ⟨ih, List.pairwise_singleton _ _, fun c hc c' hc' => ?_⟩
    rw [List.mem_singleton.1 hc']
    exact hok.2.1 c hc
  | failed => rwa [created_append log rfl]
  | revoked => rwa [created_append log rfl]

/-- In every interleaving of calls of `snapshot` and `revoke` of any number of threads: one call of `source.refresh_access` at
most is in flight; every snapshot is of the binding and lasts as long as its call asked for; the snapshots are in the order of
their times; and once the provider was revoked, or a call failed outside the lock, no snapshot is returned any more, and no grant
is held while no call is in flight. -/
theorem provider_safe (sw : Stopwatch M) (binding : CredentialBinding) (configured : Bool) (start : M)
    (es : List (SchedEvent T ProviderCall (ProviderChoice M))) :
    let g := (providers T sw binding).run (Team.init (.initial configured start)) es
    g.world.inSource.length ≤ 1 ∧
    (∀ minimum s, .returned minimum s ∈ g.world.log →
      s.providerId = binding.providerId ∧ s.accountLabel = some binding.accountId ∧ s.capabilities = binding.capabilities ∧
      s.issuedAt ≤ s.createdAt ∧ 0 < s.expiresAt - s.createdAt ∧ minimum ≤ s.expiresAt - s.createdAt) ∧
    (g.world.log.filterMap ProviderItem.createdAt).Pairwise (· ≤ ·) ∧
    (∀ pre item post, g.world.log = pre ++ item :: post → item.ends = true → ∀ minimum s, .returned minimum s ∉ post) ∧
    ((∃ item ∈ g.world.log, item.ends = true) → g.world.inFlight = [] → g.world.provider.grant = none) ∧
    (∀ t s, g.thread t = some (.ret (some s)) → ∃ minimum, .returned minimum s ∈ g.world.log) := by
  intro g
  have hi : ProviderInv sw binding g.world := Team.run_inv providers_safe (ProviderInv.initial configured start) es
  refine ⟨hi.source, fun minimum s hs => ?_, created_sorted hi.items, fun pre item post hlog hends minimum s hs => ?_,
    fun hended _ => ?_, fun t s hret => ?_⟩
  · obtain ⟨pre, post, hlog⟩ := List.append_of_mem hs
    obtain ⟨h, -⟩ := hi.items pre _ post hlog
    exact ⟨h.providerId, h.accountLabel, h.capabilities, h.issued, h.positive, h.lifetime⟩
  · obtain ⟨mid, post', rfl⟩ := List.append_of_mem hs
    obtain ⟨-, -, hall⟩ : ProviderItemOk binding (pre ++ item :: mid) (.returned minimum s) :=
      hi.items _ _ post' (by rw [hlog]; simp)
    rw [hall item (by simp)] at hends
    nomatch hends
  · obtain ⟨item, hitem, hends⟩ := hended
    exact hi.cleared (hi.ended item hitem hends)
  · exact Team.run_post providers_safe (ProviderInv.initial configured start) es hret s rfl

/-- A snapshot is issued; the wall clock jumps back, and the next one is from the same grant and no older. -/
example :
    let b : CredentialBinding := { providerId := "p", accountId := "a", capabilities := ["c"], provider := by decide
                                   account := by decide, canonical := by decide }
    let sw : Stopwatch Nat := { seconds := fun now start => now - start, mono := fun _ _ _ h => Nat.sub_le_sub_right h _ }
    let grant : AccessCredentialGrant :=
      { providerId := .str "p", accountId := .str "a", capabilities := .arr [.str "c"], accessToken := .str "t"
        issuedAt := .num (.int 90), expiresAt := .num (.int 900) }
    let call : ProviderCall := .snapshot (.arr [.str "c"]) (.num (.int 300)) (.bool false) none
    let time (t m : Nat) (wall : Int) : List (SchedEvent Nat ProviderCall (ProviderChoice Nat)) :=
      [.step t (.reading m), .step t (.clock (.value (.num (.int wall))))]
    let here (t : Nat) : List (SchedEvent Nat ProviderCall (ProviderChoice Nat)) := [.step t (.available (.value true))]
    let ok (t : Nat) : List (SchedEvent Nat ProviderCall (ProviderChoice Nat)) := [.step t .ok]
    let g := (providers Nat sw b).run (Team.init (.initial true 7))
      ([.start 0 call] ++ ok 0 ++ time 0 7 100 ++ ok 0 ++ time 0 7 100 ++ here 0 ++ time 0 8 101 ++ ok 0 ++ ok 0 ++
          [.step 0 (.grant (.value (some grant)))] ++ here 0 ++ time 0 9 102 ++ ok 0 ++
        [.start 1 call] ++ ok 1 ++ time 1 9 50 ++ ok 1 ++ time 1 9 50 ++ here 1 ++ time 1 9 50 ++ here 1 ++ time 1 9 50 ++ ok 1)
    g.world.log.filterMap ProviderItem.createdAt = [102, 102] ∧ g.world.inFlight = [] := by decide +kernel

end Keirin

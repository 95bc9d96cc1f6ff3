import Keirin.Lemmas.SecretInv

/-!
# The refresh secret is used once

A source claims the record before it calls the provider. An attempt has one claim, so the calls at a generation are among its
claims; and a generation is claimed again only after an operator found the last refresh not applied.
-/

namespace Keirin

variable {T : Type}

/-- The exchanges of the record at a generation, by their attempts. -/
def exchangeAttempts (log : List SecretItem) (b : CredentialBinding) (g : Int) : List String :=
  (log.filter (SecretItem.isExchange b g)).filterMap SecretItem.exchangeAttempt

/-- An exchange has an attempt. -/
theorem length_exchangeAttempts (log : List SecretItem) (b : CredentialBinding) (g : Int) :
    (exchangeAttempts log b g).length = log.countP (SecretItem.isExchange b g) := by
  unfold exchangeAttempts
  rw [List.length_filterMap_eq_countP, List.countP_filter]
  refine List.countP_congr fun item _ => ?_
  cases item with
  | seeded record => simp [SecretItem.isExchange]
  | wrote writer old new => simp [SecretItem.isExchange]
  | exchanged b' g' a x => simp [SecretItem.exchangeAttempt]

/-- The attempts of the claims of the record at a generation are no more than its claims. -/
theorem length_claimAttempts_le (log : List SecretItem) (b : CredentialBinding) (g : Int) :
    (log.filterMap (SecretItem.claimAttempt b g)).length ≤ log.countP (SecretItem.isClaim b g) := by
  rw [List.length_filterMap_eq_countP]
  refine List.countP_mono_left fun item _ hsome => ?_
  unfold SecretItem.claimAttempt at hsome
  split at hsome
  · by_contra hno
    rw [if_neg hno] at hsome
    nomatch hsome
  · nomatch hsome

/-- The attempt of a claim in the log. -/
theorem ClaimedIn.mem_claimAttempts {log : List SecretItem} {b : CredentialBinding} {g : Int} {a : String}
    (h : ClaimedIn log b g a) : a ∈ log.filterMap (SecretItem.claimAttempt b g) := by
  obtain ⟨old, new, hmem, hb, hg, ha⟩ := h
  refine List.mem_filterMap.2 ⟨_, hmem, ?_⟩
  have hclaim : SecretItem.isClaim b g (.wrote .claim old new) = true := by simp [SecretItem.isClaim, hb, hg]
  simp only [SecretItem.claimAttempt, hclaim, if_true, ha]

/-- There are no more exchanges than claims. -/
theorem SecretInv.exchanges_le_claims {w : SecretWorld T} (hi : SecretInv w) (b : CredentialBinding) (g : Int) :
    w.log.countP (SecretItem.isExchange b g) ≤ w.log.countP (SecretItem.isClaim b g) := by
  have hnodup : (exchangeAttempts w.log b g).Nodup :=
    List.Nodup.sublist (List.Sublist.filterMap SecretItem.exchangeAttempt List.filter_sublist) hi.once
  have hsub : ∀ a ∈ exchangeAttempts w.log b g, a ∈ w.log.filterMap (SecretItem.claimAttempt b g) := by
    intro a ha
    obtain ⟨item, hitem, hattempt⟩ := List.mem_filterMap.1 ha
    obtain ⟨hmem, hx⟩ := List.mem_filter.1 hitem
    cases item with
    | seeded record => nomatch hx
    | wrote writer old new => nomatch hx
    | exchanged b' g' a' x =>
      obtain rfl := Option.some.inj hattempt
      simp only [SecretItem.isExchange, Bool.and_eq_true, decide_eq_true_eq] at hx
      obtain ⟨rfl, rfl⟩ := hx
      exact (hi.exchanged _ _ _ _ hmem).mem_claimAttempts
  calc w.log.countP (SecretItem.isExchange b g)
      = (exchangeAttempts w.log b g).length := (length_exchangeAttempts w.log b g).symm
    _ ≤ (w.log.filterMap (SecretItem.claimAttempt b g)).length := (hnodup.subperm hsub).length_le
    _ ≤ w.log.countP (SecretItem.isClaim b g) := length_claimAttempts_le w.log b g

/-- A generation is claimed once, and once more for each recovery as not applied. -/
theorem SecretInv.claims_le {w : SecretWorld T} (hi : SecretInv w) (b : CredentialBinding) (g : Int) :
    w.log.countP (SecretItem.isClaim b g) ≤ 1 + w.log.countP (SecretItem.isNotApplied b g) := by
  cases hr : w.records b with
  | none =>
    rw [hi.unclaimed b hr g]
    exact Nat.zero_le _
  | some r => exact (hi.claims b r hr g).1

/-- Whatever sources refresh, recover and revoke over one store, in any interleaving, cut off anywhere, with any faults of the
store and any answers of the provider: the provider is called at most once for a generation of a record, and once more for
each recovery as not applied that took effect at that generation. -/
theorem refresh_once [DecidableEq T] (es : List (SchedEvent T SourceCall SecretChoice)) (b : CredentialBinding) (g : Int) :
    ((sources T).run (Team.init .initial) es).world.log.countP (SecretItem.isExchange b g) ≤
      1 + ((sources T).run (Team.init .initial) es).world.log.countP (SecretItem.isNotApplied b g) := by
  have hi := sources_inv es
  exact (hi.exchanges_le_claims b g).trans (hi.claims_le b g)

/-- The bound is reached: a refresh with an unknown outcome, its recovery as not applied, and another refresh. -/
example :
    let b : CredentialBinding := { providerId := "p", accountId := "a", capabilities := ["c"], provider := by decide
                                   account := by decide, canonical := by decide }
    let ok (n : Nat) (t : Nat) : List (SchedEvent Nat SourceCall SecretChoice) := List.replicate n (.step t .ok)
    let log := ((sources Nat).run (Team.init .initial)
      (.start 0 (.seed b "s") :: ok 1 0 ++
        .start 1 (.refreshAccess b b 0) :: ok 1 1 ++ [.step 1 (.attempt "x")] ++ ok 1 1 ++ [.step 1 (.answer (.raised none))] ++
          ok 1 1 ++
        .start 2 (.recoverNotApplied b 2 "x") :: ok 2 2 ++
        .start 3 (.refreshAccess b b 0) :: ok 1 3 ++ [.step 3 (.attempt "y")] ++ ok 1 3 ++
          [.step 3 (.answer (.raised none))])).world.log
    log.countP (SecretItem.isExchange b 0) = 2 ∧ log.countP (SecretItem.isNotApplied b 0) = 1 := by decide +kernel

end Keirin

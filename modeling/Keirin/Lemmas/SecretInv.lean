import Keirin.Lemmas.SecretStore
import Keirin.Lib.Log

/-!
# The invariant of the secret store

The invariant of the store and its log (`SecretInv`), what a command of one thread does to them (`SecretGuar`), and what a
thread knows of them (`Knows`). The claims of a generation are counted against the recoveries that found a refresh not
applied; every exchange goes back to a claim under its own attempt.
-/

namespace Keirin

namespace SecretItem

/-- Whether an entry is a claim of the record at the generation. -/
def isClaim (binding : CredentialBinding) (generation : Int) : SecretItem → Bool
  | wrote .claim old _ => old.binding = binding && old.refreshGeneration = generation
  | _ => false

/-- The attempt of a claim of the record at the generation. -/
def claimAttempt (binding : CredentialBinding) (generation : Int) (item : SecretItem) : Option String :=
  match item with
  | wrote .claim _ new => if item.isClaim binding generation then new.activeAttemptId else none
  | _ => none

/-- The attempt of an exchange. -/
def exchangeAttempt : SecretItem → Option String
  | exchanged _ _ a _ => some a
  | _ => none

/-- The record an entry stores for the binding. -/
def stores (binding : CredentialBinding) : SecretItem → Option RefreshSecretRecord
  | seeded record => if record.binding = binding then some record else none
  | wrote _ _ new => if new.binding = binding then some new else none
  | exchanged .. => none

end SecretItem

/-- The records that were stored for a binding, the oldest first. -/
def storedRecords (binding : CredentialBinding) (log : List SecretItem) : List RefreshSecretRecord :=
  log.filterMap (SecretItem.stores binding)

/-- The log holds a claim of the record at the generation under the attempt. -/
def ClaimedIn (log : List SecretItem) (binding : CredentialBinding) (generation : Int) (a : String) : Prop :=
  ∃ old new, .wrote .claim old new ∈ log ∧ old.binding = binding ∧ old.refreshGeneration = generation ∧
    new.activeAttemptId = some a

/-- An entry is in order after the entries before it: a configured record is the first of its binding, a write replaces the record
that was stored last and is one of a call whose exchange is in the log, and an exchange has a claim. -/
def SecretItem.Ok (pre : List SecretItem) : SecretItem → Prop
  | seeded record => storedRecords record.binding pre = [] ∧ record.state = .ready ∧ record.version = 0
  | wrote writer old new => (storedRecords old.binding pre).getLast? = some old ∧
      ∃ attempt called, Writes attempt called writer old new ∧
        ∀ a claimed x, attempt = some a → called = some (claimed, x) →
          .exchanged claimed.binding claimed.refreshGeneration a x ∈ pre
  | exchanged b g a _ => ClaimedIn pre b g a

section Contract

variable {T : Type}

/-- The invariant of the store. -/
structure SecretInv (w : SecretWorld T) : Prop where
  keyed : ∀ b r, w.records b = some r → r.binding = b
  attempts : (w.attempts.map Prod.fst).Nodup
  owned : ∀ b g a, ClaimedIn w.log b g a → a ∈ w.attempts.map Prod.fst
  claimed : ∀ b r a, w.records b = some r → r.activeAttemptId = some a → ClaimedIn w.log b r.refreshGeneration a
  exchanged : ∀ b g a x, .exchanged b g a x ∈ w.log → ClaimedIn w.log b g a
  once : (w.log.filterMap SecretItem.exchangeAttempt).Nodup
  claims : ∀ b r, w.records b = some r → ∀ g,
    w.log.countP (SecretItem.isClaim b g) ≤ 1 + w.log.countP (SecretItem.isNotApplied b g) ∧
    (r.refreshGeneration = g → r.state = .ready → w.log.countP (SecretItem.isClaim b g) ≤ w.log.countP (SecretItem.isNotApplied b g)) ∧
    (r.refreshGeneration < g → w.log.countP (SecretItem.isClaim b g) = 0)
  unclaimed : ∀ b, w.records b = none → ∀ g, w.log.countP (SecretItem.isClaim b g) = 0
  items : Log.Holds SecretItem.Ok w.log
  current : ∀ b, w.records b = (storedRecords b w.log).getLast?

/-- What a command of thread `t` does to a record. -/
structure RecordStep (t : T) (w' : SecretWorld T) (old new : RefreshSecretRecord) : Prop where
  version : old.version < new.version
  live : old.state ≠ .revoked
  owner : old.state = .refreshing → (∃ a, old.activeAttemptId = some a ∧ (a, t) ∈ w'.attempts) ∨
    (new.state = .revoked ∧ new.refreshGeneration = old.refreshGeneration)

/-- What a command of thread `t` does to the store. -/
structure SecretGuar (t : T) (w w' : SecretWorld T) : Prop where
  attempts : ∀ p ∈ w.attempts, p ∈ w'.attempts
  log : ∀ x ∈ w.log, x ∈ w'.log
  exchanged : ∀ b g a x, .exchanged b g a x ∈ w'.log → .exchanged b g a x ∈ w.log ∨ (a, t) ∈ w'.attempts
  records : ∀ b old, w.records b = some old → ∃ new, w'.records b = some new ∧ (new = old ∨ RecordStep t w' old new)

/-- What a thread knows of the store. -/
structure SourceKnows (t : T) (v : SourceView) (w : SecretWorld T) : Prop where
  seen : ∀ r ∈ v.seen, ∃ now, w.records r.binding = some now ∧ (now = r ∨ r.version < now.version)
  stored : ∀ r ∈ v.seen, r ∈ storedRecords r.binding w.log
  attempt : ∀ a, v.attempt = some a → (a, t) ∈ w.attempts ∧ (v.called = none → ∀ b g x, .exchanged b g a x ∉ w.log)
  called : ∀ a claimed x, v.attempt = some a → v.called = some (claimed, x) →
    .exchanged claimed.binding claimed.refreshGeneration a x ∈ w.log
  claimed : ∀ r ∈ v.seen, ∀ a, r.activeAttemptId = some a → ClaimedIn w.log r.binding r.refreshGeneration a
  current : v.called = none → ∀ a, v.attempt = some a → ∀ r ∈ v.seen, r.activeAttemptId = some a →
    ∃ now, w.records r.binding = some now ∧
      (now = r ∨ (now.state = .revoked ∧ now.refreshGeneration = r.refreshGeneration))

/-- The contract of the sources. -/
def secretContract (T : Type) : Contract T (SecretWorld T) where
  inv := SecretInv
  guar := SecretGuar

theorem ClaimedIn.mono {log log' : List SecretItem} (h : ∀ x ∈ log, x ∈ log') {b : CredentialBinding} {g : Int} {a : String}
    (hc : ClaimedIn log b g a) : ClaimedIn log' b g a := by
  obtain ⟨old, new, hmem, hrest⟩ := hc
  exact ⟨old, new, h _ hmem, hrest⟩

/-- An attempt belongs to one thread. -/
theorem SecretInv.owner_unique {w : SecretWorld T} (hi : SecretInv w) {a : String} {t u : T} (ht : (a, t) ∈ w.attempts)
    (hu : (a, u) ∈ w.attempts) : t = u :=
  congrArg Prod.snd (List.inj_on_of_nodup_map hi.attempts ht hu rfl)

theorem mem_storedRecords_mono {log log' : List SecretItem} (h : ∀ x ∈ log, x ∈ log') {b : CredentialBinding}
    {r : RefreshSecretRecord} (hr : r ∈ storedRecords b log) : r ∈ storedRecords b log' := by
  obtain ⟨item, hitem, hs⟩ := List.mem_filterMap.1 hr
  exact List.mem_filterMap.2 ⟨item, h item hitem, hs⟩

/-- What the others do keeps what a thread knows. -/
theorem SourceKnows.others {t u : T} {v : SourceView} {w w' : SecretWorld T} (hu : u ≠ t) (hi' : SecretInv w')
    (hg : SecretGuar u w w') (hk : SourceKnows t v w) : SourceKnows t v w' where
  seen := by
    intro r hr
    obtain ⟨now, hnow, hv⟩ := hk.seen r hr
    obtain ⟨new, hnew, hstep⟩ := hg.records r.binding now hnow
    refine ⟨new, hnew, ?_⟩
    rcases hstep with rfl | hstep
    · exact hv
    · have := hstep.version
      rcases hv with rfl | hv
      · exact .inr this
      · exact .inr (by omega)
  stored := fun r hr => mem_storedRecords_mono hg.log (hk.stored r hr)
  attempt := by
    intro a ha
    obtain ⟨hmem, hno⟩ := hk.attempt a ha
    refine ⟨hg.attempts _ hmem, fun he b g x hx => ?_⟩
    rcases hg.exchanged b g a x hx with hx | hx
    · exact hno he b g x hx
    · exact hu (hi'.owner_unique hx (hg.attempts _ hmem))
  called := fun a claimed x ha hc => hg.log _ (hk.called a claimed x ha hc)
  claimed := fun r hr a ha => (hk.claimed r hr a ha).mono hg.log
  current := by
    intro he a ha r hr hactive
    obtain ⟨now, hnow, hv⟩ := hk.current he a ha r hr hactive
    obtain ⟨new, hnew, hstep⟩ := hg.records r.binding now hnow
    refine ⟨new, hnew, ?_⟩
    rcases hstep with rfl | hstep
    · exact hv
    rcases hv with rfl | ⟨hrevoked, -⟩
    · rcases hstep.owner (RefreshSecretRecord.refreshing_of_active hactive) with ⟨a', ha', hmem⟩ | hrev
      · rw [hactive] at ha'
        cases ha'
        exact absurd (hi'.owner_unique hmem (hg.attempts _ (hk.attempt a ha).1)) hu
      · exact .inr hrev
    · exact absurd hrevoked hstep.live

/-- A command that leaves the store as it is. -/
theorem SecretGuar.refl (t : T) (w : SecretWorld T) : SecretGuar t w w :=
  ⟨fun _ h => h, fun _ h => h, fun _ _ _ _ h => .inl h, fun _ old h => ⟨old, h, .inl rfl⟩⟩

/-! ## Writes -/

/-- What a write that takes effect does. -/
theorem SecretWorld.swap_ok {w w' : SecretWorld T} {writer : SecretWriter} {b : CredentialBinding} {expected : Int}
    {new : RefreshSecretRecord} (h : w.swap writer b expected new = .ok w') :
    ∃ old, w.records b = some old ∧ old.version = expected ∧
      w' = { w.store b new with log := w.log ++ [.wrote writer old new] } := by
  unfold SecretWorld.swap at h
  obtain ⟨-, h⟩ := raiseIf_bind_ok.1 h
  obtain ⟨-, h⟩ := raiseIf_bind_ok.1 h
  obtain ⟨-, h⟩ := raiseIf_bind_ok.1 h
  split at h
  · nomatch h
  · rename_i old hold
    obtain ⟨hv, h⟩ := raiseIf_bind_ok.1 h
    exact ⟨old, hold, not_not.1 hv, (Except.ok.inj h).symm⟩

section Swap

variable {t : T} {v : SourceView} {w : SecretWorld T} {writer : SecretWriter} {b : CredentialBinding}
  {attempt : Option String} {called : Option (RefreshSecretRecord × ExchangeReply)} {old new : RefreshSecretRecord}

/-- The store after a write that took effect. -/
def SecretWorld.wrote (w : SecretWorld T) (writer : SecretWriter) (b : CredentialBinding) (old new : RefreshSecretRecord) :
    SecretWorld T :=
  { w.store b new with log := w.log ++ [.wrote writer old new] }

theorem SecretWorld.wrote_self : (w.wrote writer b old new).records b = some new := by
  simp [SecretWorld.wrote, SecretWorld.store]

theorem SecretWorld.wrote_of_ne {b' : CredentialBinding} (h : b' ≠ b) :
    (w.wrote writer b old new).records b' = w.records b' := by
  simp [SecretWorld.wrote, SecretWorld.store, Function.update_of_ne h]

theorem SecretWorld.mem_wrote {x : SecretItem} (h : x ∈ w.log) : x ∈ (w.wrote writer b old new).log := List.mem_append_left _ h

/-- A write is no exchange. -/
theorem SecretWorld.exchanged_of_wrote {b' : CredentialBinding} {g : Int} {a : String} {x : ExchangeReply}
    (h : .exchanged b' g a x ∈ (w.wrote writer b old new).log) : .exchanged b' g a x ∈ w.log := by
  rcases List.mem_append.1 h with h | h
  · exact h
  · nomatch List.mem_singleton.1 h

/-- A write that shows a claimed record is its claim. -/
theorem claimedIn_wrote (hold : old.binding = b) (hm : Writes attempt called writer old new) {a : String}
    (ha : new.activeAttemptId = some a) : ClaimedIn (w.wrote writer b old new).log b new.refreshGeneration a := by
  obtain ⟨hw, -, -⟩ := hm.claim_of_refreshing (RefreshSecretRecord.refreshing_of_active ha)
  subst hw
  have hgen : new.refreshGeneration = old.refreshGeneration := by simpa using hm.generation
  exact ⟨old, new, List.mem_append_right _ (List.mem_singleton_self _), hold, hgen.symm, ha⟩

/-- The claims and recoveries of the record that was written, at a generation. -/
theorem SecretInv.claims_wrote (hi : SecretInv w) (hold : w.records b = some old) (hm : Writes attempt called writer old new)
    (g : Int) :
    (w.wrote writer b old new).log.countP (SecretItem.isClaim b g) ≤
        1 + (w.wrote writer b old new).log.countP (SecretItem.isNotApplied b g) ∧
      (new.refreshGeneration = g → new.state = .ready →
        (w.wrote writer b old new).log.countP (SecretItem.isClaim b g) ≤
          (w.wrote writer b old new).log.countP (SecretItem.isNotApplied b g)) ∧
      (new.refreshGeneration < g → (w.wrote writer b old new).log.countP (SecretItem.isClaim b g) = 0) := by
  obtain ⟨h1, h2, h3⟩ := hi.claims b old hold g
  have hb := hi.keyed b old hold
  simp only [SecretWorld.wrote, List.countP_append, List.countP_singleton]
  have hgen := hm.generation
  by_cases hclaim : writer = .claim
  · -- a claim uses the chance that a ready record leaves
    have hnew : new.state = .refreshing := by
      rcases hm.state with ⟨-, h⟩ | ⟨hw, -⟩ | ⟨hw, -⟩ | ⟨hw, -⟩
      · exact h
      all_goals
        subst hclaim
        simp at hw
    obtain ⟨-, hready, -⟩ := hm.claim_of_refreshing hnew
    subst hclaim
    have hno : SecretItem.isNotApplied b g (.wrote .claim old new) = false := rfl
    have hyes : SecretItem.isClaim b g (.wrote .claim old new) = decide (old.refreshGeneration = g) := by simp [SecretItem.isClaim, hb]
    simp only [reduceCtorEq, or_self, if_false, add_zero] at hgen
    rw [hno, hyes]
    by_cases hg : old.refreshGeneration = g
    · have := h2 hg hready
      simp only [hg, decide_true, if_true, Bool.false_eq_true, if_false]
      refine ⟨by omega, fun _ h => ?_, fun h => by omega⟩
      rw [hnew] at h
      nomatch h
    · simp only [hg, decide_false, Bool.false_eq_true, if_false]
      exact ⟨by omega, fun h => absurd (hgen ▸ h) hg, fun h => by have := h3 (by omega); omega⟩
  · have hno : SecretItem.isClaim b g (.wrote writer old new) = false := by
      cases writer <;> first | rfl | exact absurd rfl hclaim
    rw [hno]
    by_cases hrec : writer = .recoverNotApplied
    · -- a recovery as not applied gives the chance back
      subst hrec
      simp only [reduceCtorEq, or_self, if_false, add_zero] at hgen
      have hyes : SecretItem.isNotApplied b g (.wrote .recoverNotApplied old new) = decide (old.refreshGeneration = g) := by
        simp [SecretItem.isNotApplied, hb]
      rw [hyes]
      by_cases hg : old.refreshGeneration = g
      · simp only [hg, decide_true, if_true, Bool.false_eq_true, if_false]
        exact ⟨by omega, fun _ _ => by omega, fun h => by omega⟩
      · simp only [hg, decide_false, Bool.false_eq_true, if_false]
        exact ⟨by omega, fun h => absurd (hgen ▸ h) hg, fun h => by have := h3 (by omega); omega⟩
    · have hno' : SecretItem.isNotApplied b g (.wrote writer old new) = false := by
        cases writer <;> first | rfl | exact absurd rfl hrec
      rw [hno']
      simp only [Bool.false_eq_true, if_false]
      have hle : old.refreshGeneration ≤ new.refreshGeneration := by
        rw [hgen]
        split <;> omega
      refine ⟨by omega, fun hg hready => ?_, fun h => by have := h3 (by omega); omega⟩
      -- a write that leaves the record ready is a recovery as not applied, or it grows the generation
      rcases hm.state with ⟨-, h⟩ | ⟨-, h⟩ | ⟨hw, -⟩ | ⟨-, h⟩
      · rw [hready] at h
        nomatch h
      · rw [hready] at h
        simp at h
      · rw [if_pos (by rcases hw with h | h | h <;> simp_all)] at hgen
        have := h3 (by omega)
        omega
      · rw [hready] at h
        nomatch h

/-- The claims and recoveries of the other records. -/
theorem SecretInv.claims_other (hi : SecretInv w) (hold : w.records b = some old) {b' : CredentialBinding} (h : b' ≠ b) (g : Int) :
    (w.wrote writer b old new).log.countP (SecretItem.isClaim b' g) = w.log.countP (SecretItem.isClaim b' g) ∧
      (w.wrote writer b old new).log.countP (SecretItem.isNotApplied b' g) = w.log.countP (SecretItem.isNotApplied b' g) := by
  have hb : ¬old.binding = b' := fun h' => h (h'.symm.trans (hi.keyed b old hold))
  have hc : SecretItem.isClaim b' g (.wrote writer old new) = false := by cases writer <;> simp [SecretItem.isClaim, hb]
  have hn : SecretItem.isNotApplied b' g (.wrote writer old new) = false := by cases writer <;> simp [SecretItem.isNotApplied, hb]
  simp [SecretWorld.wrote, List.countP_append, hc, hn]

/-- The records that are stored after a write. -/
theorem storedRecords_wrote (b' : CredentialBinding) (hnew : new.binding = b) :
    storedRecords b' (w.wrote writer b old new).log = storedRecords b' w.log ++ if b' = b then [new] else [] := by
  unfold storedRecords SecretWorld.wrote
  rw [List.filterMap_append]
  congr 1
  by_cases h : b' = b
  · simp [SecretItem.stores, h, hnew]
  · have hne : new.binding ≠ b' := fun h' => h (h'.symm.trans hnew)
    simp [SecretItem.stores, h, hne]

/-- A write keeps the invariant. -/
theorem SecretInv.wrote (hi : SecretInv w) (hk : SourceKnows t v w) (hold : w.records b = some old)
    (hm : Writes v.attempt v.called writer old new) : SecretInv (w.wrote writer b old new) := by
  have hb := hi.keyed b old hold
  have hnb : new.binding = b := hm.binding.trans hb
  refine ⟨fun b' r hr => ?_, hi.attempts, fun b' g a hc => ?_, fun b' r a hr ha => ?_, fun b' g a x hx => ?_, ?_,
    fun b' r hr g => ?_, fun b' hr g => ?_, hi.items.append ⟨?_, v.attempt, v.called, hm, hk.called⟩, fun b' => ?_⟩
  · by_cases h : b' = b
    · subst h
      rw [SecretWorld.wrote_self] at hr
      cases hr
      exact hm.binding.trans hb
    · rw [SecretWorld.wrote_of_ne h] at hr
      exact hi.keyed b' r hr
  · obtain ⟨o, n, hmem, hrest⟩ := hc
    rcases List.mem_append.1 hmem with hmem | hmem
    · exact hi.owned b' g a ⟨o, n, hmem, hrest⟩
    · obtain ⟨rfl, rfl, rfl⟩ := SecretItem.wrote.inj (List.mem_singleton.1 hmem)
      obtain ⟨-, -, a', hgiven, hactive⟩ := hm.claim_of_refreshing (RefreshSecretRecord.refreshing_of_active hrest.2.2)
      obtain rfl := Option.some.inj (hactive.symm.trans hrest.2.2)
      exact List.mem_map_of_mem (hk.attempt _ hgiven).1
  · by_cases h : b' = b
    · subst h
      rw [SecretWorld.wrote_self] at hr
      cases hr
      exact claimedIn_wrote hb hm ha
    · rw [SecretWorld.wrote_of_ne h] at hr
      exact (hi.claimed b' r a hr ha).mono fun _ => SecretWorld.mem_wrote
  · exact (hi.exchanged b' g a x (SecretWorld.exchanged_of_wrote hx)).mono fun _ => SecretWorld.mem_wrote
  · have hno : List.filterMap SecretItem.exchangeAttempt [SecretItem.wrote writer old new] = [] := rfl
    simp only [SecretWorld.wrote, List.filterMap_append, hno, List.append_nil]
    exact hi.once
  · by_cases h : b' = b
    · subst h
      rw [SecretWorld.wrote_self] at hr
      cases hr
      exact hi.claims_wrote hold hm g
    · rw [SecretWorld.wrote_of_ne h] at hr
      rw [(hi.claims_other hold h g).1, (hi.claims_other hold h g).2]
      exact hi.claims b' r hr g
  · by_cases h : b' = b
    · subst h
      rw [SecretWorld.wrote_self] at hr
      nomatch hr
    · rw [SecretWorld.wrote_of_ne h] at hr
      rw [(hi.claims_other hold h g).1]
      exact hi.unclaimed b' hr g
  · rw [hb, ← hi.current b]
    exact hold
  · rw [storedRecords_wrote b' hnb]
    by_cases h : b' = b
    · subst h
      rw [SecretWorld.wrote_self, if_pos rfl, List.getLast?_concat]
    · rw [SecretWorld.wrote_of_ne h, if_neg h, List.append_nil]
      exact hi.current b'

/-- A write is within the guarantee. -/
theorem SecretGuar.wrote (hk : SourceKnows t v w) (hold : w.records b = some old) (hm : Writes v.attempt v.called writer old new) :
    SecretGuar t w (w.wrote writer b old new) := by
  refine ⟨fun _ h => h, fun _ => SecretWorld.mem_wrote, fun b' g a x hx => .inl (SecretWorld.exchanged_of_wrote hx), fun b' r hr => ?_⟩
  by_cases h : b' = b
  · subst h
    rw [hold] at hr
    cases hr
    refine ⟨new, SecretWorld.wrote_self, .inr ⟨by rw [hm.version]; omega, hm.live, fun hs => ?_⟩⟩
    rcases hm.owner hs with ⟨-, a, ha, hactive⟩ | hrev
    · exact .inl ⟨a, hactive, (hk.attempt a ha).1⟩
    · exact .inr hrev
  · exact ⟨r, by rw [SecretWorld.wrote_of_ne h]; exact hr, .inl rfl⟩

/-- A write keeps what its thread knows, and the record it wrote may be added to it. -/
theorem SourceKnows.wrote (hi : SecretInv w) (hk : SourceKnows t v w) (hold : w.records b = some old)
    (hm : Writes v.attempt v.called writer old new) :
    SourceKnows t v (w.wrote writer b old new) ∧
      SourceKnows t { v with seen := new :: v.seen } (w.wrote writer b old new) := by
  have hb := hi.keyed b old hold
  have hnb : new.binding = b := hm.binding.trans hb
  have hv := hm.version
  have hseen : ∀ r ∈ v.seen, ∃ now, (w.wrote writer b old new).records r.binding = some now ∧ (now = r ∨ r.version < now.version) := by
    intro r hr
    obtain ⟨now, hnow, hver⟩ := hk.seen r hr
    by_cases h : r.binding = b
    · rw [h] at hnow ⊢
      rw [hold] at hnow
      cases hnow
      refine ⟨new, SecretWorld.wrote_self, .inr ?_⟩
      rcases hver with rfl | hver <;> omega
    · rw [SecretWorld.wrote_of_ne h]
      exact ⟨now, hnow, hver⟩
  have hattempt : ∀ a, v.attempt = some a → (a, t) ∈ (w.wrote writer b old new).attempts ∧
      (v.called = none → ∀ b' g x, .exchanged b' g a x ∉ (w.wrote writer b old new).log) := by
    intro a ha
    obtain ⟨hmem, hno⟩ := hk.attempt a ha
    exact ⟨hmem, fun he b' g x hx => hno he b' g x (SecretWorld.exchanged_of_wrote hx)⟩
  have hstored : ∀ r ∈ v.seen, r ∈ storedRecords r.binding (w.wrote writer b old new).log :=
    fun r hr => mem_storedRecords_mono (fun _ => SecretWorld.mem_wrote) (hk.stored r hr)
  have hcalled : ∀ a claimed x, v.attempt = some a → v.called = some (claimed, x) →
      .exchanged claimed.binding claimed.refreshGeneration a x ∈ (w.wrote writer b old new).log :=
    fun a claimed x ha hc => SecretWorld.mem_wrote (hk.called a claimed x ha hc)
  have hclaimed : ∀ r ∈ v.seen, ∀ a, r.activeAttemptId = some a →
      ClaimedIn (w.wrote writer b old new).log r.binding r.refreshGeneration a :=
    fun r hr a ha => (hk.claimed r hr a ha).mono fun _ => SecretWorld.mem_wrote
  have hcurrent : v.called = none → ∀ a, v.attempt = some a → ∀ r ∈ v.seen, r.activeAttemptId = some a →
      ∃ now, (w.wrote writer b old new).records r.binding = some now ∧
        (now = r ∨ (now.state = .revoked ∧ now.refreshGeneration = r.refreshGeneration)) := by
    intro he a ha r hr hactive
    obtain ⟨now, hnow, hver⟩ := hk.current he a ha r hr hactive
    by_cases h : r.binding = b
    · rw [h] at hnow ⊢
      rw [hold] at hnow
      cases hnow
      refine ⟨new, SecretWorld.wrote_self, .inr ?_⟩
      rcases hver with rfl | ⟨hrevoked, -⟩
      · rcases hm.owner (RefreshSecretRecord.refreshing_of_active hactive) with ⟨hx, -⟩ | hrev
        · exact absurd he hx
        · exact hrev
      · exact absurd hrevoked hm.live
    · rw [SecretWorld.wrote_of_ne h]
      exact ⟨now, hnow, hver⟩
  refine ⟨⟨hseen, hstored, hattempt, hcalled, hclaimed, hcurrent⟩, fun r hr => ?_, fun r hr => ?_, hattempt, hcalled,
    fun r hr a ha => ?_, fun he a ha r hr hactive => ?_⟩
  · rcases List.mem_cons.1 hr with rfl | hr
    · exact ⟨r, by rw [hnb]; exact SecretWorld.wrote_self, .inl rfl⟩
    · exact hseen r hr
  · rcases List.mem_cons.1 hr with rfl | hr
    · rw [storedRecords_wrote _ hnb, if_pos hnb]
      exact List.mem_append_right _ (List.mem_singleton_self _)
    · exact hstored r hr
  · rcases List.mem_cons.1 hr with rfl | hr
    · rw [hnb]
      exact claimedIn_wrote hb hm ha
    · exact hclaimed r hr a ha
  · rcases List.mem_cons.1 hr with rfl | hr
    · exact ⟨r, by rw [hnb]; exact SecretWorld.wrote_self, .inl rfl⟩
    · exact hcurrent he a ha r hr hactive

end Swap

/-! ## Steps -/

section Step

variable {t : T} {v : SourceView} {w : SecretWorld T}

/-- The store after a configuration. -/
def SecretWorld.configured (w : SecretWorld T) (record : RefreshSecretRecord) : SecretWorld T :=
  { w.store record.binding record with log := w.log ++ [.seeded record] }

theorem SecretWorld.mem_configured {record : RefreshSecretRecord} {x : SecretItem} (h : x ∈ w.log) : x ∈ (w.configured record).log :=
  List.mem_append_left _ h

theorem SecretWorld.exchanged_of_configured {record : RefreshSecretRecord} {b : CredentialBinding} {g : Int} {a : String}
    {x : ExchangeReply} (h : .exchanged b g a x ∈ (w.configured record).log) : .exchanged b g a x ∈ w.log := by
  rcases List.mem_append.1 h with h | h
  · exact h
  · nomatch List.mem_singleton.1 h

theorem SecretInv.configured (hi : SecretInv w) {record : RefreshSecretRecord} (hnone : w.records record.binding = none)
    (hready : record.state = .ready) (hversion : record.version = 0) : SecretInv (w.configured record) := by
  have hidle : record.activeAttemptId = none := RefreshSecretRecord.idle_of_not_refreshing (by rw [hready]; simp)
  have hrecords : ∀ b r, (w.configured record).records b = some r → (b = record.binding ∧ r = record) ∨ w.records b = some r := by
    intro b r hr
    by_cases h : b = record.binding
    · subst h
      simp only [SecretWorld.configured, SecretWorld.store, Function.update_self, Option.some.injEq] at hr
      exact .inl ⟨rfl, hr.symm⟩
    · simp only [SecretWorld.configured, SecretWorld.store, Function.update_of_ne h] at hr
      exact .inr hr
  have hcount : ∀ b g, (w.configured record).log.countP (SecretItem.isClaim b g) = w.log.countP (SecretItem.isClaim b g) ∧
      (w.configured record).log.countP (SecretItem.isNotApplied b g) = w.log.countP (SecretItem.isNotApplied b g) := by
    intro b g
    simp [SecretWorld.configured, List.countP_append, SecretItem.isClaim, SecretItem.isNotApplied]
  have hempty : storedRecords record.binding w.log = [] := by
    rw [← List.getLast?_eq_none_iff, ← hi.current, hnone]
  refine ⟨fun b r hr => ?_, hi.attempts, fun b g a hc => ?_, fun b r a hr ha => ?_, fun b g a x hx => ?_, ?_, fun b r hr g => ?_,
    fun b hr g => ?_, hi.items.append ⟨hempty, hready, hversion⟩, fun b => ?_⟩
  · rcases hrecords b r hr with ⟨rfl, rfl⟩ | hr
    · rfl
    · exact hi.keyed b r hr
  · obtain ⟨old, new, hmem, hrest⟩ := hc
    rcases List.mem_append.1 hmem with hmem | hmem
    · exact hi.owned b g a ⟨old, new, hmem, hrest⟩
    · nomatch List.mem_singleton.1 hmem
  · rcases hrecords b r hr with ⟨rfl, rfl⟩ | hr
    · rw [hidle] at ha
      nomatch ha
    · exact (hi.claimed b r a hr ha).mono fun _ => SecretWorld.mem_configured
  · exact (hi.exchanged b g a x (SecretWorld.exchanged_of_configured hx)).mono fun _ => SecretWorld.mem_configured
  · have hno : List.filterMap SecretItem.exchangeAttempt [SecretItem.seeded record] = [] := rfl
    simp only [SecretWorld.configured, List.filterMap_append, hno, List.append_nil]
    exact hi.once
  · rw [(hcount b g).1, (hcount b g).2]
    rcases hrecords b r hr with ⟨rfl, rfl⟩ | hr
    · rw [hi.unclaimed _ hnone g]
      exact ⟨Nat.zero_le _, fun _ _ => Nat.zero_le _, fun _ => rfl⟩
    · exact hi.claims b r hr g
  · rw [(hcount b g).1]
    by_cases h : b = record.binding
    · exact hi.unclaimed b (h ▸ hnone) g
    · simp only [SecretWorld.configured, SecretWorld.store, Function.update_of_ne h] at hr
      exact hi.unclaimed b hr g
  · by_cases h : b = record.binding
    · subst h
      have hone : storedRecords record.binding (w.configured record).log = [record] := by
        have happ : storedRecords record.binding (w.log ++ [.seeded record]) = storedRecords record.binding w.log ++ [record] := by
          simp [storedRecords, List.filterMap_append, SecretItem.stores]
        rw [SecretWorld.configured, happ, hempty, List.nil_append]
      rw [hone]
      simp [SecretWorld.configured, SecretWorld.store]
    · have hsame : storedRecords b (w.configured record).log = storedRecords b w.log := by
        simp [storedRecords, SecretWorld.configured, List.filterMap_append, SecretItem.stores, Ne.symm h]
      rw [hsame, ← hi.current b]
      simp [SecretWorld.configured, SecretWorld.store, Function.update_of_ne h]

/-- The store after an exchange that its claim allows. -/
theorem SecretInv.exchange (hi : SecretInv w) {b : CredentialBinding} {g : Int} {a : String} (x : ExchangeReply)
    (hc : ClaimedIn w.log b g a) (hfresh : ∀ b g x, .exchanged b g a x ∉ w.log) :
    SecretInv { w with log := w.log ++ [.exchanged b g a x] } := by
  have hmono : ∀ y ∈ w.log, y ∈ w.log ++ [.exchanged b g a x] := fun y hy => List.mem_append_left _ hy
  have hcount : ∀ b' g', (w.log ++ [SecretItem.exchanged b g a x]).countP (SecretItem.isClaim b' g') =
        w.log.countP (SecretItem.isClaim b' g') ∧
      (w.log ++ [SecretItem.exchanged b g a x]).countP (SecretItem.isNotApplied b' g') =
        w.log.countP (SecretItem.isNotApplied b' g') := by
    intro b' g'
    simp [List.countP_append, SecretItem.isClaim, SecretItem.isNotApplied]
  refine ⟨hi.keyed, hi.attempts, fun b' g' a' hc' => ?_, fun b' r a' hr ha => (hi.claimed b' r a' hr ha).mono hmono,
    fun b' g' a' x' hx => ?_, ?_, fun b' r hr g' => ?_, fun b' hr g' => ?_, hi.items.append hc, fun b' => ?_⟩
  · obtain ⟨old, new, hmem, hrest⟩ := hc'
    rcases List.mem_append.1 hmem with hmem | hmem
    · exact hi.owned b' g' a' ⟨old, new, hmem, hrest⟩
    · nomatch List.mem_singleton.1 hmem
  · rcases List.mem_append.1 hx with hx | hx
    · exact (hi.exchanged b' g' a' x' hx).mono hmono
    · obtain ⟨rfl, rfl, rfl, -⟩ := SecretItem.exchanged.inj (List.mem_singleton.1 hx)
      exact hc.mono hmono
  · have hone : List.filterMap SecretItem.exchangeAttempt [SecretItem.exchanged b g a x] = [a] := rfl
    simp only [List.filterMap_append, hone]
    refine hi.once.append (List.nodup_singleton a) fun y hy hy' => ?_
    obtain rfl := List.mem_singleton.1 hy'
    obtain ⟨item, hitem, hy⟩ := List.mem_filterMap.1 hy
    cases item with
    | seeded record => nomatch hy
    | wrote writer old new => nomatch hy
    | exchanged b' g' a' x' =>
      obtain rfl := Option.some.inj hy
      exact hfresh b' g' x' hitem
  · rw [(hcount b' g').1, (hcount b' g').2]
    exact hi.claims b' r hr g'
  · rw [(hcount b' g').1]
    exact hi.unclaimed b' hr g'
  · have hsame : storedRecords b' (w.log ++ [.exchanged b g a x]) = storedRecords b' w.log := by
      simp [storedRecords, List.filterMap_append, SecretItem.stores]
    rw [hsame]
    exact hi.current b'

attribute [local simp] SecretWorld.machine

/-- One step of a thread: the reply, the invariant, the guarantee, and what the thread knows next. -/
def StepOk (t : T) (v : SourceView) (w : SecretWorld T) (c : SecretCmd) (r : c.Reply) (w' : SecretWorld T) : Prop :=
  sourceDiscipline.possible c r ∧ SecretInv w' ∧ SecretGuar t w w' ∧ SourceKnows t (v.next c r) w'

theorem step_seed (hi : SecretInv w) (hk : SourceKnows t v w) {record : RefreshSecretRecord} (hready : record.state = .ready)
    (hversion : record.version = 0) {x : SecretChoice} {r : (SecretCmd.seed record).Reply} {w' : SecretWorld T}
    (h : SecretWorld.machine t w (.seed record) x = some (r, w')) : StepOk t v w (.seed record) r w' := by
  have hview : ∀ r, v.next (.seed record) r = v := fun r => by cases r <;> rfl
  unfold StepOk
  rw [hview]
  cases x with
  | ok =>
    simp only [SecretWorld.machine] at h
    split at h
    · cases h
      exact ⟨trivial, hi, SecretGuar.refl t w, hk⟩
    · rename_i hnone
      cases h
      have hother : ∀ b now, w.records b = some now → (w.configured record).records b = some now := by
        intro b now hnow
        have hne : b ≠ record.binding := fun h => by
          rw [h, hnone] at hnow
          nomatch hnow
        simpa only [SecretWorld.configured, SecretWorld.store, Function.update_of_ne hne] using hnow
      have hmono : ∀ y ∈ w.log, y ∈ (w.configured record).log := fun _ => SecretWorld.mem_configured
      refine ⟨trivial, hi.configured hnone hready hversion, ⟨fun _ h => h, hmono,
        fun _ _ _ _ h => .inl (SecretWorld.exchanged_of_configured h), fun b old hold => ⟨old, hother b old hold, .inl rfl⟩⟩,
        ⟨fun r hr => ?_, fun r hr => mem_storedRecords_mono hmono (hk.stored r hr), fun a ha => ?_,
          fun a claimed x ha hc => hmono _ (hk.called a claimed x ha hc), fun r hr a ha => (hk.claimed r hr a ha).mono hmono,
          fun he a ha r hr hactive => ?_⟩⟩
      · obtain ⟨now, hnow, hv⟩ := hk.seen r hr
        exact ⟨now, hother _ _ hnow, hv⟩
      · obtain ⟨hmem, hno⟩ := hk.attempt a ha
        exact ⟨hmem, fun he b g x hx => hno he b g x (SecretWorld.exchanged_of_configured hx)⟩
      · obtain ⟨now, hnow, hv⟩ := hk.current he a ha r hr hactive
        exact ⟨now, hother _ _ hnow, hv⟩
  | fault e applied =>
    cases h
    exact ⟨trivial, hi, SecretGuar.refl t w, hk⟩
  | attempt value => nomatch h
  | answer reply => nomatch h

/-- A record of the store may be added to what a thread has seen. -/
theorem SourceKnows.read (hi : SecretInv w) (hk : SourceKnows t v w) {b : CredentialBinding} {record : RefreshSecretRecord}
    (hrec : w.records b = some record) : SourceKnows t { v with seen := record :: v.seen } w := by
  have hself : w.records record.binding = some record := by rw [hi.keyed b record hrec]; exact hrec
  refine ⟨fun r hr => ?_, fun r hr => ?_, hk.attempt, hk.called, fun r hr a ha => ?_, fun he a ha r hr hactive => ?_⟩
  · rcases List.mem_cons.1 hr with rfl | hr
    · exact ⟨r, hself, .inl rfl⟩
    · exact hk.seen r hr
  · rcases List.mem_cons.1 hr with rfl | hr
    · exact List.mem_of_getLast? ((hi.current _).symm.trans hself)
    · exact hk.stored r hr
  · rcases List.mem_cons.1 hr with rfl | hr
    · exact hi.claimed _ r a hself ha
    · exact hk.claimed r hr a ha
  · rcases List.mem_cons.1 hr with rfl | hr
    · exact ⟨r, hself, .inl rfl⟩
    · exact hk.current he a ha r hr hactive

theorem step_read (hi : SecretInv w) (hk : SourceKnows t v w) {b : CredentialBinding}
    {x : SecretChoice} {r : Except SecretError RefreshSecretRecord} {w' : SecretWorld T}
    (h : SecretWorld.machine t w (.read b) x = some (r, w')) : StepOk t v w (.read b) r w' := by
  cases x with
  | ok =>
    simp only [SecretWorld.machine] at h
    split at h
    · rename_i record hrec
      cases h
      exact ⟨trivial, hi, SecretGuar.refl t w, hk.read hi hrec⟩
    · cases h
      exact ⟨trivial, hi, SecretGuar.refl t w, hk⟩
  | fault e applied =>
    cases h
    exact ⟨trivial, hi, SecretGuar.refl t w, hk⟩
  | attempt value => nomatch h
  | answer reply => nomatch h

/-- A write that takes effect replaces the record that the thread has seen. -/
theorem swap_current (hk : SourceKnows t v w) {writer : SecretWriter} {old new : RefreshSecretRecord} (hseen : old ∈ v.seen)
    {w' : SecretWorld T} (h : w.swap writer old.binding old.version new = .ok w') :
    w.records old.binding = some old ∧ w' = w.wrote writer old.binding old new := by
  obtain ⟨current, hcur, hver, rfl⟩ := SecretWorld.swap_ok h
  obtain ⟨now, hnow, hv⟩ := hk.seen old hseen
  rw [hcur] at hnow
  cases hnow
  rcases hv with rfl | hv
  · exact ⟨hcur, rfl⟩
  · omega

theorem step_compareAndSwap (hi : SecretInv w) (hk : SourceKnows t v w) {writer : SecretWriter} {old new : RefreshSecretRecord}
    (hseen : old ∈ v.seen) (hm : Writes v.attempt v.called writer old new)
    {x : SecretChoice} {r : Except SecretError RefreshSecretRecord} {w' : SecretWorld T}
    (h : SecretWorld.machine t w (.compareAndSwap writer old.binding old.version new) x = some (r, w')) :
    StepOk t v w (.compareAndSwap writer old.binding old.version new) r w' := by
  have hstay : ∀ e, StepOk t v w (.compareAndSwap writer old.binding old.version new) (.error e) w :=
    fun e => ⟨trivial, hi, SecretGuar.refl t w, hk⟩
  cases x with
  | ok =>
    simp only [SecretWorld.machine] at h
    split at h
    · rename_i u hswap
      cases h
      obtain ⟨hold, rfl⟩ := swap_current hk hseen hswap
      exact ⟨rfl, hi.wrote hk hold hm, SecretGuar.wrote hk hold hm, (SourceKnows.wrote hi hk hold hm).2⟩
    · cases h
      exact hstay _
  | fault e applied =>
    simp only [SecretWorld.machine] at h
    split at h
    · nomatch h
    · rename_i u _ hswap
      cases h
      obtain ⟨hold, rfl⟩ := swap_current hk hseen hswap
      exact ⟨trivial, hi.wrote hk hold hm, SecretGuar.wrote hk hold hm, (SourceKnows.wrote hi hk hold hm).1⟩
    · cases h
      exact hstay _
  | attempt value => nomatch h
  | answer reply => nomatch h

theorem step_attemptId (hi : SecretInv w) (hk : SourceKnows t v w) (hfree : v.called = none)
    {x : SecretChoice} {r : Except SecretError String} {w' : SecretWorld T}
    (h : SecretWorld.machine t w .attemptId x = some (r, w')) : StepOk t v w .attemptId r w' := by
  cases x with
  | attempt value =>
    simp only [SecretWorld.machine] at h
    split at h
    · nomatch h
    · rename_i hnew
      cases h
      -- an identifier that was not given out has no claim, so no exchange
      have hno : ∀ b g, ¬ClaimedIn w.log b g value := fun b g hc => hnew (hi.owned b g value hc)
      refine ⟨trivial, ⟨hi.keyed, ?_, fun b g a hc => ?_, hi.claimed, hi.exchanged, hi.once, hi.claims, hi.unclaimed, hi.items,
          hi.current⟩,
        ⟨fun p hp => List.mem_append_left _ hp, fun _ h => h, fun _ _ _ _ h => .inl h, fun _ old h => ⟨old, h, .inl rfl⟩⟩,
        ⟨hk.seen, hk.stored, fun a ha => ?_, fun a claimed x _ hc => ?_, hk.claimed, fun _ a ha r hr hactive => ?_⟩⟩
      · rw [List.map_append]
        refine hi.attempts.append (List.nodup_singleton value) fun y hy hy' => ?_
        obtain rfl := List.mem_singleton.1 hy'
        exact hnew hy
      · rw [List.map_append]
        exact List.mem_append_left _ (hi.owned b g a hc)
      · obtain rfl := Option.some.inj ha
        exact ⟨List.mem_append_right _ (List.mem_singleton_self _), fun _ b g x hx => hno b g (hi.exchanged b g _ x hx)⟩
      · rw [show v.called = some (claimed, x) from hc] at hfree
        nomatch hfree
      · obtain rfl := Option.some.inj ha
        exact absurd (hk.claimed r hr _ hactive) (hno _ _)
  | fault e applied =>
    cases h
    exact ⟨trivial, hi, SecretGuar.refl t w, hk⟩
  | ok => nomatch h
  | answer reply => nomatch h

theorem step_exchange (hi : SecretInv w) (hk : SourceKnows t v w) {b : CredentialBinding} {secret a : String} {ttl : Int}
    (hx : v.called = none) (ha : v.attempt = some a) {claimed : RefreshSecretRecord} (hseen : v.seen.head? = some claimed)
    (hb : claimed.binding = b) (hactive : claimed.activeAttemptId = some a)
    {x : SecretChoice} {r : ExchangeReply} {w' : SecretWorld T}
    (h : SecretWorld.machine t w (.exchange b secret a ttl) x = some (r, w')) : StepOk t v w (.exchange b secret a ttl) r w' := by
  cases x with
  | answer reply =>
    simp only [SecretWorld.machine] at h
    split at h
    · rename_i record hrec
      cases h
      have hmem : claimed ∈ v.seen := List.mem_of_mem_head? hseen
      obtain ⟨now, hnow, hstill⟩ := hk.current hx a ha claimed hmem hactive
      rw [hb, hrec] at hnow
      cases hnow
      -- the record is the one that was claimed, or a revoked one of the same generation
      have hgen : record.refreshGeneration = claimed.refreshGeneration := by
        rcases hstill with rfl | ⟨-, h⟩
        · rfl
        · exact h
      have hclaim : ClaimedIn w.log b record.refreshGeneration a := by
        rw [hgen, ← hb]
        exact hk.claimed claimed hmem a hactive
      obtain ⟨hown, hno⟩ := hk.attempt a ha
      have hmono : ∀ y ∈ w.log, y ∈ w.log ++ [.exchanged b record.refreshGeneration a r] :=
        fun y h => List.mem_append_left _ h
      have hcalled : ∀ {pair}, (v.next (.exchange b secret a ttl) r).called = some pair → pair = (claimed, r) := by
        intro pair hp
        have hnext : (v.next (.exchange b secret a ttl) r).called = some (claimed, r) := by
          simp [SourceView.next, hseen]
        exact Option.some.inj (hp.symm.trans hnext)
      refine ⟨trivial, hi.exchange r hclaim (hno hx), ⟨fun _ h => h, hmono, fun b' g' a' x' hmem' => ?_,
        fun _ old h => ⟨old, h, .inl rfl⟩⟩, ⟨hk.seen, fun r hr => mem_storedRecords_mono hmono (hk.stored r hr),
        fun a' ha' => ⟨(hk.attempt a' ha').1, fun he => ?_⟩, fun a' claimed' x' ha' hc => ?_,
        fun r hr a' ha' => (hk.claimed r hr a' ha').mono hmono, fun he => ?_⟩⟩
      · rcases List.mem_append.1 hmem' with hmem' | hmem'
        · exact .inl hmem'
        · obtain ⟨rfl, rfl, rfl, -⟩ := SecretItem.exchanged.inj (List.mem_singleton.1 hmem')
          exact .inr hown
      · simp [SourceView.next, hseen] at he
      · obtain ⟨rfl, rfl⟩ := Prod.mk.inj (hcalled hc)
        obtain rfl := Option.some.inj (ha.symm.trans ha')
        rw [hb, ← hgen]
        exact List.mem_append_right _ (List.mem_singleton_self _)
      · simp [SourceView.next, hseen] at he
    · cases h
  | ok => cases h
  | fault e applied => cases h
  | attempt value => cases h

/-- A command that the discipline allows keeps the contract, and what the thread knows. -/
theorem sourceDiscipline_step (hi : SecretInv w) (hk : SourceKnows t v w) {c : SecretCmd} (ha : sourceDiscipline.allowed v c)
    {x : SecretChoice} {r : c.Reply} {w' : SecretWorld T} (h : SecretWorld.machine t w c x = some (r, w')) :
    StepOk t v w c r w' := by
  cases c with
  | seed record => exact step_seed hi hk ha.1 ha.2 h
  | read b => exact step_read hi hk h
  | compareAndSwap writer b expected new =>
    obtain ⟨old, hseen, rfl, rfl, hm⟩ := ha
    exact step_compareAndSwap hi hk hseen hm h
  | attemptId => exact step_attemptId hi hk ha h
  | exchange b secret a ttl =>
    obtain ⟨hx, hattempt, claimed, hseen, hb, hactive⟩ := ha
    exact step_exchange hi hk hx hattempt hseen hb hactive h

end Step

/-! ## Schedules -/

/-- Nothing is stored. -/
theorem SecretInv.initial : SecretInv (SecretWorld.initial : SecretWorld T) where
  keyed := fun _ _ h => nomatch h
  attempts := List.nodup_nil
  owned := by
    rintro b g a ⟨old, new, hmem, -⟩
    nomatch hmem
  claimed := fun _ _ _ h => nomatch h
  exchanged := fun _ _ _ _ h => nomatch h
  once := List.nodup_nil
  claims := fun _ _ h => nomatch h
  unclaimed := fun _ _ _ => rfl
  items := Log.holds_nil _
  current := fun _ => rfl

/-- A call that starts knows nothing. -/
theorem SourceKnows.initial (t : T) (w : SecretWorld T) : SourceKnows t SourceView.initial w :=
  ⟨fun _ h => (nomatch h), fun _ h => (nomatch h), fun _ h => (nomatch h), fun _ _ _ h => (nomatch h), fun _ h => (nomatch h),
    fun _ _ h => (nomatch h)⟩

/-- What the store holds where a call has returned. -/
def SourcePost (t : T) (result : Option AccessCredentialGrant) (w : SecretWorld T) : Prop :=
  ∃ v, (∀ grant, result = some grant → CredentialSource.Granted grant v) ∧ SourceKnows t v w

/-- Every call is safe to start in any store. -/
theorem sources_safe : (sources T).CallsSafe (secretContract T) SourcePost := by
  intro t call w hi
  have hstep : ∀ v w c x r w', sourceDiscipline.allowed v c → SourceKnows t v w → (secretContract T).inv w →
      (sources T).machine t w c x = some (r, w') →
      sourceDiscipline.possible c r ∧ (secretContract T).inv w' ∧ (secretContract T).guar t w w' ∧
        SourceKnows t (sourceDiscipline.next v c r) w' :=
    fun v w c x r w' ha hk hi hm => sourceDiscipline_step hi hk ha hm
  have hothers : ∀ v w w' u, u ≠ t → (secretContract T).inv w → (secretContract T).inv w' → (secretContract T).guar u w w' →
      SourceKnows t v w → SourceKnows t v w' := fun v w w' u hu _ hi' hg hk => hk.others hu hi' hg
  exact Team.safe_of_follows hstep hothers call.program_follows (SourceKnows.initial t w)

/-- Every schedule keeps the invariant. -/
theorem sources_inv [DecidableEq T] (es : List (SchedEvent T SourceCall SecretChoice)) :
    SecretInv ((sources T).run (Team.init .initial) es).world :=
  Team.run_inv sources_safe SecretInv.initial es

end Contract

end Keirin

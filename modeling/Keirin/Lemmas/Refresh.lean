import Keirin.Lemmas.DurableStore

/-!
# A refresh over the adapter, step by step

What a claim, a commit and a block do to the backend where at most one write fails, and how a refresh that calls the provider
goes on from there. The results are about the backend a program ends in; what the program returns does not matter to it.
-/

namespace Keirin

namespace RefreshRun

variable {run : RefreshRun} {w : BackendWorld} {b : CredentialBinding} {current : RefreshSecretRecord} {a : String}

/-! ## The writes of a refresh -/

/-- At most one write fails. -/
theorem faultAt_succ {n : Nat} {fault : WriteFault} (h : run.faultAt n = some fault) : run.faultAt (n + 1) = none := by
  unfold faultAt at h ⊢
  cases hf : run.fault with
  | none => rfl
  | some f =>
    rw [hf] at h
    simp only [Option.bind_some] at h ⊢
    split at h
    · rename_i hn
      rw [if_neg (by omega)]
    · nomatch h

theorem not_lost_of_none {n : Nat} (h : run.faultAt n = none) : run.lost n = false := by
  unfold lost
  rw [h]
  rfl

/-- Whether a lost write was reported as ambiguous. -/
def reportedAmbiguous (run : RefreshRun) (n : Nat) : Bool :=
  match run.faultAt n with
  | some (.ambiguousWrite _) => true
  | _ => false

/-- Reading a record of a source finds it, or raises where there is none. -/
theorem exec_readRecord_cases (b : CredentialBinding) (w : BackendWorld) :
    (∃ r, w.Holds b r ∧ run.exec (CredentialSource.readRecord b) w = (.ok r, w)) ∨
      ((∃ e, run.exec (CredentialSource.readRecord b) w = (.error e, w)) ∧ ∀ r, ¬w.Holds b r) := by
  by_cases h : ∃ r, w.Holds b r
  · obtain ⟨r, hr⟩ := h
    exact .inl ⟨r, hr, run.exec_readRecord hr⟩
  · refine .inr ⟨?_, fun r hr => h ⟨r, hr⟩⟩
    cases hraw : w.rows (bindingKey b) with
    | none =>
      refine ⟨.authBlocked "credential_secret_unconfigured", (run.exec_read b _ w).trans ?_⟩
      rw [hraw]
      rfl
    | some raw =>
      cases hdec : decodeRecord raw b with
      | ok r => exact absurd ⟨r, raw, hraw, hdec⟩ h
      | error e =>
        refine ⟨.authBlocked "credential_secret_store_unavailable", (run.exec_read b _ w).trans ?_⟩
        simp only [hraw, DurableVersionedSecretStore.readReply, hdec]
        rfl

/-- What issues no command leaves the backend as it is. -/
theorem exec_ite_snd {α : Type} {p : Prop} [Decidable p] {q q' : SecretProg α} (h : (run.exec q w).2 = w)
    (h' : (run.exec q' w).2 = w) : (run.exec (if p then q else q') w).2 = w := by
  split
  · exact h
  · exact h'

/-- What is done after the last command does not matter to the backend. -/
theorem exec_bind_snd {α β : Type} (p : SecretProg α) {f : α → SecretProg β} (hf : ∀ x t, (run.exec (f x) t).2 = t) :
    (run.exec (p >>= f) w).2 = (run.exec p w).2 := by
  cases h : run.exec p w with
  | mk result t =>
    cases result with
    | ok x => rw [run.exec_bind_ok h, hf]
    | error e => rw [run.exec_bind_error h]

/-- The fields of a blocked record are in order. -/
theorem blockedFields_ok {r : RefreshSecretRecord} (ha : isAttemptId a = true) (hr : r.state ≠ .revoked) {state : SecretState}
    (hs : state = .blockedAuth ∨ state = .blockedAmbiguous) (failure : FailureCode) :
    (CredentialSource.blockedFields r a state failure).Ok := by
  have hok := r.ok
  have hv := hok.version
  unfold CredentialSource.blockedFields
  refine ⟨?_, hok.generation, fun h => ?_, fun _ => hok.secret hr, fun h => ?_, fun _ => rfl, fun a' h => ?_⟩
  · simp only
    omega
  · simp only at h
    rcases hs with rfl | rfl <;> nomatch h
  · simp only at h
    rcases hs with rfl | rfl <;> nomatch h
  · cases h
    exact ha

/-- Blocking a claimed record: the record is blocked, unless the write is lost. -/
structure BlockEnd (run : RefreshRun) (w t : BackendWorld) (b : CredentialBinding) (current : RefreshSecretRecord) (a : String)
    (state : SecretState) (failure : FailureCode) : Prop where
  exchanged : t.exchanged = w.exchanged
  blocked : run.lost w.writes = false →
    ∃ r, t.Holds b r ∧ r.toSecretFields = CredentialSource.blockedFields current a state failure
  kept : run.lost w.writes = true → t.Holds b current

theorem exec_block (h : w.Holds b current) (hactive : current.activeAttemptId = some a) {state : SecretState}
    (hs : state = .blockedAuth ∨ state = .blockedAmbiguous) (failure : FailureCode) :
    BlockEnd run w (run.exec (CredentialSource.block b current a state failure) w).2 b current a state failure := by
  have hrefreshing := RefreshSecretRecord.refreshing_of_active hactive
  obtain ⟨a', ha', hvalid⟩ := current.ok.active hrefreshing
  rw [hactive] at ha'
  cases ha'
  obtain ⟨blocked, hblocked, hfields⟩ :=
    RefreshSecretRecord.exists_ofFields (blockedFields_ok hvalid (by rw [hrefreshing]; simp) hs failure)
  have hb : blocked.binding = b := (congrArg SecretFields.binding hfields).trans h.binding
  have hcas := run.exec_cas .block h hb (congrArg SecretFields.version hfields)
  have hholds := holds_afterWrite h hb (run.lost w.writes)
  have hread := run.exec_readRecord hholds
  have hend : (run.exec (CredentialSource.block b current a state failure) w).2 = afterWrite w b blocked (run.lost w.writes) := by
    unfold CredentialSource.block
    rw [hblocked, run.exec_bind_ok (run.exec_unwrap_ok blocked w)]
    cases hf : run.faultAt w.writes with
    | none =>
      rw [hf] at hcas
      rw [run.exec_bind_ok hcas]
      rfl
    | some fault =>
      rw [hf] at hcas
      cases fault with
      | unavailable applied => rw [run.exec_bind_error hcas]
      | conflict =>
        rw [run.exec_bind_ok hcas]
        simp only
        rw [run.exec_bind_ok hread]
        exact exec_ite_snd rfl rfl
      | ambiguousWrite applied =>
        rw [run.exec_bind_ok hcas]
        simp only
        rw [run.exec_bind_ok hread]
        exact exec_ite_snd rfl rfl
  rw [hend]
  refine ⟨rfl, fun hl => ?_, fun hl => ?_⟩
  · rw [hl] at hholds ⊢
    exact ⟨blocked, hholds, hfields⟩
  · rw [hl] at hholds ⊢
    exact hholds

/-- The fields of a claimed record are in order. -/
theorem claimedFields_ok {r : RefreshSecretRecord} (ha : isAttemptId a = true) (hr : r.state = .ready) :
    (CredentialSource.claimedFields r a).Ok := by
  have hok := r.ok
  have hv := hok.version
  unfold CredentialSource.claimedFields
  refine ⟨?_, hok.generation, fun h => (nomatch h), fun _ => hok.secret (by rw [hr]; simp), fun _ => ⟨a, rfl, ha⟩,
    fun h => absurd rfl h, hok.last⟩
  simp only
  omega

/-- The fields of a committed record are in order. -/
theorem committedFields_ok {r : RefreshSecretRecord} {secret : String} (ha : isAttemptId a = true) (hs : isBlank secret = false) :
    (CredentialSource.committedFields r a secret).Ok := by
  have hok := r.ok
  have hv := hok.version
  have hg := hok.generation
  unfold CredentialSource.committedFields
  refine ⟨?_, ?_, fun h => (nomatch h), fun _ => ⟨secret, rfl, hs⟩, fun h => (nomatch h), fun _ => rfl, fun a' h => ?_⟩
  · simp only
    omega
  · simp only
    omega
  · cases h
    exact ha

/-- Claiming a ready record: the source goes on with the claimed record, or it raises. -/
theorem exec_claim (h : w.Holds b current) (hready : current.state = .ready) (ha : isAttemptId a = true) :
    (∃ claimed t, run.exec (CredentialSource.claim b current a) w = (.ok claimed, t) ∧ t.exchanged = w.exchanged ∧
      t.writes = w.writes + 1 ∧ t.Holds b claimed ∧ claimed.toSecretFields = CredentialSource.claimedFields current a) ∨
    (run.faultAt w.writes ≠ none ∧
      ∃ e t, run.exec (CredentialSource.claim b current a) w = (.error e, t) ∧ t.exchanged = w.exchanged) := by
  obtain ⟨claimed, hclaimed, hfields⟩ := RefreshSecretRecord.exists_ofFields (claimedFields_ok ha hready)
  have hb : claimed.binding = b := (congrArg SecretFields.binding hfields).trans h.binding
  have hcas := run.exec_cas .claim h hb (congrArg SecretFields.version hfields)
  have hholds := holds_afterWrite h hb (run.lost w.writes)
  have hread := run.exec_readRecord hholds
  unfold CredentialSource.claim
  rw [hclaimed, run.exec_bind_ok (run.exec_unwrap_ok claimed w)]
  cases hf : run.faultAt w.writes with
  | none =>
    rw [hf] at hcas
    rw [run.exec_bind_ok hcas]
    rw [not_lost_of_none hf] at hholds ⊢
    exact .inl ⟨claimed, _, rfl, rfl, rfl, hholds, hfields⟩
  | some fault =>
    rw [hf] at hcas
    cases fault with
    | unavailable applied => exact .inr ⟨by simp, _, _, run.exec_bind_error hcas _, rfl⟩
    | conflict =>
      rw [run.exec_bind_ok hcas]
      exact .inr ⟨by simp, _, _, rfl, rfl⟩
    | ambiguousWrite applied =>
      rw [run.exec_bind_ok hcas]
      simp only
      rw [run.exec_bind_ok hread]
      cases hl : run.lost w.writes with
      | true =>
        -- the record is still ready
        rw [hl] at hread
        simp only [if_true, hready]
        exact .inr ⟨by simp, _, _, rfl, rfl⟩
      | false =>
        rw [hl] at hholds
        have hstate : claimed.state = .refreshing := congrArg SecretFields.state hfields
        have hactive : claimed.activeAttemptId = some a := congrArg SecretFields.activeAttemptId hfields
        simp only [Bool.false_eq_true, if_false, hstate, hactive, and_self, if_true]
        exact .inl ⟨claimed, _, rfl, rfl, rfl, hholds, hfields⟩

/-- Committing the rotated secret of a claimed record: the record is committed, unless the write is lost; a lost write that was
reported as ambiguous blocks the record. -/
structure CommitEnd (run : RefreshRun) (w t : BackendWorld) (b : CredentialBinding) (current : RefreshSecretRecord)
    (a secret : String) : Prop where
  exchanged : t.exchanged = w.exchanged
  committed : run.lost w.writes = false →
    ∃ r, t.Holds b r ∧ r.toSecretFields = CredentialSource.committedFields current a secret
  blocked : run.lost w.writes = true → run.reportedAmbiguous w.writes = true →
    ∃ r, t.Holds b r ∧ r.toSecretFields = CredentialSource.blockedFields current a .blockedAmbiguous .commitAmbiguous
  kept : run.lost w.writes = true → run.reportedAmbiguous w.writes = false → t.Holds b current

theorem exec_commitSuccess (h : w.Holds b current) (hactive : current.activeAttemptId = some a) {secret : String}
    (hs : isBlank secret = false) :
    CommitEnd run w (run.exec (CredentialSource.commitSuccess b current a secret) w).2 b current a secret := by
  have hrefreshing := RefreshSecretRecord.refreshing_of_active hactive
  obtain ⟨a', ha', hvalid⟩ := current.ok.active hrefreshing
  rw [hactive] at ha'
  cases ha'
  obtain ⟨committed, hcommitted, hfields⟩ :=
    RefreshSecretRecord.exists_ofFields (committedFields_ok (r := current) hvalid hs)
  have hcol := fun {α : Type} (f : SecretFields → α) => congrArg f hfields
  have hb : committed.binding = b := (hcol SecretFields.binding).trans h.binding
  have hcas := run.exec_cas .commit h hb (hcol SecretFields.version)
  have hholds := holds_afterWrite h hb (run.lost w.writes)
  have hread := run.exec_readRecord hholds
  have hplain : ∀ t, run.reportedAmbiguous w.writes = false → t = afterWrite w b committed (run.lost w.writes) →
      CommitEnd run w t b current a secret := by
    rintro t hno rfl
    refine ⟨rfl, fun hl => ?_, fun _ hr => ?_, fun hl _ => ?_⟩
    · rw [hl] at hholds ⊢
      exact ⟨committed, hholds, hfields⟩
    · rw [hno] at hr
      nomatch hr
    · rw [hl] at hholds ⊢
      exact hholds
  unfold CredentialSource.commitSuccess
  rw [hcommitted, run.exec_bind_ok (run.exec_unwrap_ok committed w)]
  cases hf : run.faultAt w.writes with
  | none =>
    rw [hf] at hcas
    rw [run.exec_bind_ok hcas]
    exact hplain _ (by unfold reportedAmbiguous; rw [hf]) rfl
  | some fault =>
    rw [hf] at hcas
    cases fault with
    | unavailable applied =>
      rw [run.exec_bind_error hcas]
      exact hplain _ (by unfold reportedAmbiguous; rw [hf]) rfl
    | conflict =>
      rw [run.exec_bind_ok hcas]
      simp only
      rw [run.exec_bind_ok hread]
      exact hplain _ (by unfold reportedAmbiguous; rw [hf]) (exec_ite_snd rfl rfl)
    | ambiguousWrite applied =>
      have hreported : run.reportedAmbiguous w.writes = true := by unfold reportedAmbiguous; rw [hf]
      rw [run.exec_bind_ok hcas]
      simp only
      rw [run.exec_bind_ok hread]
      cases hl : run.lost w.writes with
      | false =>
        rw [hl] at hholds
        have hstate : committed.state = .ready := hcol SecretFields.state
        have hlast : committed.lastAttemptId = some a := hcol SecretFields.lastAttemptId
        have hsecret : committed.refreshSecret = some secret := hcol SecretFields.refreshSecret
        simp only [Bool.false_eq_true, if_false, hstate, hlast, hsecret, and_self, if_true]
        refine ⟨rfl, fun _ => ⟨committed, hholds, hfields⟩, fun h => ?_, fun h => ?_⟩
        · rw [hl] at h
          nomatch h
        · rw [hl] at h
          nomatch h
      | true =>
        -- the record is still claimed, so it is blocked; that write does not fail
        rw [hl] at hholds
        have hnext : run.lost (w.writes + 1) = false := not_lost_of_none (faultAt_succ hf)
        have hend := run.exec_block hholds hactive (.inr rfl) .commitAmbiguous
        simp only [if_true, hrefreshing, hactive, reduceCtorEq, false_and, if_false, and_self]
        rw [exec_bind_snd _ fun _ _ => rfl]
        refine ⟨hend.exchanged, fun h => ?_, fun _ _ => hend.blocked hnext, fun _ h => ?_⟩
        · rw [hl] at h
          nomatch h
        · rw [hreported] at h
          nomatch h

/-! ## The whole refresh -/

/-- The refresh is admitted: the binding and the lifetime are in order, the stored record is ready, and the attempt identifier is
in order. -/
structure Admitted (run : RefreshRun) (current : RefreshSecretRecord) (a : String) : Prop where
  binding : run.binding = run.self
  ttl : 0 ≤ run.minimumTtlSeconds
  stored : run.start.Holds run.self current
  ready : current.state = .ready
  attempt : run.attemptId = .ok a
  valid : isAttemptId a = true

/-- The result of the provider passes the checks. -/
def Accepted (run : RefreshRun) : Prop :=
  ∃ r, run.reply = .result r ∧ validateExchangeResult run.self run.minimumTtlSeconds r = .ok ()

/-- The state of the backend where the provider has just been called. -/
structure Called (run : RefreshRun) (a : String) (claimed : RefreshSecretRecord) (t : BackendWorld) : Prop where
  holds : t.Holds run.self claimed
  active : claimed.activeAttemptId = some a
  writes : t.writes = 1
  exchanged : t.exchanged = [a]
  final : run.final = run.exec (CredentialSource.afterExchange run.self claimed a run.minimumTtlSeconds run.reply) t

/-- What a refresh does once its record is ready. -/
def fromReady (run : RefreshRun) (current : RefreshSecretRecord) : SecretProg AccessCredentialGrant := do
  let value ← .cmd .attemptId CredentialSource.unwrap
  let attemptId ← CredentialSource.fixedAttempt value
  let claimed ← CredentialSource.claim run.self current attemptId
  match claimed.refreshSecret with
  | none => .raise .assertion
  | some secret =>
    let reply ← .cmd (.exchange run.self secret attemptId run.minimumTtlSeconds) .ret
    CredentialSource.afterExchange run.self claimed attemptId run.minimumTtlSeconds reply

/-- What a refresh does once it is claimed. -/
def fromClaimed (run : RefreshRun) (a : String) (claimed : RefreshSecretRecord) : SecretProg AccessCredentialGrant :=
  match claimed.refreshSecret with
  | none => .raise .assertion
  | some secret => do
    let reply ← .cmd (.exchange run.self secret a run.minimumTtlSeconds) .ret
    CredentialSource.afterExchange run.self claimed a run.minimumTtlSeconds reply

/-- A refresh whose record is ready, up to its claim. -/
theorem exec_fromReady_of_attempt (ha : run.attemptId = .ok a) (hv : isAttemptId a = true) :
    run.exec (run.fromReady current) w = run.exec (CredentialSource.claim run.self current a >>= run.fromClaimed a) w := by
  have hcmd : run.exec (.cmd .attemptId CredentialSource.unwrap) w = run.exec (CredentialSource.unwrap run.attemptId) w :=
    run.exec_cmd (c := .attemptId) (t := w) rfl _
  rw [ha] at hcmd
  have hfixed : CredentialSource.fixedAttempt a = .ret a := if_pos hv
  unfold fromReady
  rw [run.exec_bind_ok hcmd, hfixed]
  rfl

/-- A refresh whose record is ready and whose attempt identifier is not in order. -/
theorem exec_fromReady_snd (h : ∀ a, run.attemptId = .ok a → isAttemptId a = false) :
    (run.exec (run.fromReady current) w).2 = w := by
  have hcmd : run.exec (.cmd .attemptId CredentialSource.unwrap) w = run.exec (CredentialSource.unwrap run.attemptId) w :=
    run.exec_cmd (c := .attemptId) (t := w) rfl _
  unfold fromReady
  cases ha : run.attemptId with
  | error e =>
    rw [ha] at hcmd
    rw [run.exec_bind_error hcmd]
  | ok a =>
    rw [ha] at hcmd
    have hfixed : CredentialSource.fixedAttempt a = .raise (.authBlocked "credential_refresh_attempt_invalid") :=
      if_neg (by rw [h a ha]; simp)
    rw [run.exec_bind_ok hcmd, hfixed]
    rfl

/-- A refresh is admitted and goes on to its claim, or the backend stays as it is. -/
theorem final_cases (run : RefreshRun) :
    (∃ current a, run.Admitted current a ∧
      run.final = run.exec (CredentialSource.claim run.self current a >>= run.fromClaimed a) run.start) ∨
    ((¬∃ current a, run.Admitted current a) ∧ run.final.2 = run.start) := by
  unfold final CredentialSource.refreshAccess
  by_cases hbind : run.binding = run.self
  swap
  · refine .inr ⟨by rintro ⟨_, _, h⟩; exact hbind h.binding, ?_⟩
    rw [raiseIf_pos hbind]
    rfl
  rw [raiseIf_neg (not_not.2 hbind), run.exec_bind_ok (run.exec_unwrap_ok () _)]
  by_cases httl : run.minimumTtlSeconds < 0
  · refine .inr ⟨by rintro ⟨_, _, h⟩; exact not_lt.2 h.ttl httl, ?_⟩
    rw [checkSeconds, raiseIf_pos httl]
    rfl
  rw [checkSeconds, raiseIf_neg httl, run.exec_bind_ok (run.exec_unwrap_ok () _)]
  rcases run.exec_readRecord_cases run.self run.start with ⟨current, hholds, hread⟩ | ⟨⟨e, hread⟩, hnone⟩
  swap
  · refine .inr ⟨by rintro ⟨current, _, h⟩; exact hnone current h.stored, ?_⟩
    rw [run.exec_bind_error hread]
  rw [run.exec_bind_ok hread]
  by_cases hready : current.state = .ready
  swap
  · refine .inr ⟨by rintro ⟨_, _, h⟩; exact hready (hholds.unique h.stored ▸ h.ready), ?_⟩
    split
    · rfl
    · rfl
    · rfl
    · rfl
    · rename_i h
      exact absurd h hready
  by_cases ha : ∃ a, run.attemptId = .ok a ∧ isAttemptId a = true
  · obtain ⟨a, ha, hv⟩ := ha
    refine .inl ⟨current, a, ⟨hbind, not_lt.1 httl, hholds, hready, ha, hv⟩, ?_⟩
    simp only [hready]
    exact exec_fromReady_of_attempt ha hv
  · refine .inr ⟨by rintro ⟨_, a, h⟩; exact ha ⟨a, h.attempt, h.valid⟩, ?_⟩
    simp only [hready]
    exact exec_fromReady_snd fun a h => Bool.eq_false_iff.2 fun hv => ha ⟨a, h, hv⟩

/-- A refresh that is claimed calls the provider, and goes on with its reply. -/
theorem called_of_claimed {claimed : RefreshSecretRecord} (hactive : claimed.activeAttemptId = some a) :
    run.exec (run.fromClaimed a claimed) w =
      run.exec (CredentialSource.afterExchange run.self claimed a run.minimumTtlSeconds run.reply)
        { w with exchanged := w.exchanged ++ [a] } := by
  have hstate := RefreshSecretRecord.refreshing_of_active hactive
  obtain ⟨secret, hsecret, -⟩ := claimed.ok.secret (by rw [hstate]; simp)
  unfold fromClaimed
  rw [hsecret]
  rfl

/-- A refresh calls the provider when it is admitted and its claim holds. -/
theorem called_cases (run : RefreshRun) :
    (∃ current a claimed t, run.Admitted current a ∧ run.Called a claimed t) ∨
      ((∀ current a, run.Admitted current a → run.faultAt 0 ≠ none) ∧ run.final.2.exchanged = []) := by
  rcases final_cases run with ⟨current, a, hadm, hfinal⟩ | ⟨hno, hfinal⟩
  swap
  · exact .inr ⟨fun current a h => absurd ⟨current, a, h⟩ hno, by rw [hfinal]; rfl⟩
  rcases run.exec_claim hadm.stored hadm.ready hadm.valid with
    ⟨claimed, t, hclaim, hx, hw, hholds, hfields⟩ | ⟨hf, e, t, hclaim, hx⟩
  · have hactive : claimed.activeAttemptId = some a := congrArg SecretFields.activeAttemptId hfields
    refine .inl ⟨current, a, claimed, { t with exchanged := t.exchanged ++ [a] }, hadm, hholds, hactive, hw, by rw [hx]; rfl, ?_⟩
    rw [hfinal, run.exec_bind_ok hclaim, called_of_claimed hactive]
  · refine .inr ⟨fun _ _ _ => hf, ?_⟩
    rw [hfinal, run.exec_bind_error hclaim]
    exact hx

/-- A result that passes the checks has a grant and a rotated secret. -/
theorem accepted_fields {r : RefreshExchangeResult} {ttl : Int} (h : validateExchangeResult b ttl r = .ok ()) :
    ∃ grant secret, r.grant = some grant ∧ r.rotatedRefreshSecret = .str secret ∧ isBlank secret = false := by
  unfold validateExchangeResult at h
  cases hg : r.grant with
  | none =>
    rw [hg] at h
    nomatch h
  | some grant =>
    rw [hg] at h
    obtain ⟨-, h⟩ := raiseIf_bind_ok.1 h
    obtain ⟨capabilities, -, h⟩ := bind_ok.1 h
    obtain ⟨-, h⟩ := raiseIf_bind_ok.1 h
    obtain ⟨-, h⟩ := raiseIf_bind_ok.1 h
    obtain ⟨issuedAt, -, h⟩ := bind_ok.1 h
    obtain ⟨expiresAt, -, h⟩ := bind_ok.1 h
    obtain ⟨-, h⟩ := raiseIf_bind_ok.1 h
    obtain ⟨-, h⟩ := raiseIf_bind_ok.1 h
    have hsecret := raiseIf_ok.1 h
    cases hs : r.rotatedRefreshSecret with
    | str secret =>
      rw [hs] at hsecret
      exact ⟨grant, secret, rfl, rfl, by simpa [isText] using hsecret⟩
    | _ =>
      rw [hs] at hsecret
      exact absurd rfl hsecret

/-- After a result that passes the checks, the rotated secret is committed. -/
theorem exec_afterExchange_accepted (h : w.Holds run.self current) (hactive : current.activeAttemptId = some a)
    (hacc : run.Accepted) :
    ∃ x secret, run.reply = .result x ∧ x.rotatedRefreshSecret = .str secret ∧
      CommitEnd run w (run.exec (CredentialSource.afterExchange run.self current a run.minimumTtlSeconds run.reply) w).2
        run.self current a secret := by
  obtain ⟨x, hx, hv⟩ := hacc
  obtain ⟨grant, secret, hgrant, hrotated, hblank⟩ := accepted_fields hv
  refine ⟨x, secret, hx, hrotated, ?_⟩
  unfold CredentialSource.afterExchange
  rw [hx]
  simp only [hv, hgrant, hrotated]
  rw [exec_bind_snd _ fun _ _ => rfl]
  exact exec_commitSuccess h hactive hblank

/-- After any other reply, the record is blocked. -/
theorem exec_afterExchange_refused (h : w.Holds run.self current) (hactive : current.activeAttemptId = some a)
    (hacc : ¬run.Accepted) :
    ∃ state failure, (state = .blockedAuth ∨ state = .blockedAmbiguous) ∧
      BlockEnd run w (run.exec (CredentialSource.afterExchange run.self current a run.minimumTtlSeconds run.reply) w).2
        run.self current a state failure := by
  cases hreply : run.reply with
  | rejected =>
    refine ⟨.blockedAuth, .refreshRejected, .inl rfl, ?_⟩
    unfold CredentialSource.afterExchange
    simp only
    rw [exec_bind_snd _ fun _ _ => rfl]
    exact exec_block h hactive (.inl rfl) _
  | raised interrupt =>
    refine ⟨.blockedAmbiguous, .refreshOutcomeAmbiguous, .inr rfl, ?_⟩
    unfold CredentialSource.afterExchange
    simp only
    rw [exec_bind_snd _ fun _ _ => by cases interrupt <;> rfl]
    exact exec_block h hactive (.inr rfl) _
  | otherValue =>
    refine ⟨.blockedAmbiguous, .refreshResponseInvalid, .inr rfl, ?_⟩
    unfold CredentialSource.afterExchange
    simp only
    rw [exec_bind_snd _ fun _ _ => rfl]
    exact exec_block h hactive (.inr rfl) _
  | result x =>
    refine ⟨.blockedAmbiguous, .refreshResponseInvalid, .inr rfl, ?_⟩
    unfold CredentialSource.afterExchange
    simp only
    split
    · rename_i hv _ _
      exact absurd ⟨x, hreply, hv⟩ hacc
    · rw [exec_bind_snd _ fun _ _ => rfl]
      exact exec_block h hactive (.inr rfl) _

end RefreshRun

end Keirin

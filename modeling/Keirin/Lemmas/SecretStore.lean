import Keirin.SecretStore

/-!
# What a source may do

The abstract model of a call: the records it has seen, the attempt identifier it was given, and the reply of the provider
(`SourceView`). A write goes from a record it has seen by one of six kinds (`Writes`), and it calls the provider once, for a
record it has seen claimed under its own identifier. `program_follows` shows that every call keeps to it, and what a refresh
knows that returns an access grant.
-/

namespace Keirin

/-- A record built from fields has these fields. -/
theorem RefreshSecretRecord.ofFields_ok {fields : SecretFields} {r : RefreshSecretRecord}
    (h : RefreshSecretRecord.ofFields fields = .ok r) : r.toSecretFields = fields := by
  unfold RefreshSecretRecord.ofFields at h
  split at h
  · exact congrArg RefreshSecretRecord.toSecretFields (Except.ok.inj h).symm
  · nomatch h

/-- What the checks of a record say. -/
structure SecretFields.Ok (r : SecretFields) : Prop where
  version : 0 ≤ r.version
  generation : 0 ≤ r.refreshGeneration
  cleared : r.state = .revoked → r.refreshSecret = none
  secret : r.state ≠ .revoked → ∃ s, r.refreshSecret = some s ∧ isBlank s = false
  active : r.state = .refreshing → ∃ a, r.activeAttemptId = some a ∧ isAttemptId a = true
  idle : r.state ≠ .refreshing → r.activeAttemptId = none
  last : ∀ a, r.lastAttemptId = some a → isAttemptId a = true

/-- The checks of a record pass when the record is in order. -/
theorem SecretFields.validate_ok {r : SecretFields} : r.validate = .ok () ↔ r.Ok := by
  unfold SecretFields.validate
  simp only [checkSeconds, raiseIf_bind_ok, raiseIf_ok]
  constructor
  · rintro ⟨hv, hg, hcleared, hsecret, hactive, hvalid, hidle, hlast⟩
    refine ⟨by omega, by omega, fun h => ?_, fun h => ?_, fun h => ?_, fun h => ?_, fun a h => ?_⟩
    · by_contra hne
      exact hcleared ⟨h, hne⟩
    · cases hs : r.refreshSecret with
      | none => exact absurd ⟨h, by rw [hs]; rfl⟩ hsecret
      | some s => exact ⟨s, rfl, Bool.eq_false_iff.2 fun hb => hsecret ⟨h, by rw [hs]; exact hb⟩⟩
    · cases ha : r.activeAttemptId with
      | none => exact absurd ⟨h, ha⟩ hactive
      | some a => exact ⟨a, rfl, by_contra fun hne => hvalid ⟨h, by rw [ha]; exact Bool.eq_false_iff.2 hne⟩⟩
    · by_contra hne
      exact hidle ⟨h, hne⟩
    · by_contra hne
      exact hlast (by rw [h]; exact Bool.eq_false_iff.2 hne)
  · rintro ⟨hv, hg, hcleared, hsecret, hactive, hidle, hlast⟩
    refine ⟨by omega, by omega, fun h => h.2 (hcleared h.1), fun h => ?_, fun h => ?_, fun h => ?_, fun h => h.2 (hidle h.1), fun h => ?_⟩
    · obtain ⟨s, hs, hb⟩ := hsecret h.1
      rw [hs] at h
      exact Bool.eq_false_iff.1 hb h.2
    · obtain ⟨a, ha, -⟩ := hactive h.1
      rw [ha] at h
      nomatch h.2
    · obtain ⟨a, ha, hok⟩ := hactive h.1
      rw [ha] at h
      exact Bool.eq_false_iff.1 h.2 hok
    · cases ha : r.lastAttemptId with
      | none =>
        rw [ha] at h
        nomatch h
      | some a =>
        rw [ha] at h
        exact Bool.eq_false_iff.1 h (hlast a ha)

/-- A record is in order. -/
theorem RefreshSecretRecord.ok (r : RefreshSecretRecord) : r.toSecretFields.Ok := SecretFields.validate_ok.1 r.valid

/-- A record that is not being refreshed has no active attempt. -/
theorem RefreshSecretRecord.idle_of_not_refreshing {r : RefreshSecretRecord} (h : r.state ≠ .refreshing) : r.activeAttemptId = none :=
  r.ok.idle h

/-- Only a record that is being refreshed has an active attempt. -/
theorem RefreshSecretRecord.refreshing_of_active {r : RefreshSecretRecord} {a : String} (h : r.activeAttemptId = some a) :
    r.state = .refreshing := by
  by_contra hne
  rw [r.ok.idle hne] at h
  nomatch h

/-- A revoked record has no secret, and every other record has one. -/
theorem RefreshSecretRecord.secret_none_iff (r : RefreshSecretRecord) : r.refreshSecret = none ↔ r.state = .revoked := by
  constructor
  · intro h
    by_contra hne
    obtain ⟨s, hs, -⟩ := r.ok.secret hne
    rw [hs] at h
    nomatch h
  · exact r.ok.cleared

/-! ## Writes -/

open CredentialSource in
/-- The writes of a call, from the record before to the record after: the attempt identifier it was given, and the record it called
the provider for with the reply. -/
inductive Writes (attempt : Option String) (called : Option (RefreshSecretRecord × ExchangeReply)) :
    SecretWriter → RefreshSecretRecord → RefreshSecretRecord → Prop
  | claim {old new : RefreshSecretRecord} {a : String} (given : attempt = some a) (ready : old.state = .ready)
      (fields : new.toSecretFields = claimedFields old a) : Writes attempt called .claim old new
  | block {old new : RefreshSecretRecord} {a : String} {state : SecretState} {failure : FailureCode} (given : attempt = some a)
      (replied : called ≠ none) (active : old.activeAttemptId = some a) (blocked : state = .blockedAuth ∨ state = .blockedAmbiguous)
      (fields : new.toSecretFields = blockedFields old a state failure) : Writes attempt called .block old new
  | commit {old new : RefreshSecretRecord} {a secret : String} {r : RefreshExchangeResult} (given : attempt = some a)
      (replied : called = some (old, .result r)) (rotated : r.rotatedRefreshSecret = .str secret) (active : old.activeAttemptId = some a)
      (fields : new.toSecretFields = committedFields old a secret) : Writes attempt called .commit old new
  | recoverNotApplied {old new : RefreshSecretRecord} (ambiguous : old.state = .blockedAmbiguous)
      (fields : new.toSecretFields = notAppliedFields old) : Writes attempt called .recoverNotApplied old new
  | recoverRotated {old new : RefreshSecretRecord} {secret : String} (ambiguous : old.state = .blockedAmbiguous)
      (fields : new.toSecretFields = rotatedFields old secret) : Writes attempt called .recoverRotated old new
  | revoke {old new : RefreshSecretRecord} (live : old.state ≠ .revoked) (fields : new.toSecretFields = revokedFields old) :
      Writes attempt called .revoke old new

namespace Writes

variable {attempt : Option String} {called : Option (RefreshSecretRecord × ExchangeReply)} {writer : SecretWriter} {old new : RefreshSecretRecord}

theorem binding (h : Writes attempt called writer old new) : new.binding = old.binding := by
  cases h <;> (rename_i hnew; exact (congrArg SecretFields.binding hnew).trans rfl)

theorem version (h : Writes attempt called writer old new) : new.version = old.version + 1 := by
  cases h <;> (rename_i hnew; exact (congrArg SecretFields.version hnew).trans rfl)

/-- A revoked record is not written. -/
theorem live (h : Writes attempt called writer old new) : old.state ≠ .revoked := by
  cases h with
  | claim _ ready _ => rw [ready]; simp
  | block _ _ active _ _ => rw [RefreshSecretRecord.refreshing_of_active active]; simp
  | commit _ _ _ active _ => rw [RefreshSecretRecord.refreshing_of_active active]; simp
  | recoverNotApplied ambiguous _ => rw [ambiguous]; simp
  | recoverRotated ambiguous _ => rw [ambiguous]; simp
  | revoke live _ => exact live

/-- A record that is being refreshed is only revoked, but for the call whose attempt it is, after the exchange. -/
theorem owner (h : Writes attempt called writer old new) (hold : old.state = .refreshing) :
    (called ≠ none ∧ ∃ a, attempt = some a ∧ old.activeAttemptId = some a) ∨
      (new.state = .revoked ∧ new.refreshGeneration = old.refreshGeneration) := by
  cases h with
  | claim _ ready _ =>
    rw [ready] at hold
    nomatch hold
  | block given replied active _ _ => exact .inl ⟨replied, _, given, active⟩
  | commit given replied _ active _ => exact .inl ⟨by rw [replied]; simp, _, given, active⟩
  | recoverNotApplied ambiguous _ =>
    rw [ambiguous] at hold
    nomatch hold
  | recoverRotated ambiguous _ =>
    rw [ambiguous] at hold
    nomatch hold
  | revoke _ fields => exact .inr ⟨(congrArg SecretFields.state fields).trans rfl, (congrArg SecretFields.refreshGeneration fields).trans rfl⟩

/-- The state a write leaves. -/
theorem state (h : Writes attempt called writer old new) :
    (writer = .claim ∧ new.state = .refreshing) ∨
      (writer = .block ∧ (new.state = .blockedAuth ∨ new.state = .blockedAmbiguous)) ∨
      ((writer = .commit ∨ writer = .recoverNotApplied ∨ writer = .recoverRotated) ∧ new.state = .ready) ∨
      (writer = .revoke ∧ new.state = .revoked) := by
  cases h with
  | claim _ _ fields => exact .inl ⟨rfl, (congrArg SecretFields.state fields).trans rfl⟩
  | block _ _ _ blocked fields =>
    have hs := congrArg SecretFields.state fields
    exact .inr (.inl ⟨rfl, blocked.imp (fun h => hs.trans h) (fun h => hs.trans h)⟩)
  | commit _ _ _ _ fields => exact .inr (.inr (.inl ⟨.inl rfl, (congrArg SecretFields.state fields).trans rfl⟩))
  | recoverNotApplied _ fields => exact .inr (.inr (.inl ⟨.inr (.inl rfl), (congrArg SecretFields.state fields).trans rfl⟩))
  | recoverRotated _ fields => exact .inr (.inr (.inl ⟨.inr (.inr rfl), (congrArg SecretFields.state fields).trans rfl⟩))
  | revoke _ fields => exact .inr (.inr (.inr ⟨rfl, (congrArg SecretFields.state fields).trans rfl⟩))

/-- The generation grows with a rotated secret, and only then. -/
theorem generation (h : Writes attempt called writer old new) :
    new.refreshGeneration = old.refreshGeneration + if writer = .commit ∨ writer = .recoverRotated then 1 else 0 := by
  cases h with
  | claim _ _ fields =>
    rw [if_neg (by simp), add_zero]
    exact (congrArg SecretFields.refreshGeneration fields).trans rfl
  | block _ _ _ _ fields =>
    rw [if_neg (by simp), add_zero]
    exact (congrArg SecretFields.refreshGeneration fields).trans rfl
  | commit _ _ _ _ fields =>
    rw [if_pos (by simp)]
    exact (congrArg SecretFields.refreshGeneration fields).trans rfl
  | recoverNotApplied _ fields =>
    rw [if_neg (by simp), add_zero]
    exact (congrArg SecretFields.refreshGeneration fields).trans rfl
  | recoverRotated _ fields =>
    rw [if_pos (by simp)]
    exact (congrArg SecretFields.refreshGeneration fields).trans rfl
  | revoke _ fields =>
    rw [if_neg (by simp), add_zero]
    exact (congrArg SecretFields.refreshGeneration fields).trans rfl

/-- A write that leaves the record being refreshed is a claim. -/
theorem claim_of_refreshing (h : Writes attempt called writer old new) (hnew : new.state = .refreshing) :
    writer = .claim ∧ old.state = .ready ∧ ∃ a, attempt = some a ∧ new.activeAttemptId = some a := by
  cases h with
  | claim given ready fields => exact ⟨rfl, ready, _, given, (congrArg SecretFields.activeAttemptId fields).trans rfl⟩
  | block _ _ _ blocked fields =>
    have hstate := (congrArg SecretFields.state fields).symm.trans hnew
    rcases blocked with rfl | rfl <;> nomatch hstate
  | commit _ _ _ _ fields => nomatch (congrArg SecretFields.state fields).symm.trans hnew
  | recoverNotApplied _ fields => nomatch (congrArg SecretFields.state fields).symm.trans hnew
  | recoverRotated _ fields => nomatch (congrArg SecretFields.state fields).symm.trans hnew
  | revoke _ fields => nomatch (congrArg SecretFields.state fields).symm.trans hnew

end Writes

/-! ## The discipline -/

/-- What a call knows. -/
structure SourceView where
  seen : List RefreshSecretRecord
  attempt : Option String
  called : Option (RefreshSecretRecord × ExchangeReply)

namespace SourceView

def initial : SourceView := { seen := [], attempt := none, called := none }

/-- What a call knows after a reply; it calls the provider for the record it saw last. -/
def next (v : SourceView) : (c : SecretCmd) → c.Reply → SourceView
  | .read _, .ok r => { v with seen := r :: v.seen }
  | .compareAndSwap .., .ok r => { v with seen := r :: v.seen }
  | .attemptId, .ok a => { v with attempt := some a }
  | .exchange .., x => { v with called := v.seen.head?.map (fun r => (r, x)) }
  | _, _ => v

end SourceView

/-- What a call of a source may do. -/
def sourceDiscipline : Discipline SourceView SecretCmd SecretCmd.Reply where
  next := SourceView.next
  allowed v
    | .seed record => record.state = .ready ∧ record.version = 0
    | .compareAndSwap writer binding expected new =>
      ∃ old ∈ v.seen, old.binding = binding ∧ expected = old.version ∧ Writes v.attempt v.called writer old new
    | .attemptId => v.called = none
    | .exchange binding _ attemptId _ => v.called = none ∧ v.attempt = some attemptId ∧
        ∃ claimed, v.seen.head? = some claimed ∧ claimed.binding = binding ∧ claimed.activeAttemptId = some attemptId
    | .read _ => True
  possible
    | .compareAndSwap _ _ _ replacement, .ok saved => saved = replacement
    | _, _ => True

/-! ## The calls -/

namespace CredentialSource

variable {self : CredentialBinding} {v : SourceView}

theorem follows_unwrap {α : Type} {Q : α → SourceView → Prop} {x : Except SecretError α} (h : ∀ a, x = .ok a → Q a v) :
    (unwrap x).Follows sourceDiscipline Q v := by
  cases x with
  | ok a => exact h a rfl
  | error e => trivial

/-- The record that is built next. -/
theorem follows_ofFields {fields : SecretFields} :
    (unwrap (RefreshSecretRecord.ofFields fields)).Follows sourceDiscipline (fun r w => w = v ∧ r.toSecretFields = fields) v :=
  follows_unwrap fun _ h => ⟨rfl, RefreshSecretRecord.ofFields_ok h⟩

/-- What a call knows after it read or wrote more records. -/
structure Grown (v w : SourceView) : Prop where
  seen : ∀ r ∈ v.seen, r ∈ w.seen
  attempt : w.attempt = v.attempt
  called : w.called = v.called

theorem Grown.refl (v : SourceView) : Grown v v := ⟨fun _ h => h, rfl, rfl⟩

theorem Grown.cons (v : SourceView) (r : RefreshSecretRecord) : Grown v { v with seen := r :: v.seen } :=
  ⟨fun _ h => List.mem_cons_of_mem _ h, rfl, rfl⟩

theorem Grown.trans {u v w : SourceView} (h : Grown u v) (h' : Grown v w) : Grown u w :=
  ⟨fun r hr => h'.seen r (h.seen r hr), h'.attempt.trans h.attempt, h'.called.trans h.called⟩

/-- Reading shows the record. -/
theorem readRecord_follows : (readRecord self).Follows sourceDiscipline
    (fun r w => Grown v w ∧ w.seen.head? = some r ∧ r.binding = self) v := by
  refine ⟨trivial, fun r _ => ?_⟩
  cases r with
  | ok record =>
    simp only []
    split
    · trivial
    · rename_i h
      exact ⟨Grown.cons v record, rfl, not_not.1 h⟩
  | error e =>
    simp only []
    split <;> trivial

/-- A write in order shows the record it wrote. -/
theorem cas_follows {writer : SecretWriter} {current replacement : RefreshSecretRecord} (hseen : current ∈ v.seen)
    (hb : current.binding = self) (hw : Writes v.attempt v.called writer current replacement) :
    (cas self writer current replacement).Follows sourceDiscipline
      (fun r w => Grown v w ∧ ∀ saved, r = .ok saved → saved = replacement ∧ w.seen.head? = some saved) v := by
  refine ⟨⟨current, hseen, hb, rfl, hw⟩, fun r hr => ?_⟩
  cases r with
  | ok saved =>
    refine ⟨Grown.cons v saved, fun s hs => ?_⟩
    cases hs
    exact ⟨hr, rfl⟩
  | error e =>
    have hno : ∀ failure : CasFailure, Grown v v ∧ ∀ saved, Except.error failure = .ok saved → saved = replacement ∧ v.seen.head? = some saved :=
      fun failure => ⟨Grown.refl v, fun _ h => nomatch h⟩
    cases e with
    | ambiguousWrite m => exact hno _
    | storeConflict m => exact hno _
    | _ => trivial

/-- A claim shows a record that is claimed under the attempt. -/
theorem claim_follows {current : RefreshSecretRecord} {a : String} (hseen : current ∈ v.seen) (hb : current.binding = self)
    (hready : current.state = .ready) (ha : v.attempt = some a) :
    (claim self current a).Follows sourceDiscipline
      (fun r w => Grown v w ∧ w.seen.head? = some r ∧ r.binding = self ∧ r.activeAttemptId = some a) v := by
  refine Prog.Follows.bind follows_ofFields ?_
  rintro claimed v ⟨rfl, hclaimed⟩
  refine Prog.Follows.bind (cas_follows hseen hb (.claim ha hready hclaimed)) fun r w hw => ?_
  obtain ⟨hg, hsaved⟩ := hw
  cases r with
  | ok saved =>
    obtain ⟨rfl, hmem⟩ := hsaved saved rfl
    exact ⟨hg, hmem, (congrArg SecretFields.binding hclaimed).trans hb, congrArg SecretFields.activeAttemptId hclaimed⟩
  | error failure =>
    cases failure with
    | conflict => trivial
    | ambiguous =>
      refine Prog.Follows.bind readRecord_follows fun observed u hu => ?_
      obtain ⟨hg', hmem, hbind⟩ := hu
      split
      · rename_i hobs
        exact ⟨hg.trans hg', hmem, hbind, hobs.2.1⟩
      · trivial

/-- Blocking a record that is claimed under the attempt. -/
theorem block_follows {current : RefreshSecretRecord} {a : String} {state : SecretState} {failure : FailureCode}
    (hseen : current ∈ v.seen) (hb : current.binding = self) (hactive : current.activeAttemptId = some a)
    (ha : v.attempt = some a) (hx : v.called ≠ none) (hs : state = .blockedAuth ∨ state = .blockedAmbiguous) :
    (block self current a state failure).Follows sourceDiscipline (fun _ _ => True) v := by
  refine Prog.Follows.bind follows_ofFields ?_
  rintro blocked v ⟨rfl, hblocked⟩
  refine Prog.Follows.bind (cas_follows hseen hb (.block ha hx hactive hs hblocked)) fun r w _ => ?_
  cases r with
  | ok saved => trivial
  | error failure' =>
    refine Prog.Follows.bind readRecord_follows fun observed u _ => ?_
    split <;> trivial

/-- A record that ends a refresh: it follows the claimed record, and holds the rotated secret. -/
structure Concludes (claimed : RefreshSecretRecord) (a secret : String) (committed : RefreshSecretRecord) : Prop where
  binding : committed.binding = claimed.binding
  state : committed.state = .ready
  version : committed.version = claimed.version + 1
  generation : committed.refreshGeneration = claimed.refreshGeneration + 1
  last : committed.lastAttemptId = some a
  secret : committed.refreshSecret = some secret

/-- Committing the rotated secret of a record that is claimed under the attempt. -/
theorem commitSuccess_follows {current : RefreshSecretRecord} {a secret : String} {r : RefreshExchangeResult}
    (hseen : current ∈ v.seen) (hb : current.binding = self) (hactive : current.activeAttemptId = some a) (ha : v.attempt = some a)
    (hx : v.called = some (current, .result r)) (hrotated : r.rotatedRefreshSecret = .str secret) :
    (commitSuccess self current a secret).Follows sourceDiscipline
      (fun committed w => Grown v w ∧ w.seen.head? = some committed ∧ Concludes current a secret committed) v := by
  refine Prog.Follows.bind follows_ofFields ?_
  rintro committed v ⟨rfl, hcommitted⟩
  have hcol := fun {α : Type} (f : SecretFields → α) => congrArg f hcommitted
  refine Prog.Follows.bind (cas_follows hseen hb (.commit ha hx hrotated hactive hcommitted)) fun saved w hw => ?_
  obtain ⟨hg, hsaved⟩ := hw
  cases saved with
  | ok saved =>
    obtain ⟨rfl, hmem⟩ := hsaved saved rfl
    exact ⟨hg, hmem, hcol SecretFields.binding, hcol SecretFields.state, hcol SecretFields.version,
      hcol SecretFields.refreshGeneration, hcol SecretFields.lastAttemptId, hcol SecretFields.refreshSecret⟩
  | error failure =>
    cases failure with
    | conflict =>
      refine Prog.Follows.bind readRecord_follows fun observed u _ => ?_
      split <;> trivial
    | ambiguous =>
      refine Prog.Follows.bind readRecord_follows fun observed u hu => ?_
      split
      · rename_i hobs
        obtain ⟨hstate, hversion, hgen, hlast, hsecret⟩ := hobs
        exact ⟨hg.trans hu.1, hu.2.1, hu.2.2.trans hb.symm, hstate, hversion.trans (hcol SecretFields.version),
          hgen.trans (hcol SecretFields.refreshGeneration), hlast, hsecret⟩
      split
      · rename_i hobs
        have hau : u.attempt = some a := (hu.1.attempt.trans hg.attempt).trans ha
        have hxu : u.called ≠ none := by rw [hu.1.called, hg.called, hx]; simp
        have hmem : observed ∈ u.seen := List.mem_of_mem_head? hu.2.1
        exact Prog.Follows.bind (block_follows hmem hu.2.2 hobs.2 hau hxu (.inr rfl)) fun _ _ _ => trivial
      · trivial

/-- What a call knows that returns an access grant: the claimed record, the result of the exchange, and the record that ends the
refresh. -/
def Granted (grant : AccessCredentialGrant) (v : SourceView) : Prop :=
  ∃ a r secret claimed committed, v.attempt = some a ∧ v.called = some (claimed, .result r) ∧ r.grant = some grant ∧
    r.rotatedRefreshSecret = .str secret ∧ claimed ∈ v.seen ∧ claimed.activeAttemptId = some a ∧ committed ∈ v.seen ∧
    Concludes claimed a secret committed

/-- What follows the exchange. -/
theorem afterExchange_follows {claimed : RefreshSecretRecord} {a : String} {ttl : Int} (hseen : claimed ∈ v.seen)
    (hb : claimed.binding = self) (hactive : claimed.activeAttemptId = some a) (ha : v.attempt = some a) {reply : ExchangeReply}
    (hx : v.called = some (claimed, reply)) :
    (afterExchange self claimed a ttl reply).Follows sourceDiscipline Granted v := by
  have hblock : ∀ (state : SecretState) (failure : FailureCode), state = .blockedAuth ∨ state = .blockedAmbiguous →
      (block self claimed a state failure).Follows sourceDiscipline (fun _ _ => True) v :=
    fun state failure hs => block_follows hseen hb hactive ha (by rw [hx]; simp) hs
  unfold afterExchange
  split
  · exact Prog.Follows.bind (hblock _ _ (.inl rfl)) fun _ _ _ => trivial
  · refine Prog.Follows.bind (hblock _ _ (.inr rfl)) fun _ _ _ => ?_
    split <;> trivial
  · exact Prog.Follows.bind (hblock _ _ (.inr rfl)) fun _ _ _ => trivial
  · rename_i r
    split
    · rename_i grant secret _ hgrant hrotated
      refine Prog.Follows.bind (commitSuccess_follows hseen hb hactive ha hx hrotated) fun committed w hw => ?_
      obtain ⟨hg, hmem, hend⟩ := hw
      exact ⟨a, r, secret, claimed, committed, hg.attempt.trans ha, hg.called.trans hx, hgrant, hrotated, hg.seen _ hseen, hactive,
        List.mem_of_mem_head? hmem, hend⟩
    · exact Prog.Follows.bind (hblock _ _ (.inr rfl)) fun _ _ _ => trivial

/-- A refresh claims before it calls the provider, calls it once, and returns what it was given once the rotated secret is
committed. -/
theorem refreshAccess_follows (binding : CredentialBinding) (ttl : Int) :
    (refreshAccess self binding ttl).Follows sourceDiscipline Granted SourceView.initial := by
  refine Prog.Follows.bind (Q := fun _ w => w = SourceView.initial) (follows_unwrap fun _ _ => rfl) ?_
  rintro _ _ rfl
  refine Prog.Follows.bind (Q := fun _ w => w = SourceView.initial) (follows_unwrap fun _ _ => rfl) ?_
  rintro _ _ rfl
  refine Prog.Follows.bind readRecord_follows fun current v hv => ?_
  obtain ⟨hg, hseen, hb⟩ := hv
  split
  · trivial
  · trivial
  · trivial
  · trivial
  · rename_i hready
    refine Prog.Follows.bind (Q := fun value w => w = { v with attempt := some value }) ⟨hg.called, fun r _ => ?_⟩ ?_
    · cases r with
      | ok value => rfl
      | error e => trivial
    rintro value _ rfl
    refine Prog.Follows.bind (Q := fun a w => w = { v with attempt := some a }) ?_ ?_
    · unfold fixedAttempt
      split
      · rfl
      · trivial
    rintro a _ rfl
    refine Prog.Follows.bind (claim_follows (List.mem_of_mem_head? hseen) hb hready rfl) fun claimed w hw => ?_
    obtain ⟨hg', hseen', hb', hactive⟩ := hw
    split
    · trivial
    · rename_i secret _
      have hcall : (Prog.cmd (.exchange self secret a ttl) Prog.ret : SecretProg ExchangeReply).Follows sourceDiscipline
          (fun x u => u = { w with called := some (claimed, x) }) w := by
        refine ⟨⟨hg'.called.trans hg.called, hg'.attempt, claimed, hseen', hb', hactive⟩, fun x _ => ?_⟩
        simp only [Prog.Follows, sourceDiscipline, SourceView.next, hseen', Option.map_some]
      refine Prog.Follows.bind hcall ?_
      rintro reply _ rfl
      exact afterExchange_follows (v := { w with called := some (claimed, reply) }) (List.mem_of_mem_head? hseen') hb' hactive
        hg'.attempt rfl

/-- The write of a recovery. -/
theorem recoverCas_follows {writer : SecretWriter} {current : RefreshSecretRecord} {fields : SecretFields}
    (hseen : current ∈ v.seen) (hb : current.binding = self)
    (hw : ∀ new : RefreshSecretRecord, new.toSecretFields = fields → Writes v.attempt v.called writer current new) :
    (recoverCas self writer current fields).Follows sourceDiscipline (fun _ _ => True) v := by
  refine Prog.Follows.bind follows_ofFields ?_
  rintro new v ⟨rfl, hnew⟩
  refine Prog.Follows.bind (cas_follows hseen hb (hw new hnew)) fun r w _ => ?_
  cases r with
  | ok saved => trivial
  | error failure => cases failure <;> trivial

/-- The record of an operator's recovery is ambiguous. -/
theorem readAmbiguous_follows (version : Int) (a : String) : (readAmbiguous self version a).Follows sourceDiscipline
    (fun r w => r ∈ w.seen ∧ r.binding = self ∧ r.state = .blockedAmbiguous) v := by
  refine Prog.Follows.bind readRecord_follows fun current w hw => ?_
  split
  · trivial
  split
  · trivial
  · rename_i hstate
    simp only [not_or, ne_eq, not_not] at hstate
    exact ⟨List.mem_of_mem_head? hw.2.1, hw.2.2, hstate.1⟩

/-- A recovery that found the refresh not applied. -/
theorem recoverAmbiguousNotApplied_follows (version : Int) (a : String) :
    (recoverAmbiguousNotApplied self version a).Follows sourceDiscipline (fun _ _ => True) SourceView.initial := by
  refine Prog.Follows.bind (Q := fun _ _ => True) (follows_unwrap fun _ _ => trivial) fun _ v _ => ?_
  refine Prog.Follows.bind (Q := fun _ _ => True) ?_ fun a v _ => ?_
  · unfold fixedAttempt
    split <;> trivial
  refine Prog.Follows.bind (readAmbiguous_follows version a) fun current w hw => ?_
  obtain ⟨hseen, hb, hstate⟩ := hw
  exact recoverCas_follows hseen hb fun new hnew => .recoverNotApplied hstate hnew

/-- A recovery with the rotated secret. -/
theorem recoverAmbiguousWithRotatedSecret_follows (version : Int) (a secret : String) :
    (recoverAmbiguousWithRotatedSecret self version a secret).Follows sourceDiscipline (fun _ _ => True) SourceView.initial := by
  refine Prog.Follows.bind (Q := fun _ _ => True) (follows_unwrap fun _ _ => trivial) fun _ v _ => ?_
  refine Prog.Follows.bind (Q := fun _ _ => True) ?_ fun a v _ => ?_
  · unfold fixedAttempt
    split <;> trivial
  refine Prog.Follows.bind (Q := fun _ _ => True) (follows_unwrap fun _ _ => trivial) fun _ v _ => ?_
  refine Prog.Follows.bind (readAmbiguous_follows version a) fun current w hw => ?_
  obtain ⟨hseen, hb, hstate⟩ := hw
  exact recoverCas_follows hseen hb fun new hnew => .recoverRotated hstate hnew

/-- A revocation. -/
theorem revoke_follows : (revoke self).Follows sourceDiscipline (fun _ _ => True) SourceView.initial := by
  refine Prog.Follows.bind readRecord_follows fun current v hv => ?_
  obtain ⟨-, hseen, hb⟩ := hv
  split
  · trivial
  · rename_i hlive
    refine Prog.Follows.bind follows_ofFields ?_
    rintro new v ⟨rfl, hnew⟩
    refine Prog.Follows.bind (cas_follows (List.mem_of_mem_head? hseen) hb (.revoke hlive hnew)) fun r w _ => ?_
    cases r with
    | ok saved => trivial
    | error failure =>
      refine Prog.Follows.bind readRecord_follows fun observed u _ => ?_
      split
      · trivial
      · cases failure <;> trivial

/-- The configuration of a record. -/
theorem seed_follows (secret : String) : (seed self secret).Follows sourceDiscipline (fun _ _ => True) SourceView.initial := by
  refine Prog.Follows.bind (Q := fun _ _ => True) (follows_unwrap fun _ _ => trivial) fun _ v _ => ?_
  refine Prog.Follows.bind (Q := fun r _ => r.state = .ready ∧ r.version = 0)
    (follows_unwrap fun r h => ?_) fun record w hr => ?_
  · have hfields := RefreshSecretRecord.ofFields_ok h
    exact ⟨(congrArg SecretFields.state hfields).trans rfl, (congrArg SecretFields.version hfields).trans rfl⟩
  refine ⟨hr, fun r _ => ?_⟩
  cases r <;> trivial

end CredentialSource

/-- Every call keeps to the discipline, and knows what it returns. -/
theorem SourceCall.program_follows (call : SourceCall) :
    call.program.Follows sourceDiscipline (fun result v => ∀ grant, result = some grant → CredentialSource.Granted grant v)
      SourceView.initial := by
  have hnone : ∀ {v : SourceView} (grant : AccessCredentialGrant), (none : Option AccessCredentialGrant) = some grant →
      CredentialSource.Granted grant v := fun _ h => nomatch h
  cases call with
  | seed self secret => exact Prog.Follows.bind (CredentialSource.seed_follows secret) fun _ _ _ => hnone
  | refreshAccess self binding ttl =>
    refine Prog.Follows.bind (CredentialSource.refreshAccess_follows binding ttl) fun grant v hv => ?_
    intro grant' h
    exact Option.some.inj h ▸ hv
  | recoverNotApplied self version a =>
    exact Prog.Follows.bind (CredentialSource.recoverAmbiguousNotApplied_follows version a) fun _ _ _ => hnone
  | recoverRotated self version a secret =>
    exact Prog.Follows.bind (CredentialSource.recoverAmbiguousWithRotatedSecret_follows version a secret) fun _ _ _ => hnone
  | revoke self => exact Prog.Follows.bind CredentialSource.revoke_follows fun _ _ _ => hnone

end Keirin

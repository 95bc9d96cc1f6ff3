import Keirin.Lemmas.SecretProcess

/-!
# The outcome of a write

Whatever the driver does, wherever the child dies, and however the calls of the parent end: what `compare_and_swap` returns or
raises is true of the write.
-/

namespace Keirin

namespace SecretProcess

/-- Nothing is said about a write that was not submitted, unless the outcome is a record or a conflict. -/
def IsPlain : Except SecretError RefreshSecretRecord → Bool
  | .error (.storeError _) => true
  | .error (.interrupted _ _) => true
  | .error (.valueError _) => true
  | _ => false

theorem soundOutcome_unsubmitted {replacement : RefreshSecretRecord} {outcome : Except SecretError RefreshSecretRecord}
    {applied : Bool} (h : IsPlain outcome = true) : SoundOutcome replacement outcome false applied := by
  refine ⟨?_, ?_, fun _ _ => rfl, fun _ _ _ => rfl, nofun⟩
  · rintro record rfl
    nomatch h
  · rintro message rfl
    nomatch h

theorem soundOutcome_conflict {replacement : RefreshSecretRecord} {submitted applied : Bool} (message : String)
    (h : applied = false) : SoundOutcome replacement (.error (.storeConflict message)) submitted applied :=
  ⟨nofun, fun _ _ => h, nofun, nofun, fun _ => .inr (.inl ⟨message, rfl⟩)⟩

theorem soundOutcome_ambiguous {replacement : RefreshSecretRecord} {submitted applied : Bool} (message : String) :
    SoundOutcome replacement (.error (.ambiguousWrite message)) submitted applied :=
  ⟨nofun, nofun, nofun, nofun, fun _ => .inr (.inr ⟨message, rfl⟩)⟩

/-- What the store makes of a report that is true is true. -/
theorem soundOutcome_writeReply {self binding : CredentialBinding} {expectedVersion : Int} {replacement : RefreshSecretRecord}
    {outcome : Except BackendError Doc} {w : HostWorld} (hbinding : replacement.binding = binding)
    (ho : Reported (IsPayload self (bindingKey binding) (some expectedVersion) (encodeRecord replacement)) outcome w)
    (later : List ChildStep) :
    SoundOutcome replacement (DurableVersionedSecretStore.writeReply binding replacement (outcome.map some))
      (w.advance later).shared.submitted (w.advance later).shared.applied := by
  cases outcome with
  | ok record =>
    obtain ⟨hsettled, happlied, payload, hpayload, ⟨r, rfl⟩, hsame⟩ := ho.ok record rfl
    have hstrict : payload.sortKeys = (encodeRecord replacement).sortKeys := by
      unfold PostgresSecretBackend.payloadOf at hpayload
      obtain ⟨-, hpayload⟩ := raiseIf_bind_ok.1 hpayload
      obtain ⟨-, hpayload⟩ := raiseIf_bind_ok.1 hpayload
      obtain ⟨payload', hrecord, hpayload⟩ := bind_ok.1 hpayload
      obtain ⟨-, hpayload⟩ := raiseIf_bind_ok.1 hpayload
      obtain ⟨-, -, -, -, -, hsame⟩ := SecretBackend.strictRecord_ok hrecord
      rw [← Except.ok.inj hpayload]
      exact hsame
    have hr := encodeRecord_inj (hsame.trans hstrict)
    subst hr
    have hdecoded := decodeRecord_encodeRecord r
    rw [hbinding] at hdecoded
    have hreply : DurableVersionedSecretStore.writeReply binding r (Except.map some (.ok (encodeRecord r))) = .ok r := by
      simp only [Except.map, DurableVersionedSecretStore.writeReply, hdecoded, ne_eq, not_true_eq_false, if_false]
    rw [hreply, hsettled.advance later]
    refine ⟨fun record hrecord => ⟨happlied, (Except.ok.inj hrecord).symm⟩, by rintro _ ⟨⟩, by rintro _ ⟨⟩, by rintro _ _ ⟨⟩, fun _ => .inl ⟨r, rfl⟩⟩
  | error e =>
    have hreply : DurableVersionedSecretStore.writeReply binding replacement (Except.map some (.error e)) =
        .error (DurableVersionedSecretStore.writeFailure e) := rfl
    rw [hreply]
    cases e with
    | conflict =>
      obtain ⟨hsettled, happlied⟩ := ho.conflict rfl
      rw [hsettled.advance later]
      exact soundOutcome_conflict _ happlied
    | ambiguousWrite => exact soundOutcome_ambiguous _
    | unavailable =>
      obtain ⟨hsettled, hsubmitted⟩ := ho.unavailable rfl
      rw [hsettled.advance later, hsubmitted]
      exact soundOutcome_unsubmitted rfl
    | other interrupt =>
      obtain ⟨hsettled, hsubmitted⟩ := ho.other interrupt rfl
      rw [hsettled.advance later, hsubmitted]
      cases interrupt with
      | none => exact soundOutcome_unsubmitted rfl
      | some keyboard => exact soundOutcome_unsubmitted rfl

/-- The checks of the store raise a `ValueError`. -/
theorem checkWrite_error {binding : CredentialBinding} {expectedVersion : Int} {replacement : RefreshSecretRecord} {e : SecretError}
    (h : DurableVersionedSecretStore.checkWrite binding expectedVersion replacement = .error e) :
    ∃ message, e = .valueError message := by
  unfold DurableVersionedSecretStore.checkWrite raiseIf at h
  simp only [bind, Except.bind] at h
  split_ifs at h <;> exact ⟨_, (Except.error.inj h).symm⟩

theorem checkWrite_ok {binding : CredentialBinding} {expectedVersion : Int} {replacement : RefreshSecretRecord}
    (h : DurableVersionedSecretStore.checkWrite binding expectedVersion replacement = .ok ()) : replacement.binding = binding := by
  unfold DurableVersionedSecretStore.checkWrite at h
  obtain ⟨-, h⟩ := raiseIf_bind_ok.1 h
  obtain ⟨hbinding, -⟩ := raiseIf_bind_ok.1 h
  exact not_not.1 hbinding

/-- `DurableVersionedSecretStore.compare_and_swap` over the process of the backend says the truth about its write. -/
theorem compareAndSwap_sound (self binding : CredentialBinding) (quarantined : Bool) (expectedVersion : Int)
    (replacement : RefreshSecretRecord) (xs : List ParentChoice) :
    SoundRun replacement ((compareAndSwap self quarantined binding expectedVersion replacement).exec hostMachine xs {}).1
      ((compareAndSwap self quarantined binding expectedVersion replacement).exec hostMachine xs {}).2 := by
  have hsafe : (compareAndSwap self quarantined binding expectedVersion replacement).Safe
      (Setting.alone hostMachine fun _ => True)
      (fun outcome w => ∀ later, SoundOutcome replacement outcome (w.advance later).shared.submitted (w.advance later).shared.applied)
      (fun _ _ => False) {} := by
    unfold compareAndSwap DurableVersionedSecretStore.compareAndSwap
    cases hcheck : DurableVersionedSecretStore.checkWrite binding expectedVersion replacement with
    | error e =>
      obtain ⟨message, rfl⟩ := checkWrite_error hcheck
      refine hostRet_safe fun later => ?_
      rw [HostWorld.Settled.advance (.inl rfl)]
      exact soundOutcome_unsubmitted rfl
    | ok _ =>
      have hbinding := checkWrite_ok hcheck
      refine hostBind_safe (Q := fun reply t => ∃ outcome, reply = Except.map some outcome ∧
        Reported (IsPayload self (bindingKey binding) (some expectedVersion) (encodeRecord replacement)) outcome t) ?_ ?_
      · refine hostBind_safe operation_safe fun result t hresult => ?_
        exact hostRet_safe ⟨result.1, rfl, hresult⟩
      · rintro reply t ⟨outcome, rfl, houtcome⟩
        exact hostRet_safe (soundOutcome_writeReply hbinding houtcome)
  obtain ⟨-, hend⟩ := hsafe.exec (fun _ => rfl) xs trivial
  change Prog.Safe _ _ _ ((compareAndSwap self quarantined binding expectedVersion replacement).exec hostMachine xs {}).2
    ((compareAndSwap self quarantined binding expectedVersion replacement).exec hostMachine xs {}).1 at hend
  generalize (compareAndSwap self quarantined binding expectedVersion replacement).exec hostMachine xs {} = result at hend ⊢
  obtain ⟨w, p⟩ := result
  cases p with
  | ret outcome => exact fun later => hend w rfl trivial later
  | raise e => exact hend w rfl trivial
  | cmd c k => trivial

end SecretProcess

end Keirin

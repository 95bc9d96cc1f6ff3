import Keirin.Lemmas.Refresh

/-!
# A refresh with one fault of the store

After the provider was called, a refresh writes how it ended: the rotated secret, or why the record is blocked. When that write is
lost the record stays claimed by an attempt that is over, and no recovery accepts it; but a commit that is reported as
ambiguous is read back, and the record is blocked then.
-/

namespace Keirin

namespace RefreshRun

variable {run : RefreshRun} {current : RefreshSecretRecord}

/-- Where the provider was called, the record is not left claimed by the attempt: it is ready with the rotated secret, blocked or
revoked. -/
def Settled (run : RefreshRun) : Prop :=
  ∀ a ∈ run.final.2.exchanged, ∃ r, run.final.2.Holds run.self r ∧ ¬(r.state = .refreshing ∧ r.activeAttemptId = some a) ∧
    ((r.state = .ready ∧ ∃ x secret, run.reply = .result x ∧ x.rotatedRefreshSecret = .str secret ∧ r.refreshSecret = some secret) ∨
      r.state = .blockedAuth ∨ r.state = .blockedAmbiguous ∨ r.state = .revoked)

/-- The refresh is admitted, and the write that ends it is lost: the second one fails and is not applied, and it is not a
commit that is reported as ambiguous. -/
def LosesEnd (run : RefreshRun) : Prop :=
  (∃ current a, run.Admitted current a) ∧
    ∃ fault, run.fault = some (1, fault) ∧ fault.applied = false ∧ (run.Accepted → ∀ applied, fault ≠ .ambiguousWrite applied)

/-- The second write is lost when the fault is there. -/
theorem lost_one : run.lost 1 = true ↔ ∃ fault, run.fault = some (1, fault) ∧ fault.applied = false := by
  unfold lost faultAt
  cases hf : run.fault with
  | none => simp
  | some f =>
    obtain ⟨n, fault⟩ := f
    by_cases hn : n = 1
    · subst hn
      simp
    · simp [hn]

theorem reportedAmbiguous_one {fault : WriteFault} (h : run.fault = some (1, fault)) :
    run.reportedAmbiguous 1 = true ↔ ∃ applied, fault = .ambiguousWrite applied := by
  have hf : run.faultAt 1 = some fault := by
    unfold faultAt
    rw [h]
    rfl
  unfold reportedAmbiguous
  rw [hf]
  cases fault <;> simp

/-- A record that is left blocked is settled. -/
theorem settled_blocked {r : RefreshSecretRecord} {state : SecretState} {failure : FailureCode} (a' : String)
    (hs : state = .blockedAuth ∨ state = .blockedAmbiguous)
    (h : r.toSecretFields = CredentialSource.blockedFields current a state failure) :
    ¬(r.state = .refreshing ∧ r.activeAttemptId = some a') ∧
      (r.state = .blockedAuth ∨ r.state = .blockedAmbiguous ∨ r.state = .revoked) := by
  have hstate : r.state = state := congrArg SecretFields.state h
  have hidle : r.activeAttemptId = none := congrArg SecretFields.activeAttemptId h
  refine ⟨fun hr => ?_, ?_⟩
  · rw [hidle] at hr
    nomatch hr.2
  · rw [hstate]
    exact hs.imp id .inl

/-- Whatever a refresh is asked to do, whatever the backend holds, whatever the provider answers, and whichever one write fails
in whichever way: where the provider was called, the refresh leaves the record ready with the rotated secret, blocked or
revoked, if and only if the write that ends the refresh is not lost. -/
theorem settled_iff (run : RefreshRun) : run.Settled ↔ ¬run.LosesEnd := by
  rcases called_cases run with ⟨current, a, claimed, t, hadm, hcalled⟩ | ⟨hfault, hnone⟩
  swap
  · -- the provider was not called
    refine ⟨fun _ hl => ?_, fun _ a ha => ?_⟩
    · obtain ⟨⟨current, a, hadm⟩, fault, hf, -⟩ := hl
      refine hfault current a hadm ?_
      unfold faultAt
      rw [hf]
      rfl
    · rw [hnone] at ha
      nomatch ha
  have hstate := RefreshSecretRecord.refreshing_of_active hcalled.active
  have hstuck : run.final.2.Holds run.self claimed → run.final.2.exchanged = [a] → ¬run.Settled := by
    intro hkept hx hs
    obtain ⟨r, hr, hfree, -⟩ := hs a (by rw [hx]; exact List.mem_singleton_self a)
    rw [hr.unique hkept] at hfree
    exact hfree ⟨hstate, hcalled.active⟩
  have hlost : run.lost t.writes = true ↔ ∃ fault, run.fault = some (1, fault) ∧ fault.applied = false := by
    rw [hcalled.writes]
    exact lost_one
  have hambiguous : ∀ {fault}, run.fault = some (1, fault) →
      (run.reportedAmbiguous t.writes = true ↔ ∃ applied, fault = .ambiguousWrite applied) := by
    intro fault hf
    rw [hcalled.writes]
    exact reportedAmbiguous_one hf
  by_cases hacc : run.Accepted
  · obtain ⟨x, secret, hx, hrotated, hend⟩ := exec_afterExchange_accepted hcalled.holds hcalled.active hacc
    rw [← hcalled.final] at hend
    have hexchanged : run.final.2.exchanged = [a] := hend.exchanged.trans hcalled.exchanged
    cases hl : run.lost t.writes with
    | false =>
      refine ⟨fun _ hle => ?_, fun _ a' ha' => ?_⟩
      · obtain ⟨-, fault, hf, happ, -⟩ := hle
        rw [hlost.2 ⟨fault, hf, happ⟩] at hl
        nomatch hl
      · obtain ⟨r, hr, hfields⟩ := hend.committed hl
        have hready : r.state = .ready := congrArg SecretFields.state hfields
        refine ⟨r, hr, fun h => ?_, .inl ⟨hready, x, secret, hx, hrotated, congrArg SecretFields.refreshSecret hfields⟩⟩
        rw [hready] at h
        nomatch h.1
    | true =>
      obtain ⟨fault, hf, happ⟩ := hlost.1 hl
      cases hreported : run.reportedAmbiguous t.writes with
      | true =>
        refine ⟨fun _ hle => ?_, fun _ a' ha' => ?_⟩
        · obtain ⟨-, fault', hf', -, hne⟩ := hle
          obtain ⟨applied, hamb⟩ := (hambiguous hf').1 hreported
          exact hne hacc applied hamb
        · obtain ⟨r, hr, hfields⟩ := hend.blocked hl hreported
          obtain ⟨hfree, hblocked⟩ := settled_blocked a' (.inr rfl) hfields
          exact ⟨r, hr, hfree, .inr hblocked⟩
      | false =>
        refine ⟨fun hs => absurd hs (hstuck (hend.kept hl hreported) hexchanged), fun hno => ?_⟩
        refine absurd ⟨⟨current, a, hadm⟩, fault, hf, happ, fun _ applied hamb => ?_⟩ hno
        rw [(hambiguous hf).2 ⟨applied, hamb⟩] at hreported
        nomatch hreported
  · obtain ⟨state, failure, hs, hend⟩ := exec_afterExchange_refused hcalled.holds hcalled.active hacc
    rw [← hcalled.final] at hend
    have hexchanged : run.final.2.exchanged = [a] := hend.exchanged.trans hcalled.exchanged
    cases hl : run.lost t.writes with
    | false =>
      refine ⟨fun _ hle => ?_, fun _ a' ha' => ?_⟩
      · obtain ⟨-, fault, hf, happ, -⟩ := hle
        rw [hlost.2 ⟨fault, hf, happ⟩] at hl
        nomatch hl
      · obtain ⟨r, hr, hfields⟩ := hend.blocked hl
        obtain ⟨hfree, hblocked⟩ := settled_blocked a' hs hfields
        exact ⟨r, hr, hfree, .inr hblocked⟩
    | true =>
      obtain ⟨fault, hf, happ⟩ := hlost.1 hl
      refine ⟨fun h => absurd h (hstuck (hend.kept hl) hexchanged), fun hno => ?_⟩
      exact absurd ⟨⟨current, a, hadm⟩, fault, hf, happ, fun h => absurd h hacc⟩ hno

end RefreshRun

/-- A refresh whose provider call has an unknown outcome, and whose blocking write is reported as ambiguous and is not
applied. -/
def ambiguousBlock : RefreshRun :=
  let b : CredentialBinding := { providerId := "p", accountId := "a", capabilities := ["c"], provider := by decide
                                 account := by decide, canonical := by decide }
  { self := b
    binding := b
    minimumTtlSeconds := 60
    rows := fun _ => some (.obj [("schema_version", .str SECRET_RECORD_SCHEMA_VERSION), ("provider_id", .str "p"),
      ("account_id", .str "a"), ("capabilities", .arr [.str "c"]), ("version", .num (.int 0)), ("state", .str "ready"),
      ("refresh_secret", .str "s"), ("refresh_generation", .num (.int 0))])
    attemptId := .ok "x"
    reply := .raised none
    fault := some (1, .ambiguousWrite false) }

/-- The record stays claimed by the attempt that is over. -/
theorem ambiguousBlock_not_settled : ¬ambiguousBlock.Settled := by
  have hx : ambiguousBlock.final.2.exchanged = ["x"] := by decide +kernel
  have hleft : (ambiguousBlock.final.2.rows (bindingKey ambiguousBlock.self)).map
      (fun raw => (decodeRecord raw ambiguousBlock.self).toOption.map (fun r => (r.state, r.activeAttemptId))) =
      some (some (.refreshing, some "x")) := by decide +kernel
  intro hs
  obtain ⟨r, ⟨raw, hraw, hr⟩, hfree, -⟩ := hs "x" (by rw [hx]; exact List.mem_singleton_self _)
  rw [hraw] at hleft
  simp only [Option.map_some, hr, Except.toOption, Option.some.injEq, Prod.mk.injEq] at hleft
  exact hfree hleft

end Keirin

import Keirin.Lemmas.SecretBackend

/-!
# The function of the database refines the store

A replacement that the adapter accepts is accepted by the database exactly where the row has the expected version and is not
revoked; it is read afterwards, and a refused call changes nothing. The other bindings are read as before.
-/

namespace Keirin

namespace SecretBackend

theorem sample_provider : checkIdentity "p" = .ok () := by decide

theorem sample_account : checkIdentity "a" = .ok () := by decide

theorem sample_canonical : capabilitiesOf (.arr (["c"].map .str)) = .ok ["c"] := by decide

/-- A bound host, the row of a binding with its secret, and the record of the next version. -/
def sampleBinding : CredentialBinding :=
  { providerId := "p", accountId := "a", capabilities := ["c"], provider := sample_provider, account := sample_account
    canonical := sample_canonical }

def sampleRow : BindingRow :=
  { bindingKey := "k", schemaVersion := SECRET_RECORD_SCHEMA_VERSION, providerId := "p", accountId := "a"
    capabilities := [some "c"], version := 4, state := "ready", refreshGeneration := 1, activeAttemptId := none
    lastAttemptId := none, failure := none, secretId := some 7 }

def sampleDb : SecretDb :=
  { bindings := [sampleRow], vault := fun id => if id = 7 then some "s" else none, hostBindings := [("agent_secret_host", "k")] }

def samplePayload : Doc :=
  .obj [("schema_version", .str SECRET_RECORD_SCHEMA_VERSION), ("provider_id", .str "p"), ("account_id", .str "a"),
    ("capabilities", .arr [.str "c"]), ("version", .num (.int 5)), ("state", .str "refreshing"), ("refresh_secret", .str "s"),
    ("refresh_generation", .num (.int 1)), ("active_attempt_id", .str "x"), ("last_attempt_id", .null), ("failure", .null)]

/-- The other bindings are read as before, whatever the call. -/
theorem readBinding_frame {session session' : Session} {db : SecretDb} {key other : String} (hdb : db.Constraints)
    (hother : other ≠ key) (expected : Option Int) (replacement : Option Jsonb) :
    readBinding session' other (call (casBinding session key expected replacement) db).2 = readBinding session' other db := by
  unfold call
  cases h : casBinding session key expected replacement db with
  | error e => rfl
  | ok after =>
    obtain ⟨row, secretId, q, hrow, -, -, hid, hwrite, -⟩ := casBinding_ok h
    obtain ⟨hmem, hkey⟩ := SecretDb.row?_some hrow
    obtain ⟨hrows, hvault, hhosts⟩ := writeBack_frame hwrite
    unfold readBinding
    simp only [Session.Bound, hhosts, hrows other (hkey ▸ hother)]
    cases hfound : db.row? other with
    | none => rfl
    | some found =>
      obtain ⟨hfoundmem, hfoundkey⟩ := SecretDb.row?_some hfound
      have hne : found ≠ row := by
        rintro rfl
        exact hother (hfoundkey.symm.trans hkey)
      have hfoundId := secretId_ne hdb hmem hfoundmem hne hid
      have hjoined : found.secretId.bind after.2.vault = found.secretId.bind db.vault := by
        cases hf : found.secretId with
        | none => rfl
        | some id =>
          refine hvault id ?_
          rintro rfl
          exact hfoundId hf
      have hdocument : found.document after.2.vault = found.document db.vault := by
        unfold BindingRow.document
        rw [hjoined]
      simp only [hdocument]
      rfl

end SecretBackend

end Keirin

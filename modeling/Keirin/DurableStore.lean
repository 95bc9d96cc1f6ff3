import Keirin.Lib.Sha256
import Keirin.SecretStore

/-!
# The durable secret store

The adapter from a backend of JSON rows to the store of the refresh secrets: a record is encoded into a row, a row is decoded
and checked on its way back, and the exceptions of the backend become the exceptions of a store. A source over the adapter is
the source's program with every command carried out by the adapter.
-/

namespace Keirin

def SECRET_RECORD_SCHEMA_VERSION : String := "credential-refresh-secret-record-v1"

/-! ## Rows -/

namespace SecretState

def text : SecretState → String
  | ready => "ready"
  | refreshing => "refreshing"
  | blockedAuth => "blocked_auth"
  | blockedAmbiguous => "blocked_ambiguous"
  | revoked => "revoked"

/-- The check of the state in `__post_init__`. -/
def ofText (s : String) : Except SecretError SecretState :=
  if s = "ready" then .ok ready
  else if s = "refreshing" then .ok refreshing
  else if s = "blocked_auth" then .ok blockedAuth
  else if s = "blocked_ambiguous" then .ok blockedAmbiguous
  else if s = "revoked" then .ok revoked
  else .error (.valueError "secret_store_state_invalid")

end SecretState

namespace FailureCode

def text : FailureCode → String
  | refreshRejected => "refresh_rejected"
  | refreshOutcomeAmbiguous => "refresh_outcome_ambiguous"
  | refreshResponseInvalid => "refresh_response_invalid_or_incomplete"
  | commitAmbiguous => "secret_store_commit_ambiguous"
  | sourceRevoked => "credential_source_revoked"

/-- The check of the failure in `__post_init__`. -/
def ofText : Option String → Except SecretError (Option FailureCode)
  | none => .ok none
  | some s =>
    if s = "refresh_rejected" then .ok (some refreshRejected)
    else if s = "refresh_outcome_ambiguous" then .ok (some refreshOutcomeAmbiguous)
    else if s = "refresh_response_invalid_or_incomplete" then .ok (some refreshResponseInvalid)
    else if s = "secret_store_commit_ambiguous" then .ok (some commitAmbiguous)
    else if s = "credential_source_revoked" then .ok (some sourceRevoked)
    else .error (.valueError "secret_store_failure_invalid")

end FailureCode

/-- `_binding_key` -/
def bindingKey (binding : CredentialBinding) : String :=
  let canonical : Doc := .obj [("provider_id", .str binding.providerId), ("account_id", .str binding.accountId),
    ("capabilities", .arr (binding.capabilities.map .str))]
  "refresh-secret-v1:" ++ String.ofList (Sha256.hexdigest (Text.utf8 (canonical.dumps Scalar.text)))

/-- `_encode_record` -/
def encodeRecord (record : RefreshSecretRecord) : Doc :=
  .obj [("schema_version", .str SECRET_RECORD_SCHEMA_VERSION),
    ("provider_id", .str record.binding.providerId),
    ("account_id", .str record.binding.accountId),
    ("capabilities", .arr (record.binding.capabilities.map .str)),
    ("version", .num (.int record.version)),
    ("state", .str record.state.text),
    ("refresh_secret", Doc.ofOption record.refreshSecret),
    ("refresh_generation", .num (.int record.refreshGeneration)),
    ("active_attempt_id", Doc.ofOption record.activeAttemptId),
    ("last_attempt_id", Doc.ofOption record.lastAttemptId),
    ("failure", Doc.ofOption (record.failure.map FailureCode.text))]

/-- `isinstance(raw, Mapping)` -/
def asMapping : Doc → Except SecretError (Dict Doc)
  | .obj fields => .ok fields
  | _ => .error (.valueError "secret_store_record_object_required")

/-- `isinstance(v, str)` -/
def asText (error : String) : Doc → Except SecretError String
  | .str s => .ok s
  | _ => .error (.valueError error)

/-- `v is None or isinstance(v, str)` -/
def asOptionalText (error : String) : Doc → Except SecretError (Option String)
  | .null => .ok none
  | .str s => .ok (some s)
  | _ => .error (.valueError error)

/-- `_nonnegative_int` -/
def nonnegativeInt (error : String) : Doc → Except SecretError Int
  | .num (.int n) => if n < 0 then .error (.valueError error) else .ok n
  | _ => .error (.valueError error)

/-- Whether the value is a list of texts. -/
def isTextList : Doc → Bool
  | .arr xs => xs.all (fun v => match v with | .str _ => true | _ => false)
  | _ => false

/-- `_decode_record` -/
def decodeRecord (raw : Doc) (expectedBinding : CredentialBinding) : Except SecretError RefreshSecretRecord := do
  let fields ← asMapping raw
  let get := fun key => Dict.getD fields key .null
  raiseIf (get "schema_version" ≠ .str SECRET_RECORD_SCHEMA_VERSION) (.valueError "secret_store_record_schema_mismatch")
  let providerId ← asText "secret_store_record_identity_invalid" (get "provider_id")
  let accountId ← asText "secret_store_record_identity_invalid" (get "account_id")
  raiseIf (isTextList (get "capabilities") = false) (.valueError "secret_store_record_capabilities_invalid")
  let binding ← CredentialBinding.ofFields providerId accountId (get "capabilities")
  raiseIf (binding ≠ expectedBinding) (.valueError "secret_store_record_binding_mismatch")
  let version ← nonnegativeInt "secret_store_record_version_invalid" (get "version")
  let generation ← nonnegativeInt "secret_store_record_generation_invalid" (get "refresh_generation")
  let state ← asText "secret_store_record_state_invalid" (get "state")
  let refreshSecret ← asOptionalText "secret_store_record_secret_invalid" (get "refresh_secret")
  let activeAttemptId ← asOptionalText "secret_store_record_active_attempt_invalid" (get "active_attempt_id")
  let lastAttemptId ← asOptionalText "secret_store_record_last_attempt_invalid" (get "last_attempt_id")
  let failure ← asOptionalText "secret_store_record_failure_invalid" (get "failure")
  -- the checks of the record; the failure, which the source checks last, is checked first
  let state ← SecretState.ofText state
  let failure ← FailureCode.ofText failure
  RefreshSecretRecord.ofFields
    { binding := binding, version := version, state := state, refreshSecret := refreshSecret, refreshGeneration := generation
      activeAttemptId := activeAttemptId, lastAttemptId := lastAttemptId, failure := failure }

/-! ## Backends -/

/-- The exceptions of a backend: its own, or another one, which may be an interrupt from the keyboard or the system. -/
inductive BackendError
  | conflict
  | ambiguousWrite
  | unavailable
  | other (interrupt : Option Bool)
deriving DecidableEq

/-- What a source over the adapter asks of the backend, of the factory of attempt identifiers and of the provider. -/
inductive BackendCmd
  | read (key : String)
  | compareAndSwap (key : String) (expectedVersion : Int) (replacement : Doc)
  | attemptId
  | exchange (binding : CredentialBinding) (refreshSecret attemptId : String) (minimumTtlSeconds : Int)

/-- The reply to a command; a row that is not there is `none`. -/
def BackendCmd.Reply : BackendCmd → Type
  | read _ => Except BackendError (Option Doc)
  | compareAndSwap .. => Except BackendError (Option Doc)
  | attemptId => Except SecretError String
  | exchange .. => ExchangeReply

abbrev BackendProg := Prog BackendCmd BackendCmd.Reply SecretError

namespace DurableVersionedSecretStore

/-- The exception for a backend that failed otherwise. -/
def unavailable : BackendError → SecretError
  | .other (some keyboard) => .interrupted keyboard "secret_store_backend_interrupted"
  | _ => .storeError "secret_store_backend_unavailable"

/-- What `read` makes of the reply. -/
def readReply (binding : CredentialBinding) : Except BackendError (Option Doc) → Except SecretError RefreshSecretRecord
  | .error e => .error (unavailable e)
  | .ok none => .error (.authBlocked "credential_secret_unconfigured")
  | .ok (some raw) =>
    match decodeRecord raw binding with
    | .ok record => .ok record
    | .error _ => .error (.storeError "secret_store_record_invalid")

/-- `read` -/
def read (binding : CredentialBinding) : BackendProg (Except SecretError RefreshSecretRecord) :=
  .cmd (.read (bindingKey binding)) fun reply => .ret (readReply binding reply)

/-- The exception for a write that failed. -/
def writeFailure : BackendError → SecretError
  | .conflict => .storeConflict "secret_store_version_conflict"
  | .ambiguousWrite => .ambiguousWrite "secret_store_write_ambiguous"
  | e => unavailable e

/-- What `compare_and_swap` makes of the reply. -/
def writeReply (binding : CredentialBinding) (replacement : RefreshSecretRecord) :
    Except BackendError (Option Doc) → Except SecretError RefreshSecretRecord
  | .error e => .error (writeFailure e)
  | .ok none => .error (.storeError "secret_store_cas_readback_missing")
  | .ok (some raw) =>
    match decodeRecord raw binding with
    | .error _ => .error (.storeError "secret_store_cas_readback_invalid")
    | .ok stored => if stored ≠ replacement then .error (.storeError "secret_store_cas_readback_mismatch") else .ok stored

/-- The checks of `compare_and_swap`. -/
def checkWrite (binding : CredentialBinding) (expectedVersion : Int) (replacement : RefreshSecretRecord) :
    Except SecretError Unit := do
  raiseIf (expectedVersion < 0) (.valueError "secret_store_expected_version_invalid")
  raiseIf (replacement.binding ≠ binding) (.valueError "secret_store_replacement_binding_mismatch")
  raiseIf (replacement.version ≠ expectedVersion + 1) (.valueError "secret_store_replacement_version_invalid")

/-- `compare_and_swap` -/
def compareAndSwap (binding : CredentialBinding) (expectedVersion : Int) (replacement : RefreshSecretRecord) :
    BackendProg (Except SecretError RefreshSecretRecord) :=
  match checkWrite binding expectedVersion replacement with
  | .error e => .ret (.error e)
  | .ok () =>
    .cmd (.compareAndSwap (bindingKey binding) expectedVersion (encodeRecord replacement)) fun reply =>
      .ret (writeReply binding replacement reply)

/-- How the adapter carries out the commands of a source. It does not configure records. -/
def carryOut : (c : SecretCmd) → BackendProg c.Reply
  | .seed _ => .ret (.error .other)
  | .read binding => read binding
  | .compareAndSwap _ binding expectedVersion replacement => compareAndSwap binding expectedVersion replacement
  | .attemptId => .cmd .attemptId .ret
  | .exchange binding refreshSecret attemptId minimumTtlSeconds =>
    .cmd (.exchange binding refreshSecret attemptId minimumTtlSeconds) .ret

end DurableVersionedSecretStore

/-! ## A refresh with at most one fault -/

/-- How a write fails: a conflict, which was not applied, or a failure that leaves it open whether it was. -/
inductive WriteFault
  | conflict
  | ambiguousWrite (applied : Bool)
  | unavailable (applied : Bool)
deriving DecidableEq

namespace WriteFault

def error : WriteFault → BackendError
  | conflict => .conflict
  | ambiguousWrite _ => .ambiguousWrite
  | unavailable _ => .unavailable

def applied : WriteFault → Bool
  | conflict => false
  | ambiguousWrite applied => applied
  | unavailable applied => applied

end WriteFault

/-- A call of `refresh_access` and its surroundings: the rows of the backend, what the factory of attempt identifiers and the
provider answer, and the write that fails, by its position among the writes, if one does. -/
structure RefreshRun where
  self : CredentialBinding
  binding : CredentialBinding
  minimumTtlSeconds : Int
  rows : String → Option Doc
  attemptId : Except SecretError String
  reply : ExchangeReply
  fault : Option (Nat × WriteFault)

/-- The rows of the backend, the number of writes so far, and the attempts the provider was called for. -/
structure BackendWorld where
  rows : String → Option Doc
  writes : Nat
  exchanged : List String

/-- The write of a backend: it compares the version of the row and replaces the row, or it does neither. -/
def BackendWorld.swap (w : BackendWorld) (key : String) (expectedVersion : Int) (replacement : Doc) : Option BackendWorld :=
  if (w.rows key).bind (fun row => row.get? "version") = some (.num (.int expectedVersion)) then
    some { w with rows := Function.update w.rows key (some replacement) }
  else none

namespace RefreshRun

/-- The fault of a write. -/
def faultAt (run : RefreshRun) (n : Nat) : Option WriteFault :=
  run.fault.bind (fun f => if f.1 = n then some f.2 else none)

/-- What a command does: one write at most fails, and everything else succeeds. -/
def answer (run : RefreshRun) (w : BackendWorld) : (c : BackendCmd) → c.Reply × BackendWorld
  | .read key => (.ok (w.rows key), w)
  | .compareAndSwap key expectedVersion replacement =>
    let counted := { w with writes := w.writes + 1 }
    match run.faultAt w.writes, counted.swap key expectedVersion replacement with
    | some fault, swapped => (.error fault.error, if fault.applied then swapped.getD counted else counted)
    | none, some swapped => (.ok (some replacement), swapped)
    | none, none => (.error .conflict, counted)
  | .attemptId => (run.attemptId, w)
  | .exchange _ _ attemptId _ => (run.reply, { w with exchanged := w.exchanged ++ [attemptId] })

/-- A program of a source over the adapter, from a state of the backend. -/
def exec {α : Type} (run : RefreshRun) (p : SecretProg α) (w : BackendWorld) : Except SecretError α × BackendWorld :=
  (p.handle DurableVersionedSecretStore.carryOut).interp run.answer w

/-- The backend before the call. -/
def start (run : RefreshRun) : BackendWorld := { rows := run.rows, writes := 0, exchanged := [] }

/-- The whole call. -/
def final (run : RefreshRun) : Except SecretError AccessCredentialGrant × BackendWorld :=
  run.exec (CredentialSource.refreshAccess run.self run.binding run.minimumTtlSeconds) run.start

end RefreshRun

end Keirin

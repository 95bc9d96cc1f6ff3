import Keirin.Lib.Interleave
import Keirin.Python

/-!
# The refresh secret

The refresh secret of a credential lives in a store whose writes compare the version they replace. A source claims the
record before it exchanges the secret at the provider, and commits the rotated secret before it returns the access grant; an
operator recovers a record whose refresh has an unknown outcome.
-/

namespace Keirin

/-! ## Bindings -/

/-- The exceptions of the sources and the stores. -/
inductive SecretError
  | valueError (message : String)
  | authBlocked (message : String)
  | credentialRevoked (message : String)
  | refreshInProgress (message : String)
  | storeError (message : String)
  | storeConflict (message : String)
  | ambiguousWrite (message : String)
  | interrupted (keyboard : Bool) (message : String)
  | assertion
  | other
deriving DecidableEq

/-- Whether the exception is a `SecretStoreError`. -/
def SecretError.isStoreError : SecretError → Bool
  | storeError _ => true
  | storeConflict _ => true
  | ambiguousWrite _ => true
  | _ => false

/-- `isinstance(v, str) and v.strip()` -/
def isText (v : Doc) : Bool :=
  match v with
  | .str s => !isBlank s
  | _ => false

/-- `tuple(values)`, but for a text. -/
def capabilityItems (values : Doc) : Except SecretError (List Doc) :=
  match values, Doc.toList values with
  | .str _, _ => .error (.valueError "credential_capabilities_must_be_collection")
  | _, .ok items => .ok items
  | _, .error _ => .error (.valueError "credential_capabilities_must_be_collection")

/-- `_capabilities` -/
def capabilitiesOf (values : Doc) : Except SecretError (List String) := do
  let items ← capabilityItems values
  raiseIf (items = [] ∨ items.any (fun v => !isText v)) (.valueError "credential_capabilities_required")
  return ((items.map (fun v => strip (Doc.toStr (fun _ => "") v))).dedup).insertionSort (· ≤ ·)

/-- The check of an identity of `__post_init__`. -/
def checkIdentity (value : String) : Except SecretError Unit :=
  raiseIf (isBlank value = true ∨ value ≠ strip value) (.valueError "credential_identity_required")

/-- The capabilities that were kept are kept again. -/
theorem capabilitiesOf_again {values : Doc} {capabilities : List String} (h : capabilitiesOf values = .ok capabilities) :
    capabilitiesOf (.arr (capabilities.map .str)) = .ok capabilities := by
  unfold capabilitiesOf at h
  obtain ⟨items, -, h⟩ := bind_ok.1 h
  obtain ⟨hitems, h⟩ := raiseIf_bind_ok.1 h
  obtain rfl := Except.ok.inj h
  simp only [not_or, List.any_eq_true, not_exists, not_and, Bool.not_eq_true', Bool.not_eq_false] at hitems
  obtain ⟨hne, htext⟩ := hitems
  generalize hc : (items.map (fun v => strip (Doc.toStr (fun _ => "") v))).dedup.insertionSort (· ≤ ·) = capabilities
  have hmem : ∀ c, c ∈ capabilities ↔ c ∈ items.map (fun v => strip (Doc.toStr (fun _ => "") v)) := by
    intro c
    rw [← hc, List.mem_insertionSort, List.mem_dedup]
  have hcap : ∀ c ∈ capabilities, strip c = c ∧ isBlank c = false := by
    intro c hmc
    obtain ⟨v, hv, rfl⟩ := List.mem_map.1 ((hmem c).1 hmc)
    refine ⟨strip_strip _, Bool.eq_false_iff.2 fun hb => ?_⟩
    have hv := htext v hv
    rw [isBlank_iff, strip_strip, ← isBlank_iff] at hb
    cases v with
    | str s =>
      simp only [isText, Bool.not_eq_true'] at hv
      rw [show isBlank s = true from hb] at hv
      nomatch hv
    | _ => nomatch hv
  have hnonempty : capabilities.map Json.str ≠ ([] : List Doc) := by
    obtain ⟨v, rest, rfl⟩ := List.exists_cons_of_ne_nil hne
    have := (hmem _).2 (List.mem_map_of_mem (List.mem_cons_self (a := v) (l := rest)))
    exact List.ne_nil_of_mem (List.mem_map_of_mem this)
  have hall : (capabilities.map Json.str).any (fun v : Doc => !isText v) = false := by
    rw [List.any_eq_false]
    intro v hv
    obtain ⟨c, hmc, rfl⟩ := List.mem_map.1 hv
    simp [isText, (hcap c hmc).2]
  have hidem : (capabilities.map Json.str).map (fun v : Doc => strip (Doc.toStr (fun _ => "") v)) = capabilities := by
    rw [List.map_map]
    exact (List.map_congr_left fun c hmc => (hcap c hmc).1).trans (List.map_id _)
  have hnodup : capabilities.dedup = capabilities :=
    List.dedup_eq_self.2 (hc ▸ (List.perm_insertionSort _ _).nodup_iff.2 (List.nodup_dedup _))
  have hsorted : capabilities.insertionSort (· ≤ ·) = capabilities :=
    List.Pairwise.insertionSort_eq (hc ▸ List.pairwise_insertionSort _ _)
  unfold capabilitiesOf
  refine bind_ok.2 ⟨capabilities.map .str, rfl, raiseIf_bind_ok.2 ⟨?_, ?_⟩⟩
  · rw [hall]
    simpa using hnonempty
  · rw [hidem, hnodup, hsorted]
    rfl

/-- Who the credential is for: provider, account and capabilities, which passed the checks. -/
structure CredentialBinding where
  providerId : String
  accountId : String
  capabilities : List String
  provider : checkIdentity providerId = .ok ()
  account : checkIdentity accountId = .ok ()
  canonical : capabilitiesOf (.arr (capabilities.map .str)) = .ok capabilities
deriving DecidableEq

/-- `CredentialBinding(…)` -/
def CredentialBinding.ofFields (providerId accountId : String) (values : Doc) : Except SecretError CredentialBinding :=
  match hp : checkIdentity providerId, ha : checkIdentity accountId, hc : capabilitiesOf values with
  | .ok (), .ok (), .ok capabilities =>
    .ok { providerId := providerId, accountId := accountId, capabilities := capabilities, provider := hp, account := ha
          canonical := capabilitiesOf_again hc }
  | .error e, _, _ => .error e
  | _, .error e, _ => .error e
  | _, _, .error e => .error e

/-! ## Records -/

inductive SecretState
  | ready
  | refreshing
  | blockedAuth
  | blockedAmbiguous
  | revoked
deriving DecidableEq

/-- The code of a failure. -/
inductive FailureCode
  | refreshRejected
  | refreshOutcomeAmbiguous
  | refreshResponseInvalid
  | commitAmbiguous
  | sourceRevoked
deriving DecidableEq

/-- The fields of a record. -/
structure SecretFields where
  binding : CredentialBinding
  version : Int
  state : SecretState
  refreshSecret : Option String
  refreshGeneration : Int := 0
  activeAttemptId : Option String := none
  lastAttemptId : Option String := none
  failure : Option FailureCode := none
deriving DecidableEq

/-- `_ATTEMPT_ID_RE.fullmatch(value)` -/
def isAttemptId (value : String) : Bool := Text.isName ['.', '_', ':', '-'] value

/-- `_seconds` -/
def checkSeconds (value : Int) (error : String) : Except SecretError Unit := raiseIf (value < 0) (.valueError error)

/-- `_safe_attempt_id` -/
def safeAttemptId (value : String) (error : String) : Except SecretError Unit :=
  raiseIf (isAttemptId value = false) (.valueError error)

/-- `__post_init__` -/
def SecretFields.validate (r : SecretFields) : Except SecretError Unit := do
  checkSeconds r.version "secret_store_version_invalid"
  checkSeconds r.refreshGeneration "refresh_generation_invalid"
  raiseIf (r.state = .revoked ∧ r.refreshSecret ≠ none) (.valueError "revoked_secret_must_be_cleared")
  raiseIf (r.state ≠ .revoked ∧ r.refreshSecret.all isBlank = true) (.valueError "refresh_secret_required")
  raiseIf (r.state = .refreshing ∧ r.activeAttemptId = none) (.valueError "refresh_attempt_required")
  raiseIf (r.state = .refreshing ∧ r.activeAttemptId.all isAttemptId = false) (.valueError "refresh_attempt_invalid")
  raiseIf (r.state ≠ .refreshing ∧ r.activeAttemptId ≠ none) (.valueError "active_attempt_only_while_refreshing")
  raiseIf (r.lastAttemptId.all isAttemptId = false) (.valueError "last_attempt_invalid")

/-- A record: its fields passed the checks. -/
structure RefreshSecretRecord extends SecretFields where
  valid : toSecretFields.validate = .ok ()

/-- `RefreshSecretRecord(…)` and `replace(current, …)` -/
def RefreshSecretRecord.ofFields (fields : SecretFields) : Except SecretError RefreshSecretRecord :=
  match h : fields.validate with
  | .ok () => .ok { fields with valid := h }
  | .error e => .error e

instance : DecidableEq RefreshSecretRecord := fun a b =>
  decidable_of_iff (a.toSecretFields = b.toSecretFields) ⟨fun h => by cases a; cases b; cases h; rfl, fun h => by rw [h]⟩

/-! ## Exchanges -/

/-- An access grant of the provider; nothing about it is checked yet. -/
structure AccessCredentialGrant where
  providerId : Doc
  accountId : Doc
  capabilities : Doc
  accessToken : Doc
  issuedAt : Doc
  expiresAt : Doc
deriving DecidableEq

/-- The result of an exchange; `none` stands for a grant of another type. -/
structure RefreshExchangeResult where
  grant : Option AccessCredentialGrant
  rotatedRefreshSecret : Doc
deriving DecidableEq

/-- What became of an exchange: a result, another value, a definitive rejection, or another exception, which may be an
interrupt from the keyboard or the system. -/
inductive ExchangeReply
  | result (r : RefreshExchangeResult)
  | otherValue
  | rejected
  | raised (interrupt : Option Bool)
deriving DecidableEq

/-- `_seconds`, of a value that is not checked yet. -/
def secondsOf (error : String) : Doc → Except SecretError Int
  | .num (.int n) => if n < 0 then .error (.valueError error) else .ok n
  | _ => .error (.valueError error)

/-- `_validate_exchange_result` -/
def validateExchangeResult (self : CredentialBinding) (minimumTtlSeconds : Int) (r : RefreshExchangeResult) :
    Except SecretError Unit := do
  let some grant := r.grant | throw (.valueError "invalid_access_grant")
  raiseIf (grant.providerId ≠ .str self.providerId ∨ grant.accountId ≠ .str self.accountId)
    (.valueError "credential_identity_mismatch")
  let capabilities ← capabilitiesOf grant.capabilities
  raiseIf (capabilities ≠ self.capabilities) (.valueError "credential_scope_changed")
  raiseIf (isText grant.accessToken = false) (.valueError "invalid_access_token")
  let issuedAt ← secondsOf "invalid_issue_time" grant.issuedAt
  let expiresAt ← secondsOf "invalid_expiry" grant.expiresAt
  raiseIf (expiresAt ≤ issuedAt) (.valueError "credential_expiry_must_follow_issue_time")
  raiseIf (expiresAt - issuedAt < minimumTtlSeconds) (.valueError "invalid_access_lifetime")
  raiseIf (isText r.rotatedRefreshSecret = false) (.valueError "rotated_refresh_secret_required")

/-! ## Commands -/

/-- Which method writes. -/
inductive SecretWriter
  | claim
  | block
  | commit
  | recoverNotApplied
  | recoverRotated
  | revoke
deriving DecidableEq

/-- What a source asks of its store, of the factory of attempt identifiers and of the provider; `writer` is kept for the log. -/
inductive SecretCmd
  | seed (record : RefreshSecretRecord)
  | read (binding : CredentialBinding)
  | compareAndSwap (writer : SecretWriter) (binding : CredentialBinding) (expectedVersion : Int)
      (replacement : RefreshSecretRecord)
  | attemptId
  | exchange (binding : CredentialBinding) (refreshSecret attemptId : String) (minimumTtlSeconds : Int)

/-- The reply to a command. -/
def SecretCmd.Reply : SecretCmd → Type
  | seed _ => Except SecretError RefreshSecretRecord
  | read _ => Except SecretError RefreshSecretRecord
  | compareAndSwap .. => Except SecretError RefreshSecretRecord
  | attemptId => Except SecretError String
  | exchange .. => ExchangeReply

abbrev SecretProg := Prog SecretCmd SecretCmd.Reply SecretError

/-! ## The source -/

namespace CredentialSource

/-- Go on with a value, or raise the error. -/
def unwrap {α : Type} : Except SecretError α → SecretProg α
  | .ok a => .ret a
  | .error e => .raise e

/-- How a write failed that the source handles. -/
inductive CasFailure
  | ambiguous
  | conflict

section Source

variable (self : CredentialBinding)

/-- `_read` -/
def readRecord : SecretProg RefreshSecretRecord :=
  .cmd (.read self) fun
    | .ok record =>
      if record.binding ≠ self then .raise (.authBlocked "credential_secret_store_integrity_error") else .ret record
    | .error e => if e.isStoreError then .raise (.authBlocked "credential_secret_store_unavailable") else .raise e

/-- `_fixed_attempt` -/
def fixedAttempt (value : String) : SecretProg String :=
  if isAttemptId value then .ret value else .raise (.authBlocked "credential_refresh_attempt_invalid")

/-- `_cas`, the two failures its callers handle as values. -/
def cas (writer : SecretWriter) (current replacement : RefreshSecretRecord) :
    SecretProg (Except CasFailure RefreshSecretRecord) :=
  .cmd (.compareAndSwap writer self current.version replacement) fun
    | .ok saved => .ret (.ok saved)
    | .error (.ambiguousWrite _) => .ret (.error .ambiguous)
    | .error (.storeConflict _) => .ret (.error .conflict)
    | .error e => .raise e

/-- The record of a claim. -/
def claimedFields (current : RefreshSecretRecord) (attemptId : String) : SecretFields :=
  { current.toSecretFields with
    version := current.version + 1
    state := .refreshing
    activeAttemptId := some attemptId
    failure := none }

/-- `_claim` -/
def claim (current : RefreshSecretRecord) (attemptId : String) : SecretProg RefreshSecretRecord := do
  let claimed ← unwrap (RefreshSecretRecord.ofFields (claimedFields current attemptId))
  match ← cas self .claim current claimed with
  | .ok saved => return saved
  | .error .conflict => .raise (.refreshInProgress "credential_refresh_owned_elsewhere")
  | .error .ambiguous =>
    let observed ← readRecord self
    if observed.state = .refreshing ∧ observed.activeAttemptId = some attemptId ∧ observed.version = claimed.version then
      return observed
    else .raise (.authBlocked "credential_refresh_claim_ambiguous")

/-- The record of a refresh that ended without a secret. -/
def blockedFields (current : RefreshSecretRecord) (attemptId : String) (state : SecretState) (failure : FailureCode) :
    SecretFields :=
  { current.toSecretFields with
    version := current.version + 1
    state := state
    activeAttemptId := none
    lastAttemptId := some attemptId
    failure := some failure }

/-- `_block` -/
def block (current : RefreshSecretRecord) (attemptId : String) (state : SecretState) (failure : FailureCode) :
    SecretProg RefreshSecretRecord := do
  let blocked ← unwrap (RefreshSecretRecord.ofFields (blockedFields current attemptId state failure))
  match ← cas self .block current blocked with
  | .ok saved => return saved
  | .error _ =>
    let observed ← readRecord self
    if observed.state = state ∧ observed.lastAttemptId = some attemptId ∧ observed.failure = some failure then
      return observed
    else .raise (.authBlocked "credential_refresh_recovery_state_uncertain")

/-- The record of a refresh that succeeded. -/
def committedFields (current : RefreshSecretRecord) (attemptId secret : String) : SecretFields :=
  { current.toSecretFields with
    version := current.version + 1
    state := .ready
    refreshSecret := some secret
    refreshGeneration := current.refreshGeneration + 1
    activeAttemptId := none
    lastAttemptId := some attemptId
    failure := none }

/-- `_commit_success` -/
def commitSuccess (current : RefreshSecretRecord) (attemptId secret : String) : SecretProg RefreshSecretRecord := do
  let committed ← unwrap (RefreshSecretRecord.ofFields (committedFields current attemptId secret))
  match ← cas self .commit current committed with
  | .ok saved => return saved
  | .error .ambiguous =>
    let observed ← readRecord self
    if observed.state = .ready ∧ observed.version = committed.version ∧
        observed.refreshGeneration = committed.refreshGeneration ∧ observed.lastAttemptId = some attemptId ∧
        observed.refreshSecret = some secret then
      return observed
    else if observed.state = .refreshing ∧ observed.activeAttemptId = some attemptId then
      let _ ← block self observed attemptId .blockedAmbiguous .commitAmbiguous
      .raise (.authBlocked "credential_refresh_persistence_ambiguous")
    else .raise (.authBlocked "credential_refresh_persistence_ambiguous")
  | .error .conflict =>
    let observed ← readRecord self
    if observed.state = .revoked then .raise (.credentialRevoked "credential_source_revoked")
    else .raise (.authBlocked "credential_refresh_persistence_conflict")

/-- What follows the exchange. -/
def afterExchange (claimed : RefreshSecretRecord) (attemptId : String) (minimumTtlSeconds : Int) :
    ExchangeReply → SecretProg AccessCredentialGrant
  | .rejected => do
    let _ ← block self claimed attemptId .blockedAuth .refreshRejected
    .raise (.authBlocked "credential_refresh_rejected")
  | .raised interrupt => do
    let _ ← block self claimed attemptId .blockedAmbiguous .refreshOutcomeAmbiguous
    match interrupt with
    | some keyboard => .raise (.interrupted keyboard "credential_refresh_interrupted")
    | none => .raise (.authBlocked "credential_refresh_outcome_ambiguous")
  | .otherValue => do
    let _ ← block self claimed attemptId .blockedAmbiguous .refreshResponseInvalid
    .raise (.authBlocked "credential_refresh_outcome_ambiguous")
  | .result r =>
    match validateExchangeResult self minimumTtlSeconds r, r.grant, r.rotatedRefreshSecret with
    | .ok (), some grant, .str secret => do
      let _ ← commitSuccess self claimed attemptId secret
      return grant
    | _, _, _ => do
      let _ ← block self claimed attemptId .blockedAmbiguous .refreshResponseInvalid
      .raise (.authBlocked "credential_refresh_outcome_ambiguous")

/-- `refresh_access` -/
def refreshAccess (binding : CredentialBinding) (minimumTtlSeconds : Int) : SecretProg AccessCredentialGrant := do
  unwrap (raiseIf (binding ≠ self) (.authBlocked "credential_binding_mismatch"))
  unwrap (checkSeconds minimumTtlSeconds "invalid_minimum_ttl")
  let current ← readRecord self
  match current.state with
  | .revoked => .raise (.credentialRevoked "credential_source_revoked")
  | .refreshing => .raise (.refreshInProgress "credential_refresh_owned_elsewhere")
  | .blockedAmbiguous => .raise (.authBlocked "credential_refresh_outcome_ambiguous")
  | .blockedAuth => .raise (.authBlocked "credential_auth_unavailable")
  | .ready =>
    let value ← .cmd .attemptId unwrap
    let attemptId ← fixedAttempt value
    let claimed ← claim self current attemptId
    match claimed.refreshSecret with
    | none => .raise .assertion
    | some secret =>
      let reply ← .cmd (.exchange self secret attemptId minimumTtlSeconds) .ret
      afterExchange self claimed attemptId minimumTtlSeconds reply

/-- `_recover_cas` -/
def recoverCas (writer : SecretWriter) (current : RefreshSecretRecord) (fields : SecretFields) :
    SecretProg RefreshSecretRecord := do
  let replacement ← unwrap (RefreshSecretRecord.ofFields fields)
  match ← cas self writer current replacement with
  | .ok saved => return saved
  | .error .ambiguous => .raise (.authBlocked "credential_recovery_persistence_ambiguous")
  | .error .conflict => .raise (.storeConflict "secret_store_version_conflict")

/-- The record an operator recovers. -/
def readAmbiguous (expectedVersion : Int) (attemptId : String) : SecretProg RefreshSecretRecord := do
  let current ← readRecord self
  if current.version ≠ expectedVersion then .raise (.storeConflict "secret_store_version_conflict")
  else if current.state ≠ .blockedAmbiguous ∨ current.lastAttemptId ≠ some attemptId then
    .raise (.authBlocked "ambiguous_recovery_precondition_failed")
  else return current

/-- The record of a recovery that found the refresh not applied. -/
def notAppliedFields (current : RefreshSecretRecord) : SecretFields :=
  { current.toSecretFields with
    version := current.version + 1
    state := .ready
    activeAttemptId := none
    failure := none }

/-- `recover_ambiguous_not_applied` -/
def recoverAmbiguousNotApplied (expectedVersion : Int) (attemptId : String) : SecretProg RefreshSecretRecord := do
  unwrap (checkSeconds expectedVersion "secret_store_expected_version_invalid")
  let attemptId ← fixedAttempt attemptId
  let current ← readAmbiguous self expectedVersion attemptId
  recoverCas self .recoverNotApplied current (notAppliedFields current)

/-- The record of a recovery with the rotated secret. -/
def rotatedFields (current : RefreshSecretRecord) (rotatedRefreshSecret : String) : SecretFields :=
  { current.toSecretFields with
    version := current.version + 1
    state := .ready
    refreshSecret := some rotatedRefreshSecret
    refreshGeneration := current.refreshGeneration + 1
    activeAttemptId := none
    failure := none }

/-- `recover_ambiguous_with_rotated_secret` -/
def recoverAmbiguousWithRotatedSecret (expectedVersion : Int) (attemptId rotatedRefreshSecret : String) :
    SecretProg RefreshSecretRecord := do
  unwrap (checkSeconds expectedVersion "secret_store_expected_version_invalid")
  let attemptId ← fixedAttempt attemptId
  unwrap (raiseIf (isBlank rotatedRefreshSecret = true) (.valueError "rotated_refresh_secret_required"))
  let current ← readAmbiguous self expectedVersion attemptId
  recoverCas self .recoverRotated current (rotatedFields current rotatedRefreshSecret)

/-- The record of a revocation. -/
def revokedFields (current : RefreshSecretRecord) : SecretFields :=
  { current.toSecretFields with
    version := current.version + 1
    state := .revoked
    refreshSecret := none
    activeAttemptId := none
    failure := some .sourceRevoked }

/-- `revoke` -/
def revoke : SecretProg RefreshSecretRecord := do
  let current ← readRecord self
  if current.state = .revoked then return current
  else
    let replacement ← unwrap (RefreshSecretRecord.ofFields (revokedFields current))
    match ← cas self .revoke current replacement with
    | .ok saved => return saved
    | .error failure =>
      let observed ← readRecord self
      if observed.state = .revoked ∧ observed.refreshSecret = none then return observed
      else match failure with
        | .ambiguous => .raise (.authBlocked "credential_revoke_persistence_ambiguous")
        | .conflict => .raise (.authBlocked "credential_revoke_persistence_conflict")

/-- `seed` -/
def seed (refreshSecret : String) : SecretProg RefreshSecretRecord := do
  unwrap (raiseIf (isBlank refreshSecret = true) (.valueError "refresh_secret_required"))
  let record ← unwrap (RefreshSecretRecord.ofFields { binding := self, version := 0, state := .ready, refreshSecret := some refreshSecret })
  .cmd (.seed record) unwrap

end Source

end CredentialSource

/-! ## The store -/

/-- What the log keeps: the records that were configured, the writes that took effect, with the record before and after, and the
exchanges, with the generation of the record at that time and the reply. -/
inductive SecretItem
  | seeded (record : RefreshSecretRecord)
  | wrote (writer : SecretWriter) (old new : RefreshSecretRecord)
  | exchanged (binding : CredentialBinding) (generation : Int) (attemptId : String) (reply : ExchangeReply)
deriving DecidableEq

/-- The records by their binding, the attempt identifiers that were given out and to which thread, and the log. -/
structure SecretWorld (T : Type) where
  records : CredentialBinding → Option RefreshSecretRecord
  attempts : List (String × T)
  log : List SecretItem

/-- How a command is resolved: it takes effect, it fails with an exception, the factory gives an identifier, or the provider
answers. -/
inductive SecretChoice
  | ok
  | fault (e : SecretError) (applied : Bool)
  | attempt (value : String)
  | answer (reply : ExchangeReply)

namespace SecretWorld

variable {T : Type}

def initial : SecretWorld T := { records := fun _ => none, attempts := [], log := [] }

/-- Store a record under its binding. -/
def store (w : SecretWorld T) (binding : CredentialBinding) (record : RefreshSecretRecord) : SecretWorld T :=
  { w with records := Function.update w.records binding (some record) }

/-- The write of `compare_and_swap`. -/
def swap (w : SecretWorld T) (writer : SecretWriter) (binding : CredentialBinding) (expectedVersion : Int)
    (replacement : RefreshSecretRecord) : Except SecretError (SecretWorld T) := do
  raiseIf (expectedVersion < 0) (.valueError "secret_store_expected_version_invalid")
  raiseIf (replacement.binding ≠ binding) (.valueError "secret_store_replacement_binding_mismatch")
  raiseIf (replacement.version ≠ expectedVersion + 1) (.valueError "secret_store_replacement_version_invalid")
  match w.records binding with
  | none => throw (.storeConflict "secret_store_version_conflict")
  | some current =>
    raiseIf (current.version ≠ expectedVersion) (.storeConflict "secret_store_version_conflict")
    return { w.store binding replacement with log := w.log ++ [.wrote writer current replacement] }

/-- What the commands of thread `t` do. A write that failed may have been applied, but for a conflict; an attempt identifier
is given out once. -/
def machine (t : T) : Machine (SecretWorld T) SecretCmd SecretCmd.Reply SecretChoice
  | w, .seed record, .ok =>
    match w.records record.binding with
    | some _ => some (.error (.storeConflict "secret_store_record_already_exists"), w)
    | none => some (.ok record, { w.store record.binding record with log := w.log ++ [.seeded record] })
  | w, .seed _, .fault e _ => some (.error e, w)
  | w, .read binding, .ok =>
    match w.records binding with
    | some record => some (.ok record, w)
    | none => some (.error (.authBlocked "credential_secret_unconfigured"), w)
  | w, .read _, .fault e _ => some (.error e, w)
  | w, .compareAndSwap writer binding expected replacement, .ok =>
    match w.swap writer binding expected replacement with
    | .ok w' => some (.ok replacement, w')
    | .error e => some (.error e, w)
  | w, .compareAndSwap writer binding expected replacement, .fault e applied =>
    match e, applied, w.swap writer binding expected replacement with
    | .storeConflict _, true, _ => none
    | _, true, .ok w' => some (.error e, w')
    | _, _, _ => some (.error e, w)
  | w, .attemptId, .attempt value =>
    if value ∈ w.attempts.map Prod.fst then none else some (.ok value, { w with attempts := w.attempts ++ [(value, t)] })
  | w, .attemptId, .fault e _ => some (.error e, w)
  | w, .exchange binding _ attemptId _, .answer reply =>
    match w.records binding with
    | some record =>
      some (reply, { w with log := w.log ++ [.exchanged binding record.refreshGeneration attemptId reply] })
    | none => none
  | _, _, _ => none

end SecretWorld

/-! ## Schedules -/

/-- A call of a source, or the configuration of a record. -/
inductive SourceCall
  | seed (self : CredentialBinding) (refreshSecret : String)
  | refreshAccess (self binding : CredentialBinding) (minimumTtlSeconds : Int)
  | recoverNotApplied (self : CredentialBinding) (expectedVersion : Int) (attemptId : String)
  | recoverRotated (self : CredentialBinding) (expectedVersion : Int) (attemptId rotatedRefreshSecret : String)
  | revoke (self : CredentialBinding)

/-- The program of a call; of what the calls return, the access grants are kept. -/
def SourceCall.program : SourceCall → SecretProg (Option AccessCredentialGrant)
  | seed self secret => CredentialSource.seed self secret >>= fun _ => .ret none
  | refreshAccess self binding ttl => CredentialSource.refreshAccess self binding ttl >>= fun grant => .ret (some grant)
  | recoverNotApplied self version attempt => CredentialSource.recoverAmbiguousNotApplied self version attempt >>= fun _ => .ret none
  | recoverRotated self version attempt secret =>
    CredentialSource.recoverAmbiguousWithRotatedSecret self version attempt secret >>= fun _ => .ret none
  | revoke self => CredentialSource.revoke self >>= fun _ => .ret none

/-- Any number of sources over one store; a thread is one call of one source. -/
def sources (T : Type) :
    Team T SourceCall (SecretWorld T) SecretCmd SecretCmd.Reply SecretChoice SecretError (Option AccessCredentialGrant) where
  machine := SecretWorld.machine
  body _ call := call.program

/-! ## Reading the log -/

/-- Whether an entry is an exchange of the secret at the generation. -/
def SecretItem.isExchange (binding : CredentialBinding) (generation : Int) : SecretItem → Bool
  | exchanged b g _ _ => b = binding && g = generation
  | _ => false

/-- Whether an entry is a recovery as not applied that took effect at the generation. -/
def SecretItem.isNotApplied (binding : CredentialBinding) (generation : Int) : SecretItem → Bool
  | wrote .recoverNotApplied old _ => old.binding = binding && old.refreshGeneration = generation
  | _ => false

end Keirin

import Keirin.DurableStore
import Keirin.Lib.JsonRoundTrip
import Keirin.Lib.Jsonb

/-!
# The secret backend of the database

The record of a credential as PostgreSQL keeps it: a row of the table `bindings`, and the secret in a vault under the identifier
the row holds. `read_binding` puts the two together to a stored document, and `cas_binding` replaces them by a document where
the row has the expected version. The adapter sends only documents that `_strict_record` accepts.
-/

namespace Keirin

/-! ## Records that are sent -/

/-- The number a number is stored as. -/
def Scalar.numeric : Scalar → Numeric
  | int n => Numeric.ofInt n
  | float x => Numeric.ofLit x.pyRepr
  | _ => Numeric.ofInt 0

/-- `json.dumps(v)` as a parameter `%s::jsonb`: the stored document, where JSON has all its numbers and the database its texts. -/
def Doc.jsonb (v : Doc) : Option Jsonb :=
  if v.finite = true ∧ '\x00' ∉ v.chars then some (Jsonb.ofJson (v.bindNum fun n => .num n.numeric)) else none

namespace SecretBackend

/-- `_MAX_BIGINT` -/
def maxBigint : Int := 2 ^ 63 - 1

/-- `_FIELDS` -/
def recordFields : List String :=
  ["schema_version", "provider_id", "account_id", "capabilities", "version", "state", "refresh_secret", "refresh_generation",
    "active_attempt_id", "last_attempt_id", "failure"]

/-- `type(v) is int and 0 <= v <= _MAX_BIGINT` -/
def isBigint : Doc → Bool
  | .num (.int n) => 0 ≤ n && n ≤ maxBigint
  | _ => false

/-- `v is None or type(v) is str` -/
def isOptionalText : Doc → Bool
  | .null => true
  | .str _ => true
  | _ => false

/-- `type(raw) is dict` -/
def asDict : Doc → Except SecretError (Dict Doc)
  | .obj fields => .ok fields
  | _ => .error (.valueError "record_invalid")

/-- `_strict_record` -/
def strictRecord (raw : Doc) (binding : CredentialBinding) : Except SecretError Doc := do
  let invalid := SecretError.valueError "record_invalid"
  let fields ← asDict raw
  let get := fun key => Dict.getD fields key .null
  raiseIf (¬(fields.map Prod.fst).Perm recordFields) invalid
  raiseIf ((["version", "refresh_generation"].all fun key => isBigint (get key)) = false) invalid
  raiseIf ((["schema_version", "provider_id", "account_id", "state", "refresh_secret", "active_attempt_id", "last_attempt_id",
    "failure"].all fun key => isOptionalText (get key)) = false) invalid
  raiseIf (isTextList (get "capabilities") = false) invalid
  let record ← decodeRecord raw binding
  raiseIf ((encodeRecord record).sortKeys ≠ raw.sortKeys) invalid
  return encodeRecord record

/-! ## Tables -/

/-- The errors of the two functions and of the table. -/
inductive SqlError
  | bindingDenied
  | bindingMissing
  | secretMissing
  | versionConflict
  | replacementInvalid
  | checkViolation
  | uniqueViolation
deriving DecidableEq

/-- A row of `agent_credential_private.bindings`. -/
structure BindingRow where
  bindingKey : String
  schemaVersion : String
  providerId : String
  accountId : String
  capabilities : List (Option String)
  version : Int
  state : String
  refreshGeneration : Int
  activeAttemptId : Option String
  lastAttemptId : Option String
  failure : Option String
  secretId : Option Nat
deriving DecidableEq

/-- `btrim(s)` -/
def btrim (s : String) : String := String.ofList ((s.toList.dropWhile (· = ' ')).rdropWhile (· = ' '))

def states : List String := ["ready", "refreshing", "blocked_auth", "blocked_ambiguous", "revoked"]

def failures : List String :=
  ["refresh_rejected", "refresh_outcome_ambiguous", "refresh_response_invalid_or_incomplete", "secret_store_commit_ambiguous",
    "credential_source_revoked"]

/-- The constraints on a row; the pattern of an attempt is that of `_ATTEMPT_ID_RE`. -/
structure BindingRow.Checks (row : BindingRow) : Prop where
  key : row.bindingKey ≠ "" ∧ row.bindingKey = btrim row.bindingKey
  schema : row.schemaVersion = SECRET_RECORD_SCHEMA_VERSION
  provider : row.providerId ≠ "" ∧ row.providerId = btrim row.providerId
  account : row.accountId ≠ "" ∧ row.accountId = btrim row.accountId
  capabilities : row.capabilities ≠ [] ∧ none ∉ row.capabilities
  version : 0 ≤ row.version ∧ row.version ≤ maxBigint
  state : row.state ∈ states
  generation : 0 ≤ row.refreshGeneration ∧ row.refreshGeneration ≤ maxBigint
  active : row.activeAttemptId.all isAttemptId = true
  last : row.lastAttemptId.all isAttemptId = true
  failure : row.failure.all (· ∈ failures) = true
  revoked : row.state = "revoked" ↔ row.secretId = none
  refreshing : row.state = "refreshing" ↔ row.activeAttemptId ≠ none

instance (row : BindingRow) : Decidable row.Checks :=
  decidable_of_iff
    ((row.bindingKey ≠ "" ∧ row.bindingKey = btrim row.bindingKey) ∧ row.schemaVersion = SECRET_RECORD_SCHEMA_VERSION ∧
      (row.providerId ≠ "" ∧ row.providerId = btrim row.providerId) ∧
      (row.accountId ≠ "" ∧ row.accountId = btrim row.accountId) ∧ (row.capabilities ≠ [] ∧ none ∉ row.capabilities) ∧
      (0 ≤ row.version ∧ row.version ≤ maxBigint) ∧ row.state ∈ states ∧
      (0 ≤ row.refreshGeneration ∧ row.refreshGeneration ≤ maxBigint) ∧ row.activeAttemptId.all isAttemptId = true ∧
      row.lastAttemptId.all isAttemptId = true ∧ row.failure.all (· ∈ failures) = true ∧
      (row.state = "revoked" ↔ row.secretId = none) ∧ (row.state = "refreshing" ↔ row.activeAttemptId ≠ none))
    ⟨fun ⟨a, b, c, d, e, f, g, h, i, j, k, l, m⟩ => ⟨a, b, c, d, e, f, g, h, i, j, k, l, m⟩,
      fun ⟨a, b, c, d, e, f, g, h, i, j, k, l, m⟩ => ⟨a, b, c, d, e, f, g, h, i, j, k, l, m⟩⟩

/-- The table `bindings`, the vault, and the pairs of `host_bindings`. -/
structure SecretDb where
  bindings : List BindingRow
  vault : Nat → Option String
  hostBindings : List (String × String)

/-- The constraints of the table: those on its rows, its primary key, and the unique identifiers of secrets. -/
structure SecretDb.Constraints (db : SecretDb) : Prop where
  rows : ∀ row ∈ db.bindings, row.Checks
  keyed : (db.bindings.map BindingRow.bindingKey).Nodup
  unique : (db.bindings.filterMap BindingRow.secretId).Nodup

/-- Who calls: `session_user` and `auth.uid()`. -/
structure Session where
  user : String
  uid : Option String

/-- The bound host of a key. -/
def Session.Bound (session : Session) (db : SecretDb) (key : String) : Prop :=
  session.user = "agent_secret_host" ∧ session.uid = none ∧ (session.user, key) ∈ db.hostBindings

instance (session : Session) (db : SecretDb) (key : String) : Decidable (session.Bound db key) := by
  unfold Session.Bound
  infer_instance

namespace SecretDb

/-- The row of a key. -/
def row? (db : SecretDb) (key : String) : Option BindingRow := db.bindings.find? fun row => row.bindingKey = key

/-- `UPDATE bindings SET … WHERE binding_key = p_key` -/
def update (db : SecretDb) (row : BindingRow) : Except SqlError SecretDb := do
  let rows := db.bindings.map fun r => if r.bindingKey = row.bindingKey then row else r
  raiseIf (¬row.Checks) .checkViolation
  raiseIf (¬(rows.filterMap BindingRow.secretId).Nodup) .uniqueViolation
  return { db with bindings := rows }

/-- `vault.update_secret(secret_id, new_secret, NULL, NULL, NULL)` -/
def updateSecret (db : SecretDb) (secretId : Nat) (secret : Option String) : SecretDb :=
  { db with vault := fun id => if id = secretId then (db.vault id).map secret.getD else db.vault id }

/-- `DELETE FROM vault.secrets WHERE id = secret_id`, with the check that a secret was found. -/
def deleteSecret (db : SecretDb) (secretId : Nat) : Except SqlError SecretDb := do
  raiseIf (db.vault secretId = none) .secretMissing
  return { db with vault := fun id => if id = secretId then none else db.vault id }

end SecretDb

/-! ## `read_binding` -/

/-- `jsonb_typeof(v -> key)` -/
def fieldType (v : Jsonb) (key : String) : Option String :=
  (v.get? key).map fun
    | .null => "null"
    | .bool _ => "boolean"
    | .num _ => "number"
    | .str _ => "string"
    | .arr _ => "array"
    | .obj _ => "object"

/-- A column that may be null, in a document. -/
def nullable : Option String → Jsonb
  | none => .null
  | some s => .str s

/-- The document of a row: `jsonb_build_object(…)`, the row joined with its secret. -/
def BindingRow.document (row : BindingRow) (vault : Nat → Option String) : Jsonb :=
  Jsonb.ofJson (.obj
    [("schema_version", .str row.schemaVersion),
      ("provider_id", .str row.providerId),
      ("account_id", .str row.accountId),
      ("capabilities", .arr (row.capabilities.map nullable)),
      ("version", .num (Numeric.ofInt row.version)),
      ("state", .str row.state),
      ("refresh_secret", nullable (row.secretId.bind vault)),
      ("refresh_generation", .num (Numeric.ofInt row.refreshGeneration)),
      ("active_attempt_id", nullable row.activeAttemptId),
      ("last_attempt_id", nullable row.lastAttemptId),
      ("failure", nullable row.failure)])

/-- `read_binding` -/
def readBinding (session : Session) (key : String) (db : SecretDb) : Except SqlError Jsonb := do
  raiseIf (¬session.Bound db key) .bindingDenied
  let some row := db.row? key | throw .bindingMissing
  let result := row.document db.vault
  raiseIf (result.getText "state" ≠ some "revoked" ∧ fieldType result "refresh_secret" ≠ some "string") .secretMissing
  return result

/-! ## `cas_binding` -/

/-- The row of the key, where it has the expected version. -/
def currentRow (db : SecretDb) (key : String) (expected : Option Int) : Except SqlError (BindingRow × Int) :=
  match db.row? key, expected with
  | some row, some expected =>
    if expected < 0 ∨ row.version ≠ expected then .error .versionConflict else .ok (row, expected)
  | _, _ => .error .versionConflict

/-- The document has the fields of a record and no others, each of its type. -/
def wellTyped (p : Jsonb) : Bool :=
  (match p with
    | .obj fields => fields.length = 11
    | _ => false) &&
  (recordFields.all fun key => (p.get? key).isSome) &&
  (["schema_version", "provider_id", "account_id", "state"].all fun key => fieldType p key = some "string") &&
  fieldType p "capabilities" = some "array" &&
  (["version", "refresh_generation"].all fun key => fieldType p key = some "number") &&
  (["refresh_secret", "active_attempt_id", "last_attempt_id", "failure"].all fun key =>
    fieldType p key = some "string" || fieldType p key = some "null")

/-- The document, where it is one of a record. -/
def checkShape : Option Jsonb → Except SqlError Jsonb
  | some p => if wellTyped p then .ok p else .error .replacementInvalid
  | none => .error .replacementInvalid

/-- `(p ->> key)::bigint`, with the exceptions that are handled. -/
def bigintField (p : Jsonb) (key : String) : Except SqlError Int :=
  match p.get? key with
  | some (.num n) =>
    if n.scale = 0 ∧ -2 ^ 63 ≤ n.coeff ∧ n.coeff ≤ maxBigint then .ok n.coeff else .error .replacementInvalid
  | _ => .error .replacementInvalid

/-- The values that are taken from the document. -/
structure Replacement where
  version : Int
  generation : Int
  state : String
  secret : Option String
  activeAttempt : Option String
  lastAttempt : Option String
  failure : Option String

/-- The declarations `replacement_version`, …, `replacement_failure`. -/
def replacementOf (p : Jsonb) : Except SqlError Replacement := do
  let version ← bigintField p "version"
  let generation ← bigintField p "refresh_generation"
  return {
    version := version
    generation := generation
    state := (p.getText "state").getD ""
    secret := p.getText "refresh_secret"
    activeAttempt := p.getText "active_attempt_id"
    lastAttempt := p.getText "last_attempt_id"
    failure := p.getText "failure" }

/-- The document does not fit the row, or its values do not fit together. -/
def Unfit (p : Jsonb) (row : BindingRow) (expected : Int) (r : Replacement) : Prop :=
  p.getText "schema_version" ≠ some row.schemaVersion ∨
  p.getText "provider_id" ≠ some row.providerId ∨
  p.getText "account_id" ≠ some row.accountId ∨
  p.get? "capabilities" ≠ some (.arr (row.capabilities.map nullable)) ∨
  r.version ≠ expected + 1 ∨
  r.generation < 0 ∨
  r.state ∉ states ∨
  (r.state = "revoked" ∧ fieldType p "refresh_secret" ≠ some "null") ∨
  (r.state ≠ "revoked" ∧ (fieldType p "refresh_secret" ≠ some "string" ∨ r.secret = none ∨ r.secret = some "")) ∨
  ¬(r.state = "refreshing" ↔ fieldType p "active_attempt_id" = some "string") ∨
  r.activeAttempt.all isAttemptId = false ∨
  r.lastAttempt.all isAttemptId = false ∨
  r.failure.all (· ∈ failures) = false

instance (p : Jsonb) (row : BindingRow) (expected : Int) (r : Replacement) : Decidable (Unfit p row expected r) := by
  unfold Unfit
  infer_instance

/-- The identifier of the secret of the row, which the vault has. -/
def heldSecret (db : SecretDb) (row : BindingRow) : Except SqlError Nat :=
  match row.secretId with
  | none => .error .secretMissing
  | some id => if db.vault id = none then .error .secretMissing else .ok id

/-- The row with the values set. -/
def BindingRow.replaced (row : BindingRow) (r : Replacement) : BindingRow :=
  { row with
    version := r.version
    state := r.state
    refreshGeneration := r.generation
    activeAttemptId := r.activeAttempt
    lastAttemptId := r.lastAttempt
    failure := r.failure }

/-- The two updates of `cas_binding`: of the row, and of its secret. -/
def writeBack (db : SecretDb) (row : BindingRow) (secretId : Nat) (r : Replacement) : Except SqlError SecretDb := do
  if r.state = "revoked" then
    let db ← db.update { row.replaced r with secretId := none }
    db.deleteSecret secretId
  else
    (db.updateSecret secretId r.secret).update (row.replaced r)

/-- `cas_binding` -/
def casBinding (session : Session) (key : String) (expected : Option Int) (replacement : Option Jsonb) (db : SecretDb) :
    Except SqlError (Jsonb × SecretDb) := do
  raiseIf (¬session.Bound db key) .bindingDenied
  let (row, expected) ← currentRow db key expected
  raiseIf (row.state = "revoked" ∨ expected = maxBigint) .replacementInvalid
  let p ← checkShape replacement
  let r ← replacementOf p
  raiseIf (Unfit p row expected r) .replacementInvalid
  let secretId ← heldSecret db row
  let db ← writeBack db row secretId r
  let result ← readBinding session key db
  return (result, db)

/-- A call as a statement of its own: where it raises, nothing of it stays. -/
def call (statement : SecretDb → Except SqlError (Jsonb × SecretDb)) (db : SecretDb) : Except SqlError Jsonb × SecretDb :=
  match statement db with
  | .ok (result, db) => (.ok result, db)
  | .error e => (.error e, db)

/-- The row is the one of the binding. -/
def BindingRow.IsOf (row : BindingRow) (binding : CredentialBinding) : Prop :=
  row.providerId = binding.providerId ∧ row.accountId = binding.accountId ∧
    row.capabilities = binding.capabilities.map some

end SecretBackend

end Keirin

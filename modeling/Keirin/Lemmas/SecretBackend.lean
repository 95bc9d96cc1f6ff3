import Keirin.Lemmas.DurableStore
import Keirin.SecretBackend

/-!
# The two functions of the database

A payload is the document of a record, and the function that compares and swaps accepts it exactly where the row has the
expected version and is not revoked. What it writes keeps the constraints of the table, and the document that is read back is
the payload.
-/

namespace Keirin

/-! ## Payloads -/

theorem SecretState.text_mem_states (s : SecretState) : s.text ∈ SecretBackend.states := by cases s <;> decide

theorem FailureCode.text_mem_failures (f : FailureCode) : f.text ∈ SecretBackend.failures := by cases f <;> decide

theorem SecretState.text_eq_revoked {s : SecretState} : s.text = "revoked" ↔ s = .revoked := by cases s <;> decide

theorem SecretState.text_eq_refreshing {s : SecretState} : s.text = "refreshing" ↔ s = .refreshing := by cases s <;> decide

namespace SecretBackend

/-- A payload is an encoded record whose numbers the database can hold, and the document it was made from but for the order. -/
theorem strictRecord_ok {raw payload : Doc} {binding : CredentialBinding} (h : strictRecord raw binding = .ok payload) :
    ∃ r : RefreshSecretRecord, payload = encodeRecord r ∧ r.binding = binding ∧ r.version ≤ maxBigint ∧
      r.refreshGeneration ≤ maxBigint ∧ payload.sortKeys = raw.sortKeys := by
  unfold strictRecord at h
  obtain ⟨fields, hfields, h⟩ := bind_ok.1 h
  obtain ⟨-, h⟩ := raiseIf_bind_ok.1 h
  obtain ⟨hnumbers, h⟩ := raiseIf_bind_ok.1 h
  obtain ⟨-, h⟩ := raiseIf_bind_ok.1 h
  obtain ⟨-, h⟩ := raiseIf_bind_ok.1 h
  obtain ⟨r, hr, h⟩ := bind_ok.1 h
  obtain ⟨hsame, h⟩ := raiseIf_bind_ok.1 h
  obtain ⟨hbinding, hversion, hgeneration⟩ := decodeRecord_ok hr
  have hpayload : payload = encodeRecord r := by
    injection h with h
    exact h.symm
  cases raw with
  | obj fs =>
    cases hfields
    rw [Bool.not_eq_false, List.all_eq_true] at hnumbers
    have hbound : ∀ key n, key ∈ ["version", "refresh_generation"] → Json.get? (.obj fields) key = some (.num (.int n)) →
        n ≤ maxBigint := by
      intro key n hkey hn
      have hget : Dict.getD fields key .null = .num (.int n) := by
        rw [Json.get?] at hn
        rw [Dict.getD, hn]
        rfl
      have hint : isBigint (Dict.getD fields key .null) = true := hnumbers key hkey
      rw [hget, isBigint, Bool.and_eq_true, decide_eq_true_eq, decide_eq_true_eq] at hint
      exact hint.2
    have hversion := hbound "version" r.version (List.mem_cons_self ..) hversion
    have hgeneration := hbound "refresh_generation" r.refreshGeneration (by simp) hgeneration
    exact ⟨r, hpayload, hbinding, hversion, hgeneration, hpayload ▸ not_not.1 hsame⟩
  | _ => cases hfields

/-- The fields of the document of a record. -/
def recordDocument (r : RefreshSecretRecord) : Dict Jsonb :=
  [("schema_version", .str SECRET_RECORD_SCHEMA_VERSION),
    ("provider_id", .str r.binding.providerId),
    ("account_id", .str r.binding.accountId),
    ("capabilities", .arr (r.binding.capabilities.map .str)),
    ("version", .num (Numeric.ofInt r.version)),
    ("state", .str r.state.text),
    ("refresh_secret", nullable r.refreshSecret),
    ("refresh_generation", .num (Numeric.ofInt r.refreshGeneration)),
    ("active_attempt_id", nullable r.activeAttemptId),
    ("last_attempt_id", nullable r.lastAttemptId),
    ("failure", nullable (r.failure.map FailureCode.text))]

theorem recordDocument_keys (r : RefreshSecretRecord) : ((recordDocument r).map Prod.fst).Nodup := by
  change recordFields.Nodup
  decide

theorem bindNum_ofOption (f : Scalar → Jsonb) (o : Option String) : (Doc.ofOption o).bindNum f = nullable o := by
  cases o <;> rfl

theorem bindNumList_texts (f : Scalar → Jsonb) (texts : List String) :
    Json.bindNumList f (texts.map .str) = texts.map .str := by
  induction texts with
  | nil => rfl
  | cons t texts ih => simp [Json.bindNumList, Json.bindNum, ih]

/-- The stored form of a record that is sent. -/
theorem jsonb_encodeRecord {r : RefreshSecretRecord} {p : Jsonb} (h : (encodeRecord r).jsonb = some p) :
    p = Jsonb.ofJson (.obj (recordDocument r)) := by
  unfold Doc.jsonb at h
  split at h
  · rw [← Option.some.inj h]
    simp only [encodeRecord, recordDocument, Json.bindNum, Json.bindNumFields, bindNum_ofOption, bindNumList_texts, Scalar.numeric]
  · nomatch h

@[simp] theorem ofJson_nullable (o : Option String) : Jsonb.ofJson (nullable o) = nullable o := by
  cases o <;> rfl

@[simp] theorem ofJson_texts (texts : List String) : Jsonb.ofJson (.arr (texts.map .str)) = .arr (texts.map .str) := by
  rw [Jsonb.ofJson, Jsonb.ofList_eq, List.map_map]
  rfl

section Fields

variable (r : RefreshSecretRecord)

/-- A field of the stored form of a record. -/
theorem get?_record (key : String) :
    (Jsonb.ofJson (.obj (recordDocument r))).get? key = (Dict.get? key (recordDocument r)).map Jsonb.ofJson :=
  Jsonb.get?_ofJson_obj (recordDocument_keys r) key

theorem fieldType_nullable {p : Jsonb} {key : String} {o : Option String} (h : p.get? key = some (nullable o)) :
    fieldType p key = some (if o = none then "null" else "string") := by
  rw [fieldType, h]
  cases o <;> rfl

theorem getText_nullable {p : Jsonb} {key : String} {o : Option String} (h : p.get? key = some (nullable o)) :
    p.getText key = o := by
  unfold Jsonb.getText
  rw [h]
  cases o <;> rfl

theorem getText_str {p : Jsonb} {key s : String} (h : p.get? key = some (.str s)) : p.getText key = some s :=
  getText_nullable (o := some s) h

/-- What `cas_binding` finds in the stored form of a record. -/
structure Finds (p : Jsonb) (r : RefreshSecretRecord) : Prop where
  schema : p.get? "schema_version" = some (.str SECRET_RECORD_SCHEMA_VERSION)
  provider : p.get? "provider_id" = some (.str r.binding.providerId)
  account : p.get? "account_id" = some (.str r.binding.accountId)
  capabilities : p.get? "capabilities" = some (.arr (r.binding.capabilities.map .str))
  version : p.get? "version" = some (.num (Numeric.ofInt r.version))
  state : p.get? "state" = some (.str r.state.text)
  secret : p.get? "refresh_secret" = some (nullable r.refreshSecret)
  generation : p.get? "refresh_generation" = some (.num (Numeric.ofInt r.refreshGeneration))
  active : p.get? "active_attempt_id" = some (nullable r.activeAttemptId)
  last : p.get? "last_attempt_id" = some (nullable r.lastAttemptId)
  failure : p.get? "failure" = some (nullable (r.failure.map FailureCode.text))

theorem finds_record : Finds (Jsonb.ofJson (.obj (recordDocument r))) r := by
  constructor <;> rw [get?_record] <;>
    simp [recordDocument, Dict.get?, Jsonb.ofJson, Jsonb.ofList_eq]

/-- The stored form of a record has eleven fields. -/
theorem length_record {fields : Dict Jsonb} (h : Jsonb.ofJson (.obj (recordDocument r)) = .obj fields) : fields.length = 11 := by
  have hkeys : (((Jsonb.ofFields (recordDocument r)) ++ []).map Prod.fst).Nodup := by
    rw [List.append_nil, Jsonb.ofFields_eq, List.map_map]
    exact recordDocument_keys r
  rw [Jsonb.ofJson] at h
  rw [← Json.obj.inj h, (Jsonb.perm_foldl_put hkeys).length_eq, List.append_nil, Jsonb.ofFields_eq, List.length_map]
  rfl

end Fields

variable {p : Jsonb} {r : RefreshSecretRecord}

/-- The types of the fields of a record pass the check. -/
theorem checkShape_record (r : RefreshSecretRecord) :
    checkShape (some (Jsonb.ofJson (.obj (recordDocument r)))) = .ok (Jsonb.ofJson (.obj (recordDocument r))) := by
  have h := finds_record r
  have hlength := fun fields => @length_record r fields
  generalize Jsonb.ofJson (.obj (recordDocument r)) = p at h hlength
  rw [checkShape]
  refine if_pos ?_
  unfold wellTyped
  have htext : ∀ o : Option String, (if o = none then "null" else "string") = "string" ∨
      (if o = none then "null" else "string") = "null" := by
    intro o
    cases o <;> simp
  simp only [Bool.and_eq_true]
  refine ⟨⟨⟨⟨⟨?_, ?_⟩, ?_⟩, ?_⟩, ?_⟩, ?_⟩
  · cases p with
    | obj fields => exact decide_eq_true (hlength fields rfl)
    | _ => nomatch h.schema
  · simp [recordFields, h.schema, h.provider, h.account, h.capabilities, h.version, h.state, h.secret, h.generation, h.active,
      h.last, h.failure]
  · simp [fieldType, h.schema, h.provider, h.account, h.state]
  · simp [fieldType, h.capabilities]
  · simp [fieldType, h.version, h.generation]
  · simpa [fieldType_nullable h.secret, fieldType_nullable h.active, fieldType_nullable h.last, fieldType_nullable h.failure] using
      ⟨htext _, htext _, htext _, htext _⟩

/-- The values `cas_binding` takes from the stored form of a record. -/
def recordReplacement (r : RefreshSecretRecord) : Replacement :=
  { version := r.version
    generation := r.refreshGeneration
    state := r.state.text
    secret := r.refreshSecret
    activeAttempt := r.activeAttemptId
    lastAttempt := r.lastAttemptId
    failure := r.failure.map FailureCode.text }

theorem bigintField_ofInt {key : String} {n : Int} (h : p.get? key = some (.num (Numeric.ofInt n))) (hn : 0 ≤ n)
    (hmax : n ≤ maxBigint) : bigintField p key = .ok n := by
  unfold bigintField
  rw [h]
  refine if_pos ⟨rfl, ?_, hmax⟩
  have : (0 : Int) ≤ 2 ^ 63 := by positivity
  exact le_trans (by omega) hn

theorem Finds.replacementOf (h : Finds p r) (hv : r.version ≤ maxBigint) (hg : r.refreshGeneration ≤ maxBigint) :
    replacementOf p = .ok (recordReplacement r) := by
  unfold SecretBackend.replacementOf
  refine bind_ok.2 ⟨r.version, bigintField_ofInt h.version r.ok.version hv, ?_⟩
  refine bind_ok.2 ⟨r.refreshGeneration, bigintField_ofInt h.generation r.ok.generation hg, ?_⟩
  rw [getText_str h.state, getText_nullable h.secret, getText_nullable h.active, getText_nullable h.last,
    getText_nullable h.failure]
  rfl

/-- The values of a record fit the row of its binding. -/
theorem Finds.fits (h : Finds p r) {row : BindingRow} {expected : Int} (hrow : row.Checks) (hof : row.IsOf r.binding)
    (hversion : r.version = expected + 1) : ¬Unfit p row expected (recordReplacement r) := by
  obtain ⟨hprovider, haccount, hcapabilities⟩ := hof
  have hok := r.ok
  unfold Unfit
  rw [getText_str h.schema, getText_str h.provider, getText_str h.account, h.capabilities, fieldType_nullable h.secret,
    fieldType_nullable h.active]
  simp only [recordReplacement, not_or, not_not, not_and]
  refine ⟨by rw [hrow.schema], by rw [hprovider], by rw [haccount], ?_, hversion, by have := hok.generation; omega,
    r.state.text_mem_states, ?_, ?_, ?_, ?_, ?_, ?_⟩
  · rw [hcapabilities, List.map_map]
    rfl
  · intro hrevoked
    rw [hok.cleared (SecretState.text_eq_revoked.1 hrevoked)]
    rfl
  · intro hheld
    obtain ⟨secret, hsecret, hblank⟩ := hok.secret fun hs => hheld (SecretState.text_eq_revoked.2 hs)
    rw [hsecret]
    refine ⟨by simp, by simp, fun hempty => ?_⟩
    rw [Option.some.inj hempty] at hblank
    exact absurd hblank (by decide)
  · rw [SecretState.text_eq_refreshing]
    constructor
    · intro hs
      obtain ⟨a, ha, -⟩ := hok.active hs
      rw [ha]
      rfl
    · intro ha
      by_contra hs
      rw [hok.idle hs] at ha
      exact absurd ha (by decide)
  · by_cases hs : r.state = .refreshing
    · obtain ⟨a, ha, hid⟩ := hok.active hs
      simp [ha, hid]
    · simp [hok.idle hs]
  · cases hl : r.lastAttemptId with
    | none => simp
    | some a => simp [hok.last a hl]
  · cases hf : r.failure with
    | none => simp
    | some f => simp [f.text_mem_failures]

/-! ## Writing -/

namespace SecretDb

variable {db db' : SecretDb} {row new : BindingRow} {key : String}

/-- The rows with one of them replaced. -/
def put (rows : List BindingRow) (new : BindingRow) : List BindingRow :=
  rows.map fun r => if r.bindingKey = new.bindingKey then new else r

theorem map_bindingKey_put (rows : List BindingRow) (new : BindingRow) :
    (put rows new).map BindingRow.bindingKey = rows.map BindingRow.bindingKey := by
  rw [put, List.map_map]
  refine List.map_congr_left fun r _ => ?_
  by_cases h : r.bindingKey = new.bindingKey <;> simp [h]

/-- A row that keeps its secret or gives it up adds no identifier. -/
theorem filterMap_secretId_put (new : BindingRow) (rows : List BindingRow)
    (h : ∀ r ∈ rows, r.bindingKey = new.bindingKey → new.secretId = r.secretId ∨ new.secretId = none) :
    ((put rows new).filterMap BindingRow.secretId).Sublist (rows.filterMap BindingRow.secretId) := by
  induction rows with
  | nil => exact List.Sublist.refl _
  | cons r rows ih =>
    have ih := ih fun r' hr' => h r' (List.mem_cons_of_mem _ hr')
    have hr := h r (List.mem_cons_self ..)
    simp only [put, List.map_cons, List.filterMap_cons]
    by_cases hkey : r.bindingKey = new.bindingKey
    · rw [if_pos hkey]
      rcases hr hkey with hid | hid
      · rw [hid]
        cases r.secretId with
        | none => exact ih
        | some id => exact ih.cons_cons id
      · rw [hid]
        cases r.secretId with
        | none => exact ih
        | some id => exact ih.cons id
    · rw [if_neg hkey]
      cases r.secretId with
      | none => exact ih
      | some id => exact ih.cons_cons id

theorem row?_some (h : db.row? key = some row) : row ∈ db.bindings ∧ row.bindingKey = key :=
  ⟨List.mem_of_find?_eq_some h, by simpa using List.find?_some h⟩

/-- The primary key: a key has one row. -/
theorem row_unique (hdb : db.Constraints) {r : BindingRow} (hr : r ∈ db.bindings) (hkey : r.bindingKey = row.bindingKey)
    (hrow : row ∈ db.bindings) : r = row :=
  List.inj_on_of_nodup_map hdb.keyed hr hrow hkey

/-- An update that is not refused. -/
theorem update_ok (h : db.update new = .ok db') :
    new.Checks ∧ ((put db.bindings new).filterMap BindingRow.secretId).Nodup ∧ db' = { db with bindings := put db.bindings new } := by
  unfold update at h
  obtain ⟨hchecks, h⟩ := raiseIf_bind_ok.1 h
  obtain ⟨hunique, h⟩ := raiseIf_bind_ok.1 h
  exact ⟨not_not.1 hchecks, not_not.1 hunique, (Except.ok.inj h).symm⟩

/-- An update of a row that keeps its secret or gives it up, to values that satisfy the constraints on a row, is not refused. -/
theorem update_of_checks (hdb : db.Constraints) (hrow : row ∈ db.bindings) (hkey : new.bindingKey = row.bindingKey)
    (hid : new.secretId = row.secretId ∨ new.secretId = none) (hnew : new.Checks) :
    db.update new = .ok { db with bindings := put db.bindings new } := by
  have hsub := filterMap_secretId_put new db.bindings fun r hr hr' => by
    rw [row_unique hdb hr (hr'.trans hkey) hrow]
    exact hid
  unfold update
  exact raiseIf_bind_ok.2 ⟨not_not.2 hnew, raiseIf_bind_ok.2 ⟨not_not.2 (hdb.unique.sublist hsub), rfl⟩⟩

/-- An update that is not refused keeps the constraints. -/
theorem Constraints.update (hdb : db.Constraints) (h : db.update new = .ok db') : db'.Constraints := by
  obtain ⟨hchecks, hunique, rfl⟩ := update_ok h
  refine ⟨?_, ?_, hunique⟩
  · intro r hr
    obtain ⟨old, hold, rfl⟩ := List.mem_map.1 hr
    split
    · exact hchecks
    · exact hdb.rows old hold
  · rw [map_bindingKey_put]
    exact hdb.keyed

/-- The constraints do not depend on the vault. -/
theorem Constraints.vault (hdb : db.Constraints) (h : db'.bindings = db.bindings) : db'.Constraints := by
  obtain ⟨hrows, hkeyed, hunique⟩ := hdb
  rw [← h] at hrows hkeyed hunique
  exact ⟨hrows, hkeyed, hunique⟩

/-- The row that was put is found under its key. -/
theorem row?_put (new : BindingRow) (hrow : db.row? key = some row) (hkey : new.bindingKey = key) :
    ({ db with bindings := put db.bindings new } : SecretDb).row? key = some new := by
  obtain ⟨hmem, hrowkey⟩ := row?_some hrow
  have hsome : (({ db with bindings := put db.bindings new } : SecretDb).row? key).isSome := by
    rw [row?, List.find?_isSome]
    refine ⟨new, List.mem_map.2 ⟨row, hmem, if_pos (hrowkey.trans hkey.symm)⟩, ?_⟩
    simpa using hkey
  obtain ⟨found, hfound⟩ := Option.isSome_iff_exists.1 hsome
  obtain ⟨hmem', hkey'⟩ := row?_some hfound
  obtain ⟨old, -, hold⟩ := List.mem_map.1 hmem'
  have hfoundnew : found = new := by
    by_cases h : old.bindingKey = new.bindingKey
    · rw [if_pos h] at hold
      exact hold.symm
    · rw [if_neg h] at hold
      rw [← hold] at hkey'
      exact absurd (hkey'.trans hkey.symm) h
  rw [hfound, hfoundnew]

/-- The row of another key is found as before. -/
theorem row?_put_of_ne {other : String} (hkey : new.bindingKey ≠ other) :
    ({ db with bindings := put db.bindings new } : SecretDb).row? other = db.row? other := by
  change (put db.bindings new).find? _ = db.bindings.find? _
  rw [put]
  induction db.bindings with
  | nil => rfl
  | cons r rows ih =>
    rw [List.map_cons, List.find?_cons, List.find?_cons]
    by_cases h : r.bindingKey = new.bindingKey
    · have hr : ¬r.bindingKey = other := fun hr => hkey (h.symm.trans hr)
      simp only [if_pos h, hkey, hr, decide_false]
      exact ih
    · simp only [if_neg h]
      split
      · rfl
      · exact ih

end SecretDb

/-- The row that is written: a revoked row gives up its secret. -/
def written (row : BindingRow) (r : Replacement) : BindingRow :=
  if r.state = "revoked" then { row.replaced r with secretId := none } else row.replaced r

theorem written_key (row : BindingRow) (r : Replacement) : (written row r).bindingKey = row.bindingKey := by
  unfold written
  split <;> rfl

theorem written_secretId (row : BindingRow) (r : Replacement) :
    (written row r).secretId = row.secretId ∨ (written row r).secretId = none := by
  unfold written
  split
  · exact .inr rfl
  · exact .inl rfl

/-- The vault after a write. -/
def writtenVault (db : SecretDb) (secretId : Nat) (r : Replacement) : Nat → Option String := fun id =>
  if id = secretId then if r.state = "revoked" then none else (db.vault id).map r.secret.getD else db.vault id

section Write

variable {db db' : SecretDb} {row : BindingRow} {q : Replacement} {secretId : Nat} {expected : Int}

theorem bigintField_le {key : String} {n : Int} (h : bigintField p key = .ok n) : n ≤ maxBigint := by
  unfold bigintField at h
  split at h
  · split at h
    · rename_i hn
      rw [← Except.ok.inj h]
      exact hn.2.2
    · nomatch h
  · nomatch h

theorem replacementOf_ok (h : replacementOf p = .ok q) :
    q.generation ≤ maxBigint ∧ q.activeAttempt = p.getText "active_attempt_id" := by
  unfold replacementOf at h
  obtain ⟨version, -, h⟩ := bind_ok.1 h
  obtain ⟨generation, hgeneration, h⟩ := bind_ok.1 h
  injection h with h
  rw [← h]
  exact ⟨bigintField_le hgeneration, rfl⟩

theorem checkShape_ok {replacement : Option Jsonb} (h : checkShape replacement = .ok p) :
    replacement = some p ∧ wellTyped p = true := by
  unfold checkShape at h
  split at h
  · split at h
    · rename_i hp
      rw [← Except.ok.inj h]
      exact ⟨rfl, hp⟩
    · nomatch h
  · nomatch h

/-- In a document of the right types, the active attempt is a text or missing. -/
theorem active_of_wellTyped (h : wellTyped p = true) :
    fieldType p "active_attempt_id" = some "string" ↔ p.getText "active_attempt_id" ≠ none := by
  have htype : fieldType p "active_attempt_id" = some "string" ∨ fieldType p "active_attempt_id" = some "null" := by
    unfold wellTyped at h
    simp only [Bool.and_eq_true, List.all_eq_true] at h
    simpa using h.2 "active_attempt_id" (by simp)
  unfold fieldType at htype ⊢
  unfold Jsonb.getText
  cases hget : p.get? "active_attempt_id" with
  | none => simp
  | some v =>
    rw [hget] at htype
    cases v <;> simp_all

/-- The values that passed the checks of `cas_binding` satisfy the constraints on a row. -/
theorem checks_written (hrow : row.Checks) (hp : wellTyped p = true) (hq : replacementOf p = .ok q)
    (hfit : ¬Unfit p row expected q) (hversion : row.version = expected) (hlast : expected ≠ maxBigint)
    (hid : row.secretId ≠ none) : (written row q).Checks := by
  obtain ⟨hgeneration, hactive⟩ := replacementOf_ok hq
  unfold Unfit at hfit
  simp only [not_or, not_not, not_and, not_lt, Bool.not_eq_false] at hfit
  obtain ⟨-, -, -, -, hnext, hpos, hstate, -, -, hrefreshing, hactiveId, hlastId, hfailure⟩ := hfit
  have hcolumns : (written row q).version = q.version ∧ (written row q).state = q.state ∧
      (written row q).refreshGeneration = q.generation ∧ (written row q).activeAttemptId = q.activeAttempt ∧
      (written row q).lastAttemptId = q.lastAttempt ∧ (written row q).failure = q.failure ∧
      (written row q).bindingKey = row.bindingKey ∧ (written row q).schemaVersion = row.schemaVersion ∧
      (written row q).providerId = row.providerId ∧ (written row q).accountId = row.accountId ∧
      (written row q).capabilities = row.capabilities := by
    unfold written
    split <;> exact ⟨rfl, rfl, rfl, rfl, rfl, rfl, rfl, rfl, rfl, rfl, rfl⟩
  obtain ⟨hv, hs, hg, ha, hl, hf, hkey, hschema, hprovider, haccount, hcapabilities⟩ := hcolumns
  have hrange := hrow.version
  constructor
  · rw [hkey]
    exact hrow.key
  · rw [hschema]
    exact hrow.schema
  · rw [hprovider]
    exact hrow.provider
  · rw [haccount]
    exact hrow.account
  · rw [hcapabilities]
    exact hrow.capabilities
  · rw [hv, hnext, ← hversion]
    rw [← hversion] at hlast
    exact ⟨by omega, by omega⟩
  · rw [hs]
    exact hstate
  · rw [hg]
    exact ⟨hpos, hgeneration⟩
  · rw [ha]
    exact hactiveId
  · rw [hl]
    exact hlastId
  · rw [hf]
    exact hfailure
  · rw [hs]
    unfold written
    split
    · rename_i hrevoked
      exact iff_of_true hrevoked rfl
    · rename_i hrevoked
      exact iff_of_false hrevoked hid
  · rw [hs, ha, hrefreshing, hactive]
    exact active_of_wellTyped hp

/-- The write of values that satisfy the constraints on a row is carried out. -/
theorem writeBack_of_checks (hdb : db.Constraints) (hrow : row ∈ db.bindings) (hsecret : db.vault secretId ≠ none)
    (hchecks : (written row q).Checks) :
    writeBack db row secretId q =
      .ok { db with bindings := SecretDb.put db.bindings (written row q), vault := writtenVault db secretId q } := by
  have hkey := written_key row q
  have hid := written_secretId row q
  unfold writeBack
  by_cases hrevoked : q.state = "revoked"
  · rw [if_pos hrevoked]
    have hw : written row q = { row.replaced q with secretId := none } := if_pos hrevoked
    rw [hw] at hkey hid hchecks ⊢
    rw [SecretDb.update_of_checks hdb hrow hkey hid hchecks]
    have hvault : writtenVault db secretId q = fun id => if id = secretId then none else db.vault id := by
      funext id
      rw [writtenVault, if_pos hrevoked]
    rw [hvault]
    exact raiseIf_bind_ok.2 ⟨hsecret, rfl⟩
  · rw [if_neg hrevoked]
    have hw : written row q = row.replaced q := if_neg hrevoked
    rw [hw] at hkey hid hchecks ⊢
    have hdb' : (db.updateSecret secretId q.secret).Constraints := hdb.vault rfl
    rw [SecretDb.update_of_checks hdb' hrow hkey hid hchecks]
    have hvault : writtenVault db secretId q = (db.updateSecret secretId q.secret).vault := by
      funext id
      rw [writtenVault, if_neg hrevoked]
      rfl
    rw [hvault]
    rfl

/-- A write keeps the constraints. -/
theorem constraints_writeBack (hdb : db.Constraints) (h : writeBack db row secretId q = .ok db') : db'.Constraints := by
  unfold writeBack at h
  split at h
  · obtain ⟨db₁, h₁, h⟩ := bind_ok.1 h
    unfold SecretDb.deleteSecret at h
    obtain ⟨-, h⟩ := raiseIf_bind_ok.1 h
    rw [← Except.ok.inj h]
    exact (hdb.update h₁).vault rfl
  · have hdb' : (db.updateSecret secretId q.secret).Constraints := hdb.vault rfl
    exact hdb'.update h

theorem state_written (row : BindingRow) (q : Replacement) : (written row q).state = q.state := by
  unfold written
  split <;> rfl

/-- The row that the values of a record were written to is joined with the secret of the record. -/
theorem joined_written (hid : row.secretId = some secretId) (hsecret : db.vault secretId ≠ none) :
    (written row (recordReplacement r)).secretId.bind (writtenVault db secretId (recordReplacement r)) = r.refreshSecret := by
  obtain ⟨old, hold⟩ := Option.ne_none_iff_exists'.1 hsecret
  by_cases hrevoked : (recordReplacement r).state = "revoked"
  · rw [written, if_pos hrevoked, r.ok.cleared (SecretState.text_eq_revoked.1 hrevoked)]
    rfl
  · obtain ⟨secret, hs, -⟩ := r.ok.secret fun h => hrevoked (SecretState.text_eq_revoked.2 h)
    rw [written, if_neg hrevoked]
    change row.secretId.bind _ = _
    rw [hid, Option.bind_some, writtenVault, if_pos rfl, if_neg hrevoked, hold, hs]
    simp [recordReplacement, hs]

/-- Its document is that of the record. -/
theorem document_written (hrow : row.Checks) (hof : row.IsOf r.binding) (hid : row.secretId = some secretId)
    (hsecret : db.vault secretId ≠ none) :
    (written row (recordReplacement r)).document (writtenVault db secretId (recordReplacement r)) =
      Jsonb.ofJson (.obj (recordDocument r)) := by
  obtain ⟨hprovider, haccount, hcapabilities⟩ := hof
  have htexts : row.capabilities.map nullable = r.binding.capabilities.map .str := by
    rw [hcapabilities, List.map_map]
    rfl
  unfold BindingRow.document
  rw [joined_written hid hsecret]
  unfold written
  split <;> simp only [BindingRow.replaced, htexts, hrow.schema, hprovider, haccount, recordDocument, recordReplacement]

end Write

/-! ## Calls -/

section Call

variable {db db' : SecretDb} {session : Session} {key : String} {expected : Option Int} {replacement : Option Jsonb}
  {row : BindingRow} {result : Jsonb}

/-- The row of a call, where there is one at the expected version. -/
theorem currentRow_ok {e : Int} (h : currentRow db key expected = .ok (row, e)) :
    db.row? key = some row ∧ expected = some e ∧ row.version = e := by
  unfold currentRow at h
  cases hrow : db.row? key with
  | none => simp [hrow] at h
  | some found =>
    cases expected with
    | none => simp [hrow] at h
    | some e' =>
      simp only [hrow] at h
      split at h
      · nomatch h
      · rename_i hversion
        obtain ⟨rfl, rfl⟩ := Prod.mk.inj (Except.ok.inj h)
        refine ⟨rfl, rfl, ?_⟩
        by_contra hne
        exact hversion (.inr hne)

/-- An accepted call: the row had the expected version and was not revoked, and the result is what is read afterwards. -/
theorem casBinding_ok (h : casBinding session key expected replacement db = .ok (result, db')) :
    ∃ row secretId q, db.row? key = some row ∧ expected = some row.version ∧ row.state ≠ "revoked" ∧
      row.secretId = some secretId ∧ writeBack db row secretId q = .ok db' ∧ readBinding session key db' = .ok result := by
  unfold casBinding at h
  obtain ⟨-, h⟩ := raiseIf_bind_ok.1 h
  obtain ⟨⟨row, e⟩, hcurrent, h⟩ := bind_ok.1 h
  obtain ⟨hstate, h⟩ := raiseIf_bind_ok.1 h
  obtain ⟨p, -, h⟩ := bind_ok.1 h
  obtain ⟨q, -, h⟩ := bind_ok.1 h
  obtain ⟨-, h⟩ := raiseIf_bind_ok.1 h
  obtain ⟨secretId, hheld, h⟩ := bind_ok.1 h
  obtain ⟨db₁, hwrite, h⟩ := bind_ok.1 h
  obtain ⟨read, hread, h⟩ := bind_ok.1 h
  obtain ⟨rfl, rfl⟩ := Prod.mk.inj (Except.ok.inj h)
  obtain ⟨hrow, hexpected, hversion⟩ := currentRow_ok hcurrent
  refine ⟨row, secretId, q, hrow, by rw [hexpected, hversion], fun hs => hstate (.inl hs), ?_, hwrite, hread⟩
  unfold heldSecret at hheld
  cases hid : row.secretId with
  | none => simp [hid] at hheld
  | some id =>
    simp only [hid] at hheld
    split at hheld
    · nomatch hheld
    · rw [Except.ok.inj hheld]

/-- The document of a row that is not revoked has the secret of the row. -/
theorem readBinding_row (hbound : session.Bound db key) (hrow : db.row? key = some row)
    (hsecret : row.state ≠ "revoked" → row.secretId.bind db.vault ≠ none) :
    readBinding session key db = .ok (row.document db.vault) := by
  have hkeys : (recordFields).Nodup := by decide
  have hget := fun field => @Jsonb.get?_ofJson_obj [("schema_version", Json.str row.schemaVersion), ("provider_id", .str row.providerId), ("account_id", .str row.accountId),
      ("capabilities", .arr (row.capabilities.map nullable)), ("version", .num (Numeric.ofInt row.version)),
      ("state", .str row.state), ("refresh_secret", nullable (row.secretId.bind db.vault)),
      ("refresh_generation", .num (Numeric.ofInt row.refreshGeneration)), ("active_attempt_id", nullable row.activeAttemptId),
      ("last_attempt_id", nullable row.lastAttemptId), ("failure", nullable row.failure)] hkeys field
  have hstate : (row.document db.vault).get? "state" = some (.str row.state) := hget "state"
  have hjoined : (row.document db.vault).get? "refresh_secret" = some (nullable (row.secretId.bind db.vault)) := by
    rw [← ofJson_nullable]
    exact hget "refresh_secret"
  unfold readBinding
  refine raiseIf_bind_ok.2 ⟨not_not.2 hbound, ?_⟩
  rw [hrow]
  refine raiseIf_bind_ok.2 ⟨?_, rfl⟩
  rw [getText_str hstate, fieldType_nullable hjoined]
  rintro ⟨hs, htype⟩
  have hne := hsecret fun h => hs (congrArg some h)
  rw [if_neg hne] at htype
  exact htype rfl

/-- A call with the stored form of a record of the binding is accepted where the row has the expected version and is not
revoked. -/
theorem casBinding_record {r : RefreshSecretRecord} (hdb : db.Constraints) (hbound : session.Bound db key)
    (hrow : db.row? key = some row) (hstored : ∀ id, row.secretId = some id → db.vault id ≠ none) (hof : row.IsOf r.binding)
    (hv : r.version ≤ maxBigint) (hg : r.refreshGeneration ≤ maxBigint) (hversion : r.version = row.version + 1)
    (hstate : row.state ≠ "revoked") :
    ∃ db', casBinding session key (some row.version) (some (Jsonb.ofJson (.obj (recordDocument r)))) db =
      .ok (Jsonb.ofJson (.obj (recordDocument r)), db') := by
  obtain ⟨hmem, hkey⟩ := SecretDb.row?_some hrow
  have hchecks := hdb.rows row hmem
  have hfinds := finds_record r
  have hshape := checkShape_record r
  have hvalues := hfinds.replacementOf hv hg
  have hfits := hfinds.fits hchecks hof hversion
  obtain ⟨secretId, hid⟩ := Option.ne_none_iff_exists'.1 (mt hchecks.revoked.2 hstate)
  have hsecret := hstored secretId hid
  have hlast : row.version ≠ maxBigint := by omega
  have hwritten := checks_written hchecks (checkShape_ok hshape).2 hvalues hfits rfl hlast (by rw [hid]; simp)
  have hput := SecretDb.row?_put (written row (recordReplacement r)) hrow ((written_key row _).trans hkey)
  refine ⟨{ db with
      bindings := SecretDb.put db.bindings (written row (recordReplacement r))
      vault := writtenVault db secretId (recordReplacement r) }, ?_⟩
  unfold casBinding
  refine raiseIf_bind_ok.2 ⟨not_not.2 hbound, ?_⟩
  refine bind_ok.2 ⟨(row, row.version), ?_, ?_⟩
  · unfold currentRow
    rw [hrow]
    exact if_neg (not_or.2 ⟨not_lt.2 hchecks.version.1, not_not.2 rfl⟩)
  · refine raiseIf_bind_ok.2 ⟨not_or.2 ⟨hstate, hlast⟩, ?_⟩
    refine bind_ok.2 ⟨_, hshape, ?_⟩
    refine bind_ok.2 ⟨_, hvalues, ?_⟩
    refine raiseIf_bind_ok.2 ⟨hfits, ?_⟩
    refine bind_ok.2 ⟨secretId, ?_, ?_⟩
    · unfold heldSecret
      rw [hid]
      exact if_neg hsecret
    · refine bind_ok.2 ⟨_, writeBack_of_checks hdb hmem hsecret hwritten, ?_⟩
      refine bind_ok.2 ⟨_, ?_, rfl⟩
      rw [← document_written hchecks hof hid hsecret]
      refine readBinding_row hbound hput fun hrevoked => ?_
      rw [state_written] at hrevoked
      obtain ⟨secret, hs, -⟩ := r.ok.secret fun h => hrevoked (SecretState.text_eq_revoked.2 h)
      change (written row (recordReplacement r)).secretId.bind (writtenVault db secretId (recordReplacement r)) ≠ none
      rw [joined_written hid hsecret, hs]
      nofun

/-- Every call keeps the constraints. -/
theorem constraints_call (hdb : db.Constraints) (session : Session) (key : String) (expected : Option Int)
    (replacement : Option Jsonb) : (call (casBinding session key expected replacement) db).2.Constraints := by
  unfold call
  cases h : casBinding session key expected replacement db with
  | error e => exact hdb
  | ok after =>
    obtain ⟨row, secretId, q, -, -, -, -, hwrite, -⟩ := casBinding_ok h
    exact constraints_writeBack hdb hwrite

/-- What a write leaves as it was: the rows of the other keys and the other secrets. -/
theorem writeBack_frame {secretId : Nat} {q : Replacement} (h : writeBack db row secretId q = .ok db') :
    (∀ other, other ≠ row.bindingKey → db'.row? other = db.row? other) ∧
      (∀ id, id ≠ secretId → db'.vault id = db.vault id) ∧ db'.hostBindings = db.hostBindings := by
  unfold writeBack at h
  split at h
  · obtain ⟨db₁, h₁, h⟩ := bind_ok.1 h
    obtain ⟨-, -, rfl⟩ := SecretDb.update_ok h₁
    unfold SecretDb.deleteSecret at h
    obtain ⟨-, h⟩ := raiseIf_bind_ok.1 h
    injection h with h
    subst h
    exact ⟨fun other hother => SecretDb.row?_put_of_ne (Ne.symm hother), fun id hid => if_neg hid, rfl⟩
  · obtain ⟨-, -, rfl⟩ := SecretDb.update_ok h
    exact ⟨fun other hother => SecretDb.row?_put_of_ne (Ne.symm hother), fun id hid => if_neg hid, rfl⟩

/-- Two rows do not share a secret. -/
theorem secretId_ne {other : BindingRow} {id : Nat} (hdb : db.Constraints) (hrow : row ∈ db.bindings)
    (hother : other ∈ db.bindings) (hne : other ≠ row) (hid : row.secretId = some id) : other.secretId ≠ some id := by
  have hunique := hdb.unique
  clear hdb
  generalize db.bindings = rows at hrow hother hunique
  induction rows with
  | nil => nomatch hrow
  | cons r rows ih =>
    intro hotherId
    have hmem : ∀ r' ∈ rows, r'.secretId = some id → id ∈ rows.filterMap BindingRow.secretId :=
      fun r' hr' h => List.mem_filterMap.2 ⟨r', hr', h⟩
    rw [List.filterMap_cons] at hunique
    rcases List.mem_cons.1 hrow with rfl | hrow'
    · rcases List.mem_cons.1 hother with rfl | hother'
      · exact hne rfl
      · rw [hid] at hunique
        exact (List.nodup_cons.1 hunique).1 (hmem other hother' hotherId)
    · rcases List.mem_cons.1 hother with rfl | hother'
      · rw [hotherId] at hunique
        exact (List.nodup_cons.1 hunique).1 (hmem row hrow' hid)
      · refine ih hrow' hother' ?_ hotherId
        split at hunique
        · exact hunique
        · exact (List.nodup_cons.1 hunique).2

end Call

end SecretBackend

end Keirin

import Keirin.DurableStore
import Keirin.Lib.JsonSort
import Keirin.Lemmas.SecretStore

/-!
# The adapter and its rows

A record survives its encoding, and a row that is decoded holds the version that the backend compares. So a source over the
adapter reads and replaces the record of its binding as over a store of records.
-/

namespace Keirin

/-! ## Records -/

/-- A record may be built from fields that are in order. -/
theorem RefreshSecretRecord.exists_ofFields {fields : SecretFields} (h : fields.Ok) :
    ∃ r : RefreshSecretRecord, RefreshSecretRecord.ofFields fields = .ok r ∧ r.toSecretFields = fields := by
  have hv := SecretFields.validate_ok.2 h
  refine ⟨{ fields with valid := hv }, ?_, rfl⟩
  unfold RefreshSecretRecord.ofFields
  split
  · rfl
  · rename_i e he
    rw [hv] at he
    nomatch he

/-- A record is built again from its fields. -/
theorem RefreshSecretRecord.ofFields_self (r : RefreshSecretRecord) : RefreshSecretRecord.ofFields r.toSecretFields = .ok r := by
  obtain ⟨r', hr', hfields⟩ := RefreshSecretRecord.exists_ofFields r.ok
  rw [hr']
  cases r
  cases r'
  cases hfields
  rfl

/-- A binding is built again from its fields. -/
theorem CredentialBinding.ofFields_self (b : CredentialBinding) :
    CredentialBinding.ofFields b.providerId b.accountId (.arr (b.capabilities.map .str)) = .ok b := by
  have hp := b.provider
  have ha := b.account
  have hc := b.canonical
  unfold CredentialBinding.ofFields
  split
  · rename_i capabilities _ _ hc'
    rw [hc] at hc'
    cases hc'
    rfl
  · rename_i he
    rw [hp] at he
    nomatch he
  · rename_i he _
    rw [ha] at he
    nomatch he
  · rename_i he _ _
    rw [hc] at he
    nomatch he

/-! ## Rows -/

theorem SecretState.ofText_text (s : SecretState) : SecretState.ofText s.text = .ok s := by cases s <;> rfl

theorem FailureCode.ofText_text (f : Option FailureCode) : FailureCode.ofText (f.map FailureCode.text) = .ok f := by
  cases f with
  | none => rfl
  | some f => cases f <;> rfl

theorem asOptionalText_ofOption (error : String) (o : Option String) : asOptionalText error (Doc.ofOption o) = .ok o := by
  cases o <;> rfl

theorem nonnegativeInt_ok {error : String} {v : Doc} {n : Int} : nonnegativeInt error v = .ok n ↔ v = .num (.int n) ∧ 0 ≤ n := by
  unfold nonnegativeInt
  split
  · split
    · constructor
      · intro h
        nomatch h
      · rintro ⟨h, hn⟩
        cases h
        omega
    · constructor
      · intro h
        cases h
        exact ⟨rfl, by omega⟩
      · rintro ⟨h, -⟩
        cases h
        rfl
  · rename_i hv
    constructor
    · intro h
      nomatch h
    · rintro ⟨rfl, -⟩
      exact absurd rfl (hv n)

/-- A record survives its encoding. -/
theorem decodeRecord_encodeRecord (r : RefreshSecretRecord) : decodeRecord (encodeRecord r) r.binding = .ok r := by
  have hok := r.ok
  have hlist : isTextList (.arr (r.binding.capabilities.map .str)) = true := by simp [isTextList]
  unfold decodeRecord encodeRecord
  refine bind_ok.2 ⟨_, rfl, ?_⟩
  refine raiseIf_bind_ok.2 ⟨not_not.2 rfl, ?_⟩
  refine bind_ok.2 ⟨r.binding.providerId, rfl, ?_⟩
  refine bind_ok.2 ⟨r.binding.accountId, rfl, ?_⟩
  refine raiseIf_bind_ok.2 ⟨Bool.not_eq_false _ ▸ hlist, ?_⟩
  refine bind_ok.2 ⟨r.binding, r.binding.ofFields_self, ?_⟩
  refine raiseIf_bind_ok.2 ⟨not_not.2 rfl, ?_⟩
  refine bind_ok.2 ⟨r.version, nonnegativeInt_ok.2 ⟨rfl, hok.version⟩, ?_⟩
  refine bind_ok.2 ⟨r.refreshGeneration, nonnegativeInt_ok.2 ⟨rfl, hok.generation⟩, ?_⟩
  refine bind_ok.2 ⟨r.state.text, rfl, ?_⟩
  refine bind_ok.2 ⟨r.refreshSecret, asOptionalText_ofOption _ _, ?_⟩
  refine bind_ok.2 ⟨r.activeAttemptId, asOptionalText_ofOption _ _, ?_⟩
  refine bind_ok.2 ⟨r.lastAttemptId, asOptionalText_ofOption _ _, ?_⟩
  refine bind_ok.2 ⟨r.failure.map FailureCode.text, asOptionalText_ofOption _ _, ?_⟩
  refine bind_ok.2 ⟨r.state, SecretState.ofText_text _, ?_⟩
  refine bind_ok.2 ⟨r.failure, FailureCode.ofText_text _, ?_⟩
  exact r.ofFields_self

/-- A value that was found where null stands for no value. -/
theorem get?_of_getD {fields : Dict Doc} {key : String} {n : Scalar} (h : Dict.getD fields key .null = .num n) :
    Json.get? (.obj fields) key = some (.num n) := by
  cases hfield : Dict.get? key fields with
  | none => simp [Dict.getD, hfield] at h
  | some v =>
    simp only [Dict.getD, hfield, Option.getD_some] at h
    simp [Json.get?, hfield, h]

/-- A row that is decoded is one of the binding, and holds the version and the generation of the record. -/
theorem decodeRecord_ok {raw : Doc} {b : CredentialBinding} {r : RefreshSecretRecord} (h : decodeRecord raw b = .ok r) :
    r.binding = b ∧ raw.get? "version" = some (.num (.int r.version)) ∧
      raw.get? "refresh_generation" = some (.num (.int r.refreshGeneration)) := by
  unfold decodeRecord at h
  obtain ⟨fields, hfields, h⟩ := bind_ok.1 h
  obtain ⟨-, h⟩ := raiseIf_bind_ok.1 h
  obtain ⟨providerId, -, h⟩ := bind_ok.1 h
  obtain ⟨accountId, -, h⟩ := bind_ok.1 h
  obtain ⟨-, h⟩ := raiseIf_bind_ok.1 h
  obtain ⟨binding, -, h⟩ := bind_ok.1 h
  obtain ⟨hbinding, h⟩ := raiseIf_bind_ok.1 h
  obtain ⟨version, hversion, h⟩ := bind_ok.1 h
  obtain ⟨generation, hgeneration, h⟩ := bind_ok.1 h
  obtain ⟨stateText, -, h⟩ := bind_ok.1 h
  obtain ⟨refreshSecret, -, h⟩ := bind_ok.1 h
  obtain ⟨activeAttemptId, -, h⟩ := bind_ok.1 h
  obtain ⟨lastAttemptId, -, h⟩ := bind_ok.1 h
  obtain ⟨failureText, -, h⟩ := bind_ok.1 h
  obtain ⟨state, -, h⟩ := bind_ok.1 h
  obtain ⟨failure, -, h⟩ := bind_ok.1 h
  have hr := RefreshSecretRecord.ofFields_ok h
  have hv : r.version = version := congrArg SecretFields.version hr
  have hg : r.refreshGeneration = generation := congrArg SecretFields.refreshGeneration hr
  cases raw with
  | obj fs =>
    cases hfields
    refine ⟨?_, ?_, ?_⟩
    · rw [← not_not.1 hbinding]
      exact congrArg SecretFields.binding hr
    · rw [hv]
      exact get?_of_getD (nonnegativeInt_ok.1 hversion).1
    · rw [hg]
      exact get?_of_getD (nonnegativeInt_ok.1 hgeneration).1
  | _ => nomatch hfields

theorem SecretState.text_inj {s t : SecretState} (h : s.text = t.text) : s = t := by
  have hs := SecretState.ofText_text s
  rw [h, SecretState.ofText_text t] at hs
  exact (Except.ok.inj hs).symm

theorem FailureCode.text_inj {f g : Option FailureCode} (h : f.map FailureCode.text = g.map FailureCode.text) : f = g := by
  have hf := FailureCode.ofText_text f
  rw [h, FailureCode.ofText_text g] at hf
  exact (Except.ok.inj hf).symm

theorem sortKeys_ofOption (o : Option String) : (Doc.ofOption o).sortKeys = Doc.ofOption o := by cases o <;> rfl

theorem sortKeys_texts (texts : List String) :
    (Json.arr (texts.map Json.str) : Doc).sortKeys = .arr (texts.map .str) := by
  rw [Json.sortKeys, Json.sortKeysList_eq, List.map_map]
  rfl

theorem ofOption_inj {a b : Option String} (h : Doc.ofOption a = Doc.ofOption b) : a = b := by
  cases a <;> cases b <;> simp_all [Doc.ofOption]

/-- The fields of two rows that are the same but for their order. -/
theorem encodeRecord_field {a b : RefreshSecretRecord} (h : (encodeRecord a).sortKeys = (encodeRecord b).sortKeys)
    (key : String) {v w : Doc} (ha : (encodeRecord a).get? key = some v) (hb : (encodeRecord b).get? key = some w) :
    v.sortKeys = w.sortKeys := by
  have hsorted : ∀ (r : RefreshSecretRecord) {u : Doc}, (encodeRecord r).get? key = some u →
      (encodeRecord r).sortKeys.get? key = some u.sortKeys := by
    intro r u hu
    have hkeys : ["schema_version", "provider_id", "account_id", "capabilities", "version", "state", "refresh_secret",
        "refresh_generation", "active_attempt_id", "last_attempt_id", "failure"].Nodup := by decide
    unfold encodeRecord at hu ⊢
    refine (Json.get?_sortKeys ?_ key).trans (congrArg (Option.map Json.sortKeys) hu)
    exact hkeys
  have hsame := hsorted a ha
  rw [h, hsorted b hb] at hsame
  exact (Option.some.inj hsame).symm

/-- The row of a record determines it, whatever the order of its fields. -/
theorem encodeRecord_inj {a b : RefreshSecretRecord} (h : (encodeRecord a).sortKeys = (encodeRecord b).sortKeys) : a = b := by
  have hproviderId := Json.str.inj (encodeRecord_field h "provider_id" rfl rfl)
  have haccountId := Json.str.inj (encodeRecord_field h "account_id" rfl rfl)
  have htexts := encodeRecord_field h "capabilities" rfl rfl
  have hversion := Scalar.int.inj (Json.num.inj (encodeRecord_field h "version" rfl rfl))
  have hstate := SecretState.text_inj (Json.str.inj (encodeRecord_field h "state" rfl rfl))
  have hsecretField := encodeRecord_field h "refresh_secret" rfl rfl
  have hgeneration := Scalar.int.inj (Json.num.inj (encodeRecord_field h "refresh_generation" rfl rfl))
  have hactiveField := encodeRecord_field h "active_attempt_id" rfl rfl
  have hlastField := encodeRecord_field h "last_attempt_id" rfl rfl
  have hfailureField := encodeRecord_field h "failure" rfl rfl
  rw [sortKeys_texts, sortKeys_texts] at htexts
  have hcapabilities : a.binding.capabilities = b.binding.capabilities :=
    List.map_injective_iff.2 (fun _ _ => Json.str.inj) (Json.arr.inj htexts)
  simp only [sortKeys_ofOption] at hsecretField hactiveField hlastField hfailureField
  have hsecret := ofOption_inj hsecretField
  have hactive := ofOption_inj hactiveField
  have hlast := ofOption_inj hlastField
  have hfailure := FailureCode.text_inj (ofOption_inj hfailureField)
  clear h htexts hsecretField hactiveField hlastField hfailureField
  obtain ⟨⟨⟨pa, aa, ca, _, _, _⟩, va, sa, ra, ga, ta, la, fa⟩, _⟩ := a
  obtain ⟨⟨⟨pb, ab, cb, _, _, _⟩, vb, sb, rb, gb, tb, lb, fb⟩, _⟩ := b
  simp only at hproviderId haccountId hcapabilities hversion hstate hsecret hgeneration hactive hlast hfailure
  subst hproviderId haccountId hcapabilities hversion hstate hsecret hgeneration hactive hlast hfailure
  rfl

/-! ## Commands over the adapter -/

/-- The backend holds the record of a binding. -/
def BackendWorld.Holds (w : BackendWorld) (b : CredentialBinding) (r : RefreshSecretRecord) : Prop :=
  ∃ raw, w.rows (bindingKey b) = some raw ∧ decodeRecord raw b = .ok r

/-- A binding has one record. -/
theorem BackendWorld.Holds.unique {w : BackendWorld} {b : CredentialBinding} {r r' : RefreshSecretRecord} (h : w.Holds b r)
    (h' : w.Holds b r') : r = r' := by
  obtain ⟨raw, hraw, hr⟩ := h
  obtain ⟨raw', hraw', hr'⟩ := h'
  rw [hraw] at hraw'
  cases hraw'
  rw [hr] at hr'
  exact Except.ok.inj hr'

theorem BackendWorld.Holds.binding {w : BackendWorld} {b : CredentialBinding} {r : RefreshSecretRecord} (h : w.Holds b r) :
    r.binding = b := by
  obtain ⟨raw, -, hr⟩ := h
  exact (decodeRecord_ok hr).1

namespace RefreshRun

variable (run : RefreshRun) {α β : Type} {w : BackendWorld}

@[simp] theorem exec_ret (a : α) (w : BackendWorld) : run.exec (.ret a) w = (.ok a, w) := rfl

@[simp] theorem exec_raise (e : SecretError) (w : BackendWorld) :
    run.exec (.raise e : SecretProg α) w = (.error e, w) := rfl

/-- A sequence whose first part returns. -/
theorem exec_bind_ok {p : SecretProg α} {a : α} {t : BackendWorld} (h : run.exec p w = (.ok a, t)) (f : α → SecretProg β) :
    run.exec (p >>= f) w = run.exec (f a) t := by
  unfold exec
  rw [Prog.handle_bind, Prog.interp_bind_ok h]

/-- A sequence whose first part raises. -/
theorem exec_bind_error {p : SecretProg α} {e : SecretError} {t : BackendWorld} (h : run.exec p w = (.error e, t))
    (f : α → SecretProg β) : run.exec (p >>= f) w = (.error e, t) := by
  unfold exec
  rw [Prog.handle_bind, Prog.interp_bind_error h]

@[simp] theorem exec_unwrap_ok (a : α) (w : BackendWorld) : run.exec (CredentialSource.unwrap (.ok a)) w = (.ok a, w) := rfl

/-- A program that begins with a command, which the adapter answers. -/
theorem exec_cmd {c : SecretCmd} {r : c.Reply} {t : BackendWorld}
    (h : (DurableVersionedSecretStore.carryOut c).interp run.answer w = (.ok r, t)) (k : c.Reply → SecretProg α) :
    run.exec (.cmd c k) w = run.exec (k r) t :=
  Prog.interp_bind_ok h _

/-- Reading over the adapter. -/
theorem exec_read (b : CredentialBinding) (k : Except SecretError RefreshSecretRecord → SecretProg α) (w : BackendWorld) :
    run.exec (.cmd (.read b) k) w = run.exec (k (DurableVersionedSecretStore.readReply b (.ok (w.rows (bindingKey b))))) w :=
  rfl

/-- Reading the record of a source. -/
theorem exec_readRecord {b : CredentialBinding} {r : RefreshSecretRecord} (h : w.Holds b r) :
    run.exec (CredentialSource.readRecord b) w = (.ok r, w) := by
  obtain ⟨raw, hraw, hr⟩ := h
  refine (run.exec_read b _ w).trans ?_
  simp only [hraw, DurableVersionedSecretStore.readReply, hr]
  rw [if_neg (not_not.2 (decodeRecord_ok hr).1), exec_ret]

/-- The state of the backend after a write, which replaces the row unless it is lost. -/
def afterWrite (w : BackendWorld) (b : CredentialBinding) (new : RefreshSecretRecord) (lost : Bool) : BackendWorld :=
  { w with
    rows := if lost then w.rows else Function.update w.rows (bindingKey b) (some (encodeRecord new))
    writes := w.writes + 1 }

theorem holds_afterWrite {b : CredentialBinding} {old new : RefreshSecretRecord} (h : w.Holds b old) (hb : new.binding = b)
    (lost : Bool) : (afterWrite w b new lost).Holds b (if lost then old else new) := by
  cases lost with
  | true => exact h
  | false =>
    refine ⟨encodeRecord new, ?_, ?_⟩
    · simp [afterWrite]
    · subst hb
      exact decodeRecord_encodeRecord new

/-- Whether the fault of a write loses it. -/
def lost (n : Nat) : Bool := (run.faultAt n).any (fun f => !f.applied)

/-- What a source makes of the fault of a write. -/
def casOutcome (new : RefreshSecretRecord) : Option WriteFault →
    Except SecretError (Except CredentialSource.CasFailure RefreshSecretRecord)
  | none => .ok (.ok new)
  | some .conflict => .ok (.error .conflict)
  | some (.ambiguousWrite _) => .ok (.error .ambiguous)
  | some (.unavailable _) => .error (.storeError "secret_store_backend_unavailable")

/-- Replacing the record of a source. -/
theorem exec_cas {b : CredentialBinding} (writer : SecretWriter) {old new : RefreshSecretRecord} (h : w.Holds b old)
    (hb : new.binding = b) (hv : new.version = old.version + 1) :
    run.exec (CredentialSource.cas b writer old new) w =
      (casOutcome new (run.faultAt w.writes), afterWrite w b new (run.lost w.writes)) := by
  obtain ⟨raw, hraw, hr⟩ := h
  obtain ⟨-, hversion, -⟩ := decodeRecord_ok hr
  have hold := old.ok.version
  have hcheck : DurableVersionedSecretStore.checkWrite b old.version new = .ok () := by
    unfold DurableVersionedSecretStore.checkWrite
    exact raiseIf_bind_ok.2 ⟨by omega, raiseIf_bind_ok.2 ⟨not_not.2 hb, raiseIf_ok.2 (not_not.2 hv)⟩⟩
  have hswap : ({ w with writes := w.writes + 1 } : BackendWorld).swap (bindingKey b) old.version (encodeRecord new) =
      some (afterWrite w b new false) := by
    unfold BackendWorld.swap
    simp only [hraw, Option.bind_some, hversion, if_true]
    rfl
  have hcmd : (DurableVersionedSecretStore.carryOut (.compareAndSwap writer b old.version new)).interp run.answer w =
      (.ok (DurableVersionedSecretStore.writeReply b new
          (run.answer w (.compareAndSwap (bindingKey b) old.version (encodeRecord new))).1),
        (run.answer w (.compareAndSwap (bindingKey b) old.version (encodeRecord new))).2) := by
    unfold DurableVersionedSecretStore.carryOut DurableVersionedSecretStore.compareAndSwap
    simp only [hcheck]
    rfl
  refine (run.exec_cmd hcmd _).trans ?_
  unfold lost
  simp only [answer, hswap]
  cases hf : run.faultAt w.writes with
  | none =>
    subst hb
    simp only [DurableVersionedSecretStore.writeReply, decodeRecord_encodeRecord, ne_eq, not_true_eq_false, if_false]
    rfl
  | some fault =>
    cases fault with
    | conflict => rfl
    | ambiguousWrite applied => cases applied <;> rfl
    | unavailable applied => cases applied <;> rfl

end RefreshRun

end Keirin

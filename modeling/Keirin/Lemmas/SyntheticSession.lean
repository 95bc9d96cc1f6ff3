import Keirin.Lemmas.SnapshotSame
import Keirin.SyntheticSession

/-!
# Sessions and their bytes

A session is accepted whatever the order of its keys, and the bytes it is saved as are read back as the same session.
-/

namespace Json

/-- A document is read back from its text, blanks after it included. -/
theorem read_spaced_gap {ν : Type} {scan : List Char → Option (ν × List Char)} {numText : ν → List Char} {p : ν → Bool} {gap : List Char}
    (hgap : ∀ c ∈ gap, isGap c = true) (hnum : ∀ n, p n = true → NumOk scan numText n) {v : Json ν} (hv : v.allNum p = true)
    (hk : v.keysOnce = true) {r : List Char} (hr : ∀ c ∈ r, isGap c = true) : read scan (spaced gap numText v ++ r) = some v := by
  have hends : r = [] ∨ Ends r := by
    cases r with
    | nil => exact .inl rfl
    | cons c r => exact .inr ⟨c, r, rfl, .inl (hr c List.mem_cons_self)⟩
  have hskip : skipGap r = [] := List.dropWhile_eq_nil_iff.2 hr
  unfold read
  rw [readValue_spaced hgap hnum v hv hk hends (Nat.lt_succ_self _)]
  simp only [hskip, if_true]

end Json

namespace Keirin

open Json (Same)

/-! ## Reading back -/

/-- What the program writes of a finite document it reads, in the order of the keys. -/
theorem Doc.loads_dumps {v : Doc} (hv : v.finite = true) (hk : v.keysOnce = true) {r : List Char} (hr : ∀ c ∈ r, Json.isGap c = true) :
    Doc.loads (v.dumps Scalar.text ++ r) = .ok v.sortKeys := by
  have hfinite : Doc.finite v.sortKeys = true := by
    unfold Doc.finite
    rw [Json.allNum_sortKeys]
    exact hv
  have hkeys : v.sortKeys.keysOnce = true := by
    rw [Json.keysOnce_sortKeys]
    exact hk
  have htext : v.dumps Scalar.text = v.sortKeys.spaced [] Scalar.dumpText := by
    unfold Json.dumps
    rw [Json.render_eq_spaced, spaced_text hfinite]
  have hread := Json.read_spaced_gap (fun _ hc => absurd hc List.not_mem_nil) (fun _ => Scalar.numOk) hfinite hkeys hr
  unfold Doc.loads
  rw [htext, hread]
  exact congrArg Except.ok (rebuild_id hkeys)

/-- A text is decoded from its bytes. -/
theorem decodeUtf8_utf8 (cs : List Char) : decodeUtf8 (Text.utf8 cs) = .ok (String.ofList cs) := by
  have hbytes : (Text.utf8 cs).map UInt8.ofNat = cs.flatMap String.utf8EncodeChar := by
    unfold Text.utf8
    rw [List.map_flatMap]
    refine List.flatMap_congr fun c _ => ?_
    rw [List.map_map]
    exact (List.map_congr_left fun b _ => UInt8.ofNat_toNat).trans (List.map_id _)
  unfold decodeUtf8
  rw [hbytes]
  have hdata : (⟨(cs.flatMap String.utf8EncodeChar).toArray⟩ : ByteArray) = cs.utf8Encode := ByteArray.ext List.data_toByteArray.symm
  have hread : String.fromUTF8? ⟨(cs.flatMap String.utf8EncodeChar).toArray⟩ = some (String.ofList cs) := by
    unfold String.fromUTF8?
    rw [hdata, dif_pos ByteArray.isValidUTF8_utf8Encode]
    rfl
  rw [hread]

namespace SyntheticSession

open HistoricalPayouts (demand_bind_ok require_bind_ok)
open ModelHistory
open CategorySelection (checkGiven checkGiven_same)

variable {dateError : String → String} {v w : Doc}

/-! ## The same sessions -/

theorem Doc.length_entries_same (h : Same v w) (hv : v.keysOnce = true) : v.entries.length = w.entries.length := by
  have hperm : (v.entries.map Prod.fst).Perm (w.entries.map Prod.fst) :=
    (List.perm_ext_iff_of_nodup (Doc.nodup_entries hv) (Doc.nodup_entries (h.keysOnce ▸ hv))).2 (Doc.mem_keys_same h hv)
  simpa using hperm.length_eq

theorem checkKept_same {snapshot snapshot' : Doc} (hs : Same snapshot snapshot') (h : Same v w) (hv : v.keysOnce = true) :
    checkKept dateError snapshot v = checkKept dateError snapshot' w := by
  unfold checkKept
  rw [validateHistory_same dateError h hv, canonical_same (Doc.same_field h hv "snapshot"), canonical_same hs]

theorem checkSnapshot_same {scheduled : Datetime} {series : ℤ} {key : String} {snapshot snapshot' : Doc} (hs : Same snapshot snapshot')
    (hkeys : snapshot.keysOnce = true) (h : Same v w) (hv : v.keysOnce = true) :
    checkSnapshot dateError scheduled series v key snapshot = checkSnapshot dateError scheduled series w key snapshot' := by
  have hfield := Doc.same_field hs hkeys
  have honce := Doc.keysOnce_field hkeys
  have hprediction := Doc.same_field (hfield "prediction") (honce "prediction")
  have hkept := Doc.keysOnce_field (honce "prediction")
  have hrace := Doc.same_field (hprediction "race") (hkept "race")
  have hcount := Doc.same_field (hprediction "input_quality") (hkept "input_quality") "rider_count"
  have hkept : checkGiven (v.get? key) (checkKept dateError snapshot) = checkGiven (w.get? key) (checkKept dateError snapshot') := by
    rcases Doc.get?_same_cases h hv key with ⟨hx, hy⟩ | ⟨x, y, hx, hy, hxy, hx'⟩
    · rw [hx, hy]
      rfl
    · rw [hx, hy]
      exact checkKept_same hs hxy hx'
  unfold checkSnapshot
  simp only [validateSnapshot_same dateError hs hkeys, Doc.int?_same hcount, Doc.int?_same (hrace "race_number"),
    Doc.eq_str_iff (hrace "venue"), iso_same (hfield "scheduled_start"), hkept]

theorem checkSnapshots_ok {scheduled : Datetime} {series : ℤ} {histories : Doc} {fs : Dict Doc} :
    checkSnapshots dateError scheduled series histories fs = .ok () ↔
      ∀ f ∈ fs, checkSnapshot dateError scheduled series histories f.1 f.2 = .ok () := by
  induction fs with
  | nil => simp [checkSnapshots]
  | cons f fs ih =>
    rw [checkSnapshots, List.forall_mem_cons, ← ih]
    constructor
    · intro h
      obtain ⟨u, hf, hfs⟩ := bind_ok.1 h
      exact ⟨hf, hfs⟩
    · rintro ⟨hf, hfs⟩
      exact bind_ok.2 ⟨(), hf, hfs⟩

theorem isCurrent_same {current current' : Doc} (h : Same v w) (hv : v.keysOnce = true) (hc : Same current current') :
    isCurrent v current = isCurrent w current' := by
  unfold isCurrent
  rw [Doc.truthy_same h, Doc.text?_same hc]
  simp only [Doc.isSome_get?_same h hv, Doc.eq_null_iff hc]

/-- A session that is accepted is accepted in whatever order its keys stand. -/
theorem validateSession_same (h : Same v w) (hv : v.keysOnce = true) (hok : validateSession dateError v = .ok ()) :
    validateSession dateError w = .ok () := by
  have hfield := Doc.same_field h hv
  have honce := Doc.keysOnce_field hv
  have hsnapshots := hfield "snapshots"
  have hhistories := hfield "histories"
  have hsome : ∀ key, ((v.field "snapshots").get? key).isSome = ((w.field "snapshots").get? key).isSome :=
    Doc.isSome_get?_same hsnapshots (honce _)
  have hall := Doc.all_keys_same hhistories (honce _) fun key => ((w.field "snapshots").get? key).isSome
  unfold validateSession at hok ⊢
  simp only [Doc.isMapping_same h, hasFields_same h hv, Doc.eq_str_iff (hfield "schema_version"), Doc.eq_bool_iff (hfield "synthetic_only"),
    iso_same (hfield "scheduled"), Doc.int?_same (hfield "series"), Doc.isMapping_same hsnapshots, Doc.isMapping_same hhistories,
    Doc.length_entries_same hsnapshots (honce _), hsome, hall, isCurrent_same hsnapshots (honce _) (hfield "current")] at hok
  obtain ⟨hschema, hok⟩ := demand_bind_ok.1 hok
  obtain ⟨scheduled, hscheduled, hok⟩ := bind_ok.1 hok
  obtain ⟨series, hseries, hok⟩ := require_bind_ok.1 hok
  obtain ⟨hrecords, hok⟩ := demand_bind_ok.1 hok
  obtain ⟨hcurrent, hok⟩ := demand_bind_ok.1 hok
  refine demand_bind_ok.2 ⟨hschema, bind_ok.2 ⟨scheduled, hscheduled, require_bind_ok.2 ⟨series, hseries, demand_bind_ok.2 ⟨hrecords,
    demand_bind_ok.2 ⟨hcurrent, ?_⟩⟩⟩⟩⟩
  rw [checkSnapshots_ok] at hok ⊢
  intro g hg
  -- the snapshot of the same key
  have hkeysw : (w.field "snapshots").keysOnce = true := hsnapshots.keysOnce ▸ honce "snapshots"
  have hget : (w.field "snapshots").get? g.1 = some g.2 := by
    rw [Doc.get?_eq_entries]
    exact Dict.get?_of_mem (Doc.nodup_entries hkeysw) hg
  rcases Doc.get?_same_cases hsnapshots (honce _) g.1 with ⟨-, hy⟩ | ⟨x, y, hx, hy, hxy, hx'⟩
  · rw [hget] at hy
    cases hy
  · rw [hget] at hy
    cases hy
    rw [Doc.get?_eq_entries] at hx
    rw [← checkSnapshot_same hxy hx' hhistories (honce _)]
    exact hok (g.1, x) (Dict.mem_of_get? hx)

/-! ## The bytes of a session -/

theorem sortKeys_envelope (payload : Doc) (sha256 : String) : (envelope payload sha256).sortKeys = envelope payload.sortKeys sha256 := by
  unfold envelope
  have hle : ("payload" : String) ≤ "sha256" := by decide
  simp [Json.sortKeys, Json.sortKeysFields, List.insertionSort, hle]

theorem detectEncoding_brace (b : List ℕ) : detectEncoding (123 :: 34 :: b) = .utf8 := by
  rcases b with _ | ⟨b2, _ | ⟨b3, b⟩⟩ <;> rfl

/-- The bytes of a session are its text and a line end. -/
theorem exists_of_encode {payload : Doc} {data : List ℕ} (h : encode dateError payload = .ok data) :
    validateSession dateError payload = .ok () ∧ data.length ≤ MAX_BYTES ∧ ∃ sha256, digest payload = .ok sha256 ∧
      (envelope payload sha256).finite = true ∧ data = Text.utf8 ((envelope payload sha256).dumps Scalar.text ++ ['\n']) := by
  unfold encode at h
  obtain ⟨u, hvalid, h⟩ := bind_ok.1 h
  obtain ⟨sha256, hdigest, h⟩ := bind_ok.1 h
  obtain ⟨text, htext, h⟩ := bind_ok.1 h
  obtain ⟨hlength, h⟩ := demand_bind_ok.1 h
  unfold canonical at htext
  obtain ⟨u', hfinite, htext⟩ := bind_ok.1 htext
  cases Except.ok.inj h
  cases Except.ok.inj htext
  exact ⟨hvalid, of_decide_eq_true hlength, sha256, hdigest, Doc.finite_of_checkFinite hfinite, rfl⟩

/-- A session is read back from its bytes, up to the order of its keys. -/
theorem payloadOf_encode (wide : Encoding → List ℕ → Except PyError String) {payload : Doc} (hkeys : payload.keysOnce = true) {data : List ℕ}
    (h : encode dateError payload = .ok data) : payloadOf wide dateError data = .ok payload.sortKeys := by
  obtain ⟨hvalid, -, sha256, hdigest, hfinite, rfl⟩ := exists_of_encode h
  have hsame : Same payload payload.sortKeys := (Json.same_sortKeys payload).symm
  have honce : (envelope payload sha256).keysOnce = true := by
    unfold envelope
    rw [Doc.keysOnce_obj]
    refine ⟨by simp, fun f hf => ?_⟩
    simp only [List.mem_cons, List.not_mem_nil, or_false] at hf
    rcases hf with rfl | rfl
    · exact hkeys
    · rfl
  have htext : ∃ rest, (envelope payload sha256).dumps Scalar.text = '{' :: '"' :: rest := by
    unfold Json.dumps
    rw [sortKeys_envelope]
    exact ⟨_, rfl⟩
  obtain ⟨rest, htext⟩ := htext
  have hdecode : decode wide (Text.utf8 ((envelope payload sha256).dumps Scalar.text ++ ['\n'])) =
      .ok (String.ofList ((envelope payload sha256).dumps Scalar.text ++ ['\n'])) := by
    have hdetect : detectEncoding (Text.utf8 ((envelope payload sha256).dumps Scalar.text ++ ['\n'])) = .utf8 := by
      rw [htext]
      exact detectEncoding_brace _
    unfold decode
    rw [hdetect]
    exact decodeUtf8_utf8 _
  have hloads : Doc.loads (String.ofList ((envelope payload sha256).dumps Scalar.text ++ ['\n'])).toList =
      .ok (envelope payload.sortKeys sha256) := by
    rw [String.toList_ofList, Doc.loads_dumps hfinite honce (by simp [Json.isGap]), sortKeys_envelope]
  unfold payloadOf
  refine bind_ok.2 ⟨_, hdecode, bind_ok.2 ⟨_, hloads, demand_bind_ok.2 ⟨rfl, bind_ok.2 ⟨sha256, ?_, demand_bind_ok.2
    ⟨decide_eq_true rfl, bind_ok.2 ⟨(), validateSession_same hsame hkeys hvalid, rfl⟩⟩⟩⟩⟩⟩
  show digest payload.sortKeys = .ok sha256
  rw [← Doc.digest_same hsame, hdigest]

/-! ## Operations -/

section Operations

variable {faults : Faults} {op : FileOp} {s t : Underway} {answer : Answer}

/-- An operation other than a replacement leaves the file. -/
theorem machine_file (hop : op.stage ≠ .replace) (h : machine faults s op () = some (answer, t)) :
    t.replaced = s.replaced ∧ t.disk.file = s.disk.file := by
  cases h
  refine ⟨by simp [hop], ?_⟩
  cases hf : faults op.stage with
  | some arrived => cases op <;> rfl
  | none =>
    cases op with
    | read => cases hfile : s.disk.file with
      | none => simp [Disk.perform, hfile]
      | some entry => cases entry <;> simp [Disk.perform, hfile]
    | create name => simp only [Disk.perform]; split_ifs <;> rfl
    | unlink name => simp only [Disk.perform]; split_ifs <;> rfl
    | replace name => exact absurd rfl hop
    | _ => rfl

/-- A replacement puts the bytes of the temporary file in the place of the file, or fails. -/
theorem machine_replace {name : String} (h : machine faults s (.replace name) () = some (answer, t)) :
    (answer = .done ∧ t.replaced = true ∧ ∃ data, Dict.get? name s.disk.partials = some data ∧ t.disk.file = some (.plain data 1)) ∨
      ((∃ e, answer = .error e) ∧ t.replaced = s.replaced ∧ t.disk.file = s.disk.file) := by
  cases h
  cases hf : faults (FileOp.replace name).stage with
  | some arrived => exact .inr ⟨⟨_, rfl⟩, by simp, rfl⟩
  | none =>
    cases hp : Dict.get? name s.disk.partials with
    | some data =>
      simp only [Disk.perform, hp]
      exact .inl ⟨trivial, by simp [FileOp.stage], data, rfl, rfl⟩
    | none =>
      simp only [Disk.perform, hp]
      exact .inr ⟨⟨.notFound, rfl⟩, by simp, trivial⟩

/-- The file that is read. -/
theorem machine_read {entry : Option Entry} (h : machine faults s .read () = some (.file entry, t)) : entry = s.disk.file := by
  unfold machine at h
  cases hf : faults FileOp.read.stage with
  | some arrived =>
    rw [hf] at h
    cases congrArg Prod.fst (Option.some.inj h)
  | none =>
    rw [hf] at h
    have hanswer := congrArg Prod.fst (Option.some.inj h)
    unfold Disk.perform at hanswer
    cases hfile : s.disk.file with
    | none =>
      simp only [hfile] at hanswer
      cases hanswer
      rfl
    | some found =>
      cases found <;> simp only [hfile] at hanswer <;> cases hanswer <;> rfl

/-- An operation that does not fail was not struck. -/
theorem machine_clear (h : machine faults s op () = some (answer, t)) (hanswer : ∀ e, answer ≠ .error e) :
    faults op.stage = none ∧ t.faulted = s.faulted ∧ t.disk = (s.disk.perform op).2 := by
  cases h
  cases hf : faults op.stage with
  | some arrived =>
    rw [hf] at hanswer
    exact absurd rfl (hanswer .other)
  | none =>
    rw [hf] at hanswer
    exact ⟨rfl, by simp [hanswer .other], rfl⟩

end Operations

/-! ## Saves -/

/-- What holds all through a save: the file is as before, or it was as expected and holds the new bytes. -/
structure Kept (dateError : String → String) (store : SessionStore) (payload : Doc) (file : Option Entry) (s : Underway) : Prop where
  before : s.replaced = false → s.disk.file = file
  after : s.replaced = true → store.failed = false ∧ readOf file = .ok store.expected ∧
    ∃ data, encode dateError payload = .ok data ∧ s.disk.file = some (.plain data 1)

/-- A save has got through some operations, and the temporary file holds some bytes. -/
structure Through (faults : Faults) (name : String) (stages : List Stage) (content : Option (List ℕ)) (replaced : Bool) (s : Underway) :
    Prop where
  clear : ∀ stage ∈ stages, faults stage = none
  faulted : s.faulted = false
  replaced : s.replaced = replaced
  content : ∀ data, content = some data → Dict.get? name s.disk.partials = some data

section Saves

variable {faults : Faults} {store : SessionStore} {payload : Doc} {file : Option Entry} {name : String} {stages : List Stage}
  {content : Option (List ℕ)} {s : Underway}

/-- The rule of one operation. -/
theorem safe_attempt {I : Underway → Prop} {Q : Unit → Underway → Prop} {op : FileOp} {progress : Progress}
    (h : ∀ answer t, machine faults s op () = some (answer, t) → I t ∧ ((∀ e, answer ≠ .error e) → Q () t)) :
    (attempt progress op).Safe (Setting.alone (machine faults) I) Q (fun _ _ => True) s := by
  refine Prog.safe_cmd_alone fun x answer t hm => ?_
  obtain ⟨hi, hq⟩ := h answer t hm
  refine ⟨hi, ?_⟩
  have hreturn : (∀ e, answer ≠ .error e) →
      (Prog.ret () : SaveProg Progress Unit).Safe (Setting.alone (machine faults) I) Q (fun _ _ => True) t := by
    intro hne u he _
    cases he
    exact hq hne
  cases answer with
  | done => exact hreturn fun e he => by cases he
  | file entry => exact hreturn fun e he => by cases he
  | error e => exact fun _ _ _ => trivial

/-- An operation before or after the replacement. -/
theorem safe_plain {op : FileOp} {progress : Progress} {replaced : Bool} (content' : Option (List ℕ)) (hop : op.stage ≠ .replace)
    (hkept : Kept dateError store payload file s) (hs : Through faults name stages content replaced s)
    (hcontent : ∀ data, content' = some data → Dict.get? name (s.disk.perform op).2.partials = some data) :
    (attempt progress op).Safe (Setting.alone (machine faults) (Kept dateError store payload file))
      (fun _ => Through faults name (op.stage :: stages) content' replaced) (fun _ _ => True) s := by
  refine safe_attempt fun answer t hm => ?_
  obtain ⟨hreplaced, hfile⟩ := machine_file hop hm
  refine ⟨⟨fun h => ?_, fun h => ?_⟩, fun hanswer => ?_⟩
  · rw [hfile]
    exact hkept.before (hreplaced ▸ h)
  · rw [hfile]
    exact hkept.after (hreplaced ▸ h)
  · obtain ⟨hclear, hfaulted, hdisk⟩ := machine_clear hm hanswer
    refine ⟨List.forall_mem_cons.2 ⟨hclear, hs.clear⟩, hfaulted.trans hs.faulted, hreplaced.trans hs.replaced, ?_⟩
    rw [hdisk]
    exact hcontent

/-- The replacement. -/
theorem safe_replace {progress : Progress} {data : List ℕ} (hfailed : store.failed = false) (hencode : encode dateError payload = .ok data)
    (hread : readOf file = .ok store.expected) (hkept : Kept dateError store payload file s)
    (hs : Through faults name stages (some data) false s) :
    (attempt progress (.replace name)).Safe (Setting.alone (machine faults) (Kept dateError store payload file))
      (fun _ => Through faults name (.replace :: stages) none true) (fun _ _ => True) s := by
  refine safe_attempt fun answer t hm => ?_
  rcases machine_replace hm with ⟨hanswer, hreplaced, found, hfound, hfile⟩ | ⟨⟨e, hanswer⟩, hreplaced, hfile⟩
  · rw [hs.content data rfl] at hfound
    cases hfound
    refine ⟨⟨fun h => ?_, fun _ => ⟨hfailed, hread, data, hencode, hfile⟩⟩, fun hne => ?_⟩
    · rw [hreplaced] at h
      cases h
    · obtain ⟨hclear, hfaulted, -⟩ := machine_clear hm hne
      exact ⟨List.forall_mem_cons.2 ⟨hclear, hs.clear⟩, hfaulted.trans hs.faulted, hreplaced, fun _ h => by cases h⟩
  · refine ⟨⟨fun h => ?_, fun h => ?_⟩, fun hne => absurd hanswer (hne e)⟩
    · rw [hfile]
      exact hkept.before (hreplaced ▸ h)
    · rw [hreplaced, hs.replaced] at h
      cases h

/-- The operations a save has got through at its end. -/
def saved : List Stage := [.fsyncDirectory, .replace, .close, .fsync, .flush, .write, .create, .read]

theorem safe_writeFile {data : List ℕ} (hfailed : store.failed = false) (hencode : encode dateError payload = .ok data)
    (hread : readOf file = .ok store.expected) (hkept : Kept dateError store payload file s)
    (hs : Through faults name [.read] none false s) :
    (writeFile name data).Safe (Setting.alone (machine faults) (Kept dateError store payload file))
      (fun _ => Through faults name saved none true) (fun _ _ => True) s := by
  have hnone : ∀ {d : Dict (List ℕ)} (data : List ℕ), (none : Option (List ℕ)) = some data → Dict.get? name d = some data :=
    fun _ h => by cases h
  unfold writeFile
  refine Prog.safe_bind_alone hkept (safe_plain none (by simp [FileOp.stage]) hkept hs hnone) fun _ s hkept hs => ?_
  refine Prog.safe_bind_alone hkept (safe_plain (some data) (by simp [FileOp.stage]) hkept hs ?_) fun _ s hkept hs => ?_
  · intro found hfound
    cases hfound
    exact Dict.get?_set_self _ _ _
  refine Prog.safe_bind_alone hkept (safe_plain _ (by simp [FileOp.stage]) hkept hs hs.content) fun _ s hkept hs => ?_
  refine Prog.safe_bind_alone hkept (safe_plain _ (by simp [FileOp.stage]) hkept hs hs.content) fun _ s hkept hs => ?_
  refine Prog.safe_bind_alone hkept (safe_plain _ (by simp [FileOp.stage]) hkept hs hs.content) fun _ s hkept hs => ?_
  refine Prog.safe_bind_alone hkept (safe_replace hfailed hencode hread hkept hs) fun _ s hkept hs => ?_
  exact safe_plain _ (by simp [FileOp.stage]) hkept hs hs.content

theorem safe_saveFile {data : List ℕ} (hfailed : store.failed = false) (hencode : encode dateError payload = .ok data)
    (hkept : Kept dateError store payload file s) (hs : Through faults name [] none false s) :
    (saveFile store.expected name data).Safe (Setting.alone (machine faults) (Kept dateError store payload file))
      (fun _ => Through faults name saved none true) (fun _ _ => True) s := by
  refine Prog.safe_cmd_alone fun x answer t hm => ?_
  obtain ⟨hreplaced, hfile⟩ := machine_file (by decide) hm
  have hkept' : Kept dateError store payload file t := by
    refine ⟨fun h => ?_, fun h => ?_⟩
    · rw [hfile]
      exact hkept.before (hreplaced ▸ h)
    · rw [hfile]
      exact hkept.after (hreplaced ▸ h)
  refine ⟨hkept', ?_⟩
  cases answer with
  | done => exact fun _ _ _ => trivial
  | error e => exact fun _ _ _ => trivial
  | file entry =>
    obtain ⟨hclear, hfaulted, -⟩ := machine_clear hm fun e he => by cases he
    have hentry : entry = file := (machine_read hm).trans (hkept.before hs.replaced)
    show Prog.Safe _ _ _ (if readOf entry = .ok store.expected then writeFile name data else .raise ⟨false, false⟩) t
    split_ifs with hread
    · rw [hentry] at hread
      refine safe_writeFile hfailed hencode hread hkept' ⟨?_, hfaulted.trans hs.faulted, hreplaced.trans hs.replaced, fun _ h => by cases h⟩
      rw [List.forall_mem_singleton]
      exact hclear
    · exact fun _ _ _ => trivial

/-- Whether the last operation, the removal of the temporary file, fails only where another failed before. -/
def Cleaned (faults : Faults) : Prop := faults .unlink ≠ none → ∃ stage, stage ≠ .unlink ∧ faults stage ≠ none

theorem safe_cleanUp {ending : Ending} (hkept : Kept dateError store payload file s) :
    (cleanUp name ending).Safe (Setting.alone (machine faults) (Kept dateError store payload file))
      (fun r t => r.1 = ending.1 ∧ t.replaced = s.replaced ∧ t.disk.file = s.disk.file ∧
        (faults .unlink = none → s.faulted = false → t.faulted = false)) (fun _ _ => True) s := by
  refine Prog.safe_cmd_alone fun x answer t hm => ?_
  obtain ⟨hreplaced, hfile⟩ := machine_file (by simp [FileOp.stage]) hm
  have hkept' : Kept dateError store payload file t := by
    refine ⟨fun h => ?_, fun h => ?_⟩
    · rw [hfile]
      exact hkept.before (hreplaced ▸ h)
    · rw [hfile]
      exact hkept.after (hreplaced ▸ h)
  have hclean : faults .unlink = none → s.faulted = false → t.faulted = false := by
    intro hnone hfaulted
    have hanswer : answer ≠ .error .other := by
      unfold machine at hm
      simp only [FileOp.stage, hnone, Disk.perform] at hm
      split_ifs at hm <;> cases congrArg Prod.fst (Option.some.inj hm) <;> exact fun h => by cases h
    have ht : t.faulted = (s.faulted || answer = .error .other) := by
      cases hm
      rfl
    rw [ht, hfaulted, decide_eq_false hanswer]
    rfl
  have hreturn : ∀ r : Ending, r.1 = ending.1 → (Prog.ret r : SaveProg Empty Ending).Safe
      (Setting.alone (machine faults) (Kept dateError store payload file)) (fun r t => r.1 = ending.1 ∧ t.replaced = s.replaced ∧
        t.disk.file = s.disk.file ∧ (faults .unlink = none → s.faulted = false → t.faulted = false)) (fun _ _ => True) t := by
    intro r hr u he _
    cases he
    exact ⟨hr, hreplaced, hfile, hclean⟩
  refine ⟨hkept', ?_⟩
  cases answer with
  | done => exact hreturn _ rfl
  | file entry => exact hreturn _ rfl
  | error e =>
    cases e with
    | notFound => exact hreturn _ rfl
    | other => exact hreturn _ rfl

/-- What holds where a save ends with a store that has not failed. -/
structure Ended (faults : Faults) (store : SessionStore) (ending : Ending) (s : Underway) : Prop where
  before : ending.1.failed = false → store.failed = false
  expected : ending.1.failed = false → ending.1.expected = if s.replaced then s.disk.bytes else store.expected
  clear : ending.1.failed = false → Cleaned faults → s.faulted = false

theorem bytes_of_encode {data : List ℕ} (hencode : encode dateError payload = .ok data) {disk : Disk}
    (hfile : disk.file = some (.plain data 1)) : disk.bytes = some data := by
  obtain ⟨-, hlength, -⟩ := exists_of_encode hencode
  have hread : readOf disk.file = .ok (some data) := by
    rw [hfile]
    exact if_neg (by omega)
  unfold Disk.bytes
  rw [hread]
  rfl

/-- A save keeps the file whole, wherever it is cut off, and a store that ends without failure expects what is there. -/
theorem safe_save (hkept : Kept dateError store payload file s) (hs : Through faults name [] none false s) :
    (save dateError store payload name).Safe (Setting.alone (machine faults) (Kept dateError store payload file))
      (Ended faults store) (fun _ _ => True) s := by
  have hstill : ∀ outcome, store.failed = false → (Prog.ret (store, outcome) : SaveProg Empty Ending).Safe
      (Setting.alone (machine faults) (Kept dateError store payload file)) (Ended faults store) (fun _ _ => True) s := by
    intro outcome hfailed t he _
    cases he
    refine ⟨fun _ => hfailed, fun _ => ?_, fun _ _ => hs.faulted⟩
    rw [hs.replaced]
    rfl
  unfold save
  split_ifs with hfailed
  · intro t he _
    cases he
    refine ⟨fun h => ?_, fun h => ?_, fun h => ?_⟩ <;> rw [hfailed] at h <;> cases h
  · rw [Bool.not_eq_true] at hfailed
    cases hencode : encode dateError payload with
    | error exc => exact hstill _ hfailed
    | ok data =>
      refine Prog.safe_bind_alone hkept (safe_saveFile hfailed hencode hkept hs).outcome fun result t hkept ht => ?_
      rcases ht with ⟨u, rfl, ht⟩ | ⟨progress, rfl, -⟩
      · -- every operation was carried out, so nothing was struck but the removal
        refine (safe_cleanUp hkept).mono ?_ fun _ _ _ _ => trivial
        rintro ending v hv ⟨hending, hreplaced, hfile, hclean⟩
        have hstore : ending.1 = { store with expected := some data } := hending
        obtain ⟨-, -, data', hencode', hdata⟩ := hkept.after ht.replaced
        rw [hencode] at hencode'
        cases hencode'
        refine ⟨fun _ => hfailed, fun _ => ?_, fun _ hcleaned => ?_⟩
        · rw [hreplaced, ht.replaced, if_pos rfl, bytes_of_encode hencode (hfile.trans hdata), hstore]
        · refine hclean ?_ ht.faulted
          by_contra hunlink
          obtain ⟨stage, hstage, hstruck⟩ := hcleaned hunlink
          refine hstruck (ht.clear stage ?_)
          cases stage <;> first | exact absurd rfl hstage | simp [saved]
      · have hend : ∀ (ending : Ending) (v : Underway), ending.1.failed = true → Ended faults store ending v := by
          intro ending v hending
          refine ⟨fun h => ?_, fun h => ?_, fun h => ?_⟩ <;> rw [hending] at h <;> cases h
        cases hcreated : progress.created with
        | true =>
          simp only [hcreated, if_true]
          refine (safe_cleanUp hkept).mono ?_ fun _ _ _ _ => trivial
          rintro ending v - ⟨hending, -⟩
          exact hend ending v (by rw [hending]; rfl)
        | false =>
          simp only [hcreated]
          intro v he _
          exact hend _ v rfl

end Saves

end SyntheticSession

end Keirin

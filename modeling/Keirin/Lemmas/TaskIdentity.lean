import Keirin.TaskIdentity
import Keirin.Lemmas.FileStore
import Keirin.Lemmas.Ledger
import Keirin.Lib.JsonAscii
import Keirin.Lib.JsonRender

/-!
# Texts of definitions

What JSON writes it reads back, escapes included, and a text with sorted keys determines the document up to their order.
-/

namespace Keirin

open Json (escapeChar readString isPlain)

/-! ## Round trips -/

theorem isPlain_ascii {c : Char} (h : isPlain c = true) : Doc.asciiChar c = [c] := by
  simp only [isPlain, Bool.and_eq_true, decide_eq_true_eq] at h
  exact if_pos h.2

theorem asciiChar_high {c : Char} (h : ¬c.toNat < 127) : Doc.asciiChar c =
    if c.toNat < 0x10000 then Json.hexEscape c.toNat
    else Json.hexEscape (0xd800 + (c.toNat - 0x10000) / 0x400) ++ Json.hexEscape (0xdc00 + (c.toNat - 0x10000) % 0x400) := by
  unfold Doc.asciiChar
  simp only [if_neg h]
  rfl

/-- A character is read back from its escape. -/
theorem readString_asciiEscape (c : Char) (s : List Char) :
    readString ((escapeChar c).flatMap Doc.asciiChar ++ s) = (readString s).map fun x => (c :: x.1, x.2) := by
  by_cases hlow : c.toNat < 127
  · have hkept : (escapeChar c).flatMap Doc.asciiChar = escapeChar c := by
      refine Json.flatMap_kept fun d hd => ?_
      rcases Json.mem_escapeChar hd with hplain | ⟨rfl, -⟩
      · exact isPlain_ascii hplain
      · exact if_pos hlow
    rw [hkept]
    exact Json.readString_escapeChar c s
  · have hself : escapeChar c = [c] := by
      have hne : ∀ d : Char, d.toNat < 127 → c ≠ d := by
        rintro d hd rfl
        exact hlow hd
      simp [escapeChar, hne '"' (by decide), hne '\\' (by decide), hne '\n' (by decide), hne '\r' (by decide), hne '\t' (by decide),
        hne '\x08' (by decide), hne '\x0c' (by decide), show ¬c.toNat < 32 by omega]
    rw [hself, List.flatMap_singleton, asciiChar_high hlow]
    split_ifs with hplane
    · exact Json.readString_hexEscape hplane s
    · rw [List.append_assoc]
      exact Json.readString_pair (not_lt.1 hplane) s

/-- The text of numbers that are finite. -/
theorem spaced_text {v : Doc} (hv : Doc.finite v = true) (gap : List Char) : v.spaced gap Scalar.text = v.spaced gap Scalar.dumpText := by
  refine Json.spaced_congr (p := Scalar.finite) (fun n hn => ?_) v hv
  cases n <;> first | rfl | nomatch hn

/-- A document whose keys stand once is its own reading. -/
theorem rebuild_id {v : Doc} (h : v.keysOnce = true) : v.rebuild .num (Dict.update []) = v := by
  induction v using Json.induct with
  | null => rfl
  | bool b => rfl
  | num n => rfl
  | str s => rfl
  | arr xs ih =>
    rw [Json.keysOnce, Json.keysOnceList_eq, List.all_eq_true] at h
    rw [Json.rebuild, Json.rebuildList_eq]
    exact congrArg Json.arr ((List.map_congr_left fun x hx => ih x hx (h x hx)).trans (List.map_id xs))
  | obj fs ih =>
    rw [Json.keysOnce, Bool.and_eq_true, decide_eq_true_eq, Json.keysOnceFields_eq, List.all_eq_true] at h
    have hfields : fs.map (fun f => (f.1, f.2.rebuild .num (Dict.update []))) = fs :=
      (List.map_congr_left fun f hf => congrArg (Prod.mk f.1) (ih f hf (h.2 f hf))).trans (List.map_id fs)
    rw [Json.rebuild, Json.rebuildFields_eq, hfields, Json.update_nil h.1]

/-- A JSON value is read back from its text. -/
theorem roundTrip_ok {v : Doc} (hencodable : v.encodable = true) (hfinite : v.finite = true) (hkeys : v.keysOnce = true) :
    Doc.roundTrip v = .ok v := by
  have htext : Doc.jsonText v = .ok (Doc.ascii (v.spaced [' '] Scalar.text)) := by
    unfold Doc.jsonText Doc.checkFinite
    rw [hencodable, hfinite]
    rfl
  have hread : Json.read Scalar.scan (Doc.ascii (v.spaced [' '] Scalar.text)) = some v := by
    rw [spaced_text hfinite]
    unfold Doc.ascii
    rw [Json.flatMap_spaced (fun _ => isPlain_ascii) (fun c hc => isPlain_ascii (List.all_eq_true.1 (rfl : [' '].all isPlain = true) c hc))
      fun n c hc => isPlain_ascii (Scalar.dumpText_plain n c hc)]
    exact Json.read_escaped Ledger.gap_blank (fun _ => Scalar.numOk) readString_asciiEscape hfinite hkeys
  rw [Doc.roundTrip, htext]
  show Doc.loads _ = _
  have hrebuild : v.rebuild .num (Dict.update []) = v := rebuild_id hkeys
  rw [Doc.loads, hread]
  exact congrArg Except.ok hrebuild

/-! ## Digests -/

/-- A text is what its bytes decode to. -/
theorem utf8_injective : Function.Injective Text.utf8 := by
  intro s t h
  have hbytes : ∀ cs : List Char, Text.utf8 cs = (cs.flatMap String.utf8EncodeChar).map UInt8.toNat := by
    intro cs
    exact (List.map_flatMap).symm
  rw [hbytes, hbytes] at h
  have hchars := List.map_injective_iff.2 (fun _ _ => UInt8.toNat_inj.1) h
  refine String.ofList_injective (String.toByteArray_inj.1 ?_)
  show s.utf8Encode = t.utf8Encode
  unfold List.utf8Encode
  rw [hchars]

namespace TaskSpec

/-- The text of a definition determines it up to the order of its keys. -/
theorem encoded_eq_iff (s t : Definition) : s.spec.encoded = t.spec.encoded ↔ Same s.spec t.spec := by
  have htext : ∀ d : Definition, d.spec.encoded = d.spec.toDict.dumps Scalar.dumpText := by
    intro d
    unfold encoded Json.dumps
    rw [Json.render_eq_spaced, Json.render_eq_spaced]
    exact spaced_text (by rw [Doc.finite, Json.allNum_sortKeys]; exact d.finite) []
  constructor
  · intro h
    rw [htext, htext] at h
    exact Json.same_of_dumps (fun _ => Scalar.numOk) s.finite t.finite s.keysOnce t.keysOnce h
  · intro h
    unfold encoded Json.dumps
    rw [show s.spec.toDict.sortKeys = t.spec.toDict.sortKeys from h]

theorem digest_injective {s t : List Char} (h : digest s = digest t) :
    Sha256.hexdigest (Text.utf8 s) = Sha256.hexdigest (Text.utf8 t) :=
  List.append_cancel_left (String.ofList_injective h)

/-- Where their bytes do not collide, two definitions have one digest where they are the same. -/
theorem digest_eq_iff {s t : Definition} (h : ¬Collide s.spec t.spec) : digest s.spec.encoded = digest t.spec.encoded ↔ Same s.spec t.spec := by
  constructor
  · intro hdigest
    by_contra hsame
    refine h ⟨fun hbytes => hsame ((encoded_eq_iff s t).1 (utf8_injective hbytes)), digest_injective hdigest⟩
  · intro hsame
    rw [(encoded_eq_iff s t).2 hsame]

theorem Definition.fingerprint_eq (d : Definition) : d.spec.fingerprint = .ok (digest d.spec.encoded) := if_pos d.finite

end TaskSpec

/-! ## The bound definition -/

namespace FileStore

open Runner

/-- The state in the file is that of the task and is bound to the definition with fingerprint `g`; where there was a file there is one. -/
structure Kept (taskId g : String) (present : Prop) (w : World) : Prop where
  file : ∀ state, w.file = some state → state.specFingerprint = .str g ∧ state.taskId = taskId
  safe : w.file.isSome = true → checkTaskId taskId = .ok ()
  present : present → w.file.isSome = true

theorem Kept.congr {taskId g : String} {present : Prop} {w w' : World} (h : Kept taskId g present w) (hf : w'.file = w.file) :
    Kept taskId g present w' := by
  constructor
  · rw [hf]
    exact h.file
  · rw [hf]
    exact h.safe
  · rw [hf]
    exact h.present

theorem kept_some {taskId g : String} {present : Prop} {w : World} {state : TaskState} (hf : w.file = some state)
    (hstate : state.specFingerprint = .str g ∧ state.taskId = taskId) (hsafe : checkTaskId taskId = .ok ()) : Kept taskId g present w where
  file := by
    intro state' h
    rw [hf] at h
    cases h
    exact hstate
  safe := fun _ => hsafe
  present := fun _ => by rw [hf]; rfl

section Run

variable {spec : TaskSpec} {g : String} {present : Prop} {n : ℕ} {actions : List String} {context : Dict Doc}

/-- What a run that goes on knows: there is a file, and the state it holds is bound to its definition. -/
def Binding (taskId g : String) (v : RunView) (w : World) : Prop :=
  w.file.isSome = true ∧ ∀ state, v.state = some state → state.specFingerprint = .str g ∧ state.taskId = taskId

theorem state_invoke (v : RunView) (c : ActionCall) : (v.next (.invoke c) ()).state = v.state := by
  simp only [RunView.next]
  split <;> rfl

theorem state_await (v : RunView) (c : ActionCall) (a : Except ActionExc Returned) : (v.next (.await c) a).state = v.state := by
  simp only [RunView.next]
  split
  · split <;> rfl
  · split <;> rfl

/-- One command of a run that goes on. -/
theorem binding_step (hg : spec.fingerprint = .ok g) {v : RunView} {w t : World} {c : RunnerCmd} {x : Choice} {r : c.Reply}
    (ha : (runDiscipline spec).allowed v c) (hb : Binding spec.taskId g v w) (hk : Kept spec.taskId g present w)
    (hm : machine spec.taskId n (Item.saved n) w c x = some (r, t)) :
    Kept spec.taskId g present t ∧ Binding spec.taskId g ((runDiscipline spec).next v c r) t := by
  cases c with
  | lock =>
    cases x with
    | answer a => cases hm
    | _ =>
      cases hm
      exact ⟨hk, hb⟩
  | «exists» =>
    cases x with
    | answer a => cases hm
    | _ =>
      cases hm
      exact ⟨hk, hb⟩
  | load =>
    cases x with
    | answer a => cases hm
    | fail e =>
      cases hm
      exact ⟨hk, hb⟩
    | ok now =>
      obtain ⟨hr, rfl⟩ := Prod.mk.inj (Option.some.inj hm)
      refine ⟨hk, hb.1, ?_⟩
      cases r with
      | error e => exact hb.2
      | ok state =>
        intro state' hs
        cases hs
        obtain ⟨_, -, hr⟩ := bind_ok.1 hr
        obtain ⟨st, hst⟩ := Option.isSome_iff_exists.1 hb.1
        simp only [hst] at hr
        by_cases hne : st.taskId ≠ spec.taskId
        · rw [if_pos hne] at hr
          cases hr
        · rw [if_neg hne] at hr
          cases hr
          exact hk.file state hst
  | save state =>
    cases x with
    | answer a => cases hm
    | fail e =>
      cases hm
      exact ⟨hk, hb⟩
    | ok now =>
      obtain ⟨old, hold, hsave⟩ := ha
      simp only [machine] at hm
      split at hm
      · obtain ⟨rfl, rfl⟩ := Prod.mk.inj (Option.some.inj hm)
        have hstate : state.specFingerprint = .str g ∧ state.taskId = spec.taskId := by
          obtain ⟨hfp, hid⟩ := hb.2 old hold
          refine ⟨?_, hsave.taskId.trans hid⟩
          rcases hsave.fingerprint with h | h
          · exact h.trans hfp
          · rw [hg] at h
            exact (Except.ok.inj h).symm
        refine ⟨kept_some rfl hstate (hk.safe hb.1), rfl, ?_⟩
        intro state' hs
        cases hs
        exact hstate
      · cases hm
  | event e =>
    cases x with
    | answer a => cases hm
    | fail e =>
      cases hm
      exact ⟨hk, hb⟩
    | ok now =>
      cases hm
      exact ⟨hk.congr rfl, hb⟩
  | invoke c =>
    cases x with
    | ok now =>
      cases hm
      refine ⟨hk.congr rfl, hb.1, ?_⟩
      intro state hs
      exact hb.2 state ((state_invoke v c).symm.trans hs)
    | fail e => cases hm
    | answer a => cases hm
  | await c =>
    cases x with
    | ok now => cases hm
    | fail e => cases hm
    | answer a =>
      cases hm
      refine ⟨hk.congr rfl, hb.1, ?_⟩
      intro state hs
      exact hb.2 state ((state_await v c _).symm.trans hs)

/-- The rest of a run whose state is bound. -/
theorem resume_safe (hv : spec.Valid) (hg : spec.fingerprint = .ok g) {w : World} {loaded state : TaskState} (hw : w.file.isSome = true)
    (hstate : state.specFingerprint = .str g ∧ state.taskId = spec.taskId)
    (hsame : state.status = loaded.status ∧ state.attempts = loaded.attempts ∧ state.completedSteps = loaded.completedSteps) :
    (resume spec actions context state).Safe (Setting.alone (machine spec.taskId n (Item.saved n)) (Kept spec.taskId g present))
      (fun _ _ => True) (fun _ _ => True) w := by
  obtain ⟨hstatus, hattempts, hcompleted⟩ := hsame
  refine (resume_follows (v := { RunView.initial with loaded := some loaded, state := some state }) hv rfl rfl rfl (by rw [hstatus]) hattempts
    hcompleted).safe_alone (J := Binding spec.taskId g) ?_ ?_
  · intro v w c x r t ha hb hk hm
    exact ⟨trivial, binding_step hg ha hb hk hm⟩
  · refine ⟨hw, ?_⟩
    intro state' h
    cases h
    exact hstate

/-- The state a run loads: that of the file, or a new one. -/
theorem load_reply {taskId now : String} {w : World} {state : TaskState}
    (h : ((checkTaskId taskId).bind fun _ =>
      match w.file with
      | none => .ok { taskId := taskId, updatedAt := now }
      | some state => if state.taskId ≠ taskId then .error (.valueError "task_state_id_mismatch") else .ok state) = .ok state) :
    checkTaskId taskId = .ok () ∧ state.taskId = taskId ∧
      (w.file = some state ∨ (w.file = none ∧ state.specFingerprint = .null)) := by
  obtain ⟨_, hsafe, h⟩ := bind_ok.1 h
  cases hf : w.file with
  | none =>
    simp only [hf] at h
    cases h
    exact ⟨hsafe, rfl, .inr ⟨rfl, rfl⟩⟩
  | some st =>
    simp only [hf] at h
    by_cases hne : st.taskId ≠ taskId
    · rw [if_pos hne] at h
      nomatch h
    · rw [if_neg hne] at h
      cases h
      exact ⟨hsafe, not_not.1 hne, .inl rfl⟩

/-- A run leaves the task bound as it was, or binds it to its own definition. -/
theorem run_kept (repr : Doc → String) {fp : String} (hfp : spec.fingerprint = .ok fp) {w : World} (hfirst : w.file = none → g = fp)
    (hk : Kept spec.taskId g present w) :
    (run repr spec actions context).Safe (Setting.alone (machine spec.taskId n (Item.saved n)) (Kept spec.taskId g present))
      (fun _ _ => True) (fun _ _ => True) w := by
  unfold run
  refine Prog.safe_bind_alone (Q := fun spec' u => spec' = spec ∧ spec.Valid ∧ u = w) hk (safe_unwrap fun _ h => ?_) ?_
  · exact ⟨(detach_ok h).1, (detach_ok h).2, rfl⟩
  rintro spec' u hk ⟨rfl, hv, rfl⟩
  refine Prog.safe_bind_alone (Q := fun _ t => t = u) hk (safe_unwrap fun _ _ => rfl) ?_
  rintro _ u hk rfl
  refine Prog.safe_bind_alone (Q := fun _ t => t = u) hk (Prog.safe_cmd_alone fun x rep t hm => ?_) ?_
  · cases x with
    | answer a => cases hm
    | _ =>
      cases hm
      exact ⟨hk, safe_unwrap fun _ _ => rfl⟩
  rintro _ u hk rfl
  unfold runLocked
  refine Prog.safe_bind_alone (Q := fun b t => t = u ∧ b = u.file.isSome) hk (Prog.safe_cmd_alone fun x rep t hm => ?_) ?_
  · cases x with
    | answer a => cases hm
    | fail e =>
      cases hm
      exact ⟨hk, safe_unwrap fun _ h => by cases h⟩
    | ok now =>
      cases hm
      refine ⟨hk, safe_unwrap fun b h => ⟨rfl, ?_⟩⟩
      cases hc : checkTaskId spec'.taskId with
      | ok _ =>
        rw [hc] at h
        exact (Except.ok.inj h).symm
      | error e =>
        rw [hc] at h
        cases h
  rintro existed u hk ⟨rfl, rfl⟩
  refine Prog.safe_bind_alone (Q := fun state t => t = u ∧ checkTaskId spec'.taskId = .ok () ∧ state.taskId = spec'.taskId ∧
    (u.file = some state ∨ (u.file = none ∧ state.specFingerprint = .null))) hk (Prog.safe_cmd_alone fun x rep t hm => ?_) ?_
  · cases x with
    | answer a => cases hm
    | fail e =>
      cases hm
      exact ⟨hk, safe_unwrap fun _ h => by cases h⟩
    | ok now =>
      obtain ⟨hr, rfl⟩ := Prod.mk.inj (Option.some.inj hm)
      refine ⟨hk, safe_unwrap fun state h => ⟨rfl, ?_⟩⟩
      exact load_reply (hr.trans h)
  rintro state u hk ⟨rfl, hsafe, hid, hfile⟩
  refine Prog.safe_bind_alone (Q := fun _ t => t = u) hk (safe_unwrap fun _ _ => rfl) ?_
  rintro _ u hk rfl
  refine Prog.safe_bind_alone (Q := fun fingerprint t => t = u ∧ fingerprint = fp) hk (safe_unwrap fun _ h => ⟨rfl, ?_⟩) ?_
  · exact Except.ok.inj (h.symm.trans hfp)
  rintro fingerprint u hk ⟨rfl, rfl⟩
  refine Prog.safe_bind_alone (Q := fun _ t => t = u) hk (safe_unwrap fun _ _ => rfl) ?_
  rintro _ u hk rfl
  refine Prog.safe_bind_alone (Q := fun _ t => t = u ∧ ¬(state.specFingerprint ≠ .null ∧ state.specFingerprint ≠ .str fingerprint)) hk
    (safe_unwrap fun _ h => ⟨rfl, raiseIf_ok.1 h⟩) ?_
  rintro _ u hk ⟨rfl, hchanged⟩
  rcases hfile with hfile | ⟨hfile, hnull⟩
  · -- the task exists: it is bound to this definition
    obtain ⟨hbound, -⟩ := hk.file state hfile
    have hg : spec'.fingerprint = .ok g := by
      have hsame : state.specFingerprint = .str fingerprint := by
        by_contra hne
        refine hchanged ⟨?_, hne⟩
        rw [hbound]
        rintro ⟨⟩
      rw [hbound] at hsame
      rw [hfp, Json.str.inj hsame]
    rw [hfile]
    exact resume_safe hv hg (by rw [hfile]; rfl) ⟨hbound, hid⟩ ⟨rfl, rfl, rfl⟩
  · -- the task is new: it is bound by its first write
    obtain rfl : g = fingerprint := hfirst hfile
    rw [hfile]
    have hstate : ({ state with specFingerprint := .str g } : TaskState).specFingerprint = .str g ∧ state.taskId = spec'.taskId := ⟨rfl, hid⟩
    refine Prog.safe_bind_alone (Q := fun state' t => t.file.isSome = true ∧ state' = { state with specFingerprint := .str g }) hk ?_ ?_
    · refine Prog.safe_cmd_alone fun x rep t hm => ?_
      cases x with
      | answer a => cases hm
      | fail e =>
        cases hm
        exact ⟨hk, fun _ _ _ => trivial⟩
      | ok now =>
        simp only [machine] at hm
        split at hm
        · obtain ⟨rfl, rfl⟩ := Prod.mk.inj (Option.some.inj hm)
          exact ⟨kept_some rfl hstate hsafe, fun t he _ => he ▸ ⟨rfl, rfl⟩⟩
        · cases hm
    · rintro _ w hk ⟨hw, rfl⟩
      exact resume_safe hv hfp hw hstate ⟨rfl, rfl, rfl⟩

end Run

/-- A reconciliation leaves the task bound as it was. -/
theorem reconcile_kept {taskId g : String} {present : Prop} {w : World} {n : ℕ} {mark : TaskState → Item} (r : Reconciliation)
    (hk : Kept taskId g present w) :
    (reconcileBlockedStep taskId r).Safe (Setting.alone (machine taskId n mark) (Kept taskId g present)) (fun _ _ => True)
      (fun _ _ => True) w := by
  refine (reconcile_effect (P := True) r (fun _ _ hf _ hk => hk.congr hf) ?_ hk)
  intro w old state resolution now hk _ _ _ hold _ _ _ hstate _
  obtain ⟨arts, rfl⟩ := foldlM_updates_ok hstate
  have hfixed : ∀ s : TaskState, (resolve r.stepId resolution s).specFingerprint = s.specFingerprint ∧
      (resolve r.stepId resolution s).taskId = s.taskId := by
    intro s
    cases resolution <;> exact ⟨rfl, rfl⟩
  obtain ⟨hbound, hid⟩ := hk.file old hold
  refine ⟨kept_some rfl ⟨(hfixed _).1.trans hbound, (hfixed _).2.trans hid⟩ (hk.safe (by rw [hold]; rfl)), trivial⟩

/-- A reconciliation writes no new task. -/
theorem reconcile_absent {taskId : String} {w : World} {n : ℕ} {mark : TaskState → Item} (r : Reconciliation) (hw : w.file = none) :
    (reconcileBlockedStep taskId r).Safe (Setting.alone (machine taskId n mark) fun w => w.file = none) (fun _ _ => True)
      (fun _ _ => True) w := by
  refine (reconcile_effect (P := True) r (fun _ _ hf _ hk => hf.trans hk) ?_ hw)
  intro w old state resolution now hk _ _ _ hold
  rw [hk] at hold
  nomatch hold

/-! ## Histories -/

open TaskSpec (Definition)

/-- What holds of a task at every point of its history: the state in its file, where there is one, is bound to the definition that was bound
first. -/
structure BoundInv (taskId : String) (b : Bound) : Prop where
  exists_iff : b.first = none ↔ b.world.file = none
  kept : ∀ d, b.first = some d → Kept taskId (TaskSpec.digest d.spec.encoded) True b.world

section Bind

variable (repr : Doc → String) {taskId : String} {b : Bound}

/-- Where a definition is bound, every operation leaves the task bound to it. -/
theorem exec_kept {g : String} (op : TaskOp taskId) {w : World} (hk : Kept taskId g True w) : Kept taskId g True (op.exec repr w) := by
  cases op with
  | run d task actions context choices =>
    cases task
    have habsent : w.file = none → g = TaskSpec.digest d.spec.encoded := by
      intro hf
      have hpresent := hk.present trivial
      rw [hf] at hpresent
      nomatch hpresent
    exact Kept.congr (Prog.exec_inv_alone choices hk (run_kept repr d.fingerprint_eq habsent hk)) rfl
  | reconcile r choices => exact Kept.congr (Prog.exec_inv_alone choices hk (reconcile_kept r hk)) rfl

/-- Where none is, a run binds its own. -/
theorem exec_first (op : TaskOp taskId) {w : World} (hw : w.file = none) :
    ((op.exec repr w).file = none) ∨
      ∃ d, op.definition = some d ∧ Kept taskId (TaskSpec.digest d.spec.encoded) True (op.exec repr w) := by
  cases op with
  | run d task actions context choices =>
    cases task
    have hk : Kept d.spec.taskId (TaskSpec.digest d.spec.encoded) False w := by
      refine ⟨?_, ?_, nofun⟩ <;> simp [hw]
    have hkept : Kept d.spec.taskId (TaskSpec.digest d.spec.encoded) False
        ((TaskOp.run d rfl actions context choices : TaskOp d.spec.taskId).exec repr w) :=
      Kept.congr (Prog.exec_inv_alone choices hk (run_kept repr d.fingerprint_eq (fun _ => rfl) hk)) rfl
    by_cases hf : ((TaskOp.run d rfl actions context choices).exec repr w).file = none
    · exact .inl hf
    · exact .inr ⟨d, rfl, hkept.file, hkept.safe, fun _ => Option.isSome_iff_ne_none.2 hf⟩
  | reconcile r choices =>
    refine .inl ?_
    exact Prog.exec_inv_alone (I := fun v : World => v.file = none) (s := w) choices hw (reconcile_absent r hw)

theorem bind_inv (h : BoundInv taskId b) (op : TaskOp taskId) : BoundInv taskId (op.bind repr b) := by
  cases hfirst : b.first with
  | some d₀ =>
    have hk := exec_kept repr op (h.kept d₀ hfirst)
    have hbind : (op.bind repr b).first = some d₀ := by rw [TaskOp.bind, hfirst, Option.some_or]
    refine ⟨?_, ?_⟩
    · rw [hbind]
      refine ⟨nofun, fun hf => ?_⟩
      have hpresent := hk.present trivial
      rw [show (op.exec repr b.world).file = none from hf] at hpresent
      nomatch hpresent
    · intro d hd
      rw [hbind] at hd
      cases hd
      exact hk
  | none =>
    rcases exec_first repr op (h.exists_iff.1 hfirst) with hf | ⟨d, hd, hk⟩
    · have hbind : (op.bind repr b).first = none := by
        rw [TaskOp.bind, hfirst, hf]
        rfl
      refine ⟨iff_of_true hbind hf, fun d hd => ?_⟩
      rw [hbind] at hd
      nomatch hd
    · have hpresent := hk.present trivial
      have hbind : (op.bind repr b).first = some d := by
        rw [TaskOp.bind, hfirst, hpresent, hd]
        rfl
      refine ⟨?_, ?_⟩
      · rw [hbind]
        refine ⟨nofun, fun hf => ?_⟩
        rw [show (op.exec repr b.world).file = none from hf] at hpresent
        nomatch hpresent
      · intro d' hd'
        rw [hbind] at hd'
        cases hd'
        exact hk

end Bind

theorem taskHistory_inv (repr : Doc → String) {taskId : String} (ops : List (TaskOp taskId)) : BoundInv taskId (taskHistory repr ops) := by
  unfold taskHistory
  induction ops using List.reverseRecOn with
  | nil => exact ⟨by constructor <;> (intro; rfl), nofun⟩
  | append_singleton ops op ih =>
    rw [List.foldl_append]
    exact bind_inv repr ih op

end FileStore

end Keirin

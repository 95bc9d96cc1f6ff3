import Keirin.Lemmas.SyntheticSession

/-!
# The file of a session survives

Whatever operations fail, and wherever a process stops, the file opens again as the session of the last replacement, and a save that finds
other bytes than the store last read or wrote replaces nothing. A store that failed in an operation saves no more, unless what failed is
only the removal of the temporary file.
-/

namespace Keirin.SyntheticSession

open Json (Same)

section Runs

variable (wide : Encoding → List ℕ → Except PyError String) (dateError : String → String)

/-- Opening the file gives the session that is known. -/
def Reopens (known : Option Doc) (file : Option Entry) : Prop :=
  ∃ store loaded, openStore wide dateError file = .ok (store, loaded) ∧ Option.Rel Same known loaded

/-- The file opens again as what is known of it, and no save replaces a file that is not as the store last read or wrote it. -/
structure Durable (w : World) : Prop where
  reopens : ∀ known, w.known = some known → Reopens wide dateError known w.disk.file
  guarded : ∀ store, w.store = some store → readOf w.disk.file ≠ .ok w.seen → ∀ payload name faults steps,
    (carryOut dateError store payload name faults steps w.disk).1.replaced = false ∧
      (carryOut dateError store payload name faults steps w.disk).1.disk.file = w.disk.file

/-- Every save of a store that failed in an operation is refused. -/
def Refuses (w : World) : Prop :=
  ∀ store, w.store = some store → w.faulted = true → ∀ payload name,
    save dateError store payload name = .ret (store, .error (.sessionSaveError "session_restart_required"))

/-- Whether the removal of the temporary file fails only where another operation failed before. -/
def Event.Cleaned : Event → Prop
  | .save _ _ faults _ => SyntheticSession.Cleaned faults
  | _ => True

variable {wide dateError}

variable (dateError) in
/-- What a save leaves, wherever it is cut off. -/
theorem carryOut_spec (store : SessionStore) (payload : Doc) (name : String) (faults : Faults) (steps : ℕ) (disk : Disk) :
    Kept dateError store payload disk.file (carryOut dateError store payload name faults steps disk).1 ∧
      ∀ ending, (carryOut dateError store payload name faults steps disk).2 = .ret ending →
        Ended faults store ending (carryOut dateError store payload name faults steps disk).1 := by
  have hkept : Kept dateError store payload disk.file ⟨disk, false, false⟩ := ⟨fun _ => rfl, fun h => by cases h⟩
  have hstart : Through faults name [] none false ⟨disk, false, false⟩ :=
    ⟨fun _ h => absurd h List.not_mem_nil, rfl, rfl, fun _ h => by cases h⟩
  obtain ⟨hinv, hrest⟩ := (safe_save hkept hstart).exec (fun _ => rfl) (List.replicate steps ()) hkept
  refine ⟨hinv, fun ending hret => ?_⟩
  have hsafe : (carryOut dateError store payload name faults steps disk).2.Safe (Setting.alone (machine faults)
      (Kept dateError store payload disk.file)) (Ended faults store) (fun _ _ => True)
      (carryOut dateError store payload name faults steps disk).1 := hrest
  rw [hret] at hsafe
  exact hsafe _ rfl hinv

/-! ## One step -/

/-- What is known of the file and of the store. -/
structure Sound (wide : Encoding → List ℕ → Except PyError String) (dateError : String → String) (w : World) : Prop where
  reopens : ∀ known, w.known = some known → Reopens wide dateError known w.disk.file
  expected : ∀ store, w.store = some store → store.failed = false → store.expected = w.seen

/-- A store that has not failed had no operation fail. -/
def Fenced (w : World) : Prop := ∀ store, w.store = some store → store.failed = false → w.faulted = false

theorem reopens_saved {payload : Payload} {data : List ℕ} (h : encode dateError payload.doc = .ok data) :
    Reopens wide dateError (some payload.doc) (some (.plain data 1)) := by
  obtain ⟨-, hlength, -⟩ := exists_of_encode h
  have hread : readOf (some (.plain data 1)) = .ok (some data) := if_neg (by omega)
  refine ⟨⟨false, some data⟩, some payload.doc.sortKeys, ?_, .some (Json.same_sortKeys payload.doc).symm⟩
  unfold openStore
  exact bind_ok.2 ⟨some data, hread, bind_ok.2 ⟨_, payloadOf_encode wide payload.once h, rfl⟩⟩

theorem exists_of_value {p : SaveProg Empty Ending} {store : SessionStore} (h : p.value?.map Prod.fst = some store) :
    ∃ ending, p = .ret ending ∧ ending.1 = store := by
  cases p with
  | ret ending => exact ⟨ending, rfl, Option.some.inj h⟩
  | raise e => cases h
  | cmd c k => cases h

theorem sound_step {w : World} (h : Sound wide dateError w) (event : Event) : Sound wide dateError (step wide dateError w event) := by
  cases event with
  | start =>
    unfold step
    cases hopen : openStore wide dateError w.disk.file with
    | error e => exact ⟨h.reopens, fun store hstore => by cases hstore⟩
    | ok opened =>
      refine ⟨fun known hknown => ?_, fun store hstore _ => ?_⟩
      · cases hknown
        refine ⟨opened.1, opened.2, hopen, ?_⟩
        cases opened.2 with
        | none => exact .none
        | some doc => exact .some (Same.refl doc)
      · cases hstore
        rfl
  | outside file => exact ⟨fun known hknown => (by cases hknown), h.expected⟩
  | save payload name faults steps =>
    unfold step
    cases hstore : w.store with
    | none =>
      exact h
    | some store =>
      obtain ⟨hkept, hended⟩ := carryOut_spec dateError store payload.doc name faults steps w.disk
      simp only
      cases hreplaced : (carryOut dateError store payload.doc name faults steps w.disk).1.replaced with
      | false =>
        refine ⟨fun known hknown => ?_, fun store' hstore' hfailed => ?_⟩
        · show Reopens wide dateError known _
          rw [hkept.before hreplaced]
          exact h.reopens known hknown
        · obtain ⟨ending, hret, rfl⟩ := exists_of_value hstore'
          have hend := hended ending hret
          rw [hend.expected hfailed, hreplaced]
          exact h.expected store hstore (hend.before hfailed)
      | true =>
        obtain ⟨-, -, data, hencode, hfile⟩ := hkept.after hreplaced
        refine ⟨fun known hknown => ?_, fun store' hstore' hfailed => ?_⟩
        · cases hknown
          show Reopens wide dateError _ _
          rw [hfile]
          exact reopens_saved hencode
        · obtain ⟨ending, hret, rfl⟩ := exists_of_value hstore'
          rw [(hended ending hret).expected hfailed, hreplaced]
          rfl

theorem fenced_step {w : World} (h : Fenced w) {event : Event} (hcleaned : event.Cleaned) : Fenced (step wide dateError w event) := by
  cases event with
  | start =>
    unfold step
    cases openStore wide dateError w.disk.file with
    | error e => exact fun store hstore => by cases hstore
    | ok opened => exact fun _ _ _ => rfl
  | outside file => exact h
  | save payload name faults steps =>
    unfold step
    cases hstore : w.store with
    | none =>
      exact h
    | some store =>
      intro store' hstore' hfailed
      obtain ⟨ending, hret, rfl⟩ := exists_of_value hstore'
      have hend := (carryOut_spec dateError store payload.doc name faults steps w.disk).2 ending hret
      show (w.faulted || _) = false
      rw [h store hstore (hend.before hfailed), hend.clear hfailed hcleaned]
      rfl

/-! ## Runs -/

theorem durable_of_sound {w : World} (h : Sound wide dateError w) : Durable wide dateError w := by
  refine ⟨h.reopens, fun store hstore hother payload name faults steps => ?_⟩
  obtain ⟨hkept, -⟩ := carryOut_spec dateError store payload name faults steps w.disk
  cases hreplaced : (carryOut dateError store payload name faults steps w.disk).1.replaced with
  | false => exact ⟨rfl, hkept.before hreplaced⟩
  | true =>
    obtain ⟨hfailed, hread, -⟩ := hkept.after hreplaced
    rw [h.expected store hstore hfailed] at hread
    exact absurd hread hother

theorem refuses_of_fenced {w : World} (h : Fenced w) : Refuses dateError w := by
  intro store hstore hfaulted payload name
  cases hfailed : store.failed with
  | true =>
    unfold save
    rw [if_pos hfailed]
  | false =>
    rw [h store hstore hfailed] at hfaulted
    cases hfaulted

/-- In every run of openings, saves that are struck or stopped anywhere, and changes by others, the file opens again as the session of the
last replacement, and no save replaces a file that is not as the store last read or wrote it. Where the removal of a temporary file fails
only after another operation of its save, every save of a store that failed is refused. -/
theorem session_durable (wide : Encoding → List ℕ → Except PyError String) (dateError : String → String) (disk : Disk) (events : List Event) :
    Durable wide dateError (run wide dateError disk events) ∧
      ((∀ event ∈ events, event.Cleaned) → Refuses dateError (run wide dateError disk events)) := by
  have hsound : ∀ (events : List Event) (w : World), Sound wide dateError w →
      Sound wide dateError (events.foldl (step wide dateError) w) := by
    intro events
    induction events with
    | nil => exact fun _ h => h
    | cons event events ih => exact fun w h => ih _ (sound_step h event)
  have hfenced : ∀ (events : List Event) (w : World), (∀ event ∈ events, event.Cleaned) → Fenced w →
      Fenced (events.foldl (step wide dateError) w) := by
    intro events
    induction events with
    | nil => exact fun _ _ h => h
    | cons event events ih =>
      intro w hcleaned h
      rw [List.forall_mem_cons] at hcleaned
      exact ih _ hcleaned.2 (fenced_step h hcleaned.1)
  have hstart : Sound wide dateError ⟨disk, none, none, none, false⟩ := ⟨fun _ h => (by cases h), fun _ h => (by cases h)⟩
  exact ⟨durable_of_sound (hsound events _ hstart), fun hcleaned => refuses_of_fenced (hfenced events _ hcleaned fun _ h => by cases h)⟩

end Runs

/-! ## A removal that fails -/

/-- A session without snapshots. -/
def emptySession : Payload where
  doc := .obj [("schema_version", .str SCHEMA), ("synthetic_only", .bool true), ("scheduled", .str "2026-01-02T12:00:00+09:00"),
    ("series", .num (.int 0)), ("snapshots", .obj []), ("histories", .obj []), ("current", .null)]
  once := by decide

/-- Only the removal of the temporary file fails. -/
def unremoved : Faults := fun stage => if stage = .unlink then some 0 else none

/-- A save whose temporary file cannot be looked for after it took the place of the file. -/
def unremovedRun : World :=
  run (fun _ _ => .error (.valueError "")) (fun _ => "") ⟨none, []⟩ [.start, .save emptySession "a" unremoved 9]

theorem failed_of_refused {dateError : String → String} {store : SessionStore} {payload : Doc} {name : String}
    (h : save dateError store payload name = .ret (store, .error (.sessionSaveError "session_restart_required"))) : store.failed = true := by
  by_contra hfailed
  unfold save at h
  rw [if_neg hfailed] at h
  cases hencode : encode dateError payload with
  | error exc =>
    rw [hencode] at h
    cases h
  | ok data =>
    rw [hencode] at h
    cases h

/-- The removal fails with an error after the file was replaced: the save raises it, and the store goes on saving. -/
theorem unremoved_not_refused : (∃ store, unremovedRun.store = some store ∧ store.failed = false) ∧ unremovedRun.faulted = true ∧
    ¬Refuses (fun _ => "") unremovedRun := by
  have hrun : (unremovedRun.store.any fun store => !store.failed) = true ∧ unremovedRun.faulted = true := by decide +kernel
  obtain ⟨store, hstore, hfailed⟩ := (Option.any_eq_true _ _).1 hrun.1
  rw [Bool.not_eq_true'] at hfailed
  refine ⟨⟨store, hstore, hfailed⟩, hrun.2, fun hrefuses => ?_⟩
  have hrefused := failed_of_refused (hrefuses store hstore hrun.2 emptySession.doc "b")
  rw [hfailed] at hrefused
  cases hrefused

end Keirin.SyntheticSession

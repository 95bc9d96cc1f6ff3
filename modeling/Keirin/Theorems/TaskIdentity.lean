import Keirin.Lemmas.TaskIdentity

/-!
# The identity of a task

A definition comes back from its JSON text as it was, its fingerprint determines it up to the order of its keys, and a task goes on with
the definition it was first bound to only.
-/

namespace Keirin

open FileStore
open TaskSpec (Definition Collide Same)

namespace TaskSpec

variable (repr : Doc → String)

theorem fromDict_definition (d : Definition) : fromDict repr d.spec.fields = .ok d.spec := by
  rw [fromDict_fields, d.valid]
  rfl

/-- A definition is the one read back from its text. -/
theorem reread_definition (d : Definition) : reread repr d.spec = .ok d.spec := by
  unfold reread
  rw [roundTrip_ok d.encodable d.finite d.keysOnce]
  exact fromDict_definition repr d

/-- A run detaches a definition by the round trip of its text. -/
theorem detach_eq_reread (d : Definition) : Runner.detach repr d.spec = reread repr d.spec := by
  unfold Runner.detach
  rw [d.encodable, d.finite, reread_definition]
  exact fromDict_definition repr d

end TaskSpec

namespace FileStore

variable {repr : Doc → String} {now : String} {w : World} {state : TaskState} {d : Definition} {actions : List String}
  {context : Dict Doc}

theorem exec_exists {α : Type} {taskId : String} {n : ℕ} {mark : TaskState → Item} {xs : List Choice} {f : Bool → RunProg α}
    (h : checkTaskId taskId = .ok ()) : (Runner.exists >>= f).exec (machine taskId n mark) (.ok now :: xs) w =
      (f w.file.isSome).exec (machine taskId n mark) xs w := by
  change (Runner.unwrap ((checkTaskId taskId).map fun _ => w.file.isSome) >>= f).exec _ xs w = _
  rw [h]
  rfl

/-- What is left of a run that finds a state of its task: it compares the fingerprints, and nothing else of the definition. -/
theorem loaded_eq {g : String} (hf : w.file = some state) (hid : state.taskId = d.spec.taskId)
    (hsafe : checkTaskId d.spec.taskId = .ok ()) (hbound : state.specFingerprint = .str g) :
    loaded repr w d actions context now =
      if g = TaskSpec.digest d.spec.encoded then Runner.resume d.spec actions context state
      else .raise (.valueError "task_spec_changed") := by
  unfold loaded Runner.run
  rw [TaskSpec.detach_eq_reread, TaskSpec.reread_definition]
  change ((Runner.unwrap d.spec.validate >>= _).exec _ _ _).2 = _
  rw [d.valid]
  change ((Runner.lock >>= fun _ => Runner.runLocked d.spec actions context).exec _ _ _).2 = _
  rw [exec_lock hsafe]
  unfold Runner.runLocked
  rw [exec_exists hsafe, exec_load hsafe hf hid, hf]
  rw [raiseIf_neg (not_not.2 hid), d.fingerprint_eq, raiseIf_neg (by rw [hbound]; exact fun h => nomatch h.2)]
  change (Prog.exec _ [] w (Runner.unwrap (raiseIf
    (state.specFingerprint ≠ .null ∧ state.specFingerprint ≠ .str (TaskSpec.digest d.spec.encoded)) (.valueError "task_spec_changed")) >>=
    fun _ => Runner.resume d.spec actions context state)).2 = _
  by_cases hg : g = TaskSpec.digest d.spec.encoded
  · have hsame : ¬(state.specFingerprint ≠ .null ∧ state.specFingerprint ≠ .str (TaskSpec.digest d.spec.encoded)) := by
      rw [hbound, hg]
      exact fun h => h.2 rfl
    rw [if_pos hg, raiseIf_neg hsame]
    rfl
  · have hchanged : state.specFingerprint ≠ .null ∧ state.specFingerprint ≠ .str (TaskSpec.digest d.spec.encoded) := by
      rw [hbound]
      exact ⟨nofun, fun h => hg (Json.str.inj h)⟩
    rw [if_neg hg, raiseIf_pos hchanged]
    rfl

/-- A run that goes on issues a command. -/
theorem resume_ne_raise (spec : TaskSpec) (e : PyError) : Runner.resume spec actions context state ≠ .raise e := by
  unfold Runner.resume
  split
  · exact nofun
  · split
    · exact nofun
    · exact nofun

/-- The fingerprints of a bound task's definition and of another agree where the definitions are the same. -/
theorem loaded_iff {first : Definition} (hk : Kept d.spec.taskId (TaskSpec.digest first.spec.encoded) True w)
    (hcollide : ¬Collide first.spec d.spec) :
    loaded repr w d actions context now = .raise (.valueError "task_spec_changed") ↔ ¬Same first.spec d.spec := by
  obtain ⟨state, hf⟩ := Option.isSome_iff_exists.1 (hk.present trivial)
  obtain ⟨hbound, hid⟩ := hk.file state hf
  rw [loaded_eq hf hid (hk.safe (hk.present trivial)) hbound]
  split
  · rename_i hg
    exact iff_of_false (resume_ne_raise d.spec _) (not_not.2 ((TaskSpec.digest_eq_iff hcollide).1 hg))
  · rename_i hg
    exact iff_of_true rfl fun hsame => hg ((TaskSpec.digest_eq_iff hcollide).2 hsame)

end FileStore

/-- A definition comes back from its fields and from its text as it was; two of them have one fingerprint where they are equal up to the
order of their keys; and a run of a task that exists, its definition bound by an earlier run, is refused for a changed definition where the
definitions differ. -/
theorem task_identity (repr : Doc → String) :
    (∀ d : Definition, (∃ e, TaskSpec.fromDict repr d.spec.fields = .ok e ∧ e.toDict = d.spec.toDict) ∧
      ∃ e, TaskSpec.reread repr d.spec = .ok e ∧ e.fingerprint = d.spec.fingerprint) ∧
    (∀ s t : Definition, Collide s.spec t.spec ∨ (s.spec.fingerprint = t.spec.fingerprint ↔ Same s.spec t.spec)) ∧
    ∀ (d : Definition) (ops : List (TaskOp d.spec.taskId)) (actions : List String) (context : Dict Doc) (now : String),
      match (taskHistory repr ops).first with
      | none => (taskHistory repr ops).world.file = none
      | some first => Collide first.spec d.spec ∨
          (loaded repr (taskHistory repr ops).world d actions context now = .raise (.valueError "task_spec_changed") ↔
            ¬Same first.spec d.spec) := by
  refine ⟨fun d => ⟨⟨d.spec, TaskSpec.fromDict_definition repr d, rfl⟩, d.spec, TaskSpec.reread_definition repr d, rfl⟩, ?_, ?_⟩
  · intro s t
    refine or_iff_not_imp_left.2 fun hcollide => ?_
    rw [s.fingerprint_eq, t.fingerprint_eq, Except.ok.injEq]
    exact TaskSpec.digest_eq_iff hcollide
  · intro d ops actions context now
    have hinv := taskHistory_inv repr ops
    split
    · rename_i hfirst
      exact hinv.exists_iff.1 hfirst
    · rename_i first hfirst
      exact or_iff_not_imp_left.2 (loaded_iff (hinv.kept first hfirst))

/-- A definition of one step. -/
example : ∃ d : Definition, d.spec.taskId = "a" := by
  refine ⟨⟨⟨"a", "b", "c", ["d"], [⟨"e", "d", [], none, false, 1⟩], [("f", .num (.int 1))], [], TASK_SCHEMA_VERSION⟩, ?_, ?_, ?_, ?_⟩, rfl⟩ <;>
    decide

end Keirin

import Keirin.CredentialAdapter
import Keirin.Lemmas.FileStore

/-!
# Where the texts of artifacts come from

The texts of the artifacts the runner saves, and of the messages of completed steps, are those of the state it loaded and of the
results of its actions: what is true of these texts is true of those, along every history of a task (`history_within`).
-/

namespace Keirin

open Runner

/-! ## Texts of documents -/

section Texts

variable {P : String → Prop}

theorem textsFields_forall (fs : List (String × Doc)) :
    (∀ t ∈ Doc.textsFields fs, P t) ↔ ∀ f ∈ fs, P f.1 ∧ ∀ t ∈ Doc.texts f.2, P t := by
  induction fs with
  | nil => simp [Doc.textsFields]
  | cons f fs ih => simp only [Doc.textsFields, List.forall_mem_cons, List.forall_mem_append, ih, and_assoc]

/-- Setting the keys of one dict in another brings no other texts. -/
theorem textsFields_update {d e : Dict Doc} (hd : ∀ t ∈ Doc.textsFields d, P t) (he : ∀ t ∈ Doc.textsFields e, P t) :
    ∀ t ∈ Doc.textsFields (Dict.update d e), P t := by
  rw [textsFields_forall] at hd he ⊢
  induction e generalizing d with
  | nil => exact hd
  | cons kv e ih =>
    obtain ⟨hkv, he⟩ := List.forall_mem_cons.1 he
    refine ih (fun f hf => ?_) he
    rcases mem_set hf with rfl | hf
    · exact hkv
    · exact hd f hf

/-- What is read as a dict has the texts of its pairs. -/
theorem toDict_texts {md : Doc} {kvs : Dict Doc} (h : Doc.toDict md = .ok kvs) (hmd : ∀ t ∈ metadataTexts md, P t) :
    ∀ t ∈ Doc.textsFields kvs, P t := by
  cases md with
  | obj fs =>
    cases h
    exact hmd
  | arr xs =>
    simp only [Doc.toDict] at h
    simp only [metadataTexts] at hmd
    cases hm : xs.mapM Doc.toPair with
    | error e =>
      rw [hm] at h
      nomatch h
    | ok ps =>
      rw [hm] at h hmd
      cases h
      exact textsFields_update (fun t ht => nomatch ht) hmd
  | str s =>
    simp only [Doc.toDict] at h
    split_ifs at h
    cases h
    exact fun t ht => nomatch ht
  | null => nomatch h
  | bool b => nomatch h
  | num n => nomatch h

end Texts

/-! ## Artifacts -/

/-- The texts of the artifacts of a state satisfy `P`. -/
def TaskState.Within (P : String → Prop) (state : TaskState) : Prop := ∀ a ∈ state.artifacts, ∀ t ∈ artifactTexts a, P t

/-- The texts an answer brings satisfy `P`. -/
def AnswerWithin (P : String → Prop) (answer : Except ActionExc Returned) : Prop :=
  ∀ r, answer.bind normaliseActionResult = .ok r → ∀ t ∈ r.texts, P t

section Artifacts

variable {P : String → Prop}

/-- Merging metadata brings the texts of both. -/
theorem mergeMetadata_within {old md merged : Doc} (h : ArtifactState.mergeMetadata old md = .ok merged)
    (hold : ∀ t ∈ Doc.texts old, P t) (hmd : ∀ t ∈ metadataTexts md, P t) : ∀ t ∈ Doc.texts merged, P t := by
  unfold ArtifactState.mergeMetadata at h
  split_ifs at h
  · cases old with
    | obj fs =>
      cases hd : Doc.toDict md with
      | error e =>
        rw [hd] at h
        nomatch h
      | ok kvs =>
        rw [hd] at h
        cases h
        exact textsFields_update hold (toDict_texts hd hmd)
    | _ => nomatch h
  · cases h
    exact hold

theorem merge_within {a a' : ArtifactState} {u : ArtifactUpdate} {key : String} (h : a.merge u = .ok a')
    (ha : ∀ t ∈ artifactTexts (key, a), P t) (hu : ∀ t ∈ u.texts, P t) : ∀ t ∈ artifactTexts (key, a'), P t := by
  simp only [ArtifactState.merge, raiseIf_bind_ok] at h
  obtain ⟨-, h⟩ := h
  obtain ⟨md, hmd, h⟩ := bind_ok.1 h
  cases h
  simp only [artifactTexts, ArtifactUpdate.texts, List.forall_mem_cons, List.forall_mem_append] at ha hu ⊢
  obtain ⟨hkey, ⟨⟨hid, hkind⟩, hloc⟩, hold⟩ := ha
  refine ⟨hkey, ⟨⟨hid, hkind⟩, ?_⟩, mergeMetadata_within hmd hold hu.2⟩
  split_ifs
  · exact hloc
  · exact hu.1.2

theorem applyArtifactUpdate_within {state state' : TaskState} {item : ArtifactItem}
    (h : applyArtifactUpdate state item = .ok state') (hs : state.Within P) (hitem : ∀ t ∈ item.texts, P t) : state'.Within P := by
  cases item with
  | update u =>
    simp only [applyArtifactUpdate] at h
    obtain ⟨-, -, h⟩ := bind_ok.1 h
    split at h
    · rename_i key hkey
      obtain ⟨merged, hm, h⟩ := bind_ok.1 h
      cases h
      intro a ha
      rcases mem_set ha with rfl | ha
      · refine merge_within hm ?_ hitem
        cases hg : Dict.get? key state.artifacts with
        | none =>
          have hu : ∀ t ∈ u.texts, P t := hitem
          simp only [ArtifactUpdate.texts, List.forall_mem_append, hkey, Doc.texts, List.forall_mem_cons] at hu
          simp only [artifactTexts, Option.getD_none, List.forall_mem_cons, List.forall_mem_append, hkey, Doc.texts,
            Doc.textsFields, List.not_mem_nil, false_implies, implies_true, and_true]
          exact ⟨hu.1.1.1.1, hu.1.1.1.1, hu.1.1.2⟩
        | some b => exact hs (key, b) (Dict.mem_of_get? hg)
      · exact hs a ha
    · cases h
  | mapping fields => cases h
  | other => cases h

theorem foldlM_within {items : List ArtifactItem} {state state' : TaskState} (h : items.foldlM applyArtifactUpdate state = .ok state')
    (hs : state.Within P) (hitems : ∀ item ∈ items, ∀ t ∈ item.texts, P t) : state'.Within P := by
  induction items generalizing state with
  | nil =>
    cases h
    exact hs
  | cons item items ih =>
    obtain ⟨hitem, hitems⟩ := List.forall_mem_cons.1 hitems
    rw [List.foldlM_cons] at h
    obtain ⟨s, h₁, h⟩ := bind_ok.1 h
    exact ih h (applyArtifactUpdate_within h₁ hs hitem) hitems

theorem applyArtifacts_within {state state' : TaskState} {r : ActionResult} (h : applyArtifacts state r.artifacts = .ok state')
    (hs : state.Within P) (hr : ∀ t ∈ r.texts, P t) : state'.Within P := by
  simp only [applyArtifacts] at h
  obtain ⟨s, hf, h⟩ := bind_ok.1 h
  have hs' : s.Within P := foldlM_within hf hs fun item hitem t ht =>
    hr t (List.mem_append_right _ (List.mem_flatMap.2 ⟨item, hitem, ht⟩))
  split at h
  · cases h
  · cases h
    exact hs'

end Artifacts

/-! ## The discipline -/

/-- Saves and messages of completed steps have texts of `P` only, as long as what is loaded and what actions answer has. -/
def textDiscipline (P : String → Prop) : Discipline Prop RunnerCmd RunnerCmd.Reply where
  next g
    | .load, .ok state => g ∧ state.Within P
    | .await c, answer => g ∧ (c.phase = .action → AnswerWithin P answer)
    | _, _ => g
  allowed g
    | .save state => g → state.Within P
    | .event e => g → e.eventType = "step_completed" → ∀ t ∈ Doc.texts e.message, P t
    | _ => True

section Run

variable {P : String → Prop} {g : Prop} {spec : TaskSpec} {actions : List String} {context : Dict Doc} {step : StepSpec}

/-- What is known of a state the runner works on. -/
def StateTexts (P : String → Prop) (state : TaskState) (g : Prop) : Prop := g → state.Within P

theorem texts_unwrap {α : Type} (x : Except PyError α) : (unwrap x).Follows (textDiscipline P) (fun a g' => g' = g ∧ x = .ok a) g := by
  cases x with
  | ok a => exact ⟨rfl, rfl⟩
  | error e => trivial

theorem texts_save {state : TaskState} (h : StateTexts P state g) :
    (saveState state).Follows (textDiscipline P) (fun _ g' => g' = g) g := by
  refine ⟨h, fun r _ => ?_⟩
  cases r with
  | ok u => rfl
  | error e => trivial

/-- An event of another type. -/
theorem texts_event {eventType : String} (h : eventType ≠ "step_completed") (taskId : String) (message : Doc)
    (stepId : Option String) (data : Dict Doc) :
    (appendEvent taskId eventType message stepId data).Follows (textDiscipline P) (fun _ g' => g' = g) g := by
  refine ⟨fun _ he => absurd he h, fun r _ => ?_⟩
  cases r with
  | ok u => rfl
  | error e => trivial

/-- The event of a completed step. -/
theorem texts_completed {message : Doc} (h : g → ∀ t ∈ Doc.texts message, P t) (taskId eventType : String)
    (stepId : Option String) (data : Dict Doc) :
    (appendEvent taskId eventType message stepId data).Follows (textDiscipline P) (fun _ g' => g' = g) g := by
  refine ⟨fun hg _ => h hg, fun r _ => ?_⟩
  cases r with
  | ok u => rfl
  | error e => trivial

theorem texts_block {state : TaskState} (h : StateTexts P state g) (reason : String) (step : Option StepSpec) (error : Option String) :
    (block state reason step error).Follows (textDiscipline P) (StateTexts P) g := by
  unfold block
  refine (texts_save h).bind ?_
  rintro _ _ rfl
  refine (texts_event (by decide) _ _ _ _).bind ?_
  rintro _ _ rfl
  exact h

/-- After a call its answer is known as well. -/
theorem texts_call (c : ActionCall) : (call c).Follows (textDiscipline P)
    (fun answer g' => (g' → g) ∧ (g' → c.phase = .action → AnswerWithin P answer)) g :=
  ⟨trivial, fun _ _ => ⟨trivial, fun _ _ => ⟨And.left, And.right⟩⟩⟩

/-! ## Steps -/

/-- What is known when the attempts of a step have ended. -/
def AttemptTexts (P : String → Prop) : AttemptResult → Prop → Prop
  | .done state result, g => StateTexts P state g ∧ (g → ∀ t ∈ result.texts, P t)
  | .stop _, _ => True

/-- What is known when a step has ended: no less than before, and of its state. -/
def StepTexts (P : String → Prop) (g : Prop) : StepResult → Prop → Prop
  | .next state, g' => (g' → g) ∧ StateTexts P state g'
  | .stop _, _ => True

theorem texts_attemptFailed {state : TaskState} (h : StateTexts P state g) (attempt : Int) (error : String)
    {retry : TaskState → RunProg AttemptResult}
    (hretry : ∀ s, StateTexts P s g → (retry s).Follows (textDiscipline P) (AttemptTexts P) g) :
    (attemptFailed spec step attempt error state retry).Follows (textDiscipline P) (AttemptTexts P) g := by
  unfold attemptFailed
  refine (texts_event (by decide) _ _ _ _).bind ?_
  rintro _ _ rfl
  split_ifs
  · exact (texts_block h _ _ _).bind fun _ _ _ => trivial
  · refine (texts_save h).bind ?_
    rintro _ _ rfl
    exact (texts_event (by decide) _ _ _ _).bind fun _ _ _ => trivial
  · exact hretry _ h

/-- What comes after the call of an action. -/
theorem texts_answered {state : TaskState} {answer : Except ActionExc Returned} (h : StateTexts P state g)
    (hanswer : g → AnswerWithin P answer) (attempt : Int) {retry : TaskState → RunProg AttemptResult}
    (hretry : ∀ s, StateTexts P s g → (retry s).Follows (textDiscipline P) (AttemptTexts P) g) :
    Prog.Follows (textDiscipline P) (AttemptTexts P)
      (match answer.bind normaliseActionResult with
        | .ok result => pure (.done state result)
        | .error (.blocked message) =>
          block state s!"action_blocked:{message}" (some step) none >>= fun s => pure (.stop s)
        | .error exc => attemptFailed spec step attempt (persistentError exc false) state retry) g := by
  cases hr : answer.bind normaliseActionResult with
  | ok result => exact ⟨h, fun hg => hanswer hg result hr⟩
  | error exc =>
    cases exc with
    | blocked message => exact (texts_block h _ _ _).bind fun _ _ _ => trivial
    | safe code => exact texts_attemptFailed h _ _ hretry
    | other => exact texts_attemptFailed h _ _ hretry

theorem texts_attempts (fuel : Nat) {state : TaskState} {g : Prop} (h : StateTexts P state g) :
    (attempts spec context step fuel state).Follows (textDiscipline P) (AttemptTexts P) g := by
  induction fuel generalizing state g with
  | zero =>
    unfold attempts
    refine (texts_save (g := g) h).bind ?_
    rintro _ _ rfl
    refine (texts_event (by decide) _ _ _ _).bind ?_
    rintro _ _ rfl
    refine (texts_call _).bind fun answer g' hg' => ?_
    refine texts_answered ?_ (fun hg => hg'.2 hg rfl) _ ?_
    · exact fun hg => h (hg'.1 hg)
    · exact fun _ _ => trivial
  | succ fuel ih =>
    unfold attempts
    refine (texts_save (g := g) h).bind ?_
    rintro _ _ rfl
    refine (texts_event (by decide) _ _ _ _).bind ?_
    rintro _ _ rfl
    refine (texts_call _).bind fun answer g' hg' => ?_
    refine texts_answered ?_ (fun hg => hg'.2 hg rfl) _ ?_
    · exact fun hg => h (hg'.1 hg)
    · exact fun _ hs => ih hs

/-- A step that ends with the task blocked. -/
theorem texts_stop {state : TaskState} (h : StateTexts P state g) (reason : String) (step : Option StepSpec) (error : Option String)
    {g₀ : Prop} : (block state reason step error >>= fun s => pure (.stop s)).Follows (textDiscipline P) (StepTexts P g₀) g :=
  (texts_block h _ _ _).bind fun _ _ _ => trivial

theorem texts_verify (result : ActionResult) {state : TaskState} (h : StateTexts P state g) :
    (verify spec actions context step result state).Follows (textDiscipline P) (StepTexts P g) g := by
  unfold verify
  cases step.verifier with
  | none => exact ⟨id, h⟩
  | some verifyAction =>
    simp only
    split_ifs
    · refine (texts_unwrap _).bind ?_
      rintro args _ ⟨rfl, -⟩
      refine (texts_call _).bind fun answer g' hg' => ?_
      have h' : StateTexts P state g' := fun hg => h (hg'.1 hg)
      cases answer.bind verificationPassed with
      | error exc => exact texts_stop h' _ _ _
      | ok passed =>
        cases passed with
        | false => exact texts_stop h' _ _ _
        | true =>
          refine (texts_event (by decide) _ _ _ _).bind ?_
          rintro _ _ rfl
          exact ⟨hg'.1, h'⟩
    · exact texts_stop h _ _ _

theorem texts_runStep {state : TaskState} (h : StateTexts P state g) :
    (runStep spec actions context step state).Follows (textDiscipline P)
      (fun r g' => match r with
        | .next state => StateTexts P state g'
        | .stop _ => True) g := by
  unfold runStep
  split_ifs
  · refine (texts_attempts _ h).bind fun r g' hr => ?_
    cases r with
    | stop s => trivial
    | done s result =>
      obtain ⟨hs, hresult⟩ := hr
      refine (texts_unwrap _).bind ?_
      rintro s' _ ⟨rfl, hs'⟩
      refine (texts_save fun hg => applyArtifacts_within hs' (hs hg) (hresult hg)).bind ?_
      rintro _ _ rfl
      refine (texts_verify result fun hg => applyArtifacts_within hs' (hs hg) (hresult hg)).bind fun r g'' hr => ?_
      cases r with
      | stop s => trivial
      | next s'' =>
        obtain ⟨hg'', hs''⟩ := hr
        refine (texts_save hs'').bind ?_
        rintro _ _ rfl
        refine (texts_completed (fun hg t ht => hresult (hg'' hg) t (List.mem_append_left _ ht)) _ _ _ _).bind ?_
        rintro _ _ rfl
        exact hs''
  · exact (texts_block h _ _ _).bind fun _ _ _ => trivial

/-! ## The run -/

theorem texts_runSteps (steps : List StepSpec) {state : TaskState} {g : Prop} (h : StateTexts P state g) (executed skipped : List String) :
    (runSteps spec actions context steps state executed skipped).Follows (textDiscipline P) (fun _ _ => True) g := by
  induction steps generalizing state g executed skipped with
  | nil =>
    unfold runSteps
    refine (texts_save (g := g) h).bind ?_
    rintro _ _ rfl
    exact (texts_event (by decide) _ _ _ _).bind fun _ _ _ => trivial
  | cons step steps ih =>
    unfold runSteps
    split_ifs
    · refine (texts_event (by decide) _ _ _ _).bind ?_
      rintro _ _ rfl
      exact ih h _ _
    · refine (texts_runStep h).bind fun r g' hr => ?_
      cases r with
      | stop s => trivial
      | next s => exact ih hr _ _

theorem texts_resume {state : TaskState} (h : StateTexts P state g) :
    (resume spec actions context state).Follows (textDiscipline P) (fun _ _ => True) g := by
  unfold resume
  split_ifs
  · exact (texts_event (by decide) _ _ _ _).bind fun _ _ _ => trivial
  · exact (texts_block h _ _ _).bind fun _ _ _ => trivial
  · refine (texts_save (g := g) h).bind ?_
    rintro _ _ rfl
    refine (texts_event (by decide) _ _ _ _).bind ?_
    rintro _ _ rfl
    refine texts_runSteps _ ?_ _ _
    exact h

theorem texts_load : loadState.Follows (textDiscipline P) (StateTexts P) g := by
  refine ⟨trivial, fun r _ => ?_⟩
  cases r with
  | ok state => exact And.right
  | error e => trivial

theorem texts_lock : lock.Follows (textDiscipline P) (fun _ g' => g' = g) g := by
  refine ⟨trivial, fun r _ => ?_⟩
  cases r with
  | ok u => rfl
  | error e => trivial

theorem texts_exists : «exists».Follows (textDiscipline P) (fun _ g' => g' = g) g := by
  refine ⟨trivial, fun r _ => ?_⟩
  cases r with
  | ok b => rfl
  | error e => trivial

theorem texts_bindSpec (fingerprint : String) (existed : Bool) {state : TaskState} (h : StateTexts P state g) :
    (bindSpec fingerprint existed state).Follows (textDiscipline P) (StateTexts P) g := by
  unfold bindSpec
  split_ifs
  · exact h
  · refine (texts_save (g := g) h).bind ?_
    rintro _ _ rfl
    exact h

theorem texts_runLocked : (runLocked spec actions context).Follows (textDiscipline P) (fun _ _ => True) g := by
  unfold runLocked
  refine texts_exists.bind fun existed _ _ => ?_
  refine texts_load.bind fun state g hs => ?_
  refine (texts_unwrap _).bind ?_
  rintro _ _ ⟨rfl, -⟩
  refine (texts_unwrap _).bind ?_
  rintro fingerprint _ ⟨rfl, -⟩
  refine (texts_unwrap _).bind ?_
  rintro _ _ ⟨rfl, -⟩
  refine (texts_unwrap _).bind ?_
  rintro _ _ ⟨rfl, -⟩
  exact (texts_bindSpec fingerprint existed hs).bind fun _ _ hs => texts_resume hs

/-- The runner keeps to the discipline. -/
theorem texts_run (repr : Doc → String) (spec : TaskSpec) (actions : List String) (context : Dict Doc) :
    (Runner.run repr spec actions context).Follows (textDiscipline P) (fun _ _ => True) g := by
  unfold Runner.run
  refine (texts_unwrap _).bind ?_
  rintro spec _ ⟨rfl, -⟩
  refine (texts_unwrap _).bind fun _ _ _ => ?_
  exact texts_lock.bind fun _ _ _ => texts_runLocked

/-- A reconciliation keeps to it as well, where the texts of its updates satisfy `P`. -/
theorem texts_reconcile (taskId : String) (r : Reconciliation) (h : ∀ u ∈ r.artifactUpdates, ∀ t ∈ u.texts, P t) :
    (FileStore.reconcileBlockedStep taskId r).Follows (textDiscipline P) (fun _ _ => True) g := by
  unfold FileStore.reconcileBlockedStep
  refine texts_lock.bind fun _ _ _ => ?_
  refine (texts_unwrap _).bind fun resolution _ _ => ?_
  refine (texts_unwrap _).bind fun _ _ _ => ?_
  refine (texts_unwrap _).bind fun _ _ _ => ?_
  refine texts_load.bind fun state g hs => ?_
  refine (texts_unwrap _).bind ?_
  rintro _ _ ⟨rfl, -⟩
  refine (texts_unwrap _).bind ?_
  rintro state' g' ⟨rfl, hs'⟩
  have hwithin : StateTexts P state' g' := by
    intro hg
    refine foldlM_within hs' (hs hg) fun item hitem => ?_
    obtain ⟨u, hu, rfl⟩ := List.mem_map.1 hitem
    exact h u hu
  have hresolve : StateTexts P (FileStore.resolve r.stepId resolution
      { state' with reconciliations := state'.reconciliations ++ [FileStore.record r state'] }) g' := by
    intro hg a ha
    refine hwithin hg a ?_
    cases resolution <;> exact ha
  refine (texts_save hresolve).bind ?_
  rintro _ _ rfl
  exact (texts_event (by decide) _ _ _ _).bind fun _ _ _ => trivial

end Run

/-! ## Histories -/

namespace FileStore

/-- The texts of the artifacts a store wrote, and of the messages of completed steps, satisfy `P`. -/
structure World.Within (P : String → Prop) (w : World) : Prop where
  file : ∀ state, w.file = some state → state.Within P
  written : ∀ item ∈ w.log, ∀ state, item.written = some state → state.Within P
  completed : ∀ e ∈ w.ledger, e.2.eventType = "step_completed" → ∀ t ∈ Doc.texts e.2.message, P t

/-- The texts the actions answered with satisfy `P`. -/
def World.Answered (P : String → Prop) (w : World) : Prop :=
  ∀ n c answer, .answered n c answer ∈ w.log → c.phase = .action → AnswerWithin P answer

/-- What the store keeps, and what a run that issues commands to it knows. -/
def TextInv (P : String → Prop) (w : World) : Prop := w.Answered P → w.Within P

section Machine

variable {P : String → Prop} {g : Prop} {w : World}

theorem TextInv.congr {w' : World} (h : TextInv P w) (hf : w'.file = w.file) (hl : w'.log = w.log) (he : w'.ledger = w.ledger) :
    TextInv P w' := by
  intro ha
  have hw : w.Within P := h fun n c answer hin => ha n c answer (hl ▸ hin)
  exact ⟨fun s hs => hw.file s (hf ▸ hs), fun item hitem => hw.written item (hl ▸ hitem), fun e hin => hw.completed e (he ▸ hin)⟩

theorem Answered.of_append {w' : World} {item : Item} (h : w'.Answered P) (hlog : w'.log = w.log ++ [item]) : w.Answered P :=
  fun n c answer hin => h n c answer (hlog ▸ List.mem_append_left _ hin)

/-- An entry that writes no state. -/
theorem TextInv.entry {item : Item} (h : TextInv P w) (hitem : item.written = none) :
    TextInv P { w with log := w.log ++ [item] } := by
  intro ha
  have hw : w.Within P := h (Answered.of_append ha rfl)
  refine ⟨hw.file, fun item' hin s hs => ?_, hw.completed⟩
  rcases List.mem_append.1 hin with hold | hnew
  · exact hw.written item' hold s hs
  · cases List.mem_singleton.1 hnew
    rw [hitem] at hs
    nomatch hs

theorem load_within {taskId now : String} {state : TaskState} (hw : w.Within P)
    (h : ((checkTaskId taskId).bind fun _ =>
      match w.file with
      | none => Except.ok { taskId := taskId, updatedAt := now : TaskState }
      | some state => if state.taskId ≠ taskId then .error (.valueError "task_state_id_mismatch") else .ok state) = .ok state) :
    state.Within P := by
  obtain ⟨_, -, h⟩ := bind_ok.1 h
  split at h
  · cases h
    exact fun a ha => nomatch ha
  · rename_i s hs
    split_ifs at h
    cases h
    exact hw.file _ hs

/-- A command of a program that keeps to the discipline. -/
theorem textStep {taskId : String} {n : Nat} {mark : TaskState → Item} (hmark : ∀ s, (mark s).written = some s)
    {c : RunnerCmd} {x : Choice} {r : c.Reply} {w' : World} (hallowed : (textDiscipline P).allowed g c)
    (hg : w.Answered P → g) (hi : TextInv P w) (hm : machine taskId n mark w c x = some (r, w')) :
    TextInv P w' ∧ (w'.Answered P → (textDiscipline P).next g c r) := by
  cases c with
  | lock => cases x <;> cases hm <;> exact ⟨hi, hg⟩
  | «exists» => cases x <;> cases hm <;> exact ⟨hi, hg⟩
  | load =>
    cases x with
    | ok now =>
      obtain ⟨hr, rfl⟩ := Prod.mk.inj (Option.some.inj hm)
      refine ⟨hi, fun ha => ?_⟩
      cases r with
      | ok state => exact ⟨hg ha, load_within (hi ha) hr⟩
      | error e => exact hg ha
    | fail e => cases hm; exact ⟨hi, hg⟩
    | answer a => cases hm
  | save state =>
    cases x with
    | ok now =>
      simp only [machine] at hm
      split_ifs at hm
      cases hm
      refine ⟨fun ha => ?_, fun ha => hg (Answered.of_append ha rfl)⟩
      have ha' : w.Answered P := Answered.of_append ha rfl
      have hw : w.Within P := hi ha'
      have hstate : state.Within P := hallowed (hg ha')
      refine ⟨fun s hs => ?_, fun item hitem s hs => ?_, hw.completed⟩
      · cases hs
        exact hstate
      · rcases List.mem_append.1 hitem with hold | hnew
        · exact hw.written item hold s hs
        · cases List.mem_singleton.1 hnew
          rw [hmark] at hs
          cases hs
          exact hstate
    | fail e => cases hm; exact ⟨hi, hg⟩
    | answer a => cases hm
  | event e =>
    cases x with
    | ok now =>
      cases hm
      refine ⟨fun ha => ?_, hg⟩
      have hw : w.Within P := hi ha
      refine ⟨hw.file, hw.written, fun e' he' htype => ?_⟩
      rcases List.mem_append.1 he' with hold | hnew
      · exact hw.completed e' hold htype
      · cases List.mem_singleton.1 hnew
        exact hallowed (hg ha) htype
    | fail e => cases hm; exact ⟨hi, hg⟩
    | answer a => cases hm
  | invoke c =>
    cases x with
    | ok now =>
      cases hm
      exact ⟨TextInv.entry hi rfl, fun ha => hg (Answered.of_append ha rfl)⟩
    | fail e => cases hm
    | answer a => cases hm
  | await c =>
    cases x with
    | ok now => cases hm
    | fail e => cases hm
    | answer a =>
      cases hm
      refine ⟨TextInv.entry hi rfl, fun ha => ⟨hg (Answered.of_append ha rfl), fun hc => ?_⟩⟩
      exact ha n c _ (List.mem_append_right _ List.mem_cons_self) hc

end Machine

/-- A command adds an entry of an answer only where the environment chose it. -/
theorem answered_of_machine {taskId : String} {n : Nat} {mark : TaskState → Item} (hmark : ∀ s, (mark s).written = some s)
    {c : RunnerCmd} {x : Choice} {r : c.Reply} {w w' : World} (hm : machine taskId n mark w c x = some (r, w'))
    {k : Nat} {call : ActionCall} {a : Except ActionExc Returned} (h : .answered k call a ∈ w'.log) :
    .answered k call a ∈ w.log ∨ x = .answer a := by
  cases c with
  | lock => cases x <;> cases hm <;> exact .inl h
  | «exists» => cases x <;> cases hm <;> exact .inl h
  | load => cases x <;> cases hm <;> exact .inl h
  | save state =>
    cases x with
    | ok now =>
      simp only [machine] at hm
      split_ifs at hm
      cases hm
      rcases List.mem_append.1 h with hold | hnew
      · exact .inl hold
      · have hnone := hmark { state with updatedAt := now }
        rw [← List.mem_singleton.1 hnew] at hnone
        cases hnone
    | fail e => cases hm; exact .inl h
    | answer a => cases hm
  | event e => cases x <;> cases hm <;> exact .inl h
  | invoke c =>
    cases x with
    | ok now =>
      cases hm
      rcases List.mem_append.1 h with hold | hnew
      · exact .inl hold
      · cases List.mem_singleton.1 hnew
    | fail e => cases hm
    | answer a => cases hm
  | await c =>
    cases x with
    | ok now => cases hm
    | fail e => cases hm
    | answer a =>
      cases hm
      rcases List.mem_append.1 h with hold | hnew
      · exact .inl hold
      · cases List.mem_singleton.1 hnew
        exact .inr rfl

/-- What the log has as an answer was there before or is a choice of the environment. -/
theorem answered_of_exec {α : Type} {taskId : String} {n : Nat} {mark : TaskState → Item} (hmark : ∀ s, (mark s).written = some s)
    (choices : List Choice) {w : World} {p : RunProg α} {k : Nat} {c : ActionCall} {a : Except ActionExc Returned}
    (h : .answered k c a ∈ (Prog.exec (machine taskId n mark) choices w p).1.log) :
    .answered k c a ∈ w.log ∨ .answer a ∈ choices := by
  induction choices generalizing w p with
  | nil => exact .inl h
  | cons x choices ih =>
    simp only [Prog.exec] at h
    split at h
    · rename_i w' p' hstep
      rcases ih h with hlog | hrest
      · cases p with
        | ret b => cases hstep
        | raise e => cases hstep
        | cmd c k =>
          simp only [Prog.step, Option.map_eq_some_iff, Prod.exists, Prod.mk.injEq] at hstep
          obtain ⟨r, t, hm, rfl, -⟩ := hstep
          rcases answered_of_machine hmark hm hlog with hold | rfl
          · exact .inl hold
          · exact .inr List.mem_cons_self
      · exact .inr (List.mem_cons_of_mem _ hrest)
    · exact .inl h

section History

variable {P : String → Prop}

theorem mark_written (n : Nat) (op : Op) (state : TaskState) : (op.mark n state).written = some state := by
  cases op with
  | run actions context choices => rfl
  | reconcile r choices =>
    simp only [Op.mark]
    cases Resolution.ofText r.resolution <;> rfl

/-- Every operation keeps the invariant, wherever it is cut off. -/
theorem exec_textInv (repr : Doc → String) (spec : TaskSpec) {w : World} (hi : TextInv P w) (op : Op)
    (hop : ∀ r choices, op = .reconcile r choices → ∀ u ∈ r.artifactUpdates, ∀ t ∈ u.texts, P t) :
    TextInv P (op.exec repr spec w) := by
  have hsafe {α : Type} {p : RunProg α} (hp : p.Follows (textDiscipline P) (fun _ _ => True) True) (choices : List Choice) :
      TextInv P (Prog.exec (machine spec.taskId w.ops (op.mark w.ops)) choices w p).1 :=
    Prog.exec_inv_alone choices hi (hp.safe_alone (J := fun g w => w.Answered P → g)
      (fun g w c x r t ha hg hi hm => ⟨trivial, textStep (mark_written _ op) ha hg hi hm⟩) fun _ => trivial)
  cases op with
  | run actions context choices => exact (hsafe (texts_run repr spec actions context) choices).congr rfl rfl rfl
  | reconcile r choices => exact (hsafe (texts_reconcile spec.taskId r (hop r choices rfl)) choices).congr rfl rfl rfl

/-- Along every history the texts of the artifacts written, and of the messages of completed steps, are texts of what the actions
answered or of what the operator entered. -/
theorem history_within (repr : Doc → String) (spec : TaskSpec) (ops : List Op)
    (hops : ∀ r choices, .reconcile r choices ∈ ops → ∀ u ∈ r.artifactUpdates, ∀ t ∈ u.texts, P t)
    (h : (history repr spec ops).Answered P) : (history repr spec ops).Within P := by
  have hinv : TextInv P (history repr spec ops) := by
    unfold history
    clear h
    induction ops using List.reverseRecOn with
    | nil => exact fun _ => ⟨fun _ hs => (nomatch hs), fun _ hitem => (nomatch hitem), fun _ he => (nomatch he)⟩
    | append_singleton ops op ih =>
      rw [List.foldl_append]
      exact exec_textInv repr spec (ih fun r choices hr => hops r choices (List.mem_append_left _ hr)) op
        fun r choices hr => hops r choices (List.mem_append_right _ (hr ▸ List.mem_cons_self))
  exact hinv h

end History

end FileStore

end Keirin

import Keirin.Lemmas.Model
import Keirin.RunDiscipline

/-!
# The runner keeps to its discipline

One lemma for each part of the runner, ending in `run_follows`.
-/

namespace Keirin

open Runner

/-! ## Saves that leave the progress as it is -/

/-- Two states of a task that differ at most in the status and the messages. -/
structure SameProgress (old state : TaskState) : Prop where
  taskId : state.taskId = old.taskId
  reconciliations : state.reconciliations = old.reconciliations
  fingerprint : state.specFingerprint = old.specFingerprint
  completed : state.completedSteps = old.completedSteps
  attempts : state.attempts = old.attempts
  artifacts : state.artifacts = old.artifacts

theorem SameProgress.rfl {state : TaskState} : SameProgress state state := ⟨by rfl, by rfl, by rfl, by rfl, by rfl, by rfl⟩

/-- A save that changes neither the completed steps nor the attempts nor the artifacts is allowed, unless it completes the
task. -/
theorem SameProgress.saveOk {spec : TaskSpec} {v : RunView} {old state : TaskState} (h : SameProgress old state)
    (hs : state.status = .completed → old.status = .completed) : SaveOk spec v old state where
  taskId := h.taskId
  reconciliations := h.reconciliations
  fingerprint := .inl h.fingerprint
  completed := .inl h.completed
  attempts := fun key => .inl (by simp only [TaskState.attemptsOf, h.attempts])
  finished := fun hc => .inl (hs hc)
  artifacts := fun hw _ => by rw [TaskState.NoWrite, h.artifacts]; exact hw

/-! ## Artifacts -/

theorem mem_set {α : Type} {key : String} {v : α} {d : Dict α} {e : String × α} (h : e ∈ Dict.set key v d) :
    e = (key, v) ∨ e ∈ d := by
  induction d with
  | nil => simpa [Dict.set] using h
  | cons f d ih =>
    obtain ⟨k, w⟩ := f
    simp only [Dict.set] at h
    split at h
    · rename_i hk
      rcases List.mem_cons.1 h with rfl | h
      · exact .inl (by rw [hk])
      · exact .inr (List.mem_cons_of_mem _ h)
    · rcases List.mem_cons.1 h with rfl | h
      · exact .inr List.mem_cons_self
      · rcases ih h with h | h
        · exact .inl h
        · exact .inr (List.mem_cons_of_mem _ h)

/-- A merge sets no write flag that the update does not set. -/
theorem merge_writeFlags {a a' : ArtifactState} {u : ArtifactUpdate} (h : a.merge u = .ok a')
    (ha : ∀ flag ∈ a.writeFlags, flag ≠ .bool true) (hu : ∀ flag ∈ u.writeFlags, Doc.truthy flag = false) :
    ∀ flag ∈ a'.writeFlags, flag ≠ .bool true := by
  have hflag (value old : Doc) (hv : Doc.truthy value = false) (ho : old ≠ .bool true) :
      ArtifactState.mergeFlag value old ≠ .bool true := by
    unfold ArtifactState.mergeFlag
    split
    · exact ho
    · simp [hv]
  simp only [ArtifactState.merge, raiseIf_bind_ok] at h
  obtain ⟨-, h⟩ := h
  obtain ⟨md, -, h⟩ := bind_ok.1 h
  cases h
  simp only [ArtifactState.writeFlags, ArtifactUpdate.writeFlags, List.forall_mem_cons, List.not_mem_nil,
    false_implies, implies_true, and_true] at ha hu ⊢
  exact ⟨hflag _ _ hu.1 ha.1, hflag _ _ hu.2.1 ha.2.1, hflag _ _ hu.2.2.1 ha.2.2.1, hflag _ _ hu.2.2.2 ha.2.2.2⟩

/-- Applying an artifact update changes the artifacts only. -/
theorem applyArtifactUpdate_ok {state state' : TaskState} {item : ArtifactItem}
    (h : applyArtifactUpdate state item = .ok state') :
    (∃ arts, state' = { state with artifacts := arts }) ∧
      (state.NoWrite → (∀ u, item = .update u → ∀ flag ∈ u.writeFlags, Doc.truthy flag = false) → state'.NoWrite) := by
  cases item with
  | update u =>
    simp only [applyArtifactUpdate] at h
    obtain ⟨-, -, h⟩ := bind_ok.1 h
    split at h
    · rename_i key hkey
      obtain ⟨merged, hm, h⟩ := bind_ok.1 h
      cases h
      refine ⟨⟨_, rfl⟩, fun hs hu a ha => ?_⟩
      rcases mem_set ha with rfl | ha
      · refine merge_writeFlags hm ?_ (hu u rfl)
        cases hg : Dict.get? key state.artifacts with
        | none => simp [ArtifactState.writeFlags]
        | some b => exact hs (key, b) (Dict.mem_of_get? hg)
      · exact hs a ha
    · nomatch h
  | mapping fields => nomatch h
  | other => nomatch h

/-- Applying the artifacts of a result changes the artifacts only, and sets no write flag unless an update does. -/
theorem applyArtifacts_ok {state state' : TaskState} {r : ActionResult} (h : applyArtifacts state r.artifacts = .ok state') :
    (∃ arts, state' = { state with artifacts := arts }) ∧ (state.NoWrite → r.NoWrite → state'.NoWrite) := by
  have hfold (items : List ArtifactItem) (s s' : TaskState) (hf : items.foldlM applyArtifactUpdate s = .ok s') :
      (∃ arts, s' = { s with artifacts := arts }) ∧
        (s.NoWrite → (∀ u, .update u ∈ items → ∀ flag ∈ u.writeFlags, Doc.truthy flag = false) → s'.NoWrite) := by
    induction items generalizing s with
    | nil =>
      cases hf
      exact ⟨⟨s'.artifacts, rfl⟩, fun hs _ => hs⟩
    | cons item items ih =>
      rw [List.foldlM_cons] at hf
      obtain ⟨s₁, h₁, hf⟩ := bind_ok.1 hf
      obtain ⟨⟨arts, rfl⟩, hw⟩ := applyArtifactUpdate_ok h₁
      obtain ⟨⟨arts', rfl⟩, hw'⟩ := ih _ hf
      exact ⟨⟨arts', rfl⟩, fun hs hu => hw' (hw hs fun u hi => hu u (hi ▸ List.mem_cons_self))
        fun u hm => hu u (List.mem_cons_of_mem _ hm)⟩
  simp only [applyArtifacts] at h
  obtain ⟨s, hf, h⟩ := bind_ok.1 h
  obtain ⟨harts, hw⟩ := hfold _ _ _ hf
  split at h
  · nomatch h
  · cases h
    exact ⟨harts, hw⟩

/-! ## Commands -/

section Commands

variable {spec : TaskSpec} {v : RunView} {α : Type}

theorem follows_unwrap {x : Except PyError α} {Q : α → RunView → Prop} (h : ∀ a, x = .ok a → Q a v) :
    (unwrap x).Follows (runDiscipline spec) Q v := by
  cases x with
  | ok a => exact h a rfl
  | error e => trivial

theorem follows_save {old state : TaskState} {Q : Unit → RunView → Prop} (hv : v.state = some old)
    (hok : SaveOk spec v old state) (hQ : Q () { v with state := some state }) :
    (saveState state).Follows (runDiscipline spec) Q v := by
  refine ⟨⟨old, hv, hok⟩, fun r _ => ?_⟩
  cases r with
  | ok u => exact hQ
  | error e => trivial

theorem follows_event {taskId eventType : String} {message : Doc} {stepId : Option String} {data : Dict Doc}
    {Q : Unit → RunView → Prop} (hQ : Q () v) :
    (appendEvent taskId eventType message stepId data).Follows (runDiscipline spec) Q v := by
  refine ⟨trivial, fun r _ => ?_⟩
  cases r with
  | ok u => exact hQ
  | error e => trivial

/-- Blocking the task is always allowed. -/
theorem follows_block {old state : TaskState} {reason : String} {step : Option StepSpec} {error : Option String}
    {Q : TaskState → RunView → Prop} (hv : v.state = some old) (h : SameProgress old state) (hQ : ∀ s v', Q s v') :
    (block state reason step error).Follows (runDiscipline spec) Q v := by
  refine Prog.Follows.bind (Q := fun _ _ => True) (follows_save hv ?_ trivial) fun _ _ _ => ?_
  · exact SameProgress.saveOk ⟨h.1, h.2, h.3, h.4, h.5, h.6⟩ (fun h => nomatch h)
  · exact Prog.Follows.bind (Q := fun _ _ => True) (follows_event trivial) fun _ _ _ => hQ _ _

/-- Calling an action or a verifier: the program goes on with any answer. -/
theorem follows_call {c : ActionCall} {Q : Except ActionExc Returned → RunView → Prop}
    (hok : c.phase = .action → ∃ loaded state, v.loaded = some loaded ∧ v.state = some state ∧
      InvokeOk spec v loaded state c.stepId)
    (hQ : ∀ answer, Q answer (((v.next (.invoke c) ())).next (.await c) answer)) :
    (call c).Follows (runDiscipline spec) Q v :=
  ⟨hok, fun _ _ => ⟨trivial, fun answer _ => hQ answer⟩⟩

end Commands

/-! ## Attempts -/

/-- A state whose steps with recorded attempts are all completed has no attempts of the others. -/
theorem attemptsOf_nonpos {state : TaskState} (h : unresolved state = []) {key : String} (hd : state.done key = false) :
    state.attemptsOf key ≤ 0 := by
  by_contra hpos
  cases hg : Dict.get? key state.attempts with
  | none => simp [TaskState.attemptsOf, Dict.getD, hg] at hpos
  | some n =>
    have hn : 0 < n := by simpa [TaskState.attemptsOf, Dict.getD, hg] using hpos
    have hmem : key ∈ unresolved state := by
      rw [unresolved, List.mem_insertionSort, List.mem_map]
      exact ⟨(key, n), List.mem_filter.2 ⟨Dict.mem_of_get? hg, by simp only [hn, hd]; rfl⟩, rfl⟩
    rw [h] at hmem
    cases hmem

/-- Where a run stands that goes on: what it loaded had no attempt left open, and the state it works on is the one it saved
last, up to messages. -/
structure Going (spec : TaskSpec) (v : RunView) (loaded state : TaskState) : Prop where
  isLoaded : v.loaded = some loaded
  durable : ∃ old, v.state = some old ∧ SameProgress old state
  unresolved : Runner.unresolved loaded = []
  terminal : Runner.terminal loaded.status = false
  running : state.status = .running
  mono : ∀ key, state.done key = false → loaded.done key = false

/-- Where a run stands before an attempt of a step. -/
structure Attempting (spec : TaskSpec) (v : RunView) (loaded state : TaskState) (before after : List StepSpec)
    (step : StepSpec) : Prop extends Going spec v loaded state where
  steps : spec.steps = before ++ step :: after
  done : ∀ b ∈ before, state.done b.stepId = true
  fresh : state.done step.stepId = false
  recorded : (v.called.count step.stepId : Int) + loaded.attemptsOf step.stepId ≤ state.attemptsOf step.stepId
  left : state.attemptsOf step.stepId < step.maxAttempts
  single : step.retrySafe = false → step.stepId ∉ v.called

/-- What the attempts of a step leave as it was, and what they add when they end in a result. -/
structure Attempted (v v' : RunView) (old state : TaskState) (step : StepSpec) (r : ActionResult) : Prop where
  completed : state.completedSteps = old.completedSteps
  attempts : ∀ key, key ≠ step.stepId → state.attemptsOf key = old.attemptsOf key
  called : ∀ key, key ≠ step.stepId → key ∉ v.called → key ∉ v'.called
  acted : step.stepId ∈ v'.acted
  results : r ∈ v'.results

/-- The state with one more attempt of a step. -/
def withAttempt (state : TaskState) (step : StepSpec) : TaskState :=
  { state with attempts := Dict.set step.stepId (state.attemptsOf step.stepId + 1) state.attempts }

theorem attemptsOf_withAttempt (state : TaskState) (step : StepSpec) :
    (withAttempt state step).attemptsOf step.stepId = state.attemptsOf step.stepId + 1 := by
  simp [TaskState.attemptsOf, withAttempt]

theorem attemptsOf_withAttempt_of_ne (state : TaskState) {step : StepSpec} {key : String} (h : key ≠ step.stepId) :
    (withAttempt state step).attemptsOf key = state.attemptsOf key := by
  simp [TaskState.attemptsOf, withAttempt, Dict.getD_set_of_ne h]

section Walk

variable {spec : TaskSpec} {actions : List String} {context : Dict Doc}

/-- Recording the next attempt is allowed. -/
theorem Attempting.saveOk {v : RunView} {loaded state old : TaskState} {before after : List StepSpec} {step : StepSpec}
    (h : Attempting spec v loaded state before after step) (hp : SameProgress old state) :
    SaveOk spec v old (withAttempt state step) where
  taskId := hp.taskId
  reconciliations := hp.reconciliations
  fingerprint := .inl hp.fingerprint
  completed := .inl hp.completed
  attempts := by
    intro key
    have hold : old.attemptsOf key = state.attemptsOf key := by simp only [TaskState.attemptsOf, hp.attempts]
    by_cases hk : key = step.stepId
    · subst hk
      refine .inr ⟨by rw [attemptsOf_withAttempt, hold], step, by simp [h.steps], rfl, ?_, ?_⟩
      · have := h.fresh
        rwa [TaskState.done, hp.completed] at this
      · rw [attemptsOf_withAttempt]
        have := h.left
        omega
    · exact .inl (by rw [attemptsOf_withAttempt_of_ne state hk, hold])
  finished := fun hc => by
    have hr : state.status = .completed := hc
    rw [h.running] at hr
    cases hr
  artifacts := fun hw _ => by
    have : (withAttempt state step).artifacts = old.artifacts := hp.artifacts
    rw [TaskState.NoWrite, this]
    exact hw

/-- The call of the action is allowed once the attempt is recorded. -/
theorem Attempting.invokeOk {v : RunView} {loaded state : TaskState} {before after : List StepSpec} {step : StepSpec}
    (h : Attempting spec v loaded state before after step) :
    InvokeOk spec { v with state := some (withAttempt state step) } loaded (withAttempt state step) step.stepId where
  unresolved := h.unresolved
  terminal := h.terminal
  order := ⟨before, step, after, h.steps, rfl, h.done, h.single⟩
  fresh := h.fresh
  recorded := by
    rw [attemptsOf_withAttempt]
    have := h.recorded
    simp only at this ⊢
    omega

/-- What holds where the attempts of a step end in a result. -/
def AttemptPost (spec : TaskSpec) (v : RunView) (loaded state : TaskState) (step : StepSpec) (a : AttemptResult)
    (v' : RunView) : Prop :=
  ∀ state' r, a = .done state' r → Going spec v' loaded state' ∧ Attempted v v' state state' step r

/-- A failed attempt keeps to the discipline, if a retry does. -/
theorem attemptFailed_follows {v : RunView} {state old : TaskState} {step : StepSpec} {attempt : Int} {error : String}
    {retry : TaskState → RunProg AttemptResult} {Q : AttemptResult → RunView → Prop} (hv : v.state = some old)
    (hp : SameProgress old state) (hstop : ∀ s w, Q (.stop s) w)
    (hretry : step.retrySafe = true → attempt < step.maxAttempts →
      (retry { state with lastError := .str error }).Follows (runDiscipline spec) Q v) :
    (attemptFailed spec step attempt error state retry).Follows (runDiscipline spec) Q v := by
  unfold attemptFailed
  refine Prog.Follows.bind (Q := fun _ w => w = v) (follows_event rfl) ?_
  rintro _ _ rfl
  have hp' : SameProgress old { state with lastError := .str error } := ⟨hp.1, hp.2, hp.3, hp.4, hp.5, hp.6⟩
  split
  · exact Prog.Follows.bind (Q := fun _ _ => True) (follows_block hv hp' fun _ _ => trivial) fun _ _ _ => hstop _ _
  · rename_i hsafe
    split
    · refine Prog.Follows.bind (Q := fun _ _ => True) (follows_save hv ?_ trivial) fun _ _ _ => ?_
      · exact SameProgress.saveOk ⟨hp.1, hp.2, hp.3, hp.4, hp.5, hp.6⟩ (fun h => nomatch h)
      · exact Prog.Follows.bind (Q := fun _ _ => True) (follows_event trivial) fun _ _ _ => hstop _ _
    · rename_i hleft
      exact hretry (by simpa using hsafe) (by omega)

/-- One attempt keeps to the discipline, if the attempts after it do. -/
theorem attempt_follows {fuel : Nat} {v : RunView} {loaded state : TaskState} {before after : List StepSpec}
    {step : StepSpec} (h : Attempting spec v loaded state before after step) (hf : attemptFuel step state = fuel)
    (hrec : ∀ fuel' v' state', fuel = fuel' + 1 → Attempting spec v' loaded state' before after step →
      attemptFuel step state' = fuel' →
      (attempts spec context step fuel' state').Follows (runDiscipline spec) (AttemptPost spec v' loaded state' step) v') :
    (attempts spec context step fuel state).Follows (runDiscipline spec) (AttemptPost spec v loaded state step) v := by
  obtain ⟨old, hold, hp⟩ := h.durable
  have hatt := attemptsOf_withAttempt state step
  unfold attempts
  refine Prog.Follows.bind (Q := fun _ w => w = { v with state := some (withAttempt state step) })
    (follows_save hold (h.saveOk hp) rfl) ?_
  rintro _ _ rfl
  refine Prog.Follows.bind (Q := fun _ w => w = { v with state := some (withAttempt state step) })
    (follows_event rfl) ?_
  rintro _ _ rfl
  refine Prog.Follows.bind (follows_call (fun _ => ⟨loaded, withAttempt state step, h.isLoaded, rfl, h.invokeOk⟩)
    (Q := fun answer w => w = ((RunView.next { v with state := some (withAttempt state step) }
      (.invoke _) ()).next (.await _) answer)) fun _ => rfl) ?_
  rintro answer _ rfl
  simp only [RunView.next, if_true]
  have hcount : ((step.stepId :: v.called).count step.stepId : Int) + loaded.attemptsOf step.stepId ≤
      (withAttempt state step).attemptsOf step.stepId := by
    have := h.recorded
    rw [List.count_cons_self, hatt]
    push_cast
    omega
  cases hn : Except.bind answer normaliseActionResult with
  | ok r =>
    intro state' r' he
    cases he
    refine ⟨⟨h.isLoaded, ⟨_, rfl, .rfl⟩, h.unresolved, h.terminal, h.running, h.mono⟩, rfl,
      fun key hk => attemptsOf_withAttempt_of_ne state hk, fun key hk hc => ?_, List.mem_cons_self, List.mem_cons_self⟩
    exact fun hm => (List.mem_cons.1 hm).elim hk hc
  | error exc =>
    have hstop : ∀ s w, AttemptPost spec v loaded state step (.stop s) w := fun s w state' r he => nomatch he
    have hretry (error : String) (hsafe : step.retrySafe = true) (hleft : state.attemptsOf step.stepId + 1 < step.maxAttempts) :
        ∃ fuel', fuel = fuel' + 1 ∧
          (attempts spec context step fuel' { withAttempt state step with lastError := .str error }).Follows
            (runDiscipline spec) (AttemptPost spec v loaded state step)
            { v with state := some (withAttempt state step), called := step.stepId :: v.called } := by
      refine ⟨fuel - 1, by simp only [attemptFuel] at hf; omega, ?_⟩
      refine (hrec (fuel - 1) { v with state := some (withAttempt state step), called := step.stepId :: v.called }
        { withAttempt state step with lastError := .str error } (by simp only [attemptFuel] at hf; omega) ?_ ?_).mono
        fun a w hQ state' r he => ?_
      · refine ⟨⟨h.isLoaded, ⟨_, rfl, ⟨rfl, rfl, rfl, rfl, rfl, rfl⟩⟩, h.unresolved, h.terminal, h.running, h.mono⟩,
          h.steps, h.done, h.fresh, hcount, hatt.trans_lt hleft, fun hu => ?_⟩
        rw [hsafe] at hu
        nomatch hu
      · change (step.maxAttempts - ((withAttempt state step).attemptsOf step.stepId + 1)).toNat = fuel - 1
        simp only [attemptFuel] at hf
        rw [hatt]
        omega
      · obtain ⟨hg, hd⟩ := hQ state' r he
        refine ⟨hg, hd.completed, fun key hk => ?_, fun key hk hc => hd.called key hk ?_, hd.acted, hd.results⟩
        · exact (hd.attempts key hk).trans (attemptsOf_withAttempt_of_ne state hk)
        · exact fun hm => (List.mem_cons.1 hm).elim hk hc
    cases exc with
    | blocked message =>
      exact Prog.Follows.bind (Q := fun _ _ => True) (follows_block rfl .rfl fun _ _ => trivial) fun _ _ _ => hstop _ _
    | safe code =>
      refine attemptFailed_follows rfl .rfl hstop fun hsafe hleft => ?_
      obtain ⟨fuel', rfl, hq⟩ := hretry (persistentError (.safe code) false) hsafe hleft
      exact hq
    | other =>
      refine attemptFailed_follows rfl .rfl hstop fun hsafe hleft => ?_
      obtain ⟨fuel', rfl, hq⟩ := hretry (persistentError .other false) hsafe hleft
      exact hq

/-- The attempts of a step keep to the discipline, and do not run out of fuel. -/
theorem attempts_follows (fuel : Nat) {v : RunView} {loaded state : TaskState} {before after : List StepSpec}
    {step : StepSpec} (h : Attempting spec v loaded state before after step) (hf : attemptFuel step state = fuel) :
    (attempts spec context step fuel state).Follows (runDiscipline spec) (AttemptPost spec v loaded state step) v := by
  induction fuel generalizing v state with
  | zero => exact attempt_follows h hf fun _ _ _ hz => nomatch hz
  | succ fuel ih =>
    refine attempt_follows h hf fun fuel' v' state' he h' hf' => ?_
    cases he
    exact ih h' hf'

/-- Verifying a step keeps to the discipline; the run goes on only where the verifier passed, or where there is none. -/
theorem verify_follows {v : RunView} {old state : TaskState} {step : StepSpec} {r : ActionResult} (hv : v.state = some old)
    (hp : SameProgress old state) :
    (verify spec actions context step r state).Follows (runDiscipline spec)
      (fun a v' => ∀ s, a = .next s → s = state ∧
        ∃ verified, v' = { v with verified := verified } ∧ (step.verifier ≠ none → step.stepId ∈ verified)) v := by
  unfold verify
  split
  · intro s hs
    cases hs
    exact ⟨rfl, v.verified, rfl, fun hn => absurd ‹_› hn⟩
  · rename_i verifyAction hver
    have hblock (reason : String) (error : Option String) :
        ((block state reason (some step) error >>= fun s => pure (StepResult.stop s) : RunProg StepResult)).Follows
          (runDiscipline spec) (fun a v' => ∀ s, a = .next s → s = state ∧
            ∃ verified, v' = { v with verified := verified } ∧ (step.verifier ≠ none → step.stepId ∈ verified)) v :=
      Prog.Follows.bind (Q := fun _ _ => True) (follows_block hv hp fun _ _ => trivial) fun _ _ _ _ hs => nomatch hs
    split
    · exact hblock _ _
    · refine Prog.Follows.bind (Q := fun _ w => w = v) (follows_unwrap fun _ _ => rfl) ?_
      rintro args v rfl
      refine Prog.Follows.bind (follows_call (fun hph => nomatch hph)
        (Q := fun answer w => w = (RunView.next v (.invoke _) ()).next (.await _) answer) fun _ => rfl) ?_
      rintro answer _ rfl
      simp only [RunView.next, reduceCtorEq, if_false]
      cases hn : Except.bind answer verificationPassed with
      | error exc => exact hblock _ _
      | ok b =>
        cases b with
        | false => exact hblock _ _
        | true =>
          refine Prog.Follows.bind (Q := fun _ u => u = { v with verified := step.stepId :: v.verified }) (follows_event rfl) ?_
          rintro _ _ rfl s hs
          cases hs
          exact ⟨rfl, _, rfl, fun _ => List.mem_cons_self⟩

/-- Where a run stands between two steps: the steps before are completed, and it has not begun those that are left. -/
structure Between (spec : TaskSpec) (v : RunView) (loaded state : TaskState) (before rest : List StepSpec) : Prop
    extends Going spec v loaded state where
  steps : spec.steps = before ++ rest
  done : ∀ b ∈ before, state.done b.stepId = true
  attempts : ∀ step ∈ rest, state.attemptsOf step.stepId = loaded.attemptsOf step.stepId
  called : ∀ step ∈ rest, step.stepId ∉ v.called

/-- A step that has not been begun may be attempted. -/
theorem Between.attempting {v : RunView} {loaded state : TaskState} {before after : List StepSpec} {step : StepSpec}
    (hvalid : spec.Valid) (h : Between spec v loaded state before (step :: after)) (hfresh : state.done step.stepId = false) :
    Attempting spec v loaded state before after step := by
  have hcalled := h.called step List.mem_cons_self
  have hatt := h.attempts step List.mem_cons_self
  have hnonpos := attemptsOf_nonpos h.unresolved (h.mono _ hfresh)
  have hpos := (hvalid.steps step (by simp [h.steps])).positive
  refine ⟨h.toGoing, h.steps, h.done, hfresh, ?_, by omega, fun _ => hcalled⟩
  rw [List.count_eq_zero_of_not_mem hcalled, hatt]
  simp

/-- A step keeps to the discipline, and where the run goes on the step is completed. -/
theorem runStep_follows {v : RunView} {loaded state : TaskState} {before after : List StepSpec} {step : StepSpec}
    (hvalid : spec.Valid) (h : Between spec v loaded state before (step :: after)) (hfresh : state.done step.stepId = false) :
    (runStep spec actions context step state).Follows (runDiscipline spec)
      (fun a v' => ∀ s, a = .next s → Between spec v' loaded s (before ++ [step]) after) v := by
  obtain ⟨old, hold, hp⟩ := h.durable
  unfold runStep
  split
  · exact Prog.Follows.bind (Q := fun _ _ => True) (follows_block hold hp fun _ _ => trivial) fun _ _ _ _ hs => nomatch hs
  · refine Prog.Follows.bind (attempts_follows _ (h.attempting hvalid hfresh) rfl) fun a w hw => ?_
    cases a with
    | stop s => exact fun _ hs => nomatch hs
    | done state₁ r =>
      obtain ⟨hg, hd⟩ := hw state₁ r rfl
      obtain ⟨old₁, hold₁, hp₁⟩ := hg.durable
      refine Prog.Follows.bind (Q := fun s u => applyArtifacts state₁ r.artifacts = .ok s ∧ u = w)
        (follows_unwrap fun _ hs => ⟨hs, rfl⟩) ?_
      rintro state₂ w ⟨happly, rfl⟩
      obtain ⟨⟨arts, rfl⟩, hwrite⟩ := applyArtifacts_ok happly
      refine Prog.Follows.bind (Q := fun _ u => u = { w with state := some { state₁ with artifacts := arts } })
        (follows_save hold₁ ?_ rfl) ?_
      · refine ⟨hp₁.1, hp₁.2, .inl hp₁.3, .inl hp₁.4, fun key => .inl ?_, fun hc => ?_, fun hw hr => hwrite ?_ (hr r hd.results)⟩
        · simp only [TaskState.attemptsOf, hp₁.attempts]
        · exact absurd (hg.running.symm.trans hc) (by decide)
        · rw [TaskState.NoWrite, hp₁.artifacts]
          exact hw
      rintro _ _ rfl
      refine Prog.Follows.bind (verify_follows rfl .rfl) fun a u hu => ?_
      cases a with
      | stop s => exact fun _ hs => nomatch hs
      | next s =>
        obtain ⟨rfl, verified, rfl, hver⟩ := hu s rfl
        have hmem : step ∈ spec.steps := by simp [h.steps]
        have hfresh₁ : Json.str step.stepId ∉ state₁.completedSteps := by
          rw [hd.completed]
          exact (TaskState.done_false_iff _ _).1 hfresh
        refine Prog.Follows.bind (Q := fun _ u => u = { w with
            state := some { state₁ with
              artifacts := arts
              completedSteps := state₁.completedSteps ++ [.str step.stepId]
              lastError := .null }
            verified := verified }) (follows_save rfl ?_ rfl) ?_
        · refine ⟨rfl, rfl, .inl rfl, .inr ⟨step, hmem, (TaskState.done_false_iff _ _).2 hfresh₁, rfl, hd.acted, hver⟩,
            fun _ => .inl rfl, fun hc => ?_, fun hw _ => hw⟩
          exact absurd (hg.running.symm.trans hc) (by decide)
        rintro _ _ rfl
        refine Prog.Follows.bind (Q := fun _ u => u = _) (follows_event rfl) ?_
        rintro _ _ rfl s hs
        cases hs
        have hmono (key : String) (hk : state.done key = true) :
            Json.str key ∈ state₁.completedSteps ++ [Json.str step.stepId] := by
          rw [hd.completed]
          exact List.mem_append_left _ ((TaskState.done_iff _ _).1 hk)
        have hne (t : StepSpec) (ht : t ∈ after) : t.stepId ≠ step.stepId := by
          have hnd := hvalid.nodup
          rw [h.steps, List.map_append, List.map_cons, List.nodup_append] at hnd
          intro he
          exact (List.nodup_cons.1 hnd.2.1).1 (he ▸ List.mem_map_of_mem ht)
        refine ⟨⟨hg.isLoaded, ⟨_, rfl, .rfl⟩, hg.unresolved, hg.terminal, hg.running, fun key hk => ?_⟩, ?_, fun b hb => ?_,
          fun t ht => ?_, fun t ht => ?_⟩
        · refine hg.mono key ((TaskState.done_false_iff _ _).2 fun hm => ?_)
          exact (TaskState.done_false_iff _ _).1 hk (List.mem_append_left _ hm)
        · rw [h.steps, List.append_assoc, List.singleton_append]
        · refine (TaskState.done_iff _ _).2 ?_
          rcases List.mem_append.1 hb with hb | hb
          · exact hmono _ (h.done b hb)
          · rw [List.mem_singleton.1 hb]
            exact List.mem_append_right _ (List.mem_singleton_self _)
        · exact (hd.attempts _ (hne t ht)).trans (h.attempts t (List.mem_cons_of_mem _ ht))
        · exact hd.called _ (hne t ht) (h.called t (List.mem_cons_of_mem _ ht))

/-- The steps that are left keep to the discipline. -/
theorem runSteps_follows (hvalid : spec.Valid) (rest : List StepSpec) {v : RunView} {loaded state : TaskState}
    {before : List StepSpec} {executed skipped : List String} (h : Between spec v loaded state before rest) :
    (runSteps spec actions context rest state executed skipped).Follows (runDiscipline spec) (fun _ _ => True) v := by
  induction rest generalizing v state before executed skipped with
  | nil =>
    obtain ⟨old, hold, hp⟩ := h.durable
    refine Prog.Follows.bind (Q := fun _ _ => True) (follows_save hold ?_ trivial) fun _ _ _ =>
      Prog.Follows.bind (Q := fun _ _ => True) (follows_event trivial) fun _ _ _ => trivial
    refine ⟨hp.1, hp.2, .inl hp.3, .inl hp.4, fun key => .inl ?_, fun _ => .inr fun step hs => ?_, fun hw _ => ?_⟩
    · simp only [TaskState.attemptsOf, hp.attempts]
    · refine h.done step ?_
      rwa [h.steps, List.append_nil] at hs
    · rw [TaskState.NoWrite]
      exact hp.artifacts ▸ hw
  | cons step rest ih =>
    rw [runSteps]
    split
    · rename_i hdone
      refine Prog.Follows.bind (Q := fun _ w => w = v) (follows_event rfl) ?_
      rintro _ v rfl
      have hnext : Between spec v loaded state (before ++ [step]) rest := by
        refine ⟨h.toGoing, by rw [h.steps, List.append_assoc, List.singleton_append], fun b hb => ?_,
          fun t ht => h.attempts t (List.mem_cons_of_mem _ ht), fun t ht => h.called t (List.mem_cons_of_mem _ ht)⟩
        rcases List.mem_append.1 hb with hb | hb
        · exact h.done b hb
        · rw [List.mem_singleton.1 hb]
          exact hdone
      exact ih hnext
    · rename_i hdone
      refine Prog.Follows.bind (runStep_follows hvalid h (by simpa using hdone)) fun a w hw => ?_
      cases a with
      | stop s => trivial
      | next s => exact ih (hw s rfl)

/-! ## The whole run -/

/-- The run from the loaded and bound state on keeps to the discipline. -/
theorem resume_follows (hvalid : spec.Valid) {v : RunView} {loaded state : TaskState} (hl : v.loaded = some loaded)
    (hs : v.state = some state) (hcalled : v.called = []) (ht : terminal state.status = terminal loaded.status)
    (ha : state.attempts = loaded.attempts) (hc : state.completedSteps = loaded.completedSteps) :
    (resume spec actions context state).Follows (runDiscipline spec) (fun _ _ => True) v := by
  have hun : unresolved state = unresolved loaded := by simp only [unresolved, TaskState.done, ha, hc]
  unfold resume
  split
  · exact Prog.Follows.bind (Q := fun _ _ => True) (follows_event trivial) fun _ _ _ => trivial
  rename_i hterm
  split
  · exact Prog.Follows.bind (Q := fun _ _ => True) (follows_block hs .rfl fun _ _ => trivial) fun _ _ _ => trivial
  rename_i hres
  refine Prog.Follows.bind (Q := fun _ w => w = { v with
      state := some { state with status := .running, blockedReason := .null, lastError := .null } })
    (follows_save hs (SameProgress.saveOk ⟨rfl, rfl, rfl, rfl, rfl, rfl⟩ fun h => by cases h) rfl) ?_
  rintro _ _ rfl
  refine Prog.Follows.bind (Q := fun _ w => w = _) (follows_event rfl) ?_
  rintro _ _ rfl
  have hstart : Between spec { v with state := some { state with status := .running, blockedReason := .null, lastError := .null } }
      loaded { state with status := .running, blockedReason := .null, lastError := .null } [] spec.steps := by
    refine ⟨⟨hl, ⟨_, rfl, .rfl⟩, ?_, ?_, rfl, fun key hk => ?_⟩, rfl, fun b hb => (by cases hb), fun step _ => ?_, fun step _ => ?_⟩
    · rw [← hun]
      exact not_not.1 hres
    · rw [← ht]
      simpa using hterm
    · rwa [TaskState.done, ← hc]
    · simp only [TaskState.attemptsOf, ha]
    · rw [hcalled]
      exact List.not_mem_nil
  exact runSteps_follows hvalid spec.steps hstart

/-- `_run_locked` keeps to the discipline. -/
theorem runLocked_follows (hvalid : spec.Valid) :
    (runLocked spec actions context).Follows (runDiscipline spec) (fun _ _ => True) RunView.initial := by
  refine Prog.Follows.bind (Q := fun _ v => v = RunView.initial) ⟨trivial, fun r _ => ?_⟩ ?_
  · cases r with
    | ok b => rfl
    | error e => trivial
  rintro existed _ rfl
  refine Prog.Follows.bind (Q := fun state v => v = { RunView.initial with loaded := some state, state := some state })
    ⟨trivial, fun r _ => ?_⟩ ?_
  · cases r with
    | ok b => rfl
    | error e => trivial
  rintro loaded v rfl
  refine Prog.Follows.bind (Q := fun _ w => w = { RunView.initial with loaded := some loaded, state := some loaded })
    (follows_unwrap fun _ _ => rfl) ?_
  rintro _ _ rfl
  refine Prog.Follows.bind (Q := fun fp w => spec.fingerprint = .ok fp ∧
    w = { RunView.initial with loaded := some loaded, state := some loaded }) (follows_unwrap fun _ h => ⟨h, rfl⟩) ?_
  rintro fingerprint _ ⟨hfp, rfl⟩
  refine Prog.Follows.bind (Q := fun _ w => w = { RunView.initial with loaded := some loaded, state := some loaded })
    (follows_unwrap fun _ _ => rfl) ?_
  rintro _ _ rfl
  refine Prog.Follows.bind (Q := fun _ w => w = { RunView.initial with loaded := some loaded, state := some loaded })
    (follows_unwrap fun _ _ => rfl) ?_
  rintro _ _ rfl
  refine Prog.Follows.bind (Q := fun state w => w = { RunView.initial with loaded := some loaded, state := some state } ∧
    state.status = loaded.status ∧ state.attempts = loaded.attempts ∧ state.completedSteps = loaded.completedSteps) ?_ ?_
  · unfold bindSpec
    split
    · exact ⟨rfl, rfl, rfl, rfl⟩
    · refine Prog.Follows.bind (Q := fun _ w => w = { RunView.initial with
          loaded := some loaded, state := some { loaded with specFingerprint := .str fingerprint } })
        (follows_save rfl ⟨rfl, rfl, .inr (by rw [hfp]; rfl), .inl rfl, fun _ => .inl rfl, fun hc => .inl hc, fun hw _ => hw⟩ rfl) ?_
      rintro _ _ rfl
      exact ⟨rfl, rfl, rfl, rfl⟩
  rintro state _ ⟨rfl, hst, ha, hc⟩
  exact resume_follows hvalid rfl rfl rfl (by rw [hst]) ha hc

/-- A definition that can be detached is valid and is detached as it is. -/
theorem detach_ok {repr : Doc → String} {spec spec' : TaskSpec} (h : detach repr spec = .ok spec') :
    spec' = spec ∧ spec.Valid := by
  unfold detach at h
  split at h
  · nomatch h
  split at h
  · nomatch h
  rw [TaskSpec.fromDict_fields] at h
  obtain ⟨_, hv, h⟩ := bind_ok.1 h
  exact ⟨(Except.ok.inj h).symm, TaskSpec.valid_of_validate hv⟩

/-- A run keeps to the discipline, whatever its store, its actions and their answers. -/
theorem run_follows (repr : Doc → String) (spec : TaskSpec) (actions : List String) (context : Dict Doc) :
    (run repr spec actions context).Follows (runDiscipline spec) (fun _ _ => True) RunView.initial := by
  refine Prog.Follows.bind (Q := fun spec' v => spec' = spec ∧ spec.Valid ∧ v = RunView.initial)
    (follows_unwrap fun _ h => ⟨(detach_ok h).1, (detach_ok h).2, rfl⟩) ?_
  rintro _ _ ⟨rfl, hvalid, rfl⟩
  refine Prog.Follows.bind (Q := fun _ v => v = RunView.initial) (follows_unwrap fun _ _ => rfl) ?_
  rintro _ _ rfl
  refine Prog.Follows.bind (Q := fun _ v => v = RunView.initial) ⟨trivial, fun r _ => ?_⟩ ?_
  · cases r with
    | ok u => rfl
    | error e => trivial
  rintro _ _ rfl
  exact runLocked_follows hvalid

end Walk

end Keirin

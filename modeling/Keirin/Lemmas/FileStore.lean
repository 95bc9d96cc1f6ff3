import Keirin.FileStore
import Keirin.Lemmas.RunDiscipline

/-!
# The invariant of the file store

`ItemOk` says what is in order in the log, `FileInv` what holds of the store at every point of a history: the file is the
last state written, and the calls of a step since it was last reconciled as not applied are among its recorded attempts,
which stay within what the step allows.
-/

namespace Keirin

namespace FileStore

open Runner

/-! ## One more entry -/

section Append

variable (log : List Item) (item : Item) (key : String)

@[simp] theorem lastState_append : lastState (log ++ [item]) = item.written.or (lastState log) := by
  simp [lastState]

@[simp] theorem calls_append : calls key (log ++ [item]) = calls key log + if item.isCall key then 1 else 0 := by
  simp [calls, List.countP_append, List.countP_cons]

@[simp] theorem callsSince_append : callsSince key (log ++ [item]) =
    if item.isNotApplied key then 0 else if item.isCall key then callsSince key log + 1 else callsSince key log := by
  simp [callsSince]

end Append

/-! ## What is in order -/

/-- The completed steps that are durable after a log. -/
def completedOf (log : List Item) : List Doc := ((lastState log).map TaskState.completedSteps).getD []

/-- A step was completed by operation `n`: its action returned a result, and its verifier passed if it has one. -/
def CompletedBy (spec : TaskSpec) (n : Nat) (log : List Item) (c : Doc) : Prop :=
  ∃ step ∈ spec.steps, c = .str step.stepId ∧
    (∃ call a r, Item.answered n call a ∈ log ∧ call.phase = .action ∧ call.stepId = step.stepId ∧
      Except.bind a normaliseActionResult = .ok r) ∧
    (step.verifier ≠ none → ∃ call a, Item.answered n call a ∈ log ∧ call.phase = .verification ∧
      call.stepId = step.stepId ∧ Except.bind a verificationPassed = .ok true)

/-- The state of a task with status `completed` has every step completed. -/
def FinishedOk (spec : TaskSpec) (state : TaskState) : Prop :=
  state.status = .completed → ∀ step ∈ spec.steps, state.done step.stepId = true

/-- An entry is in order after the entries `pre`: a call of an action finds its step not completed, the steps before it
completed, and an attempt left; a write adds only steps that were completed or reconciled as applied. -/
def ItemOk (spec : TaskSpec) (pre : List Item) : Item → Prop
  | .invoked _ call => call.phase = .action →
    ∃ state before step after, lastState pre = some state ∧ spec.steps = before ++ step :: after ∧
      call.stepId = step.stepId ∧ (∀ b ∈ before, state.done b.stepId = true) ∧ state.done step.stepId = false ∧
      (callsSince step.stepId pre + 1 : Int) ≤ step.maxAttempts
  | .saved n state => state.completedSteps.Nodup ∧ FinishedOk spec state ∧
    ∀ c ∈ state.completedSteps, c ∈ completedOf pre ∨ CompletedBy spec n pre c
  | .reconciled _ stepId resolution state => state.completedSteps.Nodup ∧ FinishedOk spec state ∧
    ∀ c ∈ state.completedSteps, c ∈ completedOf pre ∨ (c = .str stepId ∧ resolution = .appliedAndVerified)
  | .answered .. => True

/-- The progress that is durable; a task that was never saved has none. -/
def World.progress (taskId : String) (w : World) : TaskState := w.file.getD { taskId := taskId }

/-- What holds of the store at every point of a history. -/
structure FileInv (spec : TaskSpec) (w : World) : Prop where
  items : Log.Holds (ItemOk spec) w.log
  file : w.file = lastState w.log
  calls : ∀ key, (callsSince key w.log : Int) ≤ (w.progress spec.taskId).attemptsOf key
  bound : ∀ step ∈ spec.steps, (w.progress spec.taskId).attemptsOf step.stepId ≤ step.maxAttempts
  nodup : (w.progress spec.taskId).completedSteps.Nodup
  finished : FinishedOk spec (w.progress spec.taskId)

theorem completedOf_eq {spec : TaskSpec} {w : World} (h : FileInv spec w) :
    completedOf w.log = (w.progress spec.taskId).completedSteps := by
  rw [completedOf, ← h.file, World.progress]
  cases w.file <;> rfl

theorem fileInv_initial {spec : TaskSpec} (hv : spec.Valid) : FileInv spec .initial where
  items := Log.holds_nil _
  file := rfl
  calls := fun key => by simp [World.initial, callsSince, World.progress, TaskState.attemptsOf, Dict.getD, Dict.get?]
  bound := fun step hs => by
    have := (hv.steps step hs).positive
    simp only [World.initial, World.progress, TaskState.attemptsOf, Dict.getD, Dict.get?, Option.getD_none]
    omega
  nodup := List.nodup_nil
  finished := fun h => nomatch h

/-! ## A run -/

/-- What a run knows is so: the state it holds is the durable progress, and the calls it made are the calls since the last
reconciliation. -/
structure Knows (spec : TaskSpec) (n : Nat) (v : RunView) (w : World) : Prop where
  state : ∀ state, v.state = some state → state.completedSteps = (w.progress spec.taskId).completedSteps ∧
    state.attempts = (w.progress spec.taskId).attempts ∧ state.status = (w.progress spec.taskId).status
  loaded : ∀ loaded, v.loaded = some loaded → unresolved loaded = [] → ∀ key, 0 ≤ loaded.attemptsOf key ∧
    ((w.progress spec.taskId).done key = false → callsSince key w.log ≤ v.called.count key)
  durable : v.state ≠ none → v.loaded ≠ none
  acted : ∀ key ∈ v.acted, ∃ call a r, Item.answered n call a ∈ w.log ∧ call.phase = .action ∧ call.stepId = key ∧
    Except.bind a normaliseActionResult = .ok r
  verified : ∀ key ∈ v.verified, ∃ call a, Item.answered n call a ∈ w.log ∧ call.phase = .verification ∧
    call.stepId = key ∧ Except.bind a verificationPassed = .ok true

theorem FileInv.congr {spec : TaskSpec} {w w' : World} (h : FileInv spec w) (hf : w'.file = w.file) (hl : w'.log = w.log) :
    FileInv spec w' := by
  have hp : w'.progress spec.taskId = w.progress spec.taskId := by rw [World.progress, World.progress, hf]
  exact ⟨hl ▸ h.items, by rw [hf, hl]; exact h.file, by rw [hl, hp]; exact h.calls, by rw [hp]; exact h.bound,
    by rw [hp]; exact h.nodup, by rw [hp]; exact h.finished⟩

theorem Knows.congr {spec : TaskSpec} {n : Nat} {v : RunView} {w w' : World} (h : Knows spec n v w) (hf : w'.file = w.file)
    (hl : w'.log = w.log) : Knows spec n v w' := by
  have hp : w'.progress spec.taskId = w.progress spec.taskId := by rw [World.progress, World.progress, hf]
  exact ⟨by rw [hp]; exact h.state, by rw [hl, hp]; exact h.loaded, h.durable, by rw [hl]; exact h.acted,
    by rw [hl]; exact h.verified⟩

/-- An entry that is neither a write nor a call of an action keeps the invariant. -/
theorem FileInv.entry {spec : TaskSpec} {w : World} (h : FileInv spec w) {item : Item} (hok : ItemOk spec w.log item)
    (hw : item.written = none) (hc : ∀ key, item.isCall key = false) (hn : ∀ key, item.isNotApplied key = false) :
    FileInv spec { w with log := w.log ++ [item] } where
  items := h.items.append hok
  file := by rw [lastState_append, hw]; exact h.file
  calls := fun key => by rw [callsSince_append, hn, hc]; exact h.calls key
  bound := h.bound
  nodup := h.nodup
  finished := h.finished

section Run

variable {spec : TaskSpec} {n : Nat} {v : RunView} {w : World}

/-- A save of a run: `state` is what the run saves, with the time of the write. -/
theorem run_save (hv : spec.Valid) {old state : TaskState} {now : String} (hstate : v.state = some old)
    (hok : SaveOk spec v old state) (hk : Knows spec n v w) (hi : FileInv spec w) :
    let written := { state with updatedAt := now }
    let w' := { w with file := some written, log := w.log ++ [.saved n written] }
    FileInv spec w' ∧ Knows spec n { v with state := some state } w' := by
  intro written w'
  obtain ⟨hcomp, hatt, hstat⟩ := hk.state old hstate
  have hcalls (key : String) : callsSince key w'.log = callsSince key w.log := by
    change callsSince key (w.log ++ [.saved n written]) = _
    rw [callsSince_append]
    rfl
  have hsub (c : Doc) (hc : c ∈ old.completedSteps) : c ∈ state.completedSteps := by
    rcases hok.completed with he | ⟨step, -, -, he, -⟩
    · rw [he]; exact hc
    · rw [he]; exact List.mem_append_left _ hc
  have hof (key : String) : old.attemptsOf key = (w.progress spec.taskId).attemptsOf key := by
    simp only [TaskState.attemptsOf, hatt]
  have hnodup : state.completedSteps.Nodup := by
    have hnd : old.completedSteps.Nodup := hcomp ▸ hi.nodup
    rcases hok.completed with he | ⟨step, -, hfresh, he, -⟩
    · rw [he]; exact hnd
    · rw [he, List.nodup_append]
      refine ⟨hnd, List.nodup_singleton _, fun c hc d hd hcd => ?_⟩
      rw [List.mem_singleton.1 hd] at hcd
      exact (TaskState.done_false_iff _ _).1 hfresh (hcd ▸ hc)
  have hfin : FinishedOk spec state := by
    intro hs
    rcases hok.finished hs with h | h
    · intro step hmem
      have hdone := hi.finished (hstat ▸ h) step hmem
      rw [TaskState.done_iff, ← hcomp] at hdone
      exact (TaskState.done_iff _ _).2 (hsub _ hdone)
    · exact h
  refine ⟨⟨hi.items.append ⟨hnodup, hfin, fun c hc => ?_⟩, ?_, fun key => ?_, fun step hs => ?_, hnodup, hfin⟩,
    ⟨fun s hs => ?_, fun loaded hl hun key => ?_, fun _ => hk.durable (by simp [hstate]), fun key hkey => ?_, fun key hkey => ?_⟩⟩
  · rw [completedOf_eq hi, ← hcomp]
    rcases hok.completed with he | ⟨step, hmem, -, he, hact, hver⟩
    · exact .inl (he ▸ hc)
    · rw [show written.completedSteps = _ from he, List.mem_append, List.mem_singleton] at hc
      rcases hc with hc | rfl
      · exact .inl hc
      · exact .inr ⟨step, hmem, rfl, hk.acted _ hact, fun hne => hk.verified _ (hver hne)⟩
  · change some written = lastState (w.log ++ [.saved n written])
    rw [lastState_append]
    rfl
  · rw [hcalls]
    refine (hi.calls key).trans ?_
    change _ ≤ state.attemptsOf key
    rcases hok.attempts key with he | ⟨he, -⟩
    · rw [he, hof]
    · rw [he, hof]
      omega
  · change state.attemptsOf step.stepId ≤ step.maxAttempts
    rcases hok.attempts step.stepId with he | ⟨-, step', hmem', hid, -, hle⟩
    · rw [he, hof]; exact hi.bound step hs
    · rwa [List.inj_on_of_nodup_map hv.nodup hmem' hs hid] at hle
  · cases hs
    exact ⟨rfl, rfl, rfl⟩
  · obtain ⟨hnn, hcount⟩ := hk.loaded loaded hl hun key
    refine ⟨hnn, fun hnd => ?_⟩
    rw [hcalls]
    refine hcount ((TaskState.done_false_iff _ _).2 fun hm => ?_)
    exact (TaskState.done_false_iff _ _).1 hnd (hsub _ (hcomp ▸ hm))
  · obtain ⟨call, a, r, hm, hrest⟩ := hk.acted key hkey
    exact ⟨call, a, r, List.mem_append_left _ hm, hrest⟩
  · obtain ⟨call, a, hm, hrest⟩ := hk.verified key hkey
    exact ⟨call, a, List.mem_append_left _ hm, hrest⟩

/-- A call of an action by a run: the attempt that was recorded before it leaves room for it. -/
theorem run_invoke {c : ActionCall} {loaded state : TaskState}
    (hl : v.loaded = some loaded) (hs : v.state = some state) (hok : InvokeOk spec v loaded state c.stepId)
    (hk : Knows spec n v w) (hi : FileInv spec w) (hph : c.phase = .action) :
    FileInv spec { w with log := w.log ++ [.invoked n c] } ∧
      Knows spec n { v with called := c.stepId :: v.called } { w with log := w.log ++ [.invoked n c] } := by
  obtain ⟨hcomp, hatt, -⟩ := hk.state state hs
  obtain ⟨before, step, after, hsteps, hid, hbefore, -⟩ := hok.order
  have hmem : step ∈ spec.steps := by simp [hsteps]
  have hdone (key : String) : (w.progress spec.taskId).done key = state.done key := by
    simp only [TaskState.done, hcomp]
  obtain ⟨hnn, hcount⟩ := hk.loaded loaded hl hok.unresolved c.stepId
  have hle := hcount (by rw [hdone]; exact hok.fresh)
  have hrec := hok.recorded
  have hof : state.attemptsOf c.stepId = (w.progress spec.taskId).attemptsOf c.stepId := by
    simp only [TaskState.attemptsOf, hatt]
  have hroom : (callsSince c.stepId w.log + 1 : Int) ≤ (w.progress spec.taskId).attemptsOf c.stepId := by omega
  have hbound := hi.bound step hmem
  rw [← hid] at hbound
  obtain ⟨durable, hfile⟩ : ∃ d, w.file = some d := by
    cases hf : w.file with
    | some d => exact ⟨d, rfl⟩
    | none =>
      simp only [World.progress, hf, TaskState.attemptsOf, Dict.getD, Dict.get?, Option.getD_none] at hroom
      omega
  have hprog : w.progress spec.taskId = durable := by rw [World.progress, hfile]; rfl
  have hcalls (key : String) : callsSince key (w.log ++ [.invoked n c]) =
      if c.stepId = key then callsSince key w.log + 1 else callsSince key w.log := by
    rw [callsSince_append]
    simp [Item.isNotApplied, Item.isCall, hph]
  refine ⟨⟨hi.items.append fun _ => ?_, ?_, fun key => ?_, hi.bound, hi.nodup, hi.finished⟩,
    ⟨hk.state, fun loaded' hl' hun key => ?_, hk.durable, fun key hkey => ?_, fun key hkey => ?_⟩⟩
  · refine ⟨durable, before, step, after, by rw [← hi.file, hfile], hsteps, hid, fun b hb => ?_, ?_, ?_⟩
    · rw [← hprog, hdone]; exact hbefore b hb
    · rw [← hprog, hdone, ← hid]; exact hok.fresh
    · rw [← hid]; omega
  · rw [lastState_append]
    exact hi.file
  · change (callsSince key (w.log ++ [.invoked n c]) : Int) ≤ (w.progress spec.taskId).attemptsOf key
    rw [hcalls]
    split
    · rename_i he
      subst he
      push_cast
      exact hroom
    · exact hi.calls key
  · obtain ⟨hnn', hcount'⟩ := hk.loaded loaded' hl' hun key
    refine ⟨hnn', fun hnd => ?_⟩
    have := hcount' hnd
    change callsSince key (w.log ++ [.invoked n c]) ≤ (c.stepId :: v.called).count key
    rw [hcalls, List.count_cons]
    by_cases he : c.stepId = key <;> simp [he] <;> omega
  · obtain ⟨call, a, r, hm, hrest⟩ := hk.acted key hkey
    exact ⟨call, a, r, List.mem_append_left _ hm, hrest⟩
  · obtain ⟨call, a, hm, hrest⟩ := hk.verified key hkey
    exact ⟨call, a, List.mem_append_left _ hm, hrest⟩

/-- An entry that is neither a write nor a call of an action keeps what a run knows. -/
theorem Knows.entry (h : Knows spec n v w) {item : Item} (hc : ∀ key, item.isCall key = false)
    (hn : ∀ key, item.isNotApplied key = false) : Knows spec n v { w with log := w.log ++ [item] } where
  state := h.state
  loaded := fun loaded hl hun key => by
    rw [callsSince_append, hn, hc]
    exact h.loaded loaded hl hun key
  durable := h.durable
  acted := fun key hkey => by
    obtain ⟨call, a, r, hm, hrest⟩ := h.acted key hkey
    exact ⟨call, a, r, List.mem_append_left _ hm, hrest⟩
  verified := fun key hkey => by
    obtain ⟨call, a, hm, hrest⟩ := h.verified key hkey
    exact ⟨call, a, List.mem_append_left _ hm, hrest⟩

/-- What a load returns is the durable progress. -/
theorem load_ok {taskId now : String} {w : World} {state : TaskState}
    (h : ((checkTaskId taskId).bind fun _ =>
      match w.file with
      | none => .ok { taskId := taskId, updatedAt := now }
      | some state => if state.taskId ≠ taskId then .error (.valueError "task_state_id_mismatch") else .ok state) = .ok state) :
    state.completedSteps = (w.progress taskId).completedSteps ∧ state.attempts = (w.progress taskId).attempts ∧
      state.status = (w.progress taskId).status := by
  obtain ⟨_, -, h⟩ := bind_ok.1 h
  cases hf : w.file with
  | none =>
    simp only [hf] at h
    cases h
    simp [World.progress, hf]
  | some s =>
    simp only [hf] at h
    split at h
    · nomatch h
    · cases h
      simp [World.progress, hf]

/-- Loading the state. -/
theorem run_load {state : TaskState} (hs : state.completedSteps = (w.progress spec.taskId).completedSteps ∧
      state.attempts = (w.progress spec.taskId).attempts ∧ state.status = (w.progress spec.taskId).status)
    (hk : Knows spec n v w) (hi : FileInv spec w) :
    Knows spec n { v with loaded := some state, state := some state } w where
  state := fun s he => by cases he; exact hs
  loaded := fun loaded he hun key => by
    cases he
    have hof : state.attemptsOf key = (w.progress spec.taskId).attemptsOf key := by
      simp only [TaskState.attemptsOf, hs.2.1]
    have hcalls := hi.calls key
    refine ⟨by omega, fun hnd => ?_⟩
    have : state.attemptsOf key ≤ 0 := attemptsOf_nonpos hun (by rw [TaskState.done, hs.1]; exact hnd)
    omega
  durable := fun _ => by simp
  acted := hk.acted
  verified := hk.verified

/-- The answer of an action or a verifier. -/
theorem run_await {c : ActionCall} {a : Except ActionExc Returned} (hk : Knows spec n v w) :
    Knows spec n (v.next (.await c) a) { w with log := w.log ++ [.answered n c a] } := by
  have hk' : Knows spec n v { w with log := w.log ++ [.answered n c a] } := hk.entry (fun _ => rfl) (fun _ => rfl)
  simp only [RunView.next]
  cases hph : c.phase with
  | action =>
    cases hr : Except.bind a normaliseActionResult with
    | error e => exact hk'
    | ok r =>
      refine ⟨hk'.state, hk'.loaded, hk'.durable, fun key hkey => ?_, hk'.verified⟩
      rcases List.mem_cons.1 hkey with rfl | hkey
      · exact ⟨c, a, r, List.mem_append_right _ (List.mem_singleton_self _), hph, rfl, hr⟩
      · exact hk'.acted key hkey
  | verification =>
    cases hr : Except.bind a verificationPassed with
    | error e => exact hk'
    | ok b =>
      cases b with
      | false => exact hk'
      | true =>
        refine ⟨hk'.state, hk'.loaded, hk'.durable, hk'.acted, fun key hkey => ?_⟩
        rcases List.mem_cons.1 hkey with rfl | hkey
        · exact ⟨c, a, List.mem_append_right _ (List.mem_singleton_self _), hph, rfl, hr⟩
        · exact hk'.verified key hkey

/-- A command the discipline allows keeps the invariant and what the run knows. -/
theorem run_step (hv : spec.Valid) {c : RunnerCmd} {x : Choice} {r : c.Reply} {w' : World}
    (ha : (runDiscipline spec).allowed v c) (hk : Knows spec n v w) (hi : FileInv spec w)
    (hm : machine spec.taskId n (Item.saved n) w c x = some (r, w')) :
    FileInv spec w' ∧ Knows spec n (v.next c r) w' := by
  cases c with
  | lock =>
    cases x with
    | ok now => cases hm; exact ⟨hi, hk⟩
    | fail e => cases hm; exact ⟨hi, hk⟩
    | answer a => cases hm
  | «exists» =>
    cases x with
    | ok now => cases hm; exact ⟨hi, hk⟩
    | fail e => cases hm; exact ⟨hi, hk⟩
    | answer a => cases hm
  | event e =>
    cases x with
    | ok now => cases hm; exact ⟨hi.congr rfl rfl, hk.congr rfl rfl⟩
    | fail e => cases hm; exact ⟨hi, hk⟩
    | answer a => cases hm
  | load =>
    cases x with
    | ok now =>
      obtain ⟨hr, rfl⟩ := Prod.mk.inj (Option.some.inj hm)
      refine ⟨hi, ?_⟩
      cases r with
      | error e => exact hk
      | ok state => exact run_load (load_ok hr) hk hi
    | fail e => cases hm; exact ⟨hi, hk⟩
    | answer a => cases hm
  | save state =>
    cases x with
    | ok now =>
      simp only [machine] at hm
      split at hm
      · obtain ⟨rfl, rfl⟩ := Prod.mk.inj (Option.some.inj hm)
        obtain ⟨old, hold, hok⟩ := ha
        exact run_save hv hold hok hk hi
      · cases hm
    | fail e =>
      obtain ⟨rfl, rfl⟩ := Prod.mk.inj (Option.some.inj hm)
      exact ⟨hi, hk⟩
    | answer a => cases hm
  | invoke c =>
    cases x with
    | ok now =>
      cases hm
      by_cases hph : c.phase = .action
      · obtain ⟨loaded, state, hl, hs, hok⟩ := ha hph
        simp only [RunView.next, hph, if_true]
        exact run_invoke hl hs hok hk hi hph
      · simp only [RunView.next, hph, if_false]
        have hc : ∀ key, (Item.invoked n c).isCall key = false := fun key => by simp [Item.isCall, hph]
        exact ⟨hi.entry (fun h => absurd h hph) rfl hc (fun _ => rfl), hk.entry hc (fun _ => rfl)⟩
    | fail e => cases hm
    | answer a => cases hm
  | await c =>
    cases x with
    | ok now => cases hm
    | fail e => cases hm
    | answer a =>
      cases hm
      exact ⟨hi.entry trivial rfl (fun _ => rfl) (fun _ => rfl), run_await hk⟩

end Run

/-! ## Commands that succeed -/

section Commands

variable {α : Type} {taskId now : String} {n : ℕ} {mark : TaskState → Item} {xs : List Choice} {w : World}

theorem exec_lock {f : Unit → RunProg α} (h : checkTaskId taskId = .ok ()) :
    (lock >>= f).exec (machine taskId n mark) (.ok now :: xs) w = (f ()).exec (machine taskId n mark) xs w := by
  change (unwrap (checkTaskId taskId) >>= f).exec (machine taskId n mark) xs w = _
  rw [h]
  rfl

theorem exec_load {f : TaskState → RunProg α} {state : TaskState} (h : checkTaskId taskId = .ok ()) (hf : w.file = some state)
    (hid : state.taskId = taskId) :
    (loadState >>= f).exec (machine taskId n mark) (.ok now :: xs) w = (f state).exec (machine taskId n mark) xs w := by
  change (unwrap ((checkTaskId taskId).bind fun _ =>
    match w.file with
    | none => .ok { taskId := taskId, updatedAt := now }
    | some state => if state.taskId ≠ taskId then .error (.valueError "task_state_id_mismatch") else .ok state) >>= f).exec _ xs w = _
  rw [h, hf]
  change (unwrap (if state.taskId ≠ taskId then .error (.valueError "task_state_id_mismatch") else .ok state) >>= f).exec _ xs w = _
  rw [if_neg (not_not.2 hid)]
  rfl

theorem exec_save {f : Unit → RunProg α} {state : TaskState} (h : Doc.encodable { state with updatedAt := now }.toDict = true) :
    (saveState state >>= f).exec (machine taskId n mark) (.ok now :: xs) w = (f ()).exec (machine taskId n mark) xs
      { w with file := some { state with updatedAt := now }, log := w.log ++ [mark { state with updatedAt := now }] } := by
  have hm : machine taskId n mark w (.save state) (.ok now) = some (Except.ok (), { w with
      file := some { state with updatedAt := now }, log := w.log ++ [mark { state with updatedAt := now }] }) := if_pos h
  exact Prog.exec_cmd (k := fun rep => (unwrap rep >>= f : RunProg α)) hm

theorem exec_event {f : Unit → RunProg α} {eventType : String} {message : Doc} {stepId : Option String} {data : Dict Doc} :
    (appendEvent taskId eventType message stepId data >>= f).exec (machine taskId n mark) (.ok now :: xs) w =
      (f ()).exec (machine taskId n mark) xs { w with ledger := w.ledger ++
        [(now, { taskId := taskId, stepId := stepId, eventType := eventType, message := message, data := data })] } := rfl

end Commands

/-! ## A reconciliation -/

section Reconcile

variable {spec : TaskSpec} {w : World}

theorem safe_unwrap {α : Type} {m : Machine World RunnerCmd RunnerCmd.Reply Choice} {inv : World → Prop} {x : Except PyError α}
    {Q : α → World → Prop} (h : ∀ a, x = .ok a → Q a w) :
    (unwrap x).Safe (Setting.alone m inv) Q (fun _ _ => True) w := by
  cases x with
  | ok a =>
    intro t he _
    cases he
    exact h a rfl
  | error e => exact fun _ _ _ => trivial

/-- The fields a resolution changes. -/
theorem resolve_progress (stepId : String) (resolution : Resolution) (state : TaskState) :
    (∀ c ∈ (resolve stepId resolution state).completedSteps,
      c ∈ state.completedSteps ∨ (c = .str stepId ∧ resolution = .appliedAndVerified)) ∧
    (state.completedSteps.Nodup → (resolve stepId resolution state).completedSteps.Nodup) ∧
    (∀ key, (resolve stepId resolution state).attemptsOf key =
      if key = stepId ∧ resolution = .notApplied then 0 else state.attemptsOf key) ∧
    (resolve stepId resolution state).status ≠ .completed := by
  cases resolution with
  | notApplied =>
    refine ⟨fun c hc => .inl hc, fun h => h, fun key => ?_, fun h => by cases h⟩
    simp only [resolve, TaskState.attemptsOf, and_true]
    split
    · rename_i he
      rw [he, Dict.getD_pop_self]
    · rename_i hne
      rw [Dict.getD_pop_of_ne hne]
  | appliedAndVerified =>
    simp only [resolve]
    refine ⟨fun c hc => ?_, fun h => ?_, fun key => by simp [TaskState.attemptsOf], fun h => by cases h⟩
    · split at hc
      · exact .inl hc
      · rcases List.mem_append.1 hc with hc | hc
        · exact .inl hc
        · exact .inr ⟨List.mem_singleton.1 hc, trivial⟩
    · split
      · exact h
      · rename_i hd
        refine List.nodup_append.2 ⟨h, List.nodup_singleton _, fun c hc d hd' hcd => hd ?_⟩
        rw [List.mem_singleton.1 hd'] at hcd
        exact (TaskState.done_iff _ _).2 (hcd ▸ hc)
  | needsManualAction =>
    exact ⟨fun c hc => .inl hc, fun h => h, fun key => by simp [resolve, TaskState.attemptsOf], fun h => by cases h⟩

/-- The write of a reconciliation. -/
theorem reconcile_save (hv : spec.Valid) {n : Nat} {stepId : String} {resolution : Resolution} {old state written : TaskState}
    (ho : old.completedSteps = (w.progress spec.taskId).completedSteps ∧ old.attempts = (w.progress spec.taskId).attempts)
    (hs : state.completedSteps = (resolve stepId resolution old).completedSteps ∧
      state.attempts = (resolve stepId resolution old).attempts ∧ state.status = (resolve stepId resolution old).status)
    (hw : written.completedSteps = state.completedSteps ∧ written.attempts = state.attempts ∧ written.status = state.status)
    (hi : FileInv spec w) :
    FileInv spec { w with file := some written, log := w.log ++ [.reconciled n stepId resolution written] } := by
  obtain ⟨hadd, hnd, hatt, hstat⟩ := resolve_progress stepId resolution old
  have hcomp : written.completedSteps = (resolve stepId resolution old).completedSteps := hw.1.trans hs.1
  have hattempts (key : String) : written.attemptsOf key =
      if key = stepId ∧ resolution = .notApplied then 0 else (w.progress spec.taskId).attemptsOf key := by
    have h1 : written.attemptsOf key = (resolve stepId resolution old).attemptsOf key := by
      simp only [TaskState.attemptsOf, hw.2.1, hs.2.1]
    have h2 : old.attemptsOf key = (w.progress spec.taskId).attemptsOf key := by simp only [TaskState.attemptsOf, ho.2]
    rw [h1, hatt, h2]
  have hnodup : written.completedSteps.Nodup := by
    rw [hcomp]
    exact hnd (ho.1 ▸ hi.nodup)
  have hfin : FinishedOk spec written := fun h => absurd ((hw.2.2.trans hs.2.2).symm.trans h) hstat
  refine ⟨hi.items.append ⟨hnodup, hfin, fun c hc => ?_⟩, ?_, fun key => ?_, fun step hmem => ?_, hnodup, hfin⟩
  · rw [completedOf_eq hi, ← ho.1]
    exact hadd c (hcomp ▸ hc)
  · rw [lastState_append]
    rfl
  · change _ ≤ written.attemptsOf key
    rw [hattempts, callsSince_append]
    by_cases hk : key = stepId ∧ resolution = .notApplied
    · simp [Item.isNotApplied, hk]
    · have hkn : ¬(stepId = key ∧ resolution = .notApplied) := fun h => hk ⟨h.1.symm, h.2⟩
      simp only [Item.isNotApplied, Item.isCall, Bool.and_eq_true, decide_eq_true_eq, hkn, hk, if_false,
        Bool.false_eq_true]
      exact hi.calls key
  · change written.attemptsOf step.stepId ≤ step.maxAttempts
    rw [hattempts]
    split
    · have := (hv.steps step hmem).positive
      omega
    · exact hi.bound step hmem

/-- The artifacts of a reconciliation change the artifacts only. -/
theorem foldlM_updates_ok {items : List ArtifactItem} {s s' : TaskState} (h : items.foldlM applyArtifactUpdate s = .ok s') :
    ∃ arts, s' = { s with artifacts := arts } := by
  induction items generalizing s with
  | nil =>
    cases h
    exact ⟨s'.artifacts, rfl⟩
  | cons item items ih =>
    rw [List.foldlM_cons] at h
    obtain ⟨s₁, h₁, h⟩ := bind_ok.1 h
    obtain ⟨⟨arts, rfl⟩, -⟩ := applyArtifactUpdate_ok h₁
    obtain ⟨arts', rfl⟩ := ih h
    exact ⟨arts', rfl⟩

/-- The state a reconciliation writes, where the artifact updates led to `state`. -/
def written (r : Reconciliation) (resolution : Resolution) (now : String) (state : TaskState) : TaskState :=
  { resolve r.stepId resolution { state with reconciliations := state.reconciliations ++ [record r state] } with updatedAt := now }

/-- A state the file yields is blocked only where it is the one in the file. -/
theorem file_of_load {taskId now : String} {state : TaskState} (hb : state.status = .blocked)
    (h : ((checkTaskId taskId).bind fun _ =>
      match w.file with
      | none => .ok { taskId := taskId, updatedAt := now }
      | some state => if state.taskId ≠ taskId then .error (.valueError "task_state_id_mismatch") else .ok state) = .ok state) :
    w.file = some state ∧ state.taskId = taskId ∧ safeTaskId taskId = true := by
  obtain ⟨_, hsafe, h⟩ := bind_ok.1 h
  have hid : safeTaskId taskId = true := by simpa using raiseIf_ok.1 hsafe
  cases hf : w.file with
  | none =>
    simp only [hf] at h
    cases h
    nomatch hb
  | some s =>
    simp only [hf] at h
    by_cases hne : s.taskId ≠ taskId
    · rw [if_pos hne] at h
      nomatch h
    · rw [if_neg hne] at h
      cases h
      exact ⟨rfl, not_not.1 hne, hid⟩

/-- What a reconciliation keeps: what depends on the file and the log only, and what its one write keeps, which it makes where
the task is blocked and the arguments are in order. `P` is what is known once it was made. -/
theorem reconcile_effect {taskId : String} {n : ℕ} {mark : TaskState → Item} (r : Reconciliation) {inv : World → Prop} {P : Prop}
    (hkeep : ∀ w w' : World, w'.file = w.file → w'.log = w.log → inv w → inv w')
    (hsave : ∀ w old state resolution now, inv w → Resolution.ofText r.resolution = some resolution →
      isBlank r.stepId = false → isBlank r.note = false → w.file = some old → old.taskId = taskId → safeTaskId taskId = true →
      old.status = .blocked → (r.artifactUpdates.map ArtifactItem.update).foldlM applyArtifactUpdate old = .ok state →
      Doc.encodable (written r resolution now state).toDict = true →
      inv { w with file := some (written r resolution now state), log := w.log ++ [mark (written r resolution now state)] } ∧ P)
    (hi : inv w) :
    (reconcileBlockedStep taskId r).Safe (Setting.alone (machine taskId n mark) inv) (fun _ _ => P) (fun _ _ => True) w := by
  unfold reconcileBlockedStep
  refine Prog.safe_bind_alone (Q := fun _ _ => True) hi (Prog.safe_cmd_alone fun x rep t hm => ?_) fun _ w hi _ => ?_
  · cases x with
    | ok now =>
      cases hm
      exact ⟨hi, safe_unwrap fun _ _ => trivial⟩
    | fail e =>
      cases hm
      exact ⟨hi, safe_unwrap fun _ _ => trivial⟩
    | answer a => nomatch hm
  refine Prog.safe_bind_alone (Q := fun res _ => Resolution.ofText r.resolution = some res) hi (safe_unwrap fun res hres => ?_)
    fun resolution w hi hres => ?_
  · rw [checkResolution] at hres
    split at hres
    · rename_i he
      cases hres
      exact he
    · nomatch hres
  refine Prog.safe_bind_alone (Q := fun _ _ => isBlank r.stepId = false) hi
    (safe_unwrap fun _ h => by simpa using raiseIf_ok.1 h) fun _ w hi hstep => ?_
  refine Prog.safe_bind_alone (Q := fun _ _ => isBlank r.note = false) hi
    (safe_unwrap fun _ h => by simpa using raiseIf_ok.1 h) fun _ w hi hnote => ?_
  refine Prog.safe_bind_alone (Q := fun s w => s.status = .blocked →
      w.file = some s ∧ s.taskId = taskId ∧ safeTaskId taskId = true) hi
    (Prog.safe_cmd_alone fun x rep t hm => ?_) fun old w hi hfile => ?_
  · cases x with
    | ok now =>
      obtain ⟨hr, rfl⟩ := Prod.mk.inj (Option.some.inj hm)
      exact ⟨hi, safe_unwrap fun s hs hb => file_of_load hb (hr.trans hs)⟩
    | fail e =>
      cases hm
      exact ⟨hi, safe_unwrap fun _ h => nomatch h⟩
    | answer a => nomatch hm
  refine Prog.safe_bind_alone (Q := fun _ u => u = w ∧ old.status = .blocked) hi
    (safe_unwrap fun _ h => ⟨rfl, not_not.1 (raiseIf_ok.1 h)⟩) ?_
  rintro _ w hi ⟨rfl, hb⟩
  refine Prog.safe_bind_alone (Q := fun s u => u = w ∧
      (r.artifactUpdates.map ArtifactItem.update).foldlM applyArtifactUpdate old = .ok s) hi
    (safe_unwrap fun s hs => ⟨rfl, hs⟩) ?_
  rintro state w hi ⟨rfl, hstate⟩
  obtain ⟨hold, hid, hsafe⟩ := hfile hb
  refine Prog.safe_bind_alone (Q := fun _ _ => P) hi (Prog.safe_cmd_alone fun x rep t hm => ?_) fun _ w hi hP => ?_
  · cases x with
    | ok now =>
      simp only [machine] at hm
      split at hm
      · rename_i henc
        obtain ⟨rfl, rfl⟩ := Prod.mk.inj (Option.some.inj hm)
        obtain ⟨hi', hP⟩ := hsave w old state resolution now hi hres hstep hnote hold hid hsafe hb hstate henc
        exact ⟨hi', safe_unwrap fun _ _ => hP⟩
      · nomatch hm
    | fail e =>
      cases hm
      exact ⟨hi, safe_unwrap fun _ h => nomatch h⟩
    | answer a => nomatch hm
  refine Prog.safe_bind_alone (Q := fun _ _ => P) hi (Prog.safe_cmd_alone fun x rep t hm => ?_) fun _ _ _ hP _ _ _ => hP
  cases x with
  | ok now =>
    cases hm
    exact ⟨hkeep w _ rfl rfl hi, safe_unwrap fun _ _ => hP⟩
  | fail e =>
    cases hm
    exact ⟨hi, safe_unwrap fun _ _ => hP⟩
  | answer a => nomatch hm

/-- A reconciliation keeps the invariant, wherever it is cut off. -/
theorem reconcile_safe (hv : spec.Valid) (r : Reconciliation) (choices : List Choice) (n : Nat) (hi : FileInv spec w) :
    (reconcileBlockedStep spec.taskId r).Safe
      (Setting.alone (machine spec.taskId n ((Op.reconcile r choices).mark n)) (FileInv spec))
      (fun _ _ => True) (fun _ _ => True) w := by
  refine reconcile_effect r (fun _ _ hf hl hi => hi.congr hf hl) ?_ hi
  intro w old state resolution now hi hres _ _ hold _ _ _ hstate _
  obtain ⟨arts, rfl⟩ := foldlM_updates_ok hstate
  have hprog : w.progress spec.taskId = old := by
    rw [World.progress, hold]
    rfl
  simp only [Op.mark, hres]
  refine ⟨?_, trivial⟩
  exact @reconcile_save _ _ hv _ _ _ { old with
    artifacts := arts, reconciliations := old.reconciliations ++ [record r { old with artifacts := arts }] } _ _
    (hprog ▸ ⟨rfl, rfl⟩) ⟨rfl, rfl, rfl⟩ ⟨rfl, rfl, rfl⟩ hi

end Reconcile

/-! ## Histories -/

/-- Every operation keeps the invariant, wherever it is cut off. -/
theorem exec_inv (repr : Doc → String) {spec : TaskSpec} (hv : spec.Valid) {w : World} (hi : FileInv spec w) (op : Op) :
    FileInv spec (op.exec repr spec w) := by
  cases op with
  | run actions context choices =>
    refine FileInv.congr (w := (Prog.exec (machine spec.taskId w.ops (Item.saved w.ops)) choices w
      (Runner.run repr spec actions context)).1) ?_ rfl rfl
    refine Prog.exec_inv_alone choices hi ((run_follows repr spec actions context).safe_alone (J := Knows spec w.ops)
      (fun v w c x r t ha hk hi hm => ⟨trivial, run_step hv ha hk hi hm⟩) ?_)
    exact ⟨fun _ h => (nomatch h), fun _ h => (nomatch h), fun h => absurd rfl h, fun _ h => (nomatch h), fun _ h => (nomatch h)⟩
  | reconcile r choices =>
    exact FileInv.congr (Prog.exec_inv_alone choices hi (reconcile_safe hv r choices w.ops hi)) rfl rfl

/-- The invariant holds at the end of every history. -/
theorem history_inv (repr : Doc → String) {spec : TaskSpec} (hv : spec.Valid) (ops : List Op) :
    FileInv spec (history repr spec ops) := by
  unfold history
  induction ops using List.reverseRecOn with
  | nil => exact fileInv_initial hv
  | append_singleton ops op ih =>
    rw [List.foldl_append]
    exact exec_inv repr hv ih op

end FileStore

end Keirin

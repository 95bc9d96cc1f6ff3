import Keirin.Model

/-!
# Facts about definitions and states
-/

namespace Keirin

/-! ## Validation -/

/-- A valid step. -/
structure StepSpec.Valid (step : StepSpec) : Prop where
  stepId : isBlank step.stepId = false
  action : isBlank step.action = false
  positive : 1 ≤ step.maxAttempts
  single : step.retrySafe = false → step.maxAttempts = 1

theorem StepSpec.valid_of_validate {step : StepSpec} (h : step.validate = .ok ()) : step.Valid := by
  simp only [validate, raiseIf_bind_ok, raiseIf_ok, not_and, not_not, Bool.not_eq_true, not_lt] at h
  obtain ⟨h1, h2, h3, h4⟩ := h
  exact ⟨h1, h2, h3, h4⟩

/-- A valid definition. -/
structure TaskSpec.Valid (spec : TaskSpec) : Prop where
  nonempty : spec.steps ≠ []
  steps : ∀ step ∈ spec.steps, step.Valid
  nodup : (spec.steps.map StepSpec.stepId).Nodup
  allowed : ∀ step ∈ spec.steps, step.action ∈ spec.allowedActions

theorem TaskSpec.validateSteps_ok {allowed : List String} {steps : List StepSpec} {seen : List String}
    (h : validateSteps allowed steps seen = .ok ()) :
    (∀ step ∈ steps, step.Valid ∧ step.stepId ∉ seen ∧ step.action ∈ allowed) ∧ (steps.map StepSpec.stepId).Nodup := by
  induction steps generalizing seen with
  | nil => simp
  | cons step steps ih =>
    rw [validateSteps, bind_ok] at h
    obtain ⟨_, hv, h⟩ := h
    simp only [raiseIf_bind_ok, not_not] at h
    obtain ⟨hseen, hact, -, hrest⟩ := h
    obtain ⟨hall, hnd⟩ := ih hrest
    have hv' := StepSpec.valid_of_validate hv
    refine ⟨fun s hs => ?_, ?_⟩
    · rcases List.mem_cons.1 hs with rfl | hs
      · exact ⟨hv', hseen, hact⟩
      · obtain ⟨h1, h2, h3⟩ := hall s hs
        exact ⟨h1, fun hm => h2 (List.mem_cons_of_mem _ hm), h3⟩
    · rw [List.map_cons, List.nodup_cons]
      refine ⟨fun hm => ?_, hnd⟩
      obtain ⟨s, hs, he⟩ := List.mem_map.1 hm
      exact (hall s hs).2.1 (by rw [he]; exact List.mem_cons_self)

theorem TaskSpec.valid_of_validate {spec : TaskSpec} (h : spec.validate = .ok ()) : spec.Valid := by
  simp only [validate, raiseIf_bind_ok] at h
  obtain ⟨-, -, -, -, hne, -, h⟩ := h
  obtain ⟨hall, hnd⟩ := validateSteps_ok h
  exact ⟨by simpa using hne, fun s hs => (hall s hs).1, hnd, fun s hs => (hall s hs).2.2⟩

/-! ## Reading back what was written -/

theorem mapM_ok {ε α β : Type} {f : α → Except ε β} {g : β → α} (h : ∀ b, f (g b) = .ok b) (bs : List β) :
    (bs.map g).mapM f = .ok bs := by
  induction bs with
  | nil => rfl
  | cons b bs ih =>
    rw [List.map_cons, List.mapM_cons, h, ih]
    rfl

@[simp] theorem Doc.toDict_getOr_obj (fs : Dict Doc) : Doc.toDict (Doc.orElse (.obj fs) (.obj [])) = .ok fs := by
  cases fs <;> rfl

@[simp] theorem Doc.toList_getOr_arr (xs : List Doc) : Doc.toList (Doc.orElse (.arr xs) (.arr [])) = .ok xs := by
  cases xs <;> rfl

/-- A step is read back from its dictionary. -/
theorem StepSpec.fromDict_toDict (repr : Doc → String) (step : StepSpec) : fromDict repr step.toDict = .ok step := by
  obtain ⟨stepId, action, args, verifyAction, retrySafe, maxAttempts⟩ := step
  have h : fromDict repr (toDict ⟨stepId, action, args, verifyAction, retrySafe, maxAttempts⟩) =
      (Doc.toDict (Doc.orElse (.obj args) (.obj [])) >>= fun args => .ok
        { stepId := stepId, action := action, args := args,
          verifyAction := if Doc.ofOption verifyAction = .null then none else some (Doc.toStr repr (Doc.ofOption verifyAction)),
          retrySafe := retrySafe, maxAttempts := maxAttempts }) := rfl
  rw [h, Doc.toDict_getOr_obj]
  cases verifyAction <;> rfl

/-- A definition is read back from its dictionary, when it is valid. -/
theorem TaskSpec.fromDict_fields (repr : Doc → String) (spec : TaskSpec) :
    fromDict repr spec.fields = (spec.validate >>= fun _ => .ok spec) := by
  obtain ⟨taskId, title, goal, allowedActions, steps, inputs, completionConditions, schemaVersion⟩ := spec
  have hstr (xs : List String) : ((xs.map Json.str : List Doc).map (Doc.toStr repr)) = xs := by
    rw [List.map_map]
    exact List.map_id xs
  have hsv : Doc.toStr repr (Doc.orElse (.str schemaVersion) (.str "")) = schemaVersion := by
    by_cases h : schemaVersion = "" <;> simp [Doc.orElse, Doc.truthy, Doc.toStr, h]
  have h : fromDict repr (fields ⟨taskId, title, goal, allowedActions, steps, inputs, completionConditions, schemaVersion⟩) =
      (Doc.toList (Doc.orElse (.arr (allowedActions.map .str)) (.arr [])) >>= fun allowed =>
        Doc.toList (Doc.orElse (.arr (steps.map StepSpec.toDict)) (.arr [])) >>= fun steps =>
        steps.mapM (StepSpec.fromDict repr) >>= fun steps =>
        Doc.toDict (Doc.orElse (.obj inputs) (.obj [])) >>= fun inputs =>
        Doc.toList (Doc.orElse (.arr (completionConditions.map .str)) (.arr [])) >>= fun conditions =>
        (TaskSpec.validate ⟨taskId, title, goal, allowed.map (Doc.toStr repr), steps, inputs,
          conditions.map (Doc.toStr repr), Doc.toStr repr (Doc.orElse (.str schemaVersion) (.str ""))⟩) >>= fun _ =>
        .ok ⟨taskId, title, goal, allowed.map (Doc.toStr repr), steps, inputs, conditions.map (Doc.toStr repr),
          Doc.toStr repr (Doc.orElse (.str schemaVersion) (.str ""))⟩) := rfl
  rw [h, Doc.toList_getOr_arr, Doc.toList_getOr_arr, Doc.toDict_getOr_obj, Doc.toList_getOr_arr]
  have hsteps := mapM_ok (StepSpec.fromDict_toDict repr) steps
  simp only [bind, Except.bind, hsteps, hstr, hsv]

/-! ## Attempts and completed steps -/

namespace TaskState

@[simp] theorem done_iff (state : TaskState) (stepId : String) :
    state.done stepId = true ↔ Json.str stepId ∈ state.completedSteps := by
  simp [done]

@[simp] theorem done_false_iff (state : TaskState) (stepId : String) :
    state.done stepId = false ↔ Json.str stepId ∉ state.completedSteps := by
  simp [done]

end TaskState

end Keirin

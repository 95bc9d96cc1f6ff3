import Keirin.PythonData

/-!
# What can be encoded

A value has a digest exactly when all its numbers are finite; and a value whose keys stand once is equal to itself.
-/

namespace Keirin

/-! ## Lists of calls -/

/-- The calls over a list succeed when each of them does. -/
theorem mapM_ok_iff {ε α β : Type} {f : α → Except ε β} {xs : List α} {ys : List β} :
    xs.mapM f = .ok ys ↔ List.Forall₂ (fun x y => f x = .ok y) xs ys := by
  induction xs generalizing ys with
  | nil =>
    rw [List.mapM_nil, List.forall₂_nil_left_iff]
    exact ⟨fun h => (Except.ok.inj h).symm, fun h => by rw [h]; rfl⟩
  | cons x xs ih =>
    rw [List.mapM_cons, List.forall₂_cons_left_iff]
    constructor
    · intro h
      obtain ⟨y, hy, h⟩ := bind_ok.1 h
      obtain ⟨zs, hzs, h⟩ := bind_ok.1 h
      exact ⟨y, zs, hy, ih.1 hzs, (Except.ok.inj h).symm⟩
    · rintro ⟨y, zs, hy, hzs, rfl⟩
      exact bind_ok.2 ⟨y, hy, bind_ok.2 ⟨zs, ih.2 hzs, rfl⟩⟩

/-- What stands in the second of two related lists is related to something in the first. -/
theorem exists_of_mem_right {α β : Type} {r : α → β → Prop} {xs : List α} {ys : List β} (h : List.Forall₂ r xs ys) {y : β}
    (hy : y ∈ ys) : ∃ x ∈ xs, r x y := by
  induction h with
  | nil => nomatch hy
  | @cons x z _ _ hxz _ ih =>
    rcases List.mem_cons.1 hy with rfl | hy
    · exact ⟨x, List.mem_cons_self, hxz⟩
    · obtain ⟨w, hw, hr⟩ := ih hy
      exact ⟨w, List.mem_cons_of_mem _ hw, hr⟩

/-- What stands in the first of two related lists is related to something in the second. -/
theorem exists_of_mem_left {α β : Type} {r : α → β → Prop} {xs : List α} {ys : List β} (h : List.Forall₂ r xs ys) {x : α}
    (hx : x ∈ xs) : ∃ y ∈ ys, r x y :=
  exists_of_mem_right h.flip hx

/-- Calls whose results are known give the list of the results. -/
theorem mapM_eq_ok {ε α β : Type} {f : α → Except ε β} {g : α → β} {xs : List α} (h : ∀ x ∈ xs, f x = .ok (g x)) :
    xs.mapM f = .ok (xs.map g) := by
  rw [mapM_ok_iff, List.forall₂_map_right_iff, List.forall₂_same]
  exact h

/-- Calls that all succeed give a list. -/
theorem exists_mapM_ok {ε α β : Type} {f : α → Except ε β} {xs : List α} (h : ∀ x ∈ xs, ∃ y, f x = .ok y) :
    ∃ ys, xs.mapM f = .ok ys := by
  induction xs with
  | nil => exact ⟨[], rfl⟩
  | cons x xs ih =>
    obtain ⟨y, hy⟩ := h x List.mem_cons_self
    obtain ⟨ys, hys⟩ := ih fun z hz => h z (List.mem_cons_of_mem _ hz)
    exact ⟨y :: ys, mapM_ok_iff.2 (.cons hy (mapM_ok_iff.1 hys))⟩

/-- The calls over a list succeed with a given function when each of them gives its value. -/
theorem mapM_eq_map {ε α β : Type} {f : α → Except ε β} (g : α → β) {xs : List α} (h : ∀ x ∈ xs, f x = .ok (g x)) :
    xs.mapM f = .ok (xs.map g) := by
  refine mapM_ok_iff.2 ?_
  rw [List.forall₂_map_right_iff, List.forall₂_same]
  exact h

/-- Calls that all succeed, as a function where `g` is what each of them gives. -/
theorem mapM_ok_map {ε α β : Type} {f : α → Except ε β} {g : α → β} (hg : ∀ x y, f x = .ok y → y = g x) {xs : List α} {ys : List β}
    (h : xs.mapM f = .ok ys) : ys = xs.map g ∧ ∀ x ∈ xs, f x = .ok (g x) := by
  have hall : ∀ x ∈ xs, f x = .ok (g x) := by
    intro x hx
    obtain ⟨y, -, hy⟩ := exists_of_mem_left (mapM_ok_iff.1 h) hx
    exact hg x y hy ▸ hy
  exact ⟨Except.ok.inj (h.symm.trans (mapM_eq_map g hall)), hall⟩

/-! ## Parts of values -/

theorem subscript_ok {v w : Doc} {key : String} : subscript v key = .ok w ↔ v.get? key = some w := by
  cases v with
  | obj fs =>
    simp only [subscript, Json.get?]
    cases Dict.get? key fs with
    | none => exact ⟨fun h => (by cases h), fun h => (by cases h)⟩
    | some u => rw [Except.ok.injEq, Option.some.injEq]
  | _ => exact ⟨fun h => (by cases h), fun h => (by cases h)⟩

theorem subscript_of_get? {fs : Dict Doc} {key : String} {v : Doc} (h : Dict.get? key fs = some v) : subscript (.obj fs) key = .ok v :=
  subscript_ok.2 h

namespace Doc

/-! ## Finite values -/

@[simp] theorem finite_obj (fs : Dict Doc) : finite (.obj fs) = fs.all fun f => finite f.2 := Json.allNumFields_eq _ fs

@[simp] theorem finite_arr (xs : List Doc) : finite (.arr xs) = xs.all finite := Json.allNumList_eq _ xs

@[simp] theorem finite_str (s : String) : finite (.str s) = true := rfl

@[simp] theorem finite_bool (b : Bool) : finite (.bool b) = true := rfl

@[simp] theorem finite_null : finite .null = true := rfl

@[simp] theorem finite_int (n : ℤ) : finite (.num (.int n)) = true := rfl

theorem encodable_of_finite {v : Doc} (h : v.finite = true) : v.encodable = true :=
  Json.allNum_mono (fun n hn => by cases n <;> first | rfl | nomatch hn) v h

/-- A field of a finite mapping is finite. -/
theorem finite_get? {fs : Dict Doc} (h : finite (.obj fs) = true) {key : String} {v : Doc} (hv : Dict.get? key fs = some v) :
    v.finite = true := by
  rw [finite_obj, List.all_eq_true] at h
  exact h _ (Dict.mem_of_get? hv)

theorem finite_getD {fs : Dict Doc} (h : finite (.obj fs) = true) (key : String) : (Dict.getD fs key .null).finite = true := by
  cases hv : Dict.get? key fs with
  | none => simp [Dict.getD, hv]
  | some v => simpa [Dict.getD, hv] using finite_get? h hv

theorem finite_set {fs : Dict Doc} (h : finite (.obj fs) = true) (key : String) {v : Doc} (hv : v.finite = true) :
    finite (.obj (Dict.set key v fs)) = true := by
  rw [finite_obj, List.all_eq_true] at h ⊢
  induction fs with
  | nil => simpa [Dict.set] using hv
  | cons f fs ih =>
    obtain ⟨k, w⟩ := f
    rw [List.forall_mem_cons] at h
    rw [Dict.set]
    split_ifs
    · exact List.forall_mem_cons.2 ⟨hv, h.2⟩
    · exact List.forall_mem_cons.2 ⟨h.1, ih h.2⟩

end Doc

/-! ## Digests -/

theorem finite_of_digest {v : Doc} {d : String} (h : digest v = .ok d) : v.finite = true := by
  obtain ⟨_, hcheck, -⟩ := bind_ok.1 h
  unfold Doc.checkFinite at hcheck
  split_ifs at hcheck with _ hf
  simpa using hf

theorem digest_of_finite {v : Doc} (h : v.finite = true) : ∃ d, digest v = .ok d := by
  have hcheck : Doc.checkFinite v = .ok () := by simp [Doc.checkFinite, h, Doc.encodable_of_finite h]
  exact ⟨_, bind_ok.2 ⟨(), hcheck, rfl⟩⟩

/-! ## Equality -/

namespace Doc

/-- What is equal to a text is that text. -/
theorem pyEq_str {v : Doc} {t : String} : pyEq v (.str t) = true ↔ v = .str t := by
  cases v <;> simp [pyEq, eqNumber, number, eq_comm]

theorem eqNumber_self {v : Doc} (h : (number v).isSome = true) : eqNumber v v = true := by
  obtain ⟨n, hn⟩ := Option.isSome_iff_exists.1 h
  unfold eqNumber
  rw [hn]
  cases hv : n.value <;> simp [hv]

mutual

/-- A value whose keys stand once is equal to itself. -/
theorem pyEq_self (v : Doc) (h : v.keysOnce = true) : pyEq v v = true := by
  match v with
  | .null => rfl
  | .str s => simp [pyEq]
  | .bool b => exact eqNumber_self (v := .bool b) rfl
  | .num n => exact eqNumber_self (v := .num n) rfl
  | .arr xs => exact pyEqList_self xs h
  | .obj fs =>
    simp only [Json.keysOnce, Bool.and_eq_true, decide_eq_true_eq] at h
    simp only [pyEq, decide_true, Bool.true_and]
    exact pyEqFields_self fs fs h.2 fun f hf => Dict.get?_of_mem h.1 hf

theorem pyEqList_self (xs : List Doc) (h : Json.keysOnceList xs = true) : pyEqList xs xs = true := by
  match xs with
  | [] => rfl
  | x :: xs =>
    simp only [Json.keysOnceList, Bool.and_eq_true] at h
    simp only [pyEqList, Bool.and_eq_true]
    exact ⟨pyEq_self x h.1, pyEqList_self xs h.2⟩

theorem pyEqFields_self (fs gs : Dict Doc) (h : Json.keysOnceFields fs = true) (hmem : ∀ f ∈ fs, Dict.get? f.1 gs = some f.2) :
    pyEqFields fs gs = true := by
  match fs with
  | [] => rfl
  | (k, x) :: fs =>
    simp only [Json.keysOnceFields, Bool.and_eq_true] at h
    rw [List.forall_mem_cons] at hmem
    simp only [pyEqFields, hmem.1, Bool.and_eq_true]
    exact ⟨pyEq_self x h.1, pyEqFields_self fs gs h.2 hmem.2⟩

end

end Doc

end Keirin

import Keirin.Lemmas.PythonData
import Keirin.Lib.JsonSort

/-!
# Equality of values

Where every mapping has each key once, `==` is an equivalence: it compares numbers by value and looks a key of one mapping up in the
other. Equal values are both finite or neither.
-/

namespace Keirin.Doc

/-! ## Numbers -/

/-- What numbers are compared by: the value, where there is one. -/
def measure (n : Scalar) : ℚ ⊕ Scalar :=
  match n.value with
  | some q => .inl q
  | none => .inr n

theorem eqNumber_iff {v w : Doc} :
    eqNumber v w = true ↔ ∃ m n, number v = some m ∧ number w = some n ∧ measure m = measure n := by
  unfold eqNumber
  cases hv : number v with
  | none => simp
  | some m =>
    cases hw : number w with
    | none => simp
    | some n => cases hm : m.value <;> cases hn : n.value <;> simp [measure, hm, hn]

theorem eqNumber_symm {v w : Doc} (h : eqNumber v w = true) : eqNumber w v = true := by
  obtain ⟨m, n, hm, hn, heq⟩ := eqNumber_iff.1 h
  exact eqNumber_iff.2 ⟨n, m, hn, hm, heq.symm⟩

theorem eqNumber_trans {v w x : Doc} (h : eqNumber v w = true) (h' : eqNumber w x = true) : eqNumber v x = true := by
  obtain ⟨m, n, hm, hn, heq⟩ := eqNumber_iff.1 h
  obtain ⟨n', l, hn', hl, heq'⟩ := eqNumber_iff.1 h'
  cases hn.symm.trans hn'
  exact eqNumber_iff.2 ⟨m, l, hm, hl, heq.trans heq'⟩

/-! ## Containers -/

theorem pyEqList_iff {xs ys : List Doc} : pyEqList xs ys = true ↔ List.Forall₂ (fun x y => pyEq x y = true) xs ys := by
  induction xs generalizing ys with
  | nil => cases ys <;> simp [pyEqList]
  | cons x xs ih => cases ys <;> simp [pyEqList, ih]

theorem pyEqFields_iff {fs gs : Dict Doc} :
    pyEqFields fs gs = true ↔ ∀ f ∈ fs, ∃ y, Dict.get? f.1 gs = some y ∧ pyEq f.2 y = true := by
  induction fs with
  | nil => simp [pyEqFields]
  | cons f fs ih =>
    obtain ⟨k, x⟩ := f
    unfold pyEqFields
    rw [List.forall_mem_cons, ← ih]
    cases Dict.get? k gs <;> simp

theorem keysOnce_obj {fs : Dict Doc} : Json.keysOnce (.obj fs) = true ↔ (fs.map Prod.fst).Nodup ∧ ∀ f ∈ fs, f.2.keysOnce = true := by
  simp [Json.keysOnce, Json.keysOnceFields_eq]

theorem keysOnce_arr {xs : List Doc} : Json.keysOnce (.arr xs) = true ↔ ∀ x ∈ xs, x.keysOnce = true := by
  simp [Json.keysOnce, Json.keysOnceList_eq]

/-- Where one mapping has the keys of another and as many, the other has its keys. -/
theorem keys_subset {fs gs : Dict Doc} (hfs : (fs.map Prod.fst).Nodup) (hlength : fs.length = gs.length)
    (h : ∀ f ∈ fs, ∃ y, Dict.get? f.1 gs = some y ∧ pyEq f.2 y = true) : ∀ g ∈ gs, g.1 ∈ fs.map Prod.fst := by
  have hsubset : fs.map Prod.fst ⊆ gs.map Prod.fst := by
    intro k hk
    obtain ⟨f, hf, rfl⟩ := List.mem_map.1 hk
    obtain ⟨y, hy, -⟩ := h f hf
    exact List.mem_map.2 ⟨(f.1, y), Dict.mem_of_get? hy, rfl⟩
  have hperm := (List.subperm_of_subset hfs hsubset).perm_of_length_le (by simp [hlength])
  intro g hg
  exact hperm.mem_iff.2 (List.mem_map_of_mem hg)

mutual

theorem pyEq_symm (v w : Doc) (hv : v.keysOnce = true) (hw : w.keysOnce = true) (h : pyEq v w = true) : pyEq w v = true := by
  match v with
  | .null =>
    cases of_decide_eq_true h
    rfl
  | .str s =>
    cases of_decide_eq_true h
    simp [pyEq]
  | .bool b =>
    have hsymm := eqNumber_symm (show eqNumber (.bool b) w = true from h)
    cases w <;> exact hsymm
  | .num n =>
    have hsymm := eqNumber_symm (show eqNumber (.num n) w = true from h)
    cases w <;> exact hsymm
  | .arr xs =>
    cases w with
    | arr ys => exact pyEqList_symm xs ys (keysOnce_arr.1 hv) (keysOnce_arr.1 hw) h
    | _ => nomatch h
  | .obj fs =>
    cases w with
    | obj gs =>
      simp only [pyEq, Bool.and_eq_true, decide_eq_true_eq] at h ⊢
      obtain ⟨hlength, hfields⟩ := h
      refine ⟨hlength.symm, pyEqFields_iff.2 fun g hg => ?_⟩
      obtain ⟨hfs, hfsonce⟩ := keysOnce_obj.1 hv
      obtain ⟨hgs, hgsonce⟩ := keysOnce_obj.1 hw
      obtain ⟨f, hf, hkey⟩ := List.mem_map.1 (keys_subset hfs hlength (pyEqFields_iff.1 hfields) g hg)
      obtain ⟨y, hy, heq⟩ := pyEqFields_iff.1 hfields f hf
      have hgy : y = g.2 := Option.some.inj (hy.symm.trans (hkey ▸ Dict.get?_of_mem hgs hg))
      exact ⟨f.2, hkey ▸ Dict.get?_of_mem hfs hf, fields_symm fs hfsonce f hf g.2 (hgsonce g hg) (hgy ▸ heq)⟩
    | _ => nomatch h

theorem pyEqList_symm (xs ys : List Doc) (hxs : ∀ x ∈ xs, x.keysOnce = true) (hys : ∀ y ∈ ys, y.keysOnce = true)
    (h : pyEqList xs ys = true) : pyEqList ys xs = true := by
  match xs, ys with
  | [], [] => rfl
  | x :: xs, y :: ys =>
    rw [List.forall_mem_cons] at hxs hys
    simp only [pyEqList, Bool.and_eq_true] at h ⊢
    exact ⟨pyEq_symm x y hxs.1 hys.1 h.1, pyEqList_symm xs ys hxs.2 hys.2 h.2⟩
  | [], _ :: _ => nomatch h
  | _ :: _, [] => nomatch h

theorem fields_symm (fs : Dict Doc) (hfs : ∀ f ∈ fs, f.2.keysOnce = true) :
    ∀ f ∈ fs, ∀ y : Doc, y.keysOnce = true → pyEq f.2 y = true → pyEq y f.2 = true := by
  match fs with
  | [] => exact fun f hf => nomatch hf
  | (k, x) :: fs =>
    rw [List.forall_mem_cons] at hfs ⊢
    exact ⟨fun y hy h => pyEq_symm x y hfs.1 hy h, fields_symm fs hfs.2⟩

end

mutual

theorem pyEq_trans (v w x : Doc) (h : pyEq v w = true) (h' : pyEq w x = true) : pyEq v x = true := by
  match v with
  | .null =>
    cases of_decide_eq_true h
    exact h'
  | .str s =>
    cases of_decide_eq_true h
    exact h'
  | .bool b =>
    have hvw : eqNumber (.bool b) w = true := h
    cases w with
    | bool c => exact eqNumber_trans hvw h'
    | num n => exact eqNumber_trans hvw h'
    | _ => exact absurd hvw (by simp [eqNumber, number])
  | .num n =>
    have hvw : eqNumber (.num n) w = true := h
    cases w with
    | bool c => exact eqNumber_trans hvw h'
    | num n => exact eqNumber_trans hvw h'
    | _ => exact absurd hvw (by simp [eqNumber, number])
  | .arr xs =>
    cases w with
    | arr ys =>
      cases x with
      | arr zs => exact pyEqList_trans xs ys zs h h'
      | _ => nomatch h'
    | _ => nomatch h
  | .obj fs =>
    cases w with
    | obj gs =>
      cases x with
      | obj hs =>
        simp only [pyEq, Bool.and_eq_true, decide_eq_true_eq] at h h' ⊢
        refine ⟨h.1.trans h'.1, pyEqFields_iff.2 fun f hf => ?_⟩
        obtain ⟨y, hy, heq⟩ := pyEqFields_iff.1 h.2 f hf
        obtain ⟨z, hz, heq'⟩ := pyEqFields_iff.1 h'.2 (f.1, y) (Dict.mem_of_get? hy)
        exact ⟨z, hz, fields_trans fs f hf y z heq heq'⟩
      | _ => nomatch h'
    | _ => nomatch h

theorem pyEqList_trans (xs ys zs : List Doc) (h : pyEqList xs ys = true) (h' : pyEqList ys zs = true) : pyEqList xs zs = true := by
  match xs, ys, zs with
  | [], [], [] => rfl
  | x :: xs, y :: ys, z :: zs =>
    simp only [pyEqList, Bool.and_eq_true] at h h' ⊢
    exact ⟨pyEq_trans x y z h.1 h'.1, pyEqList_trans xs ys zs h.2 h'.2⟩
  | [], [], _ :: _ => nomatch h'
  | _ :: _, _ :: _, [] => nomatch h'
  | [], _ :: _, _ => nomatch h
  | _ :: _, [], _ => nomatch h

theorem fields_trans (fs : Dict Doc) :
    ∀ f ∈ fs, ∀ y z : Doc, pyEq f.2 y = true → pyEq y z = true → pyEq f.2 z = true := by
  match fs with
  | [] => exact fun f hf => nomatch hf
  | (k, x) :: fs =>
    rw [List.forall_mem_cons]
    exact ⟨fun y z h h' => pyEq_trans x y z h h', fields_trans fs⟩

end

/-! ## Finite values -/

theorem finite_of_eqNumber {v w : Doc} (h : eqNumber v w = true) (hw : w.finite = true) : v.finite = true := by
  obtain ⟨m, n, hm, hn, heq⟩ := eqNumber_iff.1 h
  have hvalue : ∀ n : Scalar, n.finite = true ↔ n.value.isSome := by
    intro n
    cases n <;> simp [Scalar.finite, Scalar.value]
  have hnfinite : n.finite = true := by
    cases w with
    | bool b => cases hn; rfl
    | num k => cases hn; exact hw
    | _ => cases hn
  have hmfinite : m.finite = true := by
    rw [hvalue] at hnfinite ⊢
    obtain ⟨q, hq⟩ := Option.isSome_iff_exists.1 hnfinite
    cases hmv : m.value with
    | some p => rfl
    | none => simp [measure, hmv, hq] at heq
  cases v with
  | bool b => rfl
  | num k => cases hm; exact hmfinite
  | _ => cases hm

mutual

/-- What is equal to a finite value is finite. -/
theorem finite_of_pyEq (v w : Doc) (h : pyEq v w = true) (hw : w.finite = true) : v.finite = true := by
  match v with
  | .null => rfl
  | .str s => rfl
  | .bool b => rfl
  | .num n => exact finite_of_eqNumber (show eqNumber (.num n) w = true from h) hw
  | .arr xs =>
    cases w with
    | arr ys =>
      rw [finite_arr, List.all_eq_true] at hw ⊢
      exact finiteList_of_pyEq xs ys h hw
    | _ => nomatch h
  | .obj fs =>
    cases w with
    | obj gs =>
      rw [finite_obj, List.all_eq_true] at hw ⊢
      simp only [pyEq, Bool.and_eq_true] at h
      intro f hf
      obtain ⟨y, hy, heq⟩ := pyEqFields_iff.1 h.2 f hf
      exact finiteFields_of_pyEq fs f hf y heq (hw _ (Dict.mem_of_get? hy))
    | _ => nomatch h

theorem finiteList_of_pyEq (xs ys : List Doc) (h : pyEqList xs ys = true) (hys : ∀ y ∈ ys, finite y = true) :
    ∀ x ∈ xs, finite x = true := by
  match xs, ys with
  | [], _ => exact fun x hx => nomatch hx
  | x :: xs, y :: ys =>
    rw [List.forall_mem_cons] at hys ⊢
    simp only [pyEqList, Bool.and_eq_true] at h
    exact ⟨finite_of_pyEq x y h.1 hys.1, finiteList_of_pyEq xs ys h.2 hys.2⟩
  | _ :: _, [] => nomatch h

theorem finiteFields_of_pyEq (fs : Dict Doc) : ∀ f ∈ fs, ∀ y : Doc, pyEq f.2 y = true → finite y = true → finite f.2 = true := by
  match fs with
  | [] => exact fun f hf => nomatch hf
  | (k, x) :: fs =>
    rw [List.forall_mem_cons]
    exact ⟨fun y h hy => finite_of_pyEq x y h hy, finiteFields_of_pyEq fs⟩

end

end Keirin.Doc

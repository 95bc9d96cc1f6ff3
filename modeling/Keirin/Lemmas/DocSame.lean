import Keirin.Lib.JsonRebuild
import Keirin.PythonData

/-!
# The same document

What a program reads of a document does not depend on the order of its keys: its fields, its texts and numbers, and what it writes of it.
-/

namespace Keirin.Doc

open Json (Same)

variable {v w : Doc}

theorem keysOnce_get? (h : v.keysOnce = true) {key : String} {x : Doc} (hx : v.get? key = some x) : x.keysOnce = true := by
  cases v with
  | obj fs =>
    rw [Json.keysOnce, Bool.and_eq_true, Json.keysOnceFields_eq, List.all_eq_true] at h
    exact h.2 (key, x) (Dict.mem_of_get? hx)
  | _ => nomatch hx

theorem keysOnce_field (h : v.keysOnce = true) (key : String) : (v.field key).keysOnce = true := by
  unfold field
  cases hx : v.get? key with
  | none => rfl
  | some x => exact keysOnce_get? h hx

theorem same_field (h : Same v w) (hv : v.keysOnce = true) (key : String) : Same (v.field key) (w.field key) := by
  have hget := h.get? hv key
  unfold field
  cases hx : v.get? key with
  | none =>
    cases hy : w.get? key with
    | none => rfl
    | some y =>
      rw [hx, hy] at hget
      nomatch hget
  | some x =>
    cases hy : w.get? key with
    | none =>
      rw [hx, hy] at hget
      nomatch hget
    | some y =>
      rw [hx, hy] at hget
      exact Option.some.inj hget

theorem isSome_get?_same (h : Same v w) (hv : v.keysOnce = true) (key : String) : (v.get? key).isSome = (w.get? key).isSome := by
  have hget := congrArg Option.isSome (h.get? hv key)
  rwa [Option.isSome_map, Option.isSome_map] at hget

/-- A value without parts is the same as itself only. -/
theorem eq_iff_of_same {u : Doc} (h : Same v w) (harr : ∀ xs, u ≠ .arr xs) (hobj : ∀ fs, u ≠ .obj fs) : v = u ↔ w = u := by
  constructor
  · rintro rfl
    exact (h.eq_of_leaf harr hobj).symm
  · rintro rfl
    exact (h.symm.eq_of_leaf harr hobj).symm

theorem eq_str_iff (h : Same v w) (s : String) : v = .str s ↔ w = .str s := eq_iff_of_same h nofun nofun

theorem eq_bool_iff (h : Same v w) (b : Bool) : v = .bool b ↔ w = .bool b := eq_iff_of_same h nofun nofun

theorem eq_num_iff (h : Same v w) (n : Scalar) : v = .num n ↔ w = .num n := eq_iff_of_same h nofun nofun

theorem eq_null_iff (h : Same v w) : v = .null ↔ w = .null := eq_iff_of_same h nofun nofun

/-- What is the same is equal, or both are arrays, or both are objects. -/
theorem same_cases (h : Same v w) : v = w ∨ (∃ xs ys, v = .arr xs ∧ w = .arr ys ∧ List.Forall₂ Same xs ys) ∨
    ∃ fs gs, v = .obj fs ∧ w = .obj gs := by
  cases v with
  | arr xs =>
    obtain ⟨ys, rfl, hys⟩ := h.arr
    exact .inr (.inl ⟨xs, ys, rfl, rfl, hys⟩)
  | obj fs =>
    obtain ⟨gs, rfl⟩ := h.obj
    exact .inr (.inr ⟨fs, gs, rfl, rfl⟩)
  | _ => exact .inl (h.eq_of_leaf nofun nofun)

theorem text?_same (h : Same v w) : v.text? = w.text? := by
  rcases same_cases h with rfl | ⟨xs, ys, rfl, rfl, -⟩ | ⟨fs, gs, rfl, rfl⟩ <;> rfl

theorem int?_same (h : Same v w) : v.int? = w.int? := by
  rcases same_cases h with rfl | ⟨xs, ys, rfl, rfl, -⟩ | ⟨fs, gs, rfl, rfl⟩ <;> rfl

theorem number_same (h : Same v w) : v.number = w.number := by
  rcases same_cases h with rfl | ⟨xs, ys, rfl, rfl, -⟩ | ⟨fs, gs, rfl, rfl⟩ <;> rfl

/-- The elements of a list, one by one. -/
theorem elements?_same (h : Same v w) : Option.Rel (List.Forall₂ Same) v.elements? w.elements? := by
  rcases same_cases h with rfl | ⟨xs, ys, rfl, rfl, hxs⟩ | ⟨fs, gs, rfl, rfl⟩
  · cases v.elements? with
    | none => exact .none
    | some xs => exact .some (List.forall₂_same.2 fun x _ => Same.refl x)
  · exact .some hxs
  · exact .none

theorem elements_same (h : Same v w) : List.Forall₂ Same (v.elements?.getD []) (w.elements?.getD []) := by
  rcases same_cases h with rfl | ⟨xs, ys, rfl, rfl, hxs⟩ | ⟨fs, gs, rfl, rfl⟩
  · exact List.forall₂_same.2 fun x _ => Same.refl x
  · exact hxs
  · exact .nil

/-- An object is rewritten by the program in the order of its keys. -/
theorem dumps_same (h : Same v w) (numText : Scalar → List Char) : v.dumps numText = w.dumps numText := by
  unfold Json.dumps
  rw [show v.sortKeys = w.sortKeys from h]

theorem checkFinite_same (h : Same v w) : checkFinite v = checkFinite w := by
  unfold checkFinite
  rw [show v.encodable = w.encodable from h.allNum _, show v.finite = w.finite from h.allNum _]

theorem digest_same (h : Same v w) : digest v = digest w := by
  unfold digest
  rw [checkFinite_same h, dumps_same h]

end Keirin.Doc

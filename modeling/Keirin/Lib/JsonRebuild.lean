import Keirin.Lib.JsonSort

/-!
# Rebuilding documents

A document passed on by a program that reads it and writes it again: its numbers are read and written as that program does, and
the fields of its objects may come back in another order. Where only the order changes, the result is the same document as the
one whose numbers alone are replaced (`same_rebuild`), so a chain of programs acts on the numbers one after the other.
-/

namespace Json

variable {ν μ ξ : Type}

section Rebuild

variable (f : ν → Json μ) (order : Dict (Json μ) → Dict (Json μ))

mutual

/-- Replace every number by a document, and the fields of every object, once they are rebuilt, by what `order` gives. -/
def rebuild : Json ν → Json μ
  | null => null
  | bool b => bool b
  | num n => f n
  | str s => str s
  | arr xs => arr (rebuildList xs)
  | obj fs => obj (order (rebuildFields fs))

def rebuildList : List (Json ν) → List (Json μ)
  | [] => []
  | x :: xs => rebuild x :: rebuildList xs

def rebuildFields : List (String × Json ν) → List (String × Json μ)
  | [] => []
  | (k, x) :: fs => (k, rebuild x) :: rebuildFields fs

end

attribute [grind =] rebuild rebuildList rebuildFields

theorem rebuildList_eq (xs : List (Json ν)) : rebuildList f order xs = xs.map (rebuild f order) := by
  induction xs with
  | nil => rfl
  | cons x xs ih => rw [rebuildList, ih, List.map_cons]

theorem rebuildFields_eq (fs : List (String × Json ν)) :
    rebuildFields f order fs = fs.map (fun e => (e.1, rebuild f order e.2)) := by
  induction fs with
  | nil => rfl
  | cons e fs ih => rw [rebuildFields, ih, List.map_cons]

end Rebuild

theorem bindNumList_eq (f : ν → Json μ) (xs : List (Json ν)) : bindNumList f xs = xs.map (bindNum f) := by
  induction xs with
  | nil => rfl
  | cons x xs ih => rw [bindNumList, ih, List.map_cons]

theorem bindNumFields_eq (f : ν → Json μ) (fs : List (String × Json ν)) :
    bindNumFields f fs = fs.map (fun e => (e.1, bindNum f e.2)) := by
  induction fs with
  | nil => rfl
  | cons e fs ih => rw [bindNumFields, ih, List.map_cons]

theorem keys_bindNumFields (f : ν → Json μ) (fs : List (String × Json ν)) :
    (bindNumFields f fs).map Prod.fst = fs.map Prod.fst := by
  rw [bindNumFields_eq, List.map_map]
  rfl

/-! ## Numbers after numbers -/

theorem bindNum_bindNum (f : ν → Json μ) (g : μ → Json ξ) (v : Json ν) :
    (v.bindNum f).bindNum g = v.bindNum (fun n => (f n).bindNum g) := by
  induction v using induct with
  | null => rfl
  | bool b => rfl
  | num n => rfl
  | str s => rfl
  | arr xs ih =>
    simp only [bindNum, bindNumList_eq, List.map_map]
    exact congrArg arr (List.map_congr_left ih)
  | obj fs ih =>
    simp only [bindNum, bindNumFields_eq, List.map_map]
    exact congrArg obj (List.map_congr_left fun e he => Prod.ext rfl (ih e he))

/-- Replacing the numbers of a document depends on the numbers it has only. -/
theorem bindNum_congr {f g : ν → Json μ} {p : ν → Bool} (h : ∀ n, p n = true → f n = g n) {v : Json ν} (hv : v.allNum p = true) :
    v.bindNum f = v.bindNum g := by
  induction v using induct with
  | null => rfl
  | bool b => rfl
  | num n => exact h n hv
  | str s => rfl
  | arr xs ih =>
    rw [allNum, allNumList_eq, List.all_eq_true] at hv
    simp only [bindNum, bindNumList_eq]
    exact congrArg arr (List.map_congr_left fun x hx => ih x hx (hv x hx))
  | obj fs ih =>
    rw [allNum, allNumFields_eq, List.all_eq_true] at hv
    simp only [bindNum, bindNumFields_eq]
    exact congrArg obj (List.map_congr_left fun e he => Prod.ext rfl (ih e he (hv e he)))

theorem bindNum_num (v : Json ν) : v.bindNum num = v := by
  induction v using induct with
  | null => rfl
  | bool b => rfl
  | num n => rfl
  | str s => rfl
  | arr xs ih =>
    rw [bindNum, bindNumList_eq]
    exact congrArg arr ((List.map_congr_left ih).trans (List.map_id xs))
  | obj fs ih =>
    rw [bindNum, bindNumFields_eq]
    have hid : ∀ e ∈ fs, (e.1, e.2.bindNum num) = id e := fun e he => Prod.ext rfl (ih e he)
    exact congrArg obj ((List.map_congr_left hid).trans (List.map_id fs))

theorem allNum_bindNum (f : ν → Json μ) (p : μ → Bool) (v : Json ν) :
    (v.bindNum f).allNum p = v.allNum (fun n => (f n).allNum p) := by
  induction v using induct with
  | null => rfl
  | bool b => rfl
  | num n => rfl
  | str s => rfl
  | arr xs ih =>
    rw [bindNum, allNum, allNum, allNumList_eq, allNumList_eq, bindNumList_eq, List.all_map]
    exact all_congr_mem ih
  | obj fs ih =>
    rw [bindNum, allNum, allNum, allNumFields_eq, allNumFields_eq, bindNumFields_eq, List.all_map]
    exact all_congr_mem ih

theorem allNum_true (v : Json ν) : v.allNum (fun _ => true) = true := by
  induction v using induct with
  | null => rfl
  | bool b => rfl
  | num n => rfl
  | str s => rfl
  | arr xs ih =>
    rw [allNum, allNumList_eq, List.all_eq_true]
    exact ih
  | obj fs ih =>
    rw [allNum, allNumFields_eq, List.all_eq_true]
    exact ih

theorem keysOnce_bindNum {f : ν → Json μ} (hf : ∀ n, (f n).keysOnce = true) (v : Json ν) :
    (v.bindNum f).keysOnce = v.keysOnce := by
  induction v using induct with
  | null => rfl
  | bool b => rfl
  | num n => exact hf n
  | str s => rfl
  | arr xs ih =>
    rw [bindNum, keysOnce, keysOnce, keysOnceList_eq, keysOnceList_eq, bindNumList_eq, List.all_map]
    exact all_congr_mem ih
  | obj fs ih =>
    rw [bindNum, keysOnce, keysOnce, keysOnceFields_eq, keysOnceFields_eq, keys_bindNumFields, bindNumFields_eq, List.all_map]
    exact congrArg _ (all_congr_mem ih)

/-! ## The same document -/

theorem Same.refl (v : Json ν) : Same v v := rfl

theorem Same.symm {v w : Json ν} (h : Same v w) : Same w v := Eq.symm h

theorem Same.trans {u v w : Json ν} (h : Same u v) (h' : Same v w) : Same u w := Eq.trans h h'

theorem same_sortKeys (v : Json ν) : Same v.sortKeys v := sortKeys_sortKeys v

theorem Same.keysOnce {v w : Json ν} (h : Same v w) : v.keysOnce = w.keysOnce := by
  rw [← keysOnce_sortKeys v, ← keysOnce_sortKeys w, h]

theorem Same.allNum {v w : Json ν} (h : Same v w) (p : ν → Bool) : v.allNum p = w.allNum p := by
  rw [← allNum_sortKeys p v, ← allNum_sortKeys p w, h]

/-- Arrays are the same where their elements are. -/
theorem same_arr {xs ys : List (Json ν)} (h : List.Forall₂ Same xs ys) : Same (arr xs) (arr ys) := by
  unfold Same
  rw [sortKeys, sortKeys, sortKeysList_eq, sortKeysList_eq]
  refine congrArg arr ?_
  induction h with
  | nil => rfl
  | cons hxy _ ih => rw [List.map_cons, List.map_cons, ih, show _ = _ from hxy]

/-- Two lists of fields sorted by their keys are equal where one is the other in another order and each key stands once. -/
theorem sorted_eq {fs gs : Dict (Json ν)} (h : fs.Perm gs) (hk : (fs.map Prod.fst).Nodup) :
    fs.insertionSort (fun a b => a.1 ≤ b.1) = gs.insertionSort (fun a b => a.1 ≤ b.1) := by
  have hperm : (fs.insertionSort (fun a b => a.1 ≤ b.1)).Perm (gs.insertionSort (fun a b => a.1 ≤ b.1)) :=
    (List.perm_insertionSort _ _).trans (h.trans (List.perm_insertionSort _ _).symm)
  refine hperm.eq_of_pairwise (fun a b ha hb hab hba => ?_) (List.pairwise_insertionSort _ _) (List.pairwise_insertionSort _ _)
  have hakeys : a ∈ fs := (List.perm_insertionSort _ _).mem_iff.1 ha
  have hbkeys : b ∈ fs := h.mem_iff.2 ((List.perm_insertionSort _ _).mem_iff.1 hb)
  exact List.inj_on_of_nodup_map hk hakeys hbkeys (String.le_antisymm hab hba)

/-- Objects are the same where their fields are, in whatever order. -/
theorem same_obj {fs gs : Dict (Json ν)} (hk : (fs.map Prod.fst).Nodup) {hs : Dict (Json ν)} (hperm : fs.Perm hs)
    (h : List.Forall₂ (fun f g => f.1 = g.1 ∧ Same f.2 g.2) hs gs) : Same (obj fs) (obj gs) := by
  have hmap : hs.map (fun f => (f.1, f.2.sortKeys)) = gs.map (fun f => (f.1, f.2.sortKeys)) := by
    clear hperm
    induction h with
    | nil => rfl
    | cons hfg _ ih => rw [List.map_cons, List.map_cons, ih, hfg.1, show _ = _ from hfg.2]
  unfold Same
  rw [sortKeys, sortKeys, sortKeysFields_eq, sortKeysFields_eq, ← hmap]
  refine congrArg obj (sorted_eq (hperm.map _) ?_)
  rw [List.map_map]
  exact hk

/-- A field of an object, and that of the same object. -/
theorem Same.get? {v w : Json ν} (h : Same v w) (hv : v.keysOnce = true) (key : String) :
    (v.get? key).map sortKeys = (w.get? key).map sortKeys := by
  have hget : ∀ u : Json ν, u.keysOnce = true → (u.get? key).map sortKeys = u.sortKeys.get? key := by
    intro u hu
    cases u with
    | obj fs =>
      rw [Json.keysOnce, Bool.and_eq_true, decide_eq_true_eq] at hu
      rw [get?_sortKeys hu.1]
      rfl
    | _ => rfl
  rw [hget v hv, hget w (h.keysOnce ▸ hv), show v.sortKeys = w.sortKeys from h]

/-- What is the same as an array is one, element by element. -/
theorem Same.arr {xs : List (Json ν)} {w : Json ν} (h : Same (arr xs) w) : ∃ ys, w = .arr ys ∧ List.Forall₂ Same xs ys := by
  cases w with
  | arr ys =>
    refine ⟨ys, rfl, ?_⟩
    have hlist : xs.map sortKeys = ys.map sortKeys := by
      have := h
      unfold Same at this
      rwa [sortKeys, sortKeys, sortKeysList_eq, sortKeysList_eq, arr.injEq] at this
    have heq : List.Forall₂ (· = ·) (xs.map sortKeys) (ys.map sortKeys) := List.forall₂_eq_eq_eq ▸ hlist
    rwa [List.forall₂_map_left_iff, List.forall₂_map_right_iff] at heq
  | _ => exact absurd h (by unfold Same; simp [sortKeys])

/-- What is the same as an object is one. -/
theorem Same.obj {fs : Dict (Json ν)} {w : Json ν} (h : Same (obj fs) w) : ∃ gs, w = .obj gs := by
  cases w with
  | obj gs => exact ⟨gs, rfl⟩
  | _ => exact absurd h (by unfold Same; simp [sortKeys])

/-- A document that is no array or object is the same as itself only. -/
theorem Same.eq_of_leaf {v w : Json ν} (h : Same v w) (harr : ∀ xs, v ≠ .arr xs) (hobj : ∀ fs, v ≠ .obj fs) : v = w := by
  cases v with
  | arr xs => exact absurd rfl (harr xs)
  | obj fs => exact absurd rfl (hobj fs)
  | _ => cases w <;> simp_all [Same, sortKeys]

/-! ## The same document, rebuilt -/

/-- Rebuilding that only changes the order of fields gives the document with its numbers replaced. -/
theorem same_rebuild {num : ν → Json μ} {fields : Dict (Json μ) → Dict (Json μ)}
    (hfields : ∀ fs, (fs.map Prod.fst).Nodup → (fields fs).Perm fs) {v : Json ν} (hv : v.keysOnce = true) :
    Same (v.rebuild num fields) (v.bindNum num) := by
  induction v using induct with
  | null => rfl
  | bool b => rfl
  | num n => rfl
  | str s => rfl
  | arr xs ih =>
    rw [keysOnce, keysOnceList_eq, List.all_eq_true] at hv
    rw [rebuild, bindNum, rebuildList_eq, bindNumList_eq]
    refine same_arr ?_
    rw [List.forall₂_map_left_iff, List.forall₂_map_right_iff]
    exact List.forall₂_same.2 fun x hx => ih x hx (hv x hx)
  | obj fs ih =>
    rw [keysOnce, Bool.and_eq_true, decide_eq_true_eq, keysOnceFields_eq, List.all_eq_true] at hv
    have hkeys : ((rebuildFields num fields fs).map Prod.fst).Nodup := by
      rw [rebuildFields_eq, List.map_map]
      exact hv.1
    have hperm := hfields _ hkeys
    rw [rebuild, bindNum, bindNumFields_eq]
    refine same_obj ((hperm.map Prod.fst).nodup_iff.2 hkeys) hperm ?_
    rw [rebuildFields_eq, List.forall₂_map_left_iff, List.forall₂_map_right_iff]
    exact List.forall₂_same.2 fun f hf => ⟨rfl, ih f hf (hv.2 f hf)⟩

theorem keysOnce_rebuild {num : ν → Json μ} {fields : Dict (Json μ) → Dict (Json μ)}
    (hfields : ∀ fs, (fs.map Prod.fst).Nodup → (fields fs).Perm fs) (hnum : ∀ n, (num n).keysOnce = true) {v : Json ν}
    (hv : v.keysOnce = true) : (v.rebuild num fields).keysOnce = true := by
  rw [(same_rebuild hfields hv).keysOnce, keysOnce_bindNum hnum, hv]

/-- Sorting and replacing the numbers by documents without fields come to the same in either order. -/
theorem sortKeys_bindNum {f : ν → Json μ} (hf : ∀ n, (f n).sortKeys = f n) (v : Json ν) :
    (v.bindNum f).sortKeys = v.sortKeys.bindNum f := by
  induction v using induct with
  | null => rfl
  | bool b => rfl
  | num n => exact hf n
  | str s => rfl
  | arr xs ih =>
    simp only [bindNum, sortKeys, sortKeysList_eq, bindNumList_eq, List.map_map]
    exact congrArg arr (List.map_congr_left ih)
  | obj fs ih =>
    have hsort : ∀ gs : Dict (Json ν), (gs.map (fun g => (g.1, g.2.bindNum f))).insertionSort (fun a b => a.1 ≤ b.1) =
        (gs.insertionSort (fun a b => a.1 ≤ b.1)).map (fun g => (g.1, g.2.bindNum f)) := by
      intro gs
      exact (List.map_insertionSort (fun a b : String × Json ν => a.1 ≤ b.1) (fun a b : String × Json μ => a.1 ≤ b.1)
        (fun g => (g.1, g.2.bindNum f)) gs fun _ _ _ _ => Iff.rfl).symm
    simp only [bindNum, sortKeys, sortKeysFields_eq, bindNumFields_eq, List.map_map]
    rw [← hsort, List.map_map]
    refine congrArg obj (congrArg _ (List.map_congr_left fun e he => Prod.ext rfl (ih e he)))

theorem Same.bindNum {f : ν → Json μ} (hf : ∀ n, (f n).sortKeys = f n) {v w : Json ν} (h : Same v w) :
    Same (v.bindNum f) (w.bindNum f) := by
  unfold Same
  rw [sortKeys_bindNum hf, sortKeys_bindNum hf, show v.sortKeys = w.sortKeys from h]

/-- A field of a rebuilt object. -/
theorem get?_rebuild {num : ν → Json μ} {fields : Dict (Json μ) → Dict (Json μ)}
    (hfields : ∀ fs, (fs.map Prod.fst).Nodup → (fields fs).Perm fs) {fs : Dict (Json ν)} (hk : (fs.map Prod.fst).Nodup)
    (key : String) : ((Json.obj fs).rebuild num fields).get? key = (Dict.get? key fs).map (Json.rebuild num fields) := by
  have hkeys : ((rebuildFields num fields fs).map Prod.fst).Nodup := by
    rw [rebuildFields_eq, List.map_map]
    exact hk
  have hperm := hfields _ hkeys
  rw [rebuild, Json.get?, Dict.get?_perm hperm ((hperm.map Prod.fst).nodup_iff.2 hkeys), rebuildFields_eq, Dict.get?_map]

/-- A field of an object whose numbers are replaced. -/
theorem get?_bindNum (f : ν → Json μ) (v : Json ν) (key : String) (hv : ∀ n, v ≠ .num n) :
    (v.bindNum f).get? key = (v.get? key).map (Json.bindNum f) := by
  cases v with
  | num n => exact absurd rfl (hv n)
  | obj fs => rw [Json.bindNum, Json.get?, Json.get?, bindNumFields_eq, Dict.get?_map]
  | _ => rfl

end Json

import Keirin.Lib.JsonRebuild
import Keirin.Lib.JsonRoundTrip

/-!
# Compact texts

A text without gaps and with sorted keys determines the document up to the order of its keys.
-/

namespace Json

variable {ν : Type} {numText numText' : ν → List Char} {p : ν → Bool} {gap : List Char}

mutual

theorem render_eq_spaced (v : Json ν) : v.render numText = spaced [] numText v := by
  match v with
  | .null => rfl
  | .bool true => rfl
  | .bool false => rfl
  | .num n => rfl
  | .str s => rfl
  | .arr xs => rw [render, spaced, renderList_eq_spaced xs]
  | .obj fs => rw [render, spaced, renderFields_eq_spaced fs]

theorem renderList_eq_spaced (xs : List (Json ν)) : renderList numText xs = spacedList [] numText xs := by
  match xs with
  | [] => rfl
  | [x] => rw [renderList, spacedList, render_eq_spaced x]
  | x :: y :: xs => rw [renderList, spacedList, render_eq_spaced x, renderList_eq_spaced (y :: xs), List.nil_append]

theorem renderFields_eq_spaced (fs : List (String × Json ν)) : renderFields numText fs = spacedFields [] numText fs := by
  match fs with
  | [] => rfl
  | [(k, x)] => rw [renderFields, spacedFields, render_eq_spaced x, List.nil_append]
  | (k, x) :: f :: fs =>
    rw [renderFields, spacedFields, render_eq_spaced x, renderFields_eq_spaced (f :: fs), List.nil_append, List.nil_append]

end

section Congr

variable (h : ∀ n, p n = true → numText n = numText' n)

include h

mutual

/-- A text depends on the texts of the numbers it has only. -/
theorem spaced_congr (v : Json ν) (hv : v.allNum p = true) : spaced gap numText v = spaced gap numText' v := by
  match v with
  | .null => rfl
  | .bool true => rfl
  | .bool false => rfl
  | .num n => exact h n hv
  | .str s => rfl
  | .arr xs => rw [spaced, spaced, spacedList_congr xs hv]
  | .obj fs => rw [spaced, spaced, spacedFields_congr fs hv]

theorem spacedList_congr (xs : List (Json ν)) (hv : allNumList p xs = true) : spacedList gap numText xs = spacedList gap numText' xs := by
  match xs with
  | [] => rfl
  | [x] =>
    rw [allNumList, Bool.and_eq_true] at hv
    rw [spacedList, spacedList, spaced_congr x hv.1]
  | x :: y :: xs =>
    rw [allNumList, Bool.and_eq_true] at hv
    rw [spacedList, spacedList, spaced_congr x hv.1, spacedList_congr (y :: xs) hv.2]

theorem spacedFields_congr (fs : List (String × Json ν)) (hv : allNumFields p fs = true) :
    spacedFields gap numText fs = spacedFields gap numText' fs := by
  match fs with
  | [] => rfl
  | [(k, x)] =>
    rw [allNumFields, Bool.and_eq_true] at hv
    rw [spacedFields, spacedFields, spaced_congr x hv.1]
  | (k, x) :: f :: fs =>
    rw [allNumFields, Bool.and_eq_true] at hv
    rw [spacedFields, spacedFields, spaced_congr x hv.1, spacedFields_congr (f :: fs) hv.2]

end

end Congr

/-- Documents with one compact text are the same up to the order of their keys. -/
theorem same_of_dumps {scan : List Char → Option (ν × List Char)} (hnum : ∀ n, p n = true → NumOk scan numText n) {v w : Json ν}
    (hv : v.allNum p = true) (hw : w.allNum p = true) (hkv : v.keysOnce = true) (hkw : w.keysOnce = true)
    (h : v.dumps numText = w.dumps numText) : Same v w := by
  have hread : ∀ {v : Json ν}, v.allNum p = true → v.keysOnce = true → read scan (v.dumps numText) = some v.sortKeys := by
    intro v hv hkv
    rw [dumps, render_eq_spaced]
    refine read_spaced (fun _ hc => absurd hc List.not_mem_nil) hnum ?_ ?_
    · rw [allNum_sortKeys]
      exact hv
    · rw [keysOnce_sortKeys]
      exact hkv
  have hsame := hread hw hkw
  rw [← h, hread hv hkv] at hsame
  exact Option.some.inj hsame

end Json

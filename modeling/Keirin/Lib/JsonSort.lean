import Keirin.Lib.JsonRoundTrip

/-!
# Sorted documents

Sorting the keys of a document changes nothing but their order: the numbers, the characters and the keys are the same, and
sorting once more changes nothing. Two documents that are the same when sorted are equal but for the order of their fields.
-/

namespace Json

variable {ν : Type}

theorem sortKeysFields_eq (fs : List (String × Json ν)) : sortKeysFields fs = fs.map (fun f => (f.1, f.2.sortKeys)) := by
  induction fs with
  | nil => rfl
  | cons f fs ih =>
    rw [sortKeysFields, ih]
    rfl

theorem sortKeysList_eq (xs : List (Json ν)) : sortKeysList xs = xs.map sortKeys := by
  induction xs with
  | nil => rfl
  | cons x xs ih =>
    rw [sortKeysList, ih]
    rfl

theorem allNumFields_eq (p : ν → Bool) (fs : List (String × Json ν)) : allNumFields p fs = fs.all (fun f => f.2.allNum p) := by
  induction fs with
  | nil => rfl
  | cons f fs ih =>
    rw [allNumFields, ih]
    rfl

theorem allNumList_eq (p : ν → Bool) (xs : List (Json ν)) : allNumList p xs = xs.all (fun x => x.allNum p) := by
  induction xs with
  | nil => rfl
  | cons x xs ih =>
    rw [allNumList, ih]
    rfl

mutual

/-- What holds of the numbers also holds of them in a weaker form. -/
theorem allNum_mono {p q : ν → Bool} (h : ∀ n, p n = true → q n = true) (v : Json ν) (hv : v.allNum p = true) : v.allNum q = true := by
  match v with
  | num n => exact h n hv
  | arr xs => exact allNumList_mono h xs hv
  | obj fs => exact allNumFields_mono h fs hv
  | null => rfl
  | bool _ => rfl
  | str _ => rfl

theorem allNumList_mono {p q : ν → Bool} (h : ∀ n, p n = true → q n = true) (xs : List (Json ν)) (hv : allNumList p xs = true) :
    allNumList q xs = true := by
  match xs with
  | [] => rfl
  | x :: xs =>
    simp only [allNumList, Bool.and_eq_true] at hv ⊢
    exact ⟨allNum_mono h x hv.1, allNumList_mono h xs hv.2⟩

theorem allNumFields_mono {p q : ν → Bool} (h : ∀ n, p n = true → q n = true) (fs : List (String × Json ν))
    (hv : allNumFields p fs = true) : allNumFields q fs = true := by
  match fs with
  | [] => rfl
  | (k, x) :: fs =>
    simp only [allNumFields, Bool.and_eq_true] at hv ⊢
    exact ⟨allNum_mono h x hv.1, allNumFields_mono h fs hv.2⟩

end

theorem keysOnceFields_eq (fs : List (String × Json ν)) : keysOnceFields fs = fs.all (fun f => f.2.keysOnce) := by
  induction fs with
  | nil => rfl
  | cons f fs ih =>
    rw [keysOnceFields, ih]
    rfl

theorem keysOnceList_eq (xs : List (Json ν)) : keysOnceList xs = xs.all keysOnce := by
  induction xs with
  | nil => rfl
  | cons x xs ih =>
    rw [keysOnceList, ih]
    rfl

theorem charsFields_eq (fs : List (String × Json ν)) : charsFields fs = fs.flatMap (fun f => f.1.toList ++ f.2.chars) := by
  induction fs with
  | nil => rfl
  | cons f fs ih =>
    rw [charsFields, ih, List.flatMap_cons, List.append_assoc]

theorem charsList_eq (xs : List (Json ν)) : charsList xs = xs.flatMap chars := by
  induction xs with
  | nil => rfl
  | cons x xs ih =>
    rw [charsList, ih]
    rfl

/-- The fields of a sorted object are the sorted fields in another order. -/
theorem sortKeys_obj (fs : List (String × Json ν)) :
    ∃ gs, (Json.obj fs).sortKeys = .obj gs ∧ List.Perm gs (fs.map (fun f => (f.1, f.2.sortKeys))) := by
  refine ⟨_, rfl, ?_⟩
  rw [← sortKeysFields_eq]
  exact List.perm_insertionSort _ _

/-- A field of a sorted object. -/
theorem get?_sortKeys {fs : List (String × Json ν)} (h : (fs.map Prod.fst).Nodup) (key : String) :
    (Json.obj fs).sortKeys.get? key = (Dict.get? key fs).map sortKeys := by
  obtain ⟨gs, hgs, hperm⟩ := sortKeys_obj fs
  have hkeys : (gs.map Prod.fst).Nodup := by
    rw [(hperm.map Prod.fst).nodup_iff, List.map_map]
    exact h
  rw [hgs, get?, Dict.get?_perm hperm hkeys, Dict.get?_map]

section Induct

variable {P : Json ν → Prop} (null : P .null) (bool : ∀ b, P (.bool b)) (num : ∀ n, P (.num n)) (str : ∀ s, P (.str s))
  (arr : ∀ xs, (∀ x ∈ xs, P x) → P (.arr xs)) (obj : ∀ fs, (∀ f ∈ fs, P f.2) → P (.obj fs))

include null bool num str arr obj

mutual

/-- Induction over a document: what holds of the parts of an array or an object holds of it. -/
theorem induct (v : Json ν) : P v := by
  match v with
  | .null => exact null
  | .bool b => exact bool b
  | .num n => exact num n
  | .str s => exact str s
  | .arr xs => exact arr xs (induct_list xs)
  | .obj fs => exact obj fs (induct_fields fs)

theorem induct_list (xs : List (Json ν)) : ∀ x ∈ xs, P x := by
  match xs with
  | [] => exact List.forall_mem_nil _
  | x :: xs => exact List.forall_mem_cons.2 ⟨induct x, induct_list xs⟩

theorem induct_fields (fs : List (String × Json ν)) : ∀ f ∈ fs, P f.2 := by
  match fs with
  | [] => exact List.forall_mem_nil _
  | (_, x) :: fs => exact List.forall_mem_cons.2 ⟨induct x, induct_fields fs⟩

end

end Induct

theorem all_congr_mem {α : Type} {xs : List α} {P Q : α → Bool} (h : ∀ x ∈ xs, P x = Q x) : xs.all P = xs.all Q := by
  rw [Bool.eq_iff_iff, List.all_eq_true, List.all_eq_true]
  exact forall₂_congr fun x hx => by rw [h x hx]

theorem allNum_sortKeys (p : ν → Bool) (v : Json ν) : v.sortKeys.allNum p = v.allNum p := by
  induction v using induct with
  | null => rfl
  | bool b => rfl
  | num n => rfl
  | str s => rfl
  | arr xs ih =>
    rw [sortKeys, allNum, allNum, allNumList_eq, allNumList_eq, sortKeysList_eq, List.all_map]
    exact all_congr_mem ih
  | obj fs ih =>
    obtain ⟨gs, hgs, hperm⟩ := sortKeys_obj fs
    rw [hgs, allNum, allNum, allNumFields_eq, allNumFields_eq, hperm.all_eq, List.all_map]
    exact all_congr_mem ih

theorem keysOnce_sortKeys (v : Json ν) : v.sortKeys.keysOnce = v.keysOnce := by
  induction v using induct with
  | null => rfl
  | bool b => rfl
  | num n => rfl
  | str s => rfl
  | arr xs ih =>
    rw [sortKeys, keysOnce, keysOnce, keysOnceList_eq, keysOnceList_eq, sortKeysList_eq, List.all_map]
    exact all_congr_mem ih
  | obj fs ih =>
    obtain ⟨gs, hgs, hperm⟩ := sortKeys_obj fs
    have hkeys : (gs.map Prod.fst).Nodup ↔ (fs.map Prod.fst).Nodup := by
      have hmap := hperm.map Prod.fst
      rw [List.map_map] at hmap
      exact hmap.nodup_iff
    rw [hgs, keysOnce, keysOnce, decide_eq_decide.2 hkeys, keysOnceFields_eq, keysOnceFields_eq, hperm.all_eq, List.all_map]
    exact congrArg _ (all_congr_mem ih)

theorem mem_chars_sortKeys {c : Char} (v : Json ν) : c ∈ v.sortKeys.chars ↔ c ∈ v.chars := by
  induction v using induct with
  | null => rfl
  | bool b => rfl
  | num n => rfl
  | str s => rfl
  | arr xs ih =>
    rw [sortKeys, chars, chars, charsList_eq, charsList_eq, sortKeysList_eq, List.mem_flatMap, List.mem_flatMap]
    simp only [List.mem_map, exists_exists_and_eq_and]
    exact exists_congr fun x => and_congr_right fun hx => ih x hx
  | obj fs ih =>
    obtain ⟨gs, hgs, hperm⟩ := sortKeys_obj fs
    rw [hgs, chars, chars, charsFields_eq, charsFields_eq, List.mem_flatMap, List.mem_flatMap]
    simp only [hperm.mem_iff, List.mem_map, exists_exists_and_eq_and, List.mem_append]
    exact exists_congr fun f => and_congr_right fun hf => or_congr_right (ih f hf)

/-- Sorting once more changes nothing. -/
theorem sortKeys_sortKeys (v : Json ν) : v.sortKeys.sortKeys = v.sortKeys := by
  induction v using induct with
  | null => rfl
  | bool b => rfl
  | num n => rfl
  | str s => rfl
  | arr xs ih =>
    rw [sortKeys, sortKeys, sortKeysList_eq, sortKeysList_eq, List.map_map]
    exact congrArg _ (List.map_congr_left ih)
  | obj fs ih =>
    have hself : ∀ gs : List (String × Json ν), (∀ g ∈ gs, g.2.sortKeys = g.2) → sortKeysFields gs = gs := by
      intro gs hgs
      rw [sortKeysFields_eq]
      calc gs.map (fun g => (g.1, g.2.sortKeys)) = gs.map id := List.map_congr_left fun g hg => Prod.ext rfl (hgs g hg)
        _ = gs := List.map_id gs
    have hsorted : ((sortKeysFields fs).insertionSort (fun a b => a.1 ≤ b.1)).Pairwise (fun a b => a.1 ≤ b.1) :=
      List.pairwise_insertionSort _ _
    have hparts : ∀ g ∈ (sortKeysFields fs).insertionSort (fun a b => a.1 ≤ b.1), g.2.sortKeys = g.2 := by
      intro g hg
      rw [(List.perm_insertionSort _ _).mem_iff, sortKeysFields_eq, List.mem_map] at hg
      obtain ⟨f, hf, rfl⟩ := hg
      exact ih f hf
    rw [sortKeys, sortKeys, hself _ hparts, hsorted.insertionSort_eq]

/-- Two documents are the same but for the order of their fields. -/
def Same (v w : Json ν) : Prop := v.sortKeys = w.sortKeys

end Json

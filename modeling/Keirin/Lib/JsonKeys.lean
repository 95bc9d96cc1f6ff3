import Keirin.Lib.JsonRebuild

/-!
# Keys of a document

Whether an object of a document, at any depth, has a key of a kind. A program that passes a document on keeps its keys, whatever it
makes of the numbers and of the order of the fields.
-/

namespace Json

variable {ν μ : Type} {p : String → Prop}

/-- Some object of the document has a key of the kind `p`. -/
inductive HasKey (p : String → Prop) : Json ν → Prop
  | here {fs : List (String × Json ν)} {f : String × Json ν} : f ∈ fs → p f.1 → HasKey p (.obj fs)
  | field {fs : List (String × Json ν)} {f : String × Json ν} : f ∈ fs → HasKey p f.2 → HasKey p (.obj fs)
  | element {xs : List (Json ν)} {x : Json ν} : x ∈ xs → HasKey p x → HasKey p (.arr xs)

theorem hasKey_obj {fs : List (String × Json ν)} : HasKey p (.obj fs) ↔ ∃ f ∈ fs, p f.1 ∨ HasKey p f.2 := by
  constructor
  · intro h
    cases h with
    | here hf hp => exact ⟨_, hf, .inl hp⟩
    | field hf hp => exact ⟨_, hf, .inr hp⟩
  · rintro ⟨f, hf, hp | hp⟩
    · exact .here hf hp
    · exact .field hf hp

theorem hasKey_arr {xs : List (Json ν)} : HasKey p (.arr xs) ↔ ∃ x ∈ xs, HasKey p x := by
  constructor
  · intro h
    cases h with
    | element hx hp => exact ⟨_, hx, hp⟩
  · rintro ⟨x, hx, hp⟩
    exact .element hx hp

/-- A document whose keys stand once keeps them when its numbers are replaced by documents without fields and its fields come back in
another order. -/
theorem hasKey_rebuild {num : ν → Json μ} {fields : Dict (Json μ) → Dict (Json μ)}
    (hfields : ∀ fs, (fs.map Prod.fst).Nodup → (fields fs).Perm fs) (hnum : ∀ n, ¬ HasKey p (num n)) {v : Json ν}
    (hv : v.keysOnce = true) : HasKey p (v.rebuild num fields) ↔ HasKey p v := by
  induction v using induct with
  | null => exact ⟨fun h => (nomatch h), fun h => (nomatch h)⟩
  | bool b => exact ⟨fun h => (nomatch h), fun h => (nomatch h)⟩
  | num n => exact ⟨fun h => absurd h (hnum n), fun h => (nomatch h)⟩
  | str s => exact ⟨fun h => (nomatch h), fun h => (nomatch h)⟩
  | arr xs ih =>
    rw [keysOnce, keysOnceList_eq, List.all_eq_true] at hv
    rw [rebuild, rebuildList_eq, hasKey_arr, hasKey_arr]
    simp only [List.mem_map, exists_exists_and_eq_and]
    exact exists_congr fun x => and_congr_right fun hx => ih x hx (hv x hx)
  | obj fs ih =>
    rw [keysOnce, Bool.and_eq_true, decide_eq_true_eq, keysOnceFields_eq, List.all_eq_true] at hv
    have hperm : (fields (rebuildFields num fields fs)).Perm (rebuildFields num fields fs) := by
      refine hfields _ ?_
      rw [rebuildFields_eq, List.map_map]
      exact hv.1
    rw [rebuild, hasKey_obj, hasKey_obj]
    simp only [hperm.mem_iff]
    simp only [rebuildFields_eq, List.mem_map, exists_exists_and_eq_and]
    exact exists_congr fun f => and_congr_right fun hf => or_congr_right (ih f hf (hv.2 f hf))

theorem hasKey_bindNum {f : ν → Json μ} (hf : ∀ n, ¬ HasKey p (f n)) (v : Json ν) : HasKey p (v.bindNum f) ↔ HasKey p v := by
  induction v using induct with
  | null => exact ⟨fun h => (nomatch h), fun h => (nomatch h)⟩
  | bool b => exact ⟨fun h => (nomatch h), fun h => (nomatch h)⟩
  | num n => exact ⟨fun h => absurd h (hf n), fun h => (nomatch h)⟩
  | str s => exact ⟨fun h => (nomatch h), fun h => (nomatch h)⟩
  | arr xs ih =>
    rw [bindNum, bindNumList_eq, hasKey_arr, hasKey_arr]
    simp only [List.mem_map, exists_exists_and_eq_and]
    exact exists_congr fun x => and_congr_right fun hx => ih x hx
  | obj fs ih =>
    rw [bindNum, bindNumFields_eq, hasKey_obj, hasKey_obj]
    simp only [List.mem_map, exists_exists_and_eq_and]
    exact exists_congr fun f => and_congr_right fun hf => or_congr_right (ih f hf)

end Json

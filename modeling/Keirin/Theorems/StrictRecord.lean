import Keirin.Lib.JsonRebuild
import Keirin.Lemmas.SecretBackend

/-!
# The records the adapter accepts

`_strict_record` accepts the documents that the encoder writes for the records of the binding whose numbers the database can hold,
and no others: no other key, no number of another kind, no text the record's checks refuse, and no capabilities in another order.
-/

namespace Keirin

/-! ## The document of a record -/

theorem eq_of_same_ofOption {o : Option String} {v : Doc} (h : Json.Same (Doc.ofOption o) v) : v = Doc.ofOption o := by
  cases o
  · exact (h.eq_of_leaf (fun _ hx => (nomatch hx)) fun _ hx => (nomatch hx)).symm
  · exact (h.eq_of_leaf (fun _ hx => (nomatch hx)) fun _ hx => (nomatch hx)).symm

theorem eq_of_same_int {n : Int} {v : Doc} (h : Json.Same (.num (.int n)) v) : v = .num (.int n) :=
  (h.eq_of_leaf (fun _ hx => (nomatch hx)) fun _ hx => (nomatch hx)).symm

theorem eq_of_same_texts {ts : List String} {v : Doc} (h : Json.Same (.arr (ts.map .str)) v) : v = .arr (ts.map .str) := by
  obtain ⟨ys, rfl, hys⟩ := h.arr
  clear h
  refine congrArg Json.arr ?_
  rw [List.forall₂_map_left_iff] at hys
  induction hys with
  | nil => rfl
  | cons hy _ ih => rw [List.map_cons, ih, @eq_of_same_ofOption (some _) _ hy, Doc.ofOption]

/-- A value of a record's document is the same as itself only: it is a leaf, or a list of texts. -/
theorem eq_of_same_value {r : RefreshSecretRecord} {row : Dict Doc} (hrow : encodeRecord r = .obj row) {f : String × Doc} (hf : f ∈ row)
    {v : Doc} (h : Json.Same v f.2) : v = f.2 := by
  cases Json.obj.inj hrow
  have h := h.symm
  simp only [List.mem_cons, List.not_mem_nil, or_false] at hf
  rcases hf with rfl | rfl | rfl | rfl | rfl | rfl | rfl | rfl | rfl | rfl | rfl
  · exact @eq_of_same_ofOption (some _) _ h
  · exact @eq_of_same_ofOption (some _) _ h
  · exact @eq_of_same_ofOption (some _) _ h
  · exact eq_of_same_texts h
  · exact eq_of_same_int h
  · exact @eq_of_same_ofOption (some _) _ h
  · exact eq_of_same_ofOption h
  · exact eq_of_same_int h
  · exact eq_of_same_ofOption h
  · exact eq_of_same_ofOption h
  · exact eq_of_same_ofOption h

/-- What is the same as the document of a record has its fields, in some order. -/
theorem fields_of_same {r : RefreshSecretRecord} {raw : Doc} (h : Json.Same raw (encodeRecord r)) :
    ∃ fields row, raw = .obj fields ∧ encodeRecord r = .obj row ∧ row.map Prod.fst = SecretBackend.recordFields ∧ fields.Perm row := by
  obtain ⟨row, hrow⟩ : ∃ row, encodeRecord r = .obj row := ⟨_, rfl⟩
  have hkeys : row.map Prod.fst = SecretBackend.recordFields := by
    cases Json.obj.inj hrow
    rfl
  rw [hrow] at h
  obtain ⟨fields, rfl⟩ := h.symm.obj
  refine ⟨fields, row, rfl, hrow, hkeys, ?_⟩
  obtain ⟨_, hfs, hperm⟩ := Json.sortKeys_obj fields
  obtain ⟨gs, hgs, hperm'⟩ := Json.sortKeys_obj row
  cases Json.obj.inj (hfs.symm.trans ((show Json.sortKeys _ = _ from h).trans hgs))
  have hsorted := hperm.symm.trans hperm'
  have hsub : fields ⊆ row := by
    intro f hf
    obtain ⟨e, he, heq⟩ := List.mem_map.1 (hsorted.mem_iff.1 (List.mem_map_of_mem hf))
    obtain ⟨hkey, hvalue⟩ := Prod.mk.inj heq
    have hsame : f.2 = e.2 := eq_of_same_value hrow he hvalue.symm
    rwa [show f = e from Prod.ext hkey.symm hsame]
  have hnodup : fields.Nodup := by
    have h := (hsorted.map Prod.fst).symm
    rw [List.map_map, List.map_map] at h
    have hk : (row.map Prod.fst).Nodup := by
      rw [hkeys]
      decide
    exact List.Nodup.of_map _ (h.nodup_iff.1 hk)
  refine (List.subperm_of_subset hnodup hsub).perm_of_length_le ?_
  have h := hsorted.length_eq
  rw [List.length_map, List.length_map] at h
  exact h.ge

/-- A row is decoded by the values of its fields. -/
theorem decodeRecord_perm {fields row : Dict Doc} (h : fields.Perm row) (hk : (fields.map Prod.fst).Nodup) (b : CredentialBinding) :
    decodeRecord (.obj fields) b = decodeRecord (.obj row) b := by
  have hget : ∀ key, Dict.getD fields key .null = Dict.getD row key .null := fun key => by rw [Dict.getD, Dict.getD, Dict.get?_perm h hk]
  simp only [decodeRecord, asMapping, bind, Except.bind, hget]

namespace SecretBackend

/-! ## What is accepted -/

/-- The document of a record whose numbers the database can hold is accepted, whatever the order of its fields. -/
theorem strictRecord_same {r : RefreshSecretRecord} {raw : Doc} (hv : r.version ≤ maxBigint) (hg : r.refreshGeneration ≤ maxBigint)
    (h : Json.Same raw (encodeRecord r)) : strictRecord raw r.binding = .ok (encodeRecord r) := by
  obtain ⟨fields, row, rfl, hrow, hkeys, hperm⟩ := fields_of_same h
  have hk : (fields.map Prod.fst).Nodup := by
    rw [(hperm.map Prod.fst).nodup_iff, hkeys]
    decide
  have hget : ∀ key, Dict.getD fields key .null = Dict.getD row key .null := fun key => by
    rw [Dict.getD, Dict.getD, Dict.get?_perm hperm hk]
  have hok := r.ok
  have hdecode : decodeRecord (.obj fields) r.binding = .ok r := by
    rw [decodeRecord_perm hperm hk, ← hrow]
    exact decodeRecord_encodeRecord r
  have hoption : ∀ o : Option String, isOptionalText (Doc.ofOption o) = true := fun o => by cases o <;> rfl
  unfold strictRecord
  refine bind_ok.2 ⟨fields, rfl, ?_⟩
  simp only [hget]
  cases Json.obj.inj hrow
  refine raiseIf_bind_ok.2 ⟨not_not.2 (hkeys ▸ hperm.map Prod.fst), ?_⟩
  refine raiseIf_bind_ok.2 ⟨?_, ?_⟩
  · rw [Bool.not_eq_false, List.all_eq_true]
    intro key hkey
    simp only [List.mem_cons, List.not_mem_nil, or_false] at hkey
    rcases hkey with rfl | rfl
    · exact Bool.and_eq_true_iff.2 ⟨decide_eq_true hok.version, decide_eq_true hv⟩
    · exact Bool.and_eq_true_iff.2 ⟨decide_eq_true hok.generation, decide_eq_true hg⟩
  refine raiseIf_bind_ok.2 ⟨?_, ?_⟩
  · rw [Bool.not_eq_false, List.all_eq_true]
    intro key hkey
    simp only [List.mem_cons, List.not_mem_nil, or_false] at hkey
    rcases hkey with rfl | rfl | rfl | rfl | rfl | rfl | rfl | rfl
    · rfl
    · rfl
    · rfl
    · rfl
    · exact hoption _
    · exact hoption _
    · exact hoption _
    · exact hoption _
  refine raiseIf_bind_ok.2 ⟨?_, ?_⟩
  · have hlist : isTextList (.arr (r.binding.capabilities.map .str)) = true := by simp [isTextList]
    exact Bool.not_eq_false _ ▸ hlist
  refine bind_ok.2 ⟨r, hdecode, raiseIf_bind_ok.2 ⟨not_not.2 h.symm, rfl⟩⟩

/-- `_strict_record` succeeds exactly on the documents of the records of the binding whose numbers the database can hold, and returns
the document; and a record is decoded from its document. -/
theorem strict_record_iff (binding : CredentialBinding) (raw : Doc) :
    (∀ payload, strictRecord raw binding = .ok payload ↔
      ∃ r : RefreshSecretRecord, r.binding = binding ∧ r.version ≤ maxBigint ∧ r.refreshGeneration ≤ maxBigint ∧
        Json.Same raw (encodeRecord r) ∧ payload = encodeRecord r) ∧
      ∀ r : RefreshSecretRecord, decodeRecord (encodeRecord r) r.binding = .ok r := by
  refine ⟨fun payload => ⟨?_, ?_⟩, decodeRecord_encodeRecord⟩
  · intro h
    obtain ⟨r, hpayload, hbinding, hv, hg, hsame⟩ := strictRecord_ok h
    have hraw : Json.Same raw (encodeRecord r) := by
      rw [← hpayload]
      exact hsame.symm
    exact ⟨r, hbinding, hv, hg, hraw, hpayload⟩
  · rintro ⟨r, rfl, hv, hg, hsame, rfl⟩
    exact strictRecord_same hv hg hsame

end SecretBackend

end Keirin

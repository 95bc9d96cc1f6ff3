import Mathlib.Tactic

/-!
# Ordered triples

The ordered triples of different elements: the list that goes through them place by place has each of them once.
-/

namespace Triples

variable {α : Type} [DecidableEq α] {xs : List α} {t : α × α × α}

/-- The ordered triples of a list, in the order of their first, second and third elements. -/
def triples (xs : List α) : List (α × α × α) :=
  xs.flatMap fun a => (xs.erase a).flatMap fun b => ((xs.erase a).erase b).map fun c => (a, b, c)

/-- A triple of different elements. -/
def Distinct (t : α × α × α) : Prop := t.1 ≠ t.2.1 ∧ t.1 ≠ t.2.2 ∧ t.2.1 ≠ t.2.2

instance : DecidablePred (Distinct (α := α)) := fun _ => inferInstanceAs (Decidable (_ ∧ _ ∧ _))

/-- The ordered triples of a set. -/
def ordered (s : Finset α) : Finset (α × α × α) := (s ×ˢ s ×ˢ s).filter Distinct

theorem mem_ordered {s : Finset α} : t ∈ ordered s ↔ (t.1 ∈ s ∧ t.2.1 ∈ s ∧ t.2.2 ∈ s) ∧ Distinct t := by
  rw [ordered, Finset.mem_filter, Finset.mem_product, Finset.mem_product]

theorem mem_triples (h : xs.Nodup) : t ∈ triples xs ↔ t ∈ ordered xs.toFinset := by
  obtain ⟨a, b, c⟩ := t
  simp only [triples, List.mem_flatMap, List.mem_map, h.mem_erase_iff, (h.erase _).mem_erase_iff, Prod.mk.injEq, mem_ordered, Distinct,
    List.mem_toFinset]
  constructor
  · rintro ⟨a', ha, b', ⟨hba, hb⟩, c', ⟨hcb, hca, hc⟩, rfl, rfl, rfl⟩
    exact ⟨⟨ha, hb, hc⟩, hba.symm, hca.symm, hcb.symm⟩
  · rintro ⟨⟨ha, hb, hc⟩, hab, hac, hbc⟩
    exact ⟨a, ha, b, ⟨hab.symm, hb⟩, c, ⟨hbc.symm, hac.symm, hc⟩, rfl, rfl, rfl⟩

theorem nodup_triples (h : xs.Nodup) : (triples xs).Nodup := by
  refine List.nodup_flatMap.2 ⟨fun a _ => List.nodup_flatMap.2 ⟨fun b _ => ?_, ?_⟩, ?_⟩
  · exact ((h.erase a).erase b).map fun c c' hc => (Prod.mk.inj (Prod.mk.inj hc).2).2
  · refine (h.erase a).imp fun hne t ht ht' => ?_
    obtain ⟨c, -, rfl⟩ := List.mem_map.1 ht
    obtain ⟨c', -, heq⟩ := List.mem_map.1 ht'
    exact hne (Prod.mk.inj (Prod.mk.inj heq).2).1.symm
  · refine h.imp fun hne t ht ht' => ?_
    obtain ⟨b, -, hb⟩ := List.mem_flatMap.1 ht
    obtain ⟨b', -, hb'⟩ := List.mem_flatMap.1 ht'
    obtain ⟨c, -, rfl⟩ := List.mem_map.1 hb
    obtain ⟨c', -, heq⟩ := List.mem_map.1 hb'
    exact hne (Prod.mk.inj heq).1.symm

/-- So many triples there are. -/
theorem length_triples (xs : List α) : (triples xs).length = xs.length * ((xs.length - 1) * (xs.length - 2)) := by
  have hsecond : ∀ a ∈ xs, ((xs.erase a).flatMap fun b => ((xs.erase a).erase b).map fun c => (a, b, c)).length =
      (xs.length - 1) * (xs.length - 2) := by
    intro a ha
    have hthird : ∀ b ∈ xs.erase a, (((xs.erase a).erase b).map fun c => (a, b, c)).length = xs.length - 2 := by
      intro b hb
      rw [List.length_map, List.length_erase_of_mem hb, List.length_erase_of_mem ha]
      omega
    rw [List.length_flatMap, List.map_congr_left hthird, List.map_const', List.sum_replicate, List.length_erase_of_mem ha, smul_eq_mul]
  rw [triples, List.length_flatMap, List.map_congr_left hsecond, List.map_const', List.sum_replicate, smul_eq_mul]

/-- A sum over the list is a sum over the triples. -/
theorem sum_triples {M : Type} [AddCommMonoid M] (h : xs.Nodup) (f : α × α × α → M) :
    ((triples xs).map f).sum = ∑ t ∈ ordered xs.toFinset, f t := by
  have hset : (triples xs).toFinset = ordered xs.toFinset := by
    ext t
    rw [List.mem_toFinset, mem_triples h]
  rw [← hset, List.sum_toFinset f (nodup_triples h)]

end Triples

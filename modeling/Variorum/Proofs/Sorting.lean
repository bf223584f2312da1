import Mathlib.Data.List.Sort

/-!
# Sorting by a key

Where no two entries of a list share their key, sorting by it has only one result, in whatever order the
entries stood before.
-/

namespace Variorum

variable {α κ : Type} [LinearOrder κ] {key : α → κ} {le : α → α → Bool} {l l' : List α}

theorem pairwise_mergeSort_key (hnodup : (l.map key).Nodup)
    (hle : ∀ a b, le a b = true ↔ key a ≤ key b) : (l.mergeSort le).Pairwise fun a b => key a < key b := by
  have htrans : ∀ a b c, le a b = true → le b c = true → le a c = true := by
    simp only [hle]
    exact fun _ _ _ => le_trans
  have htotal : ∀ a b, (le a b || le b a) = true := by
    simp only [Bool.or_eq_true, hle]
    exact fun _ _ => le_total _ _
  have hsorted := List.pairwise_mergeSort htrans htotal l
  have hkeys : ((l.mergeSort le).map key).Nodup := ((List.mergeSort_perm l le).map key).nodup_iff.2 hnodup
  refine hsorted.imp₂ (fun a b hab hne => lt_of_le_of_ne ((hle a b).1 hab) hne) ?_
  exact List.pairwise_map.1 hkeys

/-- Two lists of the same entries in the order of their keys are equal. -/
theorem eq_of_pairwise_key (h : l.Pairwise fun a b => key a < key b)
    (h' : l'.Pairwise fun a b => key a < key b) (hmem : ∀ a, a ∈ l ↔ a ∈ l') : l = l' := by
  have hirrefl : Std.Irrefl fun a b => key a < key b := ⟨fun a => lt_irrefl (key a)⟩
  have hantisymm : Std.Antisymm fun a b => key a < key b := ⟨fun _ _ hab hba => (lt_asymm hab hba).elim⟩
  exact h.eq_of_mem_iff h' hmem

end Variorum

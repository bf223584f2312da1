import Variorum.Text.Search

/-!
# Where a text is cut

A text is cut at the first separator, and split by cutting it as often as there is one.
-/

namespace Variorum.Text

variable {sep : Char} {cs front back : List Char}

theorem cutAt?_eq_none : cutAt? sep cs = none ↔ sep ∉ cs := by
  induction cs with
  | nil => simp [cutAt?]
  | cons c cs ih =>
      by_cases hc : c = sep
      · simp [cutAt?, hc]
      · have hsep : sep ≠ c := fun h => hc h.symm
        simp [cutAt?, hc, hsep, ih]

/-- No separator stands before the one at which a text is cut. -/
theorem cutAt?_eq_some :
    cutAt? sep cs = some (front, back) ↔ cs = front ++ sep :: back ∧ sep ∉ front := by
  induction cs generalizing front with
  | nil => simp [cutAt?]
  | cons c cs ih =>
      by_cases hc : c = sep
      · subst hc
        rw [cutAt?, if_pos rfl, Option.some.injEq, Prod.mk.injEq]
        constructor
        · rintro ⟨rfl, rfl⟩
          exact ⟨rfl, List.not_mem_nil⟩
        · rintro ⟨hcs, hfront⟩
          cases front with
          | nil => exact ⟨rfl, (List.cons.inj hcs).2⟩
          | cons d front => exact absurd ((List.cons.inj hcs).1 ▸ List.mem_cons_self) hfront
      · rw [cutAt?, if_neg hc, Option.map_eq_some_iff]
        constructor
        · rintro ⟨⟨front', back'⟩, hcut, hp⟩
          cases hp
          obtain ⟨rfl, hfront⟩ := ih.1 hcut
          exact ⟨rfl, fun h => (List.mem_cons.1 h).elim (fun h => hc h.symm) hfront⟩
        · rintro ⟨hcs, hfront⟩
          cases front with
          | nil => exact absurd (List.cons.inj hcs).1 hc
          | cons d front =>
              obtain ⟨rfl, htail⟩ := List.cons.inj hcs
              exact ⟨(front, back), ih.2 ⟨htail, fun h => hfront (List.mem_cons_of_mem c h)⟩, rfl⟩

theorem splitAt_of_not_mem (h : sep ∉ cs) : splitAt sep cs = [cs] := by
  induction cs with
  | nil => rfl
  | cons c cs ih =>
      obtain ⟨hc, hcs⟩ := not_or.1 (mt List.mem_cons.2 h)
      rw [splitAt, if_neg fun he => hc he.symm, ih hcs]

theorem splitAt_append (h : sep ∉ front) :
    splitAt sep (front ++ sep :: back) = front :: splitAt sep back := by
  induction front with
  | nil => rw [List.nil_append, splitAt, if_pos rfl]
  | cons c front ih =>
      obtain ⟨hc, hfront⟩ := not_or.1 (mt List.mem_cons.2 h)
      rw [List.cons_append, splitAt, if_neg fun he => hc he.symm, ih hfront]

end Variorum.Text

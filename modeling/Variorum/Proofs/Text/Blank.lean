import Variorum.Proofs.Text.Run
import Variorum.Text.Blank

/-!
# What trimming leaves

A text is its trimmed form between blanks, and the trimmed form is empty only if all of it is blank.
-/

namespace Variorum.Text

variable {cs : List Char}

/-- The blanks before the trimmed text are all those that the text begins with. -/
theorem exists_trimChars (cs : List Char) : ∃ trail, (∀ c ∈ trail, isBlank c = true) ∧
    cs = cs.takeWhile isBlank ++ (trimChars cs ++ trail) := by
  refine ⟨((trimLeft cs).reverse.takeWhile isBlank).reverse, ?_, ?_⟩
  · intro c hc
    exact List.all_eq_true.1 List.all_takeWhile c (List.mem_reverse.1 hc)
  · rw [trimChars, trimRight, ← List.reverse_append, List.takeWhile_append_dropWhile,
      List.reverse_reverse, trimLeft, List.takeWhile_append_dropWhile]

theorem trimChars_eq_nil_iff : trimChars cs = [] ↔ ∀ c ∈ cs, isBlank c = true := by
  constructor
  · intro h
    obtain ⟨trail, htrail, hcs⟩ := exists_trimChars cs
    rw [h, List.nil_append] at hcs
    rw [hcs]
    exact List.forall_mem_append.2 ⟨List.all_eq_true.1 List.all_takeWhile, htrail⟩
  · intro h
    have hleft : trimLeft cs = [] := List.dropWhile_eq_nil_iff.2 h
    rw [trimChars, hleft]
    rfl

/-- The blanks around a text are trimmed, if it neither begins nor ends with one itself. -/
theorem trimChars_between {lead trail : List Char} (hlead : ∀ c ∈ lead, isBlank c = true)
    (htrail : ∀ c ∈ trail, isBlank c = true) (hne : cs ≠ [])
    (hfirst : ∀ c ∈ cs.head?, isBlank c = false) (hlast : ∀ c ∈ cs.getLast?, isBlank c = false) :
    trimChars (lead ++ (cs ++ trail)) = cs := by
  have hleft : trimLeft (lead ++ (cs ++ trail)) = cs ++ trail := by
    obtain ⟨c, rest, rfl⟩ := List.exists_cons_of_ne_nil hne
    exact dropWhile_run hlead hfirst
  have hright : (trail.reverse ++ cs.reverse).dropWhile isBlank = cs.reverse :=
    dropWhile_run (fun c hc => htrail c (List.mem_reverse.1 hc)) (by rwa [List.head?_reverse])
  rw [trimChars, hleft, trimRight, List.reverse_append, hright, List.reverse_reverse]

end Variorum.Text

import Mathlib.Data.List.TakeWhile

/-!
# Cutting off a run

A text is cut at its first character without a property.
-/

namespace Variorum.Text

variable {P : Char → Bool} {run rest : List Char}

theorem takeWhile_run (h : ∀ c ∈ run, P c = true) (hrest : ∀ c ∈ rest.head?, P c = false) :
    (run ++ rest).takeWhile P = run := by
  rw [List.takeWhile_append_of_pos h]
  cases rest with
  | nil => simp
  | cons c rest => rw [List.takeWhile_cons, hrest c rfl, if_neg Bool.false_ne_true, List.append_nil]

theorem dropWhile_run (h : ∀ c ∈ run, P c = true) (hrest : ∀ c ∈ rest.head?, P c = false) :
    (run ++ rest).dropWhile P = rest := by
  rw [List.dropWhile_append_of_pos h]
  cases rest with
  | nil => rfl
  | cons c rest => rw [List.dropWhile_cons, hrest c rfl, if_neg Bool.false_ne_true]

theorem head_dropWhile (P : Char → Bool) (cs : List Char) : ∀ c ∈ (cs.dropWhile P).head?, P c = false := by
  intro c hc
  have hnot := List.head?_dropWhile_not P cs
  rw [Option.mem_def.1 hc] at hnot
  simpa using hnot

end Variorum.Text

import Variorum.Expr.Basic
import Variorum.Proofs.Decimal.Integer

/-!
# Canonical texts of slices

Two slices share their canonical text only if they are the same.
-/

namespace Variorum.SliceRef

/-- Two lists are cut alike at the first of their marks. -/
theorem cut_first {α : Type} {a : α} {xs ys xs' ys' : List α}
    (h : xs ++ a :: ys = xs' ++ a :: ys') (hxs : a ∉ xs) (hxs' : a ∉ xs') :
    xs = xs' ∧ ys = ys' := by
  induction xs generalizing xs' with
  | nil =>
      cases xs' with
      | nil => exact ⟨rfl, (List.cons.inj h).2⟩
      | cons x xs' => exact absurd (List.mem_cons.2 (.inl (List.cons.inj h).1)) hxs'
  | cons x xs ih =>
      cases xs' with
      | nil => exact absurd (List.mem_cons.2 (.inl (List.cons.inj h).1.symm)) hxs
      | cons x' xs' =>
          obtain ⟨hhead, htail⟩ := List.cons.inj h
          obtain ⟨hrest, hys⟩ := ih htail (fun hx => hxs (List.mem_cons_of_mem _ hx))
            (fun hx => hxs' (List.mem_cons_of_mem _ hx))
          exact ⟨by rw [hhead, hrest], hys⟩

/-- Two lists are cut alike at the last of their marks. -/
theorem cut_last {α : Type} {a : α} {xs ys xs' ys' : List α}
    (h : xs ++ a :: ys = xs' ++ a :: ys') (hys : a ∉ ys) (hys' : a ∉ ys') :
    xs = xs' ∧ ys = ys' := by
  have hrev := congrArg List.reverse h
  simp only [List.reverse_append, List.reverse_cons, List.append_assoc, List.singleton_append] at hrev
  obtain ⟨hright, hleft⟩ := cut_first hrev (by simpa using hys) (by simpa using hys')
  exact ⟨List.reverse_inj.1 hleft, List.reverse_inj.1 hright⟩

theorem mem_boundText {b : Option Int64} {c : Char} (h : c ∈ (boundText b).toList) :
    c.isDigit = true ∨ c = '-' := by
  cases b with
  | none => cases h
  | some i => exact Decimal.mem_toString h

theorem boundText_injective {b b' : Option Int64} (h : boundText b = boundText b') : b = b' := by
  have hread : ∀ b : Option Int64, Decimal.readInteger? (boundText b).toList = b := by
    intro b
    cases b with
    | none => rfl
    | some i => exact Decimal.readInteger?_toString i
  rw [← hread b, h, hread b']

theorem toList_key (s : SliceRef) :
    s.key.toList = s.parameter.toList ++ '[' :: ((boundText s.start).toList ++
      ':' :: ((boundText s.stop).toList ++ ':' :: ((boundText (some s.step)).toList ++ [']']))) := by
  simp only [key, String.toList_append, List.append_assoc]
  rfl

theorem not_mem_boundText {c : Char} (hdigit : c.isDigit = false) (hminus : c ≠ '-')
    (b : Option Int64) : c ∉ (boundText b).toList := by
  intro h
  rcases mem_boundText h with h | h
  · rw [hdigit] at h
    cases h
  · exact hminus h

/-- The canonical text determines the slice. -/
theorem key_injective {s s' : SliceRef} (h : s.key = s'.key) : s = s' := by
  have hlist := congrArg String.toList h
  rw [toList_key, toList_key] at hlist
  have hopen := @not_mem_boundText '[' (by decide) (by decide)
  have hcolon := @not_mem_boundText ':' (by decide) (by decide)
  have hclose := @not_mem_boundText ']' (by decide) (by decide)
  -- A parameter may hold any character, but no bound holds a mark.
  obtain ⟨hparameter, hlist⟩ := cut_last hlist (by simp [hopen]) (by simp [hopen])
  obtain ⟨hstart, hlist⟩ := cut_first hlist (hcolon _) (hcolon _)
  obtain ⟨hstop, hlist⟩ := cut_first hlist (hcolon _) (hcolon _)
  obtain ⟨hstep, -⟩ := cut_first hlist (hclose _) (hclose _)
  have hstep := boundText_injective (String.toList_injective hstep)
  cases s
  cases s'
  simp only [mk.injEq]
  exact ⟨String.toList_injective hparameter, boundText_injective (String.toList_injective hstart),
    boundText_injective (String.toList_injective hstop), Option.some.inj hstep⟩

end Variorum.SliceRef

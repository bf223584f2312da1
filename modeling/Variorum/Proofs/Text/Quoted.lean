import Variorum.Expr.Parser
import Variorum.Text.Quoted

/-!
# How displayed characters are read

A displayed character stands as it is, or behind a backslash by a name or by its number. A name is read
as what it stands for, but a null and a number are read as the letters and digits that write them.
-/

namespace Variorum.Text

/-- A character that is written as it is, or as a backslash and a character that names it. -/
def Plain (c : Char) : Prop :=
  escape c = [c] ∨ c ∈ ['"', '\\', '\n', '\r', '\t']

instance (c : Char) : Decidable (Plain c) :=
  inferInstanceAs (Decidable (_ ∨ _))

/-- What a displayed character is read as. -/
def reread (c : Char) : List Char :=
  if Plain c then [c]
  else if c = '\x00' then ['0']
  else 'u' :: '{' :: (Nat.toDigits 16 c.toNat ++ ['}'])

variable {c d : Char} {cs written read : List Char}

/-! ## Texts that are read back -/

theorem reread_of_plain (h : Plain c) : reread c = [c] :=
  if_pos h

theorem reread_eq_singleton_iff : reread c = [c] ↔ Plain c := by
  refine ⟨fun h => ?_, reread_of_plain⟩
  unfold reread at h
  split at h
  · assumption
  · split at h
    · rename_i hnull
      rw [hnull] at h
      cases h
    · cases h

theorem length_reread_pos (c : Char) : 0 < (reread c).length := by
  unfold reread
  split
  · exact Nat.succ_pos _
  · split
    · exact Nat.succ_pos _
    · exact Nat.succ_pos _

theorem length_le_flatMap_reread (cs : List Char) : cs.length ≤ (cs.flatMap reread).length := by
  induction cs with
  | nil => exact Nat.le_refl 0
  | cons c cs ih =>
      have hc := length_reread_pos c
      rw [List.flatMap_cons, List.length_append, List.length_cons]
      omega

/-- A text is read as it was only if each of its characters is plain. -/
theorem flatMap_reread_eq_self_iff : cs.flatMap reread = cs ↔ ∀ c ∈ cs, Plain c := by
  induction cs with
  | nil => exact iff_of_true rfl (List.forall_mem_nil _)
  | cons c cs ih =>
      rw [List.flatMap_cons, List.forall_mem_cons]
      constructor
      · intro h
        -- Neither part can be shorter than what it comes from, so neither is longer.
        have hlength : (reread c).length = [c].length := by
          have hsum := congrArg List.length h
          have hc := length_reread_pos c
          have hcs := length_le_flatMap_reread cs
          rw [List.length_append, List.length_cons] at hsum
          rw [List.length_singleton]
          omega
        have hparts : reread c ++ cs.flatMap reread = [c] ++ cs := h
        obtain ⟨hc, hcs⟩ := List.append_inj hparts hlength
        exact ⟨reread_eq_singleton_iff.1 hc, ih.1 hcs⟩
      · rintro ⟨hc, hcs⟩
        rw [reread_of_plain hc, ih.2 hcs, List.singleton_append]

/-! ## Ways of writing a character -/

/-- The character that a backslash makes of the one behind it. -/
def named (d : Char) : Char :=
  if d = 'n' then '\n' else if d = 't' then '\t' else if d = 'r' then '\r' else d

/-- The ways in which a character is displayed, each with what it is read as. -/
inductive Displays (c : Char) : (written read : List Char) → Prop
  | itself : c ≠ '\\' → c ≠ '"' → c ≠ '\n' → Displays c [c] [c]
  | name {d : Char} : d ≠ '\n' → Displays c ['\\', d] [named d]
  | number : Displays c (numbered c) ('u' :: '{' :: (Nat.toDigits 16 c.toNat ++ ['}']))

theorem displays_of_plain (h : Plain c) : Displays c (escape c) [c] := by
  rcases h with h | h
  · rw [h]
    refine .itself ?_ ?_ ?_
    · rintro rfl
      cases h
    · rintro rfl
      cases h
    · rintro rfl
      cases h
  · simp only [List.mem_cons, List.not_mem_nil, or_false] at h
    rcases h with rfl | rfl | rfl | rfl | rfl
    · exact .name (d := '"') (by decide)
    · exact .name (d := '\\') (by decide)
    · exact .name (d := 'n') (by decide)
    · exact .name (d := 'r') (by decide)
    · exact .name (d := 't') (by decide)

theorem escape_of_not_plain (h : ¬Plain c) : escape c = if c = '\x00' then ['\\', '0'] else numbered c := by
  obtain ⟨hitself, hname⟩ := not_or.1 h
  simp only [List.mem_cons, List.not_mem_nil, or_false, not_or] at hname
  obtain ⟨hdouble, hslash, hfeed, hreturn, htab⟩ := hname
  unfold escape at hitself ⊢
  simp only [if_neg hdouble, if_neg hslash, if_neg hfeed, if_neg hreturn, if_neg htab] at hitself ⊢
  by_cases hvisible : isVisible c = true
  · by_cases hnull : c = '\x00'
    · rw [if_pos hnull, if_pos hnull]
    · rw [if_neg hnull, if_pos hvisible] at hitself
      exact absurd rfl hitself
  · rw [if_neg hvisible]

/-- Every character is displayed in one of the ways. -/
theorem displays (c : Char) : Displays c (escape c) (reread c) := by
  by_cases hplain : Plain c
  · rw [reread_of_plain hplain]
    exact displays_of_plain hplain
  · rw [escape_of_not_plain hplain, reread, if_neg hplain]
    split
    · exact .name (d := '0') (by decide)
    · exact .number

/-! ## Numbers -/

theorem not_mem_toDigits (hd : ∀ n : Nat, Nat.digitChar n ≠ d) (n : Nat) : d ∉ Nat.toDigits 16 n := by
  induction n using Nat.strongRecOn with
  | ind n ih =>
      rw [Nat.toDigits_eq_if (by decide)]
      split
      · rw [List.mem_singleton]
        exact (hd n).symm
      · rw [List.mem_append, List.mem_singleton]
        exact fun hmem => hmem.elim (ih (n / 16) (by omega)) (hd _).symm

/-- Only letters, digits and braces stand behind the backslash of a number. -/
theorem not_mem_number (hu : d ≠ 'u') (hopen : d ≠ '{') (hclose : d ≠ '}')
    (hdigit : ∀ n : Nat, Nat.digitChar n ≠ d) (n : Nat) :
    d ∉ 'u' :: '{' :: (Nat.toDigits 16 n ++ ['}']) := by
  simp only [List.mem_cons, List.mem_append, List.not_mem_nil, or_false, not_or]
  exact ⟨hu, hopen, not_mem_toDigits hdigit n, hclose⟩

/-- A character is displayed on one line. -/
theorem Displays.newline_not_mem (h : Displays c written read) : '\n' ∉ written := by
  cases h with
  | itself _ _ hfeed => rwa [List.mem_singleton, eq_comm]
  | name hd =>
      rw [List.mem_cons, List.mem_singleton]
      exact fun hmem => hmem.elim (by decide) hd.symm
  | number =>
      have hrest := not_mem_number (d := '\n') (by decide) (by decide) (by decide)
        (fun _ => Nat.digitChar_ne _ rfl) c.toNat
      exact fun hmem => (List.mem_cons.1 hmem).elim (by decide) hrest

end Variorum.Text

import Variorum.Proofs.Decimal.Integer
import Variorum.Proofs.Except
import Variorum.Proofs.Expr.Scanning
import Variorum.Template.Fragment

/-!
# Skeletons are read back

A skeleton is a sequence of plain characters, doubled braces and numbers between braces. It is read from
the left: a doubled brace is one brace, wherever it stands, and a single one begins a placeholder. So the
parts of a skeleton are read back from its text.
-/

namespace Variorum.Skeleton

/-- The text is a sequence of plain characters, doubled braces and digits between braces. -/
inductive Reads : List Char → List Part → Prop
  | nil : Reads [] []
  | plain {c cs parts} : c ≠ '{' → c ≠ '}' → Reads cs parts → Reads (c :: cs) (.char c :: parts)
  | opening {cs parts} : Reads cs parts → Reads ('{' :: '{' :: cs) (.char '{' :: parts)
  | closing {cs parts} : Reads cs parts → Reads ('}' :: '}' :: cs) (.char '}' :: parts)
  | placeholder {digits cs parts} : Decimal.isDigits digits = true → Reads cs parts →
      Reads ('{' :: (digits ++ '}' :: cs)) (.placeholder (Decimal.digitsValue digits) :: parts)

variable {line n : Nat} {c : Char} {cs rest digits : List Char} {parts : List Part}

/-! ## Placeholders -/

theorem index?_eq_some : index? cs = some (n, rest) ↔ ∃ digits, Decimal.isDigits digits = true ∧
    cs = digits ++ '}' :: rest ∧ n = Decimal.digitsValue digits ∧ n < Integer.wordCount := by
  constructor
  · intro h
    unfold index? at h
    split at h
    · rename_i m rest' hread hdrop
      split at h
      · rename_i hlt
        cases h
        unfold Decimal.readNat? at hread
        split at hread
        · rename_i hdigits
          cases hread
          refine ⟨_, hdigits, ?_, ?_, hlt⟩
          · rw [← hdrop, List.takeWhile_append_dropWhile]
          · refine Decimal.boundedValue_of_lt (Nat.lt_of_not_le fun hle => ?_)
            exact absurd (Decimal.le_boundedValue hle) (Nat.not_le_of_lt hlt)
        · cases hread
      · cases h
    · cases h
  · rintro ⟨digits, hdigits, rfl, rfl, hlt⟩
    have hbrace : ∀ d ∈ ('}' :: rest).head?, d.isDigit = false := by
      rintro d ⟨⟩
      rfl
    have hread : Decimal.readNat? Integer.wordCount digits = some (Decimal.digitsValue digits) := by
      rw [Decimal.readNat?, if_pos hdigits, Decimal.boundedValue_of_lt hlt]
    have hall := Decimal.forall_digit hdigits
    unfold index?
    rw [Text.takeWhile_run hall hbrace, Text.dropWhile_run hall hbrace, hread]
    exact if_pos hlt

/-! ## Decoding -/

theorem decode_plain (hopen : c ≠ '{') (hclose : c ≠ '}') : ∃ line',
    decode line (c :: cs) = (decode line' cs).map (.char c :: ·) := by
  refine ⟨if c = '\n' then line + 1 else line, ?_⟩
  rw [decode]
  · rintro cs' rfl
    exact absurd rfl hopen
  · rintro cs' rfl
    exact absurd rfl hclose
  · exact hopen
  · exact hclose

/-- Digits begin a placeholder, since none of them is a brace. -/
theorem decode_placeholder (hdigits : Decimal.isDigits digits = true)
    (hlt : Decimal.digitsValue digits < Integer.wordCount) :
    decode line ('{' :: (digits ++ '}' :: rest)) =
      (decode line rest).map (.placeholder (Decimal.digitsValue digits) :: ·) := by
  have hindex : index? (digits ++ '}' :: rest) = some (Decimal.digitsValue digits, rest) :=
    index?_eq_some.2 ⟨digits, hdigits, rfl, rfl, hlt⟩
  rw [decode]
  · split
    · rename_i heq
      rw [hindex] at heq
      cases heq
      rfl
    · rename_i heq
      rw [hindex] at heq
      cases heq
  · intro cs hcs
    obtain ⟨d, ds, rfl, hd, -⟩ := Decimal.isDigits_iff.1 hdigits
    cases hcs
    cases hd

/-- What is read from the left is decoded, on whatever line it begins. -/
theorem Reads.decode (h : Reads cs parts) (hplaceholders : ∀ i ∈ placeholders parts, i < Integer.wordCount) :
    Skeleton.decode line cs = .ok parts := by
  induction h generalizing line with
  | nil => rw [Skeleton.decode]
  | plain hopen hclose _ ih =>
      obtain ⟨line', hdecode⟩ := decode_plain hopen hclose
      rw [hdecode, ih hplaceholders]
      rfl
  | opening _ ih =>
      rw [Skeleton.decode, ih hplaceholders]
      rfl
  | closing _ ih =>
      rw [Skeleton.decode, ih hplaceholders]
      rfl
  | placeholder hdigits _ ih =>
      obtain ⟨hlt, hrest⟩ := List.forall_mem_cons.1 hplaceholders
      rw [decode_placeholder hdigits hlt, ih hrest]
      rfl

/-- Whatever is decoded has been read from the left. -/
theorem reads_of_decode (h : Skeleton.decode line cs = .ok parts) :
    Reads cs parts ∧ ∀ i ∈ placeholders parts, i < Integer.wordCount := by
  fun_induction Skeleton.decode line cs generalizing parts with
  | case1 line =>
      cases h
      exact ⟨.nil, List.forall_mem_nil _⟩
  | case2 line cs ih =>
      obtain ⟨parts, hparts, rfl⟩ := Except.map_eq_ok.1 h
      obtain ⟨hreads, hlt⟩ := ih hparts
      exact ⟨.opening hreads, hlt⟩
  | case3 line cs ih =>
      obtain ⟨parts, hparts, rfl⟩ := Except.map_eq_ok.1 h
      obtain ⟨hreads, hlt⟩ := ih hparts
      exact ⟨.closing hreads, hlt⟩
  | case4 line cs hopen n rest hindex ih =>
      obtain ⟨parts, hparts, rfl⟩ := Except.map_eq_ok.1 h
      obtain ⟨hreads, hlt⟩ := ih hparts
      obtain ⟨digits, hdigits, rfl, rfl, hn⟩ := index?_eq_some.1 hindex
      exact ⟨.placeholder hdigits hreads, List.forall_mem_cons.2 ⟨hn, hlt⟩⟩
  | case5 => cases h
  | case6 => cases h
  | case7 line c cs _ _ hopen hclose ih =>
      obtain ⟨parts, hparts, rfl⟩ := Except.map_eq_ok.1 h
      obtain ⟨hreads, hlt⟩ := ih hparts
      exact ⟨.plain hopen hclose hreads, hlt⟩

theorem decode_eq_ok_iff : Skeleton.decode line cs = .ok parts ↔
    Reads cs parts ∧ ∀ i ∈ placeholders parts, i < Integer.wordCount :=
  ⟨reads_of_decode, fun h => h.1.decode h.2⟩

/-! ## Encoding -/

theorem Reads.encodeChar (h : Reads cs parts) : Reads (Skeleton.encodeChar c ++ cs) (.char c :: parts) := by
  unfold Skeleton.encodeChar
  split
  · rename_i hopen
    exact hopen ▸ .opening h
  · rename_i hopen
    split
    · rename_i hclose
      exact hclose ▸ .closing h
    · rename_i hclose
      exact .plain hopen hclose h

theorem Reads.toDigits (h : Reads cs parts) :
    Reads ('{' :: (Nat.toDigits 10 n ++ '}' :: cs)) (.placeholder n :: parts) := by
  have hread := Reads.placeholder (Decimal.isDigits_toDigits n) h
  rwa [Decimal.digitsValue_toDigits] at hread

theorem reads_encode (parts : List Part) : Reads (encode parts) parts := by
  induction parts with
  | nil => exact .nil
  | cons part parts ih =>
      have hencode : encode (part :: parts) = encodePart part ++ encode parts := List.flatMap_cons
      rw [hencode]
      cases part with
      | char c => exact ih.encodeChar
      | placeholder n =>
          have hpart : encodePart (.placeholder n) ++ encode parts =
              '{' :: (Nat.toDigits 10 n ++ '}' :: encode parts) := by
            simp [encodePart]
          exact hpart ▸ ih.toDigits

/-- The parts of a skeleton are read back from its text, on whatever line it begins. -/
theorem decode_encode (h : ∀ i ∈ placeholders parts, i < Integer.wordCount) :
    decode line (encode parts) = .ok parts :=
  (reads_encode parts).decode h

end Variorum.Skeleton

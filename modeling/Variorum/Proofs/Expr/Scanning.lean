import Variorum.Expr.Parser
import Variorum.Proofs.Decimal.Digits

/-!
# Scanning piece by piece

A word and a number are read to their end, so that the tokens of a source are those of its pieces, as
long as no piece could go on with what follows it.
-/

namespace Variorum.Token

variable {c : Char} {cs ds rest : List Char} {p : Position}

/-- Nothing stands at the front with which a word or a number could go on. -/
def Delimited (cs : List Char) : Prop :=
  ∀ c ∈ cs.head?, isWordPart c = false ∧ c ≠ '.'

/-- A character that is a token of its own wherever it stands. -/
def IsMark (c : Char) : Prop :=
  isSpace c = false ∧ isWordStart c = false ∧ c.isDigit = false ∧ c ≠ '"' ∧ c ≠ '\''

instance (c : Char) : Decidable (IsMark c) :=
  inferInstanceAs (Decidable (_ ∧ _))

theorem isMark_symbol (op : BinaryOp) : IsMark op.symbol := by
  cases op <;> decide

/-- The characters of a word. -/
def IsWord (cs : List Char) : Prop :=
  ∃ c ds, cs = c :: ds ∧ isWordStart c = true ∧ ∀ d ∈ ds, isWordPart d = true

theorem delimited_nil : Delimited [] := by
  rintro c ⟨⟩

theorem delimited_cons (hpart : isWordPart c = false) (hpoint : c ≠ '.') : Delimited (c :: cs) := by
  rintro d ⟨⟩
  exact ⟨hpart, hpoint⟩

/-! ## Places -/

theorem after_append : p.after (cs ++ ds) = (p.after cs).after ds :=
  List.foldl_append

/-- Without a line feed a text ends on the line where it begins. -/
theorem line_after (h : '\n' ∉ cs) : (p.after cs).line = p.line := by
  induction cs generalizing p with
  | nil => rfl
  | cons c cs ih =>
      have hc : c ≠ '\n' := fun hc => h (by simp [hc])
      have hnext : (p.next c).line = p.line := by rw [Position.next, if_neg hc]
      exact (ih fun hcs => h (List.mem_cons_of_mem c hcs)).trans hnext

/-! ## Classes of characters -/

theorem not_space_of_wordStart (h : isWordStart c = true) : isSpace c = false := by
  rw [Bool.eq_false_iff]
  intro hspace
  simp only [isSpace, Bool.or_eq_true, decide_eq_true_eq] at hspace
  rcases hspace with ((rfl | rfl) | rfl) | rfl <;> cases h

theorem not_space_of_digit (h : c.isDigit = true) : isSpace c = false := by
  rw [Bool.eq_false_iff]
  intro hspace
  simp only [isSpace, Bool.or_eq_true, decide_eq_true_eq] at hspace
  rcases hspace with ((rfl | rfl) | rfl) | rfl <;> cases h

theorem wordPart_of_digit (h : c.isDigit = true) : isWordPart c = true := by
  simp [isWordPart, Char.isAlphanum, h]

theorem not_wordStart_of_digit (h : c.isDigit = true) : isWordStart c = false := by
  have hunderscore : c ≠ '_' := by
    rintro rfl
    cases h
  simp [isWordStart, Decimal.isAlpha_of_isDigit h, hunderscore]

theorem wordPart_of_wordStart (h : isWordStart c = true) : isWordPart c = true := by
  simp only [isWordStart, Bool.or_eq_true] at h
  simp only [isWordPart, Char.isAlphanum, Bool.or_eq_true]
  exact h.imp .inl id

theorem wordPart_range (h : isWordPart c = true) : 48 ≤ c.toNat ∧ c.toNat ≤ 122 := by
  unfold isWordPart Char.isAlphanum Char.isAlpha Char.isUpper Char.isLower Char.isDigit at h
  simp only [Bool.or_eq_true, Bool.and_eq_true, decide_eq_true_eq, ge_iff_le,
    UInt32.le_iff_toNat_le] at h
  rcases h with ((⟨hlow, hhigh⟩ | ⟨hlow, hhigh⟩) | ⟨hlow, hhigh⟩) | rfl
  · exact ⟨Nat.le_trans (by decide) hlow, Nat.le_trans hhigh (by decide)⟩
  · exact ⟨Nat.le_trans (by decide) hlow, Nat.le_trans hhigh (by decide)⟩
  · exact ⟨Nat.le_trans (by decide) hlow, Nat.le_trans hhigh (by decide)⟩
  · decide

theorem IsWord.ne_nil (h : IsWord cs) : cs ≠ [] := by
  obtain ⟨c, ds, rfl, -, -⟩ := h
  exact List.cons_ne_nil c ds

theorem IsWord.wordPart (h : IsWord cs) : ∀ c ∈ cs, isWordPart c = true := by
  obtain ⟨c, ds, rfl, hstart, hparts⟩ := h
  exact List.forall_mem_cons.2 ⟨wordPart_of_wordStart hstart, hparts⟩

theorem head_not_digit (h : Delimited rest) : ∀ d ∈ rest.head?, d.isDigit = false := by
  intro d hd
  rw [Bool.eq_false_iff]
  intro hdigit
  have hpart := (h d hd).1
  rw [wordPart_of_digit hdigit] at hpart
  cases hpart

/-! ## Single tokens -/

theorem scan_nil : scan p [] = [] := by
  rw [scan]

theorem scan_space (h : isSpace c = true) : scan p (c :: cs) = scan (p.next c) cs := by
  rw [scan, if_pos h]

theorem scan_first {l : Lexeme} (hspace : isSpace c = false) (h : first c cs = (l, rest)) :
    scan p (c :: cs) = ⟨l, p⟩ :: scan (p.after l.source) rest := by
  rw [scan, if_neg (by simp [hspace]), h]

theorem scan_mark (h : IsMark c) : scan p (c :: cs) = ⟨.symbol c, p⟩ :: scan (p.next c) cs := by
  obtain ⟨hspace, hword, hdigit, hdouble, hsingle⟩ := h
  refine scan_first hspace ?_
  rw [first, if_neg (by simp [hword]), if_neg (by simp [hdigit]), if_neg (by simp [hdouble, hsingle])]

theorem scan_word (h : IsWord cs) (hrest : ∀ d ∈ rest.head?, isWordPart d = false) :
    scan p (cs ++ rest) = ⟨.word (String.ofList cs), p⟩ :: scan (p.after cs) rest := by
  obtain ⟨c, ds, rfl, hstart, hparts⟩ := h
  have hfirst : first c (ds ++ rest) = (.word (String.ofList (c :: ds)), rest) := by
    rw [first, if_pos hstart, Text.takeWhile_run hparts hrest, Text.dropWhile_run hparts hrest]
  rw [List.cons_append, scan_first (not_space_of_wordStart hstart) hfirst, Lexeme.source,
    String.toList_ofList]

/-! ## Numbers -/

/-- The digits, the point and the exponent of a number that is no integer. -/
inductive ExponentPart : List Char → Prop
  | intro {e sign ds} : e = 'e' ∨ e = 'E' → sign ∈ [[], ['+'], ['-']] → Decimal.isDigits ds = true →
      ExponentPart (e :: (sign ++ ds))

/-- Digits with a fraction or an exponent or both. -/
inductive FloatNumeral : List Char → Prop
  | fraction {ds fs} : Decimal.isDigits ds = true → Decimal.isDigits fs = true →
      FloatNumeral (ds ++ '.' :: fs)
  | exponent {ds es} : Decimal.isDigits ds = true → ExponentPart es → FloatNumeral (ds ++ es)
  | both {ds fs es} : Decimal.isDigits ds = true → Decimal.isDigits fs = true → ExponentPart es →
      FloatNumeral (ds ++ '.' :: (fs ++ es))

theorem digits?_run (h : Decimal.isDigits ds = true) (hrest : ∀ d ∈ rest.head?, d.isDigit = false) :
    digits? (ds ++ rest) = some (ds, rest) := by
  rw [digits?, Text.takeWhile_run (Decimal.forall_digit h) hrest, Text.dropWhile_run (Decimal.forall_digit h) hrest]
  obtain ⟨d, es, rfl, -⟩ := Decimal.isDigits_iff.1 h
  rfl

theorem fraction?_delimited (h : Delimited rest) : fraction? rest = none := by
  unfold fraction?
  split
  · exact absurd rfl (h '.' rfl).2
  · rfl

theorem exponent?_delimited (h : Delimited rest) : exponent? rest = none := by
  unfold exponent?
  split
  · rename_i e cs
    refine if_neg ?_
    rintro (rfl | rfl) <;> exact absurd (h _ rfl).1 (by decide)
  · rfl

theorem exponent?_run {es : List Char} (h : ExponentPart es)
    (hrest : ∀ d ∈ rest.head?, d.isDigit = false) : exponent? (es ++ rest) = some (es, rest) := by
  obtain ⟨he, hsign, hds⟩ := h
  rename_i e sign ds
  have hrun := digits?_run hds hrest
  rw [List.cons_append, List.append_assoc]
  simp only [List.mem_cons, List.not_mem_nil, or_false] at hsign
  rcases hsign with rfl | rfl | rfl
  · obtain ⟨d, es, rfl, hd, -⟩ := Decimal.isDigits_iff.1 hds
    rw [List.nil_append, exponent?, if_pos he, hrun]
    · rfl
    · rintro _ heq
      cases heq
      cases hd
    · rintro _ heq
      cases heq
      cases hd
  · rw [List.singleton_append, exponent?, if_pos he, hrun]
    rfl
  · rw [List.singleton_append, exponent?, if_pos he, hrun]
    rfl

/-- Digits begin a number, which is as long as what follows them says. -/
theorem scan_digits {l : Lexeme} {tail : List Char} (h : Decimal.isDigits ds = true)
    (htail : ∀ d ∈ tail.head?, d.isDigit = false) (hnumber : number ds tail = (l, rest)) :
    scan p (ds ++ tail) = ⟨l, p⟩ :: scan (p.after l.source) rest := by
  obtain ⟨d, es, rfl, hd, hes⟩ := Decimal.isDigits_iff.1 h
  refine scan_first (not_space_of_digit hd) ?_
  rw [first, if_neg (by simp [not_wordStart_of_digit hd]), if_pos hd, List.append_eq,
    Text.takeWhile_run hes htail, Text.dropWhile_run hes htail, hnumber]

theorem scan_integer (h : Decimal.isDigits ds = true) (hrest : Delimited rest) :
    scan p (ds ++ rest) = ⟨.integer ds, p⟩ :: scan (p.after ds) rest := by
  refine scan_digits h (head_not_digit hrest) ?_
  rw [number, fraction?_delimited hrest, exponent?_delimited hrest]

theorem exponentPart_head {es : List Char} (h : ExponentPart es) :
    ∀ d ∈ (es ++ rest).head?, d.isDigit = false ∧ d ≠ '.' := by
  obtain ⟨he, -, -⟩ := h
  rintro d ⟨⟩
  rcases he with rfl | rfl <;> decide

theorem scan_float {numeral : List Char} (h : FloatNumeral numeral) (hrest : Delimited rest) :
    scan p (numeral ++ rest) = ⟨.float numeral, p⟩ :: scan (p.after numeral) rest := by
  have hdigit := head_not_digit hrest
  cases h with
  | @fraction ds fs hds hfs =>
      rw [List.append_assoc]
      refine scan_digits hds (by rintro d ⟨⟩; decide) ?_
      rw [number, List.cons_append, fraction?, digits?_run hfs hdigit, Option.map_some]
      simp only [exponent?_delimited hrest]
  | @exponent ds es hds hes =>
      have hhead : ∀ d ∈ (es ++ rest).head?, d.isDigit = false ∧ d ≠ '.' := exponentPart_head hes
      have hnone : fraction? (es ++ rest) = none := by
        unfold fraction?
        split
        · rename_i heq
          exact absurd rfl (hhead '.' (by rw [heq]; rfl)).2
        · rfl
      rw [List.append_assoc]
      refine scan_digits hds (fun d hd => (hhead d hd).1) ?_
      rw [number, hnone]
      simp only [exponent?_run hes hdigit]
  | @both ds fs es hds hfs hes =>
      have hhead : ∀ d ∈ (es ++ rest).head?, d.isDigit = false ∧ d ≠ '.' := exponentPart_head hes
      rw [List.append_assoc]
      refine scan_digits hds (by rintro d ⟨⟩; decide) ?_
      rw [number, List.cons_append, List.append_assoc, fraction?,
        digits?_run hfs fun d hd => (hhead d hd).1, Option.map_some]
      simp only [exponent?_run hes hdigit, List.cons_append, List.append_assoc]

/-! ## Pieces -/

/-- A piece of a source on one line has the tokens, wherever nothing goes on with its last one. -/
structure Scans (p : Position) (cs : List Char) (ts : List Token) : Prop where
  single_line : '\n' ∉ cs
  scan_append : ∀ rest, Delimited rest → scan p (cs ++ rest) = ts ++ scan (p.after cs) rest

variable {ts us : List Token}

theorem Scans.scan (h : Scans p cs ts) : Token.scan p cs = ts := by
  have hscan := h.scan_append [] delimited_nil
  rw [List.append_nil, scan_nil, List.append_nil] at hscan
  exact hscan

theorem Scans.append (h : Scans p cs ts) (h' : Scans (p.after cs) ds us)
    (hdelimited : ∀ rest, Delimited rest → Delimited (ds ++ rest)) :
    Scans p (cs ++ ds) (ts ++ us) where
  single_line := by
    rw [List.mem_append]
    exact fun hmem => hmem.elim h.single_line h'.single_line
  scan_append rest hrest := by
    rw [List.append_assoc, h.scan_append _ (hdelimited rest hrest), h'.scan_append rest hrest,
      List.append_assoc, after_append]

theorem scans_nil : Scans p [] [] where
  single_line := List.not_mem_nil
  scan_append _ _ := rfl

theorem Scans.space (h : Scans (p.next ' ') cs ts) : Scans p (' ' :: cs) ts where
  single_line := by
    rw [List.mem_cons]
    exact fun hmem => hmem.elim (by decide) h.single_line
  scan_append rest hrest := by
    rw [List.cons_append, scan_space rfl]
    exact h.scan_append rest hrest

theorem Scans.mark (hc : IsMark c) (h : Scans (p.next c) cs ts) :
    Scans p (c :: cs) (⟨.symbol c, p⟩ :: ts) where
  single_line := by
    rw [List.mem_cons]
    refine fun hmem => hmem.elim ?_ h.single_line
    rintro rfl
    exact absurd hc (by decide)
  scan_append rest hrest := by
    rw [List.cons_append, scan_mark hc, h.scan_append rest hrest]
    rfl

theorem IsWord.single_line (h : IsWord cs) : '\n' ∉ cs := by
  obtain ⟨c, ds, rfl, hstart, hparts⟩ := h
  intro hmem
  rcases List.mem_cons.1 hmem with rfl | hmem
  · cases hstart
  · exact absurd (hparts _ hmem) (by decide)

theorem scans_word (h : IsWord cs) : Scans p cs [⟨.word (String.ofList cs), p⟩] where
  single_line := h.single_line
  scan_append _ hrest := scan_word h fun d hd => (hrest d hd).1

/-- A word ends before any character with which it does not go on. -/
theorem Scans.word (h : IsWord cs) (hc : isWordPart c = false) (hrest : Scans (p.after cs) (c :: ds) us) :
    Scans p (cs ++ c :: ds) (⟨.word (String.ofList cs), p⟩ :: us) where
  single_line := by
    rw [List.mem_append]
    exact fun hmem => hmem.elim h.single_line hrest.single_line
  scan_append rest hdelimited := by
    have hhead : ∀ d ∈ (c :: ds ++ rest).head?, isWordPart d = false := by
      rintro d ⟨⟩
      exact hc
    rw [List.append_assoc, scan_word h hhead, hrest.scan_append rest hdelimited, after_append]
    rfl

theorem single_line_digits (h : Decimal.isDigits ds = true) : '\n' ∉ ds :=
  fun hmem => absurd (Decimal.forall_digit h _ hmem) (by decide)

theorem scans_integer (h : Decimal.isDigits ds = true) : Scans p ds [⟨.integer ds, p⟩] where
  single_line := single_line_digits h
  scan_append _ hrest := scan_integer h hrest

theorem ExponentPart.single_line (h : ExponentPart cs) : '\n' ∉ cs := by
  obtain ⟨he, hsign, hds⟩ := h
  rw [List.mem_cons, List.mem_append]
  rintro (hmem | hmem | hmem)
  · rcases he with rfl | rfl <;> exact absurd hmem (by decide)
  · simp only [List.mem_cons, List.not_mem_nil, or_false] at hsign
    rcases hsign with rfl | rfl | rfl <;> exact absurd hmem (by decide)
  · exact single_line_digits hds hmem

theorem FloatNumeral.single_line (h : FloatNumeral cs) : '\n' ∉ cs := by
  cases h with
  | fraction hds hfs =>
      rw [List.mem_append, List.mem_cons]
      rintro (hmem | hmem | hmem)
      · exact single_line_digits hds hmem
      · cases hmem
      · exact single_line_digits hfs hmem
  | exponent hds hes =>
      rw [List.mem_append]
      exact fun hmem => hmem.elim (single_line_digits hds) hes.single_line
  | both hds hfs hes =>
      rw [List.mem_append, List.mem_cons, List.mem_append]
      rintro (hmem | hmem | hmem | hmem)
      · exact single_line_digits hds hmem
      · cases hmem
      · exact single_line_digits hfs hmem
      · exact hes.single_line hmem

theorem scans_float (h : FloatNumeral cs) : Scans p cs [⟨.float cs, p⟩] where
  single_line := h.single_line
  scan_append _ hrest := scan_float h hrest

end Variorum.Token

namespace Variorum

open Token

theorem isIdentifier_iff {s : String} :
    isIdentifier s = true ↔ IsWord s.toList ∧ s ≠ castKeyword := by
  unfold isIdentifier IsWord
  split
  · rename_i hs
    simp [hs]
  · rename_i c cs hs
    simp [hs, and_assoc]

end Variorum

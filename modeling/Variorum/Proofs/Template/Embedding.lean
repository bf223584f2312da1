import Variorum.Proofs.Expr.Exactness
import Variorum.Proofs.Template.Body
import Variorum.Proofs.Text.Blank

/-!
# Expressions inside markers

What the reader of expressions accepts, the scanner of markers takes as a whole: its quotes and braces
are paired, and the blanks that trimming takes away at its ends are blanks of the grammar.
-/

namespace Variorum

open Marker

/-! ## Solid texts -/

/-- A text with its quotes and braces in pairs that neither begins nor ends with a blank. -/
structure Solid (text : List Char) : Prop where
  enclosed : Enclosed text
  first : ∃ c cs, text = c :: cs ∧ Text.isBlank c = false
  last : ∃ cs c, text = cs ++ [c] ∧ Text.isBlank c = false

/-- A character that is neither a blank nor a quote nor a brace. -/
def Inert (c : Char) : Prop :=
  Text.isBlank c = false ∧ ¬IsQuote c ∧ c ≠ '{' ∧ c ≠ '}'

instance (c : Char) : Decidable (Inert c) :=
  inferInstanceAs (Decidable (_ ∧ ¬(_ ∨ _) ∧ _))

variable {c : Char} {text cs : List Char}

theorem enclosed_of_inert (h : ∀ c ∈ cs, Inert c) : Enclosed cs := by
  induction cs with
  | nil => exact .nil
  | cons c cs ih =>
      obtain ⟨⟨-, hquote, hopen, hclose⟩, hcs⟩ := List.forall_mem_cons.1 h
      exact .char hquote hopen hclose (ih hcs)

theorem solid_of_inert (hne : text ≠ []) (h : ∀ c ∈ text, Inert c) : Solid text where
  enclosed := enclosed_of_inert h
  first := by
    obtain ⟨c, cs, rfl⟩ := List.exists_cons_of_ne_nil hne
    exact ⟨c, cs, rfl, (h c (by simp)).1⟩
  last := by
    refine ⟨text.dropLast, text.getLast hne, (List.dropLast_append_getLast hne).symm, ?_⟩
    exact (h _ (List.getLast_mem hne)).1

theorem inert_of_wordPart (h : Token.isWordPart c = true) : Inert c := by
  obtain ⟨hlow, hhigh⟩ := Token.wordPart_range h
  refine ⟨?_, ?_, ?_, ?_⟩
  · simp [Text.isBlank]
    omega
  · rintro (rfl | rfl)
    · exact absurd hlow (by decide)
    · exact absurd hlow (by decide)
  · rintro rfl
    exact absurd hhigh (by decide)
  · rintro rfl
    exact absurd hhigh (by decide)

theorem inert_digits (h : IsDigits text) : ∀ c ∈ text, Inert c :=
  fun c hc => inert_of_wordPart (Token.wordPart_of_digit (Decimal.forall_digit h c hc))

theorem ne_nil_of_digits (h : IsDigits text) : text ≠ [] := by
  rintro rfl
  cases h

theorem solid_word (h : Token.IsWord text) : Solid text :=
  solid_of_inert h.ne_nil fun c hc => inert_of_wordPart (h.wordPart c hc)

theorem solid_digits (h : IsDigits text) : Solid text :=
  solid_of_inert (ne_nil_of_digits h) (inert_digits h)

theorem inert_exponent (h : Token.ExponentPart text) : ∀ c ∈ text, Inert c := by
  cases h with
  | intro he hsign hdigits =>
      refine List.forall_mem_cons.2 ⟨?_, List.forall_mem_append.2 ⟨?_, inert_digits hdigits⟩⟩
      · rcases he with rfl | rfl
        · decide
        · decide
      · simp only [List.mem_cons, List.not_mem_nil, or_false] at hsign
        rcases hsign with rfl | rfl | rfl
        · exact List.forall_mem_nil _
        · exact List.forall_mem_singleton.2 (by decide)
        · exact List.forall_mem_singleton.2 (by decide)

theorem solid_float (h : Token.FloatNumeral text) : Solid text := by
  have hpoint : Inert '.' := by decide
  cases h with
  | fraction hds hfs =>
      exact solid_of_inert (List.append_ne_nil_of_left_ne_nil (ne_nil_of_digits hds) _)
        (List.forall_mem_append.2 ⟨inert_digits hds, List.forall_mem_cons.2 ⟨hpoint, inert_digits hfs⟩⟩)
  | exponent hds hes =>
      exact solid_of_inert (List.append_ne_nil_of_left_ne_nil (ne_nil_of_digits hds) _)
        (List.forall_mem_append.2 ⟨inert_digits hds, inert_exponent hes⟩)
  | both hds hfs hes =>
      exact solid_of_inert (List.append_ne_nil_of_left_ne_nil (ne_nil_of_digits hds) _)
        (List.forall_mem_append.2 ⟨inert_digits hds, List.forall_mem_cons.2 ⟨hpoint,
          List.forall_mem_append.2 ⟨inert_digits hfs, inert_exponent hes⟩⟩⟩)

theorem solid_signed (h : IsSigned text) : Solid text := by
  rcases h with h | ⟨ds, rfl, h⟩
  · exact solid_digits h
  · exact solid_of_inert (List.cons_ne_nil _ ds)
      (List.forall_mem_cons.2 ⟨by decide, inert_digits h⟩)

theorem solid_quoted (h : IsQuoted text) : Solid text := by
  obtain ⟨quote, raw, hquote, hwithin, rfl⟩ := h
  have hblank : Text.isBlank quote = false := by
    rcases hquote with rfl | rfl
    · rfl
    · rfl
  exact ⟨.quoted hquote hwithin .nil, ⟨quote, _, rfl, hblank⟩, ⟨quote :: raw, quote, rfl, hblank⟩⟩

theorem solid_mark (h : Inert c) : Solid [c] :=
  solid_of_inert (List.cons_ne_nil c []) (List.forall_mem_singleton.2 h)

/-! ## Blanks at the end -/

section

variable {Class : List Char → Prop} {rest rest' blanks : List Char} {l : Lexeme}

/-- A text that does not end with a blank stands before the blanks at the end. -/
theorem exists_before_blanks (hlast : ∃ cs c, text = cs ++ [c] ∧ Text.isBlank c = false)
    (hblanks : ∀ c ∈ blanks, Text.isBlank c = true) (h : cs ++ blanks = text ++ rest') :
    ∃ rest, cs = text ++ rest ∧ rest' = rest ++ blanks := by
  rcases List.append_eq_append_iff.1 h with ⟨inner, htext, hblanks'⟩ | ⟨rest, hcs, hrest⟩
  · rcases List.eq_nil_or_concat inner with rfl | ⟨inner, d, rfl⟩
    · exact ⟨[], by rw [htext, List.append_nil, List.append_nil], by rw [hblanks', List.nil_append]; rfl⟩
    · obtain ⟨init, c, hinit, hc⟩ := hlast
      rw [hinit, List.concat_eq_append, ← List.append_assoc] at htext
      obtain ⟨-, hd⟩ := List.append_inj' htext rfl
      cases hd
      rw [hblanks d (by rw [hblanks']; simp)] at hc
      cases hc
  · exact ⟨rest, hcs, hrest⟩

theorem isBlank_of_isSpace (h : Token.isSpace c = true) : Text.isBlank c = true := by
  simp only [Token.isSpace, Bool.or_eq_true, decide_eq_true_eq] at h
  rcases h with ((rfl | rfl) | rfl) | rfl <;> rfl

theorem Longest.append_blanks (h : Longest Class text rest) (hsolid : ∀ cs, Class cs → Solid cs)
    (hblanks : ∀ c ∈ blanks, Token.isSpace c = true) : Longest Class text (rest ++ blanks) := by
  refine ⟨h.1, fun more hmore hclass => ?_⟩
  obtain ⟨tail, htail⟩ := hmore
  have happend : text ++ rest ++ blanks = text ++ more ++ tail := by
    rw [List.append_assoc, List.append_assoc, htail]
  obtain ⟨tail', hrest, -⟩ := exists_before_blanks (hsolid _ hclass).last
    (fun c hc => isBlank_of_isSpace (hblanks c hc)) happend
  rw [List.append_assoc, List.append_cancel_left_eq] at hrest
  exact h.2 more ⟨tail', hrest.symm⟩ hclass

theorem number_cases (ds tail : List Char) :
    (∃ numeral rest, Token.number ds tail = (.float numeral, rest)) ∨
      Token.number ds tail = (.integer ds, tail) := by
  unfold Token.number
  split
  · split
    · exact .inl ⟨_, _, rfl⟩
    · exact .inl ⟨_, _, rfl⟩
  · split
    · exact .inl ⟨_, _, rfl⟩
    · exact .inr rfl

theorem first_integer_append_blanks {digits : List Char}
    (hblanks : ∀ c ∈ blanks, Token.isSpace c = true) (h : Token.first c cs = (.integer digits, rest)) :
    Token.first c (cs ++ blanks) = (.integer digits, rest ++ blanks) := by
  obtain ⟨heq, hlongest⟩ := Token.of_first_eq_integer h
  have happend : c :: (cs ++ blanks) = digits ++ (rest ++ blanks) := by
    rw [← List.cons_append, heq, List.append_assoc]
  obtain ⟨hdigits, hhead⟩ := Token.longest_digits_iff.1
    (hlongest.append_blanks (fun _ => solid_digits) hblanks)
  have hfirst := Token.first_digits hdigits hhead happend
  rcases number_cases digits (rest ++ blanks) with ⟨numeral, tail, hfloat⟩ | hinteger
  · -- A float would stand before the blanks and be read without them, too.
    obtain ⟨hsplit, hnumeral⟩ := Token.of_first_eq_float (hfirst.trans hfloat)
    obtain ⟨tail', hcs, -⟩ := exists_before_blanks (solid_float hnumeral).last
      (fun c hc => isBlank_of_isSpace (hblanks c hc))
      (show c :: cs ++ blanks = numeral ++ tail from hsplit)
    obtain ⟨_, _, hread, -⟩ := Token.exists_first_float hnumeral hcs
    rw [h] at hread
    cases hread
  · exact hfirst.trans hinteger

/-- A quote that is not closed is not closed by blanks. -/
theorem first_quote_append_blanks (hblanks : ∀ c ∈ blanks, Token.isSpace c = true) (hquote : IsQuote c)
    (h : Token.first c rest = (.symbol c, rest)) :
    Token.first c (rest ++ blanks) = (.symbol c, rest ++ blanks) := by
  rw [Token.first_quote hquote] at h ⊢
  cases hquoted : Token.quoted? c (rest ++ blanks) with
  | none => rfl
  | some r =>
      obtain ⟨raw, tail⟩ := r
      obtain ⟨hsplit, hwithin⟩ := (Token.quoted?_eq_some_iff hquote).1 hquoted
      rw [List.append_cons] at hsplit
      have hlast : Text.isBlank c = false := by
        rcases hquote with rfl | rfl <;> rfl
      obtain ⟨tail', hcs, -⟩ := exists_before_blanks ⟨raw, c, rfl, hlast⟩
        (fun c hc => isBlank_of_isSpace (hblanks c hc)) hsplit
      rw [← List.append_cons] at hcs
      rw [(Token.quoted?_eq_some_iff hquote).2 ⟨hcs, hwithin⟩] at h
      cases h

/-- What begins no longer token alone begins none before anything else. -/
theorem first_symbol_append (hquote : ¬IsQuote c) (h : Token.first c rest = (.symbol c, rest)) :
    Token.first c (rest ++ blanks) = (.symbol c, rest ++ blanks) := by
  have hword : ¬Token.isWordStart c = true := by
    intro hc
    rw [Token.first_word hc] at h
    cases h
  have hdigit : ¬c.isDigit = true := by
    intro hc
    rw [Token.first_digit hc] at h
    rcases number_cases (c :: rest.takeWhile Char.isDigit) (rest.dropWhile Char.isDigit) with
      ⟨_, _, hnumber⟩ | hnumber
    · rw [hnumber] at h
      cases h
    · rw [hnumber] at h
      cases h
  rw [Token.first, if_neg hword, if_neg hdigit]
  exact if_neg hquote

theorem first_append_blanks (hblanks : ∀ c ∈ blanks, Token.isSpace c = true)
    (h : Token.first c cs = (l, rest)) : Token.first c (cs ++ blanks) = (l, rest ++ blanks) := by
  have happend : ∀ {text}, c :: cs = text ++ rest → c :: (cs ++ blanks) = text ++ (rest ++ blanks) := by
    intro text heq
    rw [← List.cons_append, heq, List.append_assoc]
  cases l with
  | word s =>
      obtain ⟨heq, hlongest⟩ := Token.first_eq_word_iff.1 h
      exact Token.first_eq_word_iff.2
        ⟨happend heq, hlongest.append_blanks (fun _ => solid_word) hblanks⟩
  | float numeral =>
      obtain ⟨heq, hlongest⟩ := Token.first_eq_float_iff.1 h
      exact Token.first_eq_float_iff.2
        ⟨happend heq, hlongest.append_blanks (fun _ => solid_float) hblanks⟩
  | text quote raw =>
      obtain ⟨heq, hlongest⟩ := Token.first_eq_text_iff.1 h
      exact Token.first_eq_text_iff.2
        ⟨happend heq, hlongest.append_blanks (fun _ => solid_quoted) hblanks⟩
  | integer digits => exact first_integer_append_blanks hblanks h
  | symbol d =>
      obtain ⟨rfl, rfl⟩ := Token.of_first_eq_symbol h
      by_cases hquote : IsQuote d
      · exact first_quote_append_blanks hblanks hquote h
      · exact first_symbol_append hquote h

/-- Blanks at the end make no token and change none. -/
theorem scan_append_blanks (p : Position) (cs : List Char)
    (hblanks : ∀ c ∈ blanks, Token.isSpace c = true) : Token.scan p (cs ++ blanks) = Token.scan p cs := by
  fun_induction Token.scan p cs with
  | case1 p => exact Expr.scan_eq_nil_iff.2 hblanks
  | case2 p c cs hc ih => rw [List.cons_append, Token.scan_space hc, ih]
  | case3 p c cs hc _ ih =>
      have hfirst : Token.first c (cs ++ blanks) =
          ((Token.first c cs).1, (Token.first c cs).2 ++ blanks) := first_append_blanks hblanks rfl
      rw [List.cons_append, Token.scan_first (by simpa using hc) hfirst, ih]

end

/-! ## What an expression is composed of -/

/-- Blanks of the grammar and solid texts in any order. -/
inductive Composed : List Char → Prop
  | nil : Composed []
  | blank {c : Char} {cs : List Char} : Token.isSpace c = true → Composed cs → Composed (c :: cs)
  | solid {text cs : List Char} : Solid text → Composed cs → Composed (text ++ cs)

variable {ds blanks : List Char}

theorem Composed.append (h : Composed cs) (h' : Composed ds) : Composed (cs ++ ds) := by
  induction h with
  | nil => exact h'
  | blank hc _ ih => exact .blank hc ih
  | solid htext _ ih =>
      rw [List.append_assoc]
      exact .solid htext ih

theorem composed_blanks (h : ∀ c ∈ blanks, Token.isSpace c = true) : Composed blanks := by
  induction blanks with
  | nil => exact .nil
  | cons c blanks ih =>
      obtain ⟨hc, hblanks⟩ := List.forall_mem_cons.1 h
      exact .blank hc (ih hblanks)

theorem inert_quote_brace_of_space (h : Token.isSpace c = true) : ¬IsQuote c ∧ c ≠ '{' ∧ c ≠ '}' := by
  simp only [Token.isSpace, Bool.or_eq_true, decide_eq_true_eq] at h
  rcases h with ((rfl | rfl) | rfl) | rfl
  · exact ⟨by rintro (⟨⟨⟩⟩ | ⟨⟨⟩⟩), by decide, by decide⟩
  · exact ⟨by rintro (⟨⟨⟩⟩ | ⟨⟨⟩⟩), by decide, by decide⟩
  · exact ⟨by rintro (⟨⟨⟩⟩ | ⟨⟨⟩⟩), by decide, by decide⟩
  · exact ⟨by rintro (⟨⟨⟩⟩ | ⟨⟨⟩⟩), by decide, by decide⟩

theorem Composed.enclosed (h : Composed cs) : Enclosed cs := by
  induction h with
  | nil => exact .nil
  | blank hc _ ih =>
      obtain ⟨hquote, hopen, hclose⟩ := inert_quote_brace_of_space hc
      exact .char hquote hopen hclose ih
  | solid htext _ ih => exact htext.enclosed.append ih

/-- What trimming takes away at the front are blanks of the grammar. -/
theorem Composed.lead (h : Composed (blanks ++ cs)) (hblanks : ∀ c ∈ blanks, Text.isBlank c = true) :
    ∀ c ∈ blanks, Token.isSpace c = true := by
  generalize hall : blanks ++ cs = all at h
  induction h generalizing blanks with
  | nil =>
      obtain ⟨rfl, -⟩ := List.append_eq_nil_iff.1 hall
      exact List.forall_mem_nil _
  | blank hc _ ih =>
      cases blanks with
      | nil => exact List.forall_mem_nil _
      | cons d blanks =>
          obtain ⟨rfl, htail⟩ := List.cons.inj hall
          exact List.forall_mem_cons.2 ⟨hc, ih (List.forall_mem_cons.1 hblanks).2 htail⟩
  | solid htext _ _ =>
      obtain ⟨c, cs, rfl, hc⟩ := htext.first
      cases blanks with
      | nil => exact List.forall_mem_nil _
      | cons d blanks =>
          obtain ⟨rfl, -⟩ := List.cons.inj hall
          rw [hblanks d (by simp)] at hc
          cases hc

/-- What trimming takes away at the end are blanks of the grammar. -/
theorem Composed.trail (h : Composed (cs ++ blanks)) (hblanks : ∀ c ∈ blanks, Text.isBlank c = true) :
    ∀ c ∈ blanks, Token.isSpace c = true := by
  generalize hall : cs ++ blanks = all at h
  induction h generalizing cs blanks with
  | nil =>
      obtain ⟨-, rfl⟩ := List.append_eq_nil_iff.1 hall
      exact List.forall_mem_nil _
  | @blank c ds hc _ ih =>
      cases cs with
      | nil =>
          rw [List.nil_append] at hall
          subst hall
          exact List.forall_mem_cons.2 ⟨hc, ih (List.forall_mem_cons.1 hblanks).2 (List.nil_append ds)⟩
      | cons d cs =>
          obtain ⟨-, htail⟩ := List.cons.inj hall
          exact ih hblanks htail
  | solid htext _ ih =>
      obtain ⟨rest, rfl, rfl⟩ := exists_before_blanks htext.last hblanks hall
      exact ih hblanks rfl

/-! ## Phrases -/

namespace Cursor

variable {a b d : Cursor} {start : Position} {Class : List Char → Prop}

/-- What stands between two places is composed of blanks and solid texts. -/
def Spans (a b : Cursor) : Prop :=
  ∃ cs, a.ahead = cs ++ b.ahead ∧ Composed cs

theorem spans_refl : a.Spans a :=
  ⟨[], rfl, .nil⟩

theorem Spans.trans (h : a.Spans b) (h' : b.Spans d) : a.Spans d := by
  obtain ⟨cs, hcs, hcomposed⟩ := h
  obtain ⟨ds, hds, hcomposed'⟩ := h'
  exact ⟨cs ++ ds, by rw [hcs, hds, List.append_assoc], hcomposed.append hcomposed'⟩

theorem Takes.spans (h : a.Takes Class start text b) (htext : Solid text) : a.Spans b := by
  obtain ⟨⟨blanks, hblanks, hahead, -⟩, -⟩ := h
  refine ⟨blanks ++ text, by rw [hahead, List.append_assoc], ?_⟩
  have hsolid : Composed (text ++ []) := .solid htext .nil
  rw [List.append_nil] at hsolid
  exact (composed_blanks hblanks).append hsolid

end Cursor

namespace Expr

variable {a b : Cursor} {start : Position} {bound : Option Literal}

theorem Name.spans {word : String} (h : Name word a start b) : a.Spans b :=
  h.1.spans (solid_word h.1.longest.1)

theorem Mark.spans (h : Mark c a start b) (hc : Inert c) : a.Spans b :=
  Cursor.Takes.spans h (solid_mark hc)

theorem SpellsBound.spans (h : SpellsBound a b bound) : a.Spans b := by
  cases h with
  | absent => exact Cursor.spans_refl
  | present h => exact h.spans (solid_signed h.longest.1)

theorem SpellsStep.spans (h : SpellsStep a b bound) : a.Spans b := by
  cases h with
  | absent => exact Cursor.spans_refl
  | present hcolon h => exact (hcolon.spans (by decide)).trans h.spans

theorem inert_symbol (op : BinaryOp) : Inert op.symbol := by
  cases op <;> decide

mutual

theorem Spells.spans {l : Stratum} {a b : Cursor} {e : Expr} {lits : List Literal}
    (h : Spells l a b e lits) : a.Spans b := by
  match h with
  | .name hname => exact hname.spans
  | .integer htakes _ => exact htakes.spans (solid_digits htakes.longest.1)
  | .float htakes _ => exact htakes.spans (solid_float htakes.longest.1)
  | .text htakes => exact htakes.spans (solid_quoted htakes.longest.1)
  | .call hname hopen hargs hclose =>
      exact (hname.spans.trans (hopen.spans (by decide))).trans
        (hargs.spans.trans (hclose.spans (by decide)))
  | .qualifiedCall hmodule hdot hcallee hopen hargs hclose =>
      have hhead := hmodule.spans.trans ((hdot.spans (by decide)).trans hcallee.spans)
      exact (hhead.trans (hopen.spans (by decide))).trans (hargs.spans.trans (hclose.spans (by decide)))
  | .slice hname hopen hfirst hcolon hlast hstep hclose _ =>
      have hhead := (hname.spans.trans (hopen.spans (by decide))).trans hfirst.spans
      have hrest := hlast.spans.trans (hstep.spans.trans (hclose.spans (by decide)))
      exact hhead.trans ((hcolon.spans (by decide)).trans hrest)
  | .parens hopen hspells hclose =>
      exact (hopen.spans (by decide)).trans (hspells.spans.trans (hclose.spans (by decide)))
  | .cast hspells hkeyword hword _ =>
      exact hspells.spans.trans ((hkeyword.spans (solid_word hkeyword.longest.1)).trans
        (hword.spans (solid_word hword.longest.1)))
  | .negation hminus hspells => exact (hminus.spans (by decide)).trans hspells.spans
  | .product hleft hsign hop hright =>
      obtain ⟨rfl, -⟩ := productOp?_eq_some_iff.1 hop
      exact hleft.spans.trans ((hsign.spans (inert_symbol _)).trans hright.spans)
  | .sum hleft hsign hop hright =>
      obtain ⟨rfl, -⟩ := sumOp?_eq_some_iff.1 hop
      exact hleft.spans.trans ((hsign.spans (inert_symbol _)).trans hright.spans)
  | .ofPrimary hspells => exact hspells.spans
  | .ofCast hspells => exact hspells.spans
  | .ofUnary hspells => exact hspells.spans
  | .ofProduct hspells => exact hspells.spans

theorem SpellsArgs.spans {a b : Cursor} {es : List Expr} {lits : List Literal}
    (h : SpellsArgs a b es lits) : a.Spans b := by
  match h with
  | .none => exact Cursor.spans_refl
  | .some hlist => exact hlist.spans

theorem SpellsList.spans {a b : Cursor} {es : List Expr} {lits : List Literal}
    (h : SpellsList a b es lits) : a.Spans b := by
  match h with
  | .single hspells => exact hspells.spans
  | .comma hspells hcomma hlist =>
      exact hspells.spans.trans ((hcomma.spans (by decide)).trans hlist.spans)

end

theorem Spelled.composed {source : String} {line : Nat} {e : Expr} {lits : List Literal}
    (h : Spelled source line e lits) : Composed source.toList := by
  obtain ⟨b, hspells, hblanks⟩ := h
  obtain ⟨cs, hcs, hcomposed⟩ := hspells.spans
  simp only at hcs
  rw [hcs]
  exact hcomposed.append (composed_blanks hblanks)

end Expr

end Variorum

import Variorum.Proofs.Template.Embedding

/-!
# Line ends inside markers

A scan counts the line ends in the body of a marker, but for those that a backslash escapes inside quotes.
-/

namespace Variorum.Marker

variable {s : State} {c quote : Char} {cs source lead trail : List Char} {b : Body}

/-- How many line ends of a text stand right behind a backslash between quotes, of which one may be open
at the beginning. -/
def escapedBreaks : (quote : Option Char) → List Char → Nat
  | some quote, '\\' :: c :: cs => (if c = '\n' then 1 else 0) + escapedBreaks (some quote) cs
  | some quote, c :: cs => escapedBreaks (if c = quote then none else some quote) cs
  | none, c :: cs => escapedBreaks (if c = '"' ∨ c = '\'' then some c else none) cs
  | _, [] => 0

/-! ## Bodies of markers -/

/-- The line ends that a scan passes over without counting them. -/
def State.uncounted (s : State) : List Char → Nat
  | [] => 0
  | c :: cs => (if s.escaped = true ∧ c = '\n' then 1 else 0) + (s.next c).uncounted cs

theorem uncounted_eq (depth : Nat) (quote : Option Char) (cs : List Char) :
    State.uncounted ⟨depth, quote, false⟩ cs = escapedBreaks quote cs := by
  fun_induction escapedBreaks quote cs generalizing depth with
  | case1 quote c cs ih => simp [State.uncounted, State.next, ih]
  | case2 quote c cs hescape ih =>
      by_cases hc : c = '\\'
      · cases cs with
        | nil => simp [State.uncounted, hc, escapedBreaks]
        | cons d ds => exact absurd rfl (hescape d ds hc)
      · by_cases hquote : c = quote
        · simp_all [State.uncounted, State.next]
        · simp_all [State.uncounted, State.next]
  | case3 c cs ih =>
      by_cases hquote : c = '"' ∨ c = '\''
      · simp_all [State.uncounted, State.next]
      · by_cases hopen : c = '{'
        · simp_all [State.uncounted, State.next]
        · by_cases hclose : c = '}'
          · simp_all [State.uncounted, State.next]
          · simp_all [State.uncounted, State.next]
  | case4 => rfl

/-- A scan counts all line ends of a body but for the escaped ones. -/
theorem breaks_of_body? (h : body? s cs = some b) :
    b.breaks + s.uncounted b.source = b.source.count '\n' := by
  induction cs generalizing s b with
  | nil => cases h
  | cons c cs ih =>
      rw [body?] at h
      split at h
      · cases h
        rfl
      · obtain ⟨b', hb', rfl⟩ := Option.map_eq_some_iff.1 h
        have hrest := ih hb'
        rw [State.uncounted, List.count_cons, ← hrest]
        by_cases hc : c = '\n'
        · by_cases hescaped : s.escaped = true
          · simp [State.endsLine, hc, hescaped]
            omega
          · simp [State.endsLine, hc, hescaped]
            omega
        · simp [State.endsLine, hc]

theorem exists_breaks (h : Enclosed source) : ∃ n, n + escapedBreaks none source = source.count '\n' ∧
    ∀ rest, body? {} (source ++ '}' :: rest) = some ⟨source, n, rest⟩ := by
  obtain ⟨n, hn⟩ := body?_of_enclosed h
  refine ⟨n, ?_, hn⟩
  rw [← uncounted_eq 0]
  exact breaks_of_body? (hn [])

/-! ## Blanks around an expression -/

theorem not_quote_of_blank (h : Text.isBlank c = true) : ¬IsQuote c := by
  rintro (rfl | rfl) <;> cases h

theorem escapedBreaks_outside (h : ¬IsQuote c) : escapedBreaks none (c :: cs) = escapedBreaks none cs := by
  have hquote : ¬(c = '"' ∨ c = '\'') := h
  rw [escapedBreaks, if_neg hquote]

theorem escapedBreaks_open (h : IsQuote quote) :
    escapedBreaks none (quote :: cs) = escapedBreaks (some quote) cs := by
  have hquote : quote = '"' ∨ quote = '\'' := h
  rw [escapedBreaks, if_pos hquote]

theorem escapedBreaks_inside (h : c ≠ '\\') : escapedBreaks (some quote) (c :: cs) =
    escapedBreaks (if c = quote then none else some quote) cs := by
  rw [escapedBreaks]
  rintro d ds rfl
  exact absurd rfl h

theorem escapedBreaks_within (hquote : IsQuote quote) (h : Within quote cs) (ds : List Char) :
    escapedBreaks (some quote) (cs ++ quote :: ds) =
      escapedBreaks (some quote) (cs ++ [quote]) + escapedBreaks none ds := by
  have hescape : quote ≠ '\\' := by
    rcases hquote with rfl | rfl <;> decide
  induction h with
  | nil => simp [escapedBreaks_inside hescape, escapedBreaks]
  | plain hc hplain _ ih =>
      rw [List.cons_append, List.cons_append, escapedBreaks_inside hplain, escapedBreaks_inside hplain,
        if_neg hc, ih]
  | escaped _ ih =>
      simp only [List.cons_append, escapedBreaks, ih]
      rw [Nat.add_assoc]

theorem Enclosed.escapedBreaks_append (h : Enclosed cs) (ds : List Char) :
    escapedBreaks none (cs ++ ds) = escapedBreaks none cs + escapedBreaks none ds := by
  induction h generalizing ds with
  | nil => exact (Nat.zero_add _).symm
  | char hquote _ _ _ ih =>
      rw [List.cons_append, escapedBreaks_outside hquote, escapedBreaks_outside hquote, ih]
  | @quoted quote raw outer hquote hwithin _ ih =>
      rw [List.cons_append, List.append_assoc, List.cons_append, escapedBreaks_open hquote,
        escapedBreaks_open hquote, escapedBreaks_within hquote hwithin (outer ++ ds),
        escapedBreaks_within hquote hwithin outer, ih, Nat.add_assoc]
  | @braces inner outer _ _ ihInner ih =>
      have hopen : ¬IsQuote '{' := by rintro (⟨⟨⟩⟩ | ⟨⟨⟩⟩)
      have hclose : ¬IsQuote '}' := by rintro (⟨⟨⟩⟩ | ⟨⟨⟩⟩)
      rw [List.cons_append, List.append_assoc, List.cons_append, escapedBreaks_outside hopen,
        escapedBreaks_outside hopen, ihInner, ihInner, escapedBreaks_outside hclose,
        escapedBreaks_outside hclose, ih, Nat.add_assoc]

theorem escapedBreaks_lead (h : ∀ c ∈ lead, Text.isBlank c = true) :
    escapedBreaks none (lead ++ cs) = escapedBreaks none cs := by
  induction lead with
  | nil => rfl
  | cons c lead ih =>
      obtain ⟨hc, hlead⟩ := List.forall_mem_cons.1 h
      rw [List.cons_append, escapedBreaks_outside (not_quote_of_blank hc), ih hlead]

/-- The blanks at its end are no part of what makes a text enclosed. -/
theorem Enclosed.before_blanks (h : Enclosed (cs ++ trail)) (htrail : ∀ c ∈ trail, Text.isBlank c = true) :
    Enclosed cs := by
  generalize hall : cs ++ trail = all at h
  induction h generalizing cs with
  | nil =>
      obtain ⟨rfl, -⟩ := List.append_eq_nil_iff.1 hall
      exact .nil
  | char hquote hopen hclose _ ih =>
      cases cs with
      | nil => exact .nil
      | cons c cs =>
          obtain ⟨rfl, htail⟩ := List.cons.inj hall
          exact .char hquote hopen hclose (ih htail)
  | @quoted quote raw outer hquote hwithin _ ih =>
      have hblank : Text.isBlank quote = false := by
        rcases hquote with rfl | rfl <;> rfl
      have hsplit : cs ++ trail = quote :: (raw ++ [quote]) ++ outer := by simp [hall]
      obtain ⟨rest, rfl, rfl⟩ := exists_before_blanks ⟨quote :: raw, quote, rfl, hblank⟩ htrail hsplit
      simpa using Enclosed.quoted hquote hwithin (ih rfl)
  | @braces inner outer hinner _ _ ih =>
      have hsplit : cs ++ trail = '{' :: (inner ++ ['}']) ++ outer := by simp [hall]
      obtain ⟨rest, rfl, rfl⟩ := exists_before_blanks ⟨'{' :: inner, '}', rfl, rfl⟩ htrail hsplit
      simpa using Enclosed.braces hinner (ih rfl)

/-- Trimming takes away no line end that a backslash escapes. -/
theorem escapedBreaks_trim (h : Enclosed source) :
    escapedBreaks none (Text.trimChars source) = escapedBreaks none source := by
  obtain ⟨trail, htrail, hsource⟩ := Text.exists_trimChars source
  rw [← List.append_assoc] at hsource
  have hfront : Enclosed (source.takeWhile Text.isBlank ++ Text.trimChars source) :=
    Enclosed.before_blanks (hsource ▸ h) htrail
  have htrail' : escapedBreaks none trail = 0 := by
    rw [← List.append_nil trail, escapedBreaks_lead htrail]
    rfl
  calc escapedBreaks none (Text.trimChars source)
      = escapedBreaks none (source.takeWhile Text.isBlank ++ Text.trimChars source) :=
        (escapedBreaks_lead (List.all_eq_true.1 List.all_takeWhile)).symm
    _ = escapedBreaks none (source.takeWhile Text.isBlank ++ Text.trimChars source ++ trail) := by
        rw [hfront.escapedBreaks_append, htrail', Nat.add_zero]
    _ = escapedBreaks none source := by rw [← hsource]

end Variorum.Marker

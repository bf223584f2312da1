import Variorum.Expr.Printer
import Variorum.Proofs.Expr.Completeness
import Variorum.Proofs.Expr.Lexing
import Variorum.Proofs.Text.Quoted

/-!
# Texts as literals

Between quotes stands a literal as long as each backslash takes a character with it. So every text can
be written as a literal by a backslash before each of its backslashes and quotes. What is displayed of a
text is a literal as well, but not always one of the same text.
-/

namespace Variorum

variable {quote c : Char} {raw cs written read : List Char}

/-! ## What stands between quotes -/

theorem Within.append (h : Within quote raw) (h' : Within quote cs) : Within quote (raw ++ cs) := by
  induction h with
  | nil => exact h'
  | plain hquote hslash _ ih => exact .plain hquote hslash ih
  | escaped _ ih => exact .escaped ih

theorem within_of_not_mem (hquote : quote ∉ cs) (hslash : '\\' ∉ cs) : Within quote cs := by
  induction cs with
  | nil => exact .nil
  | cons c cs ih =>
      obtain ⟨hc, hcs⟩ := List.ne_and_not_mem_of_not_mem_cons hquote
      obtain ⟨hc', hcs'⟩ := List.ne_and_not_mem_of_not_mem_cons hslash
      exact .plain hc.symm hc'.symm (ih hcs hcs')

theorem within_flatMap {f : Char → List Char} (h : ∀ c, Within quote (f c)) (cs : List Char) :
    Within quote (cs.flatMap f) := by
  induction cs with
  | nil => exact .nil
  | cons c cs ih => exact (h c).append ih

namespace Text

theorem unescape_cons (h : c ≠ '\\') : unescape (c :: cs) = c :: unescape cs := by
  rw [unescape]
  intro d ds hc
  exact absurd hc h

theorem unescape_of_not_mem (h : '\\' ∉ cs) : unescape cs = cs := by
  induction cs with
  | nil => rfl
  | cons c cs ih =>
      obtain ⟨hc, hcs⟩ := List.ne_and_not_mem_of_not_mem_cons h
      rw [unescape_cons hc.symm, ih hcs]

/-- What is between quotes means the same wherever it is put. -/
theorem unescape_append (h : Within quote raw) : unescape (raw ++ cs) = unescape raw ++ unescape cs := by
  induction h with
  | nil => rfl
  | plain _ hslash _ ih =>
      rw [List.cons_append, unescape_cons hslash, unescape_cons hslash, ih, List.cons_append]
  | escaped _ ih => rw [List.cons_append, List.cons_append, unescape, unescape, ih, List.cons_append]

theorem unescape_flatMap {f : Char → List Char} (h : ∀ c, Within quote (f c)) (cs : List Char) :
    unescape (cs.flatMap f) = cs.flatMap fun c => unescape (f c) := by
  induction cs with
  | nil => rfl
  | cons c cs ih => rw [List.flatMap_cons, unescape_append (h c), ih, List.flatMap_cons]

end Text

namespace Token

variable {p : Position} {rest : List Char}

theorem scan_quoted (hquote : IsQuote quote) (hraw : Within quote raw) :
    scan p (quote :: (raw ++ quote :: rest)) =
      ⟨.text quote raw, p⟩ :: scan (p.after (quote :: (raw ++ [quote]))) rest := by
  have hspace : isSpace quote = false := by
    rcases hquote with rfl | rfl
    · rfl
    · rfl
  have hread : quoted? quote (raw ++ quote :: rest) = some (raw, rest) :=
    (quoted?_eq_some_iff hquote).2 ⟨rfl, hraw⟩
  refine scan_first hspace ?_
  rw [first_quote hquote, hread]

end Token

/-- What stands between quotes is a literal. -/
theorem Expr.parse_quoted (hquote : IsQuote quote) (hraw : Within quote raw) (line : Nat) :
    parse (String.ofList (quote :: (raw ++ [quote]))) line =
      .ok (.literal line (.text (String.ofList (Text.unescape raw)))) := by
  have hscan : Token.scan ⟨line, 1⟩ (String.ofList (quote :: (raw ++ [quote]))).toList =
      [⟨.text quote raw, ⟨line, 1⟩⟩] := by
    rw [String.toList_ofList, Token.scan_quoted hquote hraw, Token.scan_nil]
  have hderives := (Derives.text quote raw ⟨line, 1⟩).mono (m := .sum) (by decide)
  rw [← hscan] at hderives
  exact parse_of_derives hderives

/-! ## Texts that are put between quotes -/

namespace Text

/-- A character with a backslash before it if it would not stand for itself between double quotes. -/
def guarded (c : Char) : List Char :=
  if c = '\\' ∨ c = '"' then ['\\', c] else [c]

/-- A text between double quotes, in which each backslash and each double quote is behind a
backslash. -/
def enquote (s : String) : String :=
  String.ofList ('"' :: (s.toList.flatMap guarded ++ ['"']))

theorem within_guarded (c : Char) : Within '"' (guarded c) := by
  unfold guarded
  split
  · exact .escaped .nil
  · rename_i hplain
    obtain ⟨hslash, hquote⟩ := not_or.1 hplain
    exact .plain hquote hslash .nil

theorem unescape_guarded (c : Char) : unescape (guarded c) = [c] := by
  unfold guarded
  split
  · rename_i hguarded
    rcases hguarded with rfl | rfl
    · rfl
    · rfl
  · rename_i hplain
    exact unescape_cons (not_or.1 hplain).1

theorem within_flatMap_guarded (s : String) : Within '"' (s.toList.flatMap guarded) :=
  within_flatMap within_guarded s.toList

end Text

/-- A text put between quotes is a literal of that text. -/
theorem Expr.parse_enquote (s : String) (line : Nat) :
    parse (Text.enquote s) line = .ok (.literal line (.text s)) := by
  have hread : Text.unescape (s.toList.flatMap Text.guarded) = s.toList := by
    rw [Text.unescape_flatMap Text.within_guarded]
    simp only [Text.unescape_guarded, List.flatMap_singleton']
  have hparse := parse_quoted (.inl rfl) (Text.within_flatMap_guarded s) line
  rwa [hread, String.ofList_toList] at hparse

/-! ## Displayed texts -/

namespace Text

theorem Displays.within (h : Displays c written read) : Within '"' written := by
  cases h with
  | itself hslash hquote _ => exact .plain hquote hslash .nil
  | name _ => exact .escaped .nil
  | number =>
      have hquote := not_mem_number (d := '"') (by decide) (by decide) (by decide)
        (fun _ => Nat.digitChar_ne _ rfl) c.toNat
      have hslash := not_mem_number (d := '\\') (by decide) (by decide) (by decide)
        (fun _ => Nat.digitChar_ne _ rfl) c.toNat
      exact .escaped (within_of_not_mem (List.not_mem_of_not_mem_cons hquote)
        (List.not_mem_of_not_mem_cons hslash))

theorem Displays.unescape_eq (h : Displays c written read) : unescape written = read := by
  cases h with
  | itself hslash _ _ => exact unescape_cons hslash
  | name _ => rfl
  | number =>
      have hslash := not_mem_number (d := '\\') (by decide) (by decide) (by decide)
        (fun _ => Nat.digitChar_ne _ rfl) c.toNat
      exact congrArg ('u' :: ·) (unescape_of_not_mem (List.not_mem_of_not_mem_cons hslash))

theorem within_flatMap_escape (s : String) : Within '"' (s.toList.flatMap escape) :=
  within_flatMap (fun c => (displays c).within) s.toList

/-- A displayed text is read character by character. -/
theorem unescape_flatMap_escape (s : String) :
    unescape (s.toList.flatMap escape) = s.toList.flatMap reread := by
  rw [unescape_flatMap fun c => (displays c).within]
  simp only [fun c => (displays c).unescape_eq]

end Text

/-- A displayed text is one token. -/
theorem Token.scans_quote (s : String) (p : Position) :
    Scans p (Text.quote s).toList [⟨.text '"' (s.toList.flatMap Text.escape), p⟩] where
  single_line := by
    rw [Text.quote, String.toList_ofList, List.cons_append, List.mem_cons, List.mem_append,
      List.mem_singleton]
    rintro (hmem | hmem | hmem)
    · cases hmem
    · obtain ⟨c, -, hc⟩ := List.mem_flatMap.1 hmem
      exact (Text.displays c).newline_not_mem hc
    · cases hmem
  scan_append rest _ := by
    rw [Text.quote, String.toList_ofList, List.cons_append, List.cons_append, List.append_assoc,
      List.singleton_append, scan_quoted (.inl rfl) (Text.within_flatMap_escape s)]
    rfl

namespace Expr

/-- What is displayed of a text literal is read as a text literal again. The text is the same if each of its
characters is plain, and in any other case it is not: of a null the digit is read, and of a character
that is displayed by its number what stands behind the backslash. -/
theorem parse_print_text (s : String) (line line' : Nat) :
    parse (Expr.literal line' (.text s)).print line =
        .ok (.literal line (.text (String.ofList (s.toList.flatMap Text.reread)))) ∧
      (parse (Expr.literal line' (.text s)).print line = .ok (.literal line (.text s)) ↔
        ∀ c ∈ s.toList, Text.Plain c) := by
  have hparse : parse (Expr.literal line' (.text s)).print line =
      .ok (.literal line (.text (String.ofList (s.toList.flatMap Text.reread)))) := by
    rw [← Text.unescape_flatMap_escape]
    exact parse_quoted (.inl rfl) (Text.within_flatMap_escape s) line
  refine ⟨hparse, ?_⟩
  rw [hparse, ← Text.flatMap_reread_eq_self_iff]
  constructor
  · intro h
    have htext : String.ofList (s.toList.flatMap Text.reread) = s := by simpa using h
    have hchars := congrArg String.toList htext
    rwa [String.toList_ofList] at hchars
  · intro h
    rw [h, String.ofList_toList]

/-- A null is displayed by a digit, which is read as that digit. -/
theorem parse_print_null :
    (Expr.literal 1 (.text "\x00")).print = "\"\\0\"" ∧
      parse "\"\\0\"" 1 = .ok (.literal 1 (.text "0")) ∧
      ¬∀ (s : String) (line line' : Nat),
        parse (Expr.literal line' (.text s)).print line = .ok (.literal line (.text s)) := by
  have hprint : (Expr.literal 1 (.text "\x00")).print = "\"\\0\"" := by decide +kernel
  have hparse : parse "\"\\0\"" 1 = .ok (.literal 1 (.text "0")) :=
    parse_quoted (.inl rfl) (Within.escaped .nil) 1
  refine ⟨hprint, hparse, fun h => ?_⟩
  have hnull := h "\x00" 1 1
  rw [hprint, hparse] at hnull
  simp at hnull

end Expr

end Variorum

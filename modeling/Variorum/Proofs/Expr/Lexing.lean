import Variorum.Proofs.Expr.Source

/-!
# Tokens are the longest texts

The first token behind blanks is the longest text of its class, and the longest text of a class is
the first token, except that digits may also begin a longer number.
-/

namespace Variorum

variable {Class : List Char → Prop} {cs ds text rest : List Char}

/-! ## Longest texts -/

theorem longest_of_head (h : Class text) (hhead : ∀ d ∈ rest.head?, ∀ more, ¬Class (text ++ d :: more)) :
    Longest Class text rest := by
  refine ⟨h, fun more hmore hclass => ?_⟩
  cases more with
  | nil => rfl
  | cons d more =>
      obtain ⟨tail, rfl⟩ := hmore
      exact absurd hclass (hhead d rfl more)

theorem Longest.head {P : Char → Bool} (h : Longest Class text rest)
    (hP : ∀ d, P d = true → Class (text ++ [d])) : ∀ d ∈ rest.head?, P d = false := by
  intro d hd
  rw [Bool.eq_false_iff]
  intro hd'
  cases rest with
  | nil => cases hd
  | cons d' rest =>
      cases hd
      cases h.2 [d] ⟨rest, rfl⟩ (hP d hd')

/-- Of two texts at the front of one list the longest is as long as the other. -/
theorem Longest.eq_of_append_eq {text' rest' : List Char} (h : Longest Class text rest)
    (happend : text ++ rest = text' ++ rest') (hclass : Class text')
    (hlength : text.length ≤ text'.length) : text' = text ∧ rest' = rest := by
  obtain ⟨more, rfl⟩ : text <+: text' :=
    List.prefix_of_prefix_length_le ⟨rest, rfl⟩ ⟨rest', happend.symm⟩ hlength
  rw [List.append_assoc, List.append_cancel_left_eq] at happend
  cases h.2 more ⟨rest', happend.symm⟩ hclass
  exact ⟨List.append_nil text, happend.symm⟩

namespace Token

variable {c d quote : Char} {raw tail : List Char} {l : Lexeme}

/-! ## Words -/

theorem IsWord.append (h : IsWord text) (hds : ∀ d ∈ ds, isWordPart d = true) : IsWord (text ++ ds) := by
  obtain ⟨c, cs, rfl, hc, hcs⟩ := h
  exact ⟨c, cs ++ ds, rfl, hc, List.forall_mem_append.2 ⟨hcs, hds⟩⟩

theorem IsWord.of_append (h : IsWord (text ++ ds)) (hne : text ≠ []) :
    ∀ d ∈ ds, isWordPart d = true := by
  obtain ⟨c, cs, heq, -, hcs⟩ := h
  cases text with
  | nil => exact absurd rfl hne
  | cons c' text =>
      obtain ⟨-, rfl⟩ := List.cons.inj heq
      exact fun d hd => hcs d (List.mem_append_right text hd)

theorem longest_word_iff : Longest IsWord text rest ↔
    IsWord text ∧ ∀ d ∈ rest.head?, isWordPart d = false := by
  constructor
  · exact fun h => ⟨h.1, h.head fun d hd => h.1.append (List.forall_mem_singleton.2 hd)⟩
  · rintro ⟨hword, hhead⟩
    refine longest_of_head hword fun d hd more hmore => ?_
    obtain ⟨c, cs, rfl, -⟩ := hword
    have hpart := hmore.of_append (List.cons_ne_nil c cs) d (by simp)
    rw [hhead d hd] at hpart
    cases hpart

theorem first_word (h : isWordStart c = true) : first c cs =
    (.word (String.ofList (c :: cs.takeWhile isWordPart)), cs.dropWhile isWordPart) := by
  rw [first, if_pos h]

theorem first_digit (h : c.isDigit = true) : first c cs =
    number (c :: cs.takeWhile Char.isDigit) (cs.dropWhile Char.isDigit) := by
  rw [first, if_neg (by simp [not_wordStart_of_digit h]), if_pos h]

theorem not_quote_of_wordStart (h : isWordStart c = true) : ¬IsQuote c := by
  rintro (rfl | rfl) <;> cases h

theorem not_quote_of_digit (h : c.isDigit = true) : ¬IsQuote c := by
  rintro (rfl | rfl) <;> cases h

theorem first_quote (h : IsQuote c) : first c cs =
    match quoted? c cs with
    | some (raw, rest) => (.text c raw, rest)
    | none => (.symbol c, cs) := by
  have hword : ¬isWordStart c = true := fun hc => not_quote_of_wordStart hc h
  have hdigit : ¬c.isDigit = true := fun hc => not_quote_of_digit hc h
  rw [first, if_neg hword, if_neg hdigit]
  exact if_pos h

/-- With which character a lexeme begins. -/
def BeginsWith (c : Char) : Lexeme → Prop
  | .word _ => isWordStart c = true
  | .integer _ | .float _ => c.isDigit = true
  | .text quote _ => quote = c ∧ IsQuote c
  | .symbol d => d = c

theorem number_beginsWith (h : c.isDigit = true) : BeginsWith c (number ds rest).1 := by
  unfold number
  split
  · split <;> exact h
  · split <;> exact h

theorem first_beginsWith : BeginsWith c (first c cs).1 := by
  unfold first
  split
  · assumption
  · split
    · rename_i h
      exact number_beginsWith h
    · split
      · rename_i h
        split
        · exact ⟨rfl, h⟩
        · rfl
      · rfl

theorem first_eq_word_iff {s : String} : first c cs = (.word s, rest) ↔
    c :: cs = s.toList ++ rest ∧ Longest IsWord s.toList rest := by
  rw [longest_word_iff]
  constructor
  · intro h
    have hc : BeginsWith c (first c cs).1 := first_beginsWith
    rw [h] at hc
    rw [first_word hc] at h
    cases h
    rw [String.toList_ofList, List.cons_append, List.takeWhile_append_dropWhile]
    exact ⟨rfl, ⟨c, _, rfl, hc, List.all_eq_true.1 List.all_takeWhile⟩, Text.head_dropWhile _ cs⟩
  · rintro ⟨heq, ⟨c', ds, hs, hc, hds⟩, hrest⟩
    rw [hs] at heq
    cases heq
    rw [first_word hc, List.append_eq, Text.takeWhile_run hds hrest, Text.dropWhile_run hds hrest, ← hs,
      String.ofList_toList]

/-! ## Numbers -/

theorem IsDigits.append (h : IsDigits text) (hds : ∀ d ∈ ds, d.isDigit = true) : IsDigits (text ++ ds) := by
  obtain ⟨c, cs, rfl, hc, hcs⟩ := Decimal.isDigits_iff.1 h
  exact Decimal.isDigits_iff.2 ⟨c, cs ++ ds, rfl, hc, List.forall_mem_append.2 ⟨hcs, hds⟩⟩

theorem longest_digits_iff : Longest IsDigits text rest ↔
    IsDigits text ∧ ∀ d ∈ rest.head?, d.isDigit = false := by
  constructor
  · exact fun h => ⟨h.1, h.head fun d hd => IsDigits.append h.1 (List.forall_mem_singleton.2 hd)⟩
  · rintro ⟨hdigits, hhead⟩
    refine longest_of_head hdigits fun d hd more hmore => ?_
    have hdigit := Decimal.forall_digit hmore d (by simp)
    rw [hhead d hd] at hdigit
    cases hdigit

theorem isDigits_takeWhile (h : c.isDigit = true) : IsDigits (c :: cs.takeWhile Char.isDigit) :=
  Decimal.isDigits_iff.2 ⟨c, _, rfl, h, List.all_eq_true.1 List.all_takeWhile⟩

theorem digits?_eq_some (h : digits? cs = some (ds, rest)) : cs = ds ++ rest ∧ IsDigits ds := by
  unfold digits? at h
  split at h
  · cases h
  · rename_i hne
    cases h
    refine ⟨List.takeWhile_append_dropWhile.symm, ?_⟩
    have hall : ∀ d ∈ cs.takeWhile Char.isDigit, d.isDigit = true := List.all_eq_true.1 List.all_takeWhile
    generalize cs.takeWhile Char.isDigit = ds at hne hall
    cases ds with
    | nil => exact absurd rfl hne
    | cons d ds => exact Decimal.isDigits_iff.2 ⟨d, ds, rfl, List.forall_mem_cons.1 hall⟩

theorem fraction?_eq_some (h : fraction? cs = some (text, rest)) :
    cs = text ++ rest ∧ ∃ ds, text = '.' :: ds ∧ IsDigits ds := by
  unfold fraction? at h
  split at h
  · obtain ⟨⟨ds, rest'⟩, hds, heq⟩ := Option.map_eq_some_iff.1 h
    cases heq
    obtain ⟨rfl, hdigits⟩ := digits?_eq_some hds
    exact ⟨rfl, ds, rfl, hdigits⟩
  · cases h

theorem exponent?_eq_some (h : exponent? cs = some (text, rest)) : cs = text ++ rest ∧ ExponentPart text := by
  unfold exponent? at h
  split at h
  · split at h
    · rename_i he
      split at h
      · obtain ⟨⟨ds, rest'⟩, hds, heq⟩ := Option.map_eq_some_iff.1 h
        cases heq
        obtain ⟨rfl, hdigits⟩ := digits?_eq_some hds
        exact ⟨rfl, @ExponentPart.intro _ ['+'] _ he (by simp) hdigits⟩
      · obtain ⟨⟨ds, rest'⟩, hds, heq⟩ := Option.map_eq_some_iff.1 h
        cases heq
        obtain ⟨rfl, hdigits⟩ := digits?_eq_some hds
        exact ⟨rfl, @ExponentPart.intro _ ['-'] _ he (by simp) hdigits⟩
      · obtain ⟨⟨ds, rest'⟩, hds, heq⟩ := Option.map_eq_some_iff.1 h
        cases heq
        obtain ⟨rfl, hdigits⟩ := digits?_eq_some hds
        exact ⟨rfl, @ExponentPart.intro _ [] _ he (by simp) hdigits⟩
    · cases h
  · cases h

theorem number_eq_float (hds : IsDigits ds) (h : number ds tail = (.float text, rest)) :
    ds ++ tail = text ++ rest ∧ FloatNumeral text := by
  unfold number at h
  split at h
  · rename_i hfraction
    obtain ⟨rfl, fs, rfl, hfs⟩ := fraction?_eq_some hfraction
    split at h
    · rename_i hexponent
      obtain ⟨rfl, hes⟩ := exponent?_eq_some hexponent
      cases h
      refine ⟨by simp, ?_⟩
      rw [List.append_assoc]
      exact .both hds hfs hes
    · cases h
      exact ⟨by simp, .fraction hds hfs⟩
  · split at h
    · rename_i hexponent
      obtain ⟨rfl, hes⟩ := exponent?_eq_some hexponent
      cases h
      exact ⟨by simp, .exponent hds hes⟩
    · cases h

theorem number_eq_integer (h : number ds tail = (.integer text, rest)) : text = ds ∧ rest = tail := by
  unfold number at h
  split at h
  · split at h <;> cases h
  · split at h
    · cases h
    · cases h
      exact ⟨rfl, rfl⟩

/-- Digits begin the number that they have in front of them. -/
theorem first_digits (h : IsDigits ds) (htail : ∀ d ∈ tail.head?, d.isDigit = false)
    (heq : c :: cs = ds ++ tail) : first c cs = number ds tail := by
  obtain ⟨d, es, rfl, hd, hes⟩ := Decimal.isDigits_iff.1 h
  cases heq
  rw [first_digit hd, List.append_eq, Text.takeWhile_run hes htail, Text.dropWhile_run hes htail]

theorem exists_digits? (h : IsDigits ds) (rest : List Char) :
    ∃ ds' rest', digits? (ds ++ rest) = some (ds', rest') ∧ ds.length ≤ ds'.length := by
  have hrun : (ds ++ rest).takeWhile Char.isDigit = ds ++ rest.takeWhile Char.isDigit :=
    List.takeWhile_append_of_pos (Decimal.forall_digit h)
  obtain ⟨d, es, rfl, -⟩ := Decimal.isDigits_iff.1 h
  refine ⟨_, (d :: es ++ rest).dropWhile Char.isDigit, by rw [digits?, hrun]; rfl, ?_⟩
  rw [List.length_append]
  exact Nat.le_add_right _ _

theorem exists_exponent? {es : List Char} (h : ExponentPart es) (rest : List Char) :
    ∃ es' rest', exponent? (es ++ rest) = some (es', rest') ∧ es.length ≤ es'.length := by
  obtain ⟨he, hsign, hds⟩ := h
  rename_i e sign ds
  obtain ⟨ds', rest', hrun, hle⟩ := exists_digits? hds rest
  rw [List.cons_append, List.append_assoc]
  simp only [List.mem_cons, List.not_mem_nil, or_false] at hsign
  rcases hsign with rfl | rfl | rfl
  · obtain ⟨d, es, rfl, hd, -⟩ := Decimal.isDigits_iff.1 hds
    refine ⟨e :: ds', rest', ?_, by simpa using hle⟩
    rw [List.nil_append, exponent?, if_pos he, hrun]
    · rfl
    · rintro _ heq
      cases heq
      cases hd
    · rintro _ heq
      cases heq
      cases hd
  · refine ⟨e :: '+' :: ds', rest', ?_, by simpa using hle⟩
    rw [List.singleton_append, exponent?, if_pos he, hrun]
    rfl
  · refine ⟨e :: '-' :: ds', rest', ?_, by simpa using hle⟩
    rw [List.singleton_append, exponent?, if_pos he, hrun]
    rfl

/-- Where a float can be read, a float is read that is no shorter. -/
theorem exists_first_float (h : FloatNumeral text) (heq : c :: cs = text ++ rest) :
    ∃ text' rest', first c cs = (.float text', rest') ∧ text.length ≤ text'.length := by
  cases h with
  | @fraction ds fs hds hfs =>
      obtain ⟨fs', rest', hrun, hle⟩ := exists_digits? hfs rest
      rw [List.append_assoc, List.cons_append] at heq
      have hfraction : fraction? ('.' :: (fs ++ rest)) = some ('.' :: fs', rest') := by
        rw [fraction?, hrun]
        rfl
      rw [first_digits hds (by rintro d ⟨⟩; decide) heq, number, hfraction]
      cases hexponent : exponent? rest' with
      | none =>
          simp only [hexponent]
          exact ⟨_, _, rfl, by simpa using hle⟩
      | some r =>
          simp only [hexponent]
          refine ⟨_, _, rfl, ?_⟩
          simp only [List.length_append, List.length_cons]
          omega
  | @exponent ds es hds hes =>
      obtain ⟨es', rest', hrun, hle⟩ := exists_exponent? hes rest
      have hhead : ∀ d ∈ (es ++ rest).head?, d.isDigit = false ∧ d ≠ '.' := exponentPart_head hes
      have hnone : fraction? (es ++ rest) = none := by
        unfold fraction?
        split
        · rename_i heq
          exact absurd rfl (hhead '.' (by rw [heq]; rfl)).2
        · rfl
      rw [List.append_assoc] at heq
      rw [first_digits hds (fun d hd => (hhead d hd).1) heq, number, hnone, hrun]
      exact ⟨_, _, rfl, by simpa using hle⟩
  | @both ds fs es hds hfs hes =>
      obtain ⟨es', rest', hrun, hle⟩ := exists_exponent? hes rest
      have hhead : ∀ d ∈ (es ++ rest).head?, d.isDigit = false ∧ d ≠ '.' := exponentPart_head hes
      rw [List.append_assoc, List.cons_append, List.append_assoc] at heq
      have hfraction : fraction? ('.' :: (fs ++ (es ++ rest))) = some ('.' :: fs, es ++ rest) := by
        rw [fraction?, digits?_run hfs fun d hd => (hhead d hd).1]
        rfl
      rw [first_digits hds (by rintro d ⟨⟩; decide) heq, number, hfraction]
      simp only [hrun]
      refine ⟨_, _, rfl, ?_⟩
      simp only [List.length_append, List.length_cons]
      omega

theorem of_first_eq_float (h : first c cs = (.float text, rest)) :
    c :: cs = text ++ rest ∧ FloatNumeral text := by
  have hc : BeginsWith c (first c cs).1 := first_beginsWith
  rw [h] at hc
  rw [first_digit hc] at h
  have hnumber := number_eq_float (isDigits_takeWhile hc) h
  rwa [List.cons_append, List.takeWhile_append_dropWhile] at hnumber

theorem first_eq_float_iff : first c cs = (.float text, rest) ↔
    c :: cs = text ++ rest ∧ Longest FloatNumeral text rest := by
  constructor
  · intro h
    obtain ⟨heq, hfloat⟩ := of_first_eq_float h
    refine ⟨heq, hfloat, ?_⟩
    rintro more ⟨rest', rfl⟩ hmore
    rw [← List.append_assoc] at heq
    obtain ⟨text', rest'', h', hle⟩ := exists_first_float hmore heq
    rw [h] at h'
    cases h'
    rw [List.length_append] at hle
    exact List.length_eq_zero_iff.1 (by omega)
  · rintro ⟨heq, hlongest⟩
    obtain ⟨text', rest', h, hle⟩ := exists_first_float hlongest.1 heq
    obtain ⟨heq', hfloat⟩ := of_first_eq_float h
    obtain ⟨rfl, rfl⟩ := hlongest.eq_of_append_eq (heq.symm.trans heq') hfloat hle
    exact h

theorem of_first_eq_integer (h : first c cs = (.integer text, rest)) :
    c :: cs = text ++ rest ∧ Longest IsDigits text rest := by
  have hc : BeginsWith c (first c cs).1 := first_beginsWith
  rw [h] at hc
  rw [first_digit hc] at h
  obtain ⟨rfl, rfl⟩ := number_eq_integer h
  rw [List.cons_append, List.takeWhile_append_dropWhile, longest_digits_iff]
  exact ⟨rfl, isDigits_takeWhile hc, Text.head_dropWhile _ cs⟩

/-- Nothing stands at the front with which digits could go on to a float. -/
def Clear (cs : List Char) : Prop :=
  ∀ c ∈ cs.head?, c ≠ '.' ∧ c ≠ 'e' ∧ c ≠ 'E'

theorem first_eq_integer (heq : c :: cs = text ++ rest) (h : Longest IsDigits text rest)
    (hclear : Clear rest) : first c cs = (.integer text, rest) := by
  obtain ⟨hdigits, hhead⟩ := longest_digits_iff.1 h
  have hfraction : fraction? rest = none := by
    unfold fraction?
    split
    · exact absurd rfl (hclear '.' rfl).1
    · rfl
  have hexponent : exponent? rest = none := by
    unfold exponent?
    split
    · rename_i e cs
      have he := (hclear e rfl).2
      exact if_neg fun h => h.elim he.1 he.2
    · rfl
  rw [first_digits hdigits hhead heq, number, hfraction, hexponent]

/-! ## Texts in quotes -/

theorem quoted?_eq_some_iff (hquote : IsQuote quote) :
    quoted? quote cs = some (raw, rest) ↔ cs = raw ++ quote :: rest ∧ Within quote raw := by
  have hslash : quote ≠ '\\' := by rcases hquote with rfl | rfl <;> decide
  constructor
  · intro h
    fun_induction quoted? quote cs generalizing raw with
    | case1 => cases h
    | case2 => cases h
    | case3 c cs ih =>
        obtain ⟨⟨raw', rest'⟩, hraw, heq⟩ := Option.map_eq_some_iff.1 h
        cases heq
        obtain ⟨rfl, hwithin⟩ := ih hraw
        exact ⟨rfl, .escaped hwithin⟩
    | case4 cs =>
        cases h
        exact ⟨rfl, .nil⟩
    | case5 c cs hnil hcons hne ih =>
        obtain ⟨⟨raw', rest'⟩, hraw, heq⟩ := Option.map_eq_some_iff.1 h
        cases heq
        obtain ⟨rfl, hwithin⟩ := ih hraw
        refine ⟨rfl, .plain hne ?_ hwithin⟩
        rintro rfl
        cases hd : raw' ++ quote :: rest' with
        | nil => simp at hd
        | cons d ds => exact hcons d ds rfl hd
  · rintro ⟨rfl, hwithin⟩
    induction hwithin with
    | nil =>
        rw [List.nil_append, quoted?, if_pos rfl]
        · exact fun h => absurd h hslash
        · exact fun _ _ h => absurd h hslash
    | plain hne hback _ ih =>
        rw [List.cons_append, quoted?, if_neg hne, ih]
        · rfl
        · exact fun h => absurd h hback
        · exact fun _ _ h => absurd h hback
    | escaped _ ih =>
        rw [List.cons_append, List.cons_append, quoted?, ih]
        rfl

theorem first_eq_text_iff : first c cs = (.text quote raw, rest) ↔
    c :: cs = quote :: (raw ++ [quote]) ++ rest ∧ Longest IsQuoted (quote :: (raw ++ [quote])) rest := by
  constructor
  · intro h
    have hc : BeginsWith c (first c cs).1 := first_beginsWith
    rw [h] at hc
    obtain ⟨rfl, hquote⟩ := hc
    rw [first_quote hquote] at h
    split at h
    · rename_i hquoted
      cases h
      obtain ⟨rfl, hwithin⟩ := (quoted?_eq_some_iff hquote).1 hquoted
      refine ⟨by simp, ⟨quote, raw, hquote, hwithin, rfl⟩, ?_⟩
      rintro more - ⟨quote', raw', hquote', hwithin', heq⟩
      simp only [List.cons_append, List.append_assoc, List.nil_append] at heq
      obtain ⟨rfl, heq⟩ := List.cons.inj heq
      have hshort : quoted? quote (raw ++ quote :: more) = some (raw, more) :=
        (quoted?_eq_some_iff hquote).2 ⟨rfl, hwithin⟩
      rw [heq, (quoted?_eq_some_iff hquote).2 ⟨rfl, hwithin'⟩] at hshort
      cases hshort
      rfl
    · cases h
  · rintro ⟨heq, ⟨quote', raw', hquote, hwithin, htext⟩, -⟩
    obtain ⟨rfl, htext⟩ := List.cons.inj htext
    obtain rfl := List.append_cancel_right htext
    simp only [List.cons_append, List.append_assoc, List.nil_append] at heq
    obtain ⟨rfl, rfl⟩ := List.cons.inj heq
    rw [first_quote hquote, (quoted?_eq_some_iff hquote).2 ⟨rfl, hwithin⟩]

/-! ## Marks -/

theorem of_first_eq_symbol (h : first c cs = (.symbol d, rest)) : d = c ∧ rest = cs := by
  unfold first at h
  split at h
  · cases h
  · split at h
    · unfold number at h
      split at h <;> split at h <;> cases h
    · split at h
      · split at h
        · cases h
        · cases h
          exact ⟨rfl, rfl⟩
      · cases h
        exact ⟨rfl, rfl⟩

theorem first_mark (h : IsMark c) : first c cs = (.symbol c, cs) := by
  obtain ⟨-, hword, hdigit, hdouble, hsingle⟩ := h
  rw [first, if_neg (by simp [hword]), if_neg (by simp [hdigit]), if_neg (by simp [hdouble, hsingle])]

theorem longest_mark : Longest (· = [c]) [c] rest :=
  ⟨rfl, fun _ _ h => List.append_cancel_left (h.trans (List.append_nil [c]).symm)⟩

end Token

/-! ## Tokens of a source -/

open Token

/-- The first token ahead of `a` is `t`, and it ends at `b`. -/
def Cursor.First (a : Cursor) (t : Token) (b : Cursor) : Prop :=
  ∃ blanks c cs, (∀ d ∈ blanks, isSpace d = true) ∧ a.ahead = blanks ++ c :: cs ∧
    isSpace c = false ∧ first c cs = (t.lexeme, b.ahead) ∧ t.start = a.place.after blanks ∧
    b.place = t.start.after t.lexeme.source

namespace Cursor

variable {a b : Cursor} {t : Token} {start : Position} {l : Lexeme}

theorem scan_blanks {p : Position} {blanks : List Char} (h : ∀ c ∈ blanks, isSpace c = true) :
    scan p (blanks ++ cs) = scan (p.after blanks) cs := by
  induction blanks generalizing p with
  | nil => rfl
  | cons c blanks ih =>
      obtain ⟨hc, hblanks⟩ := List.forall_mem_cons.1 h
      rw [List.cons_append, scan_space hc, ih hblanks]
      rfl

theorem First.scan (h : a.First t b) :
    Token.scan a.place a.ahead = t :: Token.scan b.place b.ahead := by
  obtain ⟨blanks, c, cs, hblanks, hahead, hspace, hfirst, hstart, hplace⟩ := h
  rw [hahead, scan_blanks hblanks, scan_first hspace hfirst, ← hstart, hplace]

theorem exists_first {ts : List Token} (h : Token.scan a.place a.ahead = t :: ts) :
    ∃ b, a.First t b ∧ Token.scan b.place b.ahead = ts := by
  obtain ⟨p, cs⟩ := a
  simp only at h
  fun_induction Token.scan p cs with
  | case1 => cases h
  | case2 p c cs hc ih =>
      obtain ⟨b, ⟨blanks, d, ds, hblanks, hahead, hfirst⟩, hts⟩ := ih h
      simp only at hahead hfirst
      subst hahead
      exact ⟨b, ⟨c :: blanks, d, ds, List.forall_mem_cons.2 ⟨hc, hblanks⟩, rfl, hfirst⟩, hts⟩
  | case3 p c cs hc =>
      cases h
      refine ⟨⟨p.after (first c cs).1.source, (first c cs).2⟩, ?_, rfl⟩
      exact ⟨[], c, cs, List.forall_mem_nil _, rfl, by simpa using hc, rfl, rfl, rfl⟩

theorem First.takes (h : a.First t b) (hclass : ∀ c cs, first c cs = (t.lexeme, b.ahead) →
      c :: cs = t.lexeme.source ++ b.ahead ∧ Longest Class t.lexeme.source b.ahead) :
    a.Takes Class t.start t.lexeme.source b := by
  obtain ⟨blanks, c, cs, hblanks, hahead, -, hfirst, hstart, hplace⟩ := h
  obtain ⟨hsource, hlongest⟩ := hclass c cs hfirst
  exact ⟨⟨blanks, hblanks, hsource ▸ hahead, hstart⟩, hplace, hlongest⟩

theorem Takes.first (h : a.Takes Class start l.source b)
    (hspace : ∃ c cs, l.source = c :: cs ∧ isSpace c = false)
    (hfirst : ∀ c cs, c :: cs = l.source ++ b.ahead → Token.first c cs = (l, b.ahead)) :
    a.First ⟨l, start⟩ b := by
  obtain ⟨⟨blanks, hblanks, hahead, hstart⟩, hplace, -⟩ := h
  obtain ⟨c, cs, hsource, hc⟩ := hspace
  rw [hsource, List.cons_append] at hahead hfirst
  exact ⟨blanks, c, cs ++ b.ahead, hblanks, hahead, hc, hfirst c _ rfl, hstart, hplace⟩

/-! ## The longest text ahead is the first token -/

theorem takes_word_iff {s : String} :
    a.Takes IsWord start s.toList b ↔ a.First ⟨.word s, start⟩ b := by
  constructor
  · intro h
    obtain ⟨c, cs, hs, hc, -⟩ := h.longest.1
    exact Takes.first (l := .word s) h ⟨c, cs, hs, not_space_of_wordStart hc⟩
      fun c cs heq => first_eq_word_iff.2 ⟨heq, h.longest⟩
  · exact fun h => h.takes fun c cs => first_eq_word_iff.1

theorem FloatNumeral.exists_digit {numeral : List Char} (h : FloatNumeral numeral) :
    ∃ c cs, numeral = c :: cs ∧ c.isDigit = true := by
  have hdigits : ∀ {ds es : List Char}, IsDigits ds → ∃ c cs, ds ++ es = c :: cs ∧ c.isDigit = true := by
    intro ds es h
    obtain ⟨d, ds, rfl, hd, -⟩ := Decimal.isDigits_iff.1 h
    exact ⟨d, ds ++ es, rfl, hd⟩
  cases h with
  | fraction hds _ => exact hdigits hds
  | exponent hds _ => exact hdigits hds
  | both hds _ _ => exact hdigits hds

theorem takes_float_iff {numeral : List Char} :
    a.Takes FloatNumeral start numeral b ↔ a.First ⟨.float numeral, start⟩ b := by
  constructor
  · intro h
    obtain ⟨c, cs, hs, hc⟩ := FloatNumeral.exists_digit h.longest.1
    exact Takes.first (l := .float numeral) h ⟨c, cs, hs, not_space_of_digit hc⟩
      fun c cs heq => first_eq_float_iff.2 ⟨heq, h.longest⟩
  · exact fun h => h.takes fun c cs => first_eq_float_iff.1

theorem takes_quoted_iff {quote : Char} {raw : List Char} :
    a.Takes IsQuoted start (quote :: (raw ++ [quote])) b ↔ a.First ⟨.text quote raw, start⟩ b := by
  constructor
  · intro h
    obtain ⟨quote', raw', hquote, -, heq⟩ := h.longest.1
    have hspace : isSpace quote = false := by
      obtain ⟨rfl, -⟩ := List.cons.inj heq
      rcases hquote with rfl | rfl <;> rfl
    exact Takes.first (l := .text quote raw) h ⟨quote, _, rfl, hspace⟩
      fun c cs heq => first_eq_text_iff.2 ⟨heq, h.longest⟩
  · exact fun h => h.takes fun c cs => first_eq_text_iff.1

theorem First.takes_digits {ds : List Char} (h : a.First ⟨.integer ds, start⟩ b) :
    a.Takes IsDigits start ds b :=
  h.takes fun _ _ => of_first_eq_integer

theorem Takes.first_integer {ds : List Char} (h : a.Takes IsDigits start ds b)
    (hclear : Clear b.ahead) : a.First ⟨.integer ds, start⟩ b := by
  obtain ⟨d, es, hds, hd, -⟩ := Decimal.isDigits_iff.1 h.longest.1
  exact Takes.first (l := .integer ds) h ⟨d, es, hds, not_space_of_digit hd⟩
    fun c cs heq => first_eq_integer heq h.longest hclear

theorem First.mark {c : Char} (h : a.First ⟨.symbol c, start⟩ b) : Expr.Mark c a start b := by
  refine h.takes fun d ds hfirst => ?_
  obtain ⟨rfl, hrest⟩ := of_first_eq_symbol hfirst
  exact ⟨by rw [hrest]; rfl, longest_mark⟩

end Cursor

theorem Expr.Mark.first {a b : Cursor} {start : Position} {c : Char} (h : Expr.Mark c a start b)
    (hc : IsMark c) : a.First ⟨.symbol c, start⟩ b := by
  refine Cursor.Takes.first (l := .symbol c) h ⟨c, [], rfl, hc.1⟩ ?_
  rintro d ds ⟨⟩
  exact first_mark hc

end Variorum

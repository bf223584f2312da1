import Variorum.Text.Case

/-!
# Tokens of an expression

A source is cut into words, numbers, quoted texts and single characters. Each is read as far as it
goes, blanks between them are dropped, and every token keeps the place where it begins.
-/

namespace Variorum

/-- A place in a source, counted in characters from one. -/
structure Position where
  line : Nat
  column : Nat
  deriving DecidableEq, Repr

namespace Position

/-- The place after a character. A line ends with its line feed. -/
def next (p : Position) (c : Char) : Position :=
  if c = '\n' then ⟨p.line + 1, 1⟩ else ⟨p.line, p.column + 1⟩

def after (p : Position) (cs : List Char) : Position :=
  cs.foldl next p

end Position

/-- What a token is. A text is kept as it stands between its quotes; any other character stands for
itself. -/
inductive Lexeme
  | word (s : String)
  | integer (digits : List Char)
  | float (numeral : List Char)
  | text (quote : Char) (raw : List Char)
  | symbol (c : Char)
  deriving DecidableEq, Repr

def Lexeme.source : Lexeme → List Char
  | .word s => s.toList
  | .integer digits => digits
  | .float numeral => numeral
  | .text quote raw => quote :: raw ++ [quote]
  | .symbol c => [c]

structure Token where
  lexeme : Lexeme
  start : Position
  deriving DecidableEq, Repr

namespace Token

def isSpace (c : Char) : Bool :=
  c = ' ' || c = '\t' || c = '\r' || c = '\n'

def isWordStart (c : Char) : Bool :=
  c.isAlpha || c = '_'

def isWordPart (c : Char) : Bool :=
  c.isAlphanum || c = '_'

/-- The digits at the front of a list, if there are any, and what follows. -/
def digits? (cs : List Char) : Option (List Char × List Char) :=
  match cs.takeWhile Char.isDigit with
  | [] => none
  | ds => some (ds, cs.dropWhile Char.isDigit)

def exponent? : List Char → Option (List Char × List Char)
  | e :: cs =>
    if e = 'e' ∨ e = 'E' then
      match cs with
      | '+' :: cs => (digits? cs).map fun p => (e :: '+' :: p.1, p.2)
      | '-' :: cs => (digits? cs).map fun p => (e :: '-' :: p.1, p.2)
      | cs => (digits? cs).map fun p => (e :: p.1, p.2)
    else none
  | [] => none

def fraction? : List Char → Option (List Char × List Char)
  | '.' :: cs => (digits? cs).map fun p => ('.' :: p.1, p.2)
  | _ => none

/-- The characters up to a closing quote and what follows it. After a backslash any character is
part of the text. -/
def quoted? (quote : Char) : List Char → Option (List Char × List Char)
  | [] => none
  | '\\' :: [] => none
  | '\\' :: c :: cs => (quoted? quote cs).map fun p => ('\\' :: c :: p.1, p.2)
  | c :: cs => if c = quote then some ([], cs) else (quoted? quote cs).map fun p => (c :: p.1, p.2)

def number (ds rest : List Char) : Lexeme × List Char :=
  match fraction? rest with
  | some (fs, rest) =>
    match exponent? rest with
    | some (es, rest) => (.float (ds ++ fs ++ es), rest)
    | none => (.float (ds ++ fs), rest)
  | none =>
    match exponent? rest with
    | some (es, rest) => (.float (ds ++ es), rest)
    | none => (.integer ds, rest)

def first (c : Char) (cs : List Char) : Lexeme × List Char :=
  if isWordStart c then
    (.word (String.ofList (c :: cs.takeWhile isWordPart)), cs.dropWhile isWordPart)
  else if c.isDigit then
    number (c :: cs.takeWhile Char.isDigit) (cs.dropWhile Char.isDigit)
  else if c = '"' ∨ c = '\'' then
    match quoted? c cs with
    | some (raw, rest) => (.text c raw, rest)
    | none => (.symbol c, cs)
  else (.symbol c, cs)

/-! ## What follows a lexeme is shorter than the source -/

theorem length_dropWhile_le (p : Char → Bool) (cs : List Char) :
    (cs.dropWhile p).length ≤ cs.length :=
  (List.dropWhile_sublist p).length_le

theorem digits?_length {cs ds rest : List Char} (h : digits? cs = some (ds, rest)) :
    rest.length ≤ cs.length := by
  unfold digits? at h
  split at h
  · cases h
  · cases h
    exact length_dropWhile_le Char.isDigit cs

theorem fraction?_length {cs fs rest : List Char} (h : fraction? cs = some (fs, rest)) :
    rest.length ≤ cs.length := by
  unfold fraction? at h
  split at h
  · obtain ⟨p, hp, he⟩ := Option.map_eq_some_iff.1 h
    cases he
    have := digits?_length hp
    simp only [List.length_cons]; omega
  · cases h

theorem exponent?_length {cs es rest : List Char} (h : exponent? cs = some (es, rest)) :
    rest.length ≤ cs.length := by
  unfold exponent? at h
  split at h
  · split at h
    · split at h <;>
      · obtain ⟨p, hp, he⟩ := Option.map_eq_some_iff.1 h
        cases he
        have := digits?_length hp
        simp only [List.length_cons]; omega
    · cases h
  · cases h

theorem quoted?_length {quote : Char} {cs raw rest : List Char}
    (h : quoted? quote cs = some (raw, rest)) : rest.length ≤ cs.length := by
  fun_induction quoted? quote cs generalizing raw rest with
  | case1 => cases h
  | case2 => cases h
  | case3 c cs ih =>
    obtain ⟨p, hp, he⟩ := Option.map_eq_some_iff.1 h
    cases he
    have := ih hp
    simp only [List.length_cons]; omega
  | case4 cs =>
    cases h
    simp
  | case5 c cs _ _ _ ih =>
    obtain ⟨p, hp, he⟩ := Option.map_eq_some_iff.1 h
    cases he
    have := ih hp
    simp only [List.length_cons]; omega

theorem number_length (ds rest : List Char) : (number ds rest).2.length ≤ rest.length := by
  unfold number
  split
  · rename_i hf
    have := fraction?_length hf
    split
    · rename_i he
      have := exponent?_length he
      simp only; omega
    · simpa using this
  · split
    · rename_i he
      simpa using exponent?_length he
    · simp

/-- What follows the first lexeme is no longer than what follows its first character. -/
theorem first_length (c : Char) (cs : List Char) : (first c cs).2.length ≤ cs.length := by
  unfold first
  split
  · exact length_dropWhile_le isWordPart cs
  · split
    · exact Nat.le_trans (number_length _ _) (length_dropWhile_le Char.isDigit cs)
    · split
      · split
        · rename_i hq
          simpa using quoted?_length hq
        · simp
      · simp

/-! ## The tokens of a source -/

def scan (p : Position) : List Char → List Token
  | [] => []
  | c :: cs =>
    if isSpace c then scan (p.next c) cs
    else
      have := first_length c cs
      ⟨(first c cs).1, p⟩ :: scan (p.after (first c cs).1.source) (first c cs).2
termination_by cs => cs.length
decreasing_by all_goals (simp only [List.length_cons]; omega)

def isSymbol (t : Token) (c : Char) : Bool :=
  t.lexeme == .symbol c

end Token

/-- The word that is no name, because it introduces a cast. -/
def castKeyword : String := "as"

/-- A word of an expression that can be a name: a letter or an underscore, then letters, digits and
underscores, all of ASCII, and not the word for a cast. -/
def isIdentifier (s : String) : Bool :=
  match s.toList with
  | [] => false
  | c :: cs => Token.isWordStart c && cs.all Token.isWordPart && s != castKeyword

end Variorum

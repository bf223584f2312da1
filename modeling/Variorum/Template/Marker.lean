import Variorum.CompileError
import Variorum.Text.Blank

/-!
# Markers of a template

An expression is embedded between `${` and the brace that closes it. A dollar before the marker takes
its meaning away.
-/

namespace Variorum.Marker

/-- Where a scan stands inside a marker: how many braces are open, which quote is, and whether a
backslash came just before. -/
structure State where
  depth : Nat := 0
  quote : Option Char := none
  escaped : Bool := false
  deriving DecidableEq, Repr

namespace State

def closes (s : State) (c : Char) : Bool :=
  s.quote.isNone && s.depth == 0 && c == '}'

/-- The state after a character that does not close the marker. Braces nest outside quotes; inside
them only the same quote counts, unless a backslash stands before it. -/
def next (s : State) (c : Char) : State :=
  match s.quote with
  | some q =>
    if s.escaped then { s with escaped := false }
    else if c = '\\' then { s with escaped := true }
    else if c = q then { s with quote := none }
    else s
  | none =>
    if c = '"' ∨ c = '\'' then { s with quote := some c }
    else if c = '{' then { s with depth := s.depth + 1 }
    else if c = '}' then { s with depth := s.depth - 1 }
    else s

/-- Whether a character counts as the end of a line. One that a backslash escapes does not. -/
def endsLine (s : State) (c : Char) : Bool :=
  c = '\n' && !s.escaped

end State

/-- What stands between the braces of a marker, the lines that end in it, and what follows it. -/
structure Body where
  source : List Char
  breaks : Nat
  rest : List Char

/-- The body of the marker that was opened just before, if it is ever closed. -/
def body? (s : State) : List Char → Option Body
  | [] => none
  | c :: cs =>
    if s.closes c then some ⟨[], 0, cs⟩
    else
      (body? (s.next c) cs).map fun b =>
        { b with
          source := c :: b.source
          breaks := if s.endsLine c then b.breaks + 1 else b.breaks }

theorem body?_length {s : State} {cs : List Char} {b : Body} (h : body? s cs = some b) :
    b.rest.length < cs.length := by
  induction cs generalizing s b with
  | nil => cases h
  | cons c cs ih =>
    unfold body? at h
    split at h
    · cases h
      simp
    · obtain ⟨b', hb, rfl⟩ := Option.map_eq_some_iff.1 h
      have := ih hb
      simp only [List.length_cons]; omega

/-- A character of a template, or an embedded expression with the line that it begins on. -/
inductive Piece
  | char (c : Char)
  | expression (source : String) (line : Nat)
  deriving DecidableEq, Repr

def unterminated (line : Nat) : CompileError :=
  .malformedTemplate line "unterminated \x60$\x7b\x60"

def blank (line : Nat) : CompileError :=
  .malformedTemplate line "empty \x60$\x7b\x7d\x60"

/-- The expression of a marker that was opened on a line, without the blanks around it. -/
def pieceOf (line : Nat) (source : List Char) : Except CompileError Piece :=
  if (Text.trimChars source).isEmpty then .error (blank line)
  else
    let breaks := (source.takeWhile Text.isBlank).count '\n'
    .ok (.expression (String.ofList (Text.trimChars source)) (line + breaks))

def scan (line : Nat) : List Char → Except CompileError (List Piece)
  | [] => .ok []
  | '$' :: '$' :: '{' :: cs => (scan line cs).map fun ps => .char '$' :: .char '{' :: ps
  | '$' :: '$' :: cs => (scan line cs).map fun ps => .char '$' :: .char '$' :: ps
  | '$' :: '{' :: cs =>
    match _h : body? {} cs with
    | none => .error (unterminated line)
    | some b => do
      let p ← pieceOf line b.source
      return p :: (← scan (line + b.breaks) b.rest)
  | c :: cs => (scan (if c = '\n' then line + 1 else line) cs).map (.char c :: ·)
termination_by cs => cs.length
decreasing_by
  all_goals simp only [List.length_cons]
  all_goals try have := body?_length _h
  all_goals omega

end Variorum.Marker

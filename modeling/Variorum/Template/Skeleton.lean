import Variorum.CompileError
import Variorum.Decimal.Numeral

/-!
# Skeletons

A skeleton is a text with numbered placeholders. A brace of the text is written twice, so that a
single opening brace always begins a placeholder.
-/

namespace Variorum.Skeleton

/-- A character of the text, or the place of a substitution. -/
inductive Part
  | char (c : Char)
  | placeholder (index : Nat)
  deriving DecidableEq, Repr

def encodeChar (c : Char) : List Char :=
  if c = '{' then ['{', '{'] else if c = '}' then ['}', '}'] else [c]

def encodePart : Part → List Char
  | .char c => encodeChar c
  | .placeholder index => '{' :: Nat.toDigits 10 index ++ ['}']

def encode (parts : List Part) : List Char :=
  parts.flatMap encodePart

/-- The index of a placeholder and what follows it. An index is a machine word. -/
def index? (cs : List Char) : Option (Nat × List Char) :=
  match Decimal.readNat? Integer.wordCount (cs.takeWhile Char.isDigit),
      cs.dropWhile Char.isDigit with
  | some n, '}' :: rest => if n < Integer.wordCount then some (n, rest) else none
  | _, _ => none

theorem index?_length {cs rest : List Char} {n : Nat} (h : index? cs = some (n, rest)) :
    rest.length < cs.length := by
  unfold index? at h
  split at h
  · rename_i hd
    have := (List.dropWhile_sublist Char.isDigit (l := cs)).length_le
    rw [hd, List.length_cons] at this
    split at h <;> cases h
    omega
  · cases h

def badPlaceholder (line : Nat) : CompileError :=
  .malformedTemplate line
    "placeholder must be \x60\x7bN\x7d\x60; write \x60\x7b\x7b\x60 for a literal brace"

def unmatchedBrace (line : Nat) : CompileError :=
  .malformedTemplate line
    "unmatched \x60\x7d\x60; write \x60\x7d\x7d\x60 for a literal brace"

def decode (line : Nat) : List Char → Except CompileError (List Part)
  | [] => .ok []
  | '{' :: '{' :: cs => (decode line cs).map (.char '{' :: ·)
  | '}' :: '}' :: cs => (decode line cs).map (.char '}' :: ·)
  | '{' :: cs =>
    match _h : index? cs with
    | some (n, rest) => (decode line rest).map (.placeholder n :: ·)
    | none => .error (badPlaceholder line)
  | '}' :: _ => .error (unmatchedBrace line)
  | c :: cs => (decode (if c = '\n' then line + 1 else line) cs).map (.char c :: ·)
termination_by cs => cs.length
decreasing_by
  all_goals simp only [List.length_cons]
  all_goals try have := index?_length _h
  all_goals omega

def placeholders (parts : List Part) : List Nat :=
  parts.filterMap fun
    | .char _ => none
    | .placeholder index => some index

/-- Puts a substitution behind a text; a placeholder without one leaves nothing. -/
def appendPart (values : Array String) (s : String) : Part → String
  | .char c => s.push c
  | .placeholder index => s ++ values.getD index ""

def fill (parts : List Part) (values : List String) : String :=
  parts.foldl (appendPart values.toArray) ""

end Variorum.Skeleton

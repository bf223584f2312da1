import Variorum.CompileError
import Variorum.Expr.Token
import Variorum.Text.Blank
import Variorum.Text.Search

/-!
# Signatures

The name of a macro and the names of its arguments, as written in a definition: `name(a, b)`.
-/

namespace Variorum

structure Signature where
  name : String
  args : List String
  deriving DecidableEq, Repr

namespace Signature

def print (s : Signature) : String :=
  s!"{s.name}(" ++ ", ".intercalate s.args ++ ")"

inductive Flaw
  | noOpening
  | noClosing
  | badName
  | badArg (arg : String)
  | repeatedArg (arg : String)
  deriving DecidableEq, Repr

def Flaw.message : Flaw → String
  | .noOpening => "expected \x60name(args)\x60"
  | .noClosing => "missing closing \x60)\x60"
  | .badName => "invalid macro name"
  | .badArg arg => s!"invalid argument name '{arg}'"
  | .repeatedArg arg => s!"duplicate argument '{arg}'"

/-- The names of a list, if they are identifiers that differ from each other and from those of
`seen`. -/
def distinctArgs (seen : List String) : List String → Except Flaw (List String)
  | [] => .ok []
  | arg :: args =>
    if !isIdentifier arg then .error (.badArg arg)
    else if seen.contains arg then .error (.repeatedArg arg)
    else (distinctArgs (arg :: seen) args).map (arg :: ·)

/-- The arguments between the parentheses; blanks alone are no argument. -/
def parseArgs (cs : List Char) : Except Flaw (List String) :=
  if (Text.trimChars cs).isEmpty then .ok []
  else
    distinctArgs [] ((Text.splitAt ',' cs).map fun part => String.ofList (Text.trimChars part))

/-- A list without its last character, if that is `c`. -/
def dropLast? (c : Char) (cs : List Char) : Option (List Char) :=
  if cs.getLast? = some c then some cs.dropLast else none

def parseTrimmed (cs : List Char) : Except Flaw Signature :=
  match Text.cutAt? '(' cs with
  | none => .error .noOpening
  | some (name, rest) =>
    match dropLast? ')' rest with
    | none => .error .noClosing
    | some args => do
      let name := String.ofList (Text.trimChars name)
      if !isIdentifier name then throw .badName
      return ⟨name, ← parseArgs args⟩

def parse (text : String) : Except CompileError Signature :=
  let trimmed := Text.trimChars text.toList
  match parseTrimmed trimmed with
  | .ok s => .ok s
  | .error flaw => .error (.malformedDefinition (String.ofList trimmed) flaw.message)

end Signature

end Variorum

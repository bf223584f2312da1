import Variorum.Expr.Basic

/-!
# Errors of a definition

Why a suite cannot be compiled. Such an error concerns the suite as a whole: nothing is rendered.
-/

namespace Variorum

inductive CompileError
  | malformedDefinition (name details : String)
  | malformedTemplate (line : Nat) (details : String)
  | templateMismatch (placeholders expressions : Nat)
  | unreadable (expression : String) (error : ParseError)
  | inSubject (subject : String) (error : CompileError)
  deriving DecidableEq, Repr

namespace CompileError

def code : CompileError → String
  | .malformedDefinition .. => "MALFORMED_DEFINITION"
  | .malformedTemplate .. => "MALFORMED_TEMPLATE"
  | .templateMismatch .. => "TEMPLATE_MISMATCH"
  | .unreadable .. => "PARSE_ERROR"
  | .inSubject _ error => error.code

def message : CompileError → String
  | .malformedDefinition name details => s!"Malformed definition of '{name}': {details}"
  | .malformedTemplate line details => s!"Malformed template at line {line}: {details}"
  | .templateMismatch placeholders expressions =>
    s!"Template has {placeholders} placeholders but {expressions} expressions"
  | .unreadable expression error => s!"Cannot parse \x60{expression}\x60 at {error.message}"
  | .inSubject subject error => s!"In subject '{subject}': {error.message}"

end CompileError

end Variorum

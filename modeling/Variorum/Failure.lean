/-!
# Failures of evaluation

Why one rendering of a template came to nothing. A failure concerns that rendering alone.
-/

namespace Variorum

/-- The cause of a failed evaluation. Registered functions word their own refusals, so that these
are kept as text. -/
inductive Failure
  | unknownSymbol (name : String) (similar : Option String)
  | typeMismatch (details : String)
  | wrongArity (name : String) (expected got : Nat)
  | cyclicExpansion (path : List String) (limit : Nat)
  | invalidArgument (details : String)
  | malformedDefinition (details : String)
  | internal (details : String)
  deriving DecidableEq, Repr

namespace Failure

/-- A name that nothing declares, with no name to propose. -/
def unknown (name : String) : Failure :=
  .unknownSymbol name none

/-- An unknown name is given a list of similar ones; no other failure has a place for it. -/
def suggest (similar : String) : Failure → Failure
  | .unknownSymbol name _ => .unknownSymbol name (some similar)
  | other => other

def expected (wanted got : String) : Failure :=
  .typeMismatch s!"expected {wanted}, got {got}"

def divisionByZero : Failure :=
  .invalidArgument "division by zero"

def code : Failure → String
  | .unknownSymbol .. => "SYMBOL_NOT_FOUND"
  | .typeMismatch _ => "TYPE_ERROR"
  | .wrongArity .. => "ARITY_ERROR"
  | .cyclicExpansion .. => "CYCLIC_EXPANSION"
  | .invalidArgument _ => "INVALID_ARGUMENT"
  | .malformedDefinition _ => "MALFORMED_DEFINITION"
  | .internal _ => "INTERNAL"

def message : Failure → String
  | .unknownSymbol name none => s!"Unknown symbol: {name}"
  | .unknownSymbol name (some similar) => s!"Unknown symbol: {name} (similar: {similar})"
  | .typeMismatch details => s!"Type error: {details}"
  | .wrongArity name expected got => s!"{name}() expects {expected} arguments, got {got}"
  | .cyclicExpansion path limit =>
    s!"Macro expansion exceeded depth {limit}: " ++ " -> ".intercalate path
  | .invalidArgument details => s!"Invalid argument: {details}"
  | .malformedDefinition details => s!"Malformed definition: {details}"
  | .internal details => s!"Internal error: {details}"

end Failure

end Variorum

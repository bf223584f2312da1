import Variorum.Suite.Compiled

/-!
# References

The names that a subject can reach: those in its own templates and, for every macro among them, those
in its bodies.
-/

namespace Variorum

/-- The names reached so far, and the macros among them whose bodies are still to be visited. -/
structure References where
  names : List String := []
  pending : List String := []
  deriving DecidableEq, Repr

namespace References

/-- The name that a node refers to. An argument of the surrounding macro refers to nothing. -/
def nameOf? (args : List String) : Expr → Option String
  | .name _ identifier => if args.contains identifier then none else some identifier
  | .call _ callee _ => some callee
  | _ => none

/-- Adds a name; a macro that is new is still to be visited. -/
def add (symbols : SymbolTable) (r : References) (name : String) : References :=
  if r.names.contains name then r
  else
    { names := name :: r.names
      pending := if (symbols.macro? name).isSome then name :: r.pending else r.pending }

/-- Adds the names that templates refer to, where `args` are arguments. -/
def visit (symbols : SymbolTable) (args : List String) (r : References)
    (templates : List Template) : References :=
  ((templates.flatMap Template.nodes).filterMap (nameOf? args)).foldl (add symbols) r

/-- Visits the bodies of pending macros until none is left. Each macro is pending once, so that as
many steps as there are macros are enough. -/
def close (symbols : SymbolTable) : (steps : Nat) → References → References
  | 0, r => r
  | steps + 1, r =>
    match r.pending with
    | [] => r
    | name :: rest =>
      match symbols.macro? name with
      | none => close symbols steps { r with pending := rest }
      | some m =>
        close symbols steps (visit symbols m.signature.args { r with pending := rest } m.bodies)

def collect (s : Subject) : List String :=
  (close s.symbols s.symbols.macros.length (visit s.symbols [] {} s.templates)).names

end References

end Variorum

import Variorum.Diagnostic
import Variorum.Expr.Printer
import Variorum.Registry.Basic
import Variorum.Suite.Compiled

/-!
# Warnings of a compiled subject

Names and calls that will fail wherever they are evaluated are reported once, before anything is
rendered. A name in a macro's body is not, since the caller may bind it.
-/

namespace Variorum

namespace Expr

def callWarning? (functions : Registry) (symbols : SymbolTable) (callee : String) (argCount : Nat) :
    Option (String × String) :=
  match symbols.macro? callee with
  | some m =>
    if m.signature.args.length = argCount then none
    else some ("ARITY_ERROR", s!"{m.signature.print} called with {argCount} arguments")
  | none =>
    if (functions.global? callee).isSome then none
    else
      let proposal :=
        match functions.similar callee with
        | [] => ""
        | best :: _ => s!" (did you mean '{best}'?)"
      some ("SYMBOL_NOT_FOUND", s!"no macro or function named '{callee}'" ++ proposal)

def qualifiedWarning? (functions : Registry) (moduleName callee : String) : Option String :=
  if !functions.hasModule moduleName then some s!"no module named '{moduleName}'"
  else if (functions.qualified? moduleName callee).isNone then
    some s!"no function '{callee}' in module '{moduleName}'"
  else none

/-- The code and the message for a node that cannot succeed. -/
def warning? (functions : Registry) (symbols : SymbolTable) (inBody : Bool) :
    Expr → Option (String × String)
  | .call _ callee args => callWarning? functions symbols callee args.length
  | .qualifiedCall _ moduleName callee _ =>
    (qualifiedWarning? functions moduleName callee).map (("SYMBOL_NOT_FOUND", ·))
  | .slice _ s =>
    if (symbols.parameter? s.parameter).isSome then none
    else some ("SYMBOL_NOT_FOUND", s!"slice of unknown parameter '{s.parameter}'")
  | .name _ identifier =>
    if inBody || symbols.declares identifier then none
    else some ("SYMBOL_NOT_FOUND", s!"'{identifier}' is not a parameter or macro")
  | _ => none

end Expr

namespace Subject

def nodeWarning? (s : Subject) (functions : Registry) (inBody : Bool) (e : Expr) :
    Option Diagnostic :=
  (e.warning? functions s.symbols inBody).map fun (code, message) =>
    { severity := .warning, code, message
      origin := { subject := some s.id, source := some e.print, line := some e.line } }

/-- The warnings of a subject: those of its own templates, then those of the bodies of its macros. -/
def warnings (s : Subject) (functions : Registry) : List Diagnostic :=
  let bodies := s.symbols.macros.flatMap (·.bodies)
  s.nodes.filterMap (s.nodeWarning? functions false) ++
    (bodies.flatMap Template.nodes).filterMap (s.nodeWarning? functions true)

end Subject

end Variorum

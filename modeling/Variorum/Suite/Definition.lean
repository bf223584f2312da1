import Variorum.Symbols.Table

/-!
# Definitions of suites

A suite as it is written: signatures and templates are texts that are not read yet.
-/

namespace Variorum

structure MacroDefinition where
  signature : String
  bodies : List String
  deriving DecidableEq, Repr

/-- A warning and an error that the rendered code is expected to cause, as templates. -/
structure OutcomeDefinition where
  warning : Option String := none
  error : Option String := none
  deriving DecidableEq, Repr

/-- One template of code with its name, its own declarations and its expected outcomes. -/
structure SubjectDefinition where
  id : String
  name : String
  code : String
  parameters : List Parameter := []
  macros : List MacroDefinition := []
  outcomes : List OutcomeDefinition := []

structure SuiteDefinition where
  id : String
  configuration : List (String × String) := []
  parameters : List Parameter := []
  macros : List MacroDefinition := []
  subjects : List SubjectDefinition := []

/-- Reads a macro: first its signature, then its bodies in order. -/
def MacroDefinition.compile (d : MacroDefinition) : Except CompileError Macro := do
  let signature ← Signature.parse d.signature
  return ⟨signature, ← d.bodies.mapM Template.compile⟩

namespace SymbolTable

/-- The table of declarations: first all parameters, then all macros, each read before it is
declared. -/
def ofDefinitions (parameters : List Parameter) (macros : List MacroDefinition) :
    Except CompileError SymbolTable := do
  let t ← parameters.foldlM addParameter empty
  macros.foldlM (fun t d => do t.addMacro (← d.compile)) t

end SymbolTable

end Variorum

import Variorum.Suite.Definition

/-!
# Compiled suites

A suite whose signatures and templates have been read. Each subject has a table of its own, in which
the shared declarations come first.
-/

namespace Variorum

structure Outcome where
  warning : Option Template
  error : Option Template
  deriving DecidableEq

namespace Outcome

/-- The templates of an outcome, the warning first. -/
def templates (o : Outcome) : List Template :=
  o.warning.toList ++ o.error.toList

def compile (d : OutcomeDefinition) : Except CompileError Outcome := do
  return ⟨← d.warning.mapM Template.compile, ← d.error.mapM Template.compile⟩

end Outcome

structure Subject where
  id : String
  name : Template
  code : Template
  symbols : SymbolTable
  outcomes : List Outcome

namespace Subject

/-- The subject's own templates in the order in which they are rendered. -/
def templates (s : Subject) : List Template :=
  s.name :: s.code :: s.outcomes.flatMap Outcome.templates

def nodes (s : Subject) : List Expr :=
  s.templates.flatMap Template.nodes

/-- Reads a subject over shared declarations: its own, the union of both, its outcomes, its name and
its code. -/
def compile (shared : SymbolTable) (d : SubjectDefinition) : Except CompileError Subject := do
  let own ← SymbolTable.ofDefinitions d.parameters d.macros
  let symbols ← shared.merge own
  let outcomes ← d.outcomes.mapM Outcome.compile
  let name ← Template.compile d.name
  let code ← Template.compile d.code
  return { id := d.id, name, code, symbols, outcomes }

end Subject

structure Suite where
  id : String
  configuration : List (String × String)
  subjects : List Subject

end Variorum

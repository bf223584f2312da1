import Variorum.Evaluation.Report
import Variorum.Suite.Warnings

/-!
# Compilation

A suite is compiled subject by subject, up to the first that is ill-formed. A subject adds its
warnings once it has been read as a whole.
-/

namespace Variorum

def Subject.compileWithWarnings (functions : Registry) (shared : SymbolTable)
    (d : SubjectDefinition) : Report CompileError Subject :=
  match Subject.compile shared d with
  | .ok s => { log := s.warnings functions, result := .ok s }
  | .error e => .fail (.inSubject d.id e)

namespace Suite

def compileSubjects (functions : Registry) (shared : SymbolTable) :
    List SubjectDefinition → Report CompileError (List Subject)
  | [] => .done []
  | d :: ds => do
    let s ← Subject.compileWithWarnings functions shared d
    return s :: (← compileSubjects functions shared ds)

def compile (functions : Registry) (d : SuiteDefinition) : Report CompileError Suite := do
  let shared ← Report.ofExcept (SymbolTable.ofDefinitions d.parameters d.macros)
  let subjects ← compileSubjects functions shared d.subjects
  return { id := d.id, configuration := d.configuration, subjects }

end Suite

end Variorum

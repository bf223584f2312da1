import Variorum.Symbols.Signature
import Variorum.Template.Basic

/-!
# Symbol tables

The parameters and macros that a subject can see, in the order of their declaration.
-/

namespace Variorum

structure Parameter where
  name : String
  values : List Value
  deriving BEq

/-- A template with arguments, in alternative bodies. -/
structure Macro where
  signature : Signature
  bodies : List Template
  deriving DecidableEq

def Macro.name (m : Macro) : String :=
  m.signature.name

structure SymbolTable where
  parameters : List Parameter := []
  macros : List Macro := []
  deriving BEq

namespace SymbolTable

def empty : SymbolTable := {}

def parameter? (t : SymbolTable) (name : String) : Option Parameter :=
  t.parameters.find? (·.name = name)

def macro? (t : SymbolTable) (name : String) : Option Macro :=
  t.macros.find? (·.name = name)

def declares (t : SymbolTable) (name : String) : Bool :=
  (t.parameter? name).isSome || (t.macro? name).isSome

def isEmpty (t : SymbolTable) : Bool :=
  t.parameters.isEmpty && t.macros.isEmpty

def repeated (name : String) : CompileError :=
  .malformedDefinition name "defined more than once"

def ambiguous (name : String) : CompileError :=
  .malformedDefinition name "declared as both a parameter and a macro"

/-- Declares a parameter, which has to have a value and a name of its own. -/
def addParameter (t : SymbolTable) (p : Parameter) : Except CompileError SymbolTable :=
  if p.values.isEmpty then .error (.malformedDefinition p.name "parameter has no values")
  else if t.declares p.name then .error (repeated p.name)
  else .ok { t with parameters := t.parameters ++ [p] }

/-- Declares a macro, which has to have a name of its own. -/
def addMacro (t : SymbolTable) (m : Macro) : Except CompileError SymbolTable :=
  if t.declares m.name then .error (repeated m.name)
  else .ok { t with macros := t.macros ++ [m] }

/-- The values of a list and, behind them, those of another that are not among them yet. -/
def union {α : Type} [BEq α] (xs ys : List α) : List α :=
  ys.foldl (fun xs y => if xs.contains y then xs else xs ++ [y]) xs

/-- Joins a parameter to the table: its values to those of the parameter of its name, if there is
one. -/
def mergeParameter (t : SymbolTable) (p : Parameter) : Except CompileError SymbolTable :=
  if (t.macro? p.name).isSome then .error (ambiguous p.name)
  else if (t.parameter? p.name).isSome then
    .ok { t with
      parameters := t.parameters.map fun q =>
        if q.name = p.name then { q with values := union q.values p.values } else q }
  else t.addParameter p

/-- Joins a macro to the table: its bodies to those of the macro of its name, if there is one with
the same arguments. -/
def mergeMacro (t : SymbolTable) (m : Macro) : Except CompileError SymbolTable :=
  if (t.parameter? m.name).isSome then .error (ambiguous m.name)
  else
    match t.macro? m.name with
    | none => t.addMacro m
    | some known =>
      if known.signature.args ≠ m.signature.args then
        .error (.malformedDefinition m.name
          s!"conflicting signatures {known.signature.print} and {m.signature.print}")
      else
        .ok { t with
          macros := t.macros.map fun k =>
            if k.name = m.name then { k with bodies := union k.bodies m.bodies } else k }

/-- The union of two tables. What `shared` declares comes first, and equal values and bodies are
kept once. -/
def merge (shared other : SymbolTable) : Except CompileError SymbolTable := do
  let t ← other.parameters.foldlM mergeParameter shared
  other.macros.foldlM mergeMacro t

end SymbolTable

end Variorum

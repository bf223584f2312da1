import Variorum.Symbols.Table

/-!
# Symbol tables with indices

A symbol table that finds its declarations by their positions, which it keeps for every name. It is changed
in place, and a change that fails leaves it as far as it was changed until then.
-/

namespace Variorum

/-- The positions that names have in a list. -/
structure Index where
  position? : String → Option Nat

namespace Index

def empty : Index := ⟨fun _ => none⟩

def contains (index : Index) (name : String) : Bool :=
  (index.position? name).isSome

def insert (index : Index) (name : String) (position : Nat) : Index :=
  ⟨fun other => if other = name then some position else index.position? other⟩

end Index

structure IndexedTable extends SymbolTable where
  parameterIndex : Index := .empty
  macroIndex : Index := .empty

namespace IndexedTable

/-- What stops a change or a look-up: a declaration that is refused, or a position with nothing at it. -/
inductive Fault
  | refused (error : CompileError)
  | outOfRange (position : Nat)
  deriving DecidableEq, Repr

/-- A change of a table in place. -/
abbrev Change (ε : Type) := ExceptT ε (StateM IndexedTable)

def empty : IndexedTable := {}

/-! ## Look-ups -/

def entry {α : Type} (as : List α) (position : Nat) : Except Fault α :=
  match as[position]? with
  | some a => .ok a
  | none => .error (.outOfRange position)

def parameter? (t : IndexedTable) (name : String) : Except Fault (Option Parameter) :=
  match t.parameterIndex.position? name with
  | some i => (entry t.parameters i).map some
  | none => .ok none

def macro? (t : IndexedTable) (name : String) : Except Fault (Option Macro) :=
  match t.macroIndex.position? name with
  | some i => (entry t.macros i).map some
  | none => .ok none

/-! ## Declarations -/

def checkFree (name : String) : Change CompileError Unit := do
  let t ← get
  if t.parameterIndex.contains name || t.macroIndex.contains name then
    throw (SymbolTable.repeated name)

def addParameter (p : Parameter) : Change CompileError Unit := do
  if p.values.isEmpty then throw (.malformedDefinition p.name "parameter has no values")
  else
    checkFree p.name
    modify fun t => { t with parameterIndex := t.parameterIndex.insert p.name t.parameters.length }
    modify fun t => { t with parameters := t.parameters ++ [p] }

def addMacro (m : Macro) : Change CompileError Unit := do
  checkFree m.name
  modify fun t => { t with macroIndex := t.macroIndex.insert m.name t.macros.length }
  modify fun t => { t with macros := t.macros ++ [m] }

/-! ## Unions -/

/-- Joins a parameter to the table: its values to those of the parameter at its position, if it has one. -/
def mergeParameter (p : Parameter) : Change Fault Unit := do
  let t ← get
  if t.macroIndex.contains p.name then throw (.refused (SymbolTable.ambiguous p.name))
  else
    match t.parameterIndex.position? p.name with
    | none => (addParameter p).adapt .refused
    | some i =>
      let known ← entry t.parameters i
      let values := SymbolTable.union known.values p.values
      set { t with parameters := t.parameters.set i { known with values } }

def conflicting (known m : Macro) : CompileError :=
  .malformedDefinition m.name
    s!"conflicting signatures {known.signature.print} and {m.signature.print}"

/-- Joins a macro to the table: its bodies to those of the macro at its position, if it has one and the
arguments are the same. -/
def mergeMacro (m : Macro) : Change Fault Unit := do
  let t ← get
  if t.parameterIndex.contains m.name then throw (.refused (SymbolTable.ambiguous m.name))
  else
    match t.macroIndex.position? m.name with
    | none => (addMacro m).adapt .refused
    | some i =>
      let known ← entry t.macros i
      if known.signature.args ≠ m.signature.args then throw (.refused (conflicting known m))
      else
        let bodies := SymbolTable.union known.bodies m.bodies
        set { t with macros := t.macros.set i { known with bodies } }

def mergeAll (other : IndexedTable) : Change Fault Unit := do
  other.parameters.forM mergeParameter
  other.macros.forM mergeMacro

/-- The union of two tables, made in a copy of the first. -/
def merge (shared other : IndexedTable) : Except Fault IndexedTable :=
  match (mergeAll other).run.run shared with
  | (.ok (), t) => .ok t
  | (.error fault, _) => .error fault

end IndexedTable

end Variorum

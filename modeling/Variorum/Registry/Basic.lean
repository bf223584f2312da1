import Variorum.Failure
import Variorum.Registry.Similarity
import Variorum.Text.Quoted
import Variorum.Value

/-!
# Registries of functions

The functions that an expression can call, under the name of their module and, if they are global,
also without it. Names are compared in lowercase.
-/

namespace Variorum

structure ArgInfo where
  name : String
  type : String
  description : String
  isOptional : Bool := false
  default : Option String := none
  deriving DecidableEq, Repr

structure FunctionInfo where
  name : String
  moduleName : String
  description : String
  usage : String
  args : List ArgInfo
  returns : String
  examples : List String := []
  deriving DecidableEq, Repr

structure BuiltIn where
  info : FunctionInfo
  apply : List Value → Except Failure Value

abbrev Entries (α : Type) : Type :=
  List (String × α)

namespace Entries

/-- Puts `a` under a key, in the place of what stood there. -/
def insert {α : Type} (key : String) (a : α) : Entries α → Entries α
  | [] => [(key, a)]
  | (k, b) :: rest => if k = key then (key, a) :: rest else (k, b) :: insert key a rest

def get? {α : Type} (key : String) (entries : Entries α) : Option α :=
  (entries.find? (·.1 = key)).map (·.2)

def keys {α : Type} (entries : Entries α) : List String :=
  entries.map (·.1)

end Entries

/-- The global functions and the functions of each module, under lowercase keys. -/
structure Registry where
  globals : Entries BuiltIn := []
  modules : Entries (Entries BuiltIn) := []

namespace Registry

def empty : Registry := {}

def addToModule (r : Registry) (f : BuiltIn) : Registry :=
  let key := Text.lower f.info.moduleName
  let functions := (Entries.get? key r.modules).getD []
  { r with
    modules := Entries.insert key (Entries.insert (Text.lower f.info.name) f functions) r.modules }

def add (r : Registry) (f : BuiltIn) : Registry :=
  { r with globals := Entries.insert (Text.lower f.info.name) f r.globals }.addToModule f

def global? (r : Registry) (name : String) : Option BuiltIn :=
  Entries.get? (Text.lower name) r.globals

def moduleFunctions? (r : Registry) (moduleName : String) : Option (Entries BuiltIn) :=
  Entries.get? (Text.lower moduleName) r.modules

def qualified? (r : Registry) (moduleName name : String) : Option BuiltIn :=
  (r.moduleFunctions? moduleName).bind (Entries.get? (Text.lower name))

def hasModule (r : Registry) (moduleName : String) : Bool :=
  (r.moduleFunctions? moduleName).isSome

def similar (r : Registry) (name : String) : List String :=
  Similarity.ranked name r.globals.keys

/-- The most similar names, as many as are proposed at once. -/
def proposal (names : List String) : Option String :=
  if names.isEmpty then none else some (", ".intercalate (names.take 5))

def call (r : Registry) (name : String) (args : List Value) : Except Failure Value :=
  match r.global? name with
  | some f => f.apply args
  | none => .error (.unknownSymbol name (proposal (r.similar name)))

/-- Calls a function of a module. In an unknown module nothing is similar. -/
def callQualified (r : Registry) (moduleName name : String) (args : List Value) :
    Except Failure Value :=
  match r.moduleFunctions? moduleName with
  | none => .error (.unknown s!"{moduleName}.{name}")
  | some functions =>
    match Entries.get? (Text.lower name) functions with
    | some f => f.apply args
    | none =>
      .error (.unknownSymbol s!"{moduleName}.{name}"
        (proposal (Similarity.ranked name functions.keys)))

/-- Whether a function is listed before another: by its module, then by its name. -/
def listedBefore (a b : FunctionInfo) : Bool :=
  a.moduleName < b.moduleName || a.moduleName == b.moduleName && decide (a.name ≤ b.name)

/-- The descriptions of all functions, or of those of one module, in order. -/
def list (r : Registry) (moduleName : Option String) : List FunctionInfo :=
  let chosen :=
    match moduleName with
    | none => r.modules
    | some m => r.modules.filter fun e => e.1 = Text.lower m
  (chosen.flatMap fun e => e.2.map fun f => f.2.info).mergeSort listedBefore

def moduleNames (r : Registry) : List String :=
  r.modules.keys.mergeSort fun a b => decide (a ≤ b)

/-- A registry in one line: how many global functions it has, and its modules. -/
def summary (r : Registry) : String :=
  "FunctionRegistry \x7b globals: " ++ toString r.globals.length ++ ", modules: [" ++
    ", ".intercalate (r.moduleNames.map Text.quote) ++ "] \x7d"

end Registry

end Variorum

import Variorum.Evaluation.Evaluator
import Variorum.Product.Odometer
import Variorum.Product.References

/-!
# Context spaces

Every parameter, every macro with its bodies and every slice of a subject is an axis. The subject is
rendered in all contexts that select one value on each axis, the first axis changing last.
-/

namespace Variorum

inductive Axis
  | parameter (name : String) (values : List Value)
  | bodies (name : String) (count : Nat)
  | slice (key : String) (values : List Value)
  deriving BEq

namespace Axis

def key : Axis → String
  | .parameter name _ => name
  | .bodies name _ => name
  | .slice key _ => key

def size : Axis → Nat
  | .parameter _ values => values.length
  | .bodies _ count => count
  | .slice _ values => values.length

/-- A context with the selection of an index; a value that is not there selects nothing. -/
def select (ctx : Context) (index : Nat) : Axis → Context
  | .bodies name _ => ctx.selectBody name index
  | .parameter name values =>
    match values[index]? with
    | some v => ctx.bind name v
    | none => ctx
  | .slice key values =>
    match values[index]? with
    | some v => ctx.selectSlice key v
    | none => ctx

end Axis

/-- The axes of a subject and the symbols of its contexts. -/
structure ContextSpace where
  symbols : SymbolTable
  axes : List Axis

namespace ContextSpace

def sizes (space : ContextSpace) : List Nat :=
  space.axes.map Axis.size

def contextAt (space : ContextSpace) (indices : List Nat) : Context :=
  (space.axes.zip indices).foldl (fun ctx a => a.1.select ctx a.2) (.root space.symbols)

def contexts (space : ContextSpace) : List Context :=
  (Odometer.all space.sizes).map space.contextAt

/-- The number of contexts, at most the greatest machine word. -/
def size (space : ContextSpace) : Nat :=
  Odometer.total space.sizes

end ContextSpace

def Expr.slice? : Expr → Option SliceRef
  | .slice _ s => some s
  | _ => none

def distinctSlices (nodes : List Expr) : List SliceRef :=
  (nodes.filterMap Expr.slice?).foldl
    (fun seen s => if seen.any (·.key = s.key) then seen else seen ++ [s]) []

namespace Subject

/-- The names to which the axes are restricted, if they are: those that the subject can reach. -/
def keptNames (s : Subject) (prune : Bool) : Option (List String) :=
  if prune then some (References.collect s) else none

def isKept (kept : Option (List String)) (name : String) : Bool :=
  match kept with
  | none => true
  | some names => names.contains name

/-- The axis of a slice, which fails if its values cannot be selected. -/
def sliceAxis (symbols : SymbolTable) (s : SliceRef) : Except Failure Axis :=
  (s.candidates symbols).map (.slice s.key)

/-- The context space of a subject: the parameters, then the macros, then the slices of the subject's
templates and of the bodies of the macros that are kept. -/
def space (s : Subject) (prune : Bool) : Except Failure ContextSpace := do
  let kept := s.keptNames prune
  let parameters := s.symbols.parameters.filter fun p => isKept kept p.name
  let macros := s.symbols.macros.filter fun m => isKept kept m.name
  let bodies := macros.flatMap (·.bodies)
  let slices ← (distinctSlices (s.nodes ++ bodies.flatMap Template.nodes)).mapM
    (sliceAxis s.symbols)
  return {
    symbols := s.symbols
    axes := parameters.map (fun p => .parameter p.name p.values) ++
      macros.map (fun m => .bodies m.name m.bodies.length) ++ slices }

end Subject

end Variorum

import Variorum.Value

/-!
# Expressions

The tree of an embedded expression. Every node knows the line of the template that it stands on.
-/

namespace Variorum

/-- A place in a source where no expression could be read. The cause is known where a literal is out
of range; elsewhere the place is all there is to say. -/
structure ParseError where
  line : Nat
  column : Nat
  cause : Option String := none
  deriving DecidableEq, Repr

namespace ParseError

def message (e : ParseError) : String :=
  s!"{e.line}:{e.column}: " ++ e.cause.getD "unexpected input"

end ParseError

inductive BinaryOp
  | add
  | sub
  | mul
  | div
  | rem
  deriving DecidableEq, Repr

namespace BinaryOp

def symbol : BinaryOp → Char
  | .add => '+'
  | .sub => '-'
  | .mul => '*'
  | .div => '/'
  | .rem => '%'

/-- Whether an operator binds as a product does, and not as a sum. -/
def isProduct : BinaryOp → Bool
  | .add | .sub => false
  | .mul | .div | .rem => true

end BinaryOp

inductive CastType
  | int
  | float
  | str
  deriving DecidableEq, Repr

namespace CastType

def keyword : CastType → String
  | .int => "int"
  | .float => "float"
  | .str => "str"

def ofKeyword? : String → Option CastType
  | "int" => some .int
  | "float" => some .float
  | "str" => some .str
  | _ => none

end CastType

/-- A selection from the values of a parameter, from `start` on, before `stop`, every `step`-th. -/
structure SliceRef where
  parameter : String
  start : Option Int64
  stop : Option Int64
  step : Int64
  deriving DecidableEq, Repr

namespace SliceRef

/-- The text of a bound, empty if it is left out. -/
def boundText : Option Int64 → String
  | none => ""
  | some i => toString i.toInt

/-- The canonical text of a slice, the same for all its spellings. -/
def key (s : SliceRef) : String :=
  s!"{s.parameter}[{boundText s.start}:{boundText s.stop}:{toString s.step.toInt}]"

end SliceRef

/-- An expression tree. An invalid leaf stands where a well-formed part of the source has no value;
no tree that was read from a source holds one. -/
inductive Expr
  | name (line : Nat) (identifier : String)
  | literal (line : Nat) (value : Value)
  | binary (line : Nat) (op : BinaryOp) (left right : Expr)
  | negation (line : Nat) (operand : Expr)
  | call (line : Nat) (callee : String) (args : List Expr)
  | qualifiedCall (line : Nat) (moduleName callee : String) (args : List Expr)
  | cast (line : Nat) (type : CastType) (operand : Expr)
  | slice (line : Nat) (selection : SliceRef)
  | invalid (error : ParseError)
  deriving Repr

namespace Expr

def line : Expr → Nat
  | .name line _ => line
  | .literal line _ => line
  | .binary line .. => line
  | .negation line _ => line
  | .call line .. => line
  | .qualifiedCall line .. => line
  | .cast line .. => line
  | .slice line _ => line
  | .invalid error => error.line

mutual

/-- An expression and all expressions in it, each before its own parts and these from the left. -/
def nodes : Expr → List Expr
  | .binary line op left right => .binary line op left right :: (left.nodes ++ right.nodes)
  | .negation line operand => .negation line operand :: operand.nodes
  | .cast line type operand => .cast line type operand :: operand.nodes
  | .call line callee args => .call line callee args :: nodesOfAll args
  | .qualifiedCall line moduleName callee args =>
    .qualifiedCall line moduleName callee args :: nodesOfAll args
  | .name line identifier => [.name line identifier]
  | .literal line value => [.literal line value]
  | .slice line selection => [.slice line selection]
  | .invalid error => [.invalid error]

def nodesOfAll : List Expr → List Expr
  | [] => []
  | e :: es => e.nodes ++ nodesOfAll es

end

theorem nodesOfAll_eq_flatMap (es : List Expr) : nodesOfAll es = es.flatMap nodes := by
  induction es with
  | nil => rfl
  | cons e es ih => rw [nodesOfAll, List.flatMap_cons, ih]

def error? : Expr → Option ParseError
  | .invalid error => some error
  | _ => none

/-- The errors of the invalid leaves of an expression, from the left. -/
def errors (e : Expr) : List ParseError :=
  e.nodes.filterMap error?

def hasInvalid (e : Expr) : Bool :=
  !e.errors.isEmpty

end Expr

end Variorum

import Variorum.Decimal.Notation
import Variorum.Decimal.Numeral

/-!
# Values

What an expression evaluates to and a parameter ranges over: a text, an integer or a float.
-/

namespace Variorum

/-- A typed scalar. Floats are compared as numbers, so `0.0` equals `-0.0` and a float that is not a
number differs from itself. -/
inductive Value
  | text (s : String)
  | integer (i : Int64)
  | float (x : Float)
  deriving BEq, Repr

namespace Value

/-- The value that a raw text stands for: an integer, else a finite float, else itself. -/
def infer (raw : String) : Value :=
  match Decimal.readInteger? raw.toList with
  | some i => .integer i
  | none =>
    match Decimal.readFloat? raw.toList with
    | some x => if x.isFinite then .float x else .text raw
    | none => .text raw

def display : Value → String
  | .text s => s
  | .integer i => toString i.toInt
  | .float x => Decimal.marked x

def typeName : Value → String
  | .text _ => "Text"
  | .integer _ => "Integer"
  | .float _ => "Float"

def isNumeric : Value → Bool
  | .text _ => false
  | .integer _ => true
  | .float _ => true

def asText? : Value → Option String
  | .text s => some s
  | _ => none

def asInteger? : Value → Option Int64
  | .integer i => some i
  | _ => none

def asFloat? : Value → Option Float
  | .text _ => none
  | .integer i => some (Float.ofInt i.toInt)
  | .float x => some x

end Value

end Variorum

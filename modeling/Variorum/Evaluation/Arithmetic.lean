import Variorum.Expr.Basic
import Variorum.Failure

/-!
# Arithmetic on values

Two integers give an integer or a refusal, numbers of which one is a float give a finite float or a
refusal, and a sum with a text joins what both display.
-/

namespace Variorum

namespace BinaryOp

/-- The exact result on integers; a quotient is cut towards zero, and a remainder has the sign of the
dividend. -/
def onInt : BinaryOp → Int → Int → Int
  | .add, a, b => a + b
  | .sub, a, b => a - b
  | .mul, a, b => a * b
  | .div, a, b => a.tdiv b
  | .rem, a, b => a.tmod b

def onFloat : BinaryOp → Float → Float → Float
  | .add, a, b => a + b
  | .sub, a, b => a - b
  | .mul, a, b => a * b
  | .div, a, b => a / b
  | .rem, a, b => Binary64.remainder a b

def divides : BinaryOp → Bool
  | .div | .rem => true
  | .add | .sub | .mul => false

end BinaryOp

namespace Value

def overflow (op : BinaryOp) (a b : Int64) : Failure :=
  .invalidArgument
    s!"integer overflow in {toString a.toInt} {op.symbol.toString} {toString b.toInt}"

/-- An operation on integers. A remainder is refused where the quotient does not fit, that is, for the
least integer divided by minus one. -/
def integerOp (op : BinaryOp) (a b : Int64) : Except Failure Value :=
  if op.divides && b == 0 then .error .divisionByZero
  else if op.divides && (Integer.ofInt? (a.toInt.tdiv b.toInt)).isNone then .error (overflow op a b)
  else
    match Integer.ofInt? (op.onInt a.toInt b.toInt) with
    | some r => .ok (.integer r)
    | none => .error (overflow op a b)

def floatOp (op : BinaryOp) (a b : Float) : Except Failure Value :=
  if op.divides && b == 0.0 then .error .divisionByZero
  else
    let r := op.onFloat a b
    if r.isFinite then .ok (.float r)
    else
      .error (.invalidArgument
        s!"{Decimal.plain a} {op.symbol.toString} {Decimal.plain b} is not a finite number")

def binary (op : BinaryOp) (a b : Value) : Except Failure Value :=
  match a, b with
  | .integer i, .integer j => integerOp op i j
  | _, _ =>
    match a.asFloat?, b.asFloat? with
    | some x, some y => floatOp op x y
    | _, _ =>
      if op = .add then .ok (.text (a.display ++ b.display))
      else
        .error (.typeMismatch
          (s!"'{op.symbol.toString}' needs numeric operands, got " ++
            s!"{a.typeName} and {b.typeName}"))

def negate : Value → Except Failure Value
  | .integer i =>
    match Integer.ofInt? (-i.toInt) with
    | some r => .ok (.integer r)
    | none => .error (.invalidArgument s!"integer overflow in -{toString i.toInt}")
  | .float x => .ok (.float (-x))
  | .text s => .error (.expected "number" (Value.text s).typeName)

def castTo (type : CastType) (v : Value) : Except Failure Value :=
  let refusal := Failure.typeMismatch s!"cannot cast '{v.display}' to {type.keyword}"
  match type with
  | .str => .ok (.text v.display)
  | .int =>
    match Decimal.readInteger? v.display.toList with
    | some i => .ok (.integer i)
    | none => .error refusal
  | .float =>
    match Decimal.readFloat? v.display.toList with
    | some x => if x.isFinite then .ok (.float x) else .error refusal
    | none => .error refusal

end Value

end Variorum

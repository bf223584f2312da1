import Variorum.Registry.Basic

/-!
# Arguments of library functions

What a library function asks of its arguments and of its result, and how it refuses.
-/

namespace Variorum.Library

def wrongType (function arg wanted : String) (got : Value) : Failure :=
  .typeMismatch s!"{function}() argument '{arg}': expected {wanted}, got {got.typeName}"

def requireInteger (function arg : String) : Value → Except Failure Int64
  | .integer i => .ok i
  | v => .error (wrongType function arg "Integer" v)

def requireCount (function arg : String) (v : Value) : Except Failure Nat := do
  let i ← requireInteger function arg v
  if i.toInt < 0 then
    throw (.invalidArgument s!"{function}(): {arg} must be non-negative, got {toString i.toInt}")
  return i.toInt.toNat

def requireNumber (function arg : String) (v : Value) : Except Failure Float :=
  match v.asFloat? with
  | some x => .ok x
  | none => .error (wrongType function arg "Number" v)

/-- The most bytes that the text of a library function may have: sixteen binary megabytes. -/
def maxTextBytes : Nat := 0x1000000

/-- Refuses a text of `count` copies of `unit` bytes if it is too long. -/
def requireLength (function : String) (unit count : Nat) : Except Failure Unit :=
  if unit * count ≤ maxTextBytes then .ok ()
  else .error (.invalidArgument s!"{function}(): result would exceed {maxTextBytes} bytes")

def finite (function : String) (x : Float) : Except Failure Value :=
  if x.isFinite then .ok (.float x)
  else .error (.invalidArgument s!"{function}(): result is not finite")

def fitting (function : String) (n : Int) : Except Failure Value :=
  match Integer.ofInt? n with
  | some i => .ok (.integer i)
  | none => .error (.invalidArgument s!"{function}(): integer overflow")

end Variorum.Library

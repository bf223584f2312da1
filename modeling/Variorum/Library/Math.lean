import Variorum.Library.Arguments

/-!
# Number functions

Absolute value, extremes, powers and roundings. Integers stay integers where the function allows it.
-/

namespace Variorum.Library

def mathModule : String := "math"

def numberArg (name description : String) : ArgInfo :=
  { name, type := "Number", description }

def applyAbs : List Value → Except Failure Value
  | [.integer i] => fitting "abs" i.toInt.natAbs
  | [v] => do finite "abs" (← requireNumber "abs" "x" v).abs
  | args => .error (.wrongArity "abs" 1 args.length)

def abs : BuiltIn where
  info := {
    name := "abs", moduleName := mathModule
    description := "Absolute value"
    usage := "abs(x)"
    args := [numberArg "x" "Value"]
    returns := "Number"
    examples := ["abs(-5) → 5", "abs(-2.5) → 2.5"] }
  apply := applyAbs

/-- The best of a number and further ones. A candidate takes the place of the best so far unless
`keeps` holds of the two as floats. -/
def bestOf (function : String) (keeps : Float → Float → Bool) :
    Value → List Value → Except Failure Value
  | best, [] => .ok best
  | best, v :: vs => do
    let candidate ← requireNumber function "values" v
    let current ← requireNumber function "values" best
    bestOf function keeps (if keeps current candidate then best else v) vs

/-- The best of all arguments, as a float if any of them is one. -/
def applyExtremum (function : String) (keeps : Float → Float → Bool) :
    List Value → Except Failure Value
  | [] => .error (.wrongArity function 1 0)
  | v :: vs => do
    let _ ← requireNumber function "values" v
    match ← bestOf function keeps v vs with
    | .integer i =>
      if (v :: vs).any (·.asInteger?.isNone) then return .float (Float.ofInt i.toInt)
      else return .integer i
    | best => return best

def extremum (name description : String) (sample : String) (keeps : Float → Float → Bool) :
    BuiltIn where
  info := {
    name, moduleName := mathModule, description
    usage := s!"{name}(a, b, ...)"
    args := [{ name := "values", type := "Number...", description := "One or more values" }]
    returns := "Number"
    examples := [sample] }
  apply := applyExtremum name keeps

def min : BuiltIn :=
  extremum "min" "Smallest of the arguments" "min(3, 1, 2) → 1" fun best candidate =>
    best ≤ candidate

def max : BuiltIn :=
  extremum "max" "Largest of the arguments" "max(3, 1, 2) → 3" fun best candidate =>
    candidate ≤ best

/-- A power of an integer, if it is in range. From the sixty-fourth power on only `0`, `1` and `-1`
have one, which depends on the exponent's parity alone. -/
def integerPower? (base : Int) (exponent : Nat) : Option Int64 :=
  if base.natAbs < 2 then Integer.ofInt? (base.pow (if exponent < 2 then exponent else 2 + exponent % 2))
  else if exponent < 64 then Integer.ofInt? (base.pow exponent)
  else none

/-- A power: of integers exactly, if the exponent is a natural number of thirty-two bits, else of
floats. -/
def applyPow : List Value → Except Failure Value
  | [base, exponent] => do
    let b ← requireNumber "pow" "base" base
    let e ← requireNumber "pow" "exponent" exponent
    match base, exponent with
    | .integer i, .integer n =>
      if 0 ≤ n.toInt ∧ n.toInt < 0x100000000 then
        match integerPower? i.toInt n.toInt.toNat with
        | some r => return .integer r
        | none => throw (.invalidArgument "pow(): integer overflow")
      else finite "pow" (b.pow e)
    | _, _ => finite "pow" (b.pow e)
  | args => .error (.wrongArity "pow" 2 args.length)

def pow : BuiltIn where
  info := {
    name := "pow", moduleName := mathModule
    description :=
      "Raise base to exponent; exact for integer base and non-negative integer exponent"
    usage := "pow(base, exponent)"
    args := [numberArg "base" "Base value", numberArg "exponent" "Exponent"]
    returns := "Number"
    examples := ["pow(2, 10) → 1024", "pow(2, -1) → 0.5"] }
  apply := applyPow

/-- Rounds a number to an integer. A float that is no integer's neighbour is named in the refusal. -/
def applyRounding (function : String) (rounded : Float → Int) :
    List Value → Except Failure Value
  | [.integer i] => .ok (.integer i)
  | [v] => do
    let x ← requireNumber function "x" v
    let fit := if x.isFinite then Integer.ofInt? (rounded x) else none
    match fit with
    | some i => return .integer i
    | none =>
      throw (.invalidArgument s!"{function}(): {Decimal.plain x} does not fit an integer")
  | args => .error (.wrongArity function 1 args.length)

def rounding (name description : String) (examples : List String) (rounded : Float → Int) :
    BuiltIn where
  info := {
    name, moduleName := mathModule, description
    usage := s!"{name}(x)"
    args := [numberArg "x" "Value"]
    returns := "Integer", examples }
  apply := applyRounding name rounded

def floor : BuiltIn :=
  rounding "floor" "Round down to an integer" ["floor(3.7) → 3", "floor(-2.3) → -3"]
    Binary64.floor

def ceil : BuiltIn :=
  rounding "ceil" "Round up to an integer" ["ceil(3.2) → 4", "ceil(-2.7) → -2"] Binary64.ceil

def round : BuiltIn :=
  rounding "round" "Round half away from zero to an integer"
    ["round(2.5) → 3", "round(-2.5) → -3"] Binary64.round

def mathFunctions : List BuiltIn :=
  [abs, min, max, pow, floor, ceil, round]

end Variorum.Library

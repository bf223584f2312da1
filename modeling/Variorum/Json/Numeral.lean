import Variorum.Decimal.Numeral

/-!
# Numerals of JSON

A numeral is kept as it is written, because its form decides what it can be: only one without point
and exponent is an integer. Its float is scaled by a power of ten in floats, and only as many digits
count as fit into a machine word.
-/

namespace Variorum.Json

structure Numeral where
  negative : Bool := false
  whole : List Char
  fraction : List Char := []
  exponent : Option Int := none
  deriving DecidableEq, Repr

namespace Numeral

def isInteger (n : Numeral) : Bool :=
  n.fraction.isEmpty && n.exponent.isNone

/-- The integer of a numeral. A negative zero is none. -/
def integer? (n : Numeral) : Option Int :=
  let m := Decimal.digitsValue n.whole
  if !n.isInteger || n.negative && m == 0 then none
  else some (if n.negative then -(m : Int) else m)

def word? (n : Numeral) : Option Nat :=
  match n.integer? with
  | some (.ofNat m) => if m < Integer.wordCount then some m else none
  | _ => none

/-- Appends digits to a significand as long as it fits into a machine word, and counts them. -/
def appendDigits (m : Nat) : List Char → Nat × Nat
  | [] => (m, 0)
  | d :: ds =>
    let next := 10 * m + (d.toNat - '0'.toNat)
    if next < Integer.wordCount then
      let (m, count) := appendDigits next ds
      (m, count + 1)
    else (m, 0)

def decimalParts (n : Numeral) : Nat × Int :=
  let (m, count) := appendDigits 0 n.whole
  let dropped := n.whole.length - count
  let (m, places) := appendDigits m n.fraction
  (m, n.exponent.getD 0 + dropped - places)

def power (e : Nat) : Float :=
  Float.ofScientific 1 false e

/-- `x · 10 ^ e` in steps whose powers of ten are floats; infinite where it is too great. -/
def scale (x : Float) (e : Int) : Float :=
  if e < -308 then
    if x == 0.0 then x else scale (x / power 308) (e + 308)
  else if 308 < e then
    if x == 0.0 then x else 1.0 / 0.0
  else if e < 0 then x / power e.natAbs
  else x * power e.natAbs
termination_by e.natAbs

def float? (n : Numeral) : Option Float :=
  let (m, e) := n.decimalParts
  let x := scale (UInt64.ofNat m).toFloat e
  if x.isFinite then some (if n.negative then -x else x) else none

def print (n : Numeral) : String :=
  String.ofList ((if n.negative then ['-'] else []) ++ n.whole ++
    (if n.fraction.isEmpty then [] else '.' :: n.fraction)) ++
    match n.exponent with
    | some e => s!"e{e}"
    | none => ""

end Numeral

end Variorum.Json

import Variorum.Decimal.Shortest

/-!
# Notations of a float

A float is written positionally or with an exponent, always in its shortest digits.
-/

namespace Variorum.Decimal

def digitChars (n : Nat) : List Char :=
  Nat.toDigits 10 n

/-- A decimal without an exponent: zeros on the right, or a point among the digits. -/
def positional (d : Decimal) : List Char :=
  let ds := digitChars d.digits
  if 0 ≤ d.exponent then ds ++ List.replicate d.exponent.toNat '0'
  else
    let places := (-d.exponent).toNat
    let ds := List.replicate (places + 1 - ds.length) '0' ++ ds
    ds.take (ds.length - places) ++ '.' :: ds.drop (ds.length - places)

/-- A decimal with one digit before the point and an exponent of ten. -/
def scientific (d : Decimal) : List Char :=
  match digitChars d.digits with
  | [] => []
  | c :: cs =>
    let power : Int := d.exponent + cs.length
    (if cs.isEmpty then [c] else c :: '.' :: cs) ++ 'e' :: (toString power).toList

/-- A magnitude with the sign of the float, and the names of the floats that have no digits. -/
def ofMagnitude (x : Float) (magnitude : List Char) : String :=
  if x.isNaN then "NaN"
  else
    let body := if x.isFinite then magnitude else ['i', 'n', 'f']
    String.ofList (if Binary64.isNegative x then '-' :: body else body)

/-- A float without an exponent and, if it is whole, without a point. -/
def plain (x : Float) : String :=
  ofMagnitude x (positional (shortest x))

/-- Whole floats of this magnitude or more are written with an exponent. -/
def exponentThreshold : Float := 1e16

/-- A float so that it reads as a float: with a point below the threshold, with an exponent from
there on. -/
def marked (x : Float) : String :=
  if exponentThreshold ≤ x.abs then ofMagnitude x (scientific (shortest x))
  else if Binary64.isWhole x then
    ofMagnitude x (digitChars (Binary64.wholePart x) ++ ['.', '0'])
  else plain x

end Variorum.Decimal

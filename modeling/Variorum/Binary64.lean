/-!
# Floats as exact numbers

A finite float is a significand times a power of two. Its remainder and its roundings are computed
on that pair, in integers.
-/

namespace Variorum.Binary64

/-- The bit above the fifty-two bits of a fraction, which no float stores. -/
def hiddenBit : Nat := 0x10000000000000

def signBit : Nat := 0x8000000000000000

def isNegative (x : Float) : Bool :=
  signBit ≤ x.toBits.toNat

/-- The eleven bits of the biased exponent. -/
def exponentField (x : Float) : Nat :=
  x.toBits.toNat / hiddenBit % 0x800

/-- The fifty-two bits of the fraction. -/
def fractionField (x : Float) : Nat :=
  x.toBits.toNat % hiddenBit

/-- The integer `m` of `|x| = m · 2 ^ q`. -/
def significand (x : Float) : Nat :=
  if exponentField x = 0 then fractionField x else hiddenBit + fractionField x

/-- The integer `q` of `|x| = m · 2 ^ q`. -/
def exponent (x : Float) : Int :=
  (max 1 (exponentField x) : Nat) - 1075

/-- The whole part of `|x|`. -/
def wholePart (x : Float) : Nat :=
  significand x * Nat.pow 2 (exponent x).toNat / Nat.pow 2 (-exponent x).toNat

/-- What `|x|` exceeds its whole part by, in units of `2 ^ exponent x`. -/
def excess (x : Float) : Nat :=
  significand x * Nat.pow 2 (exponent x).toNat % Nat.pow 2 (-exponent x).toNat

/-- A finite float without a fractional part. -/
def isWhole (x : Float) : Bool :=
  x.isFinite && excess x == 0

/-- An integer with the sign of `x`. -/
def signed (x : Float) (n : Nat) : Int :=
  if isNegative x then -n else n

/-- The greatest integer that a finite `x` does not lie below. -/
def floor (x : Float) : Int :=
  signed x (if isNegative x && excess x != 0 then wholePart x + 1 else wholePart x)

/-- The least integer that a finite `x` does not lie above. -/
def ceil (x : Float) : Int :=
  signed x (if !isNegative x && excess x != 0 then wholePart x + 1 else wholePart x)

/-- The integer nearest to a finite `x`; a half goes away from zero. -/
def round (x : Float) : Int :=
  signed x (if Nat.pow 2 (-exponent x).toNat ≤ 2 * excess x then wholePart x + 1 else wholePart x)

/-- The float `± m · 2 ^ q`, for a significand below `2 ^ 53` and a `q` of at least `-1074`. -/
def ofParts (negative : Bool) (m : Nat) (q : Int) : Float :=
  let shift := min (52 - m.log2) (q + 1074).toNat
  let m := m * Nat.pow 2 shift
  let field := if m < hiddenBit then 0 else (q - shift + 1075).toNat
  let magnitude := field * hiddenBit + m % hiddenBit
  Float.ofBits (UInt64.ofNat (if negative then signBit + magnitude else magnitude))

/-- The remainder of a division that truncates, exact and with the sign of the dividend. -/
def remainder (x y : Float) : Float :=
  if x.isFinite then
    if y.isFinite then
      let q := min (exponent x) (exponent y)
      let m := significand x * Nat.pow 2 (exponent x - q).toNat
      let n := significand y * Nat.pow 2 (exponent y - q).toNat
      if n = 0 then 0.0 / 0.0 else ofParts (isNegative x) (m % n) q
    else if y.isNaN then y else x
  else 0.0 / 0.0

end Variorum.Binary64

/-!
# Texts as JSON writes them

An escape names a unit of sixteen bits, and two of them can be the halves of one character. A half
that stands alone is in a JSON text but in no text.
-/

namespace Variorum.Json

/-- A text in units: a character is its code point, an escape is the number that it names. -/
abbrev Units : Type :=
  List Nat

namespace Units

/-- The first halves of characters beyond sixteen bits. -/
def isHighHalf (n : Nat) : Bool :=
  0xD800 ≤ n && n < 0xDC00

/-- The second halves. -/
def isLowHalf (n : Nat) : Bool :=
  0xDC00 ≤ n && n < 0xE000

/-- The character of two halves. -/
def joined (high low : Nat) : Char :=
  Char.ofNat (0x10000 + 0x400 * (high - 0xD800) + (low - 0xDC00))

/-- The characters of units, unless a half stands alone. -/
def chars? : Units → Option (List Char)
  | [] => some []
  | [n] => if isHighHalf n || isLowHalf n then none else some [Char.ofNat n]
  | m :: n :: ns =>
    if isHighHalf m && isLowHalf n then (chars? ns).map (joined m n :: ·)
    else if isHighHalf m || isLowHalf m then none
    else (chars? (n :: ns)).map (Char.ofNat m :: ·)

def text? (units : Units) : Option String :=
  (chars? units).map String.ofList

def ofText (s : String) : Units :=
  s.toList.map Char.toNat

end Units

end Variorum.Json

import Variorum.Json.Numeral
import Variorum.Json.Units

/-!
# Tokens of JSON

The marks, words, numbers and texts that a JSON text consists of. No token depends on what stands
before it.
-/

namespace Variorum.Json

inductive Token
  | mark (c : Char)
  | null
  | bool (b : Bool)
  | number (n : Numeral)
  | text (units : Units)
  deriving DecidableEq, Repr

namespace Token

def isSpace (c : Char) : Bool :=
  c = ' ' || c = '\t' || c = '\r' || c = '\n'

def isMark (c : Char) : Bool :=
  c = '{' || c = '}' || c = '[' || c = ']' || c = ':' || c = ','

/-! ## Texts -/

def hexDigit? (c : Char) : Option Nat :=
  if c.isDigit then some (c.toNat - '0'.toNat)
  else if 'a' ≤ c ∧ c ≤ 'f' then some (c.toNat - 'a'.toNat + 10)
  else if 'A' ≤ c ∧ c ≤ 'F' then some (c.toNat - 'A'.toNat + 10)
  else none

def hexUnit? (a b c d : Char) : Option Nat := do
  return 4096 * (← hexDigit? a) + 256 * (← hexDigit? b) + 16 * (← hexDigit? c) + (← hexDigit? d)

def shortEscapes : List (Char × Char) := [
  ('"', '"'), ('\\', '\\'), ('/', '/'), ('b', '\x08'), ('f', '\x0c'), ('n', '\n'), ('r', '\r'),
  ('t', '\t')]

/-- The units up to the closing quote and what follows it. Control characters have to be escaped. -/
def quoted? : List Char → Option (Units × List Char)
  | [] => none
  | '"' :: cs => some ([], cs)
  | '\\' :: 'u' :: a :: b :: c :: d :: cs => do
    let unit ← hexUnit? a b c d
    let (units, rest) ← quoted? cs
    return (unit :: units, rest)
  | '\\' :: e :: cs => do
    let c ← shortEscapes.lookup e
    let (units, rest) ← quoted? cs
    return (c.toNat :: units, rest)
  | c :: cs => do
    if c.toNat < 0x20 || c == '\\' then none
    else
      let (units, rest) ← quoted? cs
      return (c.toNat :: units, rest)

/-! ## Numbers -/

def digits? (cs : List Char) : Option (List Char × List Char) :=
  match cs.takeWhile Char.isDigit with
  | [] => none
  | ds => some (ds, cs.dropWhile Char.isDigit)

/-- The whole part at the front and what follows. A zero stands alone. -/
def whole? : List Char → Option (List Char × List Char)
  | '0' :: cs => some (['0'], cs)
  | cs => digits? cs

def fraction? : List Char → Option (List Char × List Char)
  | '.' :: cs => digits? cs
  | cs => some ([], cs)

def exponent? : List Char → Option (Option Int × List Char)
  | e :: cs =>
    if e = 'e' ∨ e = 'E' then
      let (negative, cs) := Decimal.splitSign cs
      (digits? cs).map fun (ds, rest) =>
        let n : Int := Decimal.digitsValue ds
        (some (if negative then -n else n), rest)
    else some (none, e :: cs)
  | [] => some (none, [])

def number? (negative : Bool) (cs : List Char) : Option (Token × List Char) := do
  let (whole, cs) ← whole? cs
  let (fraction, cs) ← fraction? cs
  let (exponent, cs) ← exponent? cs
  return (.number { negative, whole, fraction, exponent }, cs)

/-! ## All tokens -/

def first? : Char → List Char → Option (Token × List Char)
  | 'n', 'u' :: 'l' :: 'l' :: cs => some (.null, cs)
  | 't', 'r' :: 'u' :: 'e' :: cs => some (.bool true, cs)
  | 'f', 'a' :: 'l' :: 's' :: 'e' :: cs => some (.bool false, cs)
  | '"', cs => (quoted? cs).map fun (units, rest) => (.text units, rest)
  | '-', cs => number? true cs
  | c, cs =>
    if isMark c then some (.mark c, cs)
    else if c.isDigit then number? false (c :: cs)
    else none

def scanWithin : Nat → List Char → Option (List Token)
  | _, [] => some []
  | 0, _ :: _ => none
  | fuel + 1, c :: cs =>
    if isSpace c then scanWithin fuel cs
    else do
      let (t, rest) ← first? c cs
      return t :: (← scanWithin fuel rest)

/-- The tokens of a JSON text. Each takes a character at least, so their number is bounded. -/
def scan? (cs : List Char) : Option (List Token) :=
  scanWithin cs.length cs

end Token

end Variorum.Json

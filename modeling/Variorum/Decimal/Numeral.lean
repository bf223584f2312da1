import Variorum.Integer

/-!
# Reading numerals

An integer is digits after an optional sign. A float may also have a point, an exponent, or be one
of the names of the infinite and of no number. Digits that cannot matter any more are passed over:
below its bound every number is exact.
-/

namespace Variorum.Decimal

def digitsValue (ds : List Char) : Nat :=
  ds.foldl (fun n d => 10 * n + (d.toNat - '0'.toNat)) 0

/-- The number that decimal digits write, read until it reaches `bound`: the digits after that one
are passed over. -/
def boundedValue (bound : Nat) (ds : List Char) : Nat :=
  ds.foldl (fun n d => if n < bound then 10 * n + (d.toNat - '0'.toNat) else n) 0

theorem le_foldl_digits (ds : List Char) (n : Nat) :
    n ≤ ds.foldl (fun n d => 10 * n + (d.toNat - '0'.toNat)) n := by
  induction ds generalizing n with
  | nil => exact Nat.le_refl n
  | cons d ds ih => exact Nat.le_trans (by omega) (ih (10 * n + (d.toNat - '0'.toNat)))

theorem foldl_passedOver {bound n : Nat} (h : bound ≤ n) (ds : List Char) :
    ds.foldl (fun n d => if n < bound then 10 * n + (d.toNat - '0'.toNat) else n) n = n := by
  induction ds with
  | nil => rfl
  | cons d ds ih => rw [List.foldl_cons, if_neg (by omega), ih]

/-- Below the bound nothing is passed over. -/
theorem boundedValue_of_lt {bound : Nat} {ds : List Char} (h : digitsValue ds < bound) :
    boundedValue bound ds = digitsValue ds := by
  unfold boundedValue digitsValue at *
  generalize 0 = n at h ⊢
  induction ds generalizing n with
  | nil => rfl
  | cons d ds ih =>
    have hn : n < bound := Nat.lt_of_le_of_lt (le_foldl_digits (d :: ds) n) h
    rw [List.foldl_cons, List.foldl_cons, if_pos hn]
    exact ih _ h

/-- What reaches the bound is still seen to reach it. -/
theorem le_boundedValue {bound : Nat} {ds : List Char} (h : bound ≤ digitsValue ds) :
    bound ≤ boundedValue bound ds := by
  unfold boundedValue digitsValue at *
  generalize 0 = n at h ⊢
  induction ds generalizing n with
  | nil => exact h
  | cons d ds ih =>
    by_cases hn : n < bound
    · rw [List.foldl_cons, if_pos hn]
      exact ih _ h
    · rw [foldl_passedOver (by omega)]
      omega

def isDigits (ds : List Char) : Bool :=
  !ds.isEmpty && ds.all Char.isDigit

/-- Whether a numeral begins with a minus, and what follows its sign. -/
def splitSign : List Char → Bool × List Char
  | '-' :: cs => (true, cs)
  | '+' :: cs => (false, cs)
  | cs => (false, cs)

/-- The natural number of a numeral, which is exact below `bound`. -/
def readNat? (bound : Nat) (ds : List Char) : Option Nat :=
  if isDigits ds then some (boundedValue bound ds) else none

/-- The integer of a numeral, whose magnitude is exact below `bound`. -/
def readInt? (bound : Nat) (cs : List Char) : Option Int :=
  let (negative, ds) := splitSign cs
  (readNat? bound ds).map fun n => if negative then -(n : Int) else n

def readInteger? (cs : List Char) : Option Int64 :=
  (readInt? Integer.wordCount cs).bind Integer.ofInt?

/-- How many digits can decide which float is nearest: a number halfway between two floats has
fewer. -/
def decisiveDigits : Nat := 800

/-- A significand and a power of ten for digits. Those behind the decisive ones only say whether
anything is left over, which one digit can say. -/
def significand (ds : List Char) : Nat × Nat :=
  let counted := ds.dropWhile (· == '0')
  match counted.drop decisiveDigits with
  | [] => (digitsValue counted, 0)
  | d :: rest =>
    let leftOver := if (d :: rest).all (· == '0') then 0 else 1
    (10 * digitsValue (counted.take decisiveDigits) + leftOver, rest.length)

/-- The float nearest to `m · 10 ^ e`; far outside the range of floats no power is computed. -/
def nearestFloat (m : Nat) (e : Int) : Float :=
  let top : Int := (Nat.toDigits 10 m).length + e
  if m = 0 ∨ top < -400 then 0.0
  else if 400 < top then 1.0 / 0.0
  else Float.ofScientific m (e < 0) e.natAbs

/-- The magnitude from which on an exponent takes no further digits. -/
def exponentBound : Nat := 0x10000

def readExponent? : List Char → Option Int
  | [] => some 0
  | c :: cs => if c = 'e' ∨ c = 'E' then readInt? exponentBound cs else none

/-- Digits with an optional point, on one side of which they may be missing, and an exponent. -/
def readDigits? (cs : List Char) : Option Float :=
  let whole := cs.takeWhile Char.isDigit
  let rest := cs.dropWhile Char.isDigit
  let (fraction, rest) :=
    match rest with
    | '.' :: rest => (rest.takeWhile Char.isDigit, rest.dropWhile Char.isDigit)
    | _ => ([], rest)
  if whole.isEmpty && fraction.isEmpty then none
  else
    (readExponent? rest).map fun e =>
      let (m, dropped) := significand (whole ++ fraction)
      nearestFloat m (e + dropped - fraction.length)

def readMagnitude? (cs : List Char) : Option Float :=
  let name := String.ofList (cs.map Char.toLower)
  if name = "inf" ∨ name = "infinity" then some (1.0 / 0.0)
  else if name = "nan" then some (0.0 / 0.0)
  else readDigits? cs

def readFloat? (cs : List Char) : Option Float :=
  let (negative, body) := splitSign cs
  (readMagnitude? body).map fun x => if negative then -x else x

end Variorum.Decimal

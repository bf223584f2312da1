import Variorum.Json.Tree

/-!
# Writing JSON

A tree is laid out with one item a line, two blanks for each container around it. Only quotes,
backslashes, control characters and halves of characters are escaped.
-/

namespace Variorum.Json

namespace Units

def hexEscape (n : Nat) : List Char :=
  let digits := Nat.toDigits 16 n
  '\\' :: 'u' :: (List.replicate (4 - digits.length) '0' ++ digits)

/-- A unit between quotes. The solidus need not be escaped. -/
def printUnit (n : Nat) : List Char :=
  let c := Char.ofNat n
  if isHighHalf n || isLowHalf n then hexEscape n
  else if c = '/' then [c]
  else
    match Token.shortEscapes.find? (·.2 = c) with
    | some (e, _) => ['\\', e]
    | none => if n < 0x20 then hexEscape n else [c]

def print (units : Units) : String :=
  String.ofList ('"' :: units.flatMap printUnit ++ ['"'])

end Units

namespace Tree

/-- A line break and the blanks at the front of a line inside of `depth` containers. -/
def newline (depth : Nat) : String :=
  "\n" ++ String.ofList (List.replicate (2 * depth) ' ')

/-- The items of a container between its marks, each on a line of its own. -/
def layOut (depth : Nat) (left right : String) : List String → String
  | [] => left ++ right
  | items =>
    left ++ newline (depth + 1) ++ ("," ++ newline (depth + 1)).intercalate items ++
      newline depth ++ right

mutual

def printAt (depth : Nat) : Tree → String
  | .null => "null"
  | .bool b => if b then "true" else "false"
  | .number n => n.print
  | .text units => units.print
  | .array items => layOut depth "[" "]" (printItems (depth + 1) items)
  | .object members => layOut depth "\x7b" "\x7d" (printMembers (depth + 1) members)

def printItems (depth : Nat) : List Tree → List String
  | [] => []
  | t :: ts => printAt depth t :: printItems depth ts

def printMembers (depth : Nat) : List (Units × Tree) → List String
  | [] => []
  | (key, t) :: rest => (key.print ++ ": " ++ printAt depth t) :: printMembers depth rest

end

def print (t : Tree) : String :=
  printAt 0 t

end Tree

end Variorum.Json

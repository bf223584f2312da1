import Variorum.Text.Case
import Variorum.Text.VisibleTable

/-!
# Quoted text

A text between double quotes in which every character can be seen: quotes and backslashes are
escaped, blanks other than the space have names, and what does not show is written by its number.
-/

namespace Variorum.Text

def isVisible (c : Char) : Bool :=
  !inRanges VisibleTable.invisibleRanges c.toNat && !inRanges VisibleTable.fillerRanges c.toNat &&
    !inRanges VisibleTable.extendingRanges c.toNat

/-- A character by its number, in the fewest lowercase hexadecimal digits. -/
def numbered (c : Char) : List Char :=
  ['\\', 'u', '{'] ++ Nat.toDigits 16 c.toNat ++ ['}']

def escape (c : Char) : List Char :=
  if c = '\x00' then ['\\', '0']
  else if c = '\t' then ['\\', 't']
  else if c = '\r' then ['\\', 'r']
  else if c = '\n' then ['\\', 'n']
  else if c = '\\' then ['\\', '\\']
  else if c = '"' then ['\\', '"']
  else if isVisible c then [c]
  else numbered c

def quote (s : String) : String :=
  String.ofList ('"' :: s.toList.flatMap escape ++ ['"'])

end Variorum.Text

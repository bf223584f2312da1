/-!
# Parts of a text

Finding, splitting and repeating, on lists of characters.
-/

namespace Variorum.Text

def occursIn (part : List Char) : List Char → Bool
  | [] => part.isEmpty
  | c :: cs => part.isPrefixOf (c :: cs) || occursIn part cs

/-- The parts of a text between the characters `sep`; there is always at least one. -/
def splitAt (sep : Char) : List Char → List (List Char)
  | [] => [[]]
  | c :: cs =>
    if c = sep then [] :: splitAt sep cs
    else
      match splitAt sep cs with
      | [] => [[c]]
      | part :: parts => (c :: part) :: parts

def cutAt? (sep : Char) : List Char → Option (List Char × List Char)
  | [] => none
  | c :: cs =>
    if c = sep then some ([], cs) else (cutAt? sep cs).map fun p => (c :: p.1, p.2)

def repeated (s : String) (count : Nat) : String :=
  if _h : count = 0 then ""
  else
    let half := repeated s (count / 2)
    if count % 2 = 0 then half ++ half else half ++ half ++ s
termination_by count

end Variorum.Text

import Variorum.Json.Token

/-!
# JSON texts as trees

A tree keeps what is written: numerals, texts in units, and every member of an object in order, also
where a key is repeated. The reader holds the containers that are still open in a list, so that the
depth of a tree is no concern of its own.
-/

namespace Variorum.Json

inductive Tree
  | null
  | bool (b : Bool)
  | number (n : Numeral)
  | text (units : Units)
  | array (items : List Tree)
  | object (members : List (Units × Tree))
  deriving Repr

namespace Tree

/-- A container that is still open, with what it holds already, the last first. An open object waits
for the value of a key. -/
inductive Frame
  | array (items : List Tree)
  | object (members : List (Units × Tree)) (key : Units)

mutual

/-- Reads a tree from tokens and goes on with the containers around it. -/
def readValue (frames : List Frame) : List Token → Option Tree
  | .null :: ts => goOn frames .null ts
  | .bool b :: ts => goOn frames (.bool b) ts
  | .number n :: ts => goOn frames (.number n) ts
  | .text units :: ts => goOn frames (.text units) ts
  | .mark '[' :: .mark ']' :: ts => goOn frames (.array []) ts
  | .mark '[' :: ts => readValue (.array [] :: frames) ts
  | .mark '{' :: .mark '}' :: ts => goOn frames (.object []) ts
  | .mark '{' :: .text key :: .mark ':' :: ts => readValue (.object [] key :: frames) ts
  | _ => none

/-- Puts a tree into the innermost open container and reads what follows it. -/
def goOn (frames : List Frame) (tree : Tree) : List Token → Option Tree
  | [] =>
    match frames with
    | [] => some tree
    | _ => none
  | .mark ',' :: .text key :: .mark ':' :: ts =>
    match frames with
    | .object members k :: frames => readValue (.object ((k, tree) :: members) key :: frames) ts
    | _ => none
  | .mark ',' :: ts =>
    match frames with
    | .array items :: frames => readValue (.array (tree :: items) :: frames) ts
    | _ => none
  | .mark ']' :: ts =>
    match frames with
    | .array items :: frames => goOn frames (.array (tree :: items).reverse) ts
    | _ => none
  | .mark '}' :: ts =>
    match frames with
    | .object members k :: frames => goOn frames (.object ((k, tree) :: members).reverse) ts
    | _ => none
  | _ => none

end

def read? (s : String) : Option Tree :=
  (Token.scan? s.toList).bind (readValue [])

end Tree

end Variorum.Json

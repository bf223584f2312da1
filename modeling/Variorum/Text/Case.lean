import Variorum.Text.CaseTable

/-!
# Upper and lower case

The full case mappings of Unicode: one character may map to several, and a capital sigma is lowered
by its place in the word.
-/

namespace Variorum.Text

open CaseTable

/-- Whether a code point lies in one of the closed ranges, which are in order. -/
def inRanges : List (Nat × Nat) → Nat → Bool
  | [], _ => false
  | (first, last) :: ranges, n => first ≤ n && (n ≤ last || inRanges ranges n)

/-- Whether a run maps a code point. -/
def CaseTable.Run.covers (r : Run) (n : Nat) : Bool :=
  r.first ≤ n && n ≤ r.last && (n - r.first) % r.step == 0

/-- The image of a character: its run's shift, else its long mapping, else itself. Runs and long
mappings are in order, so that only the first to reach the character can map it. -/
def mapCase (runs : List Run) (long : List (Nat × List Nat)) (c : Char) : List Char :=
  match (runs.find? fun r => c.toNat ≤ r.last).filter (·.covers c.toNat) with
  | some r => [Char.ofNat ((c.toNat : Int) + r.shift).toNat]
  | none =>
    match (long.find? fun p => c.toNat ≤ p.1).filter (·.1 == c.toNat) with
    | some p => p.2.map Char.ofNat
    | none => [c]

def upperChar (c : Char) : List Char :=
  if c.toNat < 0x80 then [c.toUpper] else mapCase upperRuns upperLong c

def lowerChar (c : Char) : List Char :=
  if c.toNat < 0x80 then [c.toLower] else mapCase lowerRuns lowerLong c

/-- Whether the first character that is not case-ignorable is cased. -/
def meetsCased (cs : List Char) : Bool :=
  match cs.dropWhile fun c => inRanges ignorableRanges c.toNat with
  | c :: _ => inRanges casedRanges c.toNat
  | [] => false

/-- A capital sigma that ends a word is lowered to the final form. -/
def lowerSigma (before after : List Char) : Char :=
  if meetsCased before && !meetsCased after then 'ς' else 'σ'

/-- Lowers what follows the characters `before`, whose lowercase is `lowered`; both of these lists
begin with what stands nearest. -/
def lowerAfter (before lowered : List Char) : List Char → List Char
  | [] => lowered.reverse
  | c :: after =>
    let image := if c = 'Σ' then [lowerSigma before after] else lowerChar c
    lowerAfter (c :: before) (image.reverse ++ lowered) after

def upper (s : String) : String :=
  String.ofList (s.toList.flatMap upperChar)

def lower (s : String) : String :=
  String.ofList (lowerAfter [] [] s.toList)

def capitalize (s : String) : String :=
  match s.toList with
  | [] => ""
  | c :: cs => String.ofList (upperChar c ++ cs)

end Variorum.Text

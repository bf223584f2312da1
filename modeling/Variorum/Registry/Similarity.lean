import Variorum.Text.Case
import Variorum.Text.Search

/-!
# Similar names

How much a name resembles another, for proposing names that were perhaps meant.
-/

namespace Variorum.Similarity

def sharedChars (query candidate : List Char) : Nat :=
  (query.eraseDups.filter (candidate.contains ·)).length

/-- The points for one text being a part of the other: most if the candidate begins with the query,
fewest if the candidate is the part. -/
def containmentScore (query candidate : List Char) : Nat :=
  if query.isPrefixOf candidate then 100
  else if Text.occursIn query candidate then 50
  else if Text.occursIn candidate query then 30
  else 0

/-- How much a candidate resembles a query: containment, two points for each shared character, and,
where there is any resemblance, a point for each byte that the lengths differ by less than five. -/
def score (query candidate : String) : Nat :=
  let base := containmentScore query.toList candidate.toList +
    2 * sharedChars query.toList candidate.toList
  let difference := max query.utf8ByteSize candidate.utf8ByteSize -
    min query.utf8ByteSize candidate.utf8ByteSize
  if difference < 5 ∧ 0 < base then base + (5 - difference) else base

def threshold : Nat := 10

/-- Whether a scored name is proposed before another: for its score, then by its text. -/
def precedes (a b : String × Nat) : Bool :=
  b.2 < a.2 || a.2 == b.2 && decide (a.1 ≤ b.1)

/-- The candidates that resemble a name, whatever its case, the most similar first. -/
def ranked (name : String) (candidates : List String) : List String :=
  let query := Text.lower name
  let scored := (candidates.map fun c => (c, score query c)).filter fun p => threshold ≤ p.2
  (scored.mergeSort precedes).map (·.1)

end Variorum.Similarity

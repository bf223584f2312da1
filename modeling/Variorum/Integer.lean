/-!
# Machine integers

Sixty-four bit integers as the integers of a range: arithmetic is exact or refused.
-/

namespace Variorum.Integer

/-- How many values a machine word has: two to the power of sixty-four. -/
def wordCount : Nat := 0x10000000000000000

/-- The integers that fit sixty-four bits with a sign. -/
def InRange (n : Int) : Prop :=
  -0x8000000000000000 ≤ n ∧ n < 0x8000000000000000

instance (n : Int) : Decidable (InRange n) :=
  inferInstanceAs (Decidable (_ ∧ _))

/-- The machine integer equal to `n`, if `n` is in range. -/
def ofInt? (n : Int) : Option Int64 :=
  if InRange n then some (Int64.ofInt n) else none

theorem toInt_ofInt?_eq {n : Int} {i : Int64} (h : ofInt? n = some i) : i.toInt = n := by
  unfold ofInt? at h
  split at h
  · rename_i hr
    cases h
    exact Int64.toInt_ofInt_of_le (by simpa using hr.1) (by simpa using hr.2)
  · cases h

end Variorum.Integer

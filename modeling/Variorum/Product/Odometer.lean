import Variorum.Integer

/-!
# Odometers

An odometer runs through all lists of indices below given sizes. The last index turns fastest.
-/

namespace Variorum

/-- The sizes of the wheels and the indices that are shown next, unless the odometer has run out. -/
structure Odometer where
  sizes : List Nat
  shown : Option (List Nat)
  deriving DecidableEq, Repr

namespace Odometer

/-- An odometer at its first indices. A wheel of size zero shows nothing. -/
def start (sizes : List Nat) : Odometer :=
  ⟨sizes, if sizes.contains 0 then none else some (sizes.map fun _ => 0)⟩

/-- The indices after these: the last wheel that can turns, and those behind it begin anew. -/
def following : (sizes indices : List Nat) → Option (List Nat)
  | size :: sizes, index :: indices =>
    match following sizes indices with
    | some rest => some (index :: rest)
    | none => if index + 1 < size then some ((index + 1) :: indices.map fun _ => 0) else none
  | _, _ => none

/-- The indices that are shown, and the odometer after them. -/
def next? (o : Odometer) : Option (List Nat × Odometer) :=
  o.shown.map fun indices => (indices, { o with shown := following o.sizes indices })

/-- The number of index lists. -/
def product (sizes : List Nat) : Nat :=
  sizes.foldl (· * ·) 1

/-- The product of two numbers, at most the greatest machine word. -/
def saturatingMul (a b : Nat) : Nat :=
  min (a * b) (Integer.wordCount - 1)

/-- The number of index lists, at most the greatest machine word. -/
def total (sizes : List Nat) : Nat :=
  if sizes.contains 0 then 0 else sizes.foldl saturatingMul 1

/-- Puts the next `n` index lists behind those of `seen`. -/
def collect (seen : Array (List Nat)) : (n : Nat) → Odometer → Array (List Nat)
  | 0, _ => seen
  | n + 1, o =>
    match o.next? with
    | some (indices, o) => collect (seen.push indices) n o
    | none => seen

def take (n : Nat) (o : Odometer) : List (List Nat) :=
  (collect #[] n o).toList

def all (sizes : List Nat) : List (List Nat) :=
  take (product sizes) (start sizes)

end Odometer

end Variorum

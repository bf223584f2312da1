import Variorum.Binary64

/-!
# The shortest decimal of a float

Of the decimals that round to a float, the one with the fewest digits, and of those the nearest.
-/

namespace Variorum

/-- The number `digits · 10 ^ exponent`. -/
structure Decimal where
  digits : Nat
  exponent : Int
  deriving DecidableEq, Repr

namespace Decimal

/-- A positive float with the decimals that round to it, in units of `1 / scale`: those from
`value - below` to `value + above`, the ends included if `closed`. -/
structure Interval where
  value : Nat
  below : Nat
  above : Nat
  scale : Nat
  closed : Bool

/-- The interval of the magnitude of a finite float: it reaches half way to either neighbour, and
the lower neighbour of a power of two is nearer. -/
def Interval.ofFloat (x : Float) : Interval :=
  let m := Binary64.significand x
  let q := Binary64.exponent x
  let unit := Nat.pow 2 (q - 2).toNat
  let narrow := m = Binary64.hiddenBit ∧ -1074 < q
  { value := 4 * m * unit
    below := if narrow then unit else 2 * unit
    above := 2 * unit
    scale := Nat.pow 2 (2 - q).toNat
    closed := m % 2 = 0 }

/-- Whether a point at distance `d` is within reach of the interval's value. -/
def Interval.reaches (i : Interval) (d reach : Nat) : Bool :=
  d < reach || i.closed && d == reach

/-- The interval in units `10 ^ e` times as fine, or its scale `10 ^ e` times as coarse. -/
def Interval.onGrid (i : Interval) (e : Int) : Interval :=
  let fine := Nat.pow 10 (-e).toNat
  { i with
    value := i.value * fine
    below := i.below * fine
    above := i.above * fine
    scale := i.scale * Nat.pow 10 e.toNat }

/-- The multiple of `10 ^ e` that the interval holds next to its value, if it holds one; of two the
nearer, and the upper if they are equally near. -/
def Interval.nearest? (i : Interval) (e : Int) : Option Decimal :=
  let g := i.onGrid e
  let n := g.value / g.scale
  let rest := g.value % g.scale
  let down := n ≠ 0 ∧ g.reaches rest g.below
  let up := g.reaches (g.scale - rest) g.above
  if up ∧ (¬down ∨ g.scale ≤ 2 * rest) then some ⟨n + 1, e⟩
  else if down then some ⟨n, e⟩
  else none

/-- The first grid, from `10 ^ e` downwards, on which the interval holds a point. -/
def Interval.coarsest (i : Interval) : (steps : Nat) → (e : Int) → Decimal
  | 0, e => ⟨(i.onGrid e).value / (i.onGrid e).scale, e⟩
  | steps + 1, e => (i.nearest? e).getD (i.coarsest steps (e - 1))

/-- A power of ten above the interval's value. -/
def Interval.ceiling (i : Interval) : Int :=
  ((i.value.log2 : Int) - i.scale.log2 + 1) * 30103 / 100000 + 2

/-- The shortest decimal of a finite float's magnitude. Seventeen digits always suffice, so that the
search from above the value ends within twenty-five steps. -/
def shortest (x : Float) : Decimal :=
  if Binary64.significand x = 0 then ⟨0, 0⟩
  else
    let i := Interval.ofFloat x
    i.coarsest 25 i.ceiling

end Decimal

end Variorum

import Variorum.Failure

/-!
# Slices

Every `step`-th element of a list from one bound up to another. A negative bound counts from the end,
a bound outside the list is moved to its nearer end, and a missing bound stands for the end where a
walk in the direction of the step starts or stops.
-/

namespace Variorum.Slice

/-- The index of a bound in a list of length `len`, between the least and the greatest allowed. -/
def clampBound (len low high bound : Int) : Int :=
  max low (min high (if bound < 0 then bound + len else bound))

def startIndex (len step : Int) (start : Option Int) : Int :=
  match start with
  | none => if 0 < step then 0 else len - 1
  | some b => if 0 < step then clampBound len 0 len b else clampBound len (-1) (len - 1) b

/-- Where a walk stops, this index excluded. -/
def stopIndex (len step : Int) (stop : Option Int) : Int :=
  match stop with
  | none => if 0 < step then len else -1
  | some b => if 0 < step then clampBound len 0 len b else clampBound len (-1) (len - 1) b

/-- How many steps lead from `first` to before `last`. -/
def stepCount (first last step : Int) : Nat :=
  if 0 < step then ((last - first + step - 1) / step).toNat
  else ((first - last - step - 1) / -step).toNat

/-- The indices that a slice of a list of length `len` visits, in order. -/
def indices (len : Nat) (start stop : Option Int) (step : Int) : List Int :=
  let first := startIndex len step start
  (List.range (stepCount first (stopIndex len step stop) step)).map fun (k : Nat) => first + k * step

def zeroStep : Failure :=
  .invalidArgument "slice step cannot be zero"

def select {α : Type} (xs : List α) (start stop : Option Int) (step : Int) :
    Except Failure (List α) :=
  if step = 0 then .error zeroStep
  else
    let xs := xs.toArray
    .ok ((indices xs.size start stop step).filterMap fun i => xs[i.toNat]?)

end Variorum.Slice

import TreeWalk.Number.Binary64

/-!
# The shortest decimal of a double

A decimal stands for a double when it lies in the interval of reals that round
to that double.  `Binary64.Magnitude.shortest` gives a decimal with as few
digits as possible among those, and the nearest one among the shortest.

Since `2 ^ (-1074) = 5 ^ 1074 * 10 ^ (-1074)`, a double is also a whole number
of decimal units of `10 ^ (-1074)`.  The search tries the grids of step `10 ^ j`
decimal units from coarse to fine.  On each grid only the two neighbours of the
value need to be tested, and on the grid of step `1` the value itself is a point,
so the search always ends with a decimal that reads back.
-/

namespace TreeWalk

/-- The number `coefficient * 10 ^ exponent`. -/
structure Decimal where
  coefficient : Nat
  exponent : Int
deriving DecidableEq, Repr

/-- Which of two equally near decimals is taken. -/
inductive Decimal.Tie where
  | up
  | toEven
deriving DecidableEq, Repr

/-- Whether the lower neighbour of a value on a grid is the one to take, where
`remainder` is its distance from the value. -/
def Decimal.Tie.takesLower
    (tie : Decimal.Tie)
    (lower remainder step : Nat) : Bool :=
  2 * remainder < step ||
    2 * remainder == step && tie == .toEven && lower % 2 == 0

namespace Binary64

/-- The number of decimal units in one unit. -/
def decimalUnits : Nat := Nat.pow 5 unitPlaces

/-- The reals that round to a value, in half decimal units: from `lower` to
`upper`, the ends included when `closed`. -/
structure RoundingInterval where
  value : Nat
  lower : Nat
  upper : Nat
  closed : Bool
deriving DecidableEq, Repr

/-- Whether a point, in half decimal units, lies in the interval. -/
def RoundingInterval.contains
    (interval : RoundingInterval)
    (point : Nat) : Bool :=
  if interval.closed then
    interval.lower ≤ point && point ≤ interval.upper
  else
    interval.lower < point && point < interval.upper

namespace RoundingInterval

/-- The neighbour of the value that stands for it on the grid of the given
step, if there is one: the nearer, should both of them do. -/
def pointOnGrid?
    (interval : RoundingInterval)
    (tie : Decimal.Tie)
    (step : Nat) : Option Nat :=
  let lower := interval.value / step
  let remainder := interval.value % step
  match interval.contains (2 * (lower * step)), interval.contains (2 * ((lower + 1) * step)) with
  | true, true => some (if tie.takesLower lower remainder step then lower else lower + 1)
  | true, false => some lower
  | false, true => some (lower + 1)
  | false, false => none

/-- Search the grids of step `10 ^ j` decimal units, from `j` downwards.  The
result is a multiple and the `j` of its grid. -/
def coarsestPoint
    (interval : RoundingInterval)
    (tie : Decimal.Tie) : Nat -> Nat × Nat
  | 0 => (interval.value, 0)
  | j + 1 =>
    match interval.pointOnGrid? tie (Nat.pow 10 (j + 1)) with
    | some multiple => (multiple, j + 1)
    | none => interval.coarsestPoint tie j

end RoundingInterval

namespace Magnitude

/-- The interval of reals that round to a magnitude.  Below a power of two the
next double is only half as far away as above it. -/
def roundingInterval (magnitude : Magnitude) : RoundingInterval :=
  let value := magnitude.units * decimalUnits
  let above := Nat.pow 2 magnitude.scale * decimalUnits
  let below :=
    if magnitude.significand = hiddenBit then
      Nat.pow 2 (magnitude.scale - 1) * decimalUnits
    else
      above
  { value := value
    lower := 2 * value - below
    upper := 2 * value + above
    closed := magnitude.significand % 2 == 0 }

/-- A bound on the number of decimal digits of a natural number, which is the
coarsest grid worth trying. -/
def digitBound (n : Nat) : Nat :=
  n.log2 * 302 / 1000 + 1

/-- The shortest decimal that stands for a magnitude. -/
def shortest
    (magnitude : Magnitude)
    (tie : Decimal.Tie) : Decimal :=
  let interval := magnitude.roundingInterval
  let point := interval.coarsestPoint tie (digitBound interval.value)
  ⟨point.1, (point.2 : Int) - unitPlaces⟩

end Magnitude

end Binary64
end TreeWalk

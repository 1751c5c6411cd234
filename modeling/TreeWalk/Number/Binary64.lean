/-!
# Double-precision numbers as exact fractions

Every finite double is a whole number of units, where one unit is
`2 ^ (-1074)`, the smallest positive double.  This module reads the bit pattern
of a double as such a number of units and, in the other direction, finds the
double nearest to a quotient of two natural numbers.  All of it is arithmetic on
natural numbers, so nothing here depends on how a machine rounds.
-/

namespace TreeWalk
namespace Binary64

/-- One unit is `2 ^ (-unitPlaces)`. -/
def unitPlaces : Nat := 1074

/-- The bit of a significand that is not stored, except in the smallest
doubles, which lack it. -/
def hiddenBit : Nat := Nat.pow 2 52

/-- The exponent field of infinities and of what is not a number. -/
def specialExponent : Nat := Nat.pow 2 11 - 1

/-- The size of a finite double: `significand * 2 ^ scale` units. -/
structure Magnitude where
  significand : Nat
  scale : Nat
deriving DecidableEq, Repr

namespace Magnitude

/-- The size as a whole number of units. -/
def units (magnitude : Magnitude) : Nat :=
  magnitude.significand * Nat.pow 2 magnitude.scale

/-- The integer part. -/
def whole (magnitude : Magnitude) : Nat :=
  magnitude.units / Nat.pow 2 unitPlaces

/-- Whether there is no fractional part. -/
def isWhole (magnitude : Magnitude) : Bool :=
  magnitude.units % Nat.pow 2 unitPlaces == 0

end Magnitude

/-- What a double stands for. -/
inductive View where
  | notANumber
  | infinite (negative : Bool)
  | finite (negative : Bool) (magnitude : Magnitude)
deriving DecidableEq, Repr

/-- Read a bit pattern: one sign bit, eleven exponent bits, and the 52 stored
bits of the significand. -/
def View.ofBits (bits : Nat) : View :=
  let negative := bits / Nat.pow 2 63 % 2 == 1
  let exponent := bits / Nat.pow 2 52 % Nat.pow 2 11
  let stored := bits % Nat.pow 2 52
  if exponent = specialExponent then
    if stored = 0 then .infinite negative else .notANumber
  else if exponent = 0 then
    .finite negative ⟨stored, 0⟩
  else
    .finite negative ⟨hiddenBit + stored, exponent - 1⟩

/-- What the double `x` stands for. -/
def view (x : Float) : View :=
  View.ofBits x.toBits.toNat

/-- Divide and round to the nearest natural number, a half going to the even
neighbour. -/
def divideToEven (numerator denominator : Nat) : Nat :=
  let quotient := numerator / denominator
  let remainder := numerator % denominator
  if 2 * remainder < denominator || 2 * remainder == denominator && quotient % 2 == 0 then
    quotient
  else
    quotient + 1

/-- The bit pattern of positive infinity. -/
def infinityBits : Nat := specialExponent * Nat.pow 2 52

/-- The bit pattern of the double nearest to `numerator / denominator`.  The
scale is the least one that leaves a significand of 53 bits; a significand that
rounds up to `2 ^ 53` carries into the exponent field by itself. -/
def nearestBits (numerator denominator : Nat) : Nat :=
  let units := numerator * Nat.pow 2 unitPlaces
  let scale := (units / denominator).log2 - 52
  let significand := divideToEven units (denominator * Nat.pow 2 scale)
  Nat.min (scale * Nat.pow 2 52 + significand) infinityBits

/-- The double nearest to `numerator / denominator`. -/
def nearest (numerator denominator : Nat) : Float :=
  Float.ofBits (UInt64.ofNat (nearestBits numerator denominator))

/-- The double written by the digits `whole`, a point, and the digits
`fraction`. -/
def ofDigits (whole fraction : List Char) : Float :=
  nearest (Nat.ofDigitChars 10 (whole ++ fraction) 0) (Nat.pow 10 fraction.length)

end Binary64
end TreeWalk

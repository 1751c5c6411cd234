import TreeWalk.Proofs.Number.Bits

/-!
# Reading quotients back

Around every finite double lies an interval of quotients that are nearer to it than to
any other double, and at whose ends the double with the even significand is taken.
Main statement: reading any quotient in the interval of a double gives the bits of that
double.
-/

namespace TreeWalk
namespace Binary64

/-- A quotient rounds to a natural number if it differs from it by less than a half,
or by a half if the number is even. -/
theorem divideToEven_eq
    {numerator denominator rounded : Nat}
    (positive : 0 < denominator)
    (above : 2 * rounded * denominator ≤ 2 * numerator + denominator)
    (below : 2 * numerator ≤ 2 * rounded * denominator + denominator)
    (ties : rounded % 2 = 0 ∨
      2 * rounded * denominator < 2 * numerator + denominator ∧
        2 * numerator < 2 * rounded * denominator + denominator) :
    divideToEven numerator denominator = rounded := by
  have whole := Nat.div_add_mod numerator denominator
  have small := Nat.mod_lt numerator positive
  unfold divideToEven
  dsimp only
  generalize numerator / denominator = quotient at *
  generalize numerator % denominator = remainder at *
  rw [Nat.mul_comm denominator] at whole
  rw [Nat.mul_assoc] at above below ties
  have atLeast : quotient ≤ rounded := by
    by_contra less
    have product := Nat.mul_le_mul_right denominator (show rounded + 1 ≤ quotient by omega)
    rw [Nat.add_mul] at product
    omega
  have atMost : rounded ≤ quotient + 1 := by
    by_contra more
    have product := Nat.mul_le_mul_right denominator (show quotient + 2 ≤ rounded by omega)
    rw [Nat.add_mul] at product
    omega
  rcases Nat.eq_or_lt_of_le atLeast with same | less
  · subst same
    rw [if_pos]
    simp only [Bool.or_eq_true, decide_eq_true_eq, Bool.and_eq_true, beq_iff_eq]
    omega
  · have next : rounded = quotient + 1 := by omega
    subst next
    rw [Nat.add_mul] at above below ties
    rw [if_neg]
    simp only [Bool.or_eq_true, decide_eq_true_eq, Bool.and_eq_true, beq_iff_eq]
    omega

/-- The scale of a quotient that is not too large for the least one. -/
theorem scale_of_lt
    {units denominator : Nat}
    (small : units < denominator * 2 ^ 53) :
    (units / denominator).log2 - 52 = 0 := by
  have quotient : units / denominator < 2 ^ 53 := Nat.div_lt_of_lt_mul small
  by_cases zero : units / denominator = 0
  · rw [zero]
    rfl
  · have := (Nat.log2_lt zero).mpr quotient
    omega

/-- The scale of a quotient that leaves a significand of 53 bits. -/
theorem scale_of_le_of_lt
    {units denominator scale : Nat}
    (positive : 0 < denominator)
    (large : denominator * 2 ^ (52 + scale) ≤ units)
    (small : units < denominator * 2 ^ (53 + scale)) :
    (units / denominator).log2 - 52 = scale := by
  have atLeast : 2 ^ (52 + scale) ≤ units / denominator := by
    rw [Nat.le_div_iff_mul_le positive, Nat.mul_comm]
    exact large
  have below : units / denominator < 2 ^ (53 + scale) := Nat.div_lt_of_lt_mul small
  have nonzero : units / denominator ≠ 0 := by
    have := Nat.two_pow_pos (52 + scale)
    omega
  have lower := (Nat.le_log2 nonzero).mpr atLeast
  have upper := (Nat.log2_lt nonzero).mpr below
  omega

/-- The nearest double is known from its scale and its rounded significand. -/
theorem nearestBits_eq
    {numerator denominator scale significand : Nat}
    (scaleIs : (numerator * Nat.pow 2 unitPlaces / denominator).log2 - 52 = scale)
    (rounds : divideToEven (numerator * Nat.pow 2 unitPlaces) (denominator * 2 ^ scale) =
      significand)
    (finite : scale * 2 ^ 52 + significand ≤ infinityBits) :
    nearestBits numerator denominator = scale * 2 ^ 52 + significand := by
  unfold nearestBits
  dsimp only
  rw [scaleIs, Nat.pow_eq (n := scale), rounds]
  exact Nat.min_eq_left finite

namespace Magnitude

/-- The magnitudes of doubles: the scale is the least one that leaves a significand of
53 bits. -/
structure Proper (magnitude : Magnitude) : Prop where
  significand_lt : magnitude.significand < 2 ^ 53
  scale_le : magnitude.scale ≤ 2045
  normal : 0 < magnitude.scale -> 2 ^ 52 ≤ magnitude.significand

/-- The distance to the next double below, in units. -/
def gapBelow (magnitude : Magnitude) : Nat :=
  if magnitude.significand = hiddenBit then Nat.pow 2 (magnitude.scale - 1)
  else Nat.pow 2 magnitude.scale

/-- A quotient lies in the interval of a magnitude.  Both are doubled, so that the ends
of the interval are whole numbers of units. -/
def Attracts (magnitude : Magnitude) (numerator denominator : Nat) : Prop :=
  let point := 2 * (numerator * Nat.pow 2 unitPlaces)
  let lower := (2 * magnitude.units - magnitude.gapBelow) * denominator
  let upper := (2 * magnitude.units + Nat.pow 2 magnitude.scale) * denominator
  if magnitude.significand % 2 = 0 then lower ≤ point ∧ point ≤ upper
  else lower < point ∧ point < upper

variable {magnitude : Magnitude} {numerator denominator : Nat}

/-- The gap below a double is at most the one above it. -/
theorem gapBelow_le (magnitude : Magnitude) : magnitude.gapBelow ≤ 2 ^ magnitude.scale := by
  unfold gapBelow
  split
  · exact Nat.pow_le_pow_right (by decide) (Nat.sub_le _ _)
  · exact Nat.le_refl _

/-- A proper magnitude's bits are at most those of infinity. -/
theorem Proper.finite (proper : magnitude.Proper) :
    magnitude.scale * 2 ^ 52 + magnitude.significand ≤ infinityBits := by
  obtain ⟨significandBound, scaleBound, -⟩ := proper
  change _ ≤ 2047 * 2 ^ 52
  omega

/-- What the ends of the interval say of the significand. -/
theorem Attracts.bounds
    (attracts : magnitude.Attracts numerator denominator) :
    2 * magnitude.significand * (denominator * 2 ^ magnitude.scale) ≤
        2 * (numerator * Nat.pow 2 unitPlaces) + denominator * magnitude.gapBelow ∧
      2 * (numerator * Nat.pow 2 unitPlaces) ≤
        2 * magnitude.significand * (denominator * 2 ^ magnitude.scale) +
          denominator * 2 ^ magnitude.scale ∧
      (magnitude.significand % 2 = 0 ∨
        2 * magnitude.significand * (denominator * 2 ^ magnitude.scale) <
            2 * (numerator * Nat.pow 2 unitPlaces) + denominator * magnitude.gapBelow ∧
          2 * (numerator * Nat.pow 2 unitPlaces) <
            2 * magnitude.significand * (denominator * 2 ^ magnitude.scale) +
              denominator * 2 ^ magnitude.scale) := by
  unfold Attracts at attracts
  dsimp only at attracts
  generalize 2 * (numerator * Nat.pow 2 unitPlaces) = point at *
  have doubled : 2 * magnitude.significand * (denominator * 2 ^ magnitude.scale) =
      2 * magnitude.units * denominator := by
    rw [units, Nat.pow_eq]
    ring
  have upper : (2 * magnitude.units + Nat.pow 2 magnitude.scale) * denominator =
      2 * magnitude.units * denominator + denominator * 2 ^ magnitude.scale := by
    rw [Nat.pow_eq]
    ring
  rw [Nat.sub_mul, upper, Nat.mul_comm magnitude.gapBelow] at attracts
  rw [doubled]
  split at attracts <;> omega

end Magnitude

section Reading

variable
  {magnitude : Magnitude}
  (proper : magnitude.Proper)
  {numerator denominator : Nat}
  (positive : 0 < denominator)
  (attracts : magnitude.Attracts numerator denominator)

include proper positive attracts

/-- A quotient that has the scale of the magnitude rounds to its significand. -/
theorem nearestBits_of_scale_eq
    (scaleIs : (numerator * Nat.pow 2 unitPlaces / denominator).log2 - 52 = magnitude.scale) :
    nearestBits numerator denominator =
      magnitude.scale * 2 ^ 52 + magnitude.significand := by
  obtain ⟨lower, upper, ties⟩ := attracts.bounds
  have gap := Nat.mul_le_mul_left denominator magnitude.gapBelow_le
  refine nearestBits_eq scaleIs (divideToEven_eq ?_ ?_ upper ?_) proper.finite
  · exact Nat.mul_pos positive (Nat.two_pow_pos _)
  · omega
  · omega

/-- A quotient that is not below the least one with the scale of the magnitude. -/
theorem nearestBits_of_le
    (large : magnitude.scale = 0 ∨
      denominator * 2 ^ (52 + magnitude.scale) ≤ numerator * Nat.pow 2 unitPlaces) :
    nearestBits numerator denominator =
      magnitude.scale * 2 ^ 52 + magnitude.significand := by
  obtain ⟨-, upper, -⟩ := attracts.bounds
  have greatest := Nat.mul_le_mul_right (denominator * 2 ^ magnitude.scale)
    (Nat.le_sub_one_of_lt proper.significand_lt)
  have wide : denominator * 2 ^ (53 + magnitude.scale) =
      2 ^ 53 * (denominator * 2 ^ magnitude.scale) := by ring
  have step := Nat.mul_pos positive (Nat.two_pow_pos magnitude.scale)
  have small : numerator * Nat.pow 2 unitPlaces < denominator * 2 ^ (53 + magnitude.scale) := by
    rw [wide]
    rw [Nat.mul_assoc] at upper
    omega
  apply nearestBits_of_scale_eq proper positive attracts
  rcases large with least | large
  · rw [least] at small
    rw [least, scale_of_lt small]
  · exact scale_of_le_of_lt positive large small

/-- A quotient just below a power of two has the next smaller scale, and rounds up to a
significand that is too large for it by one bit. -/
theorem nearestBits_of_lt
    {scale : Nat}
    (scaleIs : magnitude.scale = scale + 1)
    (small : numerator * Nat.pow 2 unitPlaces < denominator * 2 ^ (53 + scale)) :
    nearestBits numerator denominator =
      magnitude.scale * 2 ^ 52 + magnitude.significand := by
  obtain ⟨lower, -, -⟩ := attracts.bounds
  have step := Nat.mul_pos positive (Nat.two_pow_pos scale)
  have twice : denominator * 2 ^ (scale + 1) = 2 * (denominator * 2 ^ scale) := by ring
  have wide : denominator * 2 ^ (53 + scale) = 2 ^ 53 * (denominator * 2 ^ scale) := by ring
  have narrow : denominator * 2 ^ (52 + scale) = 2 ^ 52 * (denominator * 2 ^ scale) := by ring
  have normal := proper.normal (by omega)
  have least : magnitude.significand = 2 ^ 52 := by
    by_contra notLeast
    have more := Nat.mul_le_mul_right (denominator * 2 ^ magnitude.scale)
      (show 2 ^ 52 + 1 ≤ magnitude.significand by omega)
    have gap := Nat.mul_le_mul_left denominator magnitude.gapBelow_le
    rw [scaleIs, twice] at more gap lower
    rw [wide] at small
    rw [Nat.mul_assoc] at lower
    omega
  have gap : magnitude.gapBelow = 2 ^ scale := by
    have isLeast : magnitude.significand = hiddenBit := least
    rw [Magnitude.gapBelow, if_pos isLeast, scaleIs]
    rfl
  rw [least, scaleIs, gap, twice] at lower
  rw [least, scaleIs, show (scale + 1) * 2 ^ 52 + 2 ^ 52 = scale * 2 ^ 52 + 2 ^ 53 by omega]
  have scaleBound := proper.scale_le
  refine nearestBits_eq (scale_of_le_of_lt positive ?_ small) (divideToEven_eq step ?_ ?_ ?_) ?_
  · rw [narrow]
    omega
  · omega
  · rw [wide] at small
    omega
  · exact .inl (by decide)
  · change _ ≤ 2047 * 2 ^ 52
    omega

/-- Every quotient in the interval of a magnitude is read as that magnitude. -/
theorem nearestBits_of_attracts :
    nearestBits numerator denominator =
      magnitude.scale * 2 ^ 52 + magnitude.significand := by
  by_cases large : denominator * 2 ^ (52 + magnitude.scale) ≤ numerator * Nat.pow 2 unitPlaces
  · exact nearestBits_of_le proper positive attracts (.inr large)
  · cases scaleIs : magnitude.scale with
    | zero =>
      rw [← scaleIs]
      exact nearestBits_of_le proper positive attracts (.inl scaleIs)
    | succ scale =>
      rw [← scaleIs]
      refine nearestBits_of_lt proper positive attracts scaleIs ?_
      rw [scaleIs, show 52 + (scale + 1) = 53 + scale by omega] at large
      omega

end Reading

end Binary64
end TreeWalk

import TreeWalk.Proofs.Number.Nearest
import TreeWalk.Proofs.Scan.MaximalMunch

/-!
# Written numbers are numerals

The text of a finite double without its sign is a numeral of the lexical grammar, and
the value of the numeral is that double.  For whole numbers the numeral stands for the
double itself.  For the others the search for the shortest decimal ends with a point of
the rounding interval, and every point of the interval is read as the double.
-/

namespace TreeWalk

namespace Binary64
namespace RoundingInterval

variable {interval : RoundingInterval} {tie : Decimal.Tie}

/-- A point found on a grid lies in the interval. -/
theorem contains_of_pointOnGrid?
    {step multiple : Nat}
    (found : interval.pointOnGrid? tie step = some multiple) :
    interval.contains (2 * (multiple * step)) = true := by
  unfold pointOnGrid? at found
  dsimp only at found
  split at found
  · rename_i lower upper
    cases found
    split
    · exact lower
    · exact upper
  · rename_i lower _
    cases found
    exact lower
  · rename_i _ upper
    cases found
    exact upper
  · cases found

/-- The search gives a point of the interval, since at the latest it gives the value
itself. -/
theorem contains_coarsestPoint
    (center : interval.contains (2 * interval.value) = true)
    (bound : Nat) :
    interval.contains (2 * ((interval.coarsestPoint tie bound).1 *
      10 ^ (interval.coarsestPoint tie bound).2)) = true := by
  induction bound with
  | zero => simpa [coarsestPoint] using center
  | succ bound inductionHypothesis =>
    unfold coarsestPoint
    split
    · rename_i multiple found
      exact contains_of_pointOnGrid? found
    · exact inductionHypothesis

end RoundingInterval

namespace Magnitude

variable {magnitude : Magnitude}

theorem decimalUnits_pos : 0 < decimalUnits := by
  unfold decimalUnits
  generalize unitPlaces = places
  exact Nat.pow_pos (by decide)

/-- Ten to the number of places of one unit. -/
theorem ten_pow_unitPlaces : 10 ^ unitPlaces = Nat.pow 2 unitPlaces * decimalUnits := by
  unfold decimalUnits
  generalize unitPlaces = places
  rw [Nat.pow_eq, Nat.pow_eq, ← Nat.mul_pow]

/-- The interval of a magnitude has the magnitude in it. -/
theorem contains_value (magnitude : Magnitude) :
    magnitude.roundingInterval.contains (2 * magnitude.roundingInterval.value) = true := by
  have positive := decimalUnits_pos
  have power := Nat.two_pow_pos magnitude.scale
  have smaller := Nat.two_pow_pos (magnitude.scale - 1)
  unfold roundingInterval RoundingInterval.contains
  dsimp only
  split
  · simp
  · rename_i isOdd
    have something : 0 < magnitude.significand := by
      rw [Nat.pos_iff_ne_zero]
      intro zero
      simp [zero] at isOdd
    have value : 0 < magnitude.units * decimalUnits :=
      Nat.mul_pos (Nat.mul_pos something power) positive
    have above := Nat.mul_pos power positive
    have below := Nat.mul_pos smaller positive
    rw [Nat.pow_eq, Nat.pow_eq]
    simp only [Bool.and_eq_true, decide_eq_true_eq]
    split <;> omega

/-- A quotient that equals a point of the rounding interval is read as the magnitude. -/
theorem attracts_of_contains
    {point numerator denominator : Nat}
    (positive : 0 < denominator)
    (inside : magnitude.roundingInterval.contains (2 * point) = true)
    (same : numerator * 10 ^ unitPlaces = point * denominator) :
    magnitude.Attracts numerator denominator := by
  have units := decimalUnits_pos
  have scaled : 2 * (numerator * Nat.pow 2 unitPlaces) * decimalUnits =
      2 * point * denominator := by
    rw [Nat.mul_assoc 2 point, ← same, ten_pow_unitPlaces, Nat.mul_assoc, Nat.mul_assoc]
  have lower : (2 * magnitude.units - magnitude.gapBelow) * denominator * decimalUnits =
      magnitude.roundingInterval.lower * denominator := by
    rw [Nat.mul_right_comm, Nat.sub_mul, Nat.mul_assoc 2, gapBelow]
    unfold roundingInterval
    dsimp only
    split <;> rfl
  have upper : (2 * magnitude.units + Nat.pow 2 magnitude.scale) * denominator * decimalUnits =
      magnitude.roundingInterval.upper * denominator := by
    rw [Nat.mul_right_comm, Nat.add_mul, Nat.mul_assoc 2]
    rfl
  -- Both comparisons are those of the interval, times the denominator and without the factor
  -- that turns units into decimal units.
  unfold RoundingInterval.contains at inside
  unfold Attracts
  dsimp only
  by_cases isEven : magnitude.significand % 2 = 0
  · have closed : magnitude.roundingInterval.closed = true := beq_iff_eq.mpr isEven
    rw [if_pos closed, Bool.and_eq_true, decide_eq_true_eq, decide_eq_true_eq] at inside
    rw [if_pos isEven]
    constructor
    · apply Nat.le_of_mul_le_mul_right _ units
      rw [lower, scaled]
      exact Nat.mul_le_mul_right _ inside.1
    · apply Nat.le_of_mul_le_mul_right _ units
      rw [upper, scaled]
      exact Nat.mul_le_mul_right _ inside.2
  · have isOpen : ¬ magnitude.roundingInterval.closed = true :=
      fun closed => isEven (beq_iff_eq.mp closed)
    rw [if_neg isOpen, Bool.and_eq_true, decide_eq_true_eq, decide_eq_true_eq] at inside
    rw [if_neg isEven]
    constructor
    · apply Nat.lt_of_mul_lt_mul_right (a := decimalUnits)
      rw [lower, scaled]
      exact Nat.mul_lt_mul_of_pos_right inside.1 positive
    · apply Nat.lt_of_mul_lt_mul_right (a := decimalUnits)
      rw [upper, scaled]
      exact Nat.mul_lt_mul_of_pos_right inside.2 positive

end Magnitude
end Binary64

namespace Decimal

open Lexical

theorem isDigit_of_mem_digits {n : Nat} {c : Char} (member : c ∈ digits n) : IsDigit c :=
  (isDigit_iff c).mp (Nat.isDigit_of_mem_toDigits (by decide) (by decide) member)

theorem isDigit_of_mem_zeros {count : Nat} {c : Char} (member : c ∈ List.replicate count '0') :
    IsDigit c := by
  rw [List.eq_of_mem_replicate member]
  exact (isDigit_iff '0').mp rfl

/-- Every number has a digit. -/
theorem digits_ne_nil (n : Nat) : digits n ≠ [] :=
  Nat.toDigits_ne_nil

@[simp] theorem ofDigitChars_digits (n : Nat) : Nat.ofDigitChars 10 (digits n) 0 = n :=
  Nat.ofDigitChars_ten_toDigits

/-- Digits with a point between them are a lexeme of the nearest double. -/
theorem lexeme_fraction
    {whole fraction : List Char}
    {numerator places : Nat}
    (nonempty : whole ≠ [])
    (areDigits : ∀ c ∈ whole ++ fraction, IsDigit c)
    (length : fraction.length = places + 1)
    (value : Nat.ofDigitChars 10 (whole ++ fraction) 0 = numerator) :
    Lexeme (whole ++ '.' :: fraction)
      (.number (Binary64.nearest numerator (Nat.pow 10 (places + 1)))) := by
  subst value
  rw [← length]
  rw [List.forall_mem_append] at areDigits
  exact .fraction nonempty areDigits.1 (List.ne_nil_of_length_eq_add_one length) areDigits.2

/-- A decimal without an exponent is a numeral.  Its value is a quotient, which is compared
with the decimal after both are multiplied by a power of ten that makes the decimal whole. -/
theorem lexeme_positional
    {decimal : Decimal}
    {shift power : Nat}
    (exponent : decimal.exponent = (power : Int) - shift) :
    ∃ numerator places,
      Lexeme decimal.positional (.number (Binary64.nearest numerator (Nat.pow 10 places))) ∧
        numerator * 10 ^ shift = decimal.coefficient * 10 ^ power * 10 ^ places := by
  have nonempty := digits_ne_nil decimal.coefficient
  have value := ofDigitChars_digits decimal.coefficient
  have isDigit := @isDigit_of_mem_digits decimal.coefficient
  unfold positional
  dsimp only
  generalize digits decimal.coefficient = written at *
  split
  · rename_i zeros isWhole
    have powers : power = zeros + shift := by
      rw [isWhole, Int.ofNat_eq_natCast] at exponent
      omega
    refine ⟨_, 0, .number (by simp [nonempty]) ?_, ?_⟩
    · intro c member
      rcases List.mem_append.mp member with inside | zero
      · exact isDigit inside
      · exact isDigit_of_mem_zeros zero
    · rw [List.append_nil, Nat.ofDigitChars_append, value, Nat.ofDigitChars_replicate_zero, powers]
      ring
  · rename_i below isFraction
    have powers : shift = power + (below + 1) := by
      rw [isFraction, Int.negSucc_eq] at exponent
      omega
    have scaled : decimal.coefficient * 10 ^ shift =
        decimal.coefficient * 10 ^ power * 10 ^ (below + 1) := by
      rw [powers, Nat.pow_add, Nat.mul_assoc]
    refine ⟨decimal.coefficient, below + 1, ?_, scaled⟩
    -- The point stands among the digits, or in front of them with zeros in between.
    split
    · rename_i long
      refine lexeme_fraction ?_ ?_ ?_ ?_
      · intro empty
        have := congrArg List.length empty
        simp at this
        omega
      · rw [List.take_append_drop]
        exact fun c => isDigit
      · rw [List.length_drop]
        omega
      · rw [List.take_append_drop, value]
    · rename_i short
      refine lexeme_fraction (List.cons_ne_nil '0' []) ?_ ?_ ?_
      · intro c member
        rw [List.mem_append, List.mem_append] at member
        rcases member with zero | zero | inside
        · exact @isDigit_of_mem_zeros 1 c zero
        · exact isDigit_of_mem_zeros zero
        · exact isDigit inside
      · rw [List.length_append, List.length_replicate]
        omega
      · rw [Nat.ofDigitChars_append, Nat.ofDigitChars_append, Nat.ofDigitChars_replicate_zero]
        exact value

end Decimal

namespace Binary64
namespace Magnitude

variable {magnitude : Magnitude}

/-- The double of a magnitude. -/
def double (magnitude : Magnitude) : Float :=
  Float.ofBits (UInt64.ofNat (magnitude.scale * 2 ^ 52 + magnitude.significand))

/-- How a number is written apart from its sign. -/
def text (magnitude : Magnitude) : List Char :=
  if magnitude.isWhole then Decimal.digits magnitude.whole
  else (magnitude.shortest .up).positional

/-- A value within the rounding interval rounds to the magnitude. -/
theorem nearest_of_contains
    {point numerator denominator : Nat}
    (proper : magnitude.Proper)
    (positive : 0 < denominator)
    (inside : magnitude.roundingInterval.contains (2 * point) = true)
    (same : numerator * 10 ^ unitPlaces = point * denominator) :
    nearest numerator denominator = magnitude.double := by
  have attracts := attracts_of_contains positive inside same
  rw [nearest, nearestBits_of_attracts proper positive attracts, double]

/-- The digits of a whole magnitude are a lexeme of its double. -/
theorem lexeme_whole
    (proper : magnitude.Proper)
    (isWhole : magnitude.isWhole = true) :
    Lexical.Lexeme (Decimal.digits magnitude.whole) (.number magnitude.double) := by
  have exact : magnitude.whole * Nat.pow 2 unitPlaces = magnitude.units :=
    Nat.div_mul_cancel (Nat.dvd_of_mod_eq_zero (beq_iff_eq.mp isWhole))
  have same : magnitude.whole * 10 ^ unitPlaces = magnitude.roundingInterval.value * 1 := by
    rw [ten_pow_unitPlaces, ← Nat.mul_assoc, exact, Nat.mul_one]
    rfl
  have reads := nearest_of_contains proper Nat.one_pos magnitude.contains_value same
  have numeral := Lexical.Lexeme.number (Decimal.digits_ne_nil magnitude.whole)
    fun c => Decimal.isDigit_of_mem_digits
  rw [ofDigits, List.append_nil, Decimal.ofDigitChars_digits] at numeral
  exact reads ▸ numeral

/-- Every point of the rounding interval is written as a numeral of the magnitude. -/
theorem lexeme_of_contains
    {multiple power : Nat}
    (proper : magnitude.Proper)
    (inside : magnitude.roundingInterval.contains (2 * (multiple * 10 ^ power)) = true) :
    Lexical.Lexeme (Decimal.positional ⟨multiple, (power : Int) - unitPlaces⟩)
      (.number magnitude.double) := by
  obtain ⟨numerator, places, numeral, same⟩ :=
    @Decimal.lexeme_positional ⟨multiple, (power : Int) - unitPlaces⟩ unitPlaces power rfl
  have positive : 0 < Nat.pow 10 places := Nat.pow_pos (by decide)
  rw [nearest_of_contains proper positive inside same] at numeral
  exact numeral

/-- The shortest decimal is the coarsest point in the rounding interval. -/
theorem shortest_eq (magnitude : Magnitude) (tie : Decimal.Tie) :
    magnitude.shortest tie =
      ⟨(magnitude.roundingInterval.coarsestPoint tie
          (digitBound magnitude.roundingInterval.value)).1,
        ((magnitude.roundingInterval.coarsestPoint tie
          (digitBound magnitude.roundingInterval.value)).2 : Int) - unitPlaces⟩ :=
  rfl

/-- The shortest decimal, written in positions, is a lexeme of its double. -/
theorem lexeme_shortest
    (proper : magnitude.Proper)
    (tie : Decimal.Tie) :
    Lexical.Lexeme (magnitude.shortest tie).positional (.number magnitude.double) := by
  rw [shortest_eq]
  exact lexeme_of_contains proper
    (RoundingInterval.contains_coarsestPoint magnitude.contains_value _)

/-- How a magnitude is written is a numeral of its double. -/
theorem lexeme_text (proper : magnitude.Proper) :
    Lexical.Lexeme magnitude.text (.number magnitude.double) := by
  unfold text
  split
  · rename_i isWhole
    exact lexeme_whole proper isWhole
  · exact lexeme_shortest proper .up

end Magnitude
end Binary64
end TreeWalk

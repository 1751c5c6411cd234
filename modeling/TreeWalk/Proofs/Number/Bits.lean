import Mathlib
import TreeWalk.Number.Binary64

/-!
# Bit patterns of doubles

A double is its bit pattern, which consists of a sign, an exponent and the stored part
of a significand.  Only for what is not a number are there several patterns, and one of
them is chosen.  Everywhere else a pattern can be taken apart and put together again,
and negation changes the sign alone.
-/

namespace TreeWalk
namespace Binary64

open Float.Model Float.Model.UnpackedFloat

/-- The pattern made of a sign, an exponent and the stored part of a significand. -/
abbrev pattern (sign : Sign) (exponent : BitVec 11) (stored : BitVec 52) : BitVec 64 :=
  packComponents .binary64 sign exponent stored

/-- Every pattern is made of its parts. -/
theorem exists_pattern (bits : BitVec 64) :
    ∃ sign exponent stored, bits = pattern sign exponent stored :=
  ⟨_, _, _, (@packComponents_unpackSign_unpackExponent_unpackMantissa .binary64 bits).symm⟩

/-- A pattern as a number. -/
theorem toNat_pattern (sign : Sign) (exponent : BitVec 11) (stored : BitVec 52) :
    (pattern sign exponent stored).toNat =
      sign.toBitVec.toNat * 2 ^ 63 + exponent.toNat * 2 ^ 52 + stored.toNat := by
  have appended : (pattern sign exponent stored).toNat =
      (sign.toBitVec.toNat * 2 ^ 11 + exponent.toNat) * 2 ^ 52 + stored.toNat := by
    unfold pattern packComponents
    rw [BitVec.toNat_append, ← Nat.shiftLeft_add_eq_or_of_lt stored.isLt, Nat.shiftLeft_eq,
      BitVec.toNat_append, ← Nat.shiftLeft_add_eq_or_of_lt exponent.isLt, Nat.shiftLeft_eq]
  rw [appended]
  omega

/-- A pattern that is no other NaN than the canonical one is packed as it was unpacked. -/
theorem pack_unpack_pattern
    (sign : Sign)
    (exponent : BitVec 11)
    (stored : BitVec 52)
    (isNumber : ¬ (exponent = -1#11 ∧ stored ≠ 0#52)) :
    pack .binary64 (unpack .binary64 (pattern sign exponent stored)) =
      pattern sign exponent stored := by
  rw [@pack_unpack .binary64 _ (by decide), if_neg]
  rwa [isNaNBits, unpackExponent_packComponents, unpackMantissa_packComponents, decide_eq_true_eq]

/-- Negation flips the sign of a pattern. -/
theorem neg_unpack_pattern (sign : Sign) (exponent : BitVec 11) (stored : BitVec 52) :
    (unpack .binary64 (pattern sign exponent stored)).neg =
      unpack .binary64 (pattern (-sign) exponent stored) := by
  unfold UnpackedFloat.unpack
  simp only [unpackMantissa_packComponents, unpackExponent_packComponents,
    unpackSign_packComponents, Sign.ofBitVec_toBitVec]
  split
  · split <;> rfl
  · split
    · split <;> rfl
    · rfl

/-- The largest exponent is that of no finite number. -/
theorem isFinite_unpack_pattern (sign : Sign) (stored : BitVec 52) :
    (unpack .binary64 (pattern sign (-1#11) stored)).isFinite = false := by
  unfold UnpackedFloat.unpack
  simp only [unpackMantissa_packComponents, unpackExponent_packComponents, if_true]
  split <;> rfl

/-- A pattern does not stand for a number if its exponent is the special one and its stored
part is not zero. -/
theorem notANumber_pattern_iff (sign : Sign) (exponent : BitVec 11) (stored : BitVec 52) :
    View.ofBits (pattern sign exponent stored).toNat = .notANumber ↔
      exponent = -1#11 ∧ stored ≠ 0#52 := by
  have exponentBound := exponent.isLt
  have storedBound := stored.isLt
  have exponentIs : (pattern sign exponent stored).toNat / Nat.pow 2 52 % Nat.pow 2 11 =
      exponent.toNat := by
    rw [toNat_pattern]
    change _ / 2 ^ 52 % 2 ^ 11 = _
    omega
  have storedIs : (pattern sign exponent stored).toNat % Nat.pow 2 52 = stored.toNat := by
    rw [toNat_pattern]
    change _ % 2 ^ 52 = _
    omega
  have special : exponent.toNat = specialExponent ↔ exponent = -1#11 :=
    BitVec.toNat_inj (y := -1#11)
  have nothing : stored.toNat = 0 ↔ stored = 0#52 := BitVec.toNat_inj (y := 0#52)
  unfold View.ofBits
  dsimp only
  rw [exponentIs, storedIs]
  simp only [special, nothing]
  split
  · split <;> simp_all
  · split <;> simp_all

/-- The pattern of a number is kept. -/
theorem toBits_ofBits
    {bits : UInt64}
    (isNumber : View.ofBits bits.toNat ≠ .notANumber) :
    (Float.ofBits bits).toBits = bits := by
  obtain ⟨sign, exponent, stored, parts⟩ := exists_pattern bits.toBitVec
  rw [← UInt64.toNat_toBitVec, parts] at isNumber
  have kept := pack_unpack_pattern sign exponent stored
    (mt (notANumber_pattern_iff sign exponent stored).mpr isNumber)
  rw [← parts] at kept
  exact UInt64.toBitVec_inj.mp kept

/-- All patterns that do not stand for a number make the same double. -/
theorem ofBits_of_notANumber
    {bits : UInt64}
    (notNumber : View.ofBits bits.toNat = .notANumber) :
    Float.ofBits bits = .nan := by
  obtain ⟨sign, exponent, stored, parts⟩ := exists_pattern bits.toBitVec
  rw [← UInt64.toNat_toBitVec, parts] at notNumber
  have isNaN : @isNaNBits .binary64 (pattern sign exponent stored) = true := by
    rw [isNaNBits, unpackExponent_packComponents, unpackMantissa_packComponents,
      decide_eq_true_eq]
    exact (notANumber_pattern_iff sign exponent stored).mp notNumber
  apply Float.toBits_inj.mp
  apply UInt64.toBitVec_inj.mp
  change pack .binary64 (unpack .binary64 bits.toBitVec) = packedNaN .binary64
  rw [parts, @pack_unpack .binary64 _ (by decide), if_pos isNaN]

/-- Whatever is seen as no number is the NaN. -/
theorem eq_nan_of_view {x : Float} (notNumber : view x = .notANumber) : x = .nan := by
  rw [← Float.ofBits_toBits x]
  exact ofBits_of_notANumber notNumber

/-- The view of a pattern's float is the view of the pattern. -/
theorem view_ofBits (bits : UInt64) : view (.ofBits bits) = View.ofBits bits.toNat := by
  by_cases notNumber : View.ofBits bits.toNat = .notANumber
  · rw [notNumber, ofBits_of_notANumber notNumber]
    decide
  · rw [view, toBits_ofBits notNumber]

/-- Two patterns stand for one double if they are the same, or if neither of them stands
for a number. -/
def SameDouble (first second : UInt64) : Prop :=
  View.ofBits first.toNat = .notANumber ∧ View.ofBits second.toNat = .notANumber ∨
    first = second

instance (first second : UInt64) : Decidable (SameDouble first second) :=
  inferInstanceAs (Decidable (_ ∨ _))

/-- Two patterns denote the same double when their floats are equal. -/
theorem sameDouble_iff (first second : UInt64) :
    SameDouble first second ↔ Float.ofBits first = Float.ofBits second := by
  constructor
  · rintro (⟨oneIsNot, otherIsNot⟩ | rfl)
    · rw [ofBits_of_notANumber oneIsNot, ofBits_of_notANumber otherIsNot]
    · rfl
  · intro same
    have views := congrArg view same
    rw [view_ofBits, view_ofBits] at views
    by_cases notNumber : View.ofBits first.toNat = .notANumber
    · exact .inl ⟨notNumber, views ▸ notNumber⟩
    · right
      rw [← toBits_ofBits notNumber, same, toBits_ofBits (views ▸ notNumber)]

/-- Of each double there is only one pattern in use. -/
theorem sameDouble_toBits_iff (x y : Float) : SameDouble x.toBits y.toBits ↔ x = y := by
  rw [sameDouble_iff, Float.ofBits_toBits, Float.ofBits_toBits]

/-- Negation changes the sign of a number. -/
theorem toNat_toBits_neg
    {x : Float}
    (isNumber : view x ≠ .notANumber) :
    (-x).toBits.toNat = (x.toBits.toNat + 2 ^ 63) % 2 ^ 64 := by
  obtain ⟨sign, exponent, stored, parts⟩ := exists_pattern x.toBits.toBitVec
  rw [view, ← UInt64.toNat_toBitVec, parts] at isNumber
  have negated : (-x).toBits.toBitVec = pattern (-sign) exponent stored := by
    change pack .binary64 (unpack .binary64 x.toBits.toBitVec).neg = _
    rw [parts, neg_unpack_pattern, pack_unpack_pattern _ _ _
      (mt (notANumber_pattern_iff sign exponent stored).mpr isNumber)]
  have exponentBound := exponent.isLt
  have storedBound := stored.isLt
  rw [← UInt64.toNat_toBitVec, ← UInt64.toNat_toBitVec, negated, parts, toNat_pattern,
    toNat_pattern]
  cases sign with
  | negative =>
    change 0 * _ + _ + _ = (1 * _ + _ + _ + _) % _
    omega
  | positive =>
    change 1 * _ + _ + _ = (0 * _ + _ + _ + _) % _
    omega

end Binary64
end TreeWalk

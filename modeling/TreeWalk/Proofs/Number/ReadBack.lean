import TreeWalk.Proofs.Number.Shortest
import TreeWalk.Proofs.Parse.Completeness
import TreeWalk.Session

/-!
# Printed numbers read back

A finite double is printed as a numeral, after a minus sign if it is negative.  As the
source text of an expression this is a literal, or a literal under a unary minus.  Main
statement: the printed text of every finite double is an expression without errors, and
its value is that double, bit by bit.
-/

namespace TreeWalk

namespace Binary64

open Float.Model Float.Model.UnpackedFloat

/-- The sign bit of a pattern of 64 bits. -/
theorem signBit_eq
    {bits : Nat}
    (bounded : bits < 2 ^ 64) :
    (if bits / Nat.pow 2 63 % 2 == 1 then 2 ^ 63 else 0) = bits / 2 ^ 63 * 2 ^ 63 := by
  rw [Nat.pow_eq]
  split
  · rename_i isOne
    rw [beq_iff_eq] at isOne
    omega
  · rename_i isZero
    rw [beq_iff_eq] at isZero
    omega

/-- The bits of a finite pattern are its sign and those of its magnitude. -/
theorem magnitude_of_ofBits
    {bits : Nat}
    {negative : Bool}
    {magnitude : Magnitude}
    (bounded : bits < 2 ^ 64)
    (isFinite : View.ofBits bits = .finite negative magnitude) :
    magnitude.Proper ∧
      bits = (if negative then 2 ^ 63 else 0) +
        (magnitude.scale * 2 ^ 52 + magnitude.significand) := by
  unfold View.ofBits at isFinite
  dsimp only at isFinite
  split at isFinite
  · split at isFinite <;> cases isFinite
  · rename_i notSpecial
    change bits / 2 ^ 52 % 2 ^ 11 ≠ 2047 at notSpecial
    split at isFinite
    · rename_i isZero
      change bits / 2 ^ 52 % 2 ^ 11 = 0 at isZero
      cases isFinite
      rw [signBit_eq bounded]
      refine ⟨⟨?_, Nat.zero_le _, fun impossible => absurd impossible (Nat.lt_irrefl 0)⟩, ?_⟩
      · change bits % 2 ^ 52 < 2 ^ 53
        omega
      · change bits = _ + (0 * 2 ^ 52 + bits % 2 ^ 52)
        omega
    · rename_i notZero
      change ¬ bits / 2 ^ 52 % 2 ^ 11 = 0 at notZero
      cases isFinite
      rw [signBit_eq bounded]
      refine ⟨⟨?_, ?_, fun _ => Nat.le_add_right _ _⟩, ?_⟩
      · change 2 ^ 52 + bits % 2 ^ 52 < 2 ^ 53
        omega
      · change bits / 2 ^ 52 % 2 ^ 11 - 1 ≤ 2045
        omega
      · change bits = _ + ((bits / 2 ^ 52 % 2 ^ 11 - 1) * 2 ^ 52 + (2 ^ 52 + bits % 2 ^ 52))
        omega

/-- A pattern is finite unless its exponent is the special one. -/
theorem ofBits_finite
    {bits : Nat}
    (notSpecial : bits / 2 ^ 52 % 2 ^ 11 ≠ 2047) :
    ∃ negative magnitude, View.ofBits bits = .finite negative magnitude := by
  have notSpecial : ¬ bits / Nat.pow 2 52 % Nat.pow 2 11 = specialExponent := notSpecial
  unfold View.ofBits
  dsimp only
  rw [if_neg notSpecial]
  split
  · exact ⟨_, _, rfl⟩
  · exact ⟨_, _, rfl⟩

/-- Patterns up to infinity are numbers. -/
theorem ofBits_ne_notANumber
    {bits : Nat}
    (bounded : bits ≤ infinityBits) :
    View.ofBits bits ≠ .notANumber := by
  change bits ≤ 2047 * 2 ^ 52 at bounded
  by_cases special : bits / 2 ^ 52 % 2 ^ 11 = 2047
  · have isSpecial : bits / Nat.pow 2 52 % Nat.pow 2 11 = specialExponent := special
    have nothing : bits % Nat.pow 2 52 = 0 := by
      change bits % 2 ^ 52 = 0
      omega
    unfold View.ofBits
    dsimp only
    rw [if_pos isSpecial, if_pos nothing]
    exact View.noConfusion
  · obtain ⟨_, _, isFinite⟩ := ofBits_finite special
    rw [isFinite]
    exact View.noConfusion

/-- A finite float has a sign and a magnitude. -/
theorem view_of_isFinite {x : Float} (isFinite : x.isFinite = true) :
    ∃ negative magnitude, view x = .finite negative magnitude := by
  obtain ⟨sign, exponent, stored, parts⟩ := exists_pattern x.toBits.toBitVec
  change (unpack .binary64 x.toBits.toBitVec).isFinite = true at isFinite
  rw [parts] at isFinite
  have notSpecial : exponent.toNat ≠ 2047 := by
    intro special
    obtain rfl : exponent = -1#11 := BitVec.eq_of_toNat_eq special
    rw [isFinite_unpack_pattern] at isFinite
    cases isFinite
  apply ofBits_finite
  rw [← UInt64.toNat_toBitVec, parts, toNat_pattern]
  have storedBound := stored.isLt
  have exponentBound := exponent.isLt
  omega

namespace Magnitude

variable {magnitude : Magnitude}

/-- The bits of the double of a magnitude. -/
theorem toNat_toBits_double (proper : magnitude.Proper) :
    magnitude.double.toBits.toNat = magnitude.scale * 2 ^ 52 + magnitude.significand := by
  have bits : (UInt64.ofNat (magnitude.scale * 2 ^ 52 + magnitude.significand)).toNat =
      magnitude.scale * 2 ^ 52 + magnitude.significand := by
    obtain ⟨significandBound, scaleBound, -⟩ := proper
    rw [UInt64.toNat_ofNat']
    exact Nat.mod_eq_of_lt (by omega)
  rw [double, toBits_ofBits (bits.symm ▸ ofBits_ne_notANumber proper.finite), bits]

end Magnitude

/-- A finite double is the double of its magnitude, negated if it is negative. -/
theorem eq_of_view
    {x : Float}
    {negative : Bool}
    {magnitude : Magnitude}
    (isFinite : view x = .finite negative magnitude) :
    magnitude.Proper ∧ x = if negative then -magnitude.double else magnitude.double := by
  obtain ⟨proper, bits⟩ := magnitude_of_ofBits x.toBits.toNat_lt isFinite
  have doubleBits := Magnitude.toNat_toBits_double proper
  refine ⟨proper, Float.toBits_inj.mp (UInt64.toNat_inj.mp ?_)⟩
  cases negative with
  | false =>
    rw [if_neg Bool.false_ne_true, doubleBits, bits]
    simp
  | true =>
    have isNumber : view magnitude.double ≠ .notANumber := by
      rw [view, doubleBits]
      exact ofBits_ne_notANumber proper.finite
    obtain ⟨significandBound, scaleBound, -⟩ := proper
    rw [if_pos rfl, toNat_toBits_neg isNumber, doubleBits, bits, if_pos rfl]
    omega

/-- A finite float is shown as its sign and its magnitude's text. -/
theorem display_of_view
    {x : Float}
    {negative : Bool}
    {magnitude : Magnitude}
    (isFinite : view x = .finite negative magnitude) :
    Number.display x = Number.signed negative magnitude.text := by
  rw [Number.display, isFinite]
  rfl

/-- Rounding goes no further than infinity. -/
theorem nearestBits_le (numerator denominator : Nat) :
    nearestBits numerator denominator ≤ infinityBits :=
  Nat.min_le_right _ _

/-- What is read from digits has no sign. -/
theorem not_negative_of_view_nearest
    {numerator denominator : Nat}
    {negative : Bool}
    {magnitude : Magnitude}
    (isFinite : view (nearest numerator denominator) = .finite negative magnitude) :
    negative = false := by
  have bounded := nearestBits_le numerator denominator
  have isNumber := ofBits_ne_notANumber bounded
  change _ ≤ 2047 * 2 ^ 52 at bounded
  have bits : (UInt64.ofNat (nearestBits numerator denominator)).toNat =
      nearestBits numerator denominator := by
    rw [UInt64.toNat_ofNat']
    exact Nat.mod_eq_of_lt (by omega)
  rw [view, nearest, toBits_ofBits (bits.symm ▸ isNumber), bits] at isFinite
  have parts := (magnitude_of_ofBits (by omega) isFinite).2
  cases negative with
  | false => rfl
  | true =>
    rw [if_pos rfl] at parts
    omega

end Binary64

namespace Piece

open Lexical

theorem next_of_isDigit
    {first : Char}
    (isDigit : first.isDigit = true)
    (rest : List Char) :
    next first rest = takeNumber first rest := by
  refine next_of_digit ?_ ?_ isDigit rest
  · intro isBlank
    simp only [isBlank_iff, blanks, List.mem_cons, List.not_mem_nil, or_false] at isBlank
    rcases isBlank with rfl | rfl | rfl | rfl <;> cases isDigit
  · intro begins
    rw [not_isDigit_of_beginsWord begins] at isDigit
    cases isDigit

theorem takeWhile_of_digits
    {digits : List Char}
    (areDigits : ∀ c ∈ digits, IsDigit c) :
    digits.takeWhile Char.isDigit = digits := by
  have stops := @List.takeWhile_append_of_pos _ _ digits []
    fun c member => (isDigit_iff c).mpr (areDigits c member)
  simpa using stops

/-- A numeral is a single piece. -/
theorem cut_number
    {text : List Char}
    {value : Float}
    (lexeme : Lexeme text (.number value)) :
    cut text = [⟨text, .token (.number value)⟩] := by
  cases lexeme with
  | number nonempty digits =>
    obtain ⟨first, rest, rfl⟩ := List.exists_cons_of_ne_nil nonempty
    rw [List.forall_mem_cons] at digits
    have taken := @takeNumber_of_stops first rest [] rfl rfl
    rw [takeWhile_of_digits digits.2, List.append_nil] at taken
    rw [cut_cons, next_of_isDigit ((isDigit_iff first).mpr digits.1), taken, cut_nil]
  | fraction nonempty digits someFraction moreDigits =>
    obtain ⟨first, rest, rfl⟩ := List.exists_cons_of_ne_nil nonempty
    obtain ⟨next, others, rfl⟩ := List.exists_cons_of_ne_nil someFraction
    rw [List.forall_mem_cons] at digits moreDigits
    have taken := @takeNumber_of_fraction first next rest others []
      ((isDigit_iff next).mpr moreDigits.1) rfl
    rw [takeWhile_of_digits digits.2, takeWhile_of_digits moreDigits.2, List.append_nil] at taken
    rw [List.cons_append, cut_cons, next_of_isDigit ((isDigit_iff first).mpr digits.1), taken,
      cut_nil]

/-- A minus sign is a piece of its own, whatever follows it. -/
theorem cut_minus (rest : List Char) :
    cut ('-' :: rest) = ⟨['-'], .token (.symbol .minus)⟩ :: cut rest := by
  have taken : next '-' rest = single '-' rest (.token (.symbol .minus)) := by
    have symbol := @next_of_symbol '-' rest (by decide) (by decide) (by decide) (by decide)
      (fun _ slash _ => absurd slash (by decide)) (fun _ slash _ => absurd slash (by decide))
      .minus rfl
    rw [symbol]
    exact takeSymbol_single '-' fun _ _ longer _ => nomatch longer
  rw [cut_cons, taken]
  rfl

end Piece

namespace Scan

/-- A source that is cut into tokens alone has no faults, and its tokens are of these
kinds. -/
theorem kinds_of_cut
    {source : String}
    {kinds : List Token.Kind}
    (isCut : (Piece.cut source.toList).map Piece.content = kinds.map .token) :
    (ofSource source).errors = [] ∧ (ofSource source).tokens.map Token.kind = kinds := by
  constructor
  · rw [errors_eq_nil_iff]
    intro piece member fault isFault
    have content := List.mem_map_of_mem (f := Piece.content) member
    rw [isCut, isFault] at content
    simp at content
  · rw [tokens_eq_filterMap, items_ofSource]
    generalize 1 = line
    generalize Piece.cut source.toList = pieces at isCut
    induction pieces generalizing kinds line with
    | nil =>
      rw [List.map_nil, eq_comm, List.map_eq_nil_iff] at isCut
      rw [isCut]
      rfl
    | cons first others inductionHypothesis =>
      rw [List.map_cons, eq_comm, List.map_eq_cons_iff] at isCut
      obtain ⟨kind, otherKinds, rfl, isToken, othersCut⟩ := isCut
      rw [itemsFrom, List.filterMap_append, List.map_append,
        inductionHypothesis _ othersCut.symm, Piece.item?, ← isToken]
      rfl

end Scan

namespace Grammar

/-- An operand of operators is an expression. -/
theorem Expression.of_unary
    {room first next : Nat}
    {tokens : List Token}
    {result : Expr}
    (derived : Unary (Operand room) (Expression room) first tokens result next) :
    Expression (room + 1) first tokens result next := by
  rw [Expression]
  exact .operators (.operand (.operand (.operand (.operand (.operand (.operand derived))))))

/-- A number is an operand by itself. -/
theorem Unary.of_number
    {operand expression : Phrase Expr}
    {first : Nat}
    {token : Token}
    {value : Float}
    (isNumber : token.kind = .number value) :
    Unary operand expression first [token] (.literal (.number value)) first :=
  .call (.primary (.literal (by rw [isNumber]; rfl)))

end Grammar

namespace Number

open Binary64 Lexical

/-- The source text of a numeral is a literal. -/
theorem parseExpression_numeral
    {text : List Char}
    {value : Float}
    (lexeme : Lexeme text (.number value)) :
    parseExpression (String.ofList text) = ⟨some (.literal (.number value)), 0, []⟩ := by
  obtain ⟨clean, kinds⟩ := @Scan.kinds_of_cut (String.ofList text) [.number value] (by
    rw [String.toList_ofList, Piece.cut_number lexeme]
    rfl)
  apply parseExpression_of_derived clean
  obtain ⟨token, isOnly, isNumber⟩ := List.map_eq_singleton_iff.mp kinds
  rw [isOnly]
  exact .of_unary (.of_number isNumber)

/-- The source text of a numeral after a minus sign is a literal under that operator. -/
theorem parseExpression_minus_numeral
    {text : List Char}
    {value : Float}
    (lexeme : Lexeme text (.number value)) :
    ∃ operator : Token, operator.kind = .symbol .minus ∧
      parseExpression (String.ofList ('-' :: text)) =
        ⟨some (.unary operator (.literal (.number value))), 0, []⟩ := by
  obtain ⟨clean, kinds⟩ := @Scan.kinds_of_cut (String.ofList ('-' :: text))
    [.symbol .minus, .number value] (by
      rw [String.toList_ofList, Piece.cut_minus, Piece.cut_number lexeme]
      rfl)
  obtain ⟨operator, others, isFirst, isMinus, otherKinds⟩ := List.map_eq_cons_iff.mp kinds
  obtain ⟨token, rfl, isNumber⟩ := List.map_eq_singleton_iff.mp otherKinds
  refine ⟨operator, isMinus, parseExpression_of_derived clean ?_⟩
  rw [isFirst]
  exact .of_unary (.operator (by simp [isMinus]) (.of_number isNumber))

@[simp] theorem signed_true (text : List Char) : signed true text = String.ofList ('-' :: text) :=
  rfl

@[simp] theorem signed_false (text : List Char) : signed false text = String.ofList text :=
  rfl

/-- A number evaluates to itself. -/
theorem evaluateOn_number (fuel : Nat) (value : Float) (machine : Machine) :
    evaluateOn (fuel + 1) (.literal (.number value)) machine =
      some (.ok (.number value), machine) :=
  rfl

/-- A number behind a minus sign evaluates to its negation. -/
theorem evaluateOn_minus_number
    {operator : Token}
    (isMinus : operator.kind = .symbol .minus)
    (fuel : Nat)
    (value : Float)
    (machine : Machine) :
    evaluateOn (fuel + 2) (.unary operator (.literal (.number value))) machine =
      some (.ok (.number (-value)), machine) := by
  have applied : Eval.evaluate (fuel + 2) (.unary operator (.literal (.number value))) machine =
      .ok (.number (-value)) machine := by
    change Eval.applyUnary operator (.number value) machine = _
    rw [Eval.applyUnary, isMinus]
    rfl
  rw [evaluateOn, applied]

/-- A finite number that is read from digits is printed as a numeral of that number. -/
theorem lexeme_display
    {text : List Char}
    {value : Float}
    (lexeme : Lexeme text (.number value))
    (isFinite : value.isFinite = true) :
    Lexeme (display value).toList (.number value) := by
  obtain ⟨negative, magnitude, isView⟩ := view_of_isFinite isFinite
  obtain ⟨proper, isDouble⟩ := eq_of_view isView
  have notNegative : negative = false := by
    cases lexeme with
    | number => exact not_negative_of_view_nearest isView
    | fraction => exact not_negative_of_view_nearest isView
  subst notNegative
  rw [if_neg Bool.false_ne_true] at isDouble
  rw [display_of_view isView, signed_false, String.toList_ofList, isDouble]
  exact Magnitude.lexeme_text proper

/-- The printed text of every finite double is an expression without errors whose value
is that double, bit by bit. -/
theorem printed_number_reads_back
    (x : Float)
    (isFinite : x.isFinite = true) :
    ∃ expression : Expr,
      (parseExpression (display x)).result = some expression ∧
        (parseExpression (display x)).errors = [] ∧
        ∀ (fuel : Nat) (machine : Machine), ∃ value : Float,
          evaluateOn (fuel + 2) expression machine = some (.ok (.number value), machine) ∧
            value.toBits = x.toBits := by
  obtain ⟨negative, magnitude, isView⟩ := view_of_isFinite isFinite
  obtain ⟨proper, isDouble⟩ := eq_of_view isView
  have lexeme := Magnitude.lexeme_text proper
  rw [display_of_view isView]
  cases negative with
  | false =>
    rw [if_neg Bool.false_ne_true] at isDouble
    rw [signed_false, parseExpression_numeral lexeme, isDouble]
    exact ⟨_, rfl, rfl, fun fuel machine => ⟨_, evaluateOn_number (fuel + 1) _ machine, rfl⟩⟩
  | true =>
    rw [if_pos rfl] at isDouble
    obtain ⟨operator, isMinus, parsed⟩ := parseExpression_minus_numeral lexeme
    rw [signed_true, parsed, isDouble]
    exact ⟨_, rfl, rfl,
      fun fuel machine => ⟨_, evaluateOn_minus_number isMinus fuel _ machine, rfl⟩⟩

/-- The negative double nearest to zero, whose text has more than three hundred zeros. -/
theorem printed_number_reads_back_least :
    (Float.ofBits 0x8000000000000001).isFinite = true ∧
      ∃ expression : Expr,
        (parseExpression (display (Float.ofBits 0x8000000000000001))).result = some expression ∧
          (parseExpression (display (Float.ofBits 0x8000000000000001))).errors = [] ∧
          ∀ (fuel : Nat) (machine : Machine), ∃ value : Float,
            evaluateOn (fuel + 2) expression machine = some (.ok (.number value), machine) ∧
              value.toBits = (Float.ofBits 0x8000000000000001).toBits :=
  ⟨by decide, printed_number_reads_back _ (by decide)⟩

end Number
end TreeWalk

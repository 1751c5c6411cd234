import TreeWalk.Proofs.Number.ReadBack

/-!
# Equality of values

Plain values are equal if they are the same, and other values are equal if they refer to
the same place.  Numbers are compared by their bit patterns, where all patterns that do
not stand for a number count as one.  Main statement: this rule is what the operator `==`
computes; it is an equivalence; equal values look alike; and a plain value equals every
value that has its type and is written as it is.  The last part rests on the texts of
numbers, which tell all doubles apart.
-/

namespace TreeWalk

namespace Binary64

/-- The bits of an infinity are its sign and those of the positive infinity. -/
theorem toNat_of_infinite
    {bits : Nat}
    {negative : Bool}
    (bounded : bits < 2 ^ 64)
    (isInfinite : View.ofBits bits = .infinite negative) :
    bits = (if negative then 2 ^ 63 else 0) + infinityBits := by
  change bits = _ + 2047 * 2 ^ 52
  unfold View.ofBits at isInfinite
  dsimp only at isInfinite
  split at isInfinite
  · rename_i special
    change bits / 2 ^ 52 % 2 ^ 11 = 2047 at special
    split at isInfinite
    · rename_i nothing
      change bits % 2 ^ 52 = 0 at nothing
      cases isInfinite
      rw [signBit_eq bounded]
      omega
    · cases isInfinite
  · split at isInfinite <;> cases isInfinite

end Binary64

namespace Number

open Binary64

/-- Whether a double is written with a minus sign. -/
def isNegative : View -> Bool
  | .notANumber => false
  | .infinite negative => negative
  | .finite negative _ => negative

/-- How a double is written apart from its sign. -/
def bareText : View -> List Char
  | .notANumber => "NaN".toList
  | .infinite _ => "Infinity".toList
  | .finite _ magnitude => magnitude.text

/-- The token that the text of a double is apart from its sign. -/
def bareKind : View -> Token.Kind
  | .notANumber => .identifier
  | .infinite _ => .identifier
  | .finite _ magnitude => .number magnitude.double

/-- A number is shown as its sign and its bare text. -/
theorem display_eq (x : Float) :
    display x = signed (isNegative (view x)) (bareText (view x)) := by
  rw [display]
  cases view x <;> rfl

/-- The bare text of a number is one token. -/
theorem cut_bareText (x : Float) :
    Piece.cut (bareText (view x)) = [⟨bareText (view x), .token (bareKind (view x))⟩] := by
  cases isView : view x with
  | notANumber =>
    have word : Piece.cut "NaN".toList = [⟨"NaN".toList, .token .identifier⟩] := by
      decide +kernel
    exact word
  | infinite negative =>
    have word : Piece.cut "Infinity".toList = [⟨"Infinity".toList, .token .identifier⟩] := by
      decide +kernel
    exact word
  | finite negative magnitude =>
    exact Piece.cut_number (Magnitude.lexeme_text (eq_of_view isView).1)

/-- A number is written as a single token, after a minus sign if it is negative. -/
theorem cut_display (x : Float) :
    Piece.cut (display x).toList =
      (if isNegative (view x) then [⟨['-'], .token (.symbol .minus)⟩] else []) ++
        [⟨bareText (view x), .token (bareKind (view x))⟩] := by
  rw [display_eq]
  cases isNegative (view x) with
  | false =>
    rw [signed_false, String.toList_ofList, cut_bareText]
    rfl
  | true =>
    rw [signed_true, String.toList_ofList, Piece.cut_minus, cut_bareText]
    rfl

/-- The text of a number tells its sign and the token that follows it. -/
theorem sign_and_token_of_display
    {x y : Float}
    (same : display x = display y) :
    isNegative (view x) = isNegative (view y) ∧
      bareText (view x) = bareText (view y) ∧
      bareKind (view x) = bareKind (view y) := by
  have pieces := congrArg (fun text => Piece.cut text.toList) same
  simp only [cut_display] at pieces
  obtain ⟨signs, tokens⟩ := List.append_inj' pieces rfl
  refine ⟨?_, by simpa using tokens⟩
  cases xSign : isNegative (view x) <;> cases ySign : isNegative (view y) <;> simp_all

/-- Doubles that are written alike are the same. -/
theorem display_injective : Function.Injective display := by
  intro x y same
  obtain ⟨sameSign, sameText, sameKind⟩ := sign_and_token_of_display same
  generalize xView : view x = xSeen at sameSign sameText sameKind
  generalize yView : view y = ySeen at sameSign sameText sameKind
  match xSeen, ySeen with
  | .notANumber, .notANumber => rw [eq_nan_of_view xView, eq_nan_of_view yView]
  | .infinite _, .infinite _ =>
    cases sameSign
    apply Float.toBits_inj.mp
    apply UInt64.toNat_inj.mp
    rw [toNat_of_infinite x.toBits.toNat_lt xView, toNat_of_infinite y.toBits.toNat_lt yView]
  | .finite _ _, .finite _ _ =>
    -- The numeral is scanned as one number, so the magnitudes have the same double.
    cases sameSign
    rw [(eq_of_view xView).2, (eq_of_view yView).2, Token.Kind.number.inj sameKind]
  | .notANumber, .infinite _ => cases sameText
  | .infinite _, .notANumber => cases sameText
  | .notANumber, .finite _ _ => cases sameKind
  | .infinite _, .finite _ _ => cases sameKind
  | .finite _ _, .notANumber => cases sameKind
  | .finite _ _, .infinite _ => cases sameKind

end Number

namespace Value

open Binary64

/-- The rule by which two values are equal. -/
def equals : Value -> Value -> Bool
  | null, null => true
  | boolean left, boolean right => left == right
  | number left, number right => SameDouble left.toBits right.toBits
  | string left, string right => left == right
  | native left, native right => left == right
  | function left, function right => left == right
  | classObject left, classObject right => left == right
  | object left, object right => left == right
  | _, _ => false

/-- Two values are equal in the language when they are the same value. -/
theorem equals_iff (left right : Value) : left.equals right = true ↔ left = right := by
  cases left <;> cases right <;> simp [equals, sameDouble_toBits_iff]

/-- Equality in the language is an equivalence. -/
theorem equivalence_equals : Equivalence fun left right : Value => left.equals right = true := by
  simp only [equals_iff]
  exact eq_equivalence

/-- Numbers are equal exactly if the patterns they are made from stand for one double. -/
theorem equals_ofBits_iff (first second : UInt64) :
    (number (.ofBits first)).equals (number (.ofBits second)) = true ↔
      SameDouble first second := by
  rw [equals_iff, number.injEq, sameDouble_iff]

/-- The operator `==` computes whether its operands are equal, and changes nothing. -/
theorem applyBinary_of_equalEqual
    {operator : Token}
    (isEquality : operator.kind = .symbol .equalEqual)
    (left right : Value)
    (machine : Machine) :
    Eval.applyBinary operator left right machine =
      .ok (.boolean (left.equals right)) machine := by
  have rule : left.equals right = decide (left = right) := by
    rw [Bool.eq_iff_iff, equals_iff, decide_eq_true_eq]
  unfold Eval.applyBinary
  rw [rule, isEquality]
  rfl

end Value

/-- What can be seen of a value: the name of its type, its text, whether it counts as
true, and the number of arguments it takes if it can be called. -/
structure Appearance where
  typeName : String
  text : String
  isTruthy : Bool
  arity : Option Nat
deriving DecidableEq

/-- How a value looks. -/
def Heap.appearance (heap : Heap) (value : Value) : Appearance where
  typeName := value.typeName
  text := heap.display value
  isTruthy := value.isTruthy
  arity := heap.arity? value

namespace Value

variable {left right : Value}

/-- Equal values look the same. -/
theorem appearance_of_equals
    (heap : Heap)
    (equal : left.equals right = true) :
    heap.appearance left = heap.appearance right := by
  rw [(equals_iff left right).mp equal]

/-- A plain value is the same as any value that has its type and is written as it is. -/
theorem eq_of_typeName_of_display
    {heap : Heap}
    (plain : left.isPlain = true)
    (sameType : left.typeName = right.typeName)
    (sameText : heap.display left = heap.display right) :
    left = right := by
  cases left with
  | null =>
    cases right with
    | null => rfl
    | _ => simp [typeName] at sameType
  | boolean value =>
    cases right with
    | boolean other =>
      cases value <;> cases other <;> simp [Heap.display] at sameText ⊢
    | _ => simp [typeName] at sameType
  | number x =>
    cases right with
    | number y => rw [Number.display_injective sameText]
    | _ => simp [typeName] at sameType
  | string text =>
    cases right with
    | string other => rw [show text = other from sameText]
    | _ => simp [typeName] at sameType
  | _ => cases plain

end Value

/-- Equality is an equivalence that agrees with what can be seen.  On every machine the
operator `==` tells whether two values are equal by the rule; the rule is reflexive,
symmetric and transitive; equal values look alike; a value that is null, a boolean, a
number or a string equals exactly those values that have its type and are written as it
is; and numbers are equal exactly if the patterns they are made from are the same or both
stand for no number. -/
theorem equal_values_look_alike (machine : Machine) :
    (∀ (operator : Token) (left right : Value), operator.kind = .symbol .equalEqual ->
      Eval.applyBinary operator left right machine =
        .ok (.boolean (left.equals right)) machine) ∧
    Equivalence (fun left right : Value => left.equals right = true) ∧
    (∀ left right : Value, left.equals right = true ->
      machine.heap.appearance left = machine.heap.appearance right) ∧
    (∀ left right : Value, left.isPlain = true ->
      (left.equals right = true ↔
        left.typeName = right.typeName ∧
          machine.heap.display left = machine.heap.display right)) ∧
    ∀ first second : UInt64,
      (Value.number (.ofBits first)).equals (.number (.ofBits second)) = true ↔
        Binary64.SameDouble first second := by
  refine ⟨?_, Value.equivalence_equals, ?_, ?_, Value.equals_ofBits_iff⟩
  · intro operator left right isEquality
    exact Value.applyBinary_of_equalEqual isEquality left right machine
  · intro left right equal
    exact Value.appearance_of_equals machine.heap equal
  · intro left right isPlain
    rw [Value.equals_iff]
    constructor
    · rintro rfl
      exact ⟨rfl, rfl⟩
    · rintro ⟨sameType, sameText⟩
      exact Value.eq_of_typeName_of_display isPlain sameType sameText

/-- A machine that has run nothing, with a clock that stands still. -/
def idleMachine : Machine :=
  .fresh { reading := fun _ => 0 } {}

/-- The operator `==` on the first line. -/
def equalityOperator : Token :=
  ⟨.symbol .equalEqual, "==", 1⟩

/-- Two patterns of different signs that stand for no number make equal values, and the
two zeros make values that differ and are written differently. -/
theorem equal_values_look_alike_signs :
    Eval.applyBinary equalityOperator (.number (.ofBits 0x7ff8000000000000))
        (.number (.ofBits 0xfff0000000000001)) idleMachine =
      .ok (.boolean true) idleMachine ∧
    idleMachine.heap.appearance (.number (.ofBits 0x7ff8000000000000)) =
      idleMachine.heap.appearance (.number (.ofBits 0xfff0000000000001)) ∧
    Eval.applyBinary equalityOperator (.number (.ofBits 0))
        (.number (.ofBits 0x8000000000000000)) idleMachine =
      .ok (.boolean false) idleMachine ∧
    idleMachine.heap.display (.number (.ofBits 0)) ≠
      idleMachine.heap.display (.number (.ofBits 0x8000000000000000)) := by
  obtain ⟨computes, -, looks, plain, patterns⟩ := equal_values_look_alike idleMachine
  have equal : (Value.number (.ofBits 0x7ff8000000000000)).equals
      (.number (.ofBits 0xfff0000000000001)) = true := by
    rw [patterns]
    decide
  have unequal : (Value.number (.ofBits 0)).equals
      (.number (.ofBits 0x8000000000000000)) = false := by
    rw [Bool.eq_false_iff, Ne, patterns]
    decide
  refine ⟨?_, looks _ _ equal, ?_, fun sameText => ?_⟩
  · rw [computes _ _ _ rfl, equal]
  · rw [computes _ _ _ rfl, unequal]
  · have same := (plain (.number (.ofBits 0)) (.number (.ofBits 0x8000000000000000)) rfl).mpr
      ⟨rfl, sameText⟩
    rw [unequal] at same
    cases same

end TreeWalk

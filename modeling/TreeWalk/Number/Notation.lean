import TreeWalk.Number.Decimal

/-!
# How numbers are written

Three notations are in use.  `Number.display` is what a program prints,
`Number.tokenText` is the payload of a number token in a token listing, and
`Number.jsonText` is the same payload in a JSON document.
-/

namespace TreeWalk

namespace Decimal

/-- The decimal digits of a natural number. -/
def digits (n : Nat) : List Char :=
  Nat.toDigits 10 n

/-- Write a decimal without an exponent. -/
def positional (decimal : Decimal) : List Char :=
  let written := digits decimal.coefficient
  match decimal.exponent with
  | .ofNat zeros => written ++ List.replicate zeros '0'
  | .negSucc below =>
    let places := below + 1
    if places < written.length then
      written.take (written.length - places) ++ '.' :: written.drop (written.length - places)
    else
      '0' :: '.' :: (List.replicate (places - written.length) '0' ++ written)

/-- The power of ten of the leading digit. -/
def leadingExponent (decimal : Decimal) : Int :=
  decimal.exponent + (digits decimal.coefficient).length - 1

/-- Write a decimal with one digit before the point and a signed exponent. -/
def scientific (decimal : Decimal) : List Char :=
  let mantissa :=
    match digits decimal.coefficient with
    | leading :: next :: others => leading :: '.' :: next :: others
    | short => short
  let exponent :=
    match decimal.leadingExponent with
    | .ofNat e => '+' :: digits e
    | .negSucc e => '-' :: digits (e + 1)
  mantissa ++ 'e' :: exponent

end Decimal

namespace Number

open Binary64

/-- Put a minus sign before the text of a negative number. -/
def signed (negative : Bool) (text : List Char) : String :=
  String.ofList (if negative then '-' :: text else text)

/-- The text of a number in program output: whole numbers with all their
digits, others in the fewest digits that read back, and never an exponent. -/
def display (x : Float) : String :=
  match view x with
  | .notANumber => "NaN"
  | .infinite negative => signed negative "Infinity".toList
  | .finite negative magnitude =>
    signed negative <|
      if magnitude.isWhole then
        Decimal.digits magnitude.whole
      else
        (magnitude.shortest .up).positional

/-- The bound below which a whole number is listed with all its digits. -/
def listedExactlyBelow : Nat := Nat.pow 2 63

/-- The text of a number in a token listing.  Small whole numbers end in `.0`
and a zero has no sign. -/
def tokenText (x : Float) : String :=
  match view x with
  | .notANumber => "NaN"
  | .infinite negative => signed negative "inf".toList
  | .finite negative magnitude =>
    if magnitude.isWhole && magnitude.whole < listedExactlyBelow then
      signed (negative && magnitude.whole != 0) (Decimal.digits magnitude.whole ++ ['.', '0'])
    else
      signed negative (magnitude.shortest .up).positional

/-- The least leading exponent that JSON numbers write without an exponent. -/
def jsonLeastPlainExponent : Int := -5

/-- The least leading exponent that JSON numbers write with an exponent
again. -/
def jsonPlainExponentBound : Int := 16

/-- The text of a positive decimal in a JSON document, which always has a point
or an exponent. -/
def jsonDecimal (decimal : Decimal) : List Char :=
  let exponent := decimal.leadingExponent
  if jsonLeastPlainExponent ≤ exponent && exponent < jsonPlainExponentBound then
    if 0 ≤ decimal.exponent then
      decimal.positional ++ ['.', '0']
    else
      decimal.positional
  else
    decimal.scientific

/-- The text of a number in a JSON document. -/
def jsonText (x : Float) : String :=
  match view x with
  | .notANumber => "null"
  | .infinite _ => "null"
  | .finite negative magnitude =>
    signed negative <|
      if magnitude.significand = 0 then
        ['0', '.', '0']
      else
        jsonDecimal (magnitude.shortest .toEven)

end Number
end TreeWalk

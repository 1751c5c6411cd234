import TreeWalk.Text.GraphemeExtend
import TreeWalk.Text.Unprintable

/-!
# Quoted text

Text in double quotes, written so that every character of it can be seen.  The
quote, the backslash and the usual controls are written as a backslash and a
letter.  Other characters that are unprintable, or that would attach to the one
before them, are written as their code points.
-/

namespace TreeWalk

/-- The character that stands for another one behind a backslash. -/
def escapeLetter? : Char -> Option Char
  | '"' => some '"'
  | '\\' => some '\\'
  | '\n' => some 'n'
  | '\r' => some 'r'
  | '\t' => some 't'
  | '\x00' => some '0'
  | _ => none

/-- The code point of a character as an escape, in hexadecimal digits. -/
def codePointEscape (c : Char) : List Char :=
  ['\\', 'u', '\x7b'] ++ Nat.toDigits 16 c.toNat ++ ['\x7d']

/-- How a character is written between quotes. -/
def quotedCharacter (c : Char) : List Char :=
  match escapeLetter? c with
  | some letter => ['\\', letter]
  | none =>
    if extendsGrapheme c || isUnprintable c then codePointEscape c else [c]

/-- A text in quotes. -/
def quoted (text : String) : String :=
  String.ofList ('"' :: text.toList.flatMap quotedCharacter ++ ['"'])

end TreeWalk

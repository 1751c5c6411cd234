import TreeWalk.Token

/-!
# Cutting a source text into pieces

A source text is cut, from left to right and without gaps, into pieces: tokens,
blanks, comments, and the stretches that form no token.  `Piece.next` takes one
piece off a nonempty text, always the longest one the lexical grammar admits, and
`pieces` cuts up the whole text.  Line numbers play no part here.
-/

namespace TreeWalk

/-- Why a stretch of source text forms no token. -/
inductive LexicalFault where
  | unexpectedCharacter (character : Char)
  | unterminatedString
  | unterminatedComment
deriving DecidableEq, Repr

/-- The wording of a lexical fault. -/
def LexicalFault.message : LexicalFault -> String
  | unexpectedCharacter character => "Unexpected character: " ++ String.singleton character
  | unterminatedString => "Unterminated string."
  | unterminatedComment => "Unterminated block comment."

/-- What a piece of source text is. -/
inductive Piece.Content where
  | token (kind : Token.Kind)
  | blank
  | comment
  | fault (fault : LexicalFault)
deriving DecidableEq

/-- A stretch of source text and what it is. -/
structure Piece where
  text : List Char
  content : Piece.Content
deriving DecidableEq

namespace Piece

/-- Characters that separate tokens and mean nothing else. -/
def isBlank (c : Char) : Bool :=
  c == ' ' || c == '\r' || c == '\t' || c == '\n'

/-- Characters that begin an identifier or reserved word. -/
def beginsWord (c : Char) : Bool :=
  c.isAlpha || c == '_'

/-- Characters that continue an identifier or reserved word. -/
def continuesWord (c : Char) : Bool :=
  c.isAlphanum || c == '_'

/-- Take a piece that has only the first character. -/
def single
    (first : Char)
    (rest : List Char)
    (content : Content) : Piece × List Char :=
  (⟨[first], content⟩, rest)

/-- The kind of a token written with letters, digits and underscores. -/
def wordKind (text : List Char) : Token.Kind :=
  match Keyword.ofText? (String.ofList text) with
  | some keyword => .keyword keyword
  | none => .identifier

/-- Take an identifier or reserved word. -/
def takeWord (first : Char) (rest : List Char) : Piece × List Char :=
  let text := first :: rest.takeWhile continuesWord
  (⟨text, .token (wordKind text)⟩, rest.dropWhile continuesWord)

/-- Take a number: digits, and after a point more digits, if there is at least
one of them. -/
def takeNumber (first : Char) (rest : List Char) : Piece × List Char :=
  let whole := first :: rest.takeWhile Char.isDigit
  match rest.dropWhile Char.isDigit with
  | '.' :: next :: others =>
    if next.isDigit then
      let fraction := next :: others.takeWhile Char.isDigit
      (⟨whole ++ '.' :: fraction, .token (.number (Binary64.ofDigits whole fraction))⟩,
        others.dropWhile Char.isDigit)
    else
      (⟨whole, .token (.number (Binary64.ofDigits whole []))⟩, '.' :: next :: others)
  | remainder => (⟨whole, .token (.number (Binary64.ofDigits whole []))⟩, remainder)

/-- Take a string, whose opening quote has been seen.  It ends at the next
quote. -/
def takeString (rest : List Char) : Piece × List Char :=
  let contents := rest.takeWhile (· != '"')
  match rest.dropWhile (· != '"') with
  | closing :: remainder =>
    (⟨'"' :: (contents ++ [closing]), .token (.string (String.ofList contents))⟩, remainder)
  | [] => (⟨'"' :: contents, .fault .unterminatedString⟩, [])

/-- Take a comment that runs to the end of the line, after its two slashes. -/
def takeLineComment (rest : List Char) : Piece × List Char :=
  (⟨'/' :: '/' :: rest.takeWhile (· != '\n'), .comment⟩, rest.dropWhile (· != '\n'))

/-- The number of characters up to the end of the first closing mark of a block
comment, when there is one. -/
def commentEnd? (skipped : Nat) : List Char -> Option Nat
  | [] => none
  | '*' :: '/' :: _ => some (skipped + 2)
  | _ :: rest => commentEnd? (skipped + 1) rest

/-- Take a block comment, after its opening mark. -/
def takeBlockComment (rest : List Char) : Piece × List Char :=
  match commentEnd? 0 rest with
  | some length => (⟨'/' :: '*' :: rest.take length, .comment⟩, rest.drop length)
  | none => (⟨'/' :: '*' :: rest, .fault .unterminatedComment⟩, [])

/-- Take a symbol, of two characters if possible. -/
def takeSymbol
    (symbol : Symbol)
    (first : Char)
    (rest : List Char) : Piece × List Char :=
  match symbol.withEqual?, rest with
  | some longer, '=' :: remainder => (⟨[first, '='], .token (.symbol longer)⟩, remainder)
  | _, _ => single first rest (.token (.symbol symbol))

/-- Take the first piece of a nonempty text and give what is left. -/
def next (first : Char) (rest : List Char) : Piece × List Char :=
  if isBlank first then
    single first rest .blank
  else if beginsWord first then
    takeWord first rest
  else if first.isDigit then
    takeNumber first rest
  else if first == '"' then
    takeString rest
  else
    match first, rest with
    | '/', '/' :: others => takeLineComment others
    | '/', '*' :: others => takeBlockComment others
    | _, _ =>
      match Symbol.ofChar? first with
      | some symbol => takeSymbol symbol first rest
      | none => single first rest (.fault (.unexpectedCharacter first))

/-- A piece, and what is left after taking it from a text. -/
def Splits (text : List Char) (taken : Piece × List Char) : Prop :=
  taken.1.text ≠ [] ∧ taken.1.text ++ taken.2 = text

/-- One character is taken from the front of the text. -/
theorem single_splits
    (first : Char)
    (rest : List Char)
    (content : Content) :
    Splits (first :: rest) (single first rest content) := by
  simp [Splits, single]

/-- A word is taken from the front of the text. -/
theorem takeWord_splits
    (first : Char)
    (rest : List Char) :
    Splits (first :: rest) (takeWord first rest) := by
  simp [Splits, takeWord, List.takeWhile_append_dropWhile]

/-- A number is taken from the front of the text. -/
theorem takeNumber_splits
    (first : Char)
    (rest : List Char) :
    Splits (first :: rest) (takeNumber first rest) := by
  have whole := List.takeWhile_append_dropWhile (p := Char.isDigit) (l := rest)
  unfold takeNumber
  split
  · rename_i next others found
    rw [found] at whole
    split
    · simpa [Splits, List.takeWhile_append_dropWhile] using whole
    · simpa [Splits] using whole
  · simp [Splits, whole]

/-- A string, quotes included, is taken from the front of the text. -/
theorem takeString_splits (rest : List Char) : Splits ('"' :: rest) (takeString rest) := by
  have whole := List.takeWhile_append_dropWhile (p := (· != '"')) (l := rest)
  unfold takeString
  split
  · rename_i closing remainder found
    rw [found] at whole
    simpa [Splits] using whole
  · rename_i found
    rw [found] at whole
    simpa [Splits] using whole

/-- A line comment, slashes included, is taken from the front of the text. -/
theorem takeLineComment_splits (rest : List Char) :
    Splits ('/' :: '/' :: rest) (takeLineComment rest) := by
  simp [Splits, takeLineComment, List.takeWhile_append_dropWhile]

/-- A block comment, its ends included, is taken from the front of the text. -/
theorem takeBlockComment_splits (rest : List Char) :
    Splits ('/' :: '*' :: rest) (takeBlockComment rest) := by
  unfold takeBlockComment
  split <;> simp [Splits]

/-- A symbol of one or two characters is taken from the front of the text. -/
theorem takeSymbol_splits
    (symbol : Symbol)
    (first : Char)
    (rest : List Char) :
    Splits (first :: rest) (takeSymbol symbol first rest) := by
  unfold takeSymbol
  split
  · simp [Splits]
  · exact single_splits _ _ _

/-- Taking the first piece of a text splits it in two, and the piece is not
empty. -/
theorem next_splits
    (first : Char)
    (rest : List Char) :
    Splits (first :: rest) (next first rest) := by
  unfold next
  split
  · exact single_splits first rest _
  split
  · exact takeWord_splits first rest
  split
  · exact takeNumber_splits first rest
  split
  · rename_i quote
    rw [eq_of_beq quote]
    exact takeString_splits rest
  split
  · exact takeLineComment_splits _
  · exact takeBlockComment_splits _
  · split
    · exact takeSymbol_splits _ first rest
    · exact single_splits first rest _

/-- What is left after taking a piece is shorter than the text. -/
theorem length_next_lt
    (first : Char)
    (rest : List Char) :
    (next first rest).2.length < (first :: rest).length := by
  obtain ⟨nonempty, whole⟩ := next_splits first rest
  rw [← whole, List.length_append]
  have positive := List.length_pos_iff.mpr nonempty
  omega

end Piece

/-- Cut up a text, appending its pieces to those already found. -/
def piecesFrom (found : Array Piece) : List Char -> Array Piece
  | [] => found
  | first :: rest => piecesFrom (found.push (Piece.next first rest).1) (Piece.next first rest).2
termination_by text => text.length
decreasing_by exact Piece.length_next_lt first rest

/-- The pieces of a source text, in order. -/
def pieces (source : String) : List Piece :=
  (piecesFrom #[] source.toList).toList

/-- The pieces already found, followed by those of the text, spell the text after
what was found. -/
theorem flatMap_piecesFrom
    (found : Array Piece)
    (text : List Char) :
    (piecesFrom found text).toList.flatMap Piece.text =
      found.toList.flatMap Piece.text ++ text := by
  fun_induction piecesFrom found text with
  | case1 found => simp
  | case2 found first rest inductionHypothesis =>
    rw [inductionHypothesis, Array.toList_push, List.flatMap_append, List.append_assoc]
    simp [(Piece.next_splits first rest).2]

/-- The pieces of a source text spell the source text. -/
theorem flatMap_pieces (source : String) :
    (pieces source).flatMap Piece.text = source.toList := by
  simp [pieces, flatMap_piecesFrom]

end TreeWalk

import TreeWalk.Error
import TreeWalk.Piece

/-!
# Scanning a source text

A scan lists the tokens and the lexical faults of a source text in order, each
with its line.  Line feeds are met in four places: among the blanks, in strings,
and in block comments that are closed or not.  They are counted there, and an item
is on the line that this count has come to at its end.
-/

namespace TreeWalk

/-- What a scan finds: a token, or a stretch of text that forms none. -/
inductive Scan.Item where
  | token (token : Token)
  | fault (line : Nat) (fault : LexicalFault)
deriving DecidableEq

/-- The items found so far and the line that has been reached. -/
structure Scan where
  items : Array Scan.Item := #[]
  line : Nat := 1

namespace Piece

/-- How many lines reading a piece goes on.  A line feed between the tokens counts,
and so do those inside a string or a block comment. -/
def linesPassed (piece : Piece) : Nat :=
  match piece.content, piece.text with
  | .blank, ['\n'] => 1
  | .token (.string contents), _ => contents.toList.count '\n'
  | .comment, '/' :: '*' :: rest => (rest.take (rest.length - 2)).count '\n'
  | .fault .unterminatedString, '"' :: rest => rest.count '\n'
  | .fault .unterminatedComment, '/' :: '*' :: rest => rest.count '\n'
  | _, _ => 0

/-- The item of a piece that ends on the given line.  Blanks and comments have
none. -/
def item? (piece : Piece) (line : Nat) : Option Scan.Item :=
  match piece.content with
  | .token kind => some (.token ⟨kind, String.ofList piece.text, line⟩)
  | .fault fault => some (.fault line fault)
  | .blank => none
  | .comment => none

end Piece

namespace Scan

/-- Add the next piece to a scan. -/
def add (scan : Scan) (piece : Piece) : Scan :=
  let line := scan.line + piece.linesPassed
  match piece.item? line with
  | some item => { items := scan.items.push item, line := line }
  | none => { items := scan.items, line := line }

/-- Scan a source text. -/
def ofSource (source : String) : Scan :=
  (pieces source).foldl add {}

/-- The token that ends the input. -/
def endToken (scan : Scan) : Token :=
  .endOfInput scan.line

/-- All items, closed by the end of the input. -/
def allItems (scan : Scan) : List Item :=
  scan.items.toList ++ [.token scan.endToken]

/-- The tokens before the end of the input. -/
def tokens (scan : Scan) : List Token :=
  scan.items.toList.filterMap fun
    | .token token => some token
    | .fault _ _ => none

/-- The faults, as errors. -/
def errors (scan : Scan) : List Error :=
  scan.items.toList.filterMap fun
    | .token _ => none
    | .fault line fault => some (.lexical line fault.message)

end Scan
end TreeWalk

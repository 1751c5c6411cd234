import TreeWalk.Parse.Statement
import TreeWalk.Scan

/-!
# Parsing

A program is a sequence of declarations, and its source text is scanned and then
read to the end.  What could not be read is left out of the result and reported
among the errors.  A single expression can be parsed as well.
-/

namespace TreeWalk
namespace Parse

/-- How deep statements, blocks, expressions and unary operands may nest. -/
def maxNesting : Nat := 256

/-- Read a declaration at the outermost level. -/
def declaration : Parse (Option Stmt) :=
  declarationRule (expression maxNesting) (statement maxNesting) (block maxNesting)

/-- Read a whole program. -/
def program : Parse (List Stmt) :=
  declarationsWhile (do return !(← atEnd)) declaration

/-- Read a single expression that takes up all tokens. -/
def wholeExpression : Parse Expr := do
  let result ← expression maxNesting
  if ← atEnd then return result else fail (.expected "end of expression")

end Parse

/-- What parsing leaves: a result, the next unused reference number, and the
errors in the order in which they were noted. -/
structure Parsed (α : Type) where
  result : α
  nextId : Nat
  errors : List SyntaxError

/-- Parse the tokens of a program.  Declarations that could not be read are left
out. -/
def parseTokens
    (tokens : List Token)
    (endToken : Token)
    (firstId : Nat) : Parsed (List Stmt) :=
  match Parse.program ⟨tokens, endToken, firstId, #[]⟩ with
  | .ok statements cursor => ⟨statements, cursor.nextId, cursor.errors.toList⟩
  | .error error cursor => ⟨[], cursor.nextId, (cursor.errors.push error).toList⟩

/-- Parse the tokens of a single expression. -/
def parseExpressionTokens
    (tokens : List Token)
    (endToken : Token) : Parsed (Option Expr) :=
  match Parse.wholeExpression ⟨tokens, endToken, 0, #[]⟩ with
  | .ok expression cursor => ⟨some expression, cursor.nextId, cursor.errors.toList⟩
  | .error error cursor => ⟨none, cursor.nextId, (cursor.errors.push error).toList⟩

/-- A parsed source text, with its lexical and then its syntax errors. -/
structure ParsedSource (α : Type) where
  result : α
  nextId : Nat
  errors : List Error

/-- Put the lexical errors of a scan before the syntax errors. -/
def Parsed.withScan
    {α : Type}
    (parsed : Parsed α)
    (scan : Scan) : ParsedSource α :=
  ⟨parsed.result, parsed.nextId, scan.errors ++ parsed.errors.map (·.toError)⟩

/-- Parse the source text of a program, numbering references from `firstId`. -/
def parseProgram (source : String) (firstId : Nat) : ParsedSource (List Stmt) :=
  let scan := Scan.ofSource source
  (parseTokens scan.tokens scan.endToken firstId).withScan scan

/-- Parse the source text of a single expression. -/
def parseExpression (source : String) : ParsedSource (Option Expr) :=
  let scan := Scan.ofSource source
  (parseExpressionTokens scan.tokens scan.endToken).withScan scan

end TreeWalk

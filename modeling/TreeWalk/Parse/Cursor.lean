import TreeWalk.Error
import TreeWalk.Syntax

/-!
# Reading tokens

A `Cursor` is the state of a reader of tokens: what is still to be read, the
next unused reference number, and the errors so far.  A `Parse` changes the
cursor and either gives a result or fails at a token.  A failing reader keeps the
cursor it has reached, so that reading can be taken up again from there.
-/

namespace TreeWalk

/-- Why the tokens do not follow the grammar. -/
inductive SyntaxFault where
  | expected (what : String)
  | tooMany (what : String)
  | invalidAssignmentTarget
  | nestingTooDeep
deriving DecidableEq, Repr

/-- The greatest number of parameters or arguments. -/
def maxArity : Nat := 255

/-- The wording of a syntax fault. -/
def SyntaxFault.message : SyntaxFault -> String
  | expected what => "Expected " ++ what ++ "."
  | tooMany what => "Can't have more than " ++ toString maxArity ++ " " ++ what ++ "."
  | invalidAssignmentTarget => "Invalid assignment target."
  | nestingTooDeep => "Nesting too deep."

/-- A syntax fault and the token at which it was found. -/
structure SyntaxError where
  token : Token
  fault : SyntaxFault
deriving DecidableEq

/-- The reported form of a syntax error. -/
def SyntaxError.toError (error : SyntaxError) : Error :=
  .syntactic error.token error.fault.message

/-- The state of a reader of tokens. -/
structure Cursor where
  rest : List Token
  endToken : Token
  nextId : Nat
  errors : Array SyntaxError

/-- The token to be read next, which at the end is the token that ends the
input. -/
def Cursor.next (cursor : Cursor) : Token :=
  cursor.rest.headD cursor.endToken

/-- A reader of tokens. -/
abbrev Parse := EStateM SyntaxError Cursor

namespace Parse

/-- Fail at the next token. -/
def fail {α : Type} (fault : SyntaxFault) : Parse α :=
  fun cursor => .error ⟨cursor.next, fault⟩ cursor

/-- Note a fault at a token and go on. -/
def report (token : Token) (fault : SyntaxFault) : Parse Unit :=
  fun cursor => .ok () { cursor with errors := cursor.errors.push ⟨token, fault⟩ }

/-- Note a fault at the next token and go on. -/
def reportNext (fault : SyntaxFault) : Parse Unit :=
  fun cursor => report cursor.next fault cursor

/-- Hand out an unused reference number. -/
def freshId : Parse Nat :=
  fun cursor => .ok cursor.nextId { cursor with nextId := cursor.nextId + 1 }

/-- Make a reference to a name with an unused number. -/
def freshReference (name : Token) : Parse Reference := do
  return ⟨← freshId, name⟩

/-- Whether all tokens have been read. -/
def atEnd : Parse Bool :=
  fun cursor => .ok cursor.rest.isEmpty cursor

/-- Whether the next token is of the given kind. -/
def check (kind : Token.Kind) : Parse Bool :=
  fun cursor => .ok (cursor.rest.head?.any (·.kind == kind)) cursor

/-- Read the next token if it is of an admitted kind. -/
def acceptIf (admitted : Token.Kind -> Bool) : Parse (Option Token) :=
  fun cursor =>
    match cursor.rest with
    | token :: rest =>
      if admitted token.kind then
        .ok (some token) { cursor with rest := rest }
      else
        .ok none cursor
    | [] => .ok none cursor

/-- Read the next token if it is of the given kind. -/
def accept (kind : Token.Kind) : Parse (Option Token) :=
  acceptIf (· == kind)

/-- Read the next token, which has to be of the given kind. -/
def expect (kind : Token.Kind) (what : String) : Parse Token := do
  match ← accept kind with
  | some token => return token
  | none => fail (.expected what)

/-- Extend a result while `step` finds more to read, at most the given number of
times. -/
def extendAtMost
    {α : Type}
    (step : α -> Parse (Option α)) : Nat -> α -> Parse α
  | 0, result => return result
  | count + 1, result => do
    match ← step result with
    | some longer => extendAtMost step count longer
    | none => return result

/-- Extend a result while `step` finds more to read.  A step that finds more
reads at least one token, so there are no more steps than tokens. -/
def extend
    {α : Type}
    (step : α -> Parse (Option α))
    (start : α) : Parse α := do
  match ← step start with
  | some longer => extendAtMost step (← get).rest.length longer
  | none => return start

/-- Read one more item if a comma follows.  There may be too many of them. -/
def nextItem
    {α : Type}
    (what : String)
    (item : Parse α)
    (found : Array α) : Parse (Option (Array α)) := do
  match ← accept (.symbol .comma) with
  | none => return none
  | some _ =>
    if maxArity ≤ found.size then
      reportNext (.tooMany what)
    return some (found.push (← item))

/-- Read items with commas between them. -/
def commaSeparated
    {α : Type}
    (what : String)
    (item : Parse α) : Parse (List α) := do
  let first ← item
  let found ← extend (nextItem what item) #[first]
  return found.toList

/-- Read items with commas between them, up to a closing parenthesis.  There may
be none. -/
def parenthesized
    {α : Type}
    (what : String)
    (item : Parse α) : Parse (List α × Token) := do
  let items ← if ← check (.symbol .rightParen) then pure [] else commaSeparated what item
  let paren ← expect (.symbol .rightParen) ("')' after " ++ what)
  return (items, paren)

end Parse

/-- Whether a token of this kind begins a declaration or statement of its own,
so that reading can be taken up again before it. -/
def Token.Kind.beginsStatement : Token.Kind -> Bool
  | .keyword .classWord => true
  | .keyword .fnWord => true
  | .keyword .varWord => true
  | .keyword .forWord => true
  | .keyword .ifWord => true
  | .keyword .whileWord => true
  | .keyword .printWord => true
  | .keyword .returnWord => true
  | _ => false

/-- Skip the token at which reading failed, and then on to just after a semicolon
or just before a token that begins a statement. -/
def synchronize : List Token -> List Token
  | [] => []
  | skipped :: rest =>
    if skipped.isSymbol .semicolon then rest
    else if rest.head?.any (·.kind.beginsStatement) then rest
    else synchronize rest

/-- Read a statement.  If that fails, note the error, skip to where the next
statement may begin, and give none. -/
def Parse.recovering (rule : Parse Stmt) : Parse (Option Stmt) :=
  fun cursor =>
    match rule cursor with
    | .ok statement after => .ok (some statement) after
    | .error error after =>
      .ok none { after with
        rest := synchronize after.rest
        errors := after.errors.push error }

end TreeWalk

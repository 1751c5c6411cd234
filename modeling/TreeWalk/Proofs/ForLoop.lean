import TreeWalk.Evaluation
import TreeWalk.Proofs.Grammar.FirstToken
import TreeWalk.Proofs.Grammar.Form
import TreeWalk.Proofs.Renumbering

/-!
# Loops with a `for` header

The parser makes a loop with a `for` header of other statements.  This module says
what such a loop means by itself: how its names are resolved and how it is executed,
without a scope around the body and the increment.
-/

namespace TreeWalk

/-- A loop with a `for` header: its clauses, any of which may be missing, and its
body. -/
structure ForLoop where
  initializer : Option Stmt
  condition : Option Expr
  increment : Option Expr
  body : Stmt

namespace ForLoop

/-- The statement that the parser makes of the loop. -/
def desugared (loop : ForLoop) : Stmt :=
  Parse.forLoop loop.initializer loop.condition loop.increment loop.body

/-- What the statement that is made of the loop repeats. -/
def repeated (loop : ForLoop) : Stmt :=
  match loop.increment with
  | none => loop.body
  | some increment => .block [loop.body, .expression increment]

/-- The condition of the statement that is made of the loop. -/
def tested (loop : ForLoop) : Expr :=
  loop.condition.getD (.literal (.boolean true))

/-- The desugared loop is its while loop, in a block behind the initializer if it has one.
-/
theorem desugared_eq (loop : ForLoop) :
    loop.desugared =
      match loop.initializer with
      | none => .loop loop.tested loop.repeated
      | some first => .block [first, .loop loop.tested loop.repeated] := by
  obtain ⟨initializer, condition, increment, body⟩ := loop
  cases initializer <;> cases increment <;> rfl

/-- Change the numbers of the references of a loop. -/
def renumber (number : Nat -> Nat) (loop : ForLoop) : ForLoop where
  initializer := Stmt.optionRenumber number loop.initializer
  condition := Expr.optionRenumber number loop.condition
  increment := Expr.optionRenumber number loop.increment
  body := loop.body.renumber number

/-- Get to the clauses that are repeated: enter the scope of the initializer, if there
is one, and resolve it there. -/
def enter (around : Surroundings) (loop : ForLoop) (walk : Resolution) : Resolution :=
  match loop.initializer with
  | none => walk
  | some first => Resolution.statement around first (walk.enter .empty)

/-- Resolve what is repeated.  Whatever the body declares, the names of the increment are
looked up in the same scopes as those of the condition. -/
def resolveRound (around : Surroundings) (loop : ForLoop) (walk : Resolution) : Resolution :=
  let tested := Resolution.optionalExpression around loop.condition walk
  let after := Resolution.statement around loop.body tested
  Resolution.optionalExpression around loop.increment { after with scopes := walk.scopes }

/-- Resolve the references of a loop.  Its only scope is that of the initializer. -/
def resolve (around : Surroundings) (loop : ForLoop) (walk : Resolution) : Resolution :=
  let after := loop.resolveRound around (loop.enter around walk)
  match loop.initializer with
  | none => after
  | some _ => after.leave

/-- Whether to go on.  A condition that is missing always holds. -/
def test (fuel : Nat) (loop : ForLoop) : Eval Bool :=
  match loop.condition with
  | none => return true
  | some condition => return (← Eval.evaluate fuel condition).isTruthy

/-- Execute the body and then, unless it returns, evaluate the increment.  Fuel is
spent as it is on the statements that the parser makes of the loop. -/
def round (fuel : Nat) (loop : ForLoop) : Eval Flow :=
  match loop.increment with
  | none => Eval.execute fuel loop.body
  | some increment => do
    match ← Eval.execute (fuel - 1) loop.body with
    | .normal =>
      let _ ← Eval.evaluate (fuel - 2) increment
      return .normal
    | .returned value => return .returned value

/-- Go on, one round after the other, until the condition fails or the body
returns. -/
def repeats (loop : ForLoop) : Nat -> Eval Flow
  | 0 => throw .outOfFuel
  | fuel + 1 => do
    if ← loop.test fuel then
      match ← loop.round fuel with
      | .normal => loop.repeats fuel
      | .returned value => return .returned value
    else
      return .normal

/-- Execute a loop.  If there is an initializer, it is executed in a new scope, and so
is the rest of the loop. -/
def execute (loop : ForLoop) : Nat -> Eval Flow
  | 0 => throw .outOfFuel
  | fuel + 1 =>
    match loop.initializer with
    | none => loop.repeats fuel
    | some first => do
      let current := (← get).scope
      let scope ← Eval.onHeap (·.newScope (some current) .empty)
      Eval.within scope do
        match ← Eval.execute fuel first with
        | .normal => loop.repeats (fuel - 1)
        | .returned value => return .returned value

end ForLoop

namespace Grammar

/-- Loops with a `for` header, as the grammar has them. -/
inductive ForStatement
    (expression : Phrase Expr)
    (statement : Bool -> Phrase Stmt)
    (dangling : Bool) : Phrase ForLoop
  | mk
      {first second third fourth next : Nat}
      {word opening semicolon closing : Token}
      {initializerTokens conditionTokens incrementTokens bodyTokens : List Token}
      {initializer : Option Stmt}
      {condition increment : Option Expr}
      {body : Stmt}
      (isWord : word.kind = .keyword .forWord)
      (isOpening : opening.kind = .symbol .leftParen)
      (start : ForInitializer expression first initializerTokens initializer second)
      (test : Optional expression second conditionTokens condition third)
      (isSemicolon : semicolon.kind = .symbol .semicolon)
      (step : Optional expression third incrementTokens increment fourth)
      (isClosing : closing.kind = .symbol .rightParen)
      (repeated : statement dangling fourth bodyTokens body next) :
      ForStatement expression statement dangling first
        (word :: opening :: (initializerTokens ++
          (conditionTokens ++ semicolon :: (incrementTokens ++ closing :: bodyTokens))))
        ⟨initializer, condition, increment, body⟩ next

/-- Loops with a `for` header, of which the parts nest at most the given number of
levels. -/
def ForStatementWithin (room : Nat) (dangling : Bool) : Phrase ForLoop :=
  ForStatement (Expression room) (StatementWithin room) dangling

/-- A statement is no declaration. -/
theorem statementWithin_declaresNothing
    {room first next : Nat}
    {dangling : Bool}
    {tokens : List Token}
    {result : Stmt}
    (derived : StatementWithin room dangling first tokens result next) :
    result.declaredName? = none := by
  cases room with
  | zero => exact derived.elim
  | succ room =>
    cases derived with
    | expression only =>
      cases only
      rfl
    | @forLoop _ _ _ _ _ _ _ _ _ _ _ _ _ _ initializer =>
      cases initializer <;> rfl
    | _ => rfl

/-- The body of a loop is no declaration. -/
theorem ForStatementWithin.body_declaresNothing
    {room first next : Nat}
    {dangling : Bool}
    {tokens : List Token}
    {loop : ForLoop}
    (derived : ForStatementWithin room dangling first tokens loop next) :
    loop.body.declaredName? = none := by
  obtain ⟨_, _, _, _, _, _, _, repeated⟩ := derived
  exact statementWithin_declaresNothing repeated

/-- The statements that begin with `for` are what is made of these loops. -/
theorem statementWithin_forWord_iff
    {room first next : Nat}
    {dangling : Bool}
    {word : Token}
    {tokens : List Token}
    {result : Stmt}
    (isWord : word.kind = .keyword .forWord) :
    StatementWithin (room + 1) dangling first (word :: tokens) result next ↔
      ∃ loop, ForStatementWithin room dangling first (word :: tokens) loop next ∧
        result = loop.desugared := by
  constructor
  · intro derived
    generalize isTokens : word :: tokens = all at derived ⊢
    have other : ∀ {token : Token} {rest : List Token}, word :: tokens = token :: rest ->
        token.kind = .keyword .forWord := by
      rintro token rest ⟨⟩
      exact isWord
    cases derived with
    | expression only =>
      obtain ⟨token, rest, rfl, begins⟩ :=
        expressionStatement_begins (expression_begins room) only
      rw [other isTokens] at begins
      exact absurd begins (by decide)
    | forLoop isWord isOpening start test isSemicolon step isClosing repeated =>
      exact ⟨_, .mk isWord isOpening start test isSemicolon step isClosing repeated, rfl⟩
    | print isOther => exact absurd (isOther.symm.trans (other isTokens)) (by decide)
    | returns isOther => exact absurd (isOther.symm.trans (other isTokens)) (by decide)
    | block isOther => exact absurd (isOther.symm.trans (other isTokens)) (by decide)
    | loop isOther => exact absurd (isOther.symm.trans (other isTokens)) (by decide)
    | conditional isOther => exact absurd (isOther.symm.trans (other isTokens)) (by decide)
    | alternative isOther => exact absurd (isOther.symm.trans (other isTokens)) (by decide)
  · rintro ⟨loop, derived, rfl⟩
    cases derived with
    | mk isWord isOpening start test isSemicolon step isClosing repeated =>
      exact .forLoop isWord isOpening start test isSemicolon step isClosing repeated

end Grammar
end TreeWalk

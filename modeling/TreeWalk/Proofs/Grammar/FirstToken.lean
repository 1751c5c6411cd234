import TreeWalk.Proofs.Grammar
import TreeWalk.Proofs.Parse.Reading

/-!
# First tokens

Readers decide by the next token which rule to follow.  This module says with
which tokens the phrases of each category begin, and in particular that they are
never empty.
-/

namespace TreeWalk
namespace Grammar

open Parse

/-- Every phrase of a category begins with a token of an admitted kind. -/
def Begins {α : Type} (admitted : Token.Kind -> Bool) (phrase : Phrase α) : Prop :=
  ∀ ⦃first tokens result next⦄, phrase first tokens result next ->
    ∃ token others, tokens = token :: others ∧ admitted token.kind = true

namespace Begins

variable {α : Type} {admitted : Token.Kind -> Bool} {phrase : Phrase α}

/-- A phrase that begins with some token is derived from at least one. -/
theorem ne_nil
    (begins : Begins admitted phrase)
    {first next : Nat}
    {tokens : List Token}
    {result : α}
    (derived : phrase first tokens result next) :
    tokens ≠ [] := by
  obtain ⟨token, others, rfl, -⟩ := begins derived
  exact List.cons_ne_nil token others

/-- More tokens may be allowed at the beginning. -/
theorem mono
    {weaker : Token.Kind -> Bool}
    (begins : Begins admitted phrase)
    (implies : ∀ kind, admitted kind = true -> weaker kind = true) :
    Begins weaker phrase := by
  intro first tokens result next derived
  obtain ⟨token, others, rfl, admits⟩ := begins derived
  exact ⟨token, others, rfl, implies token.kind admits⟩

/-- A phrase does not begin with a token that its category does not admit. -/
theorem nextIs_append
    {excluded : Token.Kind -> Bool}
    (begins : Begins admitted phrase)
    (apart : ∀ kind, admitted kind = true -> excluded kind = false)
    {first next : Nat}
    {tokens : List Token}
    {result : α}
    (derived : phrase first tokens result next)
    (rest : List Token) :
    nextIs excluded (tokens ++ rest) = false := by
  obtain ⟨token, others, rfl, admits⟩ := begins derived
  rw [List.cons_append, nextIs_cons]
  exact apart token.kind admits

end Begins

/-- Kinds with which an expression begins. -/
def beginsExpression (kind : Token.Kind) : Bool :=
  beginsPrimary kind || isUnaryOperator kind

/-- Kinds with which a statement begins. -/
def beginsStatement (kind : Token.Kind) : Bool :=
  beginsExpression kind || beginsProperStatement kind

/-- Kinds with which a declaration begins. -/
def beginsDeclaration (kind : Token.Kind) : Bool :=
  beginsStatement kind || beginsProperDeclaration kind

/-- A terminal begins with its own kind of token. -/
theorem terminal_begins (kind : Token.Kind) : Begins (· == kind) (Terminal kind) := by
  rintro first tokens result next ⟨hasKind⟩
  exact ⟨_, [], rfl, by simp [hasKind]⟩

/-- A list with commas begins as its items do. -/
theorem separated_begins
    {α : Type}
    {admitted : Token.Kind -> Bool}
    {phrase : Phrase α}
    (items : Begins admitted phrase) :
    Begins admitted (Separated phrase) := by
  intro first tokens result next derived
  induction derived with
  | single only => exact items only
  | more _ _ _ inductionHypothesis =>
    obtain ⟨token, others, rfl, admits⟩ := inductionHypothesis
    exact ⟨token, _, rfl, admits⟩

theorem primary_begins (expression : Phrase Expr) : Begins beginsPrimary (Primary expression) := by
  intro first tokens result next derived
  cases derived with
  | literal found =>
    refine ⟨_, [], rfl, ?_⟩
    unfold literal? at found
    split at found <;> simp_all [beginsPrimary]
  | name isName => exact ⟨_, [], rfl, by rw [isName]; rfl⟩
  | self isKeyword => exact ⟨_, [], rfl, by rw [isKeyword]; rfl⟩
  | inherited isKeyword => exact ⟨_, _, rfl, by rw [isKeyword]; rfl⟩
  | grouping isOpening => exact ⟨_, _, rfl, by rw [isOpening]; rfl⟩

/-- A call begins with its callee. -/
theorem call_begins (expression : Phrase Expr) : Begins beginsPrimary (Call expression) := by
  intro first tokens result next derived
  induction derived with
  | primary only => exact primary_begins expression only
  | call _ _ _ inductionHypothesis =>
    obtain ⟨token, others, rfl, admits⟩ := inductionHypothesis
    exact ⟨token, _, rfl, admits⟩
  | property _ _ _ inductionHypothesis =>
    obtain ⟨token, others, rfl, admits⟩ := inductionHypothesis
    exact ⟨token, _, rfl, admits⟩

/-- A unary expression begins with its operator, or with what the operator is missing
from. -/
theorem unary_begins (operand expression : Phrase Expr) :
    Begins beginsExpression (Unary operand expression) := by
  intro first tokens result next derived
  cases derived with
  | operator isOperator =>
    refine ⟨_, _, rfl, ?_⟩
    simp only [List.mem_cons, List.not_mem_nil, or_false] at isOperator
    rcases isOperator with same | same <;> rw [same] <;> rfl
  | call only =>
    exact (call_begins expression).mono (fun kind begins => by simp [beginsExpression, begins]) only

/-- A chain of operators begins with its first operand. -/
theorem leftAssociative_begins
    {operators : List Token.Kind}
    {combine : Expr -> Token -> Expr -> Expr}
    {admitted : Token.Kind -> Bool}
    {operand : Phrase Expr}
    (operands : Begins admitted operand) :
    Begins admitted (LeftAssociative operators combine operand) := by
  intro first tokens result next derived
  induction derived with
  | operand only => exact operands only
  | combined _ _ _ inductionHypothesis =>
    obtain ⟨token, others, rfl, admits⟩ := inductionHypothesis
    exact ⟨token, _, rfl, admits⟩

/-- So does a chain of binary and logical operators of every rank. -/
theorem logicOr_begins
    {admitted : Token.Kind -> Bool}
    {unary : Phrase Expr}
    (operands : Begins admitted unary) :
    Begins admitted (LogicOr unary) :=
  leftAssociative_begins <| leftAssociative_begins <| leftAssociative_begins <|
    leftAssociative_begins <| leftAssociative_begins <| leftAssociative_begins operands

/-- An assignment begins with its target. -/
theorem assignment_begins (operand expression : Phrase Expr) :
    Begins beginsExpression (Assignment (Unary operand expression) expression) := by
  intro first tokens result next derived
  cases derived with
  | named isName => exact ⟨_, _, rfl, by rw [isName]; rfl⟩
  | property left =>
    obtain ⟨token, others, rfl, admits⟩ := call_begins expression left
    exact ⟨token, _, rfl, by simp [beginsExpression, admits]⟩
  | operators only => exact logicOr_begins (unary_begins operand expression) only

/-- An expression begins with a unary operator or like a primary expression. -/
theorem expression_begins (room : Nat) : Begins beginsExpression (Expression room) := by
  cases room with
  | zero =>
    intro first tokens result next derived
    exact derived.elim
  | succ room => exact assignment_begins (Operand room) (Expression room)

/-- An expression statement begins with its expression. -/
theorem expressionStatement_begins
    {admitted : Token.Kind -> Bool}
    {expression : Phrase Expr}
    (inside : Begins admitted expression) :
    Begins admitted (ExpressionStatement expression) := by
  rintro first tokens result next ⟨derived, -⟩
  obtain ⟨token, others, rfl, admits⟩ := inside derived
  exact ⟨token, _, rfl, admits⟩

/-- A statement begins with a keyword, a brace, or an expression. -/
theorem statement_begins
    {expression : Phrase Expr}
    {statement : Bool -> Phrase Stmt}
    {block : Phrase (List Stmt)}
    (inside : Begins beginsExpression expression)
    (dangling : Bool) :
    Begins beginsStatement (Statement expression statement block dangling) := by
  intro first tokens result next derived
  cases derived with
  | expression only =>
    exact (expressionStatement_begins inside).mono
      (fun kind begins => by simp [beginsStatement, begins]) only
  | print isWord => exact ⟨_, _, rfl, by rw [isWord]; rfl⟩
  | returns isWord => exact ⟨_, _, rfl, by rw [isWord]; rfl⟩
  | block isOpening => exact ⟨_, _, rfl, by rw [isOpening]; rfl⟩
  | loop isWord => exact ⟨_, _, rfl, by rw [isWord]; rfl⟩
  | forLoop isWord => exact ⟨_, _, rfl, by rw [isWord]; rfl⟩
  | conditional isWord => exact ⟨_, _, rfl, by rw [isWord]; rfl⟩
  | alternative isWord => exact ⟨_, _, rfl, by rw [isWord]; rfl⟩

/-- A statement begins with a word of its own or like an expression. -/
theorem statementWithin_begins (room : Nat) (dangling : Bool) :
    Begins beginsStatement (StatementWithin room dangling) := by
  cases room with
  | zero =>
    intro first tokens result next derived
    exact derived.elim
  | succ room => exact statement_begins (expression_begins room) dangling

/-- A function begins with its name. -/
theorem function_begins (block : Phrase (List Stmt)) :
    Begins (· == .identifier) (Function block) := by
  rintro first tokens result next ⟨isName, -, -, -, -⟩
  exact ⟨_, _, rfl, by simp [isName]⟩

/-- A declaration begins with a keyword or as a statement does. -/
theorem declaration_begins
    {expression : Phrase Expr}
    {statement : Bool -> Phrase Stmt}
    {block : Phrase (List Stmt)}
    (statements : ∀ dangling, Begins beginsStatement (statement dangling)) :
    Begins beginsDeclaration (Declaration expression statement block) := by
  intro first tokens result next derived
  cases derived with
  | classDecl isWord => exact ⟨_, _, rfl, by rw [isWord]; rfl⟩
  | function isWord => exact ⟨_, _, rfl, by rw [isWord]; rfl⟩
  | variableDecl isWord => exact ⟨_, _, rfl, by rw [isWord]; rfl⟩
  | statement only =>
    exact (statements _).mono (fun kind begins => by simp [beginsDeclaration, begins]) only

/-- A declaration begins with a word of its own or like a statement. -/
theorem declarationWithin_begins (room : Nat) :
    Begins beginsDeclaration (DeclarationWithin room) :=
  declaration_begins (statementWithin_begins room)

end Grammar
end TreeWalk

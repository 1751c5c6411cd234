import TreeWalk.Parse.Program

/-!
# The grammar of the language

The grammar is written down apart from the readers that follow it:

```text
program     → declaration*
declaration → classDecl | fnDecl | varDecl | statement
classDecl   → "class" IDENT ( "<" IDENT )? "{" function* "}"
fnDecl      → "fn" function
function    → IDENT "(" parameters? ")" block
varDecl     → "var" IDENT ( "=" expression )? ";"
statement   → exprStmt | forStmt | ifStmt | printStmt | returnStmt | whileStmt | block
exprStmt    → expression ";"
forStmt     → "for" "(" ( varDecl | exprStmt | ";" ) expression? ";" expression? ")" statement
ifStmt      → "if" "(" expression ")" statement ( "else" statement )?
printStmt   → "print" expression ";"
returnStmt  → "return" expression? ";"
whileStmt   → "while" "(" expression ")" statement
block       → "{" declaration* "}"
parameters  → IDENT ( "," IDENT )*
expression  → assignment
assignment  → ( call "." )? IDENT "=" assignment | logic_or
logic_or    → logic_and ( "or" logic_and )*
logic_and   → equality ( "and" equality )*
equality    → comparison ( ( "!=" | "==" ) comparison )*
comparison  → term ( ( ">" | ">=" | "<" | "<=" ) term )*
term        → factor ( ( "-" | "+" ) factor )*
factor      → unary ( ( "/" | "*" ) unary )*
unary       → ( "!" | "-" ) unary | call
call        → primary ( "(" arguments? ")" | "." IDENT )*
arguments   → expression ( "," expression )*
primary     → NUMBER | STRING | "true" | "false" | "null" | "this"
            | IDENT | "(" expression ")" | "super" "." IDENT
```

A rule is a relation between tokens and the tree that they form.  It also says
how references are numbered: from a first number up to, and without, a next one.
The rules that may contain themselves are indexed by the number of levels that
they may nest: assignments, operands of unary operators, statements and blocks
use up one level each.
-/

namespace TreeWalk

/-- A syntactic category: `phrase first tokens result next` says that the tokens
form the result, whose references are numbered from `first` up to `next`. -/
abbrev Phrase (α : Type) := Nat -> List Token -> α -> Nat -> Prop

namespace Grammar

/-- A single token of the given kind. -/
inductive Terminal (kind : Token.Kind) : Phrase Token
  | token
      {first : Nat}
      {token : Token}
      (hasKind : token.kind = kind) :
      Terminal kind first [token] token first

/-- Any number of items, one after the other. -/
inductive Repeated {α : Type} (item : Phrase α) : Phrase (List α)
  | none {first : Nat} : Repeated item first [] [] first
  | more
      {first middle next : Nat}
      {tokens lastTokens : List Token}
      {items : List α}
      {last : α}
      (before : Repeated item first tokens items middle)
      (one : item middle lastTokens last next) :
      Repeated item first (tokens ++ lastTokens) (items ++ [last]) next

/-- At least one item, with commas between them. -/
inductive Separated {α : Type} (item : Phrase α) : Phrase (List α)
  | single
      {first next : Nat}
      {tokens : List Token}
      {one : α}
      (only : item first tokens one next) :
      Separated item first tokens [one] next
  | more
      {first middle next : Nat}
      {tokens lastTokens : List Token}
      {comma : Token}
      {items : List α}
      {last : α}
      (before : Separated item first tokens items middle)
      (isComma : comma.kind = .symbol .comma)
      (one : item middle lastTokens last next) :
      Separated item first (tokens ++ comma :: lastTokens) (items ++ [last]) next

/-- At most `maxArity` items with commas between them, and the parenthesis that
closes them. -/
inductive Listed {α : Type} (item : Phrase α) : Phrase (List α × Token)
  | none
      {first : Nat}
      {closing : Token}
      (isClosing : closing.kind = .symbol .rightParen) :
      Listed item first [closing] ([], closing) first
  | some
      {first next : Nat}
      {tokens : List Token}
      {items : List α}
      {closing : Token}
      (inner : Separated item first tokens items next)
      (few : items.length ≤ maxArity)
      (isClosing : closing.kind = .symbol .rightParen) :
      Listed item first (tokens ++ [closing]) (items, closing) next

/-- An item that may be missing. -/
inductive Optional {α : Type} (item : Phrase α) : Phrase (Option α)
  | none {first : Nat} : Optional item first [] .none first
  | some
      {first next : Nat}
      {tokens : List Token}
      {one : α}
      (only : item first tokens one next) :
      Optional item first tokens (.some one) next

/-! ## Expressions -/

/-- The literal that a token of this kind stands for. -/
def literal? : Token.Kind -> Option Literal
  | .number value => some (.number value)
  | .string contents => some (.string contents)
  | .keyword .trueWord => some (.boolean true)
  | .keyword .falseWord => some (.boolean false)
  | .keyword .nullWord => some .null
  | _ => none

/-- Literals, names, `this`, `super.method` and parenthesised expressions. -/
inductive Primary (expression : Phrase Expr) : Phrase Expr
  | literal
      {first : Nat}
      {token : Token}
      {value : Literal}
      (found : literal? token.kind = some value) :
      Primary expression first [token] (.literal value) first
  | name
      {first : Nat}
      {name : Token}
      (isName : name.kind = .identifier) :
      Primary expression first [name] (.read ⟨first, name⟩) (first + 1)
  | self
      {first : Nat}
      {keyword : Token}
      (isKeyword : keyword.kind = .keyword .thisWord) :
      Primary expression first [keyword] (.self ⟨first, keyword⟩) (first + 1)
  | inherited
      {first : Nat}
      {keyword dot method : Token}
      (isKeyword : keyword.kind = .keyword .superWord)
      (isDot : dot.kind = .symbol .dot)
      (isName : method.kind = .identifier) :
      Primary expression first [keyword, dot, method]
        (.inherited ⟨first, keyword⟩ method) (first + 1)
  | grouping
      {first next : Nat}
      {opening closing : Token}
      {tokens : List Token}
      {inner : Expr}
      (isOpening : opening.kind = .symbol .leftParen)
      (inside : expression first tokens inner next)
      (isClosing : closing.kind = .symbol .rightParen) :
      Primary expression first (opening :: (tokens ++ [closing])) (.grouping inner) next

/-- A primary expression followed by argument lists and property names. -/
inductive Call (expression : Phrase Expr) : Phrase Expr
  | primary
      {first next : Nat}
      {tokens : List Token}
      {result : Expr}
      (only : Primary expression first tokens result next) :
      Call expression first tokens result next
  | call
      {first middle next : Nat}
      {tokens argumentTokens : List Token}
      {opening closing : Token}
      {callee : Expr}
      {arguments : List Expr}
      (before : Call expression first tokens callee middle)
      (isOpening : opening.kind = .symbol .leftParen)
      (inside : Listed expression middle argumentTokens (arguments, closing) next) :
      Call expression first (tokens ++ opening :: argumentTokens)
        (.call callee closing arguments) next
  | property
      {first next : Nat}
      {tokens : List Token}
      {dot name : Token}
      {object : Expr}
      (before : Call expression first tokens object next)
      (isDot : dot.kind = .symbol .dot)
      (isName : name.kind = .identifier) :
      Call expression first (tokens ++ [dot, name]) (.property object name) next

/-- A call, or a unary operator and its operand. -/
inductive Unary (operand expression : Phrase Expr) : Phrase Expr
  | operator
      {first next : Nat}
      {tokens : List Token}
      {operator : Token}
      {right : Expr}
      (isOperator : operator.kind ∈ [.symbol .bang, .symbol .minus])
      (inside : operand first tokens right next) :
      Unary operand expression first (operator :: tokens) (.unary operator right) next
  | call
      {first next : Nat}
      {tokens : List Token}
      {result : Expr}
      (only : Call expression first tokens result next) :
      Unary operand expression first tokens result next

/-- Operands joined by operators of one level, grouped to the left. -/
inductive LeftAssociative
    (operators : List Token.Kind)
    (combine : Expr -> Token -> Expr -> Expr)
    (operand : Phrase Expr) : Phrase Expr
  | operand
      {first next : Nat}
      {tokens : List Token}
      {result : Expr}
      (only : operand first tokens result next) :
      LeftAssociative operators combine operand first tokens result next
  | combined
      {first middle next : Nat}
      {tokens rightTokens : List Token}
      {operator : Token}
      {left right : Expr}
      (before : LeftAssociative operators combine operand first tokens left middle)
      (isOperator : operator.kind ∈ operators)
      (after : operand middle rightTokens right next) :
      LeftAssociative operators combine operand first (tokens ++ operator :: rightTokens)
        (combine left operator right) next

/-- Products and quotients. -/
def Factor (unary : Phrase Expr) : Phrase Expr :=
  LeftAssociative [.symbol .slash, .symbol .star] .binary unary

/-- Sums and differences. -/
def Term (unary : Phrase Expr) : Phrase Expr :=
  LeftAssociative [.symbol .minus, .symbol .plus] .binary (Factor unary)

/-- Comparisons of size. -/
def Comparison (unary : Phrase Expr) : Phrase Expr :=
  LeftAssociative
    [.symbol .greater, .symbol .greaterEqual, .symbol .less, .symbol .lessEqual]
    .binary (Term unary)

/-- Tests for equality. -/
def Equality (unary : Phrase Expr) : Phrase Expr :=
  LeftAssociative [.symbol .bangEqual, .symbol .equalEqual] .binary (Comparison unary)

/-- Conjunctions. -/
def LogicAnd (unary : Phrase Expr) : Phrase Expr :=
  LeftAssociative [.keyword .andWord] .logical (Equality unary)

/-- Disjunctions. -/
def LogicOr (unary : Phrase Expr) : Phrase Expr :=
  LeftAssociative [.keyword .orWord] .logical (LogicAnd unary)

/-- Assignments to variables and properties, and operator expressions.  The
reference that an assignment makes is numbered after its value, and the number
that its name took when it was read stays unused. -/
inductive Assignment (unary expression : Phrase Expr) : Phrase Expr
  | named
      {first next : Nat}
      {name equals : Token}
      {tokens : List Token}
      {value : Expr}
      (isName : name.kind = .identifier)
      (isEquals : equals.kind = .symbol .equal)
      (right : expression (first + 1) tokens value next) :
      Assignment unary expression first (name :: equals :: tokens)
        (.assign ⟨next, name⟩ value) (next + 1)
  | property
      {first middle next : Nat}
      {tokens valueTokens : List Token}
      {dot name equals : Token}
      {object value : Expr}
      (left : Call expression first tokens object middle)
      (isDot : dot.kind = .symbol .dot)
      (isName : name.kind = .identifier)
      (isEquals : equals.kind = .symbol .equal)
      (right : expression middle valueTokens value next) :
      Assignment unary expression first (tokens ++ dot :: name :: equals :: valueTokens)
        (.setProperty object name value) next
  | operators
      {first next : Nat}
      {tokens : List Token}
      {result : Expr}
      (only : LogicOr unary first tokens result next) :
      Assignment unary expression first tokens result next

mutual

/-- Expressions that nest at most the given number of levels. -/
def Expression : Nat -> Phrase Expr
  | 0 => fun _ _ _ _ => False
  | room + 1 => Assignment (Unary (Operand room) (Expression room)) (Expression room)

/-- Operands of unary operators that nest at most the given number of levels. -/
def Operand : Nat -> Phrase Expr
  | 0 => fun _ _ _ _ => False
  | room + 1 => Unary (Operand room) (Expression room)

end

/-! ## Statements and declarations -/

/-- An expression and its semicolon. -/
inductive ExpressionStatement (expression : Phrase Expr) : Phrase Stmt
  | mk
      {first next : Nat}
      {tokens : List Token}
      {semicolon : Token}
      {value : Expr}
      (inside : expression first tokens value next)
      (isSemicolon : semicolon.kind = .symbol .semicolon) :
      ExpressionStatement expression first (tokens ++ [semicolon]) (.expression value) next

/-- The equals sign and the expression that may follow a declared name. -/
inductive Initializer (expression : Phrase Expr) : Phrase (Option Expr)
  | none {first : Nat} : Initializer expression first [] .none first
  | some
      {first next : Nat}
      {tokens : List Token}
      {equals : Token}
      {value : Expr}
      (isEquals : equals.kind = .symbol .equal)
      (inside : expression first tokens value next) :
      Initializer expression first (equals :: tokens) (.some value) next

/-- A variable declaration, after its first word. -/
inductive VariableDeclaration (expression : Phrase Expr) : Phrase Stmt
  | mk
      {first next : Nat}
      {name semicolon : Token}
      {tokens : List Token}
      {initializer : Option Expr}
      (isName : name.kind = .identifier)
      (inside : Initializer expression first tokens initializer next)
      (isSemicolon : semicolon.kind = .symbol .semicolon) :
      VariableDeclaration expression first (name :: (tokens ++ [semicolon]))
        (.declare name initializer) next

/-- The first clause of a `for` header. -/
inductive ForInitializer (expression : Phrase Expr) : Phrase (Option Stmt)
  | none
      {first : Nat}
      {semicolon : Token}
      (isSemicolon : semicolon.kind = .symbol .semicolon) :
      ForInitializer expression first [semicolon] .none first
  | variableDecl
      {first next : Nat}
      {word : Token}
      {tokens : List Token}
      {declaration : Stmt}
      (isWord : word.kind = .keyword .varWord)
      (inside : VariableDeclaration expression first tokens declaration next) :
      ForInitializer expression first (word :: tokens) (.some declaration) next
  | expression
      {first next : Nat}
      {tokens : List Token}
      {statement : Stmt}
      (only : ExpressionStatement expression first tokens statement next) :
      ForInitializer expression first tokens (.some statement) next

/-- Statements.  The first index tells whether the statement ends in an `if`
without an `else`.  An `else` that follows belongs to the nearest `if`, so it
never follows such a statement. -/
inductive Statement
    (expression : Phrase Expr)
    (statement : Bool -> Phrase Stmt)
    (block : Phrase (List Stmt)) : Bool -> Phrase Stmt
  | expression
      {first next : Nat}
      {tokens : List Token}
      {result : Stmt}
      (only : ExpressionStatement expression first tokens result next) :
      Statement expression statement block false first tokens result next
  | print
      {first next : Nat}
      {word semicolon : Token}
      {tokens : List Token}
      {value : Expr}
      (isWord : word.kind = .keyword .printWord)
      (inside : expression first tokens value next)
      (isSemicolon : semicolon.kind = .symbol .semicolon) :
      Statement expression statement block false first (word :: (tokens ++ [semicolon]))
        (.print value) next
  | returns
      {first next : Nat}
      {word semicolon : Token}
      {tokens : List Token}
      {value : Option Expr}
      (isWord : word.kind = .keyword .returnWord)
      (inside : Optional expression first tokens value next)
      (isSemicolon : semicolon.kind = .symbol .semicolon) :
      Statement expression statement block false first (word :: (tokens ++ [semicolon]))
        (.returns word value) next
  | block
      {first next : Nat}
      {opening : Token}
      {tokens : List Token}
      {body : List Stmt}
      (isOpening : opening.kind = .symbol .leftBrace)
      (inside : block first tokens body next) :
      Statement expression statement block false first (opening :: tokens) (.block body) next
  | loop
      {first middle next : Nat}
      {dangling : Bool}
      {word opening closing : Token}
      {conditionTokens bodyTokens : List Token}
      {condition : Expr}
      {body : Stmt}
      (isWord : word.kind = .keyword .whileWord)
      (isOpening : opening.kind = .symbol .leftParen)
      (inside : expression first conditionTokens condition middle)
      (isClosing : closing.kind = .symbol .rightParen)
      (repeated : statement dangling middle bodyTokens body next) :
      Statement expression statement block dangling first
        (word :: opening :: (conditionTokens ++ closing :: bodyTokens))
        (.loop condition body) next
  | forLoop
      {first second third fourth next : Nat}
      {dangling : Bool}
      {word opening semicolon closing : Token}
      {initializerTokens conditionTokens incrementTokens bodyTokens : List Token}
      {initializer : Option Stmt}
      {condition increment : Option Expr}
      {body : Stmt}
      (isWord : word.kind = .keyword .forWord)
      (isOpening : opening.kind = .symbol .leftParen)
      (start : ForInitializer expression first initializerTokens initializer second)
      (test : Optional expression second conditionTokens condition third)
      (isSemicolon : semicolon.kind = .symbol .semicolon)
      (step : Optional expression third incrementTokens increment fourth)
      (isClosing : closing.kind = .symbol .rightParen)
      (repeated : statement dangling fourth bodyTokens body next) :
      Statement expression statement block dangling first
        (word :: opening :: (initializerTokens ++
          (conditionTokens ++ semicolon :: (incrementTokens ++ closing :: bodyTokens))))
        (Parse.forLoop initializer condition increment body) next
  | conditional
      {first middle next : Nat}
      {dangling : Bool}
      {word opening closing : Token}
      {conditionTokens thenTokens : List Token}
      {condition : Expr}
      {thenBranch : Stmt}
      (isWord : word.kind = .keyword .ifWord)
      (isOpening : opening.kind = .symbol .leftParen)
      (inside : expression first conditionTokens condition middle)
      (isClosing : closing.kind = .symbol .rightParen)
      (whenTrue : statement dangling middle thenTokens thenBranch next) :
      Statement expression statement block true first
        (word :: opening :: (conditionTokens ++ closing :: thenTokens))
        (.conditional condition thenBranch none) next
  | alternative
      {first second third next : Nat}
      {dangling : Bool}
      {word opening closing otherwise : Token}
      {conditionTokens thenTokens elseTokens : List Token}
      {condition : Expr}
      {thenBranch elseBranch : Stmt}
      (isWord : word.kind = .keyword .ifWord)
      (isOpening : opening.kind = .symbol .leftParen)
      (inside : expression first conditionTokens condition second)
      (isClosing : closing.kind = .symbol .rightParen)
      (whenTrue : statement false second thenTokens thenBranch third)
      (isOtherwise : otherwise.kind = .keyword .elseWord)
      (whenFalse : statement dangling third elseTokens elseBranch next) :
      Statement expression statement block dangling first
        (word :: opening ::
          (conditionTokens ++ closing :: (thenTokens ++ otherwise :: elseTokens)))
        (.conditional condition thenBranch (some elseBranch)) next

/-- A function or method, from its name on. -/
inductive Function (block : Phrase (List Stmt)) : Phrase FunctionDecl
  | mk
      {first next : Nat}
      {name opening closing brace : Token}
      {parameterTokens bodyTokens parameters : List Token}
      {body : List Stmt}
      (isName : name.kind = .identifier)
      (isOpening : opening.kind = .symbol .leftParen)
      (listed : Listed (Terminal .identifier) first parameterTokens (parameters, closing) first)
      (isBrace : brace.kind = .symbol .leftBrace)
      (inside : block first bodyTokens body next) :
      Function block first
        (name :: opening :: (parameterTokens ++ brace :: bodyTokens))
        ⟨name, parameters, body⟩ next

/-- The superclass in the head of a class, if there is one. -/
inductive Superclass : Phrase (Option Reference)
  | none {first : Nat} : Superclass first [] .none first
  | some
      {first : Nat}
      {less name : Token}
      (isLess : less.kind = .symbol .less)
      (isName : name.kind = .identifier) :
      Superclass first [less, name] (.some ⟨first, name⟩) (first + 1)

/-- Declarations of classes, functions and variables, and statements. -/
inductive Declaration
    (expression : Phrase Expr)
    (statement : Bool -> Phrase Stmt)
    (block : Phrase (List Stmt)) : Phrase Stmt
  | classDecl
      {first middle next : Nat}
      {word name opening closing : Token}
      {superclassTokens methodTokens : List Token}
      {superclass : Option Reference}
      {methods : List FunctionDecl}
      (isWord : word.kind = .keyword .classWord)
      (isName : name.kind = .identifier)
      (inherits : Superclass first superclassTokens superclass middle)
      (isOpening : opening.kind = .symbol .leftBrace)
      (inside : Repeated (Function block) middle methodTokens methods next)
      (isClosing : closing.kind = .symbol .rightBrace) :
      Declaration expression statement block first
        (word :: name :: (superclassTokens ++ opening :: (methodTokens ++ [closing])))
        (.classDecl name superclass methods) next
  | function
      {first next : Nat}
      {word : Token}
      {tokens : List Token}
      {declaration : FunctionDecl}
      (isWord : word.kind = .keyword .fnWord)
      (inside : Function block first tokens declaration next) :
      Declaration expression statement block first (word :: tokens)
        (.function declaration) next
  | variableDecl
      {first next : Nat}
      {word : Token}
      {tokens : List Token}
      {declaration : Stmt}
      (isWord : word.kind = .keyword .varWord)
      (inside : VariableDeclaration expression first tokens declaration next) :
      Declaration expression statement block first (word :: tokens) declaration next
  | statement
      {first next : Nat}
      {dangling : Bool}
      {tokens : List Token}
      {result : Stmt}
      (only : statement dangling first tokens result next) :
      Declaration expression statement block first tokens result next

/-- The declarations of a block and its closing brace, after the opening one. -/
inductive Block (declaration : Phrase Stmt) : Phrase (List Stmt)
  | mk
      {first next : Nat}
      {tokens : List Token}
      {closing : Token}
      {body : List Stmt}
      (inside : Repeated declaration first tokens body next)
      (isClosing : closing.kind = .symbol .rightBrace) :
      Block declaration first (tokens ++ [closing]) body next

mutual

/-- Statements that nest at most the given number of levels. -/
def StatementWithin : Nat -> Bool -> Phrase Stmt
  | 0 => fun _ _ _ _ _ => False
  | room + 1 => Statement (Expression room) (StatementWithin room) (BlockWithin room)

/-- Blocks that nest at most the given number of levels, after their opening
braces. -/
def BlockWithin : Nat -> Phrase (List Stmt)
  | 0 => fun _ _ _ _ => False
  | room + 1 => Block (Declaration (Expression room) (StatementWithin room) (BlockWithin room))

end

/-- Declarations whose parts nest at most the given number of levels. -/
def DeclarationWithin (room : Nat) : Phrase Stmt :=
  Declaration (Expression room) (StatementWithin room) (BlockWithin room)

/-- Programs. -/
def Program : Phrase (List Stmt) :=
  Repeated (DeclarationWithin Parse.maxNesting)

end Grammar
end TreeWalk

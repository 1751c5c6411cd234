import TreeWalk.Token

/-!
# Abstract syntax

Expressions and statements of the language.  Whatever refers to a name that may
be local carries an identifying number, under which name resolution files the
distance to its scope.  Operators and names are kept as tokens, because run-time
errors report their lines.
-/

namespace TreeWalk

/-- The name of the method that sets up new instances. -/
def initializerName : String := "init"

/-- The name that is bound to the receiver in a method. -/
def selfName : String := "this"

/-- The name that is bound to the superclass around the methods of a class. -/
def superclassName : String := "super"

/-- An occurrence of a name, with the number that tells it from all others. -/
structure Reference where
  id : Nat
  name : Token
deriving DecidableEq

/-- A value written out in the source. -/
inductive Literal where
  | number (value : Float)
  | string (contents : String)
  | boolean (value : Bool)
  | null
deriving DecidableEq

/-- Expressions.  `self` and `inherited` are the forms `this` and
`super.method`. -/
inductive Expr where
  | literal (value : Literal)
  | grouping (inner : Expr)
  | unary (operator : Token) (right : Expr)
  | binary (left : Expr) (operator : Token) (right : Expr)
  | logical (left : Expr) (operator : Token) (right : Expr)
  | read (target : Reference)
  | assign (target : Reference) (value : Expr)
  | call (callee : Expr) (paren : Token) (arguments : List Expr)
  | property (object : Expr) (name : Token)
  | setProperty (object : Expr) (name : Token) (value : Expr)
  | self (keyword : Reference)
  | inherited (keyword : Reference) (method : Token)

mutual

/-- Statements.  A loop with a `for` header is made of the others. -/
inductive Stmt where
  | expression (value : Expr)
  | print (value : Expr)
  | declare (name : Token) (initializer : Option Expr)
  | block (body : List Stmt)
  | conditional (condition : Expr) (thenBranch : Stmt) (elseBranch : Option Stmt)
  | loop (condition : Expr) (body : Stmt)
  | function (declaration : FunctionDecl)
  | returns (keyword : Token) (value : Option Expr)
  | classDecl (name : Token) (superclass : Option Reference) (methods : List FunctionDecl)

/-- A named function or method. -/
structure FunctionDecl where
  name : Token
  parameters : List Token
  body : List Stmt

end

/-- The line at which an expression is said to be.  A literal has none. -/
def Expr.line : Expr -> Nat
  | literal _ => 0
  | grouping inner => inner.line
  | unary operator _ => operator.line
  | binary _ operator _ => operator.line
  | logical _ operator _ => operator.line
  | read target => target.name.line
  | assign target _ => target.name.line
  | call _ paren _ => paren.line
  | property _ name => name.line
  | setProperty _ name _ => name.line
  | self keyword => keyword.name.line
  | inherited keyword _ => keyword.name.line

end TreeWalk

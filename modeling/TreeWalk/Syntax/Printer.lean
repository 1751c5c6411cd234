import TreeWalk.Syntax

/-!
# Printing trees

Trees are printed in a parenthesised form with the operator first.
-/

namespace TreeWalk

/-- The printed form of a literal. -/
def Literal.render : Literal -> String
  | number value => Number.display value
  | string contents => contents
  | boolean value => if value then "true" else "false"
  | null => "null"

mutual

/-- The printed form of an expression. -/
def Expr.render : Expr -> String
  | .literal value => value.render
  | .grouping inner => "(group " ++ inner.render ++ ")"
  | .unary operator right => "(" ++ operator.lexeme ++ " " ++ right.render ++ ")"
  | .binary left operator right =>
    "(" ++ operator.lexeme ++ " " ++ left.render ++ " " ++ right.render ++ ")"
  | .logical left operator right =>
    "(" ++ operator.lexeme ++ " " ++ left.render ++ " " ++ right.render ++ ")"
  | .read target => target.name.lexeme
  | .assign target value => "(= " ++ target.name.lexeme ++ " " ++ value.render ++ ")"
  | .call callee _ arguments => "(call " ++ callee.render ++ Expr.renderEach arguments ++ ")"
  | .property object name => "(. " ++ object.render ++ " " ++ name.lexeme ++ ")"
  | .setProperty object name value =>
    "(= (. " ++ object.render ++ " " ++ name.lexeme ++ ") " ++ value.render ++ ")"
  | .self _ => "this"
  | .inherited _ method => "(super " ++ method.lexeme ++ ")"

/-- The printed forms of expressions, each after a blank. -/
def Expr.renderEach : List Expr -> String
  | [] => ""
  | first :: rest => " " ++ first.render ++ Expr.renderEach rest

end

/-- The printed form of an optional part, after a blank. -/
def Expr.renderOptional : Option Expr -> String
  | none => ""
  | some expression => " " ++ expression.render

mutual

/-- The printed form of a statement. -/
def Stmt.render : Stmt -> String
  | .expression value => "(; " ++ value.render ++ ")"
  | .print value => "(print " ++ value.render ++ ")"
  | .declare name initializer => "(var " ++ name.lexeme ++ Expr.renderOptional initializer ++ ")"
  | .block body => "(block" ++ Stmt.renderEach body ++ ")"
  | .conditional condition thenBranch elseBranch =>
    "(if " ++ condition.render ++ " " ++ thenBranch.render ++ Stmt.renderOptional elseBranch ++ ")"
  | .loop condition body => "(while " ++ condition.render ++ " " ++ body.render ++ ")"
  | .function declaration => declaration.render "fn"
  | .returns _ value => "(return" ++ Expr.renderOptional value ++ ")"
  | .classDecl name superclass methods =>
    let parent :=
      match superclass with
      | none => ""
      | some reference => " < " ++ reference.name.lexeme
    "(class " ++ name.lexeme ++ parent ++ Stmt.renderMethods methods ++ ")"

/-- The printed forms of statements, each after a blank. -/
def Stmt.renderEach : List Stmt -> String
  | [] => ""
  | first :: rest => " " ++ first.render ++ Stmt.renderEach rest

/-- The printed form of an optional statement, after a blank. -/
def Stmt.renderOptional : Option Stmt -> String
  | none => ""
  | some statement => " " ++ statement.render

/-- The printed forms of methods, each after a blank. -/
def Stmt.renderMethods : List FunctionDecl -> String
  | [] => ""
  | first :: rest => " " ++ first.render "method" ++ Stmt.renderMethods rest

/-- The printed form of a function, introduced by the given word. -/
def FunctionDecl.render (declaration : FunctionDecl) (word : String) : String :=
  match declaration with
  | ⟨name, parameters, body⟩ =>
    "(" ++ word ++ " " ++ name.lexeme ++
      "(" ++ " ".intercalate (parameters.map (·.lexeme)) ++ ")" ++
      Stmt.renderEach body ++ ")"

end

end TreeWalk

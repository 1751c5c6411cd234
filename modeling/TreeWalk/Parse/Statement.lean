import TreeWalk.Parse.Expression

/-!
# Reading declarations and statements

A declaration introduces a class, a function or a variable, or is a statement.
Statements and blocks count how much deeper they may nest, as expressions do.  A
declaration that cannot be read is noted as an error and skipped, so that reading
goes on after it.
-/

namespace TreeWalk
namespace Parse

/-- Read an expression unless a token of the given kind follows. -/
def optionalUnless
    (kind : Token.Kind)
    (expression : Parse Expr) : Parse (Option Expr) := do
  if ← check kind then return none else return some (← expression)

/-- Read a variable declaration, after its first word. -/
def declareRule (expression : Parse Expr) : Parse Stmt := do
  let name ← expect .identifier "variable name"
  let initializer ←
    match ← accept (.symbol .equal) with
    | some _ => pure (some (← expression))
    | none => pure none
  let _ ← expect (.symbol .semicolon) "';' after variable declaration"
  return .declare name initializer

/-- Read an expression and its semicolon. -/
def expressionStatementRule (expression : Parse Expr) : Parse Stmt := do
  let value ← expression
  let _ ← expect (.symbol .semicolon) "';' after expression"
  return .expression value

/-- Read a print statement, after its first word. -/
def printRule (expression : Parse Expr) : Parse Stmt := do
  let value ← expression
  let _ ← expect (.symbol .semicolon) "';' after value"
  return .print value

/-- Read a return statement, after its first word. -/
def returnRule (keyword : Token) (expression : Parse Expr) : Parse Stmt := do
  let value ← optionalUnless (.symbol .semicolon) expression
  let _ ← expect (.symbol .semicolon) "';' after return value"
  return .returns keyword value

/-- Read a conditional, after its first word.  An `else` belongs to the nearest
one. -/
def conditionalRule (expression : Parse Expr) (statement : Parse Stmt) : Parse Stmt := do
  let _ ← expect (.symbol .leftParen) "'(' after 'if'"
  let condition ← expression
  let _ ← expect (.symbol .rightParen) "')' after if condition"
  let thenBranch ← statement
  match ← accept (.keyword .elseWord) with
  | some _ => return .conditional condition thenBranch (some (← statement))
  | none => return .conditional condition thenBranch none

/-- Read a loop with a single condition, after its first word. -/
def whileRule (expression : Parse Expr) (statement : Parse Stmt) : Parse Stmt := do
  let _ ← expect (.symbol .leftParen) "'(' after 'while'"
  let condition ← expression
  let _ ← expect (.symbol .rightParen) "')' after condition"
  return .loop condition (← statement)

/-- Express a loop with a `for` header by the other statements: the increment
runs after the body, and the initializer before the loop in a scope of its
own. -/
def forLoop
    (initializer : Option Stmt)
    (condition increment : Option Expr)
    (body : Stmt) : Stmt :=
  let repeated :=
    match increment with
    | some expression => .block [body, .expression expression]
    | none => body
  let loop := .loop (condition.getD (.literal (.boolean true))) repeated
  match initializer with
  | some first => .block [first, loop]
  | none => loop

/-- Read the first clause of a `for` header. -/
def forInitializerRule (expression : Parse Expr) : Parse (Option Stmt) := do
  if let some _ ← accept (.symbol .semicolon) then
    return none
  else if let some _ ← accept (.keyword .varWord) then
    return some (← declareRule expression)
  else
    return some (← expressionStatementRule expression)

/-- Read a loop with a `for` header, after its first word. -/
def forRule (expression : Parse Expr) (statement : Parse Stmt) : Parse Stmt := do
  let _ ← expect (.symbol .leftParen) "'(' after 'for'"
  let initializer ← forInitializerRule expression
  let condition ← optionalUnless (.symbol .semicolon) expression
  let _ ← expect (.symbol .semicolon) "';' after loop condition"
  let increment ← optionalUnless (.symbol .rightParen) expression
  let _ ← expect (.symbol .rightParen) "')' after for clauses"
  return forLoop initializer condition increment (← statement)

/-- Read a function or method from its name on. -/
def functionRule (what : String) (block : Parse (List Stmt)) : Parse FunctionDecl := do
  let name ← expect .identifier (what ++ " name")
  let _ ← expect (.symbol .leftParen) ("'(' after " ++ what ++ " name")
  let (parameters, _) ← parenthesized "parameters" (expect .identifier "parameter name")
  let _ ← expect (.symbol .leftBrace) ("'\x7b' before " ++ what ++ " body")
  return ⟨name, parameters, ← block⟩

/-- Read the methods of a class up to its closing brace. -/
def methodsRule (block : Parse (List Stmt)) : Parse (List FunctionDecl) := do
  let methods ← extend (fun (methods : Array FunctionDecl) => do
    if (← check (.symbol .rightBrace)) || (← atEnd) then
      return none
    else
      return some (methods.push (← functionRule "method" block))) #[]
  return methods.toList

/-- Read the name of a superclass, if there is one. -/
def superclassRule : Parse (Option Reference) := do
  match ← accept (.symbol .less) with
  | some _ => return some (← freshReference (← expect .identifier "superclass name"))
  | none => return none

/-- Read a class declaration, after its first word. -/
def classRule (block : Parse (List Stmt)) : Parse Stmt := do
  let name ← expect .identifier "class name"
  let superclass ← superclassRule
  let _ ← expect (.symbol .leftBrace) "'\x7b' before class body"
  let methods ← methodsRule block
  let _ ← expect (.symbol .rightBrace) "'\x7d' after class body"
  return .classDecl name superclass methods

/-- Whether a token of this kind begins a statement that is not an expression. -/
def beginsProperStatement : Token.Kind -> Bool
  | .keyword .forWord => true
  | .keyword .ifWord => true
  | .keyword .printWord => true
  | .keyword .returnWord => true
  | .keyword .whileWord => true
  | .symbol .leftBrace => true
  | _ => false

/-- Read a statement. -/
def statementRule
    (expression : Parse Expr)
    (statement : Parse Stmt)
    (block : Parse (List Stmt)) : Parse Stmt := do
  match ← acceptIf beginsProperStatement with
  | none => expressionStatementRule expression
  | some token =>
    match token.kind with
    | .keyword .forWord => forRule expression statement
    | .keyword .ifWord => conditionalRule expression statement
    | .keyword .printWord => printRule expression
    | .keyword .returnWord => returnRule token expression
    | .keyword .whileWord => whileRule expression statement
    | _ => return .block (← block)

/-- Whether a token of this kind begins a declaration that is not a statement. -/
def beginsProperDeclaration : Token.Kind -> Bool
  | .keyword .classWord => true
  | .keyword .fnWord => true
  | .keyword .varWord => true
  | _ => false

/-- Read a declaration, going on after it even if it is wrong. -/
def declarationRule
    (expression : Parse Expr)
    (statement : Parse Stmt)
    (block : Parse (List Stmt)) : Parse (Option Stmt) :=
  recovering do
    match ← acceptIf beginsProperDeclaration with
    | none => statement
    | some token =>
      match token.kind with
      | .keyword .classWord => classRule block
      | .keyword .fnWord => return .function (← functionRule "function" block)
      | _ => declareRule expression

/-- Read declarations while there may be more of them. -/
def declarationsWhile
    (more : Parse Bool)
    (declaration : Parse (Option Stmt)) : Parse (List Stmt) := do
  let statements ← extend (fun (statements : Array Stmt) => do
    if ← more then
      match ← declaration with
      | some statement => return some (statements.push statement)
      | none => return some statements
    else
      return none) #[]
  return statements.toList

/-- Read the declarations of a block and its closing brace. -/
def blockRule (declaration : Parse (Option Stmt)) : Parse (List Stmt) := do
  let statements ← declarationsWhile
    (do return !((← check (.symbol .rightBrace)) || (← atEnd))) declaration
  let _ ← expect (.symbol .rightBrace) "'\x7d' after block"
  return statements

mutual

/-- Read a statement that may nest the given number of levels. -/
def statement : Nat -> Parse Stmt
  | 0 => fail .nestingTooDeep
  | room + 1 => statementRule (expression room) (statement room) (block room)

/-- Read a block, after its opening brace, that may nest the given number of
levels. -/
def block : Nat -> Parse (List Stmt)
  | 0 => fail .nestingTooDeep
  | room + 1 => blockRule (declarationRule (expression room) (statement room) (block room))

end

end Parse
end TreeWalk

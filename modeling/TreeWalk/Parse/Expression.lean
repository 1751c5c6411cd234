import TreeWalk.Parse.Cursor

/-!
# Reading expressions

An expression is an assignment, whose target is a variable or a property, or a
chain of `or`, `and`, equality, comparison, sum, product, unary and call
operators, each level grouping to the left.

Two of the rules may contain one another without bound: expression, and the
operand of a unary operator.  They count how much deeper they may nest, and
recursion is on that number.  The other rules are given the readers of their
nested parts as arguments.
-/

namespace TreeWalk
namespace Parse

/-- Read one more operand if an operator follows. -/
def nextOperand
    (isOperator : Token.Kind -> Bool)
    (combine : Expr -> Token -> Expr -> Expr)
    (operand : Parse Expr)
    (left : Expr) : Parse (Option Expr) := do
  match ← acceptIf isOperator with
  | none => return none
  | some operator => return some (combine left operator (← operand))

/-- Read operands joined by operators that group to the left. -/
def leftAssociative
    (isOperator : Token.Kind -> Bool)
    (combine : Expr -> Token -> Expr -> Expr)
    (operand : Parse Expr) : Parse Expr := do
  let first ← operand
  extend (nextOperand isOperator combine operand) first

/-- Operators that multiply or divide. -/
def isFactorOperator : Token.Kind -> Bool
  | .symbol .star => true
  | .symbol .slash => true
  | _ => false

/-- Operators that add or subtract. -/
def isTermOperator : Token.Kind -> Bool
  | .symbol .minus => true
  | .symbol .plus => true
  | _ => false

/-- Operators that compare sizes. -/
def isComparisonOperator : Token.Kind -> Bool
  | .symbol .greater => true
  | .symbol .greaterEqual => true
  | .symbol .less => true
  | .symbol .lessEqual => true
  | _ => false

/-- Operators that test for equality. -/
def isEqualityOperator : Token.Kind -> Bool
  | .symbol .bangEqual => true
  | .symbol .equalEqual => true
  | _ => false

/-- Operators with a single operand. -/
def isUnaryOperator : Token.Kind -> Bool
  | .symbol .bang => true
  | .symbol .minus => true
  | _ => false

/-- Read a parenthesised expression, after its opening parenthesis. -/
def groupingRule (expression : Parse Expr) : Parse Expr := do
  let inner ← expression
  let _ ← expect (.symbol .rightParen) "')' after expression"
  return .grouping inner

/-- Read the rest of `super.method`. -/
def inheritedRule (keyword : Token) : Parse Expr := do
  let _ ← expect (.symbol .dot) "'.' after 'super'"
  let method ← expect .identifier "superclass method name"
  return .inherited (← freshReference keyword) method

/-- Whether an expression may begin with a token of this kind that is not an
operator. -/
def beginsPrimary : Token.Kind -> Bool
  | .keyword .falseWord => true
  | .keyword .trueWord => true
  | .keyword .nullWord => true
  | .keyword .thisWord => true
  | .keyword .superWord => true
  | .number _ => true
  | .string _ => true
  | .identifier => true
  | .symbol .leftParen => true
  | _ => false

/-- Read a literal, a name, `this`, `super.method` or a parenthesised
expression. -/
def primaryRule (expression : Parse Expr) : Parse Expr := do
  match ← acceptIf beginsPrimary with
  | none => fail (.expected "expression")
  | some token =>
    match token.kind with
    | .keyword .falseWord => return .literal (.boolean false)
    | .keyword .trueWord => return .literal (.boolean true)
    | .keyword .nullWord => return .literal .null
    | .number value => return .literal (.number value)
    | .string contents => return .literal (.string contents)
    | .identifier => return .read (← freshReference token)
    | .keyword .thisWord => return .self (← freshReference token)
    | .keyword .superWord => inheritedRule token
    | _ => groupingRule expression

/-- Read an argument list or a property name, if one follows. -/
def nextCall (expression : Parse Expr) (callee : Expr) : Parse (Option Expr) := do
  if let some _ ← accept (.symbol .leftParen) then
    let (arguments, paren) ← parenthesized "arguments" expression
    return some (.call callee paren arguments)
  else if let some _ ← accept (.symbol .dot) then
    return some (.property callee (← expect .identifier "property name after '.'"))
  else
    return none

/-- Read a primary expression followed by argument lists and property names. -/
def callRule (expression : Parse Expr) : Parse Expr := do
  let first ← primaryRule expression
  extend (nextCall expression) first

/-- Read a call, or a unary operator and its operand. -/
def unaryRule (operand expression : Parse Expr) : Parse Expr := do
  match ← acceptIf isUnaryOperator with
  | some operator => return .unary operator (← operand)
  | none => callRule expression

/-- Read the levels of binary operators above `unary`. -/
def operatorRule (unary : Parse Expr) : Parse Expr :=
  leftAssociative (· == .keyword .orWord) .logical <|
  leftAssociative (· == .keyword .andWord) .logical <|
  leftAssociative isEqualityOperator .binary <|
  leftAssociative isComparisonOperator .binary <|
  leftAssociative isTermOperator .binary <|
  leftAssociative isFactorOperator .binary unary

/-- Turn the left side of an equals sign into the target of an assignment. -/
def assignmentTo (target : Expr) (equals : Token) (value : Expr) : Parse Expr :=
  match target with
  | .read reference => return .assign (← freshReference reference.name) value
  | .property object name => return .setProperty object name value
  | other => do
    report equals .invalidAssignmentTarget
    return other

/-- Read an operator expression, or an assignment if an equals sign follows. -/
def assignmentRule (unary expression : Parse Expr) : Parse Expr := do
  let left ← operatorRule unary
  match ← accept (.symbol .equal) with
  | some equals => assignmentTo left equals (← expression)
  | none => return left

mutual

/-- Read an expression that may nest the given number of levels. -/
def expression : Nat -> Parse Expr
  | 0 => fail .nestingTooDeep
  | room + 1 => assignmentRule (unaryRule (unaryOperand room) (expression room)) (expression room)

/-- Read the operand of a unary operator that may nest the given number of
levels. -/
def unaryOperand : Nat -> Parse Expr
  | 0 => fail .nestingTooDeep
  | room + 1 => unaryRule (unaryOperand room) (expression room)

end

end Parse
end TreeWalk

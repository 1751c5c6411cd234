import TreeWalk.Evaluation.Step

/-!
# Evaluation

Expressions evaluate to values and statements are executed, both on a machine.
Loops and calls may go on without end, so every step spends one unit of fuel and
evaluation is interrupted when there is none left.  With enough fuel the result
does not depend on how much there is.
-/

namespace TreeWalk

/-- How a statement ends: normally, or by returning a value from the function
around it. -/
inductive Flow where
  | normal
  | returned (value : Value)
deriving DecidableEq

namespace Eval

/-- Evaluate a list of expressions in order. -/
def each (evaluate : Expr -> Eval Value) : List Expr -> Eval (List Value)
  | [] => return []
  | first :: rest => do
    let value ← evaluate first
    return value :: (← each evaluate rest)

/-- Execute statements in order until one of them returns. -/
def sequence (execute : Stmt -> Eval Flow) : List Stmt -> Eval Flow
  | [] => return .normal
  | first :: rest => do
    match ← execute first with
    | .normal => sequence execute rest
    | .returned value => return .returned value

/-- Evaluate an expression that may be missing. -/
def optional (evaluate : Expr -> Eval Value) : Option Expr -> Eval Value
  | none => return .null
  | some expression => evaluate expression

/-- Give each parameter the argument in its position. -/
def bindParameters (parameters : List Token) (arguments : List Value) : Bindings Value :=
  (parameters.zip arguments).foldl
    (fun bindings (parameter, argument) => bindings.set parameter.lexeme argument) .empty

/-- Call a function: execute its body in a new scope that binds the parameters.
An initializer always gives its instance. -/
def callClosure
    (execute : Stmt -> Eval Flow)
    (closure : Closure)
    (arguments : List Value) : Eval Value := do
  let scope ← onHeap (·.newScope (some closure.scope)
    (bindParameters closure.declaration.parameters arguments))
  let flow ← within scope (sequence execute closure.declaration.body)
  if closure.isInitializer then
    return (← get).heap.getAt closure.scope 0 selfName
  else
    match flow with
    | .normal => return .null
    | .returned value => return value

/-- Make an instance of a class and run its initializer, if it has one. -/
def instantiate
    (execute : Stmt -> Eval Flow)
    (place : ClassRef)
    (initializer : Option Closure)
    (arguments : List Value) : Eval Value := do
  let receiver ← onHeap (·.newInstance place)
  match initializer with
  | none => return .object receiver
  | some method =>
    let closure ← onHeap (·.bindMethod method receiver)
    let _ ← callClosure execute closure arguments
    return .object receiver

/-- Carry out a call with a matching number of arguments. -/
def call
    (execute : Stmt -> Eval Flow)
    (arguments : List Value) : Callable -> Eval Value
  | .native function => callNative function arguments
  | .closure function => callClosure execute function arguments
  | .ofClass place initializer => instantiate execute place initializer arguments

/-- Check that a value can be called with these arguments at this depth, and
call it. -/
def invoke
    (execute : Stmt -> Eval Flow)
    (callee : Value)
    (paren : Token)
    (arguments : List Value) : Eval Value := do
  let machine ← get
  match machine.heap.callable? callee with
  | none => fail paren.line .notCallable
  | some callable =>
    if arguments.length ≠ callable.arity then
      fail paren.line (.wrongArity callable.arity arguments.length)
    else if maxCallDepth ≤ machine.callDepth then
      fail paren.line .stackOverflow
    else
      asCall paren.line (call execute arguments callable)

/-- Execute a function declaration: bind its name to a function that remembers
the current scope. -/
def declareFunction (declaration : FunctionDecl) : Eval Unit := do
  let scope := (← get).scope
  let place ← onHeap (·.newFunction ⟨declaration, scope, false⟩)
  define declaration.name.lexeme (.function place)

/-- The class that a reference to a superclass means. -/
def superclassOf (reference : Reference) : Eval ClassRef := do
  match ← readVariable reference with
  | .classObject place => return place
  | _ => fail reference.name.line .superclassNotClass

/-- The methods of a class body, as functions that remember a scope.  Of two
methods with one name the later counts. -/
def methodTable (scope : ScopeRef) (methods : List FunctionDecl) : Bindings Closure :=
  methods.foldl
    (fun table method =>
      table.set method.name.lexeme ⟨method, scope, method.name.lexeme = initializerName⟩)
    .empty

/-- Execute a class declaration.  Its methods remember the current scope or, if
there is a superclass, a scope inside it that binds the superclass. -/
def declareClass
    (name : Token)
    (superclass : Option Reference)
    (methods : List FunctionDecl) : Eval Unit := do
  let parent ←
    match superclass with
    | none => pure none
    | some reference => pure (some (← superclassOf reference))
  define name.lexeme .null
  let current := (← get).scope
  let (scope, inherited) ←
    match parent with
    | none => pure (current, [])
    | some place =>
      let scope ← onHeap (·.newScope (some current)
        (Bindings.empty.set superclassName (.classObject place)))
      pure (scope, (((← get).heap.class? place).map (·.lineage)).getD [])
  let place ← onHeap (·.newClass ⟨name.lexeme, methodTable scope methods :: inherited⟩)
  assignFrom current name (.classObject place)

mutual

/-- Evaluate an expression. -/
def evaluate : Nat -> Expr -> Eval Value
  | 0, _ => throw .outOfFuel
  | _ + 1, .literal value => return value.toValue
  | fuel + 1, .grouping inner => evaluate fuel inner
  | fuel + 1, .unary operator right => do applyUnary operator (← evaluate fuel right)
  | fuel + 1, .binary left operator right => do
    let leftValue ← evaluate fuel left
    applyBinary operator leftValue (← evaluate fuel right)
  | fuel + 1, .logical left operator right => do
    let leftValue ← evaluate fuel left
    if decidedBy operator leftValue then return leftValue else evaluate fuel right
  | _ + 1, .read target => readVariable target
  | fuel + 1, .assign target value => do
    let result ← evaluate fuel value
    assignVariable target result
    return result
  | fuel + 1, .call callee paren arguments => do
    let function ← evaluate fuel callee
    let values ← each (evaluate fuel) arguments
    invoke (execute fuel) function paren values
  | fuel + 1, .property object name => do
    match ← evaluate fuel object with
    | .object receiver => readProperty receiver name
    | _ => fail name.line .noProperties
  | fuel + 1, .setProperty object name value => do
    match ← evaluate fuel object with
    | .object receiver =>
      let result ← evaluate fuel value
      changeHeap (·.setField receiver name.lexeme result)
      return result
    | _ => fail name.line .noFields
  | _ + 1, .self keyword => readVariable keyword
  | _ + 1, .inherited keyword method => readInherited keyword method

/-- Execute a statement. -/
def execute : Nat -> Stmt -> Eval Flow
  | 0, _ => throw .outOfFuel
  | fuel + 1, .expression value => do
    let _ ← evaluate fuel value
    return .normal
  | fuel + 1, .print value => do
    printLine (← evaluate fuel value)
    return .normal
  | fuel + 1, .declare name initializer => do
    define name.lexeme (← optional (evaluate fuel) initializer)
    return .normal
  | fuel + 1, .block body => do
    let current := (← get).scope
    let scope ← onHeap (·.newScope (some current) .empty)
    within scope (sequence (execute fuel) body)
  | fuel + 1, .conditional condition thenBranch elseBranch => do
    if (← evaluate fuel condition).isTruthy then
      execute fuel thenBranch
    else
      match elseBranch with
      | none => return .normal
      | some statement => execute fuel statement
  | fuel + 1, .loop condition body => repeatWhile fuel condition body
  | _ + 1, .function declaration => do
    declareFunction declaration
    return .normal
  | fuel + 1, .returns _ value => return .returned (← optional (evaluate fuel) value)
  | _ + 1, .classDecl name superclass methods => do
    declareClass name superclass methods
    return .normal

/-- Execute a statement over and over while a condition holds. -/
def repeatWhile : Nat -> Expr -> Stmt -> Eval Flow
  | 0, _, _ => throw .outOfFuel
  | fuel + 1, condition, body => do
    if (← evaluate fuel condition).isTruthy then
      match ← execute fuel body with
      | .normal => repeatWhile fuel condition body
      | .returned value => return .returned value
    else
      return .normal

end

/-- Execute statements in a given scope. -/
def executeBlock (fuel : Nat) (statements : List Stmt) (scope : ScopeRef) : Eval Flow :=
  within scope (sequence (execute fuel) statements)

end Eval
end TreeWalk

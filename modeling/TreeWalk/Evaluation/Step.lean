import TreeWalk.Interruption
import TreeWalk.Machine

/-!
# Steps of evaluation

The steps that do not evaluate anything else: reading and changing variables,
writing output, applying operators, and reading properties.  An `Eval` changes
the machine and either gives a result or is interrupted.  The machine of an
interrupted evaluation is kept.
-/

namespace TreeWalk

/-- An evaluation. -/
abbrev Eval := EStateM Interruption Machine

namespace Eval

/-- Fail at a line. -/
def fail {α : Type} (line : Nat) (fault : RuntimeFault) : Eval α :=
  throw (.failure line fault)

/-- Run a step on the heap. -/
@[inline] def onHeap {α : Type} (step : Heap -> α × Heap) : Eval α :=
  fun machine =>
    let (result, heap) := step machine.heap
    .ok result { machine with heap := heap }

/-- Change the heap. -/
@[inline] def changeHeap (step : Heap -> Heap) : Eval Unit :=
  fun machine => .ok () { machine with heap := step machine.heap }

/-- Run an evaluation with another current scope, and go back to the present one
however it ends. -/
@[inline] def within {α : Type} (scope : ScopeRef) (body : Eval α) : Eval α :=
  fun machine =>
    let previous := machine.scope
    match body { machine with scope := scope } with
    | .ok result after => .ok result { after with scope := previous }
    | .error interruption after => .error interruption { after with scope := previous }

/-- Run an evaluation as a call in progress.  A failure without a line gets the
given one. -/
@[inline] def asCall {α : Type} (line : Nat) (body : Eval α) : Eval α :=
  fun machine =>
    match body { machine with callDepth := machine.callDepth + 1 } with
    | .ok result after => .ok result { after with callDepth := after.callDepth - 1 }
    | .error interruption after =>
      .error (interruption.orLine line) { after with callDepth := after.callDepth - 1 }

/-- Write a value and a line feed to the output. -/
def printLine (value : Value) : Eval Unit :=
  fun machine =>
    let bytes := (machine.heap.display value ++ "\n").toUTF8
    let fits := machine.output.admits bytes.size
    let after := { machine with output := machine.output.keep bytes }
    if fits then .ok () after else .error (.outputFull machine.output.fullText) after

/-- Bind a name in the current scope. -/
def define (name : String) (value : Value) : Eval Unit :=
  fun machine => .ok () { machine with heap := machine.heap.define machine.scope name value }

/-- Read a variable: at its distance if it has one, and else from the
globals. -/
def readVariable (reference : Reference) : Eval Value :=
  fun machine =>
    match machine.distances[reference.id]? with
    | some distance =>
      .ok (machine.heap.getAt machine.scope distance reference.name.lexeme) machine
    | none =>
      match machine.heap.get? machine.globals reference.name.lexeme with
      | some value => .ok value machine
      | none => fail reference.name.line (.undefinedVariable reference.name.lexeme) machine

/-- Change a variable along the chain of a scope. -/
def assignFrom (scope : ScopeRef) (name : Token) (value : Value) : Eval Unit :=
  fun machine =>
    match machine.heap.assign? scope name.lexeme value with
    | some heap => .ok () { machine with heap := heap }
    | none => fail name.line (.undefinedVariable name.lexeme) machine

/-- Change a variable: at its distance if it has one, and else among the
globals. -/
def assignVariable (reference : Reference) (value : Value) : Eval Unit :=
  fun machine =>
    match machine.distances[reference.id]? with
    | some distance =>
      .ok () { machine with
        heap := machine.heap.assignAt machine.scope distance reference.name.lexeme value }
    | none => assignFrom machine.globals reference.name value machine

/-- Apply a unary operator. -/
def applyUnary (operator : Token) (right : Value) : Eval Value :=
  match operator.kind with
  | .symbol .bang => return .boolean !right.isTruthy
  | .symbol .minus =>
    match right with
    | .number x => return .number (-x)
    | _ => fail operator.line (.operandNotNumber operator.lexeme)
  | _ => fail operator.line (.invalidUnaryOperator operator.lexeme)

/-- Add numbers, or join texts if one of the operands is a string. -/
def add (operator : Token) (left right : Value) : Eval Value := do
  match left, right with
  | .number x, .number y => return .number (x + y)
  | .string text, other => return .string (text ++ (← get).heap.display other)
  | other, .string text => return .string ((← get).heap.display other ++ text)
  | left, right =>
    fail operator.line (.operandsNotAddable operator.lexeme left.typeName right.typeName)

/-- Apply an operator that takes two numbers. -/
def applyNumeric (operator : Token) (x y : Float) : Eval Value :=
  match operator.kind with
  | .symbol .minus => return .number (x - y)
  | .symbol .star => return .number (x * y)
  | .symbol .slash => return .number (x / y)
  | .symbol .greater => return .boolean (x > y)
  | .symbol .greaterEqual => return .boolean (x ≥ y)
  | .symbol .less => return .boolean (x < y)
  | .symbol .lessEqual => return .boolean (x ≤ y)
  | _ => fail operator.line (.invalidBinaryOperator operator.lexeme)

/-- Apply a binary operator. -/
def applyBinary (operator : Token) (left right : Value) : Eval Value :=
  match operator.kind with
  | .symbol .equalEqual => return .boolean (left = right)
  | .symbol .bangEqual => return .boolean (left ≠ right)
  | .symbol .plus => add operator left right
  | _ =>
    match left, right with
    | .number x, .number y => applyNumeric operator x y
    | _, _ => fail operator.line (.operandsNotNumbers operator.lexeme)

/-- Whether a logical operator is decided by its left operand.  Every operator
other than `or` is taken for `and`. -/
def decidedBy (operator : Token) (left : Value) : Bool :=
  if operator.isKeyword .orWord then left.isTruthy else !left.isTruthy

/-- Make a function value of a method bound to an instance. -/
def bound (method : Closure) (receiver : InstanceRef) : Eval Value :=
  onHeap fun heap =>
    let (closure, heap) := heap.bindMethod method receiver
    let (place, heap) := heap.newFunction closure
    (.function place, heap)

/-- Read a property of an instance: a field, or else a method bound to the
instance. -/
def readProperty (receiver : InstanceRef) (name : Token) : Eval Value := do
  let heap := (← get).heap
  let object := heap.instance? receiver
  match object.bind (·.fields.get? name.lexeme) with
  | some value => return value
  | none =>
    match object.bind fun object => heap.method? object.ofClass name.lexeme with
    | some method => bound method receiver
    | none => fail name.line (.undefinedProperty name.lexeme)

/-- Read a method of the superclass, bound to the present receiver.  The scope
of the receiver is the one just inside that of the superclass. -/
def readInherited (keyword : Reference) (method : Token) : Eval Value := do
  let machine ← get
  match machine.distances[keyword.id]? with
  | none => fail keyword.name.line .inheritedOutsideClass
  | some distance =>
    match machine.heap.getAt machine.scope distance superclassName,
      machine.heap.getAt machine.scope (distance - 1) selfName with
    | .classObject superclass, .object receiver =>
      match machine.heap.method? superclass method.lexeme with
      | some found => bound found receiver
      | none => fail method.line (.undefinedProperty method.lexeme)
    | _, _ => fail keyword.name.line .inheritedOutsideMethod

/-- Go on to the next reading of the clock. -/
def tick : Eval Unit :=
  fun machine =>
    .ok () { machine with clock := { machine.clock with readings := machine.clock.readings + 1 } }

/-- Read the clock. -/
def readClock : Eval Value := do
  let clock := (← get).clock
  tick
  match clock.failure? clock.readings with
  | none => return .number (clock.reading clock.readings)
  | some text => fail 0 (.native ("Clock error: " ++ text))

/-- Call a native function.  Its errors have no line of their own. -/
def callNative (native : Native) (arguments : List Value) : Eval Value :=
  match native.body with
  | .clock => readClock
  | .compute apply =>
    match apply arguments with
    | .ok value => return value
    | .error text => fail 0 (.native text)

end Eval
end TreeWalk

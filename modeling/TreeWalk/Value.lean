import TreeWalk.Number.Notation
import TreeWalk.Syntax

/-!
# Values

What expressions evaluate to.  Functions, classes and instances live on the heap
and a value only refers to them, so equality of values is identity for these.
Numbers are equal when they are the same double: not-a-number equals itself and
the two zeros differ.
-/

namespace TreeWalk

/-- The place of a scope on the heap. -/
structure ScopeRef where
  index : Nat
deriving DecidableEq, Repr

/-- The place of a native function on the heap. -/
structure NativeRef where
  index : Nat
deriving DecidableEq, Repr

/-- The place of a function on the heap. -/
structure FunctionRef where
  index : Nat
deriving DecidableEq, Repr

/-- The place of a class on the heap. -/
structure ClassRef where
  index : Nat
deriving DecidableEq, Repr

/-- The place of an instance on the heap. -/
structure InstanceRef where
  index : Nat
deriving DecidableEq, Repr

/-- What an expression evaluates to. -/
inductive Value where
  | null
  | boolean (value : Bool)
  | number (value : Float)
  | string (text : String)
  | native (place : NativeRef)
  | function (place : FunctionRef)
  | classObject (place : ClassRef)
  | object (place : InstanceRef)
deriving DecidableEq

namespace Value

/-- Whether a value counts as true in a condition.  Only null and false do
not. -/
def isTruthy : Value -> Bool
  | null => false
  | boolean value => value
  | _ => true

/-- Whether a value refers to nothing: it is null, a boolean, a number or a string. -/
def isPlain : Value -> Bool
  | null => true
  | boolean _ => true
  | number _ => true
  | string _ => true
  | _ => false

/-- The name of the type of a value. -/
def typeName : Value -> String
  | null => "null"
  | boolean _ => "boolean"
  | number _ => "number"
  | string _ => "string"
  | native _ => "function"
  | function _ => "function"
  | classObject _ => "class"
  | object _ => "instance"

end Value

/-- The value of a literal. -/
def Literal.toValue : Literal -> Value
  | number value => .number value
  | string contents => .string contents
  | boolean value => .boolean value
  | null => .null

/-- What a native function does: read the clock, or compute from its arguments a
value or the text of an error. -/
inductive Native.Body where
  | clock
  | compute (apply : List Value -> Except String Value)

/-- A function that is not written in the language. -/
structure Native where
  name : String
  arity : Nat
  body : Native.Body

end TreeWalk

import TreeWalk.Error

/-!
# Interruptions

An evaluation that does not come to a result is interrupted: the program fails at
a line, the output is full, or the fuel has run out.
-/

namespace TreeWalk

/-- Why a running program fails. -/
inductive RuntimeFault where
  | operandNotNumber (operator : String)
  | operandsNotNumbers (operator : String)
  | operandsNotAddable (operator leftType rightType : String)
  | invalidUnaryOperator (operator : String)
  | invalidBinaryOperator (operator : String)
  | undefinedVariable (name : String)
  | undefinedProperty (name : String)
  | noProperties
  | noFields
  | inheritedOutsideClass
  | inheritedOutsideMethod
  | superclassNotClass
  | notCallable
  | wrongArity (expected got : Nat)
  | stackOverflow
  | native (text : String)
deriving DecidableEq, Repr

/-- The wording of a runtime fault. -/
def RuntimeFault.message : RuntimeFault -> String
  | operandNotNumber operator => "Operand of '" ++ operator ++ "' must be a number."
  | operandsNotNumbers operator => "Operands of '" ++ operator ++ "' must be numbers."
  | operandsNotAddable operator leftType rightType =>
    "Operands of '" ++ operator ++ "' must be two numbers or at least one string, got " ++
      leftType ++ " and " ++ rightType ++ "."
  | invalidUnaryOperator operator => "Invalid unary operator '" ++ operator ++ "'."
  | invalidBinaryOperator operator => "Invalid binary operator '" ++ operator ++ "'."
  | undefinedVariable name => "Undefined variable '" ++ name ++ "'."
  | undefinedProperty name => "Undefined property '" ++ name ++ "'."
  | noProperties => "Only instances have properties."
  | noFields => "Only instances have fields."
  | inheritedOutsideClass => "Can't use 'super' outside of a class."
  | inheritedOutsideMethod => "Can't use 'super' outside of a method."
  | superclassNotClass => "Superclass must be a class."
  | notCallable => "Can only call functions and classes."
  | wrongArity expected got =>
    "Expected " ++ toString expected ++ " arguments but got " ++ toString got ++ "."
  | stackOverflow => "Stack overflow."
  | native text => text

/-- Why an evaluation ends without a result.  An output that is full has an error
text. -/
inductive Interruption where
  | failure (line : Nat) (fault : RuntimeFault)
  | outputFull (text : String)
  | outOfFuel
deriving DecidableEq, Repr

namespace Interruption

/-- Give a line to a failure that has none yet, which is one at line zero. -/
def orLine (line : Nat) : Interruption -> Interruption
  | failure 0 fault => failure line fault
  | other => other

/-- The error that an interruption is reported as.  Running out of fuel is
none. -/
def error? : Interruption -> Option Error
  | failure line fault => some (.runtime line fault.message)
  | outputFull text => some (.output text)
  | outOfFuel => none

end Interruption

end TreeWalk

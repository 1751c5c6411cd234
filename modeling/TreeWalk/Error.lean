import TreeWalk.Token

/-!
# Errors and diagnostics

Every stage describes its failures by causes of its own.  Here they meet: an
`Error` carries the finished wording and its place, and a `Diagnostic` is the
flat form in which errors are reported.
-/

namespace TreeWalk

/-- The stages that report errors. -/
inductive Phase where
  | lexical
  | syntactic
  | static
  | runtime
deriving DecidableEq, Repr

namespace Phase

/-- The name of a phase in running text. -/
def name : Phase -> String
  | lexical => "lexical"
  | syntactic => "syntactic"
  | static => "static"
  | runtime => "runtime"

/-- The name of a phase in a diagnostic record. -/
def title : Phase -> String
  | lexical => "Lexical"
  | syntactic => "Syntactic"
  | static => "Static"
  | runtime => "Runtime"

end Phase

/-- A failure with its wording and its place. -/
inductive Error where
  | lexical (line : Nat) (text : String)
  | syntactic (token : Token) (text : String)
  | static (token : Token) (text : String)
  | runtime (line : Nat) (text : String)
  | output (text : String)
deriving DecidableEq

/-- A reported error. -/
structure Diagnostic where
  line : Nat
  phase : Phase
  message : String
deriving DecidableEq, Repr

namespace Error

/-- Where an error at a token is said to be. -/
def place (token : Token) : String :=
  match token.kind with
  | .endOfInput => " at end"
  | _ => " at '" ++ token.lexeme ++ "'"

/-- The text reported for an error that is found before a program runs. -/
def located (line : Nat) (place text : String) : String :=
  "[line " ++ toString line ++ "] Error" ++ place ++ ": " ++ text

/-- The text reported for an error. -/
def message : Error -> String
  | lexical line text => located line "" text
  | syntactic token text => located token.line (place token) text
  | static token text => located token.line (place token) text
  | runtime line text => text ++ "\n[line " ++ toString line ++ "]"
  | output text => text

/-- The line of an error.  A failing output has none. -/
def line? : Error -> Option Nat
  | lexical line _ => some line
  | syntactic token _ => some token.line
  | static token _ => some token.line
  | runtime line _ => some line
  | output _ => none

/-- The phase under which an error is filed. -/
def phase : Error -> Phase
  | lexical _ _ => .lexical
  | syntactic _ _ => .syntactic
  | static _ _ => .static
  | runtime _ _ => .runtime
  | output _ => .lexical

/-- Give a line to a runtime error that has none yet, which is one at line
zero. -/
def orLine (error : Error) (line : Nat) : Error :=
  match error with
  | runtime 0 text => runtime line text
  | other => other

/-- The diagnostic of an error. -/
def diagnostic (error : Error) : Diagnostic :=
  ⟨error.line?.getD 0, error.phase, error.message⟩

/-- Whether an error was filed under a phase before the program runs. -/
def isStatic (error : Error) : Bool :=
  error.phase != .runtime

/-- Whether an error was filed under the phase in which the program runs. -/
def isRuntime (error : Error) : Bool :=
  error.phase == .runtime

end Error
end TreeWalk

import TreeWalk.Evaluation
import TreeWalk.Parse.Program

/-!
# Sessions

A session runs one source text after the other on the same machine.  A text with
lexical, syntactic or static errors is not executed at all.  The distances of
references outside of functions are dropped once a run is over, because nothing
can evaluate them again.
-/

namespace TreeWalk

/-- More fuel than any run on a real machine can spend. -/
def ampleFuel : Nat := Nat.pow 2 62

/-- A machine between two runs, the next unused reference number, and whether the
values of top-level expressions are printed. -/
structure Session where
  machine : Machine
  nextId : Nat := 0
  echo : Bool := false

/-- What a run came to. -/
structure RunResult where
  executed : Nat
  errors : List Error
  rejected : Bool

namespace RunResult

/-- Whether the run failed while it was executed. -/
def failed (result : RunResult) : Bool :=
  !result.rejected && result.errors.any (·.isRuntime)

/-- The diagnostics of the run. -/
def diagnostics (result : RunResult) : List Diagnostic :=
  result.errors.map (·.diagnostic)

end RunResult

namespace Session

/-- A session on a fresh machine. -/
def fresh (clock : Clock) (output : Output) : Session :=
  { machine := .fresh clock output }

/-- How many references of executed programs still have a distance. -/
def resolvedLocals (session : Session) : Nat :=
  session.machine.distances.size

/-- Execute a statement at the top level.  With `echo`, the value of an
expression statement is printed. -/
def executeTopLevel (fuel : Nat) (echo : Bool) (statement : Stmt) : Eval Unit := do
  match statement with
  | .expression value =>
    let result ← Eval.evaluate fuel value
    if echo then Eval.printLine result
  | _ =>
    let _ ← Eval.execute fuel statement

/-- Execute statements until one of them is interrupted, counting those that were
not. -/
def interpret
    (fuel : Nat)
    (echo : Bool) : List Stmt -> Nat -> Machine -> Nat × Option Interruption × Machine
  | [], executed, machine => (executed, none, machine)
  | first :: rest, executed, machine =>
    match executeTopLevel fuel echo first machine with
    | .ok _ after => interpret fuel echo rest (executed + 1) after
    | .error interruption after => (executed, some interruption, after)

/-- Execute a program that has been found free of static errors, and flush the
output. -/
def runAccepted
    (fuel : Nat)
    (program : List Stmt)
    (resolution : Resolution)
    (session : Session) : Option (RunResult × Session) :=
  let machine := session.machine.noteDistances resolution.distances
  match interpret fuel session.echo program 0 machine with
  | (executed, interruption, after) =>
    let finished :=
      { session with machine := after.flushed.forgetDistances resolution.topLevel.toList }
    match interruption with
    | none => some (⟨executed, [], false⟩, finished)
    | some interruption =>
      interruption.error?.map fun error => (⟨executed, [error], false⟩, finished)

/-- Run a source text.  There is no result if the fuel does not suffice. -/
def run (fuel : Nat) (source : String) (session : Session) : Option (RunResult × Session) :=
  let parsed := parseProgram source session.nextId
  let resolution := resolve session.machine.globalNames parsed.result
  let errors := parsed.errors ++ resolution.errors.toList.map (·.toError)
  let numbered := { session with nextId := parsed.nextId }
  if errors.isEmpty then
    runAccepted fuel parsed.result resolution numbered
  else
    some (⟨0, errors, true⟩, numbered)

end Session

/-- Evaluate an expression on a machine, giving its value or the error that it
fails with.  There is no result if the fuel does not suffice. -/
def evaluateOn
    (fuel : Nat)
    (expression : Expr)
    (machine : Machine) : Option (Except Error Value × Machine) :=
  match Eval.evaluate fuel expression machine with
  | .ok value after => some (.ok value, after)
  | .error interruption after => interruption.error?.map fun error => (.error error, after)

end TreeWalk

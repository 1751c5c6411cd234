import TreeWalk.CommandLine.Arguments
import TreeWalk.CommandLine.FileTree
import TreeWalk.CommandLine.Transcript
import TreeWalk.Json
import TreeWalk.Session
import TreeWalk.Syntax.Printer
import TreeWalk.Text.Quoted

/-!
# Commands on files

Each command answers the contents of a source file with a transcript: it lists
the tokens, prints the trees of the statements, prints the value of an
expression, or runs the program.
-/

namespace TreeWalk

/-- List the tokens, one a line, with the errors on the standard error. -/
def listTokens (source : String) : Transcript :=
  let scan := Scan.ofSource source
  let lines := scan.allItems.filterMap fun
    | .token token => some (token.listing ++ "\n")
    | .fault _ _ => none
  let transcript := ({} : Transcript).print (String.join lines)
  if scan.errors.isEmpty then
    transcript
  else
    (transcript.report scan.errors).exit Transcript.staticFailure

/-- List the tokens as a JSON document, with the errors as another one. -/
def listTokensAsJson (source : String) : Transcript :=
  let scan := Scan.ofSource source
  let tokens := scan.tokens ++ [scan.endToken]
  let document (items : List Json) : String := (Json.array items).indented "" ++ "\n"
  let transcript := ({} : Transcript).print (document (tokens.map (·.toJson)))
  if scan.errors.isEmpty then
    transcript
  else
    (transcript.complain (document (scan.errors.map (·.diagnostic.toJson)))).exit
      Transcript.staticFailure

/-- Print the statements of a program. -/
def printProgram (source : String) : Transcript :=
  let parsed := parseProgram source 0
  if parsed.errors.isEmpty then
    ({} : Transcript).print
      (String.join (parsed.result.map fun statement => statement.render ++ "\n"))
  else
    (({} : Transcript).report parsed.errors).exit Transcript.staticFailure

/-- Print the value of an expression. -/
def printValue (fuel : Nat) (clock : Clock) (source : String) : Option Transcript :=
  let parsed := parseExpression source
  match parsed.result, parsed.errors with
  | some expression, [] =>
    (evaluateOn fuel expression (.fresh clock {})).map fun
      | (.ok value, machine) => ({} : Transcript).print (machine.heap.display value ++ "\n")
      | (.error error, _) => (({} : Transcript).report [error]).exit Transcript.runtimeFailure
  | _, errors => some ((({} : Transcript).report errors).exit Transcript.staticFailure)

/-- The exit code after a run. -/
def RunResult.exitCode (result : RunResult) : Nat :=
  if result.rejected then Transcript.staticFailure
  else if result.failed then Transcript.runtimeFailure
  else 0

/-- Run a text in a session, adding what it writes to a transcript. -/
def Transcript.runIn
    (transcript : Transcript)
    (fuel : Nat)
    (source : String)
    (session : Session) : Option (RunResult × Transcript × Session) :=
  let start := session.machine.output.written.size
  (session.run fuel source).map fun (result, after) =>
    (result, (transcript.print (after.machine.output.textFrom start)).report result.errors, after)

/-- Run a program. -/
def runProgram (fuel : Nat) (clock : Clock) (source : String) : Option Transcript :=
  (({} : Transcript).runIn fuel source (.fresh clock {})).map fun (result, transcript, _) =>
    transcript.exit result.exitCode

/-- Carry out a command on a source text. -/
def FileCommand.onSource
    (command : FileCommand)
    (fuel : Nat)
    (clock : Clock)
    (source : String) : Option Transcript :=
  match command with
  | .tokenize false => some (listTokens source)
  | .tokenize true => some (listTokensAsJson source)
  | .parse => some (printProgram source)
  | .evaluate => printValue fuel clock source
  | .run => runProgram fuel clock source

/-- Carry out a command on a file.  There is no transcript if the fuel does not
suffice. -/
def FileCommand.onContents
    (command : FileCommand)
    (fuel : Nat)
    (clock : Clock)
    (file : String)
    (contents : FileContents) : Option Transcript :=
  let failed (action cause : String) : Transcript :=
    ({} : Transcript).unreadable ("Failed to " ++ action ++ " file " ++ quoted file) cause
  match contents with
  | .unopened fault => some (failed "open" fault.message)
  | .unread fault => some (failed "read" fault.message)
  | .bytes bytes =>
    match String.fromUTF8? bytes with
    | some source => command.onSource fuel clock source
    | none => some (failed "read" notUtf8)

end TreeWalk

import TreeWalk.Error

/-!
# Transcripts

What a command writes to the standard output and the standard error, and the exit
code with which it ends.
-/

namespace TreeWalk

/-- What a command writes, and its exit code. -/
structure Transcript where
  exitCode : Nat := 0
  standardOutput : String := ""
  standardError : String := ""
deriving DecidableEq, Repr

namespace Transcript

/-- The exit code after a failure to read the input. -/
def inputFailure : Nat := 1

/-- The exit code after wrong arguments. -/
def usageFailure : Nat := 2

/-- The exit code after lexical, syntactic or static errors. -/
def staticFailure : Nat := 65

/-- The exit code after a runtime error. -/
def runtimeFailure : Nat := 70

/-- Add to the standard output. -/
def print (transcript : Transcript) (text : String) : Transcript :=
  { transcript with standardOutput := transcript.standardOutput ++ text }

/-- Add to the standard error. -/
def complain (transcript : Transcript) (text : String) : Transcript :=
  { transcript with standardError := transcript.standardError ++ text }

/-- Set the exit code. -/
def exit (transcript : Transcript) (code : Nat) : Transcript :=
  { transcript with exitCode := code }

/-- Report errors, one after the other. -/
def report (transcript : Transcript) (errors : List Error) : Transcript :=
  transcript.complain (String.join (errors.map fun error => error.message ++ "\n"))

/-- Report that the input could not be read, and why. -/
def unreadable (transcript : Transcript) (context cause : String) : Transcript :=
  (transcript.complain
    ("Error: " ++ context ++ "\n\nCaused by:\n    " ++ cause ++ "\n")).exit inputFailure

end Transcript

/-- The cause of failure of a text that is not in UTF-8. -/
def notUtf8 : String := "stream did not contain valid UTF-8"

end TreeWalk

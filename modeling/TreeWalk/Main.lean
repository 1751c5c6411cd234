import Std.Time.DateTime.Timestamp
import TreeWalk.CommandLine.Prompt

/-!
# The program

Reads arguments, files and lines, and writes what the commands answer.
-/

namespace TreeWalk

/-- A clock that starts at the present time and moves on by a microsecond with
every reading. -/
def Clock.now : IO Clock := do
  let start ← Std.Time.Timestamp.now
  let seconds := Float.ofInt start.toNanosecondsSinceUnixEpoch.val / 1000000000
  return { reading := fun n => seconds + n.toFloat / 1000000 }

/-- What came of reading a file.  A fault that was found when the file was opened
comes with its name, and one that was found later without. -/
def FileContents.ofFile (file : String) : IO FileContents := do
  try
    return .bytes (← IO.FS.readBinFile file)
  catch
    | .noFileOrDirectory .. => return .unopened .missing
    | .permissionDenied .. => return .unopened .denied
    | .inappropriateType (some _) .. => return .unopened .notDirectory
    | .inappropriateType none .. => return .unread .isDirectory
    | .invalidArgument .. => return .unopened .nameTooLong
    | other => return .unread (.other (toString other))

/-- Write a transcript. -/
def Transcript.write (transcript : Transcript) : IO Unit := do
  let output ← IO.getStdout
  output.putStr transcript.standardOutput
  output.flush
  (← IO.getStderr).putStr transcript.standardError

/-- Write the transcript of a command and give its exit code. -/
def Transcript.finish (transcript : Option Transcript) : IO UInt32 := do
  match transcript with
  | some transcript =>
    transcript.write
    return transcript.exitCode.toUInt32
  | none => return Transcript.runtimeFailure.toUInt32

/-- Read a line with its line end, or what is left of the input. -/
partial def readLine (input : IO.FS.Stream) (line : ByteArray) : IO ByteArray := do
  let next ← input.read 1
  if next.isEmpty then
    return line
  else if next.data.contains 10 then
    return line ++ next
  else
    readLine input (line ++ next)

/-- Read and answer lines until there are no more of them. -/
partial def promptLoop (session : Session) : IO UInt32 := do
  (({} : Transcript).print promptMark).write
  let line ← readLine (← IO.getStdin) .empty
  if line.isEmpty then
    Transcript.finish (some (({} : Transcript).print "\n"))
  else
    match ({} : Transcript).answerLine ampleFuel line session with
    | none => Transcript.finish none
    | some (transcript, none) => Transcript.finish (some transcript)
    | some (transcript, some after) =>
      transcript.write
      promptLoop after

/-- Carry out an invocation. -/
def Invocation.perform (invocation : Invocation) : IO UInt32 := do
  if invocation.log then
    IO.FS.writeFile logFileName ""
  let clock ← Clock.now
  match invocation.command with
  | .prompt => promptLoop (.forPrompt clock)
  | .onFile command file =>
    Transcript.finish (command.onContents ampleFuel clock file (← FileContents.ofFile file))

end TreeWalk

/-- Carry out the command given by the arguments. -/
def main (arguments : List String) : IO UInt32 := do
  match TreeWalk.Invocation.ofArguments? arguments with
  | some invocation => invocation.perform
  | none => return TreeWalk.Transcript.usageFailure.toUInt32

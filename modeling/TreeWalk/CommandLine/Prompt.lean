import TreeWalk.CommandLine.FileCommand

/-!
# The prompt

A prompt runs one line after the other in the same session and prints the values
of expressions.
-/

namespace TreeWalk

/-- What the prompt shows when it waits for a line. -/
def promptMark : String := "> "

/-- The session of a prompt. -/
def Session.forPrompt (clock : Clock) : Session :=
  { Session.fresh clock {} with echo := true }

/-- Take the end of the line off a line. -/
def withoutLineEnd (line : String) : String :=
  match line.toList.reverse with
  | '\n' :: '\r' :: rest => String.ofList rest.reverse
  | '\n' :: rest => String.ofList rest.reverse
  | _ => line

/-- Answer a line of the prompt, with its line end if it has one.  The prompt
goes on with the session that is left, unless the line is not in UTF-8. -/
def Transcript.answerLine
    (transcript : Transcript)
    (fuel : Nat)
    (line : ByteArray)
    (session : Session) : Option (Transcript × Option Session) :=
  match String.fromUTF8? line with
  | none => some (transcript.unreadable "Failed to read from stdin" notUtf8, none)
  | some text =>
    (transcript.runIn fuel (withoutLineEnd text) session).map fun (_, transcript, after) =>
      (transcript, some after)

/-- Answer the lines of a prompt, and end it after the last. -/
def promptLines
    (fuel : Nat)
    (transcript : Transcript)
    (session : Session) : List ByteArray -> Option Transcript
  | [] => some ((transcript.print promptMark).print "\n")
  | line :: rest =>
    match (transcript.print promptMark).answerLine fuel line session with
    | none => none
    | some (transcript, none) => some transcript
    | some (transcript, some session) => promptLines fuel transcript session rest

/-- Split bytes after each line feed. -/
def splitLines (bytes : ByteArray) : List ByteArray :=
  let (lines, last) := bytes.toList.foldl
    (fun (lines, line) byte =>
      if byte = 10 then (lines.push (line.push byte), ByteArray.empty) else (lines, line.push byte))
    ((#[], .empty) : Array ByteArray × ByteArray)
  lines.toList ++ (if last.isEmpty then [] else [last])

/-- Answer everything that is typed at a prompt. -/
def promptTranscript (fuel : Nat) (clock : Clock) (input : ByteArray) : Option Transcript :=
  promptLines fuel {} (.forPrompt clock) (splitLines input)

end TreeWalk

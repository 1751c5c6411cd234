/-!
# Arguments

The arguments of the program become an invocation: what to do, and whether a log
file is wanted.
-/

namespace TreeWalk

/-- The name of the log file that the log option creates. -/
def logFileName : String := "fojaccia.log"

/-- What to do with the contents of a file. -/
inductive FileCommand where
  | tokenize (json : Bool)
  | parse
  | evaluate
  | run
deriving DecidableEq, Repr

/-- What the program is asked to do. -/
inductive Command where
  | onFile (command : FileCommand) (file : String)
  | prompt
deriving DecidableEq, Repr

/-- A command, and whether a log file is wanted. -/
structure Invocation where
  command : Command
  log : Bool
deriving DecidableEq, Repr

/-- The arguments that follow the name of a command. -/
structure Options where
  log : Bool := false
  json : Bool := false
  files : List String := []

/-- Whether an argument has the form of a flag.  A single dash has not. -/
def looksLikeFlag (argument : String) : Bool :=
  match argument.toList with
  | '-' :: _ :: _ => true
  | _ => false

/-- Read the arguments that follow the name of a command.  A flag may be given
once, and after two dashes there are only file names. -/
def Options.read? (takesJson : Bool) (options : Options) : List String -> Option Options
  | [] => some options
  | argument :: rest =>
    if argument = "--" then
      some { options with files := options.files ++ rest }
    else if argument = "--log" then
      if options.log then none else Options.read? takesJson { options with log := true } rest
    else if argument = "--json" then
      if takesJson && !options.json then
        Options.read? takesJson { options with json := true } rest
      else
        none
    else if looksLikeFlag argument then
      none
    else
      Options.read? takesJson { options with files := options.files ++ [argument] } rest

/-- The command of the given name with its options. -/
def Command.ofName? (name : String) (options : Options) : Option Command :=
  match name, options.files with
  | "tokenize", [file] => some (.onFile (.tokenize options.json) file)
  | "parse", [file] => some (.onFile .parse file)
  | "evaluate", [file] => some (.onFile .evaluate file)
  | "run", [file] => some (.onFile .run file)
  | "run", [] => some .prompt
  | _, _ => none

/-- Read a command and what follows it. -/
def Invocation.ofCommand? (log : Bool) (name : String) (rest : List String) :
    Option Invocation := do
  let options ← Options.read? (name = "tokenize") {} rest
  if options.files.contains "" then
    none
  else
    let command ← Command.ofName? name options
    return ⟨command, log || options.log⟩

/-- Read the arguments of the program.  The log flag may also stand before the
command. -/
def Invocation.ofArguments? : List String -> Option Invocation
  | "--log" :: name :: rest => Invocation.ofCommand? true name rest
  | name :: rest => Invocation.ofCommand? false name rest
  | [] => none

end TreeWalk

/-!
# Files

What comes of reading a file, and how a path leads to it.  A path is followed
part by part from the working directory, or from the root if it begins with a
slash.  A part names an entry of the present directory, or is `.` or `..` for the
directory itself and the one around it.
-/

namespace TreeWalk

/-- Why a file cannot be opened or read. -/
inductive FileFault where
  | missing
  | denied
  | notDirectory
  | isDirectory
  | nameTooLong
  | other (cause : String)
deriving DecidableEq, Repr

/-- The wording of a file fault. -/
def FileFault.message : FileFault -> String
  | missing => "No such file or directory (os error 2)"
  | denied => "Permission denied (os error 13)"
  | notDirectory => "Not a directory (os error 20)"
  | isDirectory => "Is a directory (os error 21)"
  | nameTooLong => "File name too long (os error 36)"
  | other cause => cause

/-- What came of reading a file: its bytes, or why it could not be opened or
read from. -/
inductive FileContents where
  | bytes (contents : ByteArray)
  | unopened (fault : FileFault)
  | unread (fault : FileFault)

/-- A file with its contents, or a directory with its entries. -/
inductive FileTree where
  | file (contents : ByteArray)
  | directory (entries : List (String × FileTree))

namespace FileTree

/-- The greatest size of a path, in bytes. -/
def maxPathSize : Nat := 4095

/-- The greatest size of a part of a path, in bytes. -/
def maxPartSize : Nat := 255

/-- Follow the parts of a path from a file or directory, given the directories
around it from the innermost to the root.  Only a directory can be left by a
further part, be it an empty one, and the root is around itself. -/
def follow : List String -> List FileTree -> FileTree -> Except FileFault FileTree
  | [], _, present => .ok present
  | _ :: _, _, .file _ => .error .notDirectory
  | part :: rest, around, .directory entries =>
    if part = "" || part = "." then
      follow rest around (.directory entries)
    else if part = ".." then
      match around with
      | [] => follow rest [] (.directory entries)
      | outer :: further => follow rest further outer
    else if maxPartSize < part.utf8ByteSize then
      .error .nameTooLong
    else
      match entries.lookup part with
      | none => .error .missing
      | some found => follow rest (.directory entries :: around) found

end FileTree

/-- The directory in which a command works, and the directories around it from
the innermost to the root. -/
structure WorkingDirectory where
  present : FileTree
  around : List FileTree

namespace WorkingDirectory

/-- The outermost directory. -/
def root (directory : WorkingDirectory) : FileTree :=
  directory.around.getLastD directory.present

/-- Find what is at a path. -/
def find (directory : WorkingDirectory) (path : String) : Except FileFault FileTree :=
  if path = "" then
    .error .missing
  else if FileTree.maxPathSize < path.utf8ByteSize then
    .error .nameTooLong
  else
    match path.splitOn "/" with
    | "" :: rest => FileTree.follow rest [] directory.root
    | parts => FileTree.follow parts directory.around directory.present

/-- Read the file at a path.  A directory can be opened, but not read from. -/
def read (directory : WorkingDirectory) (path : String) : FileContents :=
  match directory.find path with
  | .ok (.file contents) => .bytes contents
  | .ok (.directory _) => .unread .isDirectory
  | .error fault => .unopened fault

end WorkingDirectory
end TreeWalk

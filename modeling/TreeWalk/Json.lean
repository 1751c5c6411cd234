import TreeWalk.Error

/-!
# JSON documents

Just enough of JSON to write token listings and diagnostics, on one line or
indented.
-/

namespace TreeWalk

/-- A JSON document.  Numbers are kept as they are written. -/
inductive Json where
  | number (text : String)
  | string (text : String)
  | array (items : List Json)
  | object (members : List (String × Json))

namespace Json

/-- A hexadecimal digit. -/
def hexDigit (n : Nat) : Char :=
  Nat.digitChar n

/-- How a character is written inside a JSON string. -/
def escape (c : Char) : List Char :=
  if c = '"' then ['\\', '"']
  else if c = '\\' then ['\\', '\\']
  else if c = '\n' then ['\\', 'n']
  else if c = '\r' then ['\\', 'r']
  else if c = '\t' then ['\\', 't']
  else if c = '\x08' then ['\\', 'b']
  else if c = '\x0c' then ['\\', 'f']
  else if c.toNat < 32 then ['\\', 'u', '0', '0', hexDigit (c.toNat / 16), hexDigit (c.toNat % 16)]
  else [c]

/-- A JSON string with its quotes. -/
def quote (text : String) : String :=
  "\"" ++ String.ofList (text.toList.flatMap escape) ++ "\""

/-- The number of a natural number. -/
def natural (n : Nat) : Json :=
  .number (toString n)

mutual

/-- A document on one line without blanks. -/
def compact : Json -> String
  | .number text => text
  | .string text => quote text
  | .array items => "[" ++ ",".intercalate (compactItems items) ++ "]"
  | .object members => "\x7b" ++ ",".intercalate (compactMembers members) ++ "\x7d"

/-- The items of an array, each on one line. -/
def compactItems : List Json -> List String
  | [] => []
  | first :: rest => first.compact :: compactItems rest

/-- The members of an object, each on one line. -/
def compactMembers : List (String × Json) -> List String
  | [] => []
  | (name, value) :: rest => (quote name ++ ":" ++ value.compact) :: compactMembers rest

end

/-- Put lines between brackets, one step further in than the brackets. -/
def bracketed (opening closing indent : String) (lines : List String) : String :=
  match lines with
  | [] => opening ++ closing
  | _ =>
    opening ++ "\n" ++
      ",\n".intercalate (lines.map fun line => indent ++ "  " ++ line) ++
      "\n" ++ indent ++ closing

mutual

/-- A document with one item or member a line.  The first line is not
indented. -/
def indented (indent : String) : Json -> String
  | .number text => text
  | .string text => quote text
  | .array items => bracketed "[" "]" indent (indentedItems (indent ++ "  ") items)
  | .object members =>
    bracketed "\x7b" "\x7d" indent (indentedMembers (indent ++ "  ") members)

/-- The items of an array, indented. -/
def indentedItems (indent : String) : List Json -> List String
  | [] => []
  | first :: rest => first.indented indent :: indentedItems indent rest

/-- The members of an object, indented. -/
def indentedMembers (indent : String) : List (String × Json) -> List String
  | [] => []
  | (name, value) :: rest =>
    (quote name ++ ": " ++ value.indented indent) :: indentedMembers indent rest

end

end Json

/-- The kind of a token as a JSON document. -/
def Token.Kind.toJson : Token.Kind -> Json
  | .string contents => .object [("STRING", .string contents)]
  | .number value => .object [("NUMBER", .number (Number.jsonText value))]
  | kind => .string kind.name

/-- A token as a JSON document. -/
def Token.toJson (token : Token) : Json :=
  .object [
    ("token_type", token.kind.toJson),
    ("lexeme", .string token.lexeme),
    ("line", .natural token.line)]

/-- A diagnostic as a JSON document. -/
def Diagnostic.toJson (diagnostic : Diagnostic) : Json :=
  .object [
    ("line", .natural diagnostic.line),
    ("phase", .string diagnostic.phase.title),
    ("message", .string diagnostic.message)]

end TreeWalk

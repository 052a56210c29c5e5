import Replica.Json.Basic
import Replica.Text.Digits

/-!
# Writing JSON text

`Json.compact` writes a value without blanks. Strings escape the quote, the backslash and the
control characters, and hold every other character as it is.
-/

namespace Replica.Json

namespace Writer

/-- A character inside a string. -/
def escape (c : Char) : String :=
  if c = '"' then "\\\""
  else if c = '\\' then "\\\\"
  else if c = '\n' then "\\n"
  else if c = '\r' then "\\r"
  else if c = '\t' then "\\t"
  else if c = '\x08' then "\\b"
  else if c = '\x0c' then "\\f"
  else if c.toNat < 0x20 then
    "\\u" ++ String.ofList (Text.Hex.padded 4 c.toNat)
  else c.toString

/-- A string in quotes. -/
def quote (s : String) : String :=
  s.toList.foldl (fun text c => text ++ escape c) "\"" ++ "\""

end Writer

mutual

/-- The text of a value, without blanks. -/
def compact : Json → String
  | null => "null"
  | bool true => "true"
  | bool false => "false"
  | int n => toString n
  | fraction text => text
  | str s => Writer.quote s
  | arr items => "[" ++ ",".intercalate (compactItems items) ++ "]"
  | obj members => "\x7b" ++ ",".intercalate (compactMembers members) ++ "\x7d"

/-- The texts of the elements of an array. -/
def compactItems : List Json → List String
  | [] => []
  | item :: rest => compact item :: compactItems rest

/-- The texts of the members of an object. -/
def compactMembers : List (String × Json) → List String
  | [] => []
  | (name, v) :: rest => (Writer.quote name ++ ":" ++ compact v) :: compactMembers rest

end

end Replica.Json

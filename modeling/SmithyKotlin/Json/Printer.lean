import SmithyKotlin.Json.Basic
import SmithyKotlin.Number.Text

/-!
# Writing JSON

`Json.compact` writes without spaces, `Json.pretty` one field or item a line with two spaces for each level.  Only
quotes, backslashes and control characters are escaped (`escapeChar`).  That both texts are read back is shown in
`Source.read_compact` and `Source.read_pretty`.
-/

namespace SmithyKotlin.Json

def hexDigit (n : Nat) : Char := Nat.digitChar n

def escapeChar (c : Char) : List Char :=
  if c = '"' then ['\\', '"']
  else if c = '\\' then ['\\', '\\']
  else if c = '\n' then ['\\', 'n']
  else if c = '\r' then ['\\', 'r']
  else if c = '\t' then ['\\', 't']
  else if c.toNat = 8 then ['\\', 'b']
  else if c.toNat = 12 then ['\\', 'f']
  else if c.toNat < 0x20 then
    ['\\', 'u', '0', '0', hexDigit (c.toNat / 16), hexDigit (c.toNat % 16)]
  else [c]

def quoted (text : String) : String :=
  String.ofList ('"' :: text.toList.flatMap escapeChar ++ ['"'])

mutual

def compact : Json → String
  | null => "null"
  | bool value => if value then "true" else "false"
  | number value => value.toText
  | string value => quoted value
  | array items => "[" ++ ",".intercalate (compactItems items) ++ "]"
  | object fields => "\x7b" ++ ",".intercalate (compactFields fields) ++ "\x7d"

def compactItems : List Json → List String
  | [] => []
  | item :: rest => compact item :: compactItems rest

def compactFields : List (String × Json) → List String
  | [] => []
  | (name, value) :: rest => (quoted name ++ ":" ++ compact value) :: compactFields rest

end

def lineStart (level : Nat) : String := "\n" ++ String.ofList (List.replicate (2 * level) ' ')

/-- Brackets around lines at the next level; nothing between them when there are none. -/
def bracketed (level : Nat) (first last : String) (lines : List String) : String :=
  if lines.isEmpty then first ++ last
  else
    first ++ ",".intercalate (lines.map (lineStart (level + 1) ++ ·)) ++ lineStart level ++ last

mutual

/-- The text of a value whose lines stand at the given level. -/
def indented (level : Nat) : Json → String
  | null => "null"
  | bool value => if value then "true" else "false"
  | number value => value.toText
  | string value => quoted value
  | array items => bracketed level "[" "]" (indentedItems (level + 1) items)
  | object fields => bracketed level "\x7b" "\x7d" (indentedFields (level + 1) fields)

def indentedItems (level : Nat) : List Json → List String
  | [] => []
  | item :: rest => indented level item :: indentedItems level rest

def indentedFields (level : Nat) : List (String × Json) → List String
  | [] => []
  | (name, value) :: rest =>
    (quoted name ++ ": " ++ indented level value) :: indentedFields level rest

end

def pretty (value : Json) : String := indented 0 value

end SmithyKotlin.Json

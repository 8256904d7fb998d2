import SmithyKotlin.Text.Blank
import SmithyKotlin.Text.Case

/-!
# Kotlin names

* `pascalCase` and `camelCase` case the names of shapes and members.
* `escapeIdentifier` puts a keyword in backticks; `propertyName` is the camel case escaped.
* `assertAccessor` and `optionalAccessor` are the names of the two accessors of a variant.
* `stringLiteral` is a text as a Kotlin string literal.

Casing is total, and what comes out of it need not be a name in Kotlin: that is decided in `Proofs/Naming/Legality`.
-/

namespace SmithyKotlin.Naming

/-- The keywords that cannot name anything without backticks. -/
def hardKeywords : List String :=
  ["as", "break", "class", "continue", "do", "else", "false", "for", "fun", "if", "in",
   "interface", "is", "null", "object", "package", "return", "super", "this", "throw", "true",
   "try", "typealias", "typeof", "val", "var", "when", "while"]

/-- The characters that separate the words of a name. -/
def isSeparator (c : Char) : Bool := c = '_' || c = '-' || c = ' '

/-- A word with its first letter in upper case. -/
def capitalized : List Char → List Char
  | [] => []
  | c :: rest => Text.upper c ++ rest

/-- The words of a name, each capitalized, without their separators. -/
def pascal (name : List Char) : List Char :=
  (Text.pieces isSeparator name).flatMap capitalized

/-- How many letters of a run of capitals at the start of a name become small: all, if the name
ends with the run; otherwise the last capital starts the next word, unless it is the only one. -/
def loweredLength (run length : Nat) : Nat :=
  if run = length then run else if run ≤ 1 then run else run - 1

/-- The words of a name joined, the first one in lower case. -/
def camel (name : List Char) : List Char :=
  let joined := pascal name
  let count := loweredLength (joined.takeWhile Text.isUpper).length joined.length
  (joined.take count).map Text.lower ++ joined.drop count

/-- The name of a type or a variant: `data_event` gives `DataEvent`. -/
def pascalCase (name : String) : String := String.ofList (pascal name.toList)

/-- The name of a property: `URLValue` gives `urlValue`. -/
def camelCase (name : String) : String := String.ofList (camel name.toList)

/-- A name that can stand in Kotlin source: a keyword gets backticks. -/
def escapeIdentifier (name : String) : String :=
  if hardKeywords.contains name then "`" ++ name ++ "`" else name

def propertyName (member : String) : String := escapeIdentifier (camelCase member)

/-- The accessor that asserts a variant. -/
def assertAccessor (variant : String) : String := "as" ++ variant

/-- The accessor that answers null for another variant. -/
def optionalAccessor (variant : String) : String := "as" ++ variant ++ "OrNull"

/-- A character inside a string literal. -/
def escapeChar (c : Char) : List Char :=
  if c = '"' then ['\\', '"']
  else if c = '\\' then ['\\', '\\']
  else if c = '$' then ['\\', '$']
  else if c = '\n' then ['\\', 'n']
  else if c = '\r' then ['\\', 'r']
  else if c = '\t' then ['\\', 't']
  else [c]

def stringLiteral (text : String) : String :=
  String.ofList ('"' :: text.toList.flatMap escapeChar ++ ['"'])

end SmithyKotlin.Naming

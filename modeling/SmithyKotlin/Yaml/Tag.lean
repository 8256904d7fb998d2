import SmithyKotlin.Text.Blank

/-!
# YAML tags and directives

A tag is written with a handle, `!` or `!!` or one that a directive declares, and stands for the text of the handle
with the rest behind it (`readTag?`).  `Directives` stand on lines of their own before a document; unknown ones are
refused.
-/

namespace SmithyKotlin.Yaml

/-- The handles of tags and what they stand for; of two with one name the first one counts. -/
abbrev Handles := List (String × String)

def standardHandles : Handles := [("!", "!"), ("!!", "tag:yaml.org,2002:")]

/-- The tag of null. -/
def nullTag : String := "tag:yaml.org,2002:null"

def isWordChar (c : Char) : Bool := c.isAlphanum || c = '_' || c = '-'

def isTagChar (c : Char) : Bool :=
  isWordChar c || ";/?:@&=+$.!~*'()%".toList.contains c

/-- The characters of a tag that is written in full. -/
def isFullTagChar (c : Char) : Bool := isTagChar c || c = ',' || c = '[' || c = ']'

/-- The tag that starts with the given exclamation mark, and what follows it; no tag is the one that only
asks for the usual reading. -/
def readTag? (handles : Handles) (cs : List Char) : Option (Option String × List Char) :=
  match cs.drop 1 with
  | '<' :: rest =>
    let tag := rest.takeWhile isFullTagChar
    match rest.drop tag.length with
    | '>' :: rest => if tag.isEmpty then none else some (some (String.ofList tag), rest)
    | _ => none
  | rest =>
    let word := rest.takeWhile isWordChar
    match rest.drop word.length with
    | '!' :: rest =>
      let suffix := rest.takeWhile isTagChar
      if suffix.isEmpty then none
      else (handles.lookup (String.ofList ('!' :: word ++ ['!']))).map fun start =>
        (some (start ++ String.ofList suffix), rest.drop suffix.length)
    | _ =>
      let suffix := rest.takeWhile isTagChar
      if suffix.isEmpty then some (none, rest)
      else (handles.lookup "!").map fun start =>
        (some (start ++ String.ofList suffix), rest.drop suffix.length)

/-- Whether a text is a handle. -/
def isHandle (text : String) : Bool :=
  text = "!" ||
    match text.toList with
    | '!' :: rest =>
      rest.getLast? = some '!' && rest.dropLast.all isWordChar
    | _ => false

/-- What the directives before a document say. -/
structure Directives where
  versioned : Bool := false
  handles : Handles := []

/-- The words of a directive up to a comment. -/
def directiveWords (line : List Char) : List String :=
  let words := (Text.pieces (fun c => c = ' ' || c = '\t') line).filter (!·.isEmpty)
  (words.takeWhile (·.head? ≠ some '#')).map String.ofList

/-- Adds a directive, which starts with `%`. -/
def Directives.add? (directives : Directives) (line : List Char) : Option Directives :=
  match directiveWords line with
  | ["%YAML", version] =>
    if !directives.versioned && (version = "1.1" || version = "1.2") then
      some { directives with versioned := true }
    else none
  | ["%TAG", handle, start] =>
    if isHandle handle && start.toList.all isFullTagChar
        && (directives.handles.lookup handle).isNone then
      some { directives with handles := directives.handles ++ [(handle, start)] }
    else none
  | _ => none

end SmithyKotlin.Yaml

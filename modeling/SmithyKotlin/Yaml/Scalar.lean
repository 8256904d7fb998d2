import SmithyKotlin.Json.Lexeme
import SmithyKotlin.Text.Blank

/-!
# YAML nodes and scalars

`Yaml` has the values of a YAML document.  A reader is at a `Place` in a text, which has a column, and reads the
three ways in which a scalar is written on lines: plain (`plainText?`), in quotes (`quotedText`), or as a block of
lines (`blockScalar?`).  A scalar stays a text; what it stands for is decided by those who use it
(`Settings.readYaml?`).
-/

namespace SmithyKotlin

inductive Yaml where
  /-- A scalar; a plain one may stand for null or a boolean. -/
  | scalar (text : String) (plain : Bool)
  | sequence (items : List Yaml)
  | mapping (entries : List (Yaml × Yaml))
  /-- A node with a tag. -/
  | tagged (tag : String) (node : Yaml)

namespace Yaml

/-- A node without its tag. -/
def content : Yaml → Yaml
  | tagged _ node => node
  | node => node

/-- The scalar of a place where nothing is written. -/
def empty : Yaml := scalar "" true

/-- A place in a text: what follows it, and how far it is from the start of its line. -/
structure Place where
  rest : List Char
  column : Nat

def isSpace (c : Char) : Bool := c = ' ' || c = '\t'

/-- Whether a text starts with a space or a line break, or is at its end. -/
def isBreakNext : List Char → Bool
  | [] => true
  | c :: _ => isSpace c || c = '\n'

def isFlowIndicator (c : Char) : Bool :=
  c = ',' || c = '[' || c = ']' || c = '\x7b' || c = '\x7d'

/-- Whether a line that starts here ends the document or starts another one. -/
def Place.isMarker (place : Place) : Bool :=
  place.column = 0 &&
    match place.rest with
    | '-' :: '-' :: '-' :: rest => isBreakNext rest
    | '.' :: '.' :: '.' :: rest => isBreakNext rest
    | _ => false

/-! ## Blanks -/

/-- Skips blanks, line breaks and comments, and answers whether a line break was among them.  Tabs
count as blanks where `tabs` allows it; at the start of a line only inside brackets. -/
def skip (flow : Bool) : (tabs comment crossed : Bool) → Nat → List Char → Bool × Place
  | _, _, crossed, column, [] => (crossed, ⟨[], column⟩)
  | tabs, comment, crossed, column, c :: rest =>
    if c = '\n' then skip flow flow false true 0 rest
    else if comment || c = ' ' || (tabs && c = '\t') then
      skip flow tabs comment crossed (column + 1) rest
    else if c = '#' then skip flow tabs true crossed (column + 1) rest
    else (crossed, ⟨c :: rest, column⟩)

def Place.skip (place : Place) (flow tabs : Bool) : Bool × Place :=
  Yaml.skip flow tabs false false place.column place.rest

/-! ## Plain scalars -/

/-- Whether these characters make a colon before them an error in a plain scalar inside brackets. -/
def isClash (cs : List Char) : Bool := cs.head?.any fun c => c = '?' || isFlowIndicator c

/-- The characters of a plain scalar on one line, in reverse, and the place behind them. -/
def plainRun (flow : Bool) : List Char → Nat → List Char → List Char × Place
  | done, column, [] => (done, ⟨[], column⟩)
  | done, column, c :: rest =>
    let ends :=
      c = '\n' || (c = ':' && (isBreakNext rest || (flow && isClash rest)))
        || (flow && isFlowIndicator c) || (c = '#' && done.head?.any isSpace)
    if ends then (done, ⟨c :: rest, column⟩) else plainRun flow (c :: done) (column + 1) rest

/-- The text of a plain scalar on one line, without blanks at its end. -/
def plainLine (flow : Bool) (place : Place) : List Char × Place :=
  let run := plainRun flow [] place.column place.rest
  ((run.1.dropWhile isSpace).reverse, run.2)

/-- Whether a plain scalar can start with these characters. -/
def startsPlain (flow : Bool) : List Char → Bool
  | [] => false
  | c :: rest =>
    if c = '-' then !isBreakNext rest
    else if c = '?' || c = ':' then !flow && !isBreakNext rest
    else
      !(isSpace c || c = '\n' || isFlowIndicator c
        || ['#', '&', '*', '!', '|', '>', '\x27', '"', '%', '@', '\x60'].contains c)

/-- The text between two pieces of a scalar with the given number of line breaks between them. -/
def foldBreaks (breaks : Nat) : List Char :=
  if breaks ≤ 1 then [' '] else List.replicate (breaks - 1) '\n'

/-- Skips blanks and counts line breaks. -/
def skipBreaks : Nat → Nat → List Char → Nat × Place
  | breaks, column, c :: rest =>
    if c = '\n' then skipBreaks (breaks + 1) 0 rest
    else if isSpace c then skipBreaks breaks (column + 1) rest
    else (breaks, ⟨c :: rest, column⟩)
  | breaks, column, [] => (breaks, ⟨[], column⟩)

/-- Whether a tab stands among the first columns of a line that the characters begin. -/
def isIndentedByTab (minColumn : Nat) (cs : List Char) : Bool :=
  let blanks := cs.takeWhile fun c => isSpace c || c = '\n'
  ((Text.pieces (· = '\n') blanks).drop 1).any fun line => (line.take minColumn).contains '\t'

/-- A plain scalar, which goes on over lines that are indented far enough. -/
def plainText? (flow : Bool) (minColumn : Nat) :
    Nat → List Char → Place → Option (List Char × Place)
  | 0, done, place => some (done, place)
  | fuel + 1, done, place =>
    let (line, behind) := plainLine flow place
    let done := done ++ line
    let (breaks, next) := skipBreaks 0 behind.column behind.rest
    let goesOn := 0 < breaks && (flow || minColumn ≤ next.column) && !next.isMarker
      && next.rest.head? ≠ some '#' && !(plainLine flow next).1.isEmpty
    if isIndentedByTab minColumn behind.rest then none
    else if goesOn then plainText? flow minColumn fuel (done ++ foldBreaks breaks) next
    else some (done, behind)

/-! ## Quoted scalars -/

/-- The character that an escape of one letter stands for. -/
def escaped? (c : Char) : Option Char :=
  match c with
  | '0' => some (Char.ofNat 0)
  | 'a' => some (Char.ofNat 7)
  | 'b' => some (Char.ofNat 8)
  | 't' => some '\t'
  | '\t' => some '\t'
  | 'n' => some '\n'
  | 'v' => some (Char.ofNat 11)
  | 'f' => some (Char.ofNat 12)
  | 'r' => some '\r'
  | 'e' => some (Char.ofNat 27)
  | ' ' => some ' '
  | '"' => some '"'
  | '/' => some '/'
  | '\\' => some '\\'
  | 'N' => some (Char.ofNat 0x85)
  | '_' => some (Char.ofNat 0xa0)
  | 'L' => some (Char.ofNat 0x2028)
  | 'P' => some (Char.ofNat 0x2029)
  | _ => none

/-- How many hexadecimal digits follow the letter of an escape. -/
def escapeLength? (c : Char) : Option Nat :=
  match c with
  | 'x' => some 2
  | 'u' => some 4
  | 'U' => some 8
  | _ => none

def hexChar? (digits : List Char) (length : Nat) : Option Char := do
  let values ← (digits.take length).mapM Lexeme.hexValue?
  let code := values.foldl (fun n v => 16 * n + v) 0
  if values.length = length && code.isValidChar then return Char.ofNat code else none

/-- A scalar in quotes behind its first quote: its characters in reverse, the place behind it, and
whether it has several lines. -/
def quotedText (quote : Char) : Nat → List Char → Bool → Place → Option (List Char × Place × Bool)
  | 0, _, _, _ => none
  | fuel + 1, done, lines, ⟨rest, column⟩ =>
    if (⟨rest, column⟩ : Place).isMarker then none
    else match rest with
    | [] => none
    | c :: rest =>
      if c = quote then
        if quote = '\x27' && rest.head? = some '\x27' then
          quotedText quote fuel (quote :: done) lines ⟨rest.drop 1, column + 2⟩
        else some (done, ⟨rest, column + 1⟩, lines)
      else if c = '\n' || isSpace c then
        let (breaks, next) := skipBreaks 0 column (c :: rest)
        if breaks = 0 then
          let blanks := (c :: rest).takeWhile isSpace
          quotedText quote fuel (blanks.reverse ++ done) lines next
        else quotedText quote fuel (foldBreaks breaks ++ done) true next
      else if c = '\\' && quote = '"' then
        match rest with
        | [] => none
        | '\n' :: rest =>
          let (breaks, next) := skipBreaks 0 0 rest
          quotedText quote fuel (List.replicate breaks '\n' ++ done) true next
        | e :: rest =>
          match escapeLength? e with
          | some length =>
            match hexChar? rest length with
            | some c =>
              quotedText quote fuel (c :: done) lines ⟨rest.drop length, column + 2 + length⟩
            | none => none
          | none =>
            match escaped? e with
            | some c => quotedText quote fuel (c :: done) lines ⟨rest, column + 2⟩
            | none => none
      else quotedText quote fuel (c :: done) lines ⟨rest, column + 1⟩

def Place.quoted? (place : Place) : Option (String × Place × Bool) :=
  match place.rest with
  | c :: rest =>
    if c = '"' || c = '\x27' then
      (quotedText c (rest.length + 1) [] false ⟨rest, place.column + 1⟩).map fun found =>
        (String.ofList found.1.reverse, found.2)
    else none
  | [] => none

/-! ## Blocks of lines -/

/-- What to do with the line breaks at the end of a block. -/
inductive Chomping where
  | strip
  | clip
  | keep
  deriving DecidableEq

/-- Skips the blanks and the comment at the end of a line; `none` when there is anything else. -/
def skipLineEnd : Bool → List Char → Option (List Char)
  | _, [] => some []
  | comment, c :: rest =>
    if c = '\n' then some rest
    else if comment || isSpace c then skipLineEnd comment rest
    else if c = '#' then skipLineEnd true rest
    else none

/-- The header of a block behind its first character: the indentation it gives, the chomping, and
the lines that follow. -/
def blockHeader : Option Nat → Option Chomping → List Char →
    Option (Option Nat × Chomping × List Char)
  | indent, chomping, [] => some (indent, chomping.getD .clip, [])
  | indent, chomping, c :: rest =>
    if (c = '+' || c = '-') && chomping.isNone then
      blockHeader indent (some (if c = '+' then .keep else .strip)) rest
    else if '1' ≤ c && c ≤ '9' && indent.isNone then
      blockHeader (some (c.toNat - 48)) chomping rest
    else if isSpace c || c = '\n' then
      (skipLineEnd false (c :: rest)).map fun lines => (indent, chomping.getD .clip, lines)
    else none

def leadingSpaces (line : List Char) : Nat := (line.takeWhile (· = ' ')).length

/-- How far the first line of a block that is not empty is indented. -/
def detectIndent (least : Nat) : List (List Char) → Nat
  | [] => least
  | line :: rest =>
    let indent := max least (leadingSpaces line)
    if line.all (· = ' ') then detectIndent indent rest else indent

/-- The lines of a block without their indentation, and the number of characters they take up. -/
def blockLines (indent : Nat) : List (List Char) → List (List Char) × Nat
  | [] => ([], 0)
  | line :: rest =>
    if leadingSpaces line < indent && !line.all (· = ' ') then ([], 0)
    else
      let (lines, length) := blockLines indent rest
      (line.drop indent :: lines, line.length + 1 + length)

/-- The text of the lines of a block.  In a folded block a line break between two lines that do not
start with a blank becomes a space. -/
def blockText (folded : Bool) (chomping : Chomping) (done : List Char) (started lastBlank : Bool)
    (breaks : Nat) : List (List Char) → List Char
  | [] =>
    match chomping with
    | .strip => done
    | .clip => if started then done ++ ['\n'] else done
    | .keep => done ++ (if started then ['\n'] else []) ++ List.replicate breaks '\n'
  | [] :: rest => blockText folded chomping done started lastBlank (breaks + 1) rest
  | line :: rest =>
    let blank := line.head?.any isSpace
    let between :=
      if !started then []
      else if folded && !lastBlank && !blank then (if breaks = 0 then [' '] else []) else ['\n']
    blockText folded chomping (done ++ between ++ List.replicate breaks '\n' ++ line) true blank 0
      rest

/-- Whether a tab stands where the indentation of a line is not over. -/
def startsWithTab (line : List Char) : Bool := (line.dropWhile (· = ' ')).head? = some '\t'

/-- A block scalar behind its first character, inside a node at column `minColumn - 1`. -/
def blockScalar? (folded : Bool) (minColumn : Nat) (rest : List Char) :
    Option (String × Place) := do
  let (given, chomping, rest) ← blockHeader none none rest
  let lines := Text.pieces (· = '\n') rest
  let lines := if lines.getLast? = some [] then lines.dropLast else lines
  let first := lines.find? fun line => !line.all (· = ' ')
  if given.isNone && first.any startsWithTab then none
  let indent :=
    given.elim (detectIndent (max minColumn 1) lines) fun n => (minColumn - 1) + n
  let (found, length) := blockLines indent lines
  if (lines[found.length]?).any startsWithTab then none
  return (String.ofList (blockText folded chomping [] false false 0 found), ⟨rest.drop length, 0⟩)

end Yaml

end SmithyKotlin

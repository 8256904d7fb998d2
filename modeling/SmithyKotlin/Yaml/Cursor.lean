import SmithyKotlin.Yaml.Scalar
import SmithyKotlin.Yaml.Tag

/-!
# Places of YAML documents

A `Cursor` is where a reader of a document is.  Here is what it reads without looking at the structure around:
blanks (`skipBlanks`), the `Properties` in front of a node, and scalars (`scalar?`), of which a key may not be
longer than `keyLimit`.
-/

namespace SmithyKotlin.Yaml

/-- Where a reader is, the nodes that have names, and the handles of tags. -/
structure Cursor extends Place where
  anchors : List (String × Yaml)
  handles : Handles

/-- The name and the tag in front of a node. -/
structure Properties where
  anchor : Option String := none
  tag : Option (Option String) := none

def Properties.isEmpty (properties : Properties) : Bool :=
  properties.anchor.isNone && properties.tag.isNone

/-- A node with the tag in front of it. -/
def Properties.apply (properties : Properties) (node : Yaml) : Yaml :=
  match properties.tag with
  | some (some tag) => tagged tag node
  | _ => node

namespace Cursor

def moveTo (cursor : Cursor) (place : Place) : Cursor := { cursor with toPlace := place }

def skipBlanks (cursor : Cursor) (flow tabs : Bool) : Bool × Cursor :=
  let (crossed, place) := cursor.toPlace.skip flow tabs
  (crossed, cursor.moveTo place)

/-- Passes over characters of one line. -/
def drop (cursor : Cursor) (count : Nat) : Cursor :=
  cursor.moveTo ⟨cursor.rest.drop count, cursor.column + count⟩

/-- Passes over the characters of one line before `rest`. -/
def dropTo (cursor : Cursor) (rest : List Char) : Cursor :=
  cursor.drop (cursor.rest.length - rest.length)

/-- The text up to a later place. -/
def textTo (cursor later : Cursor) : List Char :=
  cursor.rest.take (cursor.rest.length - later.rest.length)

/-- The greatest length of a key. -/
def keyLimit : Nat := 1024

/-- Whether a key can stand between this place and its colon: on one line, and not too long. -/
def holdsKey (cursor colon : Cursor) : Bool :=
  let text := cursor.textTo colon
  text.length ≤ keyLimit && !text.contains '\n'

def name (cursor : Cursor) (properties : Properties) (node : Yaml) : Cursor :=
  match properties.anchor with
  | some anchor => { cursor with anchors := (anchor, node) :: cursor.anchors }
  | none => cursor

/-- The name behind `&` or `*`. -/
def anchorName? (cursor : Cursor) : Option (String × Cursor) :=
  let name := (cursor.rest.drop 1).takeWhile isWordChar
  let behind := cursor.drop (name.length + 1)
  let ends := isBreakNext behind.rest
    || behind.rest.head?.any fun c => "?:,]\x7d%@\x60".toList.contains c
  if name.isEmpty || !ends then none else some (String.ofList name, behind)

/-- The node that a name stands for. -/
def alias? (cursor : Cursor) : Option (Yaml × Cursor) := do
  let (name, behind) ← cursor.anchorName?
  return (← cursor.anchors.lookup name, behind)

/-- A tag, behind which a blank follows or, inside brackets, a comma. -/
def tag? (cursor : Cursor) (flow : Bool) : Option (Option String × Cursor) := do
  let (tag, rest) ← readTag? cursor.handles cursor.rest
  if isBreakNext rest || (flow && rest.head? = some ',') then return (tag, cursor.dropTo rest)
  else none

/-- Reads what stands in front of a node, and answers whether a line break follows it. -/
def properties? (flow : Bool) :
    Nat → Properties → Bool → Cursor → Option (Properties × Bool × Cursor)
  | 0, properties, crossed, cursor => some (properties, crossed, cursor)
  | count + 1, properties, crossed, cursor =>
    match cursor.rest.head?, properties.anchor, properties.tag with
    | some '&', none, _ => do
      let (anchor, behind) ← cursor.anchorName?
      let (more, next) := behind.skipBlanks flow true
      properties? flow count { properties with anchor := some anchor } (crossed || more) next
    | some '!', _, none => do
      let (tag, behind) ← cursor.tag? flow
      let (more, next) := behind.skipBlanks flow true
      properties? flow count { properties with tag := some tag } (crossed || more) next
    | some '&', some _, _ => none
    | some '!', _, some _ => none
    | some '*', anchor, tag => if anchor.isSome || tag.isSome then none else
      some (properties, crossed, cursor)
    | _, _, _ => some (properties, crossed, cursor)

/-- Whether the sign of a block entry stands here, followed by a blank. -/
def isSign (cursor : Cursor) (sign : Char) : Bool :=
  cursor.rest.head? = some sign && isBreakNext (cursor.rest.drop 1)

/-- A scalar on one line that can be a key. -/
def keyScalar? (cursor : Cursor) : Option (Yaml × Cursor) :=
  match cursor.toPlace.quoted? with
  | some (text, place, _) => some (scalar text false, cursor.moveTo place)
  | none =>
    if startsPlain false cursor.rest then
      let (text, place) := plainLine false cursor.toPlace
      some (scalar (String.ofList text) true, cursor.moveTo place)
    else none

/-- A scalar that is no key. -/
def scalar? (cursor : Cursor) (flow : Bool) (minColumn : Nat) : Option (Yaml × Cursor) := do
  let c ← cursor.rest.head?
  if c = '"' || c = '\x27' then
    let (text, place, _) ← cursor.toPlace.quoted?
    return (scalar text false, cursor.moveTo place)
  else if startsPlain flow cursor.rest then
    let (text, place) ← plainText? flow minColumn (cursor.rest.length + 1) [] cursor.toPlace
    if flow && place.rest.head? = some ':' && isClash (place.rest.drop 1) then none
    else return (scalar (String.ofList text) true, cursor.moveTo place)
  else none

end Cursor

end SmithyKotlin.Yaml

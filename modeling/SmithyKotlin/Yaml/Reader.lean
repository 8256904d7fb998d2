import SmithyKotlin.Yaml.Cursor

/-!
# Reading YAML

`read?` makes a node of a text with one document.  Nodes are blocks, which are told apart by their columns
(`blockNode`), or stand in brackets (`flowNode`); a node can be named with `&` and used again with `*`.

The functions count down a number that starts above the length of the text, which no document can use up, as each
call has read something or entered a deeper column.  Texts with several documents are not read.
-/

namespace SmithyKotlin.Yaml

/-! ## Nodes in brackets -/

/-- Whether nothing stands between the signs inside brackets. -/
def isFlowEnd (cs : List Char) : Bool := cs.head?.any fun c => c = ',' || c = ']' || c = '\x7d'

mutual

/-- A node inside brackets; blanks before it have been skipped. -/
def flowNode : Nat → Cursor → Option (Yaml × Cursor)
  | 0, _ => none
  | fuel + 1, cursor => do
    let (properties, _, start) ← cursor.properties? true 3 {} false
    let bare := isFlowEnd start.rest || (!properties.isEmpty && start.rest.head? = some ':')
    let named := start.name properties empty
    let (node, behind) ← if bare then some (empty, named) else flowContent fuel named
    let node := properties.apply node
    return (node, behind.name properties node)

/-- A node inside brackets without the properties in front of it. -/
def flowContent : Nat → Cursor → Option (Yaml × Cursor)
  | 0, _ => none
  | fuel + 1, cursor =>
    if cursor.isMarker then none
    else match cursor.rest with
    | '[' :: _ => flowItems fuel [] (cursor.drop 1)
    | '\x7b' :: _ => flowEntries fuel [] (cursor.drop 1)
    | '*' :: _ => cursor.alias?
    | _ => cursor.scalar? true 0

/-- One entry inside brackets: its key, and its value if it has one. -/
def flowEntry : Nat → Cursor → Option (Yaml × Option Yaml × Cursor)
  | 0, _ => none
  | fuel + 1, start => do
    let explicit := start.rest.head? = some '?'
    let begun := if explicit then ((start.drop 1).skipBlanks true true).2 else start
    let bare := explicit && begun.rest.head? = some ':'
    let (key, behind) ← if bare then some (empty, begun) else flowNode fuel begun
    let next := (behind.skipBlanks true true).2
    if next.rest.head? = some ':' && (explicit || start.holdsKey next) then
      let (value, behind) ← flowNode fuel ((next.drop 1).skipBlanks true true).2
      return (key, some value, behind)
    else return (key, if explicit then some empty else none, next)

def flowItems : Nat → List Yaml → Cursor → Option (Yaml × Cursor)
  | 0, _, _ => none
  | fuel + 1, done, cursor =>
    let start := (cursor.skipBlanks true true).2
    match start.rest with
    | ']' :: _ => some (sequence done.reverse, start.drop 1)
    | ',' :: _ => none
    | _ => do
      let (key, value, behind) ← flowEntry fuel start
      let item := value.elim key fun value => mapping [(key, value)]
      let next := (behind.skipBlanks true true).2
      match next.rest with
      | ',' :: _ => flowItems fuel (item :: done) (next.drop 1)
      | ']' :: _ => some (sequence (item :: done).reverse, next.drop 1)
      | _ => none

def flowEntries : Nat → List (Yaml × Yaml) → Cursor → Option (Yaml × Cursor)
  | 0, _, _ => none
  | fuel + 1, done, cursor =>
    let start := (cursor.skipBlanks true true).2
    match start.rest with
    | '\x7d' :: _ => some (mapping done.reverse, start.drop 1)
    | ',' :: _ => none
    | _ => do
      let (key, value, behind) ← flowEntry fuel start
      let entry := (key, value.getD empty)
      let next := (behind.skipBlanks true true).2
      match next.rest with
      | ',' :: _ => flowEntries fuel (entry :: done) (next.drop 1)
      | '\x7d' :: _ => some (mapping (entry :: done).reverse, next.drop 1)
      | _ => none

end

/-! ## Blocks -/

/-- A key on one line with its colon, and the place behind the colon. -/
def Cursor.key? (cursor : Cursor) : Option (Yaml × Cursor) := do
  let (properties, crossed, start) ← cursor.properties? false 3 {} false
  let (key, behind) ←
    match start.rest with
    | '[' :: _ => flowNode (4 * start.rest.length + 4) start
    | '\x7b' :: _ => flowNode (4 * start.rest.length + 4) start
    | '*' :: _ => start.alias?
    | ':' :: _ => if properties.isEmpty then none else some (empty, start)
    | _ => start.keyScalar?
  let blanks := (behind.rest.takeWhile isSpace).length
  let colon := behind.drop blanks
  let node := properties.apply key
  if !crossed && cursor.holdsKey colon && colon.isSign ':' then
    return (node, (colon.drop 1).name properties node)
  else none

/-- Where a block node may stand. -/
structure BlockRoom where
  /-- The least column of a node. -/
  minColumn : Nat
  /-- The least column of a sequence, which may stand below its key. -/
  sequenceColumn : Nat
  /-- The node stands on a line behind a key, where no block can start. -/
  inline : Bool
  tabs : Bool

/-- Whether no node stands here. -/
def BlockRoom.isBare (room : BlockRoom) (start : Cursor) : Bool :=
  let below := start.isSign '-' && room.sequenceColumn ≤ start.column
  start.rest.isEmpty || start.isMarker || (start.column < room.minColumn && !below)

mutual

/-- The block node that follows. -/
def blockNode : Nat → BlockRoom → Cursor → Option (Yaml × Cursor)
  | 0, _, _ => none
  | fuel + 1, room, cursor => do
    let (crossed, start) := cursor.skipBlanks false room.tabs
    let room := { room with inline := room.inline && !crossed }
    if room.isBare start then return (empty, start)
    else if start.key?.isSome then blockContent fuel room start
    else
      let (properties, crossed, start) ← start.properties? false 3 {} false
      if properties.isEmpty then blockContent fuel room start
      else
        let room := { room with inline := !crossed }
        let named := start.name properties empty
        let (node, behind) ←
          if room.isBare start then some (empty, named) else blockContent fuel room named
        let node := properties.apply node
        return (node, behind.name properties node)

/-- A block node without the properties in front of it. -/
def blockContent : Nat → BlockRoom → Cursor → Option (Yaml × Cursor)
  | 0, _, _ => none
  | fuel + 1, room, start =>
    if start.isSign '-' then
      if room.inline then none else blockItems fuel start.column [] start
    else if start.isSign '?' || start.key?.isSome then
      if room.inline then none else blockEntries fuel start.column [] start
    else match start.rest with
    | '[' :: _ => flowNode fuel start
    | '\x7b' :: _ => flowNode fuel start
    | '*' :: _ => start.alias?
    | '|' :: rest => do
      let (text, place) ← blockScalar? false room.minColumn rest
      return (scalar text false, start.moveTo place)
    | '>' :: rest => do
      let (text, place) ← blockScalar? true room.minColumn rest
      return (scalar text false, start.moveTo place)
    | _ => start.scalar? false room.minColumn

/-- The items of a sequence at a column. -/
def blockItems : Nat → Nat → List Yaml → Cursor → Option (Yaml × Cursor)
  | 0, _, _, _ => none
  | fuel + 1, column, done, cursor => do
    let room := ⟨column + 1, column + 1, false, false⟩
    let (item, behind) ← blockNode fuel room (cursor.drop 1)
    let next := (behind.skipBlanks false true).2
    if next.column = column && next.isSign '-' && !next.isMarker then
      blockItems fuel column (item :: done) next
    else if column < next.column && !next.rest.isEmpty then none
    else some (sequence (item :: done).reverse, next)

/-- One entry of a mapping at a column. -/
def blockEntry : Nat → Nat → Cursor → Option (Yaml × Yaml × Cursor)
  | 0, _, _ => none
  | fuel + 1, column, cursor => do
    let room := ⟨column + 1, column, false, false⟩
    if cursor.isSign '?' then
      let (key, behind) ← blockNode fuel room (cursor.drop 1)
      let next := (behind.skipBlanks false true).2
      if next.column = column && next.isSign ':' then
        let (value, behind) ← blockNode fuel room (next.drop 1)
        return (key, value, behind)
      else return (key, empty, next)
    else
      let (key, behind) ← cursor.key?
      let (value, behind) ← blockNode fuel { room with inline := true, tabs := true } behind
      return (key, value, behind)

/-- The entries of a mapping at a column. -/
def blockEntries : Nat → Nat → List (Yaml × Yaml) → Cursor → Option (Yaml × Cursor)
  | 0, _, _, _ => none
  | fuel + 1, column, done, cursor => do
    let (key, value, behind) ← blockEntry fuel column cursor
    let next := (behind.skipBlanks false true).2
    let entries := (key, value) :: done
    if next.rest.isEmpty || next.isMarker || next.column < column then
      some (mapping entries.reverse, next)
    else if next.column = column then blockEntries fuel column entries next
    else none

end

/-! ## Documents -/

/-- Line breaks of all kinds as one character. -/
def unifyBreaks : List Char → List Char
  | '\r' :: '\n' :: rest => '\n' :: unifyBreaks rest
  | c :: rest =>
    if c = '\r' || c.toNat = 0x85 then '\n' :: unifyBreaks rest else c :: unifyBreaks rest
  | [] => []

/-- Whether a character may occur in a text at all. -/
def isAllowed (c : Char) : Bool :=
  let code := c.toNat
  code = 9 || code = 10 || (0x20 ≤ code && code ≤ 0x7e)
    || (0xa0 ≤ code && code ≤ 0xfffd && code ≠ 0xfeff) || 0x10000 ≤ code

/-- Reads the directives before a document. -/
def skipDirectives? : Nat → Directives → Cursor → Option (Directives × Cursor)
  | 0, _, _ => none
  | fuel + 1, directives, cursor =>
    let start := (cursor.skipBlanks false false).2
    if start.column = 0 && start.rest.head? = some '%' then do
      let line := start.rest.takeWhile (· ≠ '\n')
      skipDirectives? fuel (← directives.add? line) (start.drop line.length)
    else some (directives, start)

/-- Whether nothing but marks of the end follows. -/
def isAtEnd : Nat → Cursor → Bool
  | 0, _ => false
  | fuel + 1, cursor =>
    let next := (cursor.skipBlanks false true).2
    if next.rest.isEmpty then true
    else if next.isMarker && next.rest.head? = some '.' then
      match skipLineEnd false (next.rest.drop 3) with
      | some rest => isAtEnd fuel (next.moveTo ⟨rest, 0⟩)
      | none => false
    else false

/-- The node of a text with exactly one document. -/
def read? (text : String) : Option Yaml := do
  let chars := match text.toList with
    | c :: rest => if c.toNat = 0xfeff then rest else c :: rest
    | [] => []
  let chars := unifyBreaks chars
  if !chars.all isAllowed then none
  let fuel := 4 * chars.length + 4
  let (directives, start) ← skipDirectives? fuel {} ⟨⟨chars, 0⟩, [], []⟩
  if start.rest.isEmpty then none
  let marked := start.isMarker && start.rest.head? = some '-'
  let directed := directives.versioned || !directives.handles.isEmpty
  if (start.isMarker || directed) && !marked then none
  let start := { start with handles := directives.handles ++ standardHandles }
  let start := if marked then start.drop 3 else start
  let (node, behind) ← blockNode fuel ⟨0, 0, marked, marked⟩ start
  if isAtEnd fuel behind then some node else none

end SmithyKotlin.Yaml

import SmithyKotlin.Json.Basic

/-!
# JSON as it was read

`Source` is what a reader saw of a text: objects keep their fields in the order and number in which they were
written, and where the text breaks off or stops being JSON, so does the tree.  Whoever decodes the tree in document
order therefore meets the first mistake of the text where it stands.  A leaf can also be `unreadable`: written
correctly, but denoting no value (half of a surrogate pair, a number beyond all doubles).  Such a leaf may be
skipped but not read.

* `isComplete`: nothing in the tree breaks off.
* `toJson?`: the value of the tree, where it has one and is not nested too deep.
* `ofJson`: the tree that a value is read as.
-/

namespace SmithyKotlin

/-- A value of a JSON text, up to the first place where the text is not JSON. -/
inductive Source where
  | null
  | bool (value : Bool)
  | number (value : Number)
  | string (value : String)
  | array (items : List Source) (ended : Bool)
  | object (fields : List (Option String × Source)) (ended : Bool)
  | unreadable
  | broken

namespace Source

/-- How deep arrays and objects of a document may be nested. -/
def nestingLimit : Nat := 127

mutual

/-- Whether the value is written correctly to its end. -/
def isComplete : Source → Bool
  | array items ended => ended && areComplete items
  | object fields ended => ended && fieldsAreComplete fields
  | broken => false
  | _ => true

def areComplete : List Source → Bool
  | [] => true
  | item :: rest => isComplete item && areComplete rest

def fieldsAreComplete : List (Option String × Source) → Bool
  | [] => true
  | (_, value) :: rest => isComplete value && fieldsAreComplete rest

end

mutual

/-- The JSON value that was read, if it is complete, readable and nested at most `room` deep. -/
def toJson? (room : Nat) : Source → Option Json
  | null => some .null
  | bool value => some (.bool value)
  | number value => some (.number value)
  | string value => some (.string value)
  | array items ended =>
    if ended && 0 < room then (itemsToJson? (room - 1) items).map .array else none
  | object fields ended =>
    if ended && 0 < room then (fieldsToJson? (room - 1) fields).map .ofFields else none
  | unreadable => none
  | broken => none

def itemsToJson? (room : Nat) : List Source → Option (List Json)
  | [] => some []
  | item :: rest => do
    let value ← toJson? room item
    let values ← itemsToJson? room rest
    return value :: values

def fieldsToJson? (room : Nat) : List (Option String × Source) → Option (List (String × Json))
  | [] => some []
  | (none, _) :: _ => none
  | (some name, field) :: rest => do
    let value ← toJson? room field
    let values ← fieldsToJson? room rest
    return (name, value) :: values

end

mutual

/-- A value as a text of it would be read. -/
def ofJson : Json → Source
  | .null => null
  | .bool value => bool value
  | .number value => number value
  | .string value => string value
  | .array items => array (ofItems items) true
  | .object fields => object (ofFields fields) true

def ofItems : List Json → List Source
  | [] => []
  | item :: rest => ofJson item :: ofItems rest

def ofFields : List (String × Json) → List (Option String × Source)
  | [] => []
  | (name, value) :: rest => (some name, ofJson value) :: ofFields rest

end

end Source

end SmithyKotlin

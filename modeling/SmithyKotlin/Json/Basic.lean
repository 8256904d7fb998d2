import SmithyKotlin.Collections.SortedMap
import SmithyKotlin.Number.Basic

/-!
# JSON values

`Json` is a value as a trait or a metadata entry carries it.  The fields of an object stand in the order in which
they are written out, and `Json.ofFields` puts them into the order of their names.  An object with fields out of
order can be built; values that were read have none (`Source.readable_of_toJson?`).
-/

namespace SmithyKotlin

inductive Json where
  | null
  | bool (value : Bool)
  | number (value : Number)
  | string (value : String)
  | array (items : List Json)
  | object (fields : List (String × Json))
  deriving Repr

namespace Json

instance : Inhabited Json := ⟨null⟩

/-- The object without fields, the value of a trait that only marks. -/
def emptyObject : Json := object []

/-- An object with its fields in the order of their names; of two fields with one name the later one
stays. -/
def ofFields (fields : List (String × Json)) : Json :=
  object (fields.foldl (fun sorted field => insertEntry field.1 field.2 sorted) [])

def ofStrings (texts : List String) : Json := array (texts.map string)

def isNull : Json → Bool
  | null => true
  | _ => false

def asString? : Json → Option String
  | string value => some value
  | _ => none

/-- The value of a field of an object. -/
def field? (name : String) : Json → Option Json
  | object fields => findEntry name fields
  | _ => none

end Json

end SmithyKotlin

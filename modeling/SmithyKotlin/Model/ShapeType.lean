/-!
# Shape types

`ShapeType` is the closed list of kinds of shapes.  Simple shapes hold one value, aggregate shapes have members, and
the rest describe a service.  A type is found under its name (`ofName?_name`).
-/

namespace SmithyKotlin

inductive ShapeType where
  | boolean
  | byte
  | short
  | integer
  | long
  | float
  | double
  | bigInteger
  | bigDecimal
  | string
  | blob
  | timestamp
  | document
  | enum
  | intEnum
  | list
  | map
  | struct
  | union
  | service
  | operation
  | resource
  | member
  deriving DecidableEq, Repr

namespace ShapeType

/-- All types, simple ones first. -/
def all : List ShapeType :=
  [boolean, byte, short, integer, long, float, double, bigInteger, bigDecimal, string, blob,
   timestamp, document, enum, intEnum, list, map, struct, union, service, operation, resource,
   member]

theorem mem_all (type : ShapeType) : type ∈ all := by cases type <;> decide

/-- The name of the type in a model. -/
def name : ShapeType → String
  | boolean => "boolean"
  | byte => "byte"
  | short => "short"
  | integer => "integer"
  | long => "long"
  | float => "float"
  | double => "double"
  | bigInteger => "bigInteger"
  | bigDecimal => "bigDecimal"
  | string => "string"
  | blob => "blob"
  | timestamp => "timestamp"
  | document => "document"
  | enum => "enum"
  | intEnum => "intEnum"
  | list => "list"
  | map => "map"
  | struct => "structure"
  | union => "union"
  | service => "service"
  | operation => "operation"
  | resource => "resource"
  | member => "member"

def ofName? (text : String) : Option ShapeType := all.find? (·.name == text)

theorem ofName?_name (type : ShapeType) : ofName? type.name = some type := by
  cases type <;> decide +kernel

/-- Types whose values have no members. -/
def isSimple : ShapeType → Bool
  | list | map | struct | union | service | operation | resource | member => false
  | _ => true

def isAggregate : ShapeType → Bool
  | list | map | struct | union => true
  | _ => false

/-- Types whose Kotlin values are unboxed unless they may be null. -/
def isPrimitive : ShapeType → Bool
  | boolean | byte | short | integer | long | float | double | intEnum => true
  | _ => false

end ShapeType

end SmithyKotlin

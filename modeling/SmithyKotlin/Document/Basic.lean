import SmithyKotlin.Collections.KeyedList
import SmithyKotlin.Json.Basic
import SmithyKotlin.Model.ShapeType

/-!
# Model documents

A `Document` is a model as its JSON document writes it: the `Definition`s under their ids in the order of the
document, each with a `Body` that depends on its `Tag` and with traits.  Neither are ids checked here nor targets
looked up; that is part of `Document.toModel`.
-/

namespace SmithyKotlin

/-- Traits in the order in which they are written. -/
abbrev TraitList := KeyedList Json

/-- The use of another shape, by its id. -/
structure Reference where
  target : String
  deriving DecidableEq, Repr

structure MemberDefinition where
  target : String
  traits : TraitList

/-- Types without members. -/
inductive SimpleType where
  | blob
  | boolean
  | string
  | byte
  | short
  | integer
  | long
  | float
  | double
  | bigInteger
  | bigDecimal
  | timestamp
  | document
  deriving DecidableEq, Repr

/-- Types with any number of named members. -/
inductive GroupType where
  | enum
  | intEnum
  | struct
  | union
  deriving DecidableEq, Repr

def SimpleType.toShapeType : SimpleType → ShapeType
  | blob => .blob
  | boolean => .boolean
  | string => .string
  | byte => .byte
  | short => .short
  | integer => .integer
  | long => .long
  | float => .float
  | double => .double
  | bigInteger => .bigInteger
  | bigDecimal => .bigDecimal
  | timestamp => .timestamp
  | document => .document

def GroupType.toShapeType : GroupType → ShapeType
  | enum => .enum
  | intEnum => .intEnum
  | struct => .struct
  | union => .union

/-- What the `type` of a definition can be. -/
inductive Tag where
  | simple (type : SimpleType)
  | group (type : GroupType)
  | list
  | set
  | map
  | service
  | operation
  | resource
  | apply
  deriving DecidableEq, Repr

namespace Tag

def all : List Tag :=
  [simple .blob, simple .boolean, simple .string, simple .byte, simple .short, simple .integer,
   simple .long, simple .float, simple .double, simple .bigInteger, simple .bigDecimal,
   simple .timestamp, simple .document, group .enum, group .intEnum, list, set, map,
   group .struct, group .union, service, operation, resource, apply]

def name : Tag → String
  | simple type => type.toShapeType.name
  | group type => type.toShapeType.name
  | list => "list"
  | set => "set"
  | map => "map"
  | service => "service"
  | operation => "operation"
  | resource => "resource"
  | apply => "apply"

def ofName? (text : String) : Option Tag := all.find? (·.name == text)

theorem ofName?_name (tag : Tag) : ofName? tag.name = some tag := by
  cases tag with
  | simple type => cases type <;> decide +kernel
  | group type => cases type <;> decide +kernel
  | _ => decide +kernel

/-- The fields of a definition besides its `type`. -/
def fields : Tag → List String
  | simple _ => ["traits"]
  | group _ => ["members", "traits"]
  | list => ["member", "traits"]
  | set => ["member", "traits"]
  | map => ["key", "value", "traits"]
  | service => ["version", "operations", "resources", "errors", "traits"]
  | operation => ["input", "output", "errors", "traits"]
  | resource => ["identifiers", "operations", "resources", "traits"]
  | apply => ["traits"]

end Tag

/-- A definition without its traits. -/
inductive Body where
  | simple (type : SimpleType)
  | group (type : GroupType) (members : KeyedList MemberDefinition)
  | list (member : MemberDefinition)
  | set (member : MemberDefinition)
  | map (key value : MemberDefinition)
  | service (version : Option String) (operations resources errors : List Reference)
  | operation (input output : Option Reference) (errors : List Reference)
  | resource (identifiers : KeyedList Reference) (operations resources : List Reference)
  /-- Adds traits to a shape defined elsewhere. -/
  | apply

def Body.tag : Body → Tag
  | simple type => .simple type
  | group type _ => .group type
  | list _ => .list
  | set _ => .set
  | map _ _ => .map
  | service _ _ _ _ => .service
  | operation _ _ _ => .operation
  | resource _ _ _ => .resource
  | apply => .apply

structure Definition where
  body : Body
  traits : TraitList

structure Document where
  version : String
  shapes : KeyedList Definition
  metadata : KeyedList Json

namespace Document

/-- The id of the first service of the document. -/
def findService? (document : Document) : Option String :=
  (document.shapes.entries.find? (·.2.body.tag = .service)).map (·.1)

def definition? (document : Document) (id : String) : Option Definition := document.shapes.get? id

end Document

end SmithyKotlin

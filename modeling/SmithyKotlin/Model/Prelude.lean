import SmithyKotlin.Model.Basic

/-!
# The prelude

`Prelude.model` has the shapes of the namespace `smithy.api` that every model holds without defining them: the
simple types, the primitive types, which have a default, and the unit type.  The traits of that namespace are not
among them, nor is anything checked against their definitions.
-/

namespace SmithyKotlin.Prelude

/-- The namespace of the prelude. -/
def scope : String := "smithy.api"

def shapeId (name : String) : ShapeId := ⟨scope ++ "#" ++ name⟩

def simpleShapes : List (String × ShapeType) :=
  [("String", .string), ("Blob", .blob), ("BigInteger", .bigInteger), ("BigDecimal", .bigDecimal),
   ("Timestamp", .timestamp), ("Document", .document), ("Boolean", .boolean), ("Byte", .byte),
   ("Short", .short), ("Integer", .integer), ("Long", .long), ("Float", .float),
   ("Double", .double)]

/-- The primitive types with their defaults. -/
def primitiveShapes : List (String × ShapeType × Json) :=
  [("PrimitiveBoolean", .boolean, .bool false),
   ("PrimitiveByte", .byte, .number (.integer 0)),
   ("PrimitiveShort", .short, .number (.integer 0)),
   ("PrimitiveInteger", .integer, .number (.integer 0)),
   ("PrimitiveLong", .long, .number (.integer 0)),
   ("PrimitiveFloat", .float, .number (.integer 0)),
   ("PrimitiveDouble", .double, .number (.integer 0))]

def unitShape : Shape :=
  { id := shapeId "Unit", type := .struct
    traits := SortedMap.empty.insert Trait.unitType Json.emptyObject }

def shapes : List Shape :=
  (simpleShapes.map fun entry => { id := shapeId entry.1, type := entry.2 })
    ++ (primitiveShapes.map fun entry =>
      { id := shapeId entry.1, type := entry.2.1
        traits := SortedMap.empty.insert Trait.default entry.2.2 })
    ++ [unitShape]

/-- The model that holds nothing else. -/
def model : Model := shapes.foldl Model.insert {}

end SmithyKotlin.Prelude

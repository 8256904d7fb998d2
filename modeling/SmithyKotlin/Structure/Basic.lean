import SmithyKotlin.Strategy
import SmithyKotlin.Structure.Default
import SmithyKotlin.Symbol.Provider
import SmithyKotlin.Writer.Documentation

/-!
# Structure declarations

A `StructureDeclaration` has one `Property` for each member of a structure, in the order of the members; an error
extends the exception class of the runtime (`serviceException`).  `StructureDeclaration.plan` makes it, and fails
when a target is missing.  Names of properties are not compared here (`Proofs/Structure/PropertyNames`).
-/

namespace SmithyKotlin

/-- The property of one member. -/
structure Property where
  member : String
  symbol : Symbol
  /-- The expression that stands for an argument that is not passed. -/
  default : Option String
  strategy : Strategy
  /-- The value is never printed. -/
  sensitive : Bool
  /-- The property is the message of the exception. -/
  overridesMessage : Bool
  documentation : Option String
  deprecated : Option String

namespace Property

def name (property : Property) : String := Naming.propertyName property.member

/-- The property of a member of a structure, which may be an error. -/
def ofMember (model : Model) (symbols : SymbolProvider) (error : Bool) (member : Member) :
    Except CodegenError Property := do
  let target ← model.find member.target
  let symbol ← symbols.memberSymbol model member
  return { member := member.name, symbol
           default :=
             if symbol.nullable then some "null"
             else (member.effectiveDefault? target).bind (defaultLiteral? target.type)
           strategy := .select target.type symbol.nullable target.isStreamingBlob
           sensitive := member.isSensitive || target.traits.contains Trait.sensitive
           overridesMessage :=
             error && Text.sameIgnoringAsciiCase member.name "message" && target.type = .string
           documentation := member.traits.documentation?.or target.traits.documentation?
           deprecated := member.traits.deprecation? }

end Property

structure StructureDeclaration where
  id : ShapeId
  symbol : Symbol
  superclass : Option Symbol
  documentation : Option String
  deprecated : Option String
  properties : List Property

namespace StructureDeclaration

/-- The class that errors extend. -/
def serviceException (settings : Settings) : Symbol :=
  { name := "ServiceException", package := Runtime.package
    dependencies := [Runtime.dependency settings] }

/-- Plans the declaration of the structure with the given id. -/
def plan (model : Model) (symbols : SymbolProvider) (settings : Settings) (id : ShapeId) :
    Except CodegenError StructureDeclaration := do
  let shape ← model.find id
  if shape.type ≠ .struct then throw (.otherType id shape.type .struct)
  let properties ← shape.members.mapM (Property.ofMember model symbols shape.isError)
  let symbol ← symbols.shapeSymbol model shape
  return { id, symbol, properties
           superclass := if shape.isError then some (serviceException settings) else none
           documentation := shape.traits.documentation?
           deprecated := shape.traits.deprecation? }

end StructureDeclaration

end SmithyKotlin

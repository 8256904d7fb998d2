import SmithyKotlin.Strategy
import SmithyKotlin.Symbol.Provider
import SmithyKotlin.Union.Members
import SmithyKotlin.Writer.Documentation

/-!
# Union declarations

* `UnionDeclaration`: a union becomes a sealed class with one `Variant` for each of its members and a catch-all
  variant for the members that a client does not know.
* `checkNames`: the names of all variants differ, also when case is ignored; that is checked before any symbol is
  asked for, so its error does not depend on the provider (`Proofs/Union/Planning`).
* `UnionDeclaration.plan` makes the declaration, with the variants in the order of `Shape.variantMembers`.

The names of accessors are made of those of the variants and are not compared (`Proofs/Union/Accessors`).
-/

namespace SmithyKotlin

/-- The variant of one member. -/
structure Variant where
  member : String
  id : ShapeId
  target : ShapeId
  targetType : ShapeType
  streamingBlob : Bool
  symbol : Symbol
  documentation : Option String
  deprecated : Option String

namespace Variant

def name (variant : Variant) : String := Naming.pascalCase variant.member

def assertAccessor (variant : Variant) : String := Naming.assertAccessor variant.name

def optionalAccessor (variant : Variant) : String := Naming.optionalAccessor variant.name

def strategy (variant : Variant) : Strategy :=
  .select variant.targetType variant.symbol.nullable variant.streamingBlob

/-- The variant of a member: the documentation of the target stands in for that of the member. -/
def ofMember (model : Model) (symbols : SymbolProvider) (member : Member) :
    Except CodegenError Variant := do
  let target ← model.find member.target
  let symbol ← symbols.memberSymbol model member
  return { member := member.name, id := member.id, target := target.id, targetType := target.type
           streamingBlob := target.isStreamingBlob, symbol
           documentation := member.traits.documentation?.or target.traits.documentation?
           deprecated := member.traits.deprecation? }

end Variant

structure UnionDeclaration where
  id : ShapeId
  symbol : Symbol
  documentation : Option String
  deprecated : Option String
  /-- The variants of the members, in the order of the members' names. -/
  variants : List Variant
  /-- The name of the catch-all variant, which comes last. -/
  unknownName : String

namespace UnionDeclaration

/-- The catch-all name that no member may use, whatever the settings call the catch-all. -/
def reservedName : String := "UnknownVariant"

/-- The reserved name that a member would take. -/
def reservedClash? (unknownName member : String) : Option String :=
  [unknownName, reservedName].find? fun reserved =>
    Text.sameIgnoringAsciiCase member reserved
      || Text.sameIgnoringAsciiCase (Naming.pascalCase member) reserved

/-- Whether two members would give variants whose names differ in case only. -/
def sameVariant (a b : String) : Bool :=
  Text.sameIgnoringAsciiCase (Naming.pascalCase a) (Naming.pascalCase b)

/-- The first clash of a member with a reserved name or with a member before it. -/
def nameClash? (id : ShapeId) (unknownName : String) :
    List String → List String → Option CodegenError
  | _, [] => none
  | seen, member :: rest =>
    match reservedClash? unknownName member with
    | some reserved => some (.reservedVariant id member reserved)
    | none =>
      match seen.find? (sameVariant member) with
      | some earlier => some (.sameVariant id earlier member (Naming.pascalCase member))
      | none => nameClash? id unknownName (member :: seen) rest

/-- Fails with the first clash among the names of the members. -/
def checkNames (id : ShapeId) (unknownName : String) (members : List Member) :
    Except CodegenError Unit :=
  (nameClash? id unknownName [] (members.map (·.name))).elim (.ok ()) .error

/-- Plans the declaration of the union with the given id. -/
def plan (model : Model) (symbols : SymbolProvider) (settings : Settings) (id : ShapeId) :
    Except CodegenError UnionDeclaration := do
  let shape ← model.find id
  if shape.type ≠ .union then throw (.otherType id shape.type .union)
  let members ← shape.variantMembers model
  checkNames shape.id settings.unknownVariantName members
  let variants ← members.mapM (Variant.ofMember model symbols)
  let symbol ← symbols.shapeSymbol model shape
  return { id, symbol, variants, unknownName := settings.unknownVariantName
           documentation := shape.traits.documentation?
           deprecated := shape.traits.deprecation? }

/-- The names of all variants, the catch-all last. -/
def variantNames (declaration : UnionDeclaration) : List String :=
  declaration.variants.map Variant.name ++ [declaration.unknownName]

/-- The accessors of each variant: the asserting one and the one that may answer null. -/
def accessors (declaration : UnionDeclaration) : List (String × String) :=
  declaration.variants.map fun variant => (variant.assertAccessor, variant.optionalAccessor)

end UnionDeclaration

end SmithyKotlin

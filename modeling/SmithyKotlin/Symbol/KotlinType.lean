import SmithyKotlin.Model.Basic
import SmithyKotlin.Naming
import SmithyKotlin.Settings.Basic
import SmithyKotlin.Symbol.Basic

/-!
# Kotlin types

A `KotlinType` is the type of a shape as a tree: a named type, or a list or map of types.

* `KotlinType.ofShape` follows the members of lists and maps through the model.  The shapes on the way are taken out
  of the map that is searched (`Next`, `within`), so a type that contains itself is found out and the search ends.
* `KotlinType.symbol` writes a tree as a symbol.

Which trees come out is said without the search in `Proofs/Symbol/Nesting`.
-/

namespace SmithyKotlin

inductive KotlinType where
  /-- A type of Kotlin itself. -/
  | builtin (name : String)
  /-- A type of the client runtime. -/
  | runtime (package name : String)
  /-- A generated type. -/
  | generated (name : String)
  /-- A list; the elements of a sparse one may be null. -/
  | list (element : KotlinType) (sparse : Bool)
  /-- A map; the values of a sparse one may be null. -/
  | map (key value : KotlinType) (sparse : Bool)
  deriving DecidableEq, Repr

namespace Runtime

/-- The artifact that holds the types of the client runtime. -/
def artifact : String := "aws.smithy.kotlin:runtime-core"

def package : String := "aws.smithy.kotlin.runtime"

def contentPackage : String := "aws.smithy.kotlin.runtime.content"

def timePackage : String := "aws.smithy.kotlin.runtime.time"

def dependency (settings : Settings) : Dependency := ⟨artifact, settings.runtimeVersion⟩

end Runtime

namespace KotlinType

/-- The type of a shape that is no list or map. -/
def scalar? (shape : Shape) : Option KotlinType :=
  match shape.type with
  | .boolean => some (builtin "Boolean")
  | .byte => some (builtin "Byte")
  | .short => some (builtin "Short")
  | .integer | .intEnum => some (builtin "Int")
  | .long => some (builtin "Long")
  | .float => some (builtin "Float")
  | .double => some (builtin "Double")
  | .string | .enum => some (builtin "String")
  | .bigInteger => some (runtime Runtime.contentPackage "BigInteger")
  | .bigDecimal => some (runtime Runtime.contentPackage "BigDecimal")
  | .blob =>
    if shape.isStreaming then some (runtime Runtime.contentPackage "ByteStream")
    else some (builtin "ByteArray")
  | .timestamp => some (runtime Runtime.timePackage "Instant")
  | .document => some (runtime Runtime.contentPackage "Document")
  | .struct =>
    if shape.traits.contains Trait.unitType then some (builtin "Unit")
    else some (generated (Naming.pascalCase shape.id.name))
  | .union => some (generated (Naming.pascalCase shape.id.name))
  | .list | .map | .service | .operation | .resource | .member => none

/-- The shapes that can still occur in a type, and the next of them. -/
structure Next (available : SortedMap Shape) where
  rest : SortedMap Shape
  target : Shape
  smaller : rest.size < available.size

/-- The target of a member of a list or map, taken out of the shapes that can still occur. -/
def next (model : Model) (available : SortedMap Shape) (shape : Shape) (member : String) :
    Except CodegenError (Next available) :=
  match shape.member? member with
  | none => .error (.missingMember shape.id member)
  | some found =>
    match h : available.get? found.target.text with
    | some target => .ok ⟨available.erase found.target.text, target, SortedMap.size_erase_lt h⟩
    | none =>
      if model.contains found.target then .error (.endlessType found.target)
      else .error (.unresolvedShape found.target)

/-- The type of a shape in which the available shapes can occur. -/
def within (model : Model) (available : SortedMap Shape) (shape : Shape) :
    Except CodegenError KotlinType :=
  let sparse := shape.traits.contains Trait.sparse
  match shape.type with
  | .list => do
    let member ← next model available shape "member"
    let element ← within model member.rest member.target
    return list element sparse
  | .map => do
    let first ← next model available shape "key"
    let key ← within model first.rest first.target
    let second ← next model available shape "value"
    let value ← within model second.rest second.target
    return map key value sparse
  | _ => (scalar? shape).elim (.error (.noKotlinType shape.type shape.id)) .ok
termination_by available.size
decreasing_by
  · exact member.smaller
  · exact first.smaller
  · exact second.smaller

def ofShape (model : Model) (shape : Shape) : Except CodegenError KotlinType :=
  within model model.shapes shape

/-- The display of a type argument. -/
def argument (symbol : Symbol) (nullable : Bool) : String :=
  if nullable then symbol.display ++ "?" else symbol.display

/-- The symbol of a type.  Types of the runtime depend on its artifact, and a collection depends on
what its arguments depend on. -/
def symbol (settings : Settings) : KotlinType → Symbol
  | builtin name => { name, package := "kotlin" }
  | runtime package name => { name, package, dependencies := [Runtime.dependency settings] }
  | generated name => { name, package := settings.modelPackage }
  | list element sparse =>
    let element := element.symbol settings
    { name := "List<" ++ argument element sparse ++ ">", package := "kotlin.collections" : Symbol }
      |>.dependingOnAll element.dependencies
  | map key value sparse =>
    let key := key.symbol settings
    let value := value.symbol settings
    { name := "Map<" ++ key.display ++ ", " ++ argument value sparse ++ ">"
      package := "kotlin.collections" : Symbol }
      |>.dependingOnAll (key.dependencies ++ value.dependencies)

end KotlinType

end SmithyKotlin

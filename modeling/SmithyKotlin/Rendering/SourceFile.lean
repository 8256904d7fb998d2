import SmithyKotlin.Files.Path
import SmithyKotlin.Structure.Emission
import SmithyKotlin.Union.Emission

/-!
# Source files

`SourceFile.render` makes the Kotlin file of one union or structure: the declaration in the package of the generated
types, below a `header` and the imports that it needs.  Its path comes from the name of the type (`pathOf`), and two
shapes can ask for one path; that is settled when the results are merged (`Rendering.rejectCollisions`).
-/

namespace SmithyKotlin

/-- The version of this generator. -/
def generatorVersion : String := "0.4.1"

structure SourceFile where
  shape : ShapeId
  /-- The path below the directory of the generated library. -/
  path : String
  contents : String
  dependencies : List Dependency
  deriving DecidableEq, Repr

namespace SourceFile

/-- The directory of the sources of a package. -/
def directory (package : String) : String :=
  Path.join "src/main/kotlin" (package.map fun c => if c = '.' then '/' else c)

def pathOf (package typeName : String) : String := Path.join (directory package) (typeName ++ ".kt")

def importSection (imports : List String) : String :=
  if imports.isEmpty then ""
  else String.join (imports.map fun path => "import " ++ path ++ "\n") ++ "\n"

/-- The lines above the imports of a file. -/
def header (settings : Settings) : List String :=
  ["// Code generated by smithy-sdk-generator " ++ generatorVersion ++ ". DO NOT EDIT.",
   "// Targets client runtime " ++ settings.runtimeVersion ++ ".",
   "",
   "package " ++ settings.modelPackage,
   ""]

/-- The text of a file around what a writer has written. -/
def contentsOf (settings : Settings) (written : Writer) : String :=
  String.join ((header settings).map (· ++ "\n")) ++ importSection written.importPaths ++ written.body ++ "\n"

/-- The file for a declaration with the given instructions. -/
def ofInstructions (settings : Settings) (shape : ShapeId) (typeName : String)
    (instructions : List Instruction) : SourceFile :=
  let written := ({ package := settings.modelPackage } : Writer).run instructions
  { shape, path := pathOf settings.modelPackage typeName
    contents := contentsOf settings written, dependencies := written.dependencies }

/-- The file of a union or structure. -/
def render (model : Model) (symbols : SymbolProvider) (settings : Settings) (shape : Shape) :
    Except CodegenError SourceFile :=
  match shape.type with
  | .union => do
    let declaration ← UnionDeclaration.plan model symbols settings shape.id
    return ofInstructions settings shape.id declaration.symbol.name declaration.emit
  | .struct => do
    let declaration ← StructureDeclaration.plan model symbols settings shape.id
    return ofInstructions settings shape.id declaration.symbol.name declaration.emit
  | type => .error (.notRendered type shape.id)

end SourceFile

end SmithyKotlin

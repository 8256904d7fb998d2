import SmithyKotlin.Json.Fault
import SmithyKotlin.Model.ShapeId
import SmithyKotlin.Model.ShapeType

/-!
# Errors

`CodegenError` has every cause for which reading a model, planning a declaration or writing files can fail, with the
data of its message; `kind`, `detail` and `message` are what is seen of it.  Only a violated invariant names a shape
(`CodegenError.shape?_isSome_iff`).  An error of the operating system is kept as its number (`OsError`); the faults
of a document are a type of their own, `Fault`.
-/

namespace SmithyKotlin

/-- Why the operating system refused something: the number of its error, or a name that it cannot be
given at all. -/
inductive OsError where
  | number (n : Nat)
  /-- The name holds the character that ends names. -/
  | nulInName
  deriving DecidableEq, Repr

namespace OsError

@[match_pattern] def missing : OsError := number 2
@[match_pattern] def occupied : OsError := number 17
@[match_pattern] def notDirectory : OsError := number 20
@[match_pattern] def isDirectory : OsError := number 21
@[match_pattern] def nameTooLong : OsError := number 36

def text : OsError → String
  | number n => "(os error " ++ Nat.repr n ++ ")"
  | nulInName => "file name contained an unexpected NUL byte"

end OsError

inductive CodegenError where
  -- Reading models
  | unreadableModel (path : String) (error : OsError)
  | malformedDocument (fault : Fault)
  | unsupportedVersion (version : String)
  | invalidShapeId (text : String)
  | unknownApplyTarget (id : ShapeId)
  | unresolvedShape (id : ShapeId)
  | malformedGraph (fault : Fault)
  -- Kotlin types and declarations
  | missingMember (id : ShapeId) (member : String)
  | noKotlinType (type : ShapeType) (id : ShapeId)
  | endlessType (id : ShapeId)
  | otherType (id : ShapeId) (actual expected : ShapeType)
  | notRendered (type : ShapeType) (id : ShapeId)
  | reservedVariant (id : ShapeId) (member reserved : String)
  | sameVariant (id : ShapeId) (first second variant : String)
  | samePath (id owner : ShapeId) (path : String)
  -- Settings
  | unreadableSettings (path : String) (error : OsError)
  | unsupportedExtension (ending : String)
  | malformedSettings (fault : Fault)
  | malformedYaml
  | noRuntimeVersion
  | invalidRuntimeVersion (version : String)
  | invalidPackageVersion (version : String)
  | invalidPackageName (name : String)
  | invalidUnknownVariant (name : String)
  -- Writing files
  | outputNotCreated (error : OsError)
  | directoryNotCreated (path : String) (error : OsError)
  | fileNotWritten (path : String) (error : OsError)
  deriving DecidableEq, Repr

namespace CodegenError

inductive Kind where
  | parse
  | generation
  | invariantViolation
  | unresolvedShape
  | config
  | json
  | yaml
  deriving DecidableEq, Repr

def kind : CodegenError → Kind
  | unreadableModel _ _ | malformedDocument _ | unsupportedVersion _ | invalidShapeId _
  | unknownApplyTarget _ => .parse
  | unresolvedShape _ => .unresolvedShape
  | malformedGraph _ | malformedSettings _ => .json
  | malformedYaml => .yaml
  | missingMember _ _ | noKotlinType _ _ | endlessType _ | otherType _ _ _ | notRendered _ _
  | outputNotCreated _ | directoryNotCreated _ _ | fileNotWritten _ _ => .generation
  | reservedVariant _ _ _ | sameVariant _ _ _ _ | samePath _ _ _ => .invariantViolation
  | unreadableSettings _ _ | unsupportedExtension _ | noRuntimeVersion | invalidRuntimeVersion _
  | invalidPackageVersion _ | invalidPackageName _ | invalidUnknownVariant _ => .config

/-- The shape that an error of the kind `invariantViolation` is about. -/
def shape? : CodegenError → Option ShapeId
  | reservedVariant id _ _ | sameVariant id _ _ _ | samePath id _ _ => some id
  | _ => none

/-- What is wrong, without the kind. -/
def detail : CodegenError → String
  | unreadableModel path error => "Failed to read Smithy file " ++ path ++ ": " ++ error.text
  | malformedDocument fault => "Failed to parse Smithy JSON: " ++ fault.message
  | unsupportedVersion version => "Unsupported Smithy IDL version '" ++ version ++ "'"
  | invalidShapeId text => "Invalid shape ID '" ++ text ++ "'"
  | unknownApplyTarget id => "apply targets unknown shape " ++ id.text
  | unresolvedShape id => id.text
  | malformedGraph fault => fault.message
  | missingMember id member => id.text ++ " has no `" ++ member ++ "` member"
  | noKotlinType type id => type.name ++ " shape " ++ id.text ++ " has no Kotlin type"
  | endlessType id => id.text ++ " contains itself"
  | otherType id actual expected =>
    id.text ++ " is a " ++ actual.name ++ ", not a " ++ expected.name
  | notRendered type id => "cannot render " ++ type.name ++ " shape " ++ id.text
  | reservedVariant _ member reserved =>
    "member `" ++ member ++ "` collides with the reserved variant name `" ++ reserved ++ "`"
  | sameVariant _ first second variant =>
    "members `" ++ first ++ "` and `" ++ second ++ "` map to the same variant name `" ++ variant
      ++ "`"
  | samePath id owner path => owner.text ++ " and " ++ id.text ++ " both generate " ++ path
  | unreadableSettings path error =>
    "Failed to read settings file " ++ Text.quotedPath path ++ ": " ++ error.text
  | unsupportedExtension ending =>
    "Unsupported settings file extension '" ++ ending ++ "' (expected json, yaml or yml)"
  | malformedSettings fault => fault.message
  | malformedYaml => ""
  | noRuntimeVersion => "runtimeVersion is required"
  | invalidRuntimeVersion version =>
    "runtimeVersion '" ++ version
      ++ "' is not a valid version (expected MAJOR.MINOR.PATCH[-QUALIFIER])"
  | invalidPackageVersion version => "packageVersion '" ++ version ++ "' is not a valid version"
  | invalidPackageName name => "packageName '" ++ name ++ "' is not a valid Kotlin package"
  | invalidUnknownVariant name =>
    "unknownVariantName '" ++ name ++ "' must be a PascalCase identifier"
  | outputNotCreated error => "Failed to create output directory: " ++ error.text
  | directoryNotCreated path error => "Failed to create " ++ path ++ ": " ++ error.text
  | fileNotWritten path error => "Failed to write " ++ path ++ ": " ++ error.text

/-- The whole message of an error. -/
def message (error : CodegenError) : String :=
  match error.kind with
  | .parse => "Parse error: " ++ error.detail
  | .generation => "Generation error: " ++ error.detail
  | .invariantViolation =>
    "Invariant violated for shape " ++ (error.shape?.elim "" ShapeId.text) ++ ": " ++ error.detail
  | .unresolvedShape => "Shape not found in model: " ++ error.detail
  | .config => "Configuration error: " ++ error.detail
  | .json => "JSON error: " ++ error.detail
  | .yaml => "YAML error"

theorem shape?_isSome_iff (error : CodegenError) :
    error.shape?.isSome ↔ error.kind = .invariantViolation := by
  cases error <;> simp [shape?, kind]

end CodegenError

end SmithyKotlin

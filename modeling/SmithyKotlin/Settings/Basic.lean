import SmithyKotlin.Error
import SmithyKotlin.Text.DecimalDigit

/-!
# Settings

`Settings` are what a run is configured with.  `Settings.check` finds the first one without its form: `isVersion`
for the two versions, `isPackage` for the package, `isTypeName` for the catch-all variant.  What these forms are is
said as grammars in `Proofs/Settings/Forms`; whether a version or a package exists is not asked.
-/

namespace SmithyKotlin

structure Settings where
  /-- The package of the generated library. -/
  packageName : String
  packageVersion : String := "0.1.0"
  /-- The version of the client runtime that generated code depends on. -/
  runtimeVersion : String
  /-- Only the namespace of this service is generated. -/
  service : Option ShapeId := none
  /-- Shapes that cannot be generated are skipped. -/
  continueOnError : Bool := false
  /-- The name of the catch-all variant of every union. -/
  unknownVariantName : String := "SdkUnknown"
  deriving DecidableEq, Repr

namespace Settings

/-! ## Forms -/

def isQualifierChar (c : Char) : Bool := c.isAlphanum || c = '.' || c = '-'

/-- Three numbers between points. -/
def isVersionCore (cs : List Char) : Bool :=
  match Text.pieces (· = '.') cs with
  | [major, minor, patch] =>
    [major, minor, patch].all fun piece => !piece.isEmpty && piece.all Text.isDecimalDigit
  | _ => false

/-- `MAJOR.MINOR.PATCH`, or that with `-QUALIFIER`. -/
def isVersion (version : String) : Bool :=
  match Text.cutList '-' version.toList with
  | none => isVersionCore version.toList
  | some (core, qualifier) =>
    isVersionCore core && !qualifier.isEmpty && qualifier.all isQualifierChar

def isPackageSegment : List Char → Bool
  | [] => false
  | c :: rest => c.isLower && rest.all fun c => c.isLower || c.isDigit || c = '_'

/-- Segments of small letters, digits and underscores between points, each starting with a letter. -/
def isPackage (name : String) : Bool :=
  (Text.pieces (· = '.') name.toList).all isPackageSegment

/-- Letters and digits, a capital first. -/
def isTypeName (name : String) : Bool :=
  (name.toList.head?.any Char.isUpper) && name.toList.all Char.isAlphanum

/-! ## Checking -/

/-- The first setting without its form, if there is one. -/
def check (settings : Settings) : Except CodegenError Unit :=
  if (Text.trim settings.runtimeVersion).isEmpty then .error .noRuntimeVersion
  else if !isVersion settings.runtimeVersion then
    .error (.invalidRuntimeVersion settings.runtimeVersion)
  else if !isVersion settings.packageVersion then
    .error (.invalidPackageVersion settings.packageVersion)
  else if !isPackage settings.packageName then .error (.invalidPackageName settings.packageName)
  else if !isTypeName settings.unknownVariantName then
    .error (.invalidUnknownVariant settings.unknownVariantName)
  else .ok ()

/-- The package of the generated types. -/
def modelPackage (settings : Settings) : String := settings.packageName ++ ".model"

end Settings

end SmithyKotlin

import SmithyKotlin.Json.Decode
import SmithyKotlin.Settings.Basic

/-!
# Settings as JSON

Settings are written with all fields (`Settings.encode`); where they are read (`Settings.decode`), only the package
and the version of the runtime have to be there.  Nothing is checked in between, so settings that fail their check
can be written and read as well.
-/

namespace SmithyKotlin.Settings

def encode (settings : Settings) : Json :=
  .object [("packageName", .string settings.packageName),
    ("packageVersion", .string settings.packageVersion),
    ("runtimeVersion", .string settings.runtimeVersion),
    ("service", settings.service.elim .null fun id => .string id.text),
    ("continueOnError", .bool settings.continueOnError),
    ("unknownVariantName", .string settings.unknownVariantName)]

/-- The fields of settings that have been read. -/
structure Parts where
  packageName : Option String := none
  packageVersion : Option String := none
  runtimeVersion : Option String := none
  service : Option (Option ShapeId) := none
  continueOnError : Option Bool := none
  unknownVariantName : Option String := none

def recordType : RecordType :=
  ⟨"struct CodegenSettings",
    ["packageName", "packageVersion", "runtimeVersion", "service", "continueOnError",
     "unknownVariantName"]⟩

def decodeService (source : Source) : Except Fault (Option ShapeId) :=
  source.asOption fun source => source.asString.map ShapeId.mk

def Parts.step (parts : Parts) (name : String) (source : Source) : Except Fault Parts := do
  match name with
  | "packageName" =>
    return { parts with packageName := ← fillSlot parts.packageName name Source.asString source }
  | "packageVersion" =>
    let packageVersion ← fillSlot parts.packageVersion name Source.asString source
    return { parts with packageVersion }
  | "runtimeVersion" =>
    let runtimeVersion ← fillSlot parts.runtimeVersion name Source.asString source
    return { parts with runtimeVersion }
  | "service" => return { parts with service := ← fillSlot parts.service name decodeService source }
  | "continueOnError" =>
    let continueOnError ← fillSlot parts.continueOnError name Source.asBool source
    return { parts with continueOnError }
  | _ =>
    let unknownVariantName ← fillSlot parts.unknownVariantName name Source.asString source
    return { parts with unknownVariantName }

/-- The settings with the fields that were read, the others at their defaults. -/
def Parts.settings (parts : Parts) (packageName runtimeVersion : String) : Settings :=
  let defaults : Settings := { packageName, runtimeVersion }
  { packageName, runtimeVersion
    packageVersion := parts.packageVersion.getD defaults.packageVersion
    service := parts.service.getD none
    continueOnError := parts.continueOnError.getD false
    unknownVariantName := parts.unknownVariantName.getD defaults.unknownVariantName }

def decode (origin : Origin) (source : Source) : Except Fault Settings := do
  let (parts, form) ← recordType.read origin Parts.step {} source
  let packageName ← recordType.require form "packageName" parts.packageName
  let runtimeVersion ← recordType.require form "runtimeVersion" parts.runtimeVersion
  return parts.settings packageName runtimeVersion

/-- The settings in a JSON text; nothing may follow them. -/
def readJson (text : String) : Except Fault Settings := do
  let source := SourceText.read text
  let settings ← decode .text source.document
  if source.atEnd then return settings else .error .malformed

end SmithyKotlin.Settings

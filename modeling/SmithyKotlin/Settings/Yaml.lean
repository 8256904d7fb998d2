import SmithyKotlin.Settings.Json
import SmithyKotlin.Yaml.Reader

/-!
# Settings as YAML

`Settings.readYaml?` reads the same fields as in JSON.  Any scalar is a text as it is written (`yamlText?`); only a
plain one can be a boolean or stand for no service, and a tag decides whether it may.  Mistakes are not told apart.
-/

namespace SmithyKotlin.Settings

def yamlText? (node : Yaml) : Option String :=
  match node.content with
  | .scalar text _ => some text
  | _ => none

def yamlBool? (node : Yaml) : Option Bool :=
  match node.content with
  | .scalar text true =>
    if ["true", "True", "TRUE"].contains text then some true
    else if ["false", "False", "FALSE"].contains text then some false
    else none
  | _ => none

/-- Whether a plain scalar stands for null. -/
def isYamlNull (text : String) : Bool := ["~", "null", "Null", "NULL"].contains text

def yamlService? : Yaml → Option (Option ShapeId)
  | .scalar text plain =>
    if plain && (text.isEmpty || isYamlNull text) then some none else some (some ⟨text⟩)
  | .tagged tag (.scalar text plain) =>
    if !plain || tag ≠ Yaml.nullTag then some (some ⟨text⟩)
    else if isYamlNull text then some none
    else none
  | _ => none

/-- Puts a value into a slot that is free. -/
def yamlSlot {α : Type} (slot : Option α) (value : Option α) : Option (Option α) :=
  if slot.isSome then none else value.map some

/-- Takes one field; fields of other names are skipped. -/
def Parts.yamlStep (parts : Parts) (name : String) (value : Yaml) : Option Parts := do
  match name with
  | "packageName" => return { parts with packageName := ← yamlSlot parts.packageName (yamlText? value) }
  | "packageVersion" =>
    return { parts with packageVersion := ← yamlSlot parts.packageVersion (yamlText? value) }
  | "runtimeVersion" =>
    return { parts with runtimeVersion := ← yamlSlot parts.runtimeVersion (yamlText? value) }
  | "service" => return { parts with service := ← yamlSlot parts.service (yamlService? value) }
  | "continueOnError" =>
    return { parts with continueOnError := ← yamlSlot parts.continueOnError (yamlBool? value) }
  | "unknownVariantName" =>
    return { parts with unknownVariantName := ← yamlSlot parts.unknownVariantName (yamlText? value) }
  | _ => return parts

def yamlParts? (node : Yaml) : Option Parts :=
  match node.content with
  | .mapping entries =>
    entries.foldlM (fun parts entry => do parts.yamlStep (← yamlText? entry.1) entry.2) {}
  | .sequence items =>
    if recordType.fields.length < items.length then none
    else (recordType.fields.zip items).foldlM (fun parts field => parts.yamlStep field.1 field.2) {}
  | _ => none

/-- The settings in a YAML text. -/
def readYaml? (text : String) : Option Settings := do
  let parts ← yamlParts? (← Yaml.read? text)
  return parts.settings (← parts.packageName) (← parts.runtimeVersion)

end SmithyKotlin.Settings

import SmithyKotlin.Document.Basic
import SmithyKotlin.Json.Decode

/-!
# Reading model documents

`Document.decode` makes a document of what was read, `Document.read` of a text.  The parts of a record are collected
into slots (`Document.Parts`, `Definition.Parts`, `MemberDefinition.Parts`) and put together at its end.

A definition is read whole before its fields are decoded, its tag excepted (`Definition.splitTag`): so a mistake in
the JSON inside a definition counts before a field with a wrong value.  The `room` of a decoder is the nesting that
is left for its value, and each object or array on the way takes one level of it.
-/

namespace SmithyKotlin

/-! ## References, members and traits -/

def Reference.recordType : RecordType := ⟨"struct ShapeReference", ["target"]⟩

def Reference.decode (source : Source) : Except Fault Reference := do
  let step (parts : Option String) (name : String) (value : Source) :=
    fillSlot parts name Source.asString value
  let (target, form) ← recordType.read .buffer step none source
  return ⟨← recordType.require form "target" target⟩

/-- Traits, nested at most `room` deep with the object that holds them. -/
def decodeTraits (room : Nat) (source : Source) : Except Fault TraitList :=
  (source.asEntries (Source.asJson (room - 1))).map KeyedList.ofList

namespace MemberDefinition

structure Parts where
  target : Option String := none
  traits : Option TraitList := none

def recordType : RecordType := ⟨"struct AstMember", ["target", "traits"]⟩

def Parts.step (room : Nat) (parts : Parts) (name : String) (value : Source) :
    Except Fault Parts := do
  if name = "target" then
    return { parts with target := ← fillSlot parts.target name Source.asString value }
  else return { parts with traits := ← fillSlot parts.traits name (decodeTraits room) value }

/-- A member nested at most `room` deep. -/
def decode (room : Nat) (source : Source) : Except Fault MemberDefinition := do
  let (parts, form) ← recordType.read .buffer (Parts.step (room - 1)) {} source
  return ⟨← recordType.require form "target" parts.target, parts.traits.getD .empty⟩

end MemberDefinition

/-! ## Definitions -/

namespace Definition

/-- The fields that a definition may have, whatever its tag. -/
structure Parts where
  members : Option (KeyedList MemberDefinition) := none
  member : Option MemberDefinition := none
  key : Option MemberDefinition := none
  value : Option MemberDefinition := none
  version : Option (Option String) := none
  input : Option (Option Reference) := none
  output : Option (Option Reference) := none
  identifiers : Option (KeyedList Reference) := none
  operations : Option (List Reference) := none
  resources : Option (List Reference) := none
  errors : Option (List Reference) := none
  traits : Option TraitList := none

def decodeKeyed {α : Type} (decode : Source → Except Fault α) (source : Source) :
    Except Fault (KeyedList α) := (source.asEntries decode).map KeyedList.ofList

def Parts.step (room : Nat) (parts : Parts) (name : String) (source : Source) :
    Except Fault Parts := do
  match name with
  | "members" =>
    let decode := decodeKeyed (MemberDefinition.decode (room - 1))
    return { parts with members := ← fillSlot parts.members name decode source }
  | "member" =>
    let decode := MemberDefinition.decode room
    return { parts with member := ← fillSlot parts.member name decode source }
  | "key" =>
    let decode := MemberDefinition.decode room
    return { parts with key := ← fillSlot parts.key name decode source }
  | "value" =>
    let decode := MemberDefinition.decode room
    return { parts with value := ← fillSlot parts.value name decode source }
  | "version" =>
    let decode := Source.asOption Source.asString
    return { parts with version := ← fillSlot parts.version name decode source }
  | "input" =>
    let decode := Source.asOption Reference.decode
    return { parts with input := ← fillSlot parts.input name decode source }
  | "output" =>
    let decode := Source.asOption Reference.decode
    return { parts with output := ← fillSlot parts.output name decode source }
  | "identifiers" =>
    let decode := decodeKeyed Reference.decode
    return { parts with identifiers := ← fillSlot parts.identifiers name decode source }
  | "operations" =>
    let decode := Source.asList Reference.decode
    return { parts with operations := ← fillSlot parts.operations name decode source }
  | "resources" =>
    let decode := Source.asList Reference.decode
    return { parts with resources := ← fillSlot parts.resources name decode source }
  | "errors" =>
    let decode := Source.asList Reference.decode
    return { parts with errors := ← fillSlot parts.errors name decode source }
  | _ => return { parts with traits := ← fillSlot parts.traits name (decodeTraits room) source }

def recordType (tag : Tag) : RecordType :=
  ⟨"struct variant AstShape::" ++ tag.name.capitalize, tag.fields⟩

/-- The body that the parts of a definition make up. -/
def Parts.body (parts : Parts) (tag : Tag) (form : RecordType.Form) : Except Fault Body := do
  let type := recordType tag
  match tag with
  | .simple simple => return .simple simple
  | .group group => return .group group (parts.members.getD .empty)
  | .list => return .list (← type.require form "member" parts.member)
  | .set => return .set (← type.require form "member" parts.member)
  | .map =>
    let key ← type.require form "key" parts.key
    return .map key (← type.require form "value" parts.value)
  | .service =>
    return .service (parts.version.getD none) (parts.operations.getD []) (parts.resources.getD [])
      (parts.errors.getD [])
  | .operation =>
    return .operation (parts.input.getD none) (parts.output.getD none) (parts.errors.getD [])
  | .resource =>
    return .resource (parts.identifiers.getD .empty) (parts.operations.getD [])
      (parts.resources.getD [])
  | .apply => return .apply

def decodeTag : Source → Except Fault Tag
  | .string name =>
    (Tag.ofName? name).elim (.error (.unknownVariant name (Tag.all.map Tag.name))) .ok
  | source => .error (source.notA "variant identifier")

/-- Takes the tag out of the fields of a definition; the other fields are read, not decoded. -/
def splitTag (room : Nat) : Option Tag → List (String × Source) →
    List (Option String × Source) → Except Fault (Option Tag × List (String × Source))
  | tag, done, [] => .ok (tag, done.reverse)
  | _, _, (none, _) :: _ => .error .malformed
  | tag, done, (some name, value) :: rest =>
    if name = "type" then
      if tag.isSome then .error (.duplicateField name)
      else (decodeTag value).bind fun tag => splitTag room (some tag) done rest
    else if (value.toJson? room).isSome then splitTag room tag ((name, value) :: done) rest
    else .error .malformed

/-- Decodes the fields of a definition that was read whole. -/
def decodeBody (room : Nat) (tag : Tag) (source : Source) : Except Fault Definition := do
  let (parts, form) ← (recordType tag).read .buffer (Parts.step (room - 1)) {} source
  return ⟨← parts.body tag form, parts.traits.getD .empty⟩

/-- A definition nested at most `room` deep. -/
def decode (room : Nat) : Source → Except Fault Definition
  | .object fields ended => do
    let (tag, fields) ← splitTag (room - 1) none [] fields
    if !ended then throw .malformed
    match tag with
    | none => .error (.missingField "type")
    | some tag => decodeBody room tag (.object (fields.map fun field => (some field.1, field.2)) true)
  | .array [] ended => .error (if ended then .missingField "type" else .malformed)
  | .array (first :: rest) ended => do
    let tag ← decodeTag first
    if ended && rest.all fun item => (item.toJson? (room - 1)).isSome then
      decodeBody room tag (.array rest true)
    else .error .malformed
  | source => .error (source.notA "internally tagged enum AstShape")

end Definition

/-! ## Documents -/

namespace Document

structure Parts where
  version : Option String := none
  shapes : Option (KeyedList Definition) := none
  metadata : Option (KeyedList Json) := none

def recordType : RecordType := ⟨"struct SmithyModel", ["smithy", "shapes", "metadata"]⟩

def Parts.step (room : Nat) (parts : Parts) (name : String) (source : Source) :
    Except Fault Parts := do
  match name with
  | "smithy" => return { parts with version := ← fillSlot parts.version name Source.asString source }
  | "shapes" =>
    let decode := Definition.decodeKeyed (Definition.decode (room - 1))
    return { parts with shapes := ← fillSlot parts.shapes name decode source }
  | _ =>
    let decode := Definition.decodeKeyed (Source.asJson (room - 1))
    return { parts with metadata := ← fillSlot parts.metadata name decode source }

/-- A document nested at most `room` deep. -/
def decode (room : Nat) (source : Source) : Except Fault Document := do
  let (parts, form) ← recordType.read .text (Parts.step (room - 1)) {} source
  return ⟨← recordType.require form "smithy" parts.version, parts.shapes.getD .empty,
    parts.metadata.getD .empty⟩

/-- The document in a text; nothing may follow it. -/
def read (text : String) : Except Fault Document := do
  let source := SourceText.read text
  let document ← decode Source.nestingLimit source.document
  if source.atEnd then return document else .error .malformed

end Document

end SmithyKotlin

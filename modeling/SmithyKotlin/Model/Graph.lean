import SmithyKotlin.Json.Decode
import SmithyKotlin.Model.Basic

/-!
# Shape graphs as JSON

The JSON form of models, shapes, members and trait maps, written with all fields (`Model.encode`) and read back
(`Model.decode`).  Unlike a document it names every shape twice, as key and as id, and the two may differ.  No
command reads or writes this form; it is one for tools that look at a model.
-/

namespace SmithyKotlin

/-! ## Writing -/

def TraitMap.encode (traits : TraitMap) : Json := .object traits.entries

def Member.encode (member : Member) : Json :=
  .object [("id", .string member.id.text), ("name", .string member.name),
    ("target", .string member.target.text), ("traits", member.traits.encode)]

def Shape.encode (shape : Shape) : Json :=
  .object [("id", .string shape.id.text), ("shape_type", .string shape.type.name),
    ("members", .array (shape.members.map Member.encode)), ("traits", shape.traits.encode)]

def Model.encode (model : Model) : Json :=
  .object [("shapes", .object (model.shapes.entries.map fun entry => (entry.1, entry.2.encode))),
    ("metadata", .object model.metadata.entries)]

/-! ## Reading -/

def decodeId (source : Source) : Except Fault ShapeId := source.asString.map ShapeId.mk

def decodeMap {α : Type} (decode : Source → Except Fault α) (source : Source) :
    Except Fault (SortedMap α) := (source.asEntries decode).map SortedMap.ofList

def TraitMap.decode (source : Source) : Except Fault TraitMap :=
  decodeMap (Source.asJson Source.nestingLimit) source

namespace ShapeType

def ofText (text : String) : Except Fault ShapeType :=
  (ofName? text).elim (.error (.unknownVariant text (all.map name))) .ok

/-- A type is its name, or an object whose only field has that name and holds null. -/
def decode : Source → Except Fault ShapeType
  | .string text => ofText text
  | .object [(some text, value)] true => do
    let type ← ofText text
    match value with
    | .null => return type
    | _ => .error (value.notA "unit")
  | .object _ _ => .error (.wrongValue .map "map with a single key")
  | source => .error (source.notA "string or map")

end ShapeType

namespace Member

structure Parts where
  id : Option ShapeId := none
  name : Option String := none
  target : Option ShapeId := none
  traits : Option TraitMap := none

def recordType : RecordType := ⟨"struct MemberShape", ["id", "name", "target", "traits"]⟩

def Parts.step (parts : Parts) (name : String) (source : Source) : Except Fault Parts := do
  match name with
  | "id" => return { parts with id := ← fillSlot parts.id name decodeId source }
  | "name" => return { parts with name := ← fillSlot parts.name name Source.asString source }
  | "target" => return { parts with target := ← fillSlot parts.target name decodeId source }
  | _ => return { parts with traits := ← fillSlot parts.traits name TraitMap.decode source }

def decode (source : Source) : Except Fault Member := do
  let (parts, form) ← recordType.read .value Parts.step {} source
  let id ← recordType.require form "id" parts.id
  let name ← recordType.require form "name" parts.name
  let target ← recordType.require form "target" parts.target
  return { id, name, target, traits := parts.traits.getD {} }

end Member

namespace Shape

structure Parts where
  id : Option ShapeId := none
  type : Option ShapeType := none
  members : Option (List Member) := none
  traits : Option TraitMap := none

def recordType : RecordType := ⟨"struct Shape", ["id", "shape_type", "members", "traits"]⟩

def Parts.step (parts : Parts) (name : String) (source : Source) : Except Fault Parts := do
  match name with
  | "id" => return { parts with id := ← fillSlot parts.id name decodeId source }
  | "shape_type" => return { parts with type := ← fillSlot parts.type name ShapeType.decode source }
  | "members" =>
    let decode := Source.asList Member.decode
    return { parts with members := ← fillSlot parts.members name decode source }
  | _ => return { parts with traits := ← fillSlot parts.traits name TraitMap.decode source }

def decode (source : Source) : Except Fault Shape := do
  let (parts, form) ← recordType.read .value Parts.step {} source
  let id ← recordType.require form "id" parts.id
  let type ← recordType.require form "shape_type" parts.type
  return { id, type, members := parts.members.getD [], traits := parts.traits.getD {} }

end Shape

namespace Model

structure Parts where
  shapes : Option (SortedMap Shape) := none
  metadata : Option (SortedMap Json) := none

def recordType : RecordType := ⟨"struct Model", ["shapes", "metadata"]⟩

def Parts.step (parts : Parts) (name : String) (source : Source) : Except Fault Parts := do
  match name with
  | "shapes" =>
    return { parts with shapes := ← fillSlot parts.shapes name (decodeMap Shape.decode) source }
  | _ =>
    let decode := decodeMap (Source.asJson Source.nestingLimit)
    return { parts with metadata := ← fillSlot parts.metadata name decode source }

def decode (source : Source) : Except Fault Model := do
  let (parts, form) ← recordType.read .value Parts.step {} source
  return { shapes := ← recordType.require form "shapes" parts.shapes
           metadata := parts.metadata.getD {} }

end Model

end SmithyKotlin

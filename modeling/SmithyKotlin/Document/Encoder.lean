import SmithyKotlin.Document.Basic
import SmithyKotlin.Json.Printer

/-!
# Writing model documents

`Document.encode` is the JSON value of a document, with every field written out, also those that hold nothing: the
type of a definition first, then the fields of its body (`Body.encodeFields`), its traits last.  The text is left to
`Json.compact` and `Json.pretty`; that a document is read back from it is shown in `Document.read_compact`.
-/

namespace SmithyKotlin

def Reference.encode (reference : Reference) : Json := .object [("target", .string reference.target)]

def encodeReferences (references : List Reference) : Json := .array (references.map Reference.encode)

def encodeEntries {α : Type} (encode : α → Json) (list : KeyedList α) : Json :=
  .object (list.entries.map fun entry => (entry.1, encode entry.2))

def encodeTraits (traits : TraitList) : Json := .object traits.entries

def encodeOption {α : Type} (encode : α → Json) (value : Option α) : Json :=
  value.elim .null encode

def MemberDefinition.encode (member : MemberDefinition) : Json :=
  .object [("target", .string member.target), ("traits", encodeTraits member.traits)]

def Body.encodeFields : Body → List (String × Json)
  | simple _ => []
  | group _ members => [("members", encodeEntries MemberDefinition.encode members)]
  | list member => [("member", member.encode)]
  | set member => [("member", member.encode)]
  | map key value => [("key", key.encode), ("value", value.encode)]
  | service version operations resources errors =>
    [("version", encodeOption .string version), ("operations", encodeReferences operations),
     ("resources", encodeReferences resources), ("errors", encodeReferences errors)]
  | operation input output errors =>
    [("input", encodeOption Reference.encode input), ("output", encodeOption Reference.encode output),
     ("errors", encodeReferences errors)]
  | resource identifiers operations resources =>
    [("identifiers", encodeEntries Reference.encode identifiers),
     ("operations", encodeReferences operations), ("resources", encodeReferences resources)]
  | apply => []

def Definition.encode (definition : Definition) : Json :=
  .object (("type", .string definition.body.tag.name) ::
    (definition.body.encodeFields ++ [("traits", encodeTraits definition.traits)]))

def Document.encode (document : Document) : Json :=
  .object [("smithy", .string document.version),
    ("shapes", encodeEntries Definition.encode document.shapes),
    ("metadata", .object document.metadata.entries)]

end SmithyKotlin

import SmithyKotlin.Document.Basic
import SmithyKotlin.Model.Prelude

/-!
# From documents to shape graphs

`Document.toModel` makes a model of a document in three steps:

* `Progress.add` adds the definitions to the prelude one by one, and puts every `apply` aside;
* `applyTo` adds the traits of each `apply`, so one may stand before the shape it addresses;
* the metadata comes last.

A definition of a shape that the namespace of the prelude already has is left out.  Which documents are converted,
and to what, is said without these steps in `Proofs/Document/Description`.
-/

namespace SmithyKotlin

/-- An id in the text of a document, which has to be absolute. -/
def ShapeId.read (text : String) : Except CodegenError ShapeId :=
  if (⟨text⟩ : ShapeId).isAbsolute then .ok ⟨text⟩ else .error (.invalidShapeId text)

def TraitList.toMap (traits : TraitList) : TraitMap := SortedMap.ofList traits.entries

def MemberDefinition.toMember (definition : MemberDefinition) (container : ShapeId)
    (name : String) : Except CodegenError Member :=
  (ShapeId.read definition.target).map fun target =>
    Member.of container name target definition.traits.toMap

/-- The shape type of a body; a set is a list. -/
def Body.shapeType? : Body → Option ShapeType
  | simple type => some type.toShapeType
  | group type _ => some type.toShapeType
  | list _ => some .list
  | set _ => some .list
  | map _ _ => some .map
  | service _ _ _ _ => some .service
  | operation _ _ _ => some .operation
  | resource _ _ _ => some .resource
  | apply => none

/-- The members of a body with their names. -/
def Body.memberDefinitions : Body → List (String × MemberDefinition)
  | group _ members => members.entries
  | list member => [("member", member)]
  | set member => [("member", member)]
  | map key value => [("key", key), ("value", value)]
  | _ => []

/-- The traits that a body adds to those written with it: the items of a set are unique. -/
def Body.addTraits (body : Body) (traits : TraitMap) : TraitMap :=
  match body with
  | set _ => traits.insert Trait.uniqueItems Json.emptyObject
  | _ => traits

def Definition.toShape (definition : Definition) (id : ShapeId) (type : ShapeType) :
    Except CodegenError Shape := do
  let members ← definition.body.memberDefinitions.mapM fun entry => entry.2.toMember id entry.1
  return { id, type, members, traits := definition.body.addTraits definition.traits.toMap }

namespace Document

/-- What is left to do while a document is converted. -/
structure Progress where
  model : Model
  applies : List (ShapeId × TraitMap) := []

/-- Adds one definition: a shape to the model, or an `apply` to those that wait. -/
def Progress.add (progress : Progress) (entry : String × Definition) :
    Except CodegenError Progress := do
  let id ← ShapeId.read entry.1
  match entry.2.body.shapeType? with
  | none =>
    return { progress with applies := progress.applies ++ [(id, entry.2.traits.toMap)] }
  | some type =>
    if id.namespace? = some Prelude.scope && progress.model.contains id then return progress
    else return { progress with model := progress.model.insert (← entry.2.toShape id type) }

def applyTo (model : Model) (apply : ShapeId × TraitMap) : Except CodegenError Model :=
  (model.applyTraits apply.1 apply.2).mapError fun _ => .unknownApplyTarget apply.1

/-- Whether the part of a version before its first point is 1 or 2. -/
def supportsVersion (version : String) : Bool :=
  let major := Text.before '.' version
  major = "1" || major = "2"

def toModel (document : Document) : Except CodegenError Model := do
  if !supportsVersion document.version then throw (.unsupportedVersion document.version)
  let progress ← document.shapes.entries.foldlM Progress.add ⟨Prelude.model, []⟩
  let model ← progress.applies.foldlM applyTo progress.model
  return document.metadata.entries.foldl (fun model e => model.insertMetadata e.1 e.2) model

end Document

end SmithyKotlin

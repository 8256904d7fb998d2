import SmithyKotlin.Proofs.Document.Applying
import SmithyKotlin.Proofs.Document.Reading

/-!
# The model that a document describes

* `Document.Convertible`: the documents that can be converted.
* `Document.Describes`: the model that a document describes, entry by entry (`ShapeOf`, `PreludeShape`), member by
  member (`MemberOf`) and trait by trait (`applied?`, `Definition.declaredTrait?`).

The three steps of the conversion do not occur in either; that they lead there is shown in
`Proofs/Document/Conversion`.
-/

namespace SmithyKotlin

/-! ## Traits as they are written -/

theorem TraitList.get?_toMap (traits : TraitList) (trait : String) :
    traits.toMap.get? trait = traits.get? trait :=
  SortedMap.get?_ofList traits.distinct trait

/-- The value that a definition gives to a trait; the items of a set are unique. -/
def Definition.declaredTrait? (definition : Definition) (trait : String) : Option Json :=
  if definition.body.tag = .set ∧ trait = Trait.uniqueItems then some Json.emptyObject
  else definition.traits.get? trait

theorem Definition.get?_addTraits (definition : Definition) (trait : String) :
    (definition.body.addTraits definition.traits.toMap).get? trait =
      definition.declaredTrait? trait := by
  obtain ⟨body, traits⟩ := definition
  cases body with
  | set member =>
    rw [Body.addTraits, SortedMap.get?_insert, TraitList.get?_toMap, declaredTrait?]
    simp only [Body.tag, true_and, eq_comm]
  | _ =>
    rw [declaredTrait?, if_neg (by simp [Body.tag])]
    exact TraitList.get?_toMap traits trait

theorem Body.nodup_memberDefinitions (body : Body) :
    (body.memberDefinitions.map Prod.fst).Nodup := by
  cases body with
  | group type members => exact members.distinct
  | list member => exact List.nodup_singleton _
  | set member => exact List.nodup_singleton _
  | map key value => exact List.nodup_cons.mpr ⟨by simp, List.nodup_singleton _⟩
  | _ => exact List.nodup_nil

theorem ShapeType.name_inj {a b : ShapeType} : a.name = b.name ↔ a = b := by
  refine ⟨fun h => ?_, congrArg name⟩
  have hb := ofName?_name b
  rw [← h, ofName?_name a] at hb
  exact Option.some.inj hb

/-- The type of a shape is the one that its definition names, except that sets are lists. -/
theorem Body.name_shapeType {body : Body} {type : ShapeType} (h : body.shapeType? = some type) :
    type.name = if body.tag = .set then "list" else body.tag.name := by
  cases body with
  | apply => cases h
  | _ => cases h; rfl

namespace Document

/-! ## Documents that can be converted -/

/-- The versions 1 and 2, with anything behind a point. -/
def VersionSupported (version : String) : Prop :=
  ∃ major ∈ ["1", "2"], version = major ∨ ∃ rest, version = major ++ "." ++ rest

/-- The shape with the id has members with these names. -/
def HasMembers (document : Document) (id : ShapeId) (names : List String) : Prop :=
  (∃ shape ∈ Prelude.shapes, shape.id = id ∧ shape.memberNames = names) ∨
    id ∉ Prelude.ids ∧ ∃ definition, document.definition? id.text = some definition ∧
      definition.body.tag ≠ .apply ∧ definition.body.memberDefinitions.map Prod.fst = names

/-- What can be converted: a supported version, ids where ids are expected, and an `apply` only for
what is there. -/
structure Convertible (document : Document) : Prop where
  version : VersionSupported document.version
  readable : ∀ entry ∈ document.shapes.entries, Readable entry
  applies : ∀ entry ∈ document.shapes.entries, entry.2.body.tag = .apply →
    ∃ names, document.HasMembers (⟨entry.1⟩ : ShapeId).container names ∧
      ∀ name ∈ (⟨entry.1⟩ : ShapeId).member?, name ∈ names

/-! ## The model of a document -/

/-- The value that an `apply` of the document gives to a trait of a shape or of a member of it. -/
def applied? (document : Document) (id : ShapeId) (member? : Option String) (trait : String) :
    Option Json :=
  document.shapes.entries.findSome? fun entry =>
    if entry.2.body.tag = .apply ∧ (⟨entry.1⟩ : ShapeId).container = id ∧
        (⟨entry.1⟩ : ShapeId).member? = member? then entry.2.traits.get? trait
    else none

/-- A member as its definition in the shape `container` describes it. -/
structure MemberOf (document : Document) (container : ShapeId)
    (entry : String × MemberDefinition) (member : Member) : Prop where
  name : member.name = entry.1
  id : member.id = container.withMember entry.1
  target : member.target = ⟨entry.2.target⟩
  traits : ∀ trait, member.traits.get? trait =
    (document.applied? container (some entry.1) trait).or (entry.2.traits.get? trait)

/-- A shape as its definition describes it. -/
structure ShapeOf (document : Document) (key : ShapeId) (definition : Definition)
    (shape : Shape) : Prop where
  id : shape.id = key
  type : shape.type.name =
    if definition.body.tag = .set then "list" else definition.body.tag.name
  members : List.Forall₂ (document.MemberOf key) definition.body.memberDefinitions shape.members
  traits : ∀ trait, shape.traits.get? trait =
    (document.applied? key none trait).or (definition.declaredTrait? trait)

/-- A shape of the prelude, with what the document applies to it. -/
structure PreludeShape (document : Document) (shape found : Shape) : Prop where
  id : found.id = shape.id
  type : found.type = shape.type
  members : found.members = shape.members
  traits : ∀ trait, found.traits.get? trait =
    (document.applied? shape.id none trait).or (shape.traits.get? trait)

/-- The model holds the prelude, the shapes that the document defines, and the metadata. -/
structure Describes (document : Document) (model : Model) : Prop where
  ids : ∀ id, model.contains id = true ↔ id ∈ Prelude.ids ∨
    ∃ definition, document.definition? id.text = some definition ∧ definition.body.tag ≠ .apply
  prelude : ∀ shape ∈ Prelude.shapes, ∃ found, model.get? shape.id = some found ∧
    document.PreludeShape shape found
  definitions : ∀ id definition, document.definition? id.text = some definition →
    definition.body.tag ≠ .apply → id ∉ Prelude.ids →
      ∃ shape, model.get? id = some shape ∧ document.ShapeOf id definition shape
  metadata : ∀ key, model.metadata.get? key = document.metadata.get? key

end Document

end SmithyKotlin

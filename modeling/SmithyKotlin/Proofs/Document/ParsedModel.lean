import SmithyKotlin.Proofs.Document.Conversion

/-!
# Models that come from documents

* `Document.standsUnder_of_toModel`: shapes stand under their own ids with members of different names, whose ids are
  made from that of the shape (`Shape.StandsUnder`).
* `Document.wellKeyed_of_toModel`: so the ids of the shapes are the keys.
* `Document.get?_prelude_of_toModel`: the shapes of the prelude are there with their types and at least their own
  traits.

That targets are in the model is not among these; a document may name any.
-/

namespace SmithyKotlin

/-- What conversion makes sure of for a shape and the id under which it stands. -/
structure Shape.StandsUnder (shape : Shape) (id : ShapeId) : Prop where
  id_eq : shape.id = id
  absolute : id.isAbsolute = true
  names : shape.memberNames.Nodup
  members : ∀ member ∈ shape.members, member.id = id.withMember member.name

theorem Shape.StandsUnder.behind {shape : Shape} {id : ShapeId} (hstands : shape.StandsUnder id)
    (applications : List Application) : (shape.behind applications id).StandsUnder id := by
  have hnames : (shape.behind applications id).memberNames = shape.memberNames := by
    rw [memberNames, Shape.behind, List.map_map]
    rfl
  refine ⟨hstands.id_eq, hstands.absolute, hnames ▸ hstands.names, fun member hmem => ?_⟩
  obtain ⟨found, hfound, rfl⟩ := List.mem_map.mp hmem
  exact hstands.members found hfound

theorem Definition.standsUnder_shape {definition : Definition} {id : ShapeId} {type : ShapeType}
    (habsolute : id.isAbsolute = true) : (definition.shape id type).StandsUnder id := by
  refine ⟨rfl, habsolute, ?_, fun member hmem => ?_⟩
  · rw [Document.memberNames_shape]
    exact definition.body.nodup_memberDefinitions
  · obtain ⟨entry, _, rfl⟩ := List.mem_map.mp hmem
    rfl

theorem Prelude.standsUnder {id : ShapeId} {shape : Shape} (hget : model.get? id = some shape) :
    shape.StandsUnder id := by
  have hall : ∀ shape ∈ shapes, shape.id.isAbsolute = true := by decide +kernel
  obtain ⟨hmem, rfl⟩ := get?_model_iff.mp hget
  have hmembers := members_of_mem_shapes hmem
  refine ⟨rfl, hall shape hmem, ?_, ?_⟩
  · rw [Shape.memberNames, hmembers]
    exact List.nodup_nil
  · rw [hmembers]
    exact List.forall_mem_nil _

namespace Document

variable {document : Document} {model : Model} (hmodel : document.toModel = .ok model)

include hmodel

theorem standsUnder_of_toModel {id : ShapeId} {shape : Shape} (hget : model.get? id = some shape) :
    shape.StandsUnder id := by
  obtain ⟨hconvertible, rfl⟩ := toModel_eq_ok_iff_described.mp hmodel
  rw [get?_described, Option.map_eq_some_iff] at hget
  obtain ⟨found, hfound, rfl⟩ := hget
  by_cases hprelude : id ∈ Prelude.ids
  · rw [get?_readProgress_of_mem hprelude] at hfound
    exact (Prelude.standsUnder hfound).behind document.applications
  · obtain ⟨definition, type, hdefinition, _, rfl⟩ := (get?_readProgress_of_not_mem hprelude).mp hfound
    have hentry : (id.text, definition) ∈ document.shapes.entries :=
      KeyedList.get?_eq_some_iff.mp hdefinition
    have habsolute := ShapeId.isAbsolute_iff.mpr (hconvertible.readable _ hentry).key
    exact (Definition.standsUnder_shape habsolute).behind document.applications

theorem wellKeyed_of_toModel : model.WellKeyed := by
  intro id shape hget
  exact (standsUnder_of_toModel hmodel hget).id_eq

/-- The shapes of the prelude keep their types, and their traits at least in other values. -/
theorem get?_prelude_of_toModel {prelude shape : Shape} (hprelude : prelude ∈ Prelude.shapes)
    (hget : model.get? prelude.id = some shape) :
    shape.type = prelude.type ∧
      ∀ trait, prelude.traits.contains trait = true → shape.traits.contains trait = true := by
  obtain ⟨_, hdescribes⟩ := ((toModel_eq_ok_iff document).2 model).mp hmodel
  obtain ⟨found, hfound, hshape⟩ := hdescribes.prelude prelude hprelude
  obtain rfl : found = shape := Option.some.inj (hfound.symm.trans hget)
  refine ⟨hshape.type, fun trait htrait => ?_⟩
  rw [SortedMap.contains, hshape.traits, Option.isSome_or, Bool.or_eq_true]
  exact .inr htrait

/-- No structure or union of the prelude becomes a class. -/
theorem unitType_of_mem_prelude {shape : Shape} (hget : model.get? shape.id = some shape)
    (hid : shape.id ∈ Prelude.ids) (htype : shape.type = .struct ∨ shape.type = .union) :
    shape.traits.contains Trait.unitType = true := by
  have hall : ∀ shape ∈ Prelude.shapes, shape.type = .struct ∨ shape.type = .union →
      shape.traits.contains Trait.unitType = true := by
    decide +kernel
  obtain ⟨prelude, hprelude, hsame⟩ := Prelude.mem_ids_iff.mp hid
  rw [← hsame] at hget
  obtain ⟨hkept, htraits⟩ := get?_prelude_of_toModel hmodel hprelude hget
  rw [hkept] at htype
  exact htraits _ (hall prelude hprelude htype)

end Document

end SmithyKotlin

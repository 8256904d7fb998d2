import SmithyKotlin.Model.Prelude
import SmithyKotlin.Proofs.Model.WellKeyed

/-!
# The shapes of the prelude

`Prelude.ids` are the ids that the prelude has, and `Prelude.get?_model_iff` says what they find.  The ids are
distinct (`Prelude.nodup_ids`), all of them belong to the namespace of the prelude
(`Prelude.namespace?_of_mem_ids`), and none of the shapes has members (`Prelude.members_of_mem_shapes`).
-/

namespace SmithyKotlin

theorem Model.shapes_foldl_insert (model : Model) (shapes : List Shape) :
    shapes.foldl Model.insert model =
      { model with shapes :=
          model.shapes.insertAll (shapes.map fun shape => (shape.id.text, shape)) } := by
  induction shapes generalizing model with
  | nil => rfl
  | cons shape rest ih =>
    rw [List.foldl_cons, ih]
    rfl

namespace Prelude

def ids : List ShapeId := shapes.map (·.id)

theorem nodup_ids : ids.Nodup := by decide +kernel

theorem mem_ids_iff {id : ShapeId} : id ∈ ids ↔ ∃ shape ∈ shapes, shape.id = id := List.mem_map

/-- The model of the prelude holds the prelude under its ids. -/
theorem get?_model_iff {id : ShapeId} {shape : Shape} :
    model.get? id = some shape ↔ shape ∈ shapes ∧ shape.id = id := by
  have hnodup : ((shapes.map fun shape => (shape.id.text, shape)).map Prod.fst).Nodup := by
    have htexts := nodup_ids.map fun a b h => ShapeId.text_inj.mp h
    rw [ids, List.map_map] at htexts
    rw [List.map_map]
    exact htexts
  rw [model, Model.shapes_foldl_insert, Model.get?]
  change SortedMap.get? (SortedMap.insertAll SortedMap.empty _) _ = _ ↔ _
  rw [SortedMap.get?_insertAll _ hnodup, SortedMap.get?_empty, Option.or_none,
    findEntry_eq_some_iff hnodup, List.mem_map]
  constructor
  · intro h
    obtain ⟨found, hmem, h⟩ := h
    obtain ⟨htext, rfl⟩ := Prod.mk.inj h
    exact ⟨hmem, ShapeId.text_inj.mp htext⟩
  · intro h
    obtain ⟨hmem, rfl⟩ := h
    exact ⟨shape, hmem, rfl⟩

theorem wellKeyed_model : model.WellKeyed := by
  intro id shape h
  exact (get?_model_iff.mp h).2

theorem contains_model_iff {id : ShapeId} : model.contains id = true ↔ id ∈ ids := by
  rw [Model.contains, Option.isSome_iff_exists, mem_ids_iff]
  simp only [get?_model_iff]

theorem namespace?_of_mem_ids {id : ShapeId} (h : id ∈ ids) : id.namespace? = some scope := by
  have hall : ∀ id ∈ ids, id.namespace? = some scope := by decide +kernel
  exact hall id h

theorem members_of_mem_shapes {shape : Shape} (h : shape ∈ shapes) : shape.members = [] := by
  have hall : ∀ shape ∈ shapes, shape.members.isEmpty = true := by decide +kernel
  exact List.isEmpty_iff.mp (hall shape h)

end Prelude

end SmithyKotlin

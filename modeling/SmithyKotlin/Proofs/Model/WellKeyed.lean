import SmithyKotlin.Model.Basic
import SmithyKotlin.Proofs.Collections.SortedMap

/-!
# Shapes under their own ids

A model is `Model.WellKeyed` when each of its shapes is found under the id that it carries.  Then the ids of its
shapes are its keys, so no two of its shapes have the same id (`Model.WellKeyed.nodup_ids`).  Insertion keeps this
(`Model.WellKeyed.insert`); models that are read as JSON need not have it.
-/

namespace SmithyKotlin.Model

/-- Every shape is stored under its own id. -/
def WellKeyed (model : Model) : Prop := ∀ id shape, model.get? id = some shape → shape.id = id

theorem wellKeyed_empty : ({} : Model).WellKeyed := by
  intro id shape h
  cases h

/-- Insertion keeps every shape under its own id. -/
theorem WellKeyed.insert {model : Model} (hkeyed : model.WellKeyed) (shape : Shape) :
    (model.insert shape).WellKeyed := by
  intro id found h
  rw [get?_insert] at h
  by_cases hid : shape.id = id
  · rw [if_pos hid] at h
    cases h
    exact hid
  · rw [if_neg hid] at h
    exact hkeyed id found h

/-- The model with another shape under the id, which need not be the id of the shape. -/
def replace (model : Model) (id : ShapeId) (shape : Shape) : Model :=
  { model with shapes := model.shapes.insert id.text shape }

theorem get?_replace (model : Model) (id : ShapeId) (shape : Shape) (query : ShapeId) :
    (model.replace id shape).get? query = if id = query then some shape else model.get? query := by
  simp only [get?, replace, SortedMap.get?_insert, ShapeId.text_inj]

theorem WellKeyed.mem_values_iff {model : Model} (hkeyed : model.WellKeyed) {shape : Shape} :
    shape ∈ model.shapes.values ↔ model.get? shape.id = some shape := by
  rw [SortedMap.values, List.mem_map]
  constructor
  · intro h
    obtain ⟨⟨key, found⟩, hmem, rfl⟩ := h
    have hget : model.get? ⟨key⟩ = some found := SortedMap.get?_eq_some_iff.mpr hmem
    rw [hkeyed ⟨key⟩ found hget]
    exact hget
  · intro h
    exact ⟨_, SortedMap.get?_eq_some_iff.mp h, rfl⟩

/-- The ids of the shapes are the keys of the model, in the order of the keys. -/
theorem WellKeyed.map_id_values {model : Model} (hkeyed : model.WellKeyed) :
    model.shapes.values.map (fun shape => shape.id.text) = model.shapes.keys := by
  simp only [SortedMap.values, SortedMap.keys, List.map_map]
  refine List.map_congr_left fun entry hmem => ?_
  have hget : model.get? ⟨entry.1⟩ = some entry.2 := SortedMap.get?_eq_some_iff.mpr hmem
  exact congrArg ShapeId.text (hkeyed _ _ hget)

theorem WellKeyed.nodup_ids {model : Model} (hkeyed : model.WellKeyed) :
    (model.shapes.values.map (·.id)).Nodup := by
  have hkeys : (model.shapes.values.map fun shape => shape.id.text).Nodup := by
    rw [hkeyed.map_id_values]
    exact model.shapes.ascending.nodup_keys
  refine List.Nodup.of_map ShapeId.text ?_
  rw [List.map_map]
  exact hkeys

end SmithyKotlin.Model

import SmithyKotlin.Model.Prelude

/-!
# Summaries

`Model.summary` counts what a model holds besides the prelude: its services, its event streams and how many shapes
it has of each type.  It is what the command `parse` prints.
-/

namespace SmithyKotlin

structure Summary where
  services : List ShapeId
  /-- The types that occur, in the order of `ShapeType.all`, with the number of their shapes. -/
  counts : List (ShapeType × Nat)
  eventStreams : List ShapeId

namespace Model

/-- The shapes outside the namespace of the prelude. -/
def ownShapes (model : Model) : List Shape :=
  model.shapes.values.filter (·.id.namespace? ≠ some Prelude.scope)

def summary (model : Model) : Summary :=
  let shapes := model.ownShapes
  let counts := ShapeType.all.map fun type => (type, shapes.countP (·.type = type))
  { services := (shapes.filter (·.type = .service)).map (·.id)
    counts := counts.filter (0 < ·.2)
    eventStreams := (shapes.filter (·.isEventStream)).map (·.id) }

end Model

namespace Summary

def count (summary : Summary) (type : ShapeType) : Nat := (summary.counts.lookup type).getD 0

def total (summary : Summary) : Nat := summary.counts.foldl (fun total count => total + count.2) 0

end Summary

end SmithyKotlin

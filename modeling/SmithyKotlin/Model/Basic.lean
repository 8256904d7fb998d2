import SmithyKotlin.Error
import SmithyKotlin.Model.Traits

/-!
# Shape graphs

A `Model` holds shapes under their ids.  A `Shape` names its members in the order of their declaration, and a
`Member` names the shape it targets by its id, which need not be in the model: `Model.find` says so in an error
(`Model.find_eq_error_iff`).

`insert`, `insertMetadata` and `applyTraits` are all that changes a model; what any run of these leaves is said in
`Proofs/Model/Changes`.
-/

namespace SmithyKotlin

structure Member where
  id : ShapeId
  name : String
  target : ShapeId
  traits : TraitMap := {}

namespace Member

/-- A member of the shape `container`. -/
def of (container : ShapeId) (name : String) (target : ShapeId) (traits : TraitMap := {}) : Member :=
  ⟨container.withMember name, name, target, traits⟩

def isRequired (member : Member) : Bool := member.traits.contains Trait.required

def isSensitive (member : Member) : Bool := member.traits.contains Trait.sensitive

end Member

/-- A list has the member `member`, a map the members `key` and `value`. -/
structure Shape where
  id : ShapeId
  type : ShapeType
  members : List Member := []
  traits : TraitMap := {}

namespace Shape

/-- The first member with the name. -/
def member? (shape : Shape) (name : String) : Option Member :=
  shape.members.find? (·.name == name)

def isStreaming (shape : Shape) : Bool := shape.traits.contains Trait.streaming

def isStreamingBlob (shape : Shape) : Bool := shape.type = .blob && shape.isStreaming

def isError (shape : Shape) : Bool := shape.type = .struct && shape.traits.contains Trait.error

def isEventStream (shape : Shape) : Bool := shape.type = .union && shape.isStreaming

/-- Gives the first member with the name other traits; `none` when there is no such member. -/
def mapMember? (shape : Shape) (name : String) (f : TraitMap → TraitMap) : Option Shape :=
  (update shape.members).map fun members => { shape with members }
where
  update : List Member → Option (List Member)
    | [] => none
    | member :: rest =>
      if member.name = name then some ({ member with traits := f member.traits } :: rest)
      else (update rest).map (member :: ·)

end Shape

structure Model where
  shapes : SortedMap Shape := {}
  metadata : SortedMap Json := {}

namespace Model

def insert (model : Model) (shape : Shape) : Model :=
  { model with shapes := model.shapes.insert shape.id.text shape }

def insertMetadata (model : Model) (key : String) (value : Json) : Model :=
  { model with metadata := model.metadata.insert key value }

def get? (model : Model) (id : ShapeId) : Option Shape := model.shapes.get? id.text

def contains (model : Model) (id : ShapeId) : Bool := (model.get? id).isSome

/-- The shape with the id, which has to be in the model. -/
def find (model : Model) (id : ShapeId) : Except CodegenError Shape :=
  (model.get? id).elim (.error (.unresolvedShape id)) .ok

/-- Adds traits to a shape, or to the member that the id names. -/
def applyTraits (model : Model) (id : ShapeId) (traits : TraitMap) : Except CodegenError Model :=
  let applied := (model.get? id.container).bind fun shape =>
    match id.member? with
    | none => some { shape with traits := shape.traits.merge traits }
    | some member => shape.mapMember? member (·.merge traits)
  match applied with
  | some shape =>
    .ok { model with shapes := model.shapes.insert id.container.text shape }
  | none => .error (.unresolvedShape id)

def shapesOfType (model : Model) (type : ShapeType) : List Shape :=
  model.shapes.values.filter (·.type = type)

theorem get?_insert (model : Model) (shape : Shape) (id : ShapeId) :
    (model.insert shape).get? id = if shape.id = id then some shape else model.get? id := by
  simp only [get?, insert, SortedMap.get?_insert, ShapeId.text_inj]

theorem find_eq_ok_iff {model : Model} {id : ShapeId} {shape : Shape} :
    model.find id = .ok shape ↔ model.get? id = some shape := by
  cases h : model.get? id <;> simp [find, h]

theorem find_eq_error_iff {model : Model} {id : ShapeId} {error : CodegenError} :
    model.find id = .error error ↔ model.get? id = none ∧ error = .unresolvedShape id := by
  cases h : model.get? id <;> simp [find, h, eq_comm]

end Model

end SmithyKotlin

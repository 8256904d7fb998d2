import SmithyKotlin.Model.Prelude
import SmithyKotlin.Rendering.SourceFile

/-!
# Rendering a model

* `Rendering.targets`: the unions and structures of a model that get a file.
* `Rendering.merge`: the results under the ids of their shapes, so that their order does not matter.  Of several
  files with one path the file of the smallest id stays, and the others fail (`rejectCollisions`).
* `Rendering.ofModel`: both put together with the Kotlin symbols.

Every shape is rendered by itself, so shapes may be rendered at once by several workers.  That is left out: only the
order of their results could tell, and it does not count (`Proofs/Rendering/Arrival`).
-/

namespace SmithyKotlin

/-- The files of a model, and the shapes that failed. -/
structure Rendering where
  files : SortedMap SourceFile := {}
  failures : SortedMap CodegenError := {}

namespace Rendering

/-! ## Collecting -/

/-- Files the result of one shape with the files or the failures. -/
def add (rendering : Rendering) (result : ShapeId × Except CodegenError SourceFile) : Rendering :=
  match result.2 with
  | .ok file => { rendering with files := rendering.files.insert result.1.text file }
  | .error error => { rendering with failures := rendering.failures.insert result.1.text error }

def collect (results : List (ShapeId × Except CodegenError SourceFile)) : Rendering :=
  results.foldl add {}

/-- The id that a path belongs to: the smallest one with a file of that path. -/
def owner? (rendering : Rendering) (file : SourceFile) : Option String :=
  (rendering.files.entries.find? fun entry => Path.same entry.2.path file.path).map (·.1)

/-- The failure of a file whose path belongs to another shape. -/
def collision? (rendering : Rendering) (entry : String × SourceFile) :
    Option (String × CodegenError) :=
  match rendering.owner? entry.2 with
  | some owner =>
    if owner = entry.1 then none
    else some (entry.1, .samePath ⟨entry.1⟩ ⟨owner⟩ entry.2.path)
  | none => none

/-- Leaves every path to its owner. -/
def rejectCollisions (rendering : Rendering) : Rendering :=
  let collisions := rendering.files.entries.filterMap rendering.collision?
  { files := rendering.files.filterKeys fun key => !(collisions.any (·.1 == key))
    failures := rendering.failures.insertAll collisions }

/-- The rendering of all results, or the failure of the smallest id unless failures are skipped. -/
def merge (continueOnError : Bool)
    (results : List (ShapeId × Except CodegenError SourceFile)) : Except CodegenError Rendering :=
  let rendering := (collect results).rejectCollisions
  match rendering.failures.entries with
  | (_, error) :: _ => if continueOnError then .ok rendering else .error error
  | [] => .ok rendering

/-! ## Rendering -/

/-- Whether a shape gets a file: a union or structure that is not part of the prelude and, where the
settings name a service with a namespace, belongs to that namespace. -/
def isTarget (settings : Settings) (shape : Shape) : Bool :=
  (shape.type = .union || shape.type = .struct) && shape.id.namespace? ≠ some Prelude.scope
    && !shape.traits.contains Trait.unitType
    && (settings.service.bind ShapeId.namespace?).all fun scope => shape.id.namespace? = some scope

def targets (model : Model) (settings : Settings) : List Shape :=
  model.shapes.values.filter (isTarget settings)

def renderAll (model : Model) (symbols : SymbolProvider) (settings : Settings) :
    Except CodegenError Rendering :=
  merge settings.continueOnError ((targets model settings).map fun shape =>
    (shape.id, SourceFile.render model symbols settings shape))

/-- Renders a model with Kotlin's own types. -/
def ofModel (model : Model) (settings : Settings) : Except CodegenError Rendering :=
  renderAll model (SymbolProvider.kotlin settings) settings

/-! ## Results -/

def isComplete (rendering : Rendering) : Bool := rendering.failures.isEmpty

/-- The dependencies of all files, each once. -/
def dependencies (rendering : Rendering) : List Dependency :=
  rendering.files.values.foldl (fun all file => Dependency.insertAll all file.dependencies) []

end Rendering

end SmithyKotlin

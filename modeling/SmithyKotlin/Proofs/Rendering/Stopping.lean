import SmithyKotlin.Proofs.Rendering.Partition
import SmithyKotlin.Proofs.Symbol.Locality

/-!
# Stopping at the first failure

A run either skips the shapes that fail or stops at the first of them.  Both see the same failures, those of shapes
by themselves and those of paths that belong to other shapes, in the one order of the ids.

* `Rendering.FirstFailure`: the failure of the smallest id.
* `Rendering.stopsAtFirst_merge`: so what the stopping run does is known from what the skipping run leaves.
* `Rendering.renderAll_stopsAtFirst` says this of the same model and settings but for `continueOnError`.
-/

namespace SmithyKotlin.Rendering

variable {shapes : List Shape} {outcome : Shape → Except CodegenError SourceFile}

/-- A shape fails by itself, or its path belongs to another shape. -/
def FailsWith (shapes : List Shape) (outcome : Shape → Except CodegenError SourceFile)
    (shape : Shape) (error : CodegenError) : Prop :=
  outcome shape = .error error ∨
    ∃ file keeper keeps, outcome shape = .ok file ∧ Keeper shapes outcome file.path keeper keeps ∧
      keeper ≠ shape ∧ error = .samePath shape.id keeper.id file.path

/-- The failure of the smallest id, whatever the cause. -/
structure FirstFailure (shapes : List Shape) (outcome : Shape → Except CodegenError SourceFile)
    (shape : Shape) (error : CodegenError) : Prop where
  mem : shape ∈ shapes
  fails : FailsWith shapes outcome shape error
  first : ∀ other ∈ shapes, ∀ found, FailsWith shapes outcome other found →
    shape.id.text ≤ other.id.text

/-- What a run that stops does where a run that skips leaves the rendering: it gives the same where nothing
failed, and otherwise it fails as the smallest failed id did. -/
inductive StopsAtFirst (shapes : List Shape) (outcome : Shape → Except CodegenError SourceFile)
    (rendering : Rendering) (stopped : Except CodegenError Rendering) : Prop where
  | complete (hnone : rendering.isComplete = true) (hstopped : stopped = .ok rendering)
  | first (shape : Shape) (error : CodegenError) (hfirst : FirstFailure shapes outcome shape error)
      (hfailure : rendering.failures.get? shape.id.text = some error)
      (hsmallest : ∀ other found, rendering.failures.get? other = some found →
        shape.id.text ≤ other)
      (hstopped : stopped = .error error)

/-- Without skipping, the first entry among the failures decides. -/
theorem merge_false_of_failure {results : List Result} {key : String} {error : CodegenError}
    {rest : List (String × CodegenError)}
    (h : (collect results).rejectCollisions.failures.entries = (key, error) :: rest) :
    merge false results = .error error := by
  unfold merge
  dsimp only
  rw [h]
  rfl

/-- The first entry among the failures is that of the first shape that fails. -/
theorem firstFailure_of_entries (hnodup : (shapes.map (·.id)).Nodup) {key : String}
    {error : CodegenError} {rest : List (String × CodegenError)}
    (h : (ofOutcomes shapes outcome).failures.entries = (key, error) :: rest) :
    ∃ shape, shape.id.text = key ∧ FirstFailure shapes outcome shape error := by
  obtain ⟨hget, hmin⟩ := SortedMap.smallest_of_entries_cons h
  obtain ⟨shape, hmem, hkey, hfails⟩ := (failures_get?_ofOutcomes hnodup).mp hget
  refine ⟨shape, hkey, hmem, hfails, fun other hother found hfound => ?_⟩
  rw [hkey]
  exact hmin _ found ((failures_get?_ofOutcomes hnodup).mpr ⟨other, hother, rfl, hfound⟩)

/-- Merging without skipping stops at the first of the failures that merging with it leaves. -/
theorem stopsAtFirst_merge (hnodup : (shapes.map (·.id)).Nodup) :
    StopsAtFirst shapes outcome (ofOutcomes shapes outcome)
      (merge false (shapes.map fun shape => (shape.id, outcome shape))) := by
  cases hfailures : (ofOutcomes shapes outcome).failures.entries with
  | nil =>
    refine .complete ?_ (merge_false_eq_ok_iff.mpr ⟨rfl, hfailures⟩)
    rw [isComplete, SortedMap.isEmpty, hfailures]
    rfl
  | cons entry rest =>
    obtain ⟨key, error⟩ := entry
    obtain ⟨shape, rfl, hfirst⟩ := firstFailure_of_entries hnodup hfailures
    obtain ⟨hget, hmin⟩ := SortedMap.smallest_of_entries_cons hfailures
    exact .first shape error hfirst hget hmin (merge_false_of_failure hfailures)

/-- Single files do not show whether failures are skipped. -/
theorem renderAll_stopping (model : Model) (symbols : SymbolProvider) (settings : Settings) :
    renderAll model symbols { settings with continueOnError := false } =
      merge false ((targets model settings).map fun shape =>
        (shape.id, SourceFile.render model symbols settings shape)) := rfl

/-- Of two settings that differ in the skipping of failures only, one skips them for every provider, and the
other one stops at the first failure that is skipped. -/
theorem renderAll_stopsAtFirst (model : Model) (skipping stopping : Settings)
    (hkeyed : model.WellKeyed) (hskips : skipping.continueOnError = true)
    (hdiffer : stopping = { skipping with continueOnError := false }) :
    (∀ symbols, ∃ rendering, renderAll model symbols skipping = .ok rendering ∧
      StopsAtFirst (targets model skipping) (SourceFile.render model symbols skipping) rendering
        (renderAll model symbols stopping)) ∧
    ∃ rendering, ofModel model skipping = .ok rendering ∧
      StopsAtFirst (targets model skipping)
        (SourceFile.render model (SymbolProvider.kotlin skipping) skipping) rendering
        (ofModel model stopping) := by
  have hevery : ∀ symbols, ∃ rendering, renderAll model symbols skipping = .ok rendering ∧
      StopsAtFirst (targets model skipping) (SourceFile.render model symbols skipping) rendering
        (renderAll model symbols stopping) := by
    intro symbols
    refine ⟨ofOutcomes (targets model skipping) (SourceFile.render model symbols skipping), ?_, ?_⟩
    · rw [renderAll, hskips, merge_true, ofOutcomes]
    · rw [hdiffer, renderAll_stopping]
      exact stopsAtFirst_merge (nodup_ids_targets hkeyed skipping)
  have hkotlin : SymbolProvider.kotlin stopping = .kotlin skipping := by
    rw [hdiffer]
    exact SymbolProvider.kotlin_congr rfl rfl
  refine ⟨hevery, ?_⟩
  rw [ofModel, ofModel, hkotlin]
  exact hevery (.kotlin skipping)

/-- The failures of a union by itself and of a lost path, of which that of the union comes first. -/
theorem renderAll_stopsAtFirst_readings :
    readings.WellKeyed ∧ skipping.continueOnError = true ∧
      (ofModel readings skipping).toOption.map (·.failures.keys) =
        some ["com.a#Event", "com.b#Reading"] ∧
      ∃ rendering, ofModel readings skipping = .ok rendering ∧
        StopsAtFirst (targets readings skipping)
          (SourceFile.render readings (SymbolProvider.kotlin skipping) skipping) rendering
          (ofModel readings { skipping with continueOnError := false }) := by
  have hkeyed : readings.WellKeyed := ((Model.wellKeyed_empty.insert _).insert _).insert _
  exact ⟨hkeyed, rfl, by decide +kernel,
    (renderAll_stopsAtFirst readings skipping _ hkeyed rfl rfl).2⟩

end SmithyKotlin.Rendering

import SmithyKotlin.Proofs.Model.WellKeyed
import SmithyKotlin.Proofs.Rendering.Merge

/-!
# Rendering with failures skipped

* `Rendering.Partitions`: every target is among the files or among the failures, never in both; the files have
  different paths; and of the targets that rendered to one path the smallest id has it, while the others fail and
  say who has it (`Rendering.Keeper`).
* `Rendering.partitions_ofOutcomes`: so it is for any outcomes of the targets.
* `Rendering.renderAll_partitions`: so skipping failures loses no shape.

What is lost when the first failure stops the run is left to `Proofs/Rendering/Stopping`.
-/

namespace SmithyKotlin.Rendering

/-- The target with the smallest id among those that render to a file of the path. -/
structure Keeper (shapes : List Shape) (outcome : Shape → Except CodegenError SourceFile)
    (path : String) (shape : Shape) (file : SourceFile) : Prop where
  mem : shape ∈ shapes
  rendered : outcome shape = .ok file
  same : Path.same file.path path = true
  smallest : ∀ other ∈ shapes, ∀ found, outcome other = .ok found →
    Path.same found.path path = true → shape.id.text ≤ other.id.text

/-- The files and failures of a rendering share the shapes among them, given what becomes of each shape
by itself. -/
structure Partitions (rendering : Rendering) (shapes : List Shape)
    (outcome : Shape → Except CodegenError SourceFile) : Prop where
  covers : ∀ key, key ∈ rendering.files.keys ∨ key ∈ rendering.failures.keys ↔
    ∃ shape ∈ shapes, shape.id.text = key
  disjoint : ∀ key ∈ rendering.files.keys, key ∉ rendering.failures.keys
  paths : ∀ a b fileA fileB, rendering.files.get? a = some fileA →
    rendering.files.get? b = some fileB → Path.same fileA.path fileB.path = true → a = b
  failed : ∀ shape ∈ shapes, ∀ error, outcome shape = .error error →
    rendering.failures.get? shape.id.text = some error
  kept : ∀ path shape file, Keeper shapes outcome path shape file →
    rendering.files.get? shape.id.text = some file
  /-- Every path has a keeper, and every other shape that rendered to it names itself and the keeper. -/
  rejected : ∀ shape ∈ shapes, ∀ file, outcome shape = .ok file →
    ∃ keeper keeps, Keeper shapes outcome file.path keeper keeps ∧
      (shape ≠ keeper → ∃ error, rendering.failures.get? shape.id.text = some error ∧
        error.kind = .invariantViolation ∧ error.shape? = some shape.id ∧
        keeper.id.text.toList <:+: error.message.toList)

/-- The results of the shapes, merged with failures skipped. -/
def ofOutcomes (shapes : List Shape) (outcome : Shape → Except CodegenError SourceFile) :
    Rendering :=
  (collect (shapes.map fun shape => (shape.id, outcome shape))).rejectCollisions

variable {shapes : List Shape} {outcome : Shape → Except CodegenError SourceFile}

/-! ## Keepers -/

theorem mem_results_iff {id : ShapeId} {result : Except CodegenError SourceFile} :
    (id, result) ∈ shapes.map (fun shape => (shape.id, outcome shape)) ↔
      ∃ shape ∈ shapes, shape.id = id ∧ outcome shape = result := by
  simp only [List.mem_map, Prod.mk.injEq]

theorem nodup_results (hnodup : (shapes.map (·.id)).Nodup) :
    ((shapes.map fun shape => (shape.id, outcome shape)).map Prod.fst).Nodup := by
  rw [List.map_map]
  exact hnodup

theorem keepsPath_iff {id : ShapeId} {path : String} :
    KeepsPath (shapes.map fun shape => (shape.id, outcome shape)) id path ↔
      ∃ shape file, shape.id = id ∧ Keeper shapes outcome path shape file := by
  constructor
  · intro h
    obtain ⟨file, hfile, hsame, hmin⟩ := h
    obtain ⟨shape, hmem, rfl, hrendered⟩ := mem_results_iff.mp hfile
    refine ⟨shape, file, rfl, hmem, hrendered, hsame, fun other hother found hfound hpath => ?_⟩
    exact hmin other.id found (mem_results_iff.mpr ⟨other, hother, rfl, hfound⟩) hpath
  · intro h
    obtain ⟨shape, file, rfl, hkeeper⟩ := h
    have hresult := mem_results_iff.mpr ⟨shape, hkeeper.mem, rfl, hkeeper.rendered⟩
    refine ⟨file, hresult, hkeeper.same, fun id found hother hpath => ?_⟩
    obtain ⟨other, hmem, rfl, hfound⟩ := mem_results_iff.mp hother
    exact hkeeper.smallest other hmem found hfound hpath

theorem Keeper.of_same {a b : String} {shape : Shape} {file : SourceFile}
    (hkeeper : Keeper shapes outcome a shape file) (hsame : Path.same a b = true) :
    Keeper shapes outcome b shape file := by
  refine ⟨hkeeper.mem, hkeeper.rendered, same_trans hkeeper.same hsame, ?_⟩
  intro other hmem found hfound hpath
  exact hkeeper.smallest other hmem found hfound (same_trans hpath (same_comm hsame))

theorem Keeper.unique (hnodup : (shapes.map (·.id)).Nodup) {path : String} {a b : Shape}
    {fileA fileB : SourceFile} (ha : Keeper shapes outcome path a fileA)
    (hb : Keeper shapes outcome path b fileB) : a = b := by
  have hab := ha.smallest b hb.mem fileB hb.rendered hb.same
  have hba := hb.smallest a ha.mem fileA ha.rendered ha.same
  have hid := ShapeId.text_inj.mp (String.le_antisymm hab hba)
  exact List.inj_on_of_nodup_map hnodup ha.mem hb.mem hid

/-- A path that some shape renders to has a keeper. -/
theorem exists_keeper (hnodup : (shapes.map (·.id)).Nodup) {shape : Shape} {file : SourceFile}
    (hmem : shape ∈ shapes) (hrendered : outcome shape = .ok file) :
    ∃ keeper keeps, Keeper shapes outcome file.path keeper keeps := by
  have hresult := mem_results_iff.mpr ⟨shape, hmem, rfl, hrendered⟩
  obtain ⟨id, hkeeps⟩ := exists_keepsPath (nodup_results hnodup) hresult
  obtain ⟨keeper, keeps, _, hkeeper⟩ := keepsPath_iff.mp hkeeps
  exact ⟨keeper, keeps, hkeeper⟩

/-! ## Look-ups -/

theorem files_get?_ofOutcomes (hnodup : (shapes.map (·.id)).Nodup) {key : String}
    {file : SourceFile} :
    (ofOutcomes shapes outcome).files.get? key = some file ↔
      ∃ shape, shape.id.text = key ∧ Keeper shapes outcome file.path shape file := by
  change (ofOutcomes shapes outcome).files.get? (⟨key⟩ : ShapeId).text = some file ↔ _
  rw [ofOutcomes, files_get?_merged (nodup_results hnodup), keepsPath_iff, mem_results_iff]
  constructor
  · intro h
    obtain ⟨⟨shape, hmem, hid, hrendered⟩, other, found, hother, hkeeper⟩ := h
    obtain rfl : other = shape :=
      List.inj_on_of_nodup_map hnodup hkeeper.mem hmem (hother.trans hid.symm)
    obtain rfl : found = file := by
      have hok := hkeeper.rendered.symm.trans hrendered
      cases hok
      rfl
    exact ⟨other, congrArg ShapeId.text hid, hkeeper⟩
  · intro h
    obtain ⟨shape, rfl, hkeeper⟩ := h
    exact ⟨⟨shape, hkeeper.mem, rfl, hkeeper.rendered⟩, shape, file, rfl, hkeeper⟩

theorem failures_get?_ofOutcomes (hnodup : (shapes.map (·.id)).Nodup) {key : String}
    {error : CodegenError} :
    (ofOutcomes shapes outcome).failures.get? key = some error ↔
      ∃ shape ∈ shapes, shape.id.text = key ∧ (outcome shape = .error error ∨
        ∃ file keeper keeps, outcome shape = .ok file ∧
          Keeper shapes outcome file.path keeper keeps ∧ keeper ≠ shape ∧
          error = .samePath shape.id keeper.id file.path) := by
  change (ofOutcomes shapes outcome).failures.get? (⟨key⟩ : ShapeId).text = some error ↔ _
  rw [ofOutcomes, failures_get?_merged (nodup_results hnodup)]
  simp only [keepsPath_iff, mem_results_iff]
  constructor
  · intro h
    rcases h with ⟨shape, hmem, hid, herror⟩ | ⟨file, _, ⟨shape, hmem, hid, hok⟩, hkeeps, hne, rfl⟩
    · exact ⟨shape, hmem, congrArg ShapeId.text hid, .inl herror⟩
    · obtain ⟨keeper, keeps, rfl, hkeeper⟩ := hkeeps
      refine ⟨shape, hmem, congrArg ShapeId.text hid,
        .inr ⟨file, keeper, keeps, hok, hkeeper, ?_, ?_⟩⟩
      · rintro rfl
        exact hne hid
      · rw [hid]
  · intro h
    rcases h with ⟨shape, hmem, rfl, herror | ⟨file, keeper, keeps, hok, hkeeper, hne, rfl⟩⟩
    · exact .inl ⟨shape, hmem, rfl, herror⟩
    · refine .inr ⟨file, keeper.id, ⟨shape, hmem, rfl, hok⟩, ⟨keeper, keeps, rfl, hkeeper⟩, ?_, rfl⟩
      intro hid
      exact hne (List.inj_on_of_nodup_map hnodup hkeeper.mem hmem hid)

/-- A rejected file names the shape that has its path. -/
theorem owner_infix_samePath (id owner : ShapeId) (path : String) :
    owner.text.toList <:+: (CodegenError.samePath id owner path).message.toList := by
  have hmessage : (CodegenError.samePath id owner path).message =
      "Invariant violated for shape " ++ id.text ++ ": " ++
        (owner.text ++ " and " ++ id.text ++ " both generate " ++ path) := rfl
  have hdetail : owner.text ++ " and " ++ id.text ++ " both generate " ++ path =
      owner.text ++ (" and " ++ id.text ++ " both generate " ++ path) := by
    simp only [String.append_assoc]
  rw [hmessage, hdetail, ← String.append_assoc, String.toList_append, String.toList_append]
  exact List.infix_append _ _ _

/-! ## The partition -/

theorem mem_keys_ofOutcomes (hnodup : (shapes.map (·.id)).Nodup) {key : String} :
    key ∈ (ofOutcomes shapes outcome).files.keys ∨ key ∈ (ofOutcomes shapes outcome).failures.keys ↔
      ∃ shape ∈ shapes, shape.id.text = key := by
  rw [SortedMap.mem_keys_iff, SortedMap.mem_keys_iff]
  constructor
  · intro h
    rcases h with ⟨file, h⟩ | ⟨error, h⟩
    · obtain ⟨shape, hkey, hkeeper⟩ := (files_get?_ofOutcomes hnodup).mp h
      exact ⟨shape, hkeeper.mem, hkey⟩
    · obtain ⟨shape, hmem, hkey, _⟩ := (failures_get?_ofOutcomes hnodup).mp h
      exact ⟨shape, hmem, hkey⟩
  · intro h
    obtain ⟨shape, hmem, hkey⟩ := h
    cases houtcome : outcome shape with
    | error error =>
      exact .inr ⟨error, (failures_get?_ofOutcomes hnodup).mpr ⟨shape, hmem, hkey, .inl houtcome⟩⟩
    | ok file =>
      obtain ⟨keeper, keeps, hkeeper⟩ := exists_keeper hnodup hmem houtcome
      by_cases heq : keeper = shape
      · subst heq
        obtain rfl : keeps = file := by
          have hok := hkeeper.rendered.symm.trans houtcome
          cases hok
          rfl
        exact .inl ⟨keeps, (files_get?_ofOutcomes hnodup).mpr ⟨keeper, hkey, hkeeper⟩⟩
      · refine .inr ⟨.samePath shape.id keeper.id file.path, ?_⟩
        exact (failures_get?_ofOutcomes hnodup).mpr
          ⟨shape, hmem, hkey, .inr ⟨file, keeper, keeps, houtcome, hkeeper, heq, rfl⟩⟩

theorem disjoint_keys_ofOutcomes (hnodup : (shapes.map (·.id)).Nodup) {key : String}
    (hfile : key ∈ (ofOutcomes shapes outcome).files.keys) :
    key ∉ (ofOutcomes shapes outcome).failures.keys := by
  intro hfailure
  obtain ⟨file, h⟩ := SortedMap.mem_keys_iff.mp hfile
  obtain ⟨error, h'⟩ := SortedMap.mem_keys_iff.mp hfailure
  obtain ⟨shape, hkey, hkeeper⟩ := (files_get?_ofOutcomes hnodup).mp h
  obtain ⟨other, hmem, hother, hcause⟩ := (failures_get?_ofOutcomes hnodup).mp h'
  obtain rfl : other = shape :=
    List.inj_on_of_nodup_map hnodup hmem hkeeper.mem (ShapeId.text_inj.mp (hother.trans hkey.symm))
  rcases hcause with herror | ⟨found, keeper, keeps, hok, hkeeps, hne, _⟩
  · rw [hkeeper.rendered] at herror
    cases herror
  · rw [hkeeper.rendered] at hok
    cases hok
    exact hne (hkeeps.unique hnodup hkeeper)

/-- Merging with failures skipped leaves a partition of the shapes. -/
theorem partitions_ofOutcomes (hnodup : (shapes.map (·.id)).Nodup) :
    (ofOutcomes shapes outcome).Partitions shapes outcome where
  covers _ := mem_keys_ofOutcomes hnodup
  disjoint _ := disjoint_keys_ofOutcomes hnodup
  paths := by
    intro a b fileA fileB ha hb hsame
    obtain ⟨shapeA, rfl, hkeeperA⟩ := (files_get?_ofOutcomes hnodup).mp ha
    obtain ⟨shapeB, rfl, hkeeperB⟩ := (files_get?_ofOutcomes hnodup).mp hb
    rw [(hkeeperA.of_same hsame).unique hnodup hkeeperB]
  failed := by
    intro shape hmem error herror
    exact (failures_get?_ofOutcomes hnodup).mpr ⟨shape, hmem, rfl, .inl herror⟩
  kept := by
    intro path shape file hkeeper
    exact (files_get?_ofOutcomes hnodup).mpr ⟨shape, rfl, hkeeper.of_same (same_comm hkeeper.same)⟩
  rejected := by
    intro shape hmem file hrendered
    obtain ⟨keeper, keeps, hkeeper⟩ := exists_keeper hnodup hmem hrendered
    refine ⟨keeper, keeps, hkeeper, fun hne => ⟨.samePath shape.id keeper.id file.path, ?_⟩⟩
    have hcause := (failures_get?_ofOutcomes hnodup).mpr
      ⟨shape, hmem, rfl, .inr ⟨file, keeper, keeps, hrendered, hkeeper, hne.symm, rfl⟩⟩
    exact ⟨hcause, rfl, rfl, owner_infix_samePath _ _ _⟩

theorem nodup_ids_targets {model : Model} (hkeyed : model.WellKeyed) (settings : Settings) :
    ((targets model settings).map (·.id)).Nodup :=
  (List.filter_sublist.map _).nodup hkeyed.nodup_ids

/-- A rendering is merged from the outcomes of the targets. -/
theorem of_renderAll {model : Model} {symbols : SymbolProvider} {settings : Settings}
    {rendering : Rendering} (h : renderAll model symbols settings = .ok rendering) :
    rendering = ofOutcomes (targets model settings) (SourceFile.render model symbols settings) :=
  of_merge h

/-- Skipping failures always gives a rendering, and it partitions the targets. -/
theorem renderAll_partitions (model : Model) (symbols : SymbolProvider) (settings : Settings)
    (hkeyed : model.WellKeyed) (hcontinue : settings.continueOnError = true) :
    ∃ rendering, renderAll model symbols settings = .ok rendering ∧
      rendering.Partitions (targets model settings) (SourceFile.render model symbols settings) := by
  refine ⟨_, ?_, partitions_ofOutcomes (nodup_ids_targets hkeyed settings)⟩
  rw [renderAll, hcontinue, merge_true, ofOutcomes]

/-- Two structures of one name, and a union with a member that has the name of the catch-all. -/
def readings : Model :=
  ((Model.insert {} { id := ⟨"com.a#Reading"⟩, type := .struct }).insert
    { id := ⟨"com.b#Reading"⟩, type := .struct }).insert
    { id := ⟨"com.a#Event"⟩, type := .union
      members := [.of ⟨"com.a#Event"⟩ "SdkUnknown" ⟨"com.a#Reading"⟩] }

/-- Settings that skip failures. -/
def skipping : Settings :=
  { packageName := "com.example", runtimeVersion := "1.0.0", continueOnError := true }

theorem renderAll_partitions_readings :
    readings.WellKeyed ∧ skipping.continueOnError = true ∧
      (targets readings skipping).map (·.id.text) =
        ["com.a#Event", "com.a#Reading", "com.b#Reading"] ∧
      ∃ rendering, renderAll readings (.kotlin skipping) skipping = .ok rendering ∧
        rendering.Partitions (targets readings skipping)
          (SourceFile.render readings (.kotlin skipping) skipping) := by
  have hkeyed : readings.WellKeyed := ((Model.wellKeyed_empty.insert _).insert _).insert _
  exact ⟨hkeyed, rfl, by decide +kernel,
    renderAll_partitions readings (.kotlin skipping) skipping hkeyed rfl⟩

end SmithyKotlin.Rendering

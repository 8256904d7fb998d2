import SmithyKotlin.Proofs.Rendering.Generation
import SmithyKotlin.Proofs.Symbol.Dependencies

/-!
# Dependencies of generated sources

Dependencies come from the symbols that the instructions of a file refer to, and the lists of all files are merged
into one.

* `Rendering.strict_dependencies`: the merged list is sorted and has nothing twice.
* `Rendering.mem_dependencies_iff_needsRuntime`: the artifact of the runtime is in it exactly when a shape with a
  file is an error, or a member that it writes has or holds a type of the runtime (`Shape.NeedsRuntime`).
* `Generation.toDirectory_dependencies`: as nothing depends on more than that artifact, the list of a report has
  that one entry or none.
-/

namespace SmithyKotlin

variable {model : Model} {settings : Settings} {d : Dependency}

/-! ## Files -/

/-- The file of a shape needs the runtime when the shape is an error, or a member that it writes has or holds a type
of the runtime. -/
def Shape.NeedsRuntime (model : Model) (shape : Shape) : Prop :=
  shape.isError = true ∨ ∃ member ∈ shape.writtenMembers model, member.HoldsRuntime model

namespace SourceFile

variable {shape : Shape} {file : SourceFile}

theorem mem_dependencies_file {emission : Emission} {id : ShapeId} :
    d ∈ (emission.file settings id).dependencies ↔
      ∃ symbol ∈ mentioned emission.instructions, d ∈ symbol.dependencies :=
  Writer.mem_dependencies_run.trans (or_iff_right List.not_mem_nil)

theorem mem_dependencies_structure {declaration : StructureDeclaration} (htype : shape.type = .struct)
    (hplanned : declaration.PlannedFor model (SymbolProvider.kotlin settings) settings shape) :
    (∃ symbol ∈ mentioned declaration.emit, d ∈ symbol.dependencies) ↔
      shape.NeedsRuntime model ∧ d = Runtime.dependency settings := by
  have hmembers : (∃ property ∈ declaration.properties, d ∈ property.symbol.dependencies) ↔
      ∃ member ∈ shape.writtenMembers model,
        member.HoldsRuntime model ∧ d = Runtime.dependency settings := by
    rw [Shape.writtenMembers, if_neg (htype ▸ by decide)]
    exact exists_mem_iff_of_forall₂ hplanned.properties fun _ _ hsymbol =>
      SymbolProvider.mem_dependencies_memberSymbol hsymbol
  have hsuperclass : (∃ symbol ∈ declaration.superclass.toList, d ∈ symbol.dependencies) ↔
      shape.isError = true ∧ d = Runtime.dependency settings := by
    rw [hplanned.superclass]
    cases shape.isError <;> simp [StructureDeclaration.serviceException]
  rw [StructureDeclaration.mentioned_emit, StructureDeclaration.referencedSymbols]
  simp only [List.mem_append, List.mem_map, or_and_right, exists_or, exists_exists_and_eq_and]
  rw [hsuperclass, hmembers, Shape.NeedsRuntime, or_and_right]
  simp only [← and_assoc, exists_and_right]

theorem mem_dependencies_union {declaration : UnionDeclaration} (htype : shape.type = .union)
    (hcovers : declaration.Covers model (SymbolProvider.kotlin settings) settings shape) :
    (∃ symbol ∈ mentioned declaration.emit, d ∈ symbol.dependencies) ↔
      shape.NeedsRuntime model ∧ d = Runtime.dependency settings := by
  obtain ⟨members, hperm, _, hvariants⟩ := hcovers.members
  have hmembers : (∃ variant ∈ declaration.variants, d ∈ variant.symbol.dependencies) ↔
      ∃ member ∈ shape.writtenMembers model,
        member.HoldsRuntime model ∧ d = Runtime.dependency settings := by
    rw [Shape.writtenMembers, if_pos htype]
    simp only [← hperm.mem_iff]
    exact exists_mem_iff_of_forall₂ hvariants fun _ _ hvariant =>
      SymbolProvider.mem_dependencies_memberSymbol hvariant.symbol
  have herror : shape.isError = false := by
    rw [Shape.isError, htype]
    rfl
  -- both forms of a symbol have the same dependencies
  have hforms : (∃ symbol ∈ mentioned declaration.emit, d ∈ symbol.dependencies) ↔
      ∃ variant ∈ declaration.variants, d ∈ variant.symbol.dependencies := by
    simp only [UnionDeclaration.mem_mentioned_emit]
    constructor
    · rintro ⟨_, ⟨variant, hmem, rfl | rfl⟩, hd⟩
      · exact ⟨variant, hmem, hd⟩
      · exact ⟨variant, hmem, hd⟩
    · rintro ⟨variant, hmem, hd⟩
      exact ⟨_, ⟨variant, hmem, .inl rfl⟩, hd⟩
  rw [hforms, hmembers, Shape.NeedsRuntime, herror]
  simp only [← and_assoc, exists_and_right, Bool.false_eq_true, false_or]

/-- A file depends on the runtime when its shape needs it, and on nothing else. -/
theorem mem_dependencies_iff (hkeyed : model.WellKeyed) (hget : model.get? shape.id = some shape)
    (h : SourceFile.render model (SymbolProvider.kotlin settings) settings shape = .ok file) :
    d ∈ file.dependencies ↔ shape.NeedsRuntime model ∧ d = Runtime.dependency settings := by
  obtain ⟨emission, hemission, rfl⟩ := render_eq_ok_iff.mp h
  rw [mem_dependencies_file]
  rw [SourceFile.emission] at hemission
  split at hemission
  · rename_i htype
    obtain ⟨declaration, hplan, rfl⟩ := map_eq_ok_iff.mp hemission
    obtain ⟨htargets, _⟩ := UnionDeclaration.symbol_of_plan hget htype hplan
    exact mem_dependencies_union htype (UnionDeclaration.covers_of_plan hkeyed hget htype htargets hplan)
  · rename_i htype
    obtain ⟨declaration, hplan, rfl⟩ := map_eq_ok_iff.mp hemission
    exact mem_dependencies_structure htype (StructureDeclaration.plannedFor_of_plan hget htype hplan)
  · cases hemission

end SourceFile

/-! ## Renderings -/

namespace Rendering

variable {rendering : Rendering}

theorem mem_foldl_insertAll {files : List SourceFile} {all : List Dependency} :
    d ∈ files.foldl (fun all file => Dependency.insertAll all file.dependencies) all ↔
      d ∈ all ∨ ∃ file ∈ files, d ∈ file.dependencies := by
  induction files generalizing all with
  | nil => simp
  | cons file rest ih =>
    rw [List.foldl_cons, ih, Dependency.mem_insertAll, List.exists_mem_cons_iff, or_assoc]

theorem mem_dependencies_iff :
    d ∈ rendering.dependencies ↔ ∃ file ∈ rendering.files.values, d ∈ file.dependencies :=
  mem_foldl_insertAll.trans (or_iff_right List.not_mem_nil)

theorem strict_dependencies (rendering : Rendering) : Dependency.Strict rendering.dependencies := by
  have hfold (files : List SourceFile) (all : List Dependency) (hall : Dependency.Strict all) :
      Dependency.Strict
        (files.foldl (fun all file => Dependency.insertAll all file.dependencies) all) := by
    induction files generalizing all with
    | nil => exact hall
    | cons file rest ih => exact ih _ (hall.insertAll file.dependencies)
  exact hfold _ _ List.Pairwise.nil

/-- A shape with a file needs the runtime. -/
def NeedsRuntime (rendering : Rendering) (model : Model) : Prop :=
  ∃ key ∈ rendering.files.keys, ∃ shape, model.get? ⟨key⟩ = some shape ∧ shape.NeedsRuntime model

/-- No dependency of a file is lost in the rendering, and none comes from elsewhere. -/
theorem mem_dependencies_iff_needsRuntime (hkeyed : model.WellKeyed)
    (h : ofModel model settings = .ok rendering) :
    d ∈ rendering.dependencies ↔ rendering.NeedsRuntime model ∧ d = Runtime.dependency settings := by
  have hfile (key : String) (file : SourceFile) (hfile : rendering.files.get? key = some file) :
      d ∈ file.dependencies ↔ (∃ shape, model.get? ⟨key⟩ = some shape ∧ shape.NeedsRuntime model) ∧
        d = Runtime.dependency settings := by
    obtain ⟨shape, hmem, rfl, hrender⟩ := exists_target_of_file hkeyed h hfile
    have hget := ((mem_targets_iff hkeyed).mp hmem).1
    rw [SourceFile.mem_dependencies_iff hkeyed hget hrender]
    simp only [hget, Option.some.injEq, exists_eq_left']
  rw [mem_dependencies_iff, NeedsRuntime]
  constructor
  · rintro ⟨file, hmem, hd⟩
    obtain ⟨⟨key, _⟩, hentry, rfl⟩ := List.mem_map.mp hmem
    have hget := SortedMap.get?_eq_some_iff.mpr hentry
    obtain ⟨hneeds, heq⟩ := (hfile key _ hget).mp hd
    exact ⟨⟨key, SortedMap.mem_keys_iff.mpr ⟨_, hget⟩, hneeds⟩, heq⟩
  · rintro ⟨⟨key, hkey, hneeds⟩, heq⟩
    obtain ⟨file, hget⟩ := SortedMap.mem_keys_iff.mp hkey
    exact ⟨file, List.mem_map.mpr ⟨_, SortedMap.get?_eq_some_iff.mp hget, rfl⟩,
      (hfile key file hget).mpr ⟨hneeds, heq⟩⟩

end Rendering

namespace Generation

/-- For every document that is read, the manifest of a run that succeeds lists the artifact of the runtime, once,
where a shape with a file needs it, and no dependency otherwise. -/
theorem toDirectory_dependencies (document : Document) (model : Model) (settings : Settings)
    (output : String) (before after : FileTree) (report : Report)
    (hmodel : document.toModel = .ok model)
    (hrun : toDirectory model settings output before = (.ok report, after)) :
    ∃ rendering, Rendering.ofModel model settings = .ok rendering ∧
      (rendering.NeedsRuntime model → report.manifest.dependencies =
        ["aws.smithy.kotlin:runtime-core:" ++ settings.runtimeVersion]) ∧
      (¬ rendering.NeedsRuntime model → report.manifest.dependencies = []) := by
  rw [toDirectory] at hrun
  split at hrun
  · rename_i rendering hrender
    have hmem (other : Dependency) := Rendering.mem_dependencies_iff_needsRuntime (d := other)
      (Document.wellKeyed_of_toModel hmodel) hrender
    obtain ⟨hneeded, hspared⟩ := (Rendering.strict_dependencies rendering).eq_of_mem_iff hmem
    refine ⟨rendering, hrender, fun hneeds => ?_, fun hneeds => ?_⟩
    · rw [manifest_of_write hrun, Manifest.ofRendering, hneeded hneeds]
      rfl
    · rw [manifest_of_write hrun, Manifest.ofRendering, hspared hneeds]
      rfl
  · cases hrun

/-- A structure with times in the lists of a map, and one with a text. -/
def timetables : Document where
  version := "2.0"
  shapes := ⟨[("com.a#Timetable", ⟨.group .struct ⟨[("stops", ⟨"com.a#Stops", {}⟩)], by decide⟩, {}⟩),
    ("com.a#Stops", ⟨.map ⟨"smithy.api#String", {}⟩ ⟨"com.a#Times", {}⟩, {}⟩),
    ("com.a#Times", ⟨.list ⟨"smithy.api#Timestamp", {}⟩, {}⟩),
    ("com.a#Notice", ⟨.group .struct ⟨[("words", ⟨"smithy.api#String", {}⟩)], by decide⟩, {}⟩)],
    by decide⟩
  metadata := {}

def timetableSettings : Settings := { packageName := "com.example", runtimeVersion := "1.0.0" }

theorem toDirectory_dependencies_timetables :
    ∃ model rendering report after, timetables.toModel = .ok model ∧
      toDirectory model timetableSettings "out" {} = (.ok report, after) ∧
      Rendering.ofModel model timetableSettings = .ok rendering ∧ rendering.NeedsRuntime model ∧
      report.manifest.dependencies = ["aws.smithy.kotlin:runtime-core:1.0.0"] := by
  have hseen : (timetables.toModel.toOption.map fun model =>
      ((Rendering.ofModel model timetableSettings).toOption.map (·.files.keys),
        (toDirectory model timetableSettings "out" {}).1.toOption.map (·.written.length),
        (model.get? ⟨"com.a#Timetable"⟩).bind fun shape =>
          (shape.writtenMembers model).head?.bind fun member =>
            (model.get? member.target).bind fun stops => (stops.member? "value").bind fun value =>
              (model.get? value.target).bind fun times => (times.member? "member").bind fun element =>
                (model.get? element.target).map fun time =>
                  ("value" ∈ stops.slots && "member" ∈ times.slots && time.IsRuntime : Bool))) =
      some (some ["com.a#Notice", "com.a#Timetable"], some 2, some true) := by
    decide +kernel
  obtain ⟨model, hmodel, hseen⟩ := map_toOption_eq_some_iff.mp hseen
  rw [Prod.mk.injEq, Prod.mk.injEq] at hseen
  obtain ⟨hkeys, hwritten, hpath⟩ := hseen
  simp only [Option.bind_eq_some_iff, Option.map_eq_some_iff, Bool.and_eq_true,
    decide_eq_true_eq] at hpath
  obtain ⟨shape, hshape, member, hmember, stops, hstops, value, hvalue, times, htimes, element, helement,
    time, htime, ⟨hslot, hslot'⟩, hruntime⟩ := hpath
  obtain ⟨report, hreport, _⟩ := map_toOption_eq_some_iff.mp hwritten
  have hrun : toDirectory model timetableSettings "out" {} =
      (.ok report, (toDirectory model timetableSettings "out" {}).2) := Prod.ext hreport rfl
  obtain ⟨rendering, hrender, hneeded, _⟩ :=
    toDirectory_dependencies timetables model timetableSettings "out" {} _ report hmodel hrun
  rw [hrender] at hkeys
  have hkeys : rendering.files.keys = ["com.a#Notice", "com.a#Timetable"] := Option.some.inj hkeys
  have hneeds : rendering.NeedsRuntime model := by
    have hholds : model.Holds stops time :=
      .slot hslot hvalue htimes (.slot hslot' helement htime (.self time))
    refine ⟨"com.a#Timetable", hkeys ▸ by decide, shape, hshape, .inr ?_⟩
    exact ⟨member, List.mem_of_head? hmember, stops, hstops, time, hholds, hruntime⟩
  exact ⟨model, rendering, report, _, hmodel, hrun, hrender, hneeds, hneeded hneeds⟩

end Generation

end SmithyKotlin

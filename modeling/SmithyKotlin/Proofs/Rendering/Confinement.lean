import SmithyKotlin.Proofs.Files.Confinement
import SmithyKotlin.Proofs.Rendering.Closure
import SmithyKotlin.Rendering.Generation

/-!
# Sources below the output directory

* `Generation.Confines`: an action that writes below a directory only; `Generation.confines_write` puts the actions
  of generating together, for files whose paths never lead back.
* `Rendering.inModelDirectory_iff`: the file of a shape stands in the directory of the generated types exactly when
  the name of the shape names a file.
* `Generation.toDirectory_confined`: so generating stays below the output where the names of all shapes with files
  do; a document may have other names, and then a source is written elsewhere.
-/

namespace SmithyKotlin

namespace Generation

variable {α β : Type} {output : List String}

/-- Whatever tree it starts from, the writing changes files below the place where some steps lead, and nowhere
else; this holds of a failure as well. -/
def Confines (output : List String) (writing : Writing α) : Prop :=
  ∀ tree, FileTree.Confined output tree (writing tree).2

theorem confines_attempt {operation : FileTree → Except OsError FileTree} {fail : OsError → CodegenError}
    (h : ∀ tree after, operation tree = .ok after → FileTree.Confined output tree after) :
    Confines output (attempt operation fail) := by
  intro tree
  rw [attempt]
  split
  · rename_i after hok
    exact h tree after hok
  · exact .refl output tree

theorem confines_andThen {first : Writing α} {second : α → Writing β} (hfirst : Confines output first)
    (hsecond : ∀ value, Confines output (second value)) : Confines output (andThen first second) := by
  intro tree
  have hbefore := hfirst tree
  rw [andThen]
  split
  · rename_i value middle heq
    rw [heq] at hbefore
    exact hbefore.trans (hsecond value middle)
  · rename_i error middle heq
    rw [heq] at hbefore
    exact hbefore

/-- Adding directories writes no file. -/
theorem confines_makeDirectories (path : String) (fail : OsError → CodegenError) :
    Confines output (attempt (makeDirectories path) fail) := by
  refine confines_attempt fun tree after h => ?_
  obtain ⟨steps, _, h⟩ := bind_eq_ok_iff.mp h
  exact FileTree.confined_makeDirectories h

/-- A file on a relative path that never leads back is written below the directory that the path is joined
to. -/
theorem confines_writeFile {base path : String} (hrelative : Path.isAbsolute path = false)
    (hup : ".." ∉ Path.steps path) (hne : Path.steps path ≠ []) (contents : String)
    (fail : OsError → CodegenError) :
    Confines (Path.steps base) (attempt (·.writeFile (Path.join base path) contents) fail) :=
  confines_attempt fun _ _ h => FileTree.confined_writeFile h (Path.steps_join hrelative) hne
    ⟨hup, Path.root_not_mem_steps hrelative⟩

theorem confines_writeSource {settings : Settings} (output : String) {file : SourceFile}
    (h : SourceFile.InModelDirectory settings file.path) :
    Confines (Path.steps output) (writeSource output file) := by
  obtain ⟨name, _, _, hsteps⟩ := h.named
  have hne : Path.steps file.path ≠ [] := by
    rw [hsteps]
    exact List.append_ne_nil_of_right_ne_nil _ (List.cons_ne_nil _ _)
  rw [writeSource, sourcePath]
  exact confines_andThen (confines_makeDirectories _ _) fun _ =>
    confines_writeFile h.relative h.descends hne file.contents _

theorem confines_writeSources {settings : Settings} (output : String) {files : List SourceFile}
    (h : ∀ file ∈ files, SourceFile.InModelDirectory settings file.path) :
    Confines (Path.steps output) (writeSources output files) := by
  induction files with
  | nil => exact FileTree.Confined.refl _
  | cons file rest ih =>
    obtain ⟨hfile, hrest⟩ := List.forall_mem_cons.mp h
    exact confines_andThen (confines_writeSource output hfile) fun _ => ih hrest

theorem confines_writeManifest (output : String) (manifest : Manifest) :
    Confines (Path.steps output) (writeManifest output manifest) := by
  have hsteps : Path.steps Manifest.fileName = ["codegen-manifest.json"] := by decide +kernel
  refine confines_writeFile (by decide +kernel) ?_ ?_ manifest.text _ <;> rw [hsteps] <;> decide

/-- Files in the directory of the generated types are written below the output directory, and so is the
manifest. -/
theorem confines_write {settings : Settings} (output : String) {rendering : Rendering}
    (h : ∀ file ∈ rendering.files.values, SourceFile.InModelDirectory settings file.path) :
    Confines (Path.steps output) (write settings output rendering) :=
  confines_andThen (confines_makeDirectories _ _) fun _ =>
    confines_andThen (confines_writeSources output h) fun _ =>
      confines_andThen (confines_writeManifest output _) fun _ => FileTree.Confined.refl _

end Generation

namespace Rendering

variable {model : Model} {settings : Settings} {rendering : Rendering} {key : String} {file : SourceFile}

theorem inModelDirectory_iff (hkeyed : model.WellKeyed)
    (hpackage : Settings.isPackage settings.packageName = true)
    (h : ofModel model settings = .ok rendering) (hfile : rendering.files.get? key = some file) :
    SourceFile.InModelDirectory settings file.path ↔ Naming.NamesFile (ShapeId.name ⟨key⟩) := by
  obtain ⟨shape, hmem, rfl, hrender⟩ := exists_target_of_file hkeyed h hfile
  rw [path_of_render hkeyed hmem hrender]
  exact SourceFile.inModelDirectory_pascalCase_iff hpackage shape.id.name

end Rendering

namespace Generation

/-- For every document that is read and settings that pass their check, a file stands in the directory of the
generated types exactly when the name of its shape names a file; where all do, nothing is written outside the
output directory, whatever stands there before and wherever writing fails. -/
theorem toDirectory_confined (document : Document) (model : Model) (settings : Settings)
    (hmodel : document.toModel = .ok model) (hcheck : settings.check = .ok ()) :
    (∀ rendering key file, Rendering.ofModel model settings = .ok rendering →
      rendering.files.get? key = some file →
      (SourceFile.InModelDirectory settings file.path ↔ Naming.NamesFile (ShapeId.name ⟨key⟩))) ∧
    ((∀ rendering, Rendering.ofModel model settings = .ok rendering →
        ∀ key ∈ rendering.files.keys, Naming.NamesFile (ShapeId.name ⟨key⟩)) →
      ∀ output tree, FileTree.Confined (Path.steps output) tree
        (toDirectory model settings output tree).2) := by
  have hkeyed := Document.wellKeyed_of_toModel hmodel
  have hpackage := Settings.isPackage_of_check hcheck
  refine ⟨fun rendering key file => Rendering.inModelDirectory_iff hkeyed hpackage,
    fun hnames output tree => ?_⟩
  rw [toDirectory]
  split
  · rename_i rendering hrender
    refine confines_write output (fun file hfile => ?_) tree
    obtain ⟨⟨key, found⟩, hentry, rfl⟩ := List.mem_map.mp hfile
    have hget := SortedMap.get?_eq_some_iff.mpr hentry
    exact (Rendering.inModelDirectory_iff hkeyed hpackage hrender hget).mpr
      (hnames rendering hrender key (SortedMap.mem_keys_iff.mpr ⟨_, hget⟩))
  · exact .refl _ tree

/-- Structures with names that become one step, one of them with points in front. -/
def sensors : Document where
  version := "2.0"
  shapes := ⟨[("com.example#sensor_state", ⟨.group .struct ⟨[], by decide⟩, {}⟩),
    ("com.example#..up", ⟨.group .struct ⟨[], by decide⟩, {}⟩)], by decide⟩
  metadata := {}

def plain : Settings := { packageName := "com.example", runtimeVersion := "1.0.0" }

theorem toDirectory_confined_sensors :
    ∃ model rendering file, sensors.toModel = .ok model ∧ plain.check = .ok () ∧
      Rendering.ofModel model plain = .ok rendering ∧
      rendering.files.keys = ["com.example#..up", "com.example#sensor_state"] ∧
      rendering.files.get? "com.example#..up" = some file ∧
      SourceFile.InModelDirectory plain file.path ∧
      ∀ output tree, FileTree.Confined (Path.steps output) tree
        (toDirectory model plain output tree).2 := by
  have hcheck : plain.check = .ok () := by decide +kernel
  have hseen : (sensors.toModel.toOption.map fun model =>
      (Rendering.ofModel model plain).toOption.map (·.files.keys)) =
      some (some ["com.example#..up", "com.example#sensor_state"]) := by
    decide +kernel
  obtain ⟨model, hmodel, hseen⟩ := map_toOption_eq_some_iff.mp hseen
  obtain ⟨rendering, hrender, hkeys⟩ := map_toOption_eq_some_iff.mp hseen
  obtain ⟨file, hfile⟩ := SortedMap.mem_keys_iff.mp
    (hkeys ▸ (by decide) : "com.example#..up" ∈ rendering.files.keys)
  have hnames : ∀ key ∈ rendering.files.keys, Naming.NamesFile (ShapeId.name ⟨key⟩) := by
    rw [hkeys]
    decide +kernel
  obtain ⟨hplaces, hwrites⟩ := toDirectory_confined sensors model plain hmodel hcheck
  refine ⟨model, rendering, file, hmodel, hcheck, hrender, hkeys, hfile, ?_, hwrites ?_⟩
  · exact (hplaces rendering _ file hrender hfile).mpr
      (hnames _ (SortedMap.mem_keys_iff.mpr ⟨file, hfile⟩))
  · intro other hother
    rw [hrender] at hother
    cases hother
    exact hnames

/-- A structure with the name of an absolute path. -/
def escaping : Document where
  version := "2.0"
  shapes := ⟨[("com.example#/Escaped", ⟨.group .struct ⟨[], by decide⟩, {}⟩)], by decide⟩
  metadata := {}

/-- The source of the structure is written to the root of all paths, and not below the output directory. -/
theorem not_confined_escaping :
    ∃ model rendering file, escaping.toModel = .ok model ∧ plain.check = .ok () ∧
      Rendering.ofModel model plain = .ok rendering ∧
      rendering.files.get? "com.example#/Escaped" = some file ∧ file.path = "/Escaped.kt" ∧
      ¬ SourceFile.InModelDirectory plain file.path ∧
      ¬ FileTree.Confined ["out"] {} (toDirectory model plain "out" {}).2 := by
  have hseen : (escaping.toModel.toOption.map fun model =>
      (Rendering.ofModel model plain).toOption.map fun rendering =>
        ((rendering.files.get? "com.example#/Escaped").map (·.path),
          decide ((write plain "out" rendering {}).2.get? "/Escaped.kt" ∉ [none, some .directory]))) =
      some (some (some "/Escaped.kt", true)) := by
    decide +kernel
  obtain ⟨model, hmodel, hseen⟩ := map_toOption_eq_some_iff.mp hseen
  obtain ⟨rendering, hrender, hseen⟩ := map_toOption_eq_some_iff.mp hseen
  rw [Prod.mk.injEq, decide_eq_true_eq, List.mem_pair, not_or] at hseen
  obtain ⟨hpath, hnone, hdirectory⟩ := hseen
  obtain ⟨file, hfile, hpath⟩ := Option.map_eq_some_iff.mp hpath
  refine ⟨model, rendering, file, hmodel, by decide +kernel, hrender, hfile, hpath, ?_, ?_⟩
  · intro h
    have hrelative := h.relative
    rw [hpath] at hrelative
    exact absurd hrelative (by decide +kernel)
  · intro h
    rw [toDirectory, hrender] at h
    obtain ⟨node, hget⟩ := Option.ne_none_iff_exists'.mp hnone
    cases node with
    | directory => exact hdirectory hget
    | file contents =>
      rcases h.written _ contents hget with hbefore | hbelow
      · cases hbefore
      · obtain ⟨rest, hkey⟩ := hbelow.exists_place (by decide)
        have hstart : "out".toList <+: "/Escaped.kt".toList :=
          hkey ▸ Path.prefix_ofComponents (by decide) rest
        exact absurd hstart (by decide +kernel)

end Generation

end SmithyKotlin

import SmithyKotlin.Proofs.Naming.ClassName
import SmithyKotlin.Proofs.Settings.Package
import SmithyKotlin.Rendering.SourceFile

/-!
# Where files stand

The generated types of a package have one directory, whose steps are those of the source tree, the segments of the
package and `model` (`SourceFile.steps_directory`).

* `SourceFile.inModelDirectory_pathOf`, `SourceFile.of_inModelDirectory_pathOf`: the file of a class stands in it
  exactly when the name of the class is no path of several steps and not empty.
* `SourceFile.inModelDirectory_pascalCase_iff`: what that means for the name of a shape.

Where the output directory itself lies is left open.
-/

namespace SmithyKotlin.SourceFile

/-! ## The directory of the generated types -/

/-- The steps to the directory of the generated types. -/
def modelSteps (settings : Settings) : List String :=
  ["src", "main", "kotlin"] ++ settings.segments ++ ["model"]

/-- The path leads to the directory of the generated types and from there to a Kotlin file with a name.  It
neither starts elsewhere nor leads upwards on its way. -/
structure InModelDirectory (settings : Settings) (path : String) : Prop where
  relative : Path.isAbsolute path = false
  descends : ".." ∉ Path.steps path
  named : ∃ name, name ≠ "" ∧ '/' ∉ name.toList ∧
    Path.steps path = modelSteps settings ++ [name ++ ".kt"]

variable {settings : Settings} (hpackage : Settings.isPackage settings.packageName = true)

section Directory

include hpackage

theorem steps_directory : Path.steps (directory settings.modelPackage) = modelSteps settings := by
  have hsource : Path.steps "src/main/kotlin" = ["src", "main", "kotlin"] := by decide +kernel
  have hrelative := Settings.isAbsolute_package hpackage
  have hsteps : Path.steps (settings.modelPackage.map fun c => if c = '.' then '/' else c) =
      settings.segments ++ ["model"] := by
    rw [Path.steps_eq, hrelative, if_neg Bool.false_ne_true, List.nil_append,
      Settings.names_package hpackage]
  rw [directory, Path.steps_join hrelative, hsource, hsteps, modelSteps, List.append_assoc]

theorem isAbsolute_directory : Path.isAbsolute (directory settings.modelPackage) = false := by
  rw [directory, Path.isAbsolute_join (Settings.isAbsolute_package hpackage)]
  decide +kernel

end Directory

theorem dots_not_mem_modelSteps (settings : Settings) : ".." ∉ modelSteps settings := by
  rw [modelSteps, List.mem_append, List.mem_append, not_or, not_or]
  exact ⟨⟨by decide, Settings.dots_not_mem_segments settings⟩, by decide⟩

/-! ## The file of a class -/

theorem toList_fileName (typeName : String) :
    (typeName ++ ".kt").toList = (typeName.toList ++ ['.', 'k']) ++ ['t'] := by
  rw [String.toList_append, List.append_assoc]
  rfl

theorem no_slash_fileName_iff {typeName : String} :
    '/' ∉ (typeName ++ ".kt").toList ↔ '/' ∉ typeName.toList := by
  have hending : '/' ∉ ".kt".toList := by decide
  rw [String.toList_append, List.mem_append, or_iff_left hending]

theorem fileName_inj {a b : String} : a ++ ".kt" = b ++ ".kt" ↔ a = b := by
  rw [← String.toList_inj, String.toList_append, String.toList_append,
    List.append_cancel_right_eq, String.toList_inj]

theorem fileName_ne {typeName other : String} (hother : other.toList.getLast? ≠ some 't') :
    typeName ++ ".kt" ≠ other := by
  rintro rfl
  rw [toList_fileName, List.getLast?_concat] at hother
  exact hother rfl

include hpackage

theorem steps_pathOf {typeName : String} (hslash : '/' ∉ typeName.toList) :
    Path.steps (pathOf settings.modelPackage typeName) = modelSteps settings ++ [typeName ++ ".kt"] := by
  have hname := no_slash_fileName_iff.mpr hslash
  rw [pathOf, Path.steps_join (Path.isAbsolute_of_no_slash hname), steps_directory hpackage,
    Path.steps_name hname (fileName_ne (by decide))]

theorem isAbsolute_pathOf {typeName : String} (hslash : '/' ∉ typeName.toList) :
    Path.isAbsolute (pathOf settings.modelPackage typeName) = false := by
  have hname := no_slash_fileName_iff.mpr hslash
  rw [pathOf, Path.isAbsolute_join (Path.isAbsolute_of_no_slash hname)]
  exact isAbsolute_directory hpackage

theorem dots_not_mem_steps_pathOf {typeName : String} (hslash : '/' ∉ typeName.toList) :
    ".." ∉ Path.steps (pathOf settings.modelPackage typeName) := by
  rw [steps_pathOf hpackage hslash, List.mem_append, List.mem_singleton, not_or]
  exact ⟨dots_not_mem_modelSteps settings, Ne.symm (fileName_ne (by decide))⟩

/-- A class with a name that is one step has its file in the directory. -/
theorem inModelDirectory_pathOf {typeName : String} (hne : typeName ≠ "")
    (hslash : '/' ∉ typeName.toList) :
    InModelDirectory settings (pathOf settings.modelPackage typeName) :=
  ⟨isAbsolute_pathOf hpackage hslash, dots_not_mem_steps_pathOf hpackage hslash, typeName, hne, hslash,
    steps_pathOf hpackage hslash⟩

/-- A file in the directory has the name of its class. -/
theorem of_inModelDirectory_pathOf {typeName : String}
    (h : InModelDirectory settings (pathOf settings.modelPackage typeName)) :
    typeName ≠ "" ∧ '/' ∉ typeName.toList := by
  have hrelative : Path.isAbsolute (typeName ++ ".kt") = false := by
    by_contra habsolute
    rw [Bool.not_eq_false] at habsolute
    have hpath := h.relative
    rw [pathOf, Path.join_of_isAbsolute habsolute, habsolute] at hpath
    cases hpath
  obtain ⟨name, hne, _, hsteps⟩ := h.named
  rw [pathOf, Path.steps_join hrelative, steps_directory hpackage, List.append_cancel_left_eq,
    Path.steps_eq, hrelative, if_neg Bool.false_ne_true, List.nil_append, toList_fileName] at hsteps
  have hhead : (typeName.toList ++ ['.', 'k']).head? ≠ some '/' := by
    intro hhead
    rw [Path.isAbsolute, decide_eq_false_iff_not, toList_fileName, List.head?_append, hhead] at hrelative
    exact hrelative rfl
  have hslash := Path.no_slash_of_names_eq_singleton hhead (by decide) hsteps
  rw [List.mem_append, not_or] at hslash
  have hname := no_slash_fileName_iff.mpr hslash.1
  rw [← toList_fileName, Path.names_eq_singleton hname (fileName_ne (by decide)), List.singleton_inj,
    fileName_inj] at hsteps
  exact ⟨hsteps ▸ hne, hslash.1⟩

/-- The name of a shape decides whether the file of its class stands in the directory. -/
theorem inModelDirectory_pascalCase_iff (name : String) :
    InModelDirectory settings (pathOf settings.modelPackage (Naming.pascalCase name)) ↔
      Naming.NamesFile name := by
  rw [Naming.namesFile_iff]
  constructor
  · exact of_inModelDirectory_pathOf hpackage
  · intro h
    exact inModelDirectory_pathOf hpackage h.1 h.2

end SmithyKotlin.SourceFile

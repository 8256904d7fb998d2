import SmithyKotlin.Proofs.Files.Path
import SmithyKotlin.Proofs.Settings.Forms

/-!
# Packages as directories

With slashes for its points the name of a package is a relative path (`Settings.isAbsolute_package`), which leads
through the segments of the package (`Settings.names_package`) and never upwards (`Settings.dots_not_mem_segments`).
All this is so for names that pass `isPackage`; no other settings write files.
-/

namespace SmithyKotlin

/-- With slashes for its points a text has its parts between slashes. -/
theorem Text.pieces_map_slash {cs : List Char} (hslash : '/' ∉ cs) :
    pieces (· == '/') (cs.map fun c => if c = '.' then '/' else c) = pieces (· == '.') cs := by
  induction cs with
  | nil => rfl
  | cons c rest ih =>
    rw [List.mem_cons, not_or] at hslash
    obtain ⟨hc, hrest⟩ := hslash
    rw [List.map_cons, pieces, pieces, ih hrest]
    by_cases hdot : c = '.'
    · subst hdot
      rfl
    · rw [if_neg hdot, beq_eq_false_iff_ne.mpr hdot, beq_eq_false_iff_ne.mpr (Ne.symm hc)]

namespace Settings

/-- A segment has something in it, and no slash of either kind. -/
theorem of_isPackageSegment {segment : List Char} (h : isPackageSegment segment = true) :
    segment ≠ [] ∧ '/' ∉ segment ∧ '\\' ∉ segment := by
  have hsegment := isPackageSegment_iff.mp h
  refine ⟨?_, fun hmem => absurd (hsegment.mem hmem) (by decide), fun hmem => absurd (hsegment.mem hmem) (by decide)⟩
  obtain ⟨_, _⟩ := hsegment
  exact List.cons_ne_nil _ _

/-- Settings that pass their check name a package. -/
theorem isPackage_of_check {settings : Settings} (h : settings.check = .ok ()) :
    isPackage settings.packageName = true :=
  (check_eq_ok_iff.mp h).2.2.1

/-- The segments of a package. -/
def segments (settings : Settings) : List String := Text.split '.' settings.packageName

/-- No segment leads upwards. -/
theorem dots_not_mem_segments (settings : Settings) : ".." ∉ settings.segments := by
  intro hmem
  obtain ⟨piece, hpiece, heq⟩ := List.mem_map.mp hmem
  have hlist := congrArg String.toList heq
  rw [String.toList_ofList] at hlist
  have hdot : '.' ∈ piece := by
    rw [hlist]
    decide
  exact absurd (Text.sep_of_mem_pieces hpiece hdot) (by decide)

variable {settings : Settings} (hpackage : isPackage settings.packageName = true)

include hpackage

theorem of_mem_pieces {piece : List Char}
    (hmem : piece ∈ Text.pieces (· == '.') settings.packageName.toList) :
    piece ≠ [] ∧ '/' ∉ piece ∧ '\\' ∉ piece :=
  of_isPackageSegment (List.all_eq_true.mp hpackage piece hmem)

theorem backslash_not_mem_packageName : '\\' ∉ settings.packageName.toList := by
  intro hmem
  obtain ⟨piece, hpiece, hbackslash⟩ :
      ∃ piece ∈ Text.pieces (· == '.') settings.packageName.toList, '\\' ∈ piece :=
    Text.exists_mem_pieces hmem (by decide)
  exact (of_mem_pieces hpackage hpiece).2.2 hbackslash

theorem slash_not_mem_packageName : '/' ∉ settings.packageName.toList := by
  intro hmem
  obtain ⟨piece, hpiece, hslash⟩ :
      ∃ piece ∈ Text.pieces (· == '.') settings.packageName.toList, '/' ∈ piece :=
    Text.exists_mem_pieces hmem (by decide)
  exact (of_mem_pieces hpackage hpiece).2.1 hslash

/-- The package as a path starts with a name. -/
theorem isAbsolute_package :
    Path.isAbsolute (settings.modelPackage.map fun c => if c = '.' then '/' else c) = false := by
  rw [Path.isAbsolute, decide_eq_false_iff_not, String.toList_map, modelPackage,
    String.toList_append]
  cases hlist : settings.packageName.toList with
  | nil =>
    have hempty := (of_mem_pieces hpackage (by rw [hlist]; exact List.mem_singleton_self [])).1
    exact absurd rfl hempty
  | cons c rest =>
    show some (if c = '.' then '/' else c) ≠ some '/'
    rw [Ne, Option.some.injEq]
    split
    · rename_i hdot
      subst hdot
      have hempty := (of_mem_pieces hpackage (by rw [hlist]; exact List.mem_cons_self)).1
      exact absurd rfl hempty
    · rintro rfl
      exact slash_not_mem_packageName hpackage (hlist ▸ List.mem_cons_self)

/-- The package as a path leads through its segments. -/
theorem names_package :
    Path.names (settings.modelPackage.map fun c => if c = '.' then '/' else c).toList =
      settings.segments ++ ["model"] := by
  have hlist : (settings.modelPackage.map fun c => if c = '.' then '/' else c).toList =
      (settings.packageName.toList.map fun c => if c = '.' then '/' else c) ++
        '/' :: "model".toList := by
    rw [String.toList_map, modelPackage, String.toList_append, List.map_append]
    rfl
  have hsegments : Path.names (settings.packageName.toList.map fun c =>
      if c = '.' then '/' else c) = settings.segments := by
    rw [Path.names, Text.pieces_map_slash (slash_not_mem_packageName hpackage), segments, Text.split,
      List.filter_eq_self]
    intro segment hmem
    obtain ⟨piece, hpiece, rfl⟩ := List.mem_map.mp hmem
    have hne := mt String.ofList_eq_empty_iff.mp (of_mem_pieces hpackage hpiece).1
    rw [String.isEmpty_eq_false_iff.mpr hne]
    rfl
  have hmodel : Path.names "model".toList = ["model"] := by decide +kernel
  rw [hlist, Path.names_append_cons, hsegments, hmodel]

end Settings

end SmithyKotlin

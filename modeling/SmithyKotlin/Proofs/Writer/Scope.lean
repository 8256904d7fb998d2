import Mathlib.Data.List.Perm.Basic
import SmithyKotlin.Proofs.Writer.Imports

/-!
# What a name without its package means

* `resolve?`: in a Kotlin file a name without a package is that of an import, and otherwise that of a type in the
  package of the file.
* `resolve?_cases`: what that comes to for one name.
* `Unambiguous`: no two of the types that a file uses, of different packages, have the same name; each of the names
  means the type it was written for exactly then (`Emission.EmittedFor.resolves_iff_unambiguous`).

Types of Kotlin that need no import are seen only where nothing else has their name.
-/

namespace SmithyKotlin

/-! ## Scoping -/

/-- What stands behind the last point. -/
def simpleName (path : String) : String :=
  String.ofList (path.toList.reverse.takeWhile (· ≠ '.')).reverse

/-- The path of the type that a name means in a file: that of the import with this simple name, and
without one that of a type in the file's own package.  A name that several imports share means none. -/
def resolve? (package : String) (imports : List String) (name : String) : Option String :=
  match imports.filter fun path => simpleName path = name with
  | [] => some (package ++ "." ++ name)
  | [path] => some path
  | _ => none

theorem simpleName_path {type : TypeName} (hplain : '.' ∉ type.name.toList) :
    simpleName type.path = type.name := by
  have hall : ∀ c ∈ type.name.toList.reverse, decide (c ≠ '.') = true := by
    intro c hmem
    rw [decide_eq_true_eq]
    rintro rfl
    exact hplain (List.mem_reverse.mp hmem)
  have hlast : decide ('.' ≠ '.') = false := rfl
  have hreverse : type.path.toList.reverse =
      type.name.toList.reverse ++ '.' :: type.package.toList.reverse := by
    rw [TypeName.path, String.toList_append, String.toList_append, List.reverse_append,
      List.reverse_append]
    rfl
  rw [simpleName, hreverse, List.takeWhile_append_of_pos hall, List.takeWhile_cons, hlast]
  simp

/-- A name that no import has is one of the file's own package. -/
theorem resolve?_of_not_imported {package name : String} {imports : List String}
    (hnone : ∀ path ∈ imports, simpleName path ≠ name) :
    resolve? package imports name = some (package ++ "." ++ name) := by
  have hfilter : (imports.filter fun path => simpleName path = name) = [] := by
    rw [List.filter_eq_nil_iff]
    intro path hmem
    rw [decide_eq_true_eq]
    exact hnone path hmem
  rw [resolve?, hfilter]

theorem resolve?_of_imported {package name path : String} {imports : List String}
    (hnodup : imports.Nodup) (hmem : path ∈ imports) (hname : simpleName path = name)
    (hunique : ∀ other ∈ imports, simpleName other = name → other = path) :
    resolve? package imports name = some path := by
  have hfilter : (imports.filter fun path => simpleName path = name) = [path] := by
    refine List.perm_singleton.mp ?_
    rw [List.perm_ext_iff_of_nodup (hnodup.filter _) (List.nodup_singleton path)]
    intro other
    rw [List.mem_filter, decide_eq_true_eq, List.mem_singleton]
    constructor
    · intro h
      obtain ⟨hother, hsame⟩ := h
      exact hunique other hother hsame
    · rintro rfl
      exact ⟨hmem, hname⟩
  rw [resolve?, hfilter]

/-- A name means a type of the file's package or an imported one. -/
theorem resolve?_cases {package name path : String} {imports : List String}
    (h : resolve? package imports name = some path) :
    path = package ++ "." ++ name ∨ path ∈ imports := by
  rw [resolve?] at h
  split at h
  · cases h
    exact .inl rfl
  · rename_i found hfilter
    cases h
    have hmem : path ∈ imports.filter fun path => simpleName path = name := by
      rw [hfilter]
      exact List.mem_singleton_self path
    exact .inr (List.mem_of_mem_filter hmem)
  · cases h

/-! ## Names without ambiguity -/

/-- No two of the types have the same name in different packages. -/
def Unambiguous (types : List TypeName) : Prop :=
  ∀ a ∈ types, ∀ b ∈ types, a.name = b.name → a.package = b.package

instance (types : List TypeName) : Decidable (Unambiguous types) :=
  inferInstanceAs (Decidable (∀ a ∈ types, ∀ b ∈ types, a.name = b.name → a.package = b.package))

theorem unambiguous_congr {xs ys : List TypeName} (h : ∀ type, type ∈ xs ↔ type ∈ ys) :
    Unambiguous xs ↔ Unambiguous ys := by
  simp only [Unambiguous, h]

theorem Unambiguous.eq {types : List TypeName} (h : Unambiguous types) {a b : TypeName}
    (ha : a ∈ types) (hb : b ∈ types) (hname : a.name = b.name) : a = b := by
  have hpackage := h a ha b hb hname
  obtain ⟨package, name⟩ := a
  cases hpackage
  cases hname
  rfl

/-- Where just the types of other packages are imported, every name means its type exactly when the
names are unambiguous. -/
theorem resolve?_eq_path_iff {package : String} {types : List TypeName} {imports : List String}
    (hnodup : imports.Nodup)
    (himports : ∀ path, path ∈ imports ↔ ∃ type ∈ types, type.package ≠ package ∧ path = type.path)
    (hplain : ∀ type ∈ types, type.package ≠ package → '.' ∉ type.name.toList) :
    (∀ type ∈ types, resolve? package imports type.name = some type.path) ↔ Unambiguous types := by
  constructor
  · intro hresolve a ha b hb hname
    have hpath : a.path = b.path := by
      have hsame := hresolve a ha
      rw [hname, hresolve b hb, Option.some.injEq] at hsame
      exact hsame.symm
    rw [TypeName.eq_of_path_eq hname hpath]
  · intro hunambiguous type htype
    -- the import of a name is the one of the only type with that name
    have honly : ∀ path ∈ imports, simpleName path = type.name →
        type.package ≠ package ∧ path = type.path := by
      intro path hpath hsimple
      obtain ⟨other, hother, hpackage, rfl⟩ := (himports path).mp hpath
      rw [simpleName_path (hplain other hother hpackage)] at hsimple
      obtain rfl := hunambiguous.eq hother htype hsimple
      exact ⟨hpackage, rfl⟩
    by_cases hpackage : type.package = package
    · have hnone : ∀ path ∈ imports, simpleName path ≠ type.name := by
        intro path hpath hsimple
        exact (honly path hpath hsimple).1 hpackage
      rw [resolve?_of_not_imported hnone, TypeName.path, hpackage]
    · refine resolve?_of_imported hnodup ?_ (simpleName_path (hplain type htype hpackage)) ?_
      · exact (himports _).mpr ⟨type, htype, hpackage, rfl⟩
      · intro other hother hsimple
        exact (honly other hother hsimple).2

end SmithyKotlin

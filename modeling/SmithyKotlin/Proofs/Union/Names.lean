import Mathlib.Data.List.Pairwise
import SmithyKotlin.Union.Basic

/-!
# Clashes among the names of variants

* `NamesClash`: the members of a union cannot all become variants when one of them takes a reserved name, as it is
  written or as a variant (`TakesReserved`), or two of them give variants whose names differ in case only.
* `checkNames_eq_ok_iff`: the check on the names finds a clash exactly then.
* `namesClash_perm`: which clash it reports depends on the order of the members, whether there is one does not.
-/

namespace SmithyKotlin.UnionDeclaration

/-- A member and a reserved name that differ in case only, before or after the member's name has
become the name of a variant. -/
def TakesReserved (unknownName member : String) : Prop :=
  ∃ reserved ∈ [unknownName, reservedName],
    Text.sameIgnoringAsciiCase member reserved = true ∨
      Text.sameIgnoringAsciiCase (Naming.pascalCase member) reserved = true

/-- Some name is reserved, or two of the names, at different places, give the same variant. -/
def NamesClash (unknownName : String) (names : List String) : Prop :=
  (∃ name ∈ names, TakesReserved unknownName name) ∨
    ∃ a b, [a, b].Sublist names ∧
      Text.sameIgnoringAsciiCase (Naming.pascalCase a) (Naming.pascalCase b) = true

theorem reservedClash?_eq_none_iff {unknownName member : String} :
    reservedClash? unknownName member = none ↔ ¬ TakesReserved unknownName member := by
  simp only [reservedClash?, List.find?_eq_none, TakesReserved, Bool.or_eq_true, not_exists, not_and]

theorem sameVariant_comm (a b : String) : sameVariant a b = sameVariant b a := by
  show (Text.asciiLower (Naming.pascalCase a) == Text.asciiLower (Naming.pascalCase b)) =
    (Text.asciiLower (Naming.pascalCase b) == Text.asciiLower (Naming.pascalCase a))
  exact BEq.comm

/-- The names have no clash when none of them is reserved and no two of them give one variant. -/
theorem not_namesClash_iff {unknownName : String} {names : List String} :
    ¬ NamesClash unknownName names ↔
      (∀ name ∈ names, ¬ TakesReserved unknownName name) ∧
        names.Pairwise fun a b => sameVariant a b = false := by
  rw [NamesClash, not_or, List.pairwise_iff_forall_sublist]
  simp only [not_exists, not_and, Bool.not_eq_true, sameVariant]

/-- A clash does not depend on the order of the names. -/
theorem namesClash_perm {unknownName : String} {xs ys : List String} (h : xs.Perm ys) :
    NamesClash unknownName xs ↔ NamesClash unknownName ys := by
  rw [← not_iff_not, not_namesClash_iff, not_namesClash_iff]
  refine and_congr ?_ (h.pairwise_iff fun {a b} hab => ?_)
  · simp only [h.mem_iff]
  · rw [sameVariant_comm]
    exact hab

/-! ## The check -/

/-- Going through the names finds nothing when they clash neither among themselves nor with the names
that came before. -/
theorem nameClash?_eq_none_iff {id : ShapeId} {unknownName : String} {seen names : List String} :
    nameClash? id unknownName seen names = none ↔
      (∀ name ∈ names, ¬ TakesReserved unknownName name) ∧
        (names.Pairwise fun a b => sameVariant a b = false) ∧
        ∀ name ∈ names, ∀ earlier ∈ seen, sameVariant name earlier = false := by
  induction names generalizing seen with
  | nil => simp [nameClash?]
  | cons name rest ih =>
    rw [nameClash?]
    cases hreserved : reservedClash? unknownName name with
    | some reserved =>
      have htakes : TakesReserved unknownName name := by
        by_contra hnot
        rw [reservedClash?_eq_none_iff.mpr hnot] at hreserved
        cases hreserved
      constructor
      · intro h
        cases h
      · intro h
        obtain ⟨hnone, _⟩ := h
        exact absurd htakes (hnone name List.mem_cons_self)
    | none =>
      have hnot := reservedClash?_eq_none_iff.mp hreserved
      cases hearlier : seen.find? (sameVariant name) with
      | some earlier =>
        have hsame := List.find?_some hearlier
        have hmem := List.mem_of_find?_eq_some hearlier
        constructor
        · intro h
          cases h
        · intro h
          obtain ⟨_, _, hseen⟩ := h
          rw [hseen name List.mem_cons_self earlier hmem] at hsame
          cases hsame
      | none =>
        have hfresh : ∀ earlier ∈ seen, sameVariant name earlier = false := by
          intro earlier hmem
          exact Bool.eq_false_iff.mpr (List.find?_eq_none.mp hearlier earlier hmem)
        dsimp only
        rw [ih, List.pairwise_cons]
        constructor
        · intro h
          obtain ⟨hrest, hpairs, hseen⟩ := h
          refine ⟨List.forall_mem_cons.mpr ⟨hnot, hrest⟩, ⟨fun other hother => ?_, hpairs⟩,
            List.forall_mem_cons.mpr ⟨hfresh, fun other hother earlier hmem => ?_⟩⟩
          · rw [sameVariant_comm]
            exact hseen other hother name List.mem_cons_self
          · exact hseen other hother earlier (List.mem_cons_of_mem _ hmem)
        · intro h
          obtain ⟨hnames, ⟨hhead, hpairs⟩, hseen⟩ := h
          refine ⟨(List.forall_mem_cons.mp hnames).2, hpairs, fun other hother earlier hmem => ?_⟩
          rcases List.mem_cons.mp hmem with rfl | hmem
          · rw [sameVariant_comm]
            exact hhead other hother
          · exact (List.forall_mem_cons.mp hseen).2 other hother earlier hmem

/-- What the check finds is a violated invariant of the shape it was made for. -/
theorem nameClash?_eq_some {id : ShapeId} {unknownName : String} {seen names : List String}
    {error : CodegenError} (h : nameClash? id unknownName seen names = some error) :
    error.kind = .invariantViolation ∧ error.shape? = some id := by
  induction names generalizing seen with
  | nil => cases h
  | cons name rest ih =>
    rw [nameClash?] at h
    split at h
    · cases h
      exact ⟨rfl, rfl⟩
    · split at h
      · cases h
        exact ⟨rfl, rfl⟩
      · exact ih h

theorem checkNames_eq_ok_iff {id : ShapeId} {unknownName : String} {members : List Member} :
    checkNames id unknownName members = .ok () ↔
      ¬ NamesClash unknownName (members.map (·.name)) := by
  have hnone : nameClash? id unknownName [] (members.map (·.name)) = none ↔
      ¬ NamesClash unknownName (members.map (·.name)) := by
    rw [nameClash?_eq_none_iff, not_namesClash_iff]
    simp
  rw [← hnone, checkNames]
  cases nameClash? id unknownName [] (members.map (·.name)) <;> simp

theorem checkNames_eq_error {id : ShapeId} {unknownName : String} {members : List Member}
    {error : CodegenError} (h : checkNames id unknownName members = .error error) :
    error.kind = .invariantViolation ∧ error.shape? = some id := by
  rw [checkNames] at h
  cases hclash : nameClash? id unknownName [] (members.map (·.name)) with
  | none =>
    rw [hclash] at h
    cases h
  | some found =>
    rw [hclash] at h
    cases h
    exact nameClash?_eq_some hclash

end SmithyKotlin.UnionDeclaration

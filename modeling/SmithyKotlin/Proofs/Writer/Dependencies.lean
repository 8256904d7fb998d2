import Mathlib.Data.List.Nodup
import Mathlib.Data.String.Basic
import SmithyKotlin.Writer.Basic

/-!
# The dependencies of what was written

* `Writer.mem_dependencies_run`: a writer collects the dependencies of all symbols that are referred to, in the
  short form or with the package (`mentioned`).
* `Writer.strict_dependencies_run`: its list is in strict order.
* `Dependency.Strict.ext`: so it is known from what is in it.
-/

namespace SmithyKotlin

variable {d : Dependency}

/-! ## Sorted lists -/

namespace Dependency

variable {sorted : List Dependency}

theorem before_iff {a b : Dependency} :
    a.before b = true ↔
      a.artifact < b.artifact ∨ a.artifact = b.artifact ∧ a.version < b.version := by
  rw [before, Bool.or_eq_true, Bool.and_eq_true, decide_eq_true_eq, decide_eq_true_eq,
    decide_eq_true_eq]

theorem before_trans {a b c : Dependency} (hab : a.before b = true) (hbc : b.before c = true) :
    a.before c = true := by
  rw [before_iff] at *
  rcases hab with hab | ⟨hab, hversion⟩
  · rcases hbc with hbc | ⟨hbc, _⟩
    · exact .inl (String.lt_trans hab hbc)
    · exact .inl (hbc ▸ hab)
  · rcases hbc with hbc | ⟨hbc, hversion'⟩
    · exact .inl (hab ▸ hbc)
    · exact .inr ⟨hab.trans hbc, String.lt_trans hversion hversion'⟩

theorem before_of_not_before {a b : Dependency} (hne : a ≠ b) (h : ¬ a.before b = true) :
    b.before a = true := by
  rw [before_iff] at *
  rw [not_or, not_and] at h
  rcases lt_trichotomy b.artifact a.artifact with hlt | heq | hgt
  · exact .inl hlt
  · refine .inr ⟨heq, lt_of_le_of_ne (not_lt.mp (h.2 heq.symm)) fun hversion => hne ?_⟩
    cases a
    cases b
    congr
    · exact heq.symm
    · exact hversion.symm
  · exact absurd hgt h.1

/-- A list in strict order, which has nothing twice. -/
def Strict (sorted : List Dependency) : Prop := sorted.Pairwise fun a b => a.before b = true

theorem Strict.insertSorted (h : Strict sorted) (dependency : Dependency) :
    Strict (dependency.insertSorted sorted) := by
  induction sorted with
  | nil => exact List.pairwise_singleton _ _
  | cons e rest ih =>
    obtain ⟨hfirst, hrest⟩ := List.pairwise_cons.mp h
    rw [Dependency.insertSorted]
    split
    · rename_i hbefore
      refine List.pairwise_cons.mpr ⟨List.forall_mem_cons.mpr ⟨hbefore, fun other hother => ?_⟩, h⟩
      exact before_trans hbefore (hfirst other hother)
    · rename_i hbefore
      split
      · exact h
      · rename_i hne
        refine List.pairwise_cons.mpr ⟨fun other hother => ?_, ih hrest⟩
        rcases mem_insertSorted.mp hother with rfl | hother
        · exact before_of_not_before hne hbefore
        · exact hfirst other hother

theorem Strict.insertAll (h : Strict sorted) (added : List Dependency) :
    Strict (Dependency.insertAll sorted added) := by
  induction added generalizing sorted with
  | nil => exact h
  | cons dependency rest ih => exact ih (h.insertSorted dependency)

theorem not_before_self (dependency : Dependency) : ¬ dependency.before dependency = true := by
  rw [before_iff]
  rintro (h | ⟨_, h⟩) <;> exact String.lt_irrefl _ h

/-- A strict list of one thing at most. -/
theorem Strict.eq_of_mem_iff {there : Prop} (h : Strict sorted)
    (hmem : ∀ other, other ∈ sorted ↔ there ∧ other = d) :
    (there → sorted = [d]) ∧ (¬ there → sorted = []) := by
  refine ⟨fun hthere => ?_, fun hthere => ?_⟩
  · cases sorted with
    | nil => exact absurd ((hmem d).mpr ⟨hthere, rfl⟩) List.not_mem_nil
    | cons first rest =>
      obtain ⟨_, rfl⟩ := (hmem first).mp List.mem_cons_self
      cases rest with
      | nil => rfl
      | cons second others =>
        obtain ⟨_, rfl⟩ := (hmem second).mp (List.mem_cons_of_mem _ List.mem_cons_self)
        exact absurd (List.rel_of_pairwise_cons h List.mem_cons_self) (not_before_self _)
  · exact List.eq_nil_iff_forall_not_mem.mpr fun other hother => hthere ((hmem other).mp hother).1

/-- Strict lists with the same things in them are the same. -/
theorem Strict.ext {other : List Dependency} (h : Strict sorted) (hother : Strict other)
    (hmem : ∀ d, d ∈ sorted ↔ d ∈ other) : sorted = other := by
  refine List.Perm.eq_of_pairwise (fun a b _ _ hab hba => ?_) h hother ?_
  · exact absurd (before_trans hab hba) (not_before_self a)
  · have hnodup {list : List Dependency} (hlist : Strict list) : list.Nodup := by
      refine List.Pairwise.imp ?_ hlist
      rintro a b hbefore rfl
      exact not_before_self a hbefore
    exact (List.perm_ext_iff_of_nodup (hnodup h) (hnodup hother)).mpr hmem

end Dependency

/-! ## What instructions refer to -/

/-- The symbol that an instruction refers to, in its short form or with its package. -/
def Instruction.symbol? : Instruction → Option Symbol
  | reference symbol => some symbol
  | qualifiedReference symbol => some symbol
  | _ => none

/-- The symbols that are written in either form. -/
def mentioned (instructions : List Instruction) : List Symbol :=
  instructions.filterMap Instruction.symbol?

namespace Writer

theorem mem_dependencies_step {writer : Writer} {instruction : Instruction} :
    d ∈ (writer.step instruction).dependencies ↔ d ∈ writer.dependencies ∨
      ∃ symbol, instruction.symbol? = some symbol ∧ d ∈ symbol.dependencies := by
  cases instruction with
  | reference symbol =>
    have himport : ((writer.addDependencies symbol).addImport symbol).dependencies =
        (writer.addDependencies symbol).dependencies := by
      rw [addImport]
      split <;> rfl
    rw [step, himport, mem_dependencies_addDependencies]
    simp [Instruction.symbol?]
  | qualifiedReference symbol =>
    rw [step, mem_dependencies_addDependencies]
    simp [Instruction.symbol?]
  | _ => simp [step, addText, addLines, Instruction.symbol?]

/-- What a run of instructions adds are the dependencies of the symbols that it mentions. -/
theorem mem_dependencies_run {writer : Writer} {instructions : List Instruction} :
    d ∈ (writer.run instructions).dependencies ↔ d ∈ writer.dependencies ∨
      ∃ symbol ∈ mentioned instructions, d ∈ symbol.dependencies := by
  induction instructions generalizing writer with
  | nil => simp [run_nil, mentioned]
  | cons instruction rest ih =>
    rw [run_cons, ih, mem_dependencies_step]
    cases hsymbol : instruction.symbol? with
    | none => simp [mentioned, hsymbol]
    | some symbol => simp [mentioned, hsymbol, or_assoc]

theorem strict_dependencies_step {writer : Writer} (h : Dependency.Strict writer.dependencies)
    (instruction : Instruction) : Dependency.Strict (writer.step instruction).dependencies := by
  have hadded (symbol : Symbol) : Dependency.Strict (writer.addDependencies symbol).dependencies :=
    h.insertAll symbol.dependencies
  cases instruction with
  | reference symbol =>
    rw [step, addImport]
    split
    · exact hadded symbol
    · exact hadded symbol
  | qualifiedReference symbol => exact hadded symbol
  | _ => exact h

/-- No run of instructions puts the dependencies out of order. -/
theorem strict_dependencies_run {writer : Writer} (h : Dependency.Strict writer.dependencies)
    (instructions : List Instruction) : Dependency.Strict (writer.run instructions).dependencies := by
  induction instructions generalizing writer with
  | nil => exact h
  | cons instruction rest ih => exact ih (strict_dependencies_step h instruction)

end Writer

end SmithyKotlin

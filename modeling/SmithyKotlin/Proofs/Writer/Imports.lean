import SmithyKotlin.Proofs.Collections.SortedMap
import SmithyKotlin.Proofs.Symbol.TypeName

/-!
# The imports of what was written

`mem_imports_iff`: a writer imports what references in the short form need and nothing else, so every symbol outside
the package of the file that is not a builtin.  The order of the instructions does not show
(`Writer.mem_importPaths_run_iff`), nor do references with the package.
-/

namespace SmithyKotlin

/-- The symbol that an instruction writes in its short form. -/
def Instruction.reference? : Instruction → Option Symbol
  | reference symbol => some symbol
  | _ => none

/-- The symbols that are written in their short form. -/
def references (instructions : List Instruction) : List Symbol :=
  instructions.filterMap Instruction.reference?

theorem mem_references_iff {instructions : List Instruction} {symbol : Symbol} :
    symbol ∈ references instructions ↔ .reference symbol ∈ instructions := by
  rw [references, List.mem_filterMap]
  constructor
  · intro h
    obtain ⟨instruction, hmem, h⟩ := h
    cases instruction <;> cases h
    exact hmem
  · intro hmem
    exact ⟨_, hmem, rfl⟩

namespace Writer

theorem importOf?_eq_some_iff {writer : Writer} {symbol : Symbol} {path : String} :
    writer.importOf? symbol = some path ↔
      symbol.isBuiltin = false ∧ symbol.package ≠ writer.package ∧ path = symbol.typeName.path := by
  show (if (symbol.isBuiltin || symbol.package = writer.package) = true then none
    else symbol.importPath?) = some path ↔ _
  by_cases hskip : (symbol.isBuiltin || symbol.package = writer.package) = true
  · rw [if_pos hskip]
    rw [Bool.or_eq_true, decide_eq_true_eq] at hskip
    constructor
    · intro h
      cases h
    · intro h
      obtain ⟨hbuiltin, hpackage, _⟩ := h
      rcases hskip with h | h
      · rw [hbuiltin] at h
        cases h
      · exact absurd h hpackage
  · rw [if_neg hskip]
    rw [Bool.or_eq_true, not_or, decide_eq_true_eq, Bool.not_eq_true] at hskip
    have hempty : symbol.package.isEmpty = false := by
      have hbuiltin := hskip.1
      rw [Symbol.isBuiltin, Bool.or_eq_false_iff] at hbuiltin
      exact hbuiltin.1
    rw [Symbol.importPath?, hempty, and_iff_right hskip.1, and_iff_right hskip.2]
    rw [if_neg Bool.false_ne_true, Option.some.injEq, eq_comm]
    rfl

theorem mem_importPaths_step_iff {writer : Writer} {instruction : Instruction} {path : String} :
    path ∈ (writer.step instruction).importPaths ↔ path ∈ writer.importPaths ∨
      ∃ symbol, instruction = .reference symbol ∧ writer.importOf? symbol = some path := by
  cases instruction with
  | reference symbol =>
    have himports : (writer.addDependencies symbol).importOf? symbol = writer.importOf? symbol :=
      rfl
    rw [step, addImport, himports, importPaths, importPaths]
    simp only [Instruction.reference.injEq, exists_eq_left']
    cases himport : writer.importOf? symbol with
    | none => simp [addDependencies]
    | some found =>
      simp only [SortedMap.mem_keys_iff, SortedMap.get?_insert, addDependencies, Option.some.injEq]
      by_cases hpath : found = path
      · simp [hpath]
      · simp [hpath]
  | _ => simp [step, addText, addLines, addDependencies, importPaths]

theorem mem_importPaths_run_iff {writer : Writer} {instructions : List Instruction}
    {path : String} :
    path ∈ (writer.run instructions).importPaths ↔ path ∈ writer.importPaths ∨
      ∃ symbol ∈ references instructions, writer.importOf? symbol = some path := by
  induction instructions generalizing writer with
  | nil => simp [references, run_nil]
  | cons instruction rest ih =>
    have himport (symbol : Symbol) :
        (writer.step instruction).importOf? symbol = writer.importOf? symbol := by
      rw [importOf?, importOf?, package_step]
    rw [run_cons, ih, mem_importPaths_step_iff]
    simp only [himport, mem_references_iff, List.mem_cons]
    constructor
    · intro h
      rcases h with (h | ⟨symbol, rfl, h⟩) | ⟨symbol, hmem, h⟩
      · exact .inl h
      · exact .inr ⟨symbol, .inl rfl, h⟩
      · exact .inr ⟨symbol, .inr hmem, h⟩
    · intro h
      rcases h with h | ⟨symbol, hmem | hmem, h⟩
      · exact .inl (.inl h)
      · exact .inl (.inr ⟨symbol, hmem.symm, h⟩)
      · exact .inr ⟨symbol, hmem, h⟩

end Writer

/-- The imports of a file that starts empty. -/
theorem mem_imports_iff {package : String} {instructions : List Instruction} {path : String} :
    path ∈ (({ package } : Writer).run instructions).importPaths ↔
      ∃ symbol ∈ references instructions, symbol.isBuiltin = false ∧ symbol.package ≠ package ∧
        path = symbol.typeName.path := by
  rw [Writer.mem_importPaths_run_iff]
  simp only [Writer.importOf?_eq_some_iff]
  exact or_iff_right List.not_mem_nil

end SmithyKotlin

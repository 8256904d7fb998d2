import SmithyKotlin.Proofs.Collections.SortedMap
import SmithyKotlin.Proofs.Writer.Dependencies
import SmithyKotlin.Proofs.Writer.Imports
import SmithyKotlin.Structure.Emission
import SmithyKotlin.Union.Emission

/-!
# Nested blocks

* `WellNested`: instructions that close what they open.  A writer never goes below its left margin, so only for
  these nothing is lost.
* `Braced`: what is put together of lines and whole blocks; `UnionDeclaration.braced_emit` and
  `StructureDeclaration.braced_emit` go through the emitters once, and `Braced.wellNested` has the rest.
* `Writer.Follows`: a writer inside of blocks keeps up with a fresh one, each line that is not empty further to the
  right; one instruction keeps this (`Writer.Follows.step`), so a run does (`Writer.Follows.run`).
* `run_wellNested` has what both leave behind (`Writer.RunsShifted`).
-/

namespace SmithyKotlin

/-! ## Open blocks -/

/-- How many blocks are open behind an instruction; a block can be closed only when one is open. -/
def Instruction.opened? (instruction : Instruction) (opened : Nat) : Option Nat :=
  match instruction, opened with
  | openBlock _, _ => some (opened + 1)
  | closeBlock _, 0 => none
  | closeBlock _, outer + 1 => some outer
  | _, _ => some opened

/-- How many blocks are open behind all instructions. -/
def opened? (opened : Nat) : List Instruction → Option Nat
  | [] => some opened
  | instruction :: rest => (instruction.opened? opened).bind fun behind => opened? behind rest

/-- Every block that is closed was opened before, and every block that is opened is closed. -/
def WellNested (instructions : List Instruction) : Prop := opened? 0 instructions = some 0

instance : DecidablePred WellNested := fun instructions =>
  inferInstanceAs (Decidable (opened? 0 instructions = some 0))

theorem opened?_append (first second : List Instruction) (opened : Nat) :
    opened? opened (first ++ second) = (opened? opened first).bind fun behind => opened? behind second := by
  induction first generalizing opened with
  | nil => rfl
  | cons instruction rest ih =>
    rw [List.cons_append, opened?, opened?]
    cases instruction.opened? opened with
    | none => rfl
    | some behind => simp only [Option.bind_some, ih]

theorem Instruction.opened?_add {instruction : Instruction} {opened behind : Nat}
    (h : instruction.opened? opened = some behind) (outer : Nat) :
    instruction.opened? (outer + opened) = some (outer + behind) := by
  cases instruction with
  | closeBlock footer =>
    cases opened with
    | zero => cases h
    | succ inner =>
      cases h
      rfl
  | _ =>
    cases h
    rfl

/-- Blocks that are open around the instructions stay open. -/
theorem opened?_add {instructions : List Instruction} {opened behind : Nat}
    (h : opened? opened instructions = some behind) (outer : Nat) :
    opened? (outer + opened) instructions = some (outer + behind) := by
  induction instructions generalizing opened with
  | nil =>
    cases h
    rfl
  | cons instruction rest ih =>
    obtain ⟨next, hnext, hrest⟩ := Option.bind_eq_some_iff.mp h
    simp only [opened?, Instruction.opened?_add hnext, Option.bind_some, ih hrest]

namespace WellNested

theorem opened?_eq {instructions : List Instruction} (h : WellNested instructions) (opened : Nat) :
    opened? opened instructions = some opened := opened?_add h opened

theorem nil : WellNested [] := rfl

theorem append {first second : List Instruction} (hfirst : WellNested first) (hsecond : WellNested second) :
    WellNested (first ++ second) := by
  rw [WellNested, opened?_append, hfirst.opened?_eq, Option.bind_some, hsecond]

theorem block {body : List Instruction} (hbody : WellNested body) (header footer : String) :
    WellNested (block header footer body) := by
  show opened? 1 (body ++ [.closeBlock footer]) = some 0
  rw [opened?_append, hbody.opened?_eq, Option.bind_some]
  rfl

theorem cons {instruction : Instruction} (hplain : instruction.opened? 0 = some 0) {rest : List Instruction}
    (hrest : WellNested rest) : WellNested (instruction :: rest) := by
  rw [WellNested, SmithyKotlin.opened?, hplain, Option.bind_some, hrest]

end WellNested

/-! ## Blocks in braces -/

/-- Instructions of which some are whole blocks, each closed by a line with one brace, and no other opens or closes
any. -/
inductive Braced : List Instruction → Prop where
  | nil : Braced []
  | cons {instruction : Instruction} {rest : List Instruction} (hplain : instruction.opened? 0 = some 0)
      (hrest : Braced rest) : Braced (instruction :: rest)
  | blockThen (header : String) {body rest : List Instruction} (hbody : Braced body) (hrest : Braced rest) :
      Braced (block header "\x7d" body ++ rest)

namespace Braced

theorem append {first second : List Instruction} (hfirst : Braced first) (hsecond : Braced second) :
    Braced (first ++ second) := by
  induction hfirst with
  | nil => exact hsecond
  | cons hplain _ ih => exact .cons hplain ih
  | blockThen header hbody _ _ ih =>
    rw [List.append_assoc]
    exact .blockThen header hbody ih

theorem block {body : List Instruction} (hbody : Braced body) (header : String) :
    Braced (block header "\x7d" body) := by
  have h := Braced.blockThen header hbody .nil
  rwa [List.append_nil] at h

theorem flatMap {α : Type} {f : α → List Instruction} (hf : ∀ x, Braced (f x)) (xs : List α) :
    Braced (xs.flatMap f) := by
  induction xs with
  | nil => exact .nil
  | cons x rest ih =>
    rw [List.flatMap_cons]
    exact (hf x).append ih

theorem map {α : Type} {f : α → Instruction} (hf : ∀ x, (f x).opened? 0 = some 0) (xs : List α) :
    Braced (xs.map f) := by
  induction xs with
  | nil => exact .nil
  | cons x rest ih => exact .cons (hf x) ih

theorem wellNested {instructions : List Instruction} (h : Braced instructions) : WellNested instructions := by
  induction h with
  | nil => exact .nil
  | cons hplain _ ih => exact .cons hplain ih
  | blockThen header _ _ ihbody ihrest => exact (ihbody.block header _).append ihrest

/-- No line but a brace closes a block. -/
theorem eq_of_mem_closeBlock {instructions : List Instruction} (h : Braced instructions) {footer : String}
    (hmem : .closeBlock footer ∈ instructions) : footer = "\x7d" := by
  induction h with
  | nil => cases hmem
  | cons hplain _ ih =>
    rcases List.mem_cons.mp hmem with rfl | hmem
    · cases hplain
    · exact ih hmem
  | blockThen header _ _ ihbody ihrest =>
    rw [SmithyKotlin.block, List.mem_append, List.mem_append, List.mem_cons, List.mem_singleton] at hmem
    obtain ((hhead | hbody) | hfooter) | hrest := hmem
    · cases hhead
    · exact ihbody hbody
    · exact Instruction.closeBlock.inj hfooter
    · exact ihrest hrest

end Braced

/-! ## Declarations -/

theorem braced_emitDocumentation (documentation deprecated : Option String) :
    Braced (emitDocumentation documentation deprecated) := by
  refine Braced.append ?_ ?_
  · cases documentation with
    | none => exact .nil
    | some text =>
      rw [documentationComment]
      split
      · exact .nil
      · exact .cons rfl .nil
  · cases deprecated with
    | none => exact .nil
    | some message => exact .cons rfl .nil

namespace UnionDeclaration

theorem opened?_valueReference (shadowed : List String) (symbol : Symbol) (opened : Nat) :
    (valueReference shadowed symbol).instruction.opened? opened = some opened := by
  rw [valueReference]
  split <;> rfl

theorem braced_emitEquality (variant : Variant) : Braced (emitEquality variant) := by
  have hhash (line : String) : Braced [.write line] := .cons rfl .nil
  have hequals (cast result : String) : Braced
      [.write "if (this === other) return true",
       .write "if (other == null || this::class != other::class) return false",
       .blank, .write cast, .blank, .write result] :=
    .cons rfl (.cons rfl (.cons rfl (.cons rfl (.cons rfl (.cons rfl .nil)))))
  exact ((hhash _).block _).append (.cons rfl ((hequals _ _).block _))

theorem braced_emitVariant (unionName : String) (shadowed : List String) (variant : Variant) :
    Braced (emitVariant unionName shadowed variant) := by
  refine (braced_emitDocumentation _ _).append (.cons (opened?_valueReference _ _ _) ?_)
  split
  · exact (braced_emitEquality variant).block _
  · exact .cons rfl .nil

theorem braced_emitAccessors (unionName : String) (shadowed : List String) (variant : Variant) :
    Braced (emitAccessors unionName shadowed variant) := by
  refine .cons (opened?_valueReference _ _ _) (.cons (opened?_valueReference _ _ _) ?_)
  exact .cons rfl (.cons rfl (.cons rfl (.cons rfl (.cons rfl .nil))))

theorem braced_emit (declaration : UnionDeclaration) : Braced declaration.emit := by
  have hunknown : Braced (emitUnknown declaration.symbol.qualifiedName declaration.unknownName) :=
    .cons rfl (.cons rfl .nil)
  have hbody : Braced declaration.emitBody := by
    refine ((Braced.flatMap ?_ _).append hunknown).append (.flatMap ?_ _)
    · intro variant
      exact (braced_emitVariant _ _ variant).append (.cons rfl .nil)
    · intro variant
      exact .cons rfl (braced_emitAccessors _ _ variant)
  exact (braced_emitDocumentation _ _).append (hbody.block _)

end UnionDeclaration

namespace StructureDeclaration

theorem braced_emitAppends (properties : List Property) : Braced (emitAppends properties) := by
  induction properties with
  | nil => exact .nil
  | cons property rest ih =>
    cases rest with
    | nil => exact .cons rfl .nil
    | cons next others => exact .cons rfl ih

theorem braced_emitToString (declaration : StructureDeclaration) : Braced declaration.emitToString := by
  rw [emitToString]
  split
  · exact .cons rfl .nil
  · exact (Braced.append (.cons rfl (braced_emitAppends _)) (.cons rfl .nil)).block _

theorem braced_emitHashCode (declaration : StructureDeclaration) : Braced declaration.emitHashCode := by
  rw [emitHashCode]
  split
  · exact .cons rfl .nil
  · exact (Braced.append (.cons rfl (.map (fun _ => rfl) _)) (.cons rfl .nil)).block _

theorem braced_emitEquals (declaration : StructureDeclaration) : Braced declaration.emitEquals := by
  have hcomparisons : Braced declaration.emitComparisons := by
    rw [emitComparisons]
    split
    · exact .nil
    · exact .cons rfl (.cons rfl (.cons rfl (.map (fun _ => rfl) _)))
  have hreturn : Braced [.blank, .write "return true"] := .cons rfl (.cons rfl .nil)
  exact (Braced.cons rfl (.cons rfl (hcomparisons.append hreturn))).block _

theorem braced_emit (declaration : StructureDeclaration) : Braced declaration.emit := by
  have hbody : Braced
      (declaration.emitToString ++ .blank :: declaration.emitHashCode ++ .blank :: declaration.emitEquals) :=
    ((braced_emitToString declaration).append (.cons rfl (braced_emitHashCode declaration))).append
      (.cons rfl (braced_emitEquals declaration))
  exact ((braced_emitDocumentation _ _).append (.map (fun _ => rfl) _)).append (hbody.block _)

end StructureDeclaration

/-! ## Runs inside of blocks -/

namespace Writer

/-- The line with spaces in front, unless it is empty. -/
def shifted (columns : Nat) (line : String) : String :=
  if line = "" then "" else String.ofList (List.replicate columns ' ') ++ line

/-- A line inside of further blocks is moved to the right by four columns for each of them. -/
theorem indent_add (outer inner : Nat) (line : String) :
    indent (outer + inner) line = shifted (4 * outer) (indent inner line) := by
  by_cases hempty : line = ""
  · subst hempty
    rfl
  · have hline : line.isEmpty = false := by simpa using hempty
    have hspaces (depth : Nat) : indent depth line = String.ofList (List.replicate (4 * depth) ' ') ++ line := by
      simp only [indent, hline, Bool.false_eq_true, if_false]
    have hne : indent inner line ≠ "" := by
      rw [hspaces]
      intro h
      exact hempty (by simpa using (String.append_eq_empty_iff.mp h).2)
    rw [shifted, if_neg hne, hspaces, hspaces, Nat.mul_add, ← List.replicate_append_replicate,
      String.ofList_append, String.append_assoc]

/-- A writer for the same package before its first instruction. -/
def fresh (writer : Writer) : Writer := { package := writer.package }

/-- The texts that a run hands back, one after another. -/
def replies (writer : Writer) : List Instruction → List String
  | [] => []
  | instruction :: rest => instruction.result?.toList ++ (writer.step instruction).replies rest

theorem replies_eq (writer : Writer) (instructions : List Instruction) :
    writer.replies instructions = instructions.filterMap Instruction.result? := by
  induction instructions generalizing writer with
  | nil => rfl
  | cons instruction rest ih =>
    rw [replies, ih]
    cases hresult : instruction.result? with
    | none => simp [hresult]
    | some text => simp [hresult]

/-- The outer writer stands where the inner one does, in the blocks of the start and behind its lines. -/
structure Follows (start outer inner : Writer) : Prop where
  depth : outer.depth = start.depth + inner.depth
  lines : outer.lines = start.lines ++ inner.lines.map (shifted (4 * start.depth))

theorem Follows.addLines {start outer inner : Writer} (h : Follows start outer inner) (lines : List String) :
    Follows start (outer.addLines lines) (inner.addLines lines) := by
  have hshift : lines.map (indent (start.depth + inner.depth)) =
      (lines.map (indent inner.depth)).map (shifted (4 * start.depth)) := by
    rw [List.map_map]
    exact List.map_congr_left fun line _ => indent_add start.depth inner.depth line
  refine ⟨h.depth, ?_⟩
  simp only [Writer.addLines, h.depth, h.lines, hshift, List.map_append, List.append_assoc]

theorem lines_addImport (writer : Writer) (symbol : Symbol) :
    (writer.addImport symbol).lines = writer.lines ∧ (writer.addImport symbol).depth = writer.depth := by
  rw [addImport]
  split <;> exact ⟨rfl, rfl⟩

/-- One instruction keeps the writers together when it closes no block that was open at the start. -/
theorem Follows.step {start outer inner : Writer} (h : Follows start outer inner) {instruction : Instruction}
    {behind : Nat} (hopened : instruction.opened? inner.depth = some behind) :
    Follows start (outer.step instruction) (inner.step instruction) ∧
      (inner.step instruction).depth = behind := by
  cases instruction with
  | openBlock header =>
    have htext := h.addLines (Text.split '\n' header)
    cases hopened
    refine ⟨⟨?_, htext.lines⟩, rfl⟩
    show outer.depth + 1 = start.depth + (inner.depth + 1)
    rw [h.depth, Nat.add_assoc]
  | closeBlock footer =>
    cases hdepth : inner.depth with
    | zero =>
      rw [hdepth] at hopened
      cases hopened
    | succ further =>
      rw [hdepth] at hopened
      cases hopened
      -- there is a block to leave for the outer writer as well
      have hleft : Follows start { outer with depth := outer.depth - 1 }
          { inner with depth := inner.depth - 1 } := by
        refine ⟨?_, h.lines⟩
        show outer.depth - 1 = start.depth + (inner.depth - 1)
        rw [h.depth, hdepth]
        omega
      refine ⟨hleft.addLines (Text.split '\n' footer), ?_⟩
      show inner.depth - 1 = behind
      omega
  | write line =>
    cases hopened
    exact ⟨h.addLines _, rfl⟩
  | doc text =>
    cases hopened
    exact ⟨h.addLines _, rfl⟩
  | blank =>
    cases hopened
    refine ⟨⟨h.depth, ?_⟩, rfl⟩
    simp only [Writer.step, h.lines, List.map_append, List.append_assoc]
    rfl
  | reference symbol =>
    cases hopened
    obtain ⟨hlines, hdepth⟩ := lines_addImport (outer.addDependencies symbol) symbol
    obtain ⟨hlines', hdepth'⟩ := lines_addImport (inner.addDependencies symbol) symbol
    refine ⟨⟨?_, ?_⟩, hdepth'⟩
    · exact hdepth.trans (h.depth.trans (congrArg _ hdepth'.symm))
    · simp only [Writer.step, hlines, hlines']
      exact h.lines
  | qualifiedReference symbol =>
    cases hopened
    exact ⟨⟨h.depth, h.lines⟩, rfl⟩

/-- A run keeps the writers together as long as each of its steps does. -/
theorem Follows.run {start outer inner : Writer} (h : Follows start outer inner)
    {instructions : List Instruction} {behind : Nat} (hopened : opened? inner.depth instructions = some behind) :
    Follows start (outer.run instructions) (inner.run instructions) ∧
      (inner.run instructions).depth = behind := by
  induction instructions generalizing outer inner with
  | nil =>
    cases hopened
    exact ⟨h, rfl⟩
  | cons instruction rest ih =>
    obtain ⟨next, hnext, hrest⟩ := Option.bind_eq_some_iff.mp hopened
    obtain ⟨hstep, hdepth⟩ := h.step hnext
    rw [← hdepth] at hrest
    exact ih hstep hrest

/-! ## Records -/

theorem imports_run (writer : Writer) (instructions : List Instruction) :
    (writer.run instructions).imports = writer.imports.merge (writer.fresh.run instructions).imports := by
  have hkeys (path : String) : path ∈ (writer.run instructions).importPaths ↔
      path ∈ writer.importPaths ∨ path ∈ (writer.fresh.run instructions).importPaths := by
    rw [mem_importPaths_run_iff, mem_importPaths_run_iff]
    exact or_congr_right (or_iff_right List.not_mem_nil).symm
  exact SortedMap.ext_keys fun path => (hkeys path).trans SortedMap.mem_keys_merge.symm

theorem dependencies_run {writer : Writer} (hstrict : Dependency.Strict writer.dependencies)
    (instructions : List Instruction) :
    (writer.run instructions).dependencies =
      Dependency.insertAll writer.dependencies (writer.fresh.run instructions).dependencies := by
  refine (strict_dependencies_run hstrict instructions).ext (hstrict.insertAll _) fun d => ?_
  rw [Dependency.mem_insertAll, mem_dependencies_run, mem_dependencies_run]
  exact or_congr_right (or_iff_right List.not_mem_nil).symm

/-- A run inside of blocks does what the run of a fresh writer does, further to the right. -/
structure RunsShifted (writer : Writer) (instructions : List Instruction) : Prop where
  lines : (writer.run instructions).lines =
    writer.lines ++ (writer.fresh.run instructions).lines.map (shifted (4 * writer.depth))
  depth : (writer.run instructions).depth = writer.depth
  replies : writer.replies instructions = writer.fresh.replies instructions
  imports : (writer.run instructions).imports = writer.imports.merge (writer.fresh.run instructions).imports
  dependencies : (writer.run instructions).dependencies =
    Dependency.insertAll writer.dependencies (writer.fresh.run instructions).dependencies

theorem runsShifted_of_wellNested {writer : Writer} (hstrict : Dependency.Strict writer.dependencies)
    {instructions : List Instruction} (hnested : WellNested instructions) :
    writer.RunsShifted instructions := by
  have hstart : Follows writer writer writer.fresh := ⟨rfl, (List.append_nil _).symm⟩
  obtain ⟨hfollows, hdepth⟩ := hstart.run hnested
  refine ⟨hfollows.lines, ?_, ?_, imports_run writer instructions, dependencies_run hstrict instructions⟩
  · rw [hfollows.depth, hdepth, Nat.add_zero]
  · rw [replies_eq, replies_eq]

end Writer

/-- Well-nested instructions do the same inside of blocks as outside, and those of declarations are well nested. -/
theorem run_wellNested :
    (∀ instructions, WellNested instructions → ∀ writer : Writer, Dependency.Strict writer.dependencies →
      writer.RunsShifted instructions) ∧
    (∀ declaration : UnionDeclaration, WellNested declaration.emit) ∧
    ∀ declaration : StructureDeclaration, WellNested declaration.emit :=
  ⟨fun _ hnested _ hstrict => Writer.runsShifted_of_wellNested hstrict hnested,
    fun declaration => declaration.braced_emit.wellNested, fun declaration => declaration.braced_emit.wellNested⟩

theorem run_wellNested_inside :
    let inside : Writer := { package := "com.example", lines := ["class Outer \x7b"], depth := 2 }
    let nested := .reference { name := "Instant", package := "runtime" } ::
      block "class Inner \x7b\n// header" "\x7d\n"
        (block "init \x7b" "\x7d" [.doc "first\n\nthird", .write "a\n\nb", .blank])
    WellNested nested ∧ Dependency.Strict inside.dependencies ∧ inside.RunsShifted nested ∧
      (inside.fresh.run nested).lines =
        ["class Inner \x7b", "// header", "    init \x7b", "        /**", "         * first", "         *",
          "         * third", "         */", "        a", "", "        b", "", "    \x7d", "\x7d", ""] ∧
      (inside.run nested).importPaths = ["runtime.Instant"] := by
  intro inside nested
  have hnested : WellNested nested := by
    decide
  have hstrict : Dependency.Strict inside.dependencies := List.Pairwise.nil
  refine ⟨hnested, hstrict, run_wellNested.1 nested hnested inside hstrict, ?_, ?_⟩ <;> decide +kernel

end SmithyKotlin

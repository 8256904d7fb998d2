import SmithyKotlin.Collections.SortedMap
import SmithyKotlin.Symbol.Basic

/-!
# Writing Kotlin source

A declaration is written as a list of instructions: blocks, lines, comments and references to symbols.  A `Writer`
carries them out one after another (`Writer.step`, `Writer.run`); it keeps the lines with their indentation, and the
imports and dependencies of the symbols that were referred to.

The text of a reference is the short name of the symbol, whatever was imported before (`Symbol.referenceText`); only
a builtin is written with its package.  Whether two imports have the same short name is not asked here
(`Proofs/Rendering/Resolution`).
-/

namespace SmithyKotlin

inductive Instruction where
  /-- Writes a header and indents what follows. -/
  | openBlock (header : String)
  /-- Ends the indentation and writes a footer. -/
  | closeBlock (footer : String)
  | write (line : String)
  /-- Writes a documentation comment. -/
  | doc (text : String)
  | blank
  /-- Notes what a symbol needs that is written in its short form. -/
  | reference (symbol : Symbol)
  /-- Notes what a symbol needs that is written with its package. -/
  | qualifiedReference (symbol : Symbol)
  deriving DecidableEq, Repr

/-- Instructions between the header and the footer of a block. -/
def block (header footer : String) (body : List Instruction) : List Instruction :=
  .openBlock header :: body ++ [.closeBlock footer]

namespace Symbol

/-- Whether a symbol is always written with its package: one of Kotlin itself, whose name a generated
type may share, or one without a package. -/
def isBuiltin (symbol : Symbol) : Bool :=
  symbol.package.isEmpty || "kotlin".toList.isPrefixOf symbol.package.toList

/-- The text of a reference: the name alone, but with the package for a builtin. -/
def referenceText (symbol : Symbol) : String :=
  symbol.marked (if symbol.isBuiltin then symbol.qualifiedName else symbol.name)

end Symbol

structure Writer where
  /-- The package of the file; its types need no import. -/
  package : String
  lines : List String := []
  depth : Nat := 0
  imports : SortedMap Unit := {}
  dependencies : List Dependency := []

namespace Writer

/-! ## Lines -/

/-- A line at the given depth; an empty one stays empty. -/
def indent (depth : Nat) (line : String) : String :=
  if line.isEmpty then "" else String.ofList (List.replicate (4 * depth) ' ') ++ line

/-- A line of a comment, in which nothing ends the comment. -/
def escapeCommentEnd : List Char → List Char
  | '*' :: '/' :: rest => "*&#47;".toList ++ escapeCommentEnd rest
  | c :: rest => c :: escapeCommentEnd rest
  | [] => []

def commentLine (line : String) : String :=
  let text := String.ofList (escapeCommentEnd (Text.trimEnd line).toList)
  if text.isEmpty then " *" else " * " ++ text

/-- The lines of a documentation comment. -/
def commentLines (text : String) : List String :=
  let trimmed := Text.trim text
  let lines := if trimmed.isEmpty then [] else Text.split '\n' trimmed
  "/**" :: lines.map commentLine ++ [" */"]

def addLines (writer : Writer) (lines : List String) : Writer :=
  { writer with lines := writer.lines ++ lines.map (indent writer.depth) }

/-- Writes text, which may have several lines. -/
def addText (writer : Writer) (text : String) : Writer := writer.addLines (Text.split '\n' text)

/-! ## References -/

/-- What a reference in the short form imports. -/
def importOf? (writer : Writer) (symbol : Symbol) : Option String :=
  if symbol.isBuiltin || symbol.package = writer.package then none else symbol.importPath?

def addDependencies (writer : Writer) (symbol : Symbol) : Writer :=
  { writer with
    dependencies := Dependency.insertAll writer.dependencies symbol.dependencies }

def addImport (writer : Writer) (symbol : Symbol) : Writer :=
  match writer.importOf? symbol with
  | some path => { writer with imports := writer.imports.insert path () }
  | none => writer

/-! ## Instructions -/

def step (writer : Writer) : Instruction → Writer
  | .openBlock header =>
    let written := writer.addText header
    { written with depth := written.depth + 1 }
  | .closeBlock footer => { writer with depth := writer.depth - 1 }.addText footer
  | .write line => writer.addText line
  | .doc text => writer.addLines (commentLines text)
  | .blank => { writer with lines := writer.lines ++ [""] }
  | .reference symbol => (writer.addDependencies symbol).addImport symbol
  | .qualifiedReference symbol => writer.addDependencies symbol

def run (writer : Writer) (instructions : List Instruction) : Writer :=
  instructions.foldl step writer

/-- The source of everything written, without package and imports. -/
def body (writer : Writer) : String := "\n".intercalate writer.lines ++ "\n"

def importPaths (writer : Writer) : List String := writer.imports.keys

theorem run_nil (writer : Writer) : writer.run [] = writer := rfl

theorem run_cons (writer : Writer) (instruction : Instruction) (rest : List Instruction) :
    writer.run (instruction :: rest) = (writer.step instruction).run rest := rfl

/-- The package of a file never changes. -/
theorem package_step (writer : Writer) (instruction : Instruction) :
    (writer.step instruction).package = writer.package := by
  cases instruction <;> try rfl
  simp only [step, addImport]
  split <;> rfl

/-- Only references add dependencies. -/
theorem mem_dependencies_addDependencies {writer : Writer} {symbol : Symbol} {d : Dependency} :
    d ∈ (writer.addDependencies symbol).dependencies
      ↔ d ∈ writer.dependencies ∨ d ∈ symbol.dependencies :=
  Dependency.mem_insertAll

theorem run_append (writer : Writer) (first second : List Instruction) :
    writer.run (first ++ second) = (writer.run first).run second :=
  List.foldl_append

end Writer

/-- The text that an instruction hands back to be written into a line. -/
def Instruction.result? : Instruction → Option String
  | reference symbol => some symbol.referenceText
  | qualifiedReference symbol => some symbol.display
  | _ => none

end SmithyKotlin

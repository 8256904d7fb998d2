import SmithyKotlin.Text.Blank

/-!
# Symbols

A `Symbol` is what a shape or member is in Kotlin: a type with its package, whether it may be null, and the
artifacts that code naming it depends on (`Dependency`, kept in order and once each by `insertAll`).
`qualifiedName` is its name with the package; `display` marks that the value may be null as well.
-/

namespace SmithyKotlin

/-- An artifact of the client runtime with its version. -/
structure Dependency where
  artifact : String
  version : String
  deriving DecidableEq, Repr, Inhabited

namespace Dependency

def text (dependency : Dependency) : String := dependency.artifact ++ ":" ++ dependency.version

/-- Order by artifact, then by version. -/
def before (a b : Dependency) : Bool :=
  a.artifact < b.artifact || (a.artifact = b.artifact && a.version < b.version)

/-- Puts a dependency at its place in a sorted list that has none twice. -/
def insertSorted (dependency : Dependency) : List Dependency → List Dependency
  | [] => [dependency]
  | d :: rest =>
    if dependency.before d then dependency :: d :: rest
    else if dependency = d then d :: rest
    else d :: insertSorted dependency rest

theorem mem_insertSorted {d dependency : Dependency} {sorted : List Dependency} :
    d ∈ insertSorted dependency sorted ↔ d = dependency ∨ d ∈ sorted := by
  induction sorted with
  | nil => simp [insertSorted]
  | cons e rest ih =>
    simp only [insertSorted]
    split
    · exact List.mem_cons
    · split
      · rename_i heq
        subst heq
        simp
      · simp only [List.mem_cons, ih]
        constructor
        · rintro (h | h | h)
          · exact .inr (.inl h)
          · exact .inl h
          · exact .inr (.inr h)
        · rintro (h | h | h)
          · exact .inr (.inl h)
          · exact .inl h
          · exact .inr (.inr h)

/-- Adds dependencies to a sorted list that has none twice. -/
def insertAll (sorted : List Dependency) (added : List Dependency) : List Dependency :=
  added.foldl (fun sorted d => d.insertSorted sorted) sorted

theorem mem_insertAll {d : Dependency} {sorted added : List Dependency} :
    d ∈ insertAll sorted added ↔ d ∈ sorted ∨ d ∈ added := by
  induction added generalizing sorted with
  | nil => simp [insertAll]
  | cons e rest ih =>
    have h : insertAll sorted (e :: rest) = insertAll (e.insertSorted sorted) rest := rfl
    rw [h, ih, mem_insertSorted, List.mem_cons]
    constructor
    · rintro ((h | h) | h)
      · exact .inr (.inl h)
      · exact .inl h
      · exact .inr (.inr h)
    · rintro (h | h | h)
      · exact .inl (.inr h)
      · exact .inl (.inl h)
      · exact .inr h

end Dependency

structure Symbol where
  name : String
  package : String
  nullable : Bool := false
  boxed : Bool := false
  dependencies : List Dependency := []
  deriving DecidableEq, Repr, Inhabited

namespace Symbol

/-- The symbol of a value that may be null. -/
def asNullable (symbol : Symbol) (boxed : Bool) : Symbol :=
  { symbol with nullable := true, boxed := boxed }

/-- Adds a dependency behind the others unless it is there. -/
def dependingOn (symbol : Symbol) (dependency : Dependency) : Symbol :=
  if symbol.dependencies.contains dependency then symbol
  else { symbol with dependencies := symbol.dependencies ++ [dependency] }

def dependingOnAll (symbol : Symbol) (dependencies : List Dependency) : Symbol :=
  dependencies.foldl dependingOn symbol

/-- The name without type arguments. -/
def rawName (symbol : Symbol) : String := Text.before '<' symbol.name

def qualify (package name : String) : String :=
  if package.isEmpty then name else package ++ "." ++ name

def qualifiedName (symbol : Symbol) : String := qualify symbol.package symbol.name

/-- What an import of the symbol would name. -/
def importPath? (symbol : Symbol) : Option String :=
  if symbol.package.isEmpty then none else some (symbol.package ++ "." ++ symbol.rawName)

/-- Text with the mark of types that may be null, where the symbol is one. -/
def marked (symbol : Symbol) (text : String) : String := if symbol.nullable then text ++ "?" else text

/-- The type as it stands in source, with its package. -/
def display (symbol : Symbol) : String := symbol.marked symbol.qualifiedName

end Symbol

end SmithyKotlin

import SmithyKotlin.CommandLine.Basic

/-!
# The program

`main` runs the command line on the files of the system.  What a run has to know of them is looked up before it
(`observe`), and what it changed is carried out after it (`carryOut`); the run itself is `CommandLine.run`, and
everything that is proved is about that.  Another program that changes the files in between is not accounted for.
-/

namespace SmithyKotlin.Program

/-- What stands at a path. -/
def standing? (path : String) : IO (Option Node) := do
  match ← (IO.FS.readFile path).toBaseIO with
  | .ok contents => return some (.file contents)
  | .error (.inappropriateType _ _ _) => return some .directory
  | .error _ => return none

/-- Adds to a tree what stands along some steps, as far as they lead. -/
def observeFrom (tree : FileTree) (directory : List String) : List String → IO FileTree
  | [] => return tree
  | step :: rest => do
    match tree.lookUp directory step with
    | .error _ => return tree
    | .ok (place, some .directory) => observeFrom tree place rest
    | .ok (place, _) =>
      match ← standing? (Path.ofComponents place) with
      | none => return tree
      | some node =>
        let tree := tree.put place node
        if node = .directory then observeFrom tree place rest else return tree

def observe (tree : FileTree) (path : String) : IO FileTree := observeFrom tree [] (Path.steps path)

/-- The paths that the arguments name. -/
def namedPaths (arguments : List String) : List String :=
  match CommandLine.readArguments arguments with
  | .error _ => []
  | .ok invocation =>
    match invocation.command with
    | .parse model => [model]
    | .generate model settings _ output => model :: output :: settings.toList

/-- Carries out one change. -/
def carryOut (path : String) : Node → IO Unit
  | .directory => IO.FS.createDir path
  | .file contents => IO.FS.writeFile path contents

/-- Runs the program.  A first run finds out where it would write, so that the second one knows what
stands there. -/
def run (arguments : List String) : IO UInt32 := do
  let known ← (namedPaths arguments).foldlM observe {}
  let planned := (CommandLine.run arguments known).tree
  let known ← planned.keys.foldlM observe known
  let result := CommandLine.run arguments known
  for (path, node) in result.tree.entries do
    if known.get? path ≠ some node then carryOut path node
  IO.print result.stdout
  IO.eprint (result.report.getD (if result.exit = 2 then CommandLine.usage else ""))
  return result.exit.toUInt32

end SmithyKotlin.Program

def main (arguments : List String) : IO UInt32 := SmithyKotlin.Program.run arguments

import SmithyKotlin.Collections.SortedMap
import SmithyKotlin.Error
import SmithyKotlin.Files.Path

/-!
# File trees

A `FileTree` has the files and directories below a place, under their paths from there.

* `lookUp` follows steps through the tree, and `steps?` says which steps a path has.
* `readFile`, `makeDirectories` and `writeFile` fail as an operating system does: on a missing directory, on a file
  where a directory is needed and the other way round, and on a name that is too long.

Outside the place nothing is known but that there are directories (`isOutside`).  Permissions, links and other
programs are left out.
-/

namespace SmithyKotlin

/-- What a path leads to. -/
inductive Node where
  | directory
  | file (contents : String)
  deriving DecidableEq, Repr

abbrev FileTree := SortedMap Node

namespace FileTree

/-- The greatest length of a name in bytes. -/
def nameLimit : Nat := 255

/-- The greatest length of a path in bytes. -/
def pathLimit : Nat := 4095

/-- Whether a place lies at the start of paths or above it, where nothing is known but that there are
directories. -/
def isOutside (place : List String) : Bool := place = ["/"] || place.all (· = "..")

/-- What stands at the place with the given components. -/
def node? (tree : FileTree) (place : List String) : Option Node :=
  if isOutside place then some .directory else tree.get? (Path.ofComponents place)

def put (tree : FileTree) (place : List String) (node : Node) : FileTree :=
  tree.insert (Path.ofComponents place) node

/-- The directory around another one. -/
def above (directory : List String) : List String :=
  if directory = ["/"] then directory
  else if isOutside directory then directory ++ [".."]
  else directory.dropLast

/-- What one step leads to from a directory: the place, and what stands there. -/
def lookUp (tree : FileTree) (directory : List String) (name : String) :
    Except OsError (List String × Option Node) :=
  if name = "/" then .ok (["/"], some .directory)
  else if name = "." then .ok (directory, some .directory)
  else if name = ".." then .ok (above directory, some .directory)
  else if nameLimit < name.utf8ByteSize then .error .nameTooLong
  else .ok (directory ++ [name], tree.node? (directory ++ [name]))

/-- Follows steps from directory to directory. -/
def enter (tree : FileTree) (directory : List String) : List String → Except OsError (List String)
  | [] => .ok directory
  | name :: rest => do
    let (place, node) ← tree.lookUp directory name
    match node with
    | none => .error .missing
    | some (.file _) => .error .notDirectory
    | some .directory => tree.enter place rest

/-- Follows all steps but the last one, and looks the last one up. -/
def locate (tree : FileTree) (path : List String) :
    Except OsError (List String × Option Node) :=
  match path.getLast? with
  | none => .ok ([], some .directory)
  | some name => do
    let directory ← tree.enter [] path.dropLast
    tree.lookUp directory name

/-- The steps of a path, which cannot hold the character that ends texts and has a greatest length. -/
def steps? (path : String) : Except OsError (List String) :=
  if path.toList.contains (Char.ofNat 0) then .error .nulInName
  else if pathLimit < path.utf8ByteSize then .error .nameTooLong
  else .ok (Path.steps path)

def isDirectory (tree : FileTree) (path : List String) : Bool :=
  match tree.locate path with
  | .ok (_, some .directory) => true
  | _ => false

/-- The steps to a file; a slash at the end asks for a directory. -/
def fileSteps? (path : String) : Except OsError (List String) := do
  let steps ← steps? path
  return if path.toList.getLast? = some '/' then steps ++ ["."] else steps

/-- The contents of a file. -/
def readFile (tree : FileTree) (path : String) : Except OsError String := do
  if path.isEmpty then throw .missing
  let (_, node) ← tree.locate (← fileSteps? path)
  match node with
  | none => .error .missing
  | some .directory => .error .isDirectory
  | some (.file contents) => .ok contents

/-- Adds one directory where nothing stands yet. -/
def makeDirectory (tree : FileTree) (path : List String) : Except OsError FileTree := do
  let (place, node) ← tree.locate path
  match node with
  | none => .ok (tree.put place .directory)
  | some _ => .error .occupied

/-- Adds a directory and those around it that are missing. -/
def makeDirectories (tree : FileTree) (path : List String) : Except OsError FileTree :=
  if h : path = [] then .ok tree
  else
    match tree.makeDirectory path with
    | .ok tree => .ok tree
    | .error .missing => do
      have : (Path.around path).length < path.length := Path.length_around_lt h
      let tree ← makeDirectories tree (Path.around path)
      if tree.isDirectory path then return tree else tree.makeDirectory path
    | .error error => if tree.isDirectory path then .ok tree else .error error
termination_by path.length

/-- Writes a file into a directory that exists, over the file that is there. -/
def writeFile (tree : FileTree) (path : String) (contents : String) : Except OsError FileTree := do
  let (place, node) ← tree.locate (← fileSteps? path)
  match node with
  | some .directory => .error .isDirectory
  | _ => .ok (tree.put place (.file contents))

/-- The paths and contents of the files below a directory, seen from there. -/
def filesBelow (tree : FileTree) (directory : String) : List (String × String) :=
  let start := (directory ++ "/").toList
  tree.entries.filterMap fun (path, node) =>
    match node with
    | .directory => none
    | .file contents =>
      if start.isPrefixOf path.toList then
        some (String.ofList (path.toList.drop start.length), contents)
      else none

end FileTree

end SmithyKotlin

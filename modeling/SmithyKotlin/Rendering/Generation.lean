import SmithyKotlin.Files.Tree
import SmithyKotlin.Rendering.Manifest

/-!
# Generating into a directory

`Generation.toDirectory` writes the sources of a model and their manifest below a directory and tells in a `Report`
what it wrote.  Everything is rendered before anything is written, so a model that cannot be rendered leaves no
trace; a failure while writing leaves what was written before it.

`Writing` is an action on a file tree that keeps the tree when it fails, and `andThen` the order of two of them.
-/

namespace SmithyKotlin

structure Report where
  manifest : Manifest
  /-- The paths of the sources that were written, in the order of the ids of their shapes. -/
  written : List String
  /-- The shapes that were skipped. -/
  failures : SortedMap CodegenError

namespace Generation

/-- A file tree that is being written to; a failure keeps the tree it happened in. -/
abbrev Writing (α : Type) := FileTree → Except CodegenError α × FileTree

/-- Carries out one operation on the tree; its failure leaves the tree as it was. -/
def attempt (operation : FileTree → Except OsError FileTree) (fail : OsError → CodegenError) :
    Writing Unit :=
  fun tree =>
    match operation tree with
    | .ok changed => (.ok (), changed)
    | .error error => (.error (fail error), tree)

/-- One step, and what follows it if it succeeds. -/
def andThen {α β : Type} (first : Writing α) (second : α → Writing β) : Writing β :=
  fun tree =>
    match first tree with
    | (.ok value, tree) => second value tree
    | (.error error, tree) => (.error error, tree)

def makeDirectories (path : String) (tree : FileTree) : Except OsError FileTree := do
  tree.makeDirectories (← FileTree.steps? path)

/-- The path of a source below the output directory. -/
def sourcePath (output : String) (file : SourceFile) : String := Path.join output file.path

/-- Writes one source after the directories around it. -/
def writeSource (output : String) (file : SourceFile) : Writing Unit :=
  let path := sourcePath output file
  let parent := (Path.parent? path).getD ""
  andThen (attempt (makeDirectories parent) (.directoryNotCreated parent)) fun _ =>
    attempt (·.writeFile path file.contents) (.fileNotWritten path)

def writeSources (output : String) : List SourceFile → Writing Unit
  | [] => fun tree => (.ok (), tree)
  | file :: rest => andThen (writeSource output file) fun _ => writeSources output rest

def writeManifest (output : String) (manifest : Manifest) : Writing Unit :=
  attempt (·.writeFile (Path.join output Manifest.fileName) manifest.text)
    (.fileNotWritten Manifest.fileName)

/-- Writes all files of a rendering and the manifest. -/
def write (settings : Settings) (output : String) (rendering : Rendering) : Writing Report :=
  let files := rendering.files.values
  let manifest := Manifest.ofRendering settings rendering
  andThen (attempt (makeDirectories output) .outputNotCreated) fun _ =>
    andThen (writeSources output files) fun _ =>
      andThen (writeManifest output manifest) fun _ tree =>
        (.ok { manifest, written := files.map (sourcePath output), failures := rendering.failures },
          tree)

/-- Renders a model and writes it below a directory. -/
def toDirectory (model : Model) (settings : Settings) (output : String) : Writing Report :=
  fun tree =>
    match Rendering.ofModel model settings with
    | .ok rendering => write settings output rendering tree
    | .error error => (.error error, tree)

end Generation

end SmithyKotlin

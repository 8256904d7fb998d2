import SmithyKotlin.Files.Tree
import SmithyKotlin.Settings.Yaml
import SmithyKotlin.Text.Case

/-!
# Settings files

`Settings.load` reads settings from a file and checks them.  The ending of the name decides how it is read
(`Settings.readText`); a file without one is JSON.
-/

namespace SmithyKotlin.Settings

/-- The settings in the text of a file with the given path. -/
def readText (path text : String) : Except CodegenError Settings :=
  match (Path.ending? path).map Text.asciiLower with
  | some "yaml" => (readYaml? text).elim (.error .malformedYaml) .ok
  | some "yml" => (readYaml? text).elim (.error .malformedYaml) .ok
  | some "json" => (readJson text).mapError .malformedSettings
  | none => (readJson text).mapError .malformedSettings
  | some ending => .error (.unsupportedExtension ending)

/-- Reads and checks the settings in a file. -/
def load (tree : FileTree) (path : String) : Except CodegenError Settings := do
  let text ← (tree.readFile path).mapError (.unreadableSettings path)
  let settings ← readText path text
  settings.check
  return settings

end SmithyKotlin.Settings
